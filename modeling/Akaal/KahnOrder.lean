/-
# Kahn's algorithm

Nodes with prerequisites are released one after the other, the least one that waits first: a node waits
when as many of its prerequisites have been released as it has.  Which nodes a release is told to is given
apart from the prerequisites, and may leave some out; what is left at the end follows in its order.

* `drain_spec` : what is known when no node waits any more;
* `mem_drain_iff` : which nodes are released;
* `nodup_order`, `mem_order_iff` : every node is listed once;
* `order_iff` : when prerequisites are listed first.
-/
import Mathlib

namespace KahnOrder

variable {V : Type*} [LinearOrder V]

/-! ## The algorithm -/

/-- A release is told to a node, which has one prerequisite less and waits when none is left. -/
def lower (s : (V → ℤ) × List V) (dep : V) : (V → ℤ) × List V :=
  (Function.update s.1 dep (s.1 dep - 1), if s.1 dep - 1 = 0 then dep :: s.2 else s.2)

/-- The nodes that are released, at most as many as the bound. -/
def drain (dependents : V → List V) : ℕ → (V → ℤ) → List V → List V
  | 0, _, _ => []
  | bound + 1, degree, queue =>
    match queue.min? with
    | none => []
    | some curr =>
      let s := (dependents curr).foldl lower (degree, queue.erase curr)
      curr :: drain dependents bound s.1 s.2

/-- The nodes that are released, and those that are left. -/
def order (nodes : List V) (dependents : V → List V) (degree : V → ℤ) : List V :=
  let ordered := drain dependents nodes.length degree (nodes.filter (degree · = 0))
  if ordered.length < nodes.length then
    ordered ++ (nodes.filter (!ordered.contains ·)).insertionSort (· ≤ ·)
  else ordered

/-! ## Releases -/

section Releases

variable (prereqs : V → Finset V) (dependents : V → List V)

/-- A node is released when all its prerequisites are, and tell it. -/
inductive Released : V → Prop
  | intro {n : V} (htold : ∀ p ∈ prereqs n, n ∈ dependents p)
      (hreleased : ∀ p ∈ prereqs n, Released p) : Released n

/-- The prerequisites of a node that have not been released, or have not told it. -/
noncomputable def outstanding (done : List V) (n : V) : Finset V :=
  @Finset.filter V (fun p => ¬ (p ∈ done ∧ n ∈ dependents p)) (Classical.decPred _) (prereqs n)

/-- What is known after some releases, with nodes that wait. -/
structure Progress (nodes : List V) (done : List V) (degree : V → ℤ) (queue : List V) : Prop where
  once : (done ++ queue).Nodup
  count : ∀ n ∈ nodes, degree n = (outstanding prereqs dependents done n).card
  mem : ∀ n, n ∈ done ++ queue ↔ n ∈ nodes ∧ degree n = 0
  first : ∀ before n after, done = before ++ n :: after →
    ∀ p ∈ prereqs n, p ∈ before ∧ n ∈ dependents p

/-- What ties the prerequisites to the nodes that are told. -/
structure Linked (nodes : List V) : Prop where
  nodup : nodes.Nodup
  inside : ∀ n ∈ nodes, ∀ p ∈ prereqs n, p ∈ nodes
  told : ∀ p ∈ nodes, ∀ n ∈ dependents p, n ∈ nodes ∧ p ∈ prereqs n
  once : ∀ p, (dependents p).Nodup

end Releases

/-- The degrees and the queue after a release is told to distinct nodes. -/
theorem foldl_lower {deps : List V} (hdeps : deps.Nodup) (degree : V → ℤ) (queue : List V) :
    (∀ n, (deps.foldl lower (degree, queue)).1 n = degree n - if n ∈ deps then 1 else 0) ∧
      (deps.foldl lower (degree, queue)).2 =
        (deps.filter fun n => degree n = 1).reverse ++ queue := by
  induction deps generalizing degree queue with
  | nil => simp
  | cons dep deps ih =>
    obtain ⟨hdep, hrest⟩ := List.nodup_cons.mp hdeps
    obtain ⟨hdegree, hqueue⟩ := ih hrest (Function.update degree dep (degree dep - 1))
      (if degree dep - 1 = 0 then dep :: queue else queue)
    rw [List.foldl_cons, lower]
    constructor
    · intro n
      rw [hdegree]
      by_cases hn : n = dep
      · subst hn
        rw [Function.update_self, if_neg hdep, if_pos List.mem_cons_self, sub_zero]
      · rw [Function.update_of_ne hn]
        simp [hn]
    · rw [hqueue]
      have hfilter : (deps.filter fun n => Function.update degree dep (degree dep - 1) n = 1) =
          deps.filter fun n => degree n = 1 := by
        refine List.filter_congr fun n hn => ?_
        have hne : n ≠ dep := fun h => hdep (h ▸ hn)
        rw [Function.update_of_ne hne]
      rw [hfilter]
      by_cases hone : degree dep = 1
      · rw [if_pos (by omega), List.filter_cons_of_pos (by simpa using hone), List.reverse_cons,
          List.append_assoc, List.singleton_append]
      · rw [if_neg (by omega), List.filter_cons_of_neg (by simpa using hone)]

theorem sublist_of_mem_before {α : Type*} {p n : α} {before after : List α} (hp : p ∈ before) :
    [p, n].Sublist (before ++ n :: after) :=
  (List.singleton_sublist.mpr hp).append (List.singleton_sublist.mpr List.mem_cons_self)

theorem sublist_iff_lt {l : List V} (hl : l.Pairwise (· ≤ ·)) {p n : V} (hp : p ∈ l) (hn : n ∈ l)
    (hne : p ≠ n) : [p, n].Sublist l ↔ p < n := by
  constructor
  · intro hsublist
    have hpair := hl.sublist hsublist
    rw [List.pairwise_pair] at hpair
    exact lt_of_le_of_ne hpair hne
  · intro hlt
    obtain ⟨before, after, rfl⟩ := List.append_of_mem hn
    rcases List.mem_append.mp hp with hbefore | hafter
    · exact sublist_of_mem_before hbefore
    · rcases List.mem_cons.mp hafter with rfl | hafter
      · exact absurd rfl hne
      · have hle := (List.pairwise_cons.mp (List.pairwise_append.mp hl).2.1).1 p hafter
        exact absurd hle (not_le.mpr hlt)

section Correctness

variable {prereqs : V → Finset V} {dependents : V → List V} {nodes done : List V} {degree : V → ℤ}
  {queue : List V}

theorem mem_outstanding_iff {n p : V} :
    p ∈ outstanding prereqs dependents done n ↔ p ∈ prereqs n ∧ ¬ (p ∈ done ∧ n ∈ dependents p) :=
  @Finset.mem_filter V _ (Classical.decPred _) (prereqs n) p

/-- A release leaves its node outstanding nowhere it is told to. -/
theorem outstanding_concat (curr n : V) : outstanding prereqs dependents (done ++ [curr]) n =
      if n ∈ dependents curr then (outstanding prereqs dependents done n).erase curr
      else outstanding prereqs dependents done n := by
  ext p
  split_ifs with htold
  · simp only [mem_outstanding_iff, Finset.mem_erase, List.mem_append, List.mem_singleton]
    grind
  · simp only [mem_outstanding_iff, List.mem_append, List.mem_singleton]
    grind

/-- The degree a node has after a release. -/
theorem Progress.count_release (hlinked : Linked prereqs dependents nodes)
    (h : Progress prereqs dependents nodes done degree queue) {curr : V} (hcurr : curr ∈ queue)
    {n : V} (hn : n ∈ nodes) :
    degree n - (if n ∈ dependents curr then 1 else 0) =
      (outstanding prereqs dependents (done ++ [curr]) n).card := by
  have hnotDone : curr ∉ done := fun hdone => List.disjoint_of_nodup_append h.once hdone hcurr
  have hnode : curr ∈ nodes := ((h.mem curr).mp (List.mem_append_right _ hcurr)).1
  rw [outstanding_concat, h.count n hn]
  split_ifs with htold
  · have hmem : curr ∈ outstanding prereqs dependents done n :=
      mem_outstanding_iff.mpr ⟨(hlinked.told curr hnode n htold).2, fun hboth => hnotDone hboth.1⟩
    rw [Finset.card_erase_of_mem hmem, Nat.cast_sub (Finset.card_pos.mpr ⟨curr, hmem⟩)]
    rfl
  · rw [sub_zero]

/-- **A release** keeps what is known. -/
theorem Progress.release (hlinked : Linked prereqs dependents nodes)
    (h : Progress prereqs dependents nodes done degree queue) {curr : V} (hcurr : curr ∈ queue) :
    Progress prereqs dependents nodes (done ++ [curr])
      ((dependents curr).foldl lower (degree, queue.erase curr)).1
      ((dependents curr).foldl lower (degree, queue.erase curr)).2 := by
  obtain ⟨hdegree, hqueue⟩ := foldl_lower (hlinked.once curr) degree (queue.erase curr)
  obtain ⟨hnode, hzero⟩ := (h.mem curr).mp (List.mem_append_right _ hcurr)
  -- whoever is told has this prerequisite outstanding, and does not wait yet
  have hpositive : ∀ n ∈ dependents curr, 1 ≤ degree n := by
    intro n htold
    have hn := (hlinked.told curr hnode n htold).1
    have hcount := h.count_release hlinked hcurr hn
    rw [if_pos htold] at hcount
    have := Nat.zero_le (outstanding prereqs dependents (done ++ [curr]) n).card
    omega
  have hperm : (done ++ [curr] ++ queue.erase curr).Perm (done ++ queue) := by
    rw [List.append_assoc]
    exact (List.perm_cons_erase hcurr).symm.append_left done
  rw [hqueue]
  refine ⟨?_, ?_, ?_, ?_⟩
  · have hnew : ((dependents curr).filter fun n => degree n = 1).reverse.Disjoint
        (done ++ [curr] ++ queue.erase curr) := by
      intro n hn hold
      have hone : degree n = 1 := by simpa using (List.mem_filter.mp (List.mem_reverse.mp hn)).2
      have hwaits := ((h.mem n).mp (hperm.mem_iff.mp hold)).2
      omega
    have hfresh := List.nodup_reverse.mpr ((hlinked.once curr).filter fun n => decide (degree n = 1))
    have hall := hfresh.append (hperm.nodup_iff.mpr h.once) hnew
    refine (List.Perm.nodup_iff ?_).mp hall
    rw [← List.append_assoc, ← List.append_assoc (done ++ [curr])]
    exact List.perm_append_comm.append_right _
  · intro n hn
    rw [hdegree, h.count_release hlinked hcurr hn]
  · intro n
    have hwaits : n ∈ done ++ [curr] ++ queue.erase curr ↔ n ∈ nodes ∧ degree n = 0 := by
      rw [hperm.mem_iff, h.mem]
    have hsplit : n ∈ done ++ [curr] ++ (((dependents curr).filter fun n => degree n = 1).reverse ++
        queue.erase curr) ↔ n ∈ done ++ [curr] ++ queue.erase curr ∨
          n ∈ dependents curr ∧ degree n = 1 := by
      simp only [List.mem_append, List.mem_reverse, List.mem_filter, decide_eq_true_eq]
      tauto
    rw [hsplit, hwaits, hdegree]
    by_cases htold : n ∈ dependents curr
    · have hn := (hlinked.told curr hnode n htold).1
      have := hpositive n htold
      rw [if_pos htold]
      constructor
      · rintro (⟨-, hz⟩ | ⟨-, hone⟩)
        · omega
        · exact ⟨hn, by omega⟩
      · rintro ⟨-, hz⟩
        exact Or.inr ⟨htold, by omega⟩
    · rw [if_neg htold, sub_zero]
      tauto
  · intro before n after hsplit p hp
    rcases List.eq_nil_or_concat after with rfl | ⟨after', last, rfl⟩
    · obtain ⟨rfl, hsame⟩ := List.append_inj' hsplit rfl
      obtain rfl : curr = n := by simpa using hsame
      have hempty : outstanding prereqs dependents done curr = ∅ := by
        rw [← Finset.card_eq_zero]
        have := h.count curr hnode
        omega
      by_contra hnot
      exact Finset.notMem_empty p (hempty ▸ mem_outstanding_iff.mpr ⟨hp, hnot⟩)
    · have hdone : done = before ++ n :: after' := by
        rw [List.concat_eq_append, ← List.cons_append, ← List.append_assoc] at hsplit
        exact (List.append_inj' hsplit rfl).1
      exact h.first before n after' hdone p hp

theorem Progress.queue_eq_nil (h : Progress prereqs dependents nodes done degree queue)
    (hdone : nodes.length ≤ done.length) : queue = [] := by
  have hsubset : done ++ queue ⊆ nodes := fun n hn => ((h.mem n).mp hn).1
  have hlength := (List.subperm_of_subset h.once hsubset).length_le
  rw [List.length_append] at hlength
  exact List.length_eq_zero_iff.mp (by omega)

/-- **The releases** end with no node that waits. -/
theorem drain_spec (hlinked : Linked prereqs dependents nodes) {bound : ℕ}
    (h : Progress prereqs dependents nodes done degree queue)
    (hbound : nodes.length ≤ done.length + bound) :
    ∃ degree', Progress prereqs dependents nodes (done ++ drain dependents bound degree queue)
      degree' [] := by
  induction bound generalizing done degree queue with
  | zero =>
    obtain rfl := h.queue_eq_nil hbound
    exact ⟨degree, by rwa [drain, List.append_nil]⟩
  | succ bound ih =>
    rw [drain]
    cases hmin : queue.min? with
    | none =>
      rw [List.min?_eq_none_iff] at hmin
      subst hmin
      exact ⟨degree, by rwa [List.append_nil]⟩
    | some curr =>
      have hcurr : curr ∈ queue := List.min?_mem hmin
      obtain ⟨degree', hend⟩ := ih (h.release hlinked hcurr) (by
        rw [List.length_append, List.length_singleton]
        omega)
      rw [List.append_assoc, List.singleton_append] at hend
      exact ⟨degree', hend⟩

/-- Where every node has the degree of its prerequisites, nothing has been released. -/
theorem progress_nil (hlinked : Linked prereqs dependents nodes)
    (hdegree : ∀ n ∈ nodes, degree n = (prereqs n).card) :
    Progress prereqs dependents nodes [] degree (nodes.filter (degree · = 0)) where
  once := hlinked.nodup.filter _
  count n hn := by
    have hall : outstanding prereqs dependents [] n = prereqs n := by
      ext p
      simp [mem_outstanding_iff]
    rw [hdegree n hn, hall]
  mem n := by rw [List.nil_append, List.mem_filter, decide_eq_true_eq]
  first before n after hsplit := absurd hsplit.symm (List.append_ne_nil_of_right_ne_nil _ (by simp))

variable (hlinked : Linked prereqs dependents nodes)
  (hdegree : ∀ n ∈ nodes, degree n = (prereqs n).card)
include hlinked hdegree

theorem drained : ∃ degree', Progress prereqs dependents nodes
    (drain dependents nodes.length degree (nodes.filter (degree · = 0))) degree' [] := by
  have henough : nodes.length ≤ ([] : List V).length + nodes.length := Nat.le_add_left _ _
  have hend := drain_spec hlinked (progress_nil hlinked hdegree) henough
  simpa only [List.nil_append] using hend

/-- **Which nodes** are released. -/
theorem mem_drain_iff {n : V} :
    n ∈ drain dependents nodes.length degree (nodes.filter (degree · = 0)) ↔
      n ∈ nodes ∧ Released prereqs dependents n := by
  obtain ⟨degree', hend⟩ := drained hlinked hdegree
  generalize drain dependents nodes.length degree (nodes.filter (degree · = 0)) = done at hend ⊢
  have hmem : ∀ n, n ∈ done ↔ n ∈ nodes ∧ degree' n = 0 := by
    simpa only [List.append_nil] using hend.mem
  constructor
  · intro hn
    refine ⟨((hmem n).mp hn).1, ?_⟩
    -- by induction on how many nodes are released before this one
    obtain ⟨before, after, hsplit⟩ := List.append_of_mem hn
    clear hn
    induction hsize : before.length using Nat.strong_induction_on generalizing n before after with
    | _ size ih =>
      have hfirst := hend.first before n after hsplit
      refine .intro (fun p hp => (hfirst p hp).2) fun p hp => ?_
      obtain ⟨before', after', rfl⟩ := List.append_of_mem (hfirst p hp).1
      refine ih before'.length ?_ before' (after' ++ n :: after) ?_ rfl
      · rw [← hsize, List.length_append, List.length_cons]
        omega
      · rw [hsplit, List.append_assoc, List.cons_append]
  · rintro ⟨hn, hreleased⟩
    induction hreleased with
    | @intro n htold _ ih =>
      have hempty : outstanding prereqs dependents done n = ∅ := by
        refine Finset.eq_empty_of_forall_notMem fun p hp => ?_
        obtain ⟨hp, hnot⟩ := mem_outstanding_iff.mp hp
        exact hnot ⟨ih p hp (hlinked.inside n hn p hp), htold p hp⟩
      rw [hmem, hend.count n hn, hempty]
      exact ⟨hn, rfl⟩

/-- The nodes that are left come after the released ones, in their order. -/
theorem order_eq : ∃ ordered remaining, order nodes dependents degree = ordered ++ remaining ∧
      (∃ degree', Progress prereqs dependents nodes ordered degree' []) ∧
      (∀ n, n ∈ ordered ↔ n ∈ nodes ∧ Released prereqs dependents n) ∧
      (∀ n, n ∈ remaining ↔ n ∈ nodes ∧ ¬ Released prereqs dependents n) ∧
      remaining.Nodup ∧ remaining.Pairwise (· ≤ ·) := by
  have hmem := fun n => mem_drain_iff hlinked hdegree (n := n)
  have hend := drained hlinked hdegree
  rw [order]
  generalize drain dependents nodes.length degree (nodes.filter (degree · = 0)) = ordered
    at hmem hend ⊢
  have hleft : ∀ n, n ∈ nodes.filter (!ordered.contains ·) ↔
      n ∈ nodes ∧ ¬ Released prereqs dependents n := by
    intro n
    rw [List.mem_filter, Bool.not_eq_true', List.contains_eq_mem, decide_eq_false_iff_not, hmem]
    tauto
  have hnodup : (nodes.filter (!ordered.contains ·)).Nodup := hlinked.nodup.filter _
  by_cases hshort : ordered.length < nodes.length
  · refine ⟨ordered, _, if_pos hshort, hend, hmem, fun n => ?_, ?_, ?_⟩
    · rw [List.mem_insertionSort, hleft]
    · exact (List.perm_insertionSort _ _).nodup_iff.mpr hnodup
    · exact List.pairwise_insertionSort _ _
  · have hall : ∀ n ∈ nodes, n ∈ ordered := by
      obtain ⟨degree', hprogress⟩ := hend
      have honce : ordered.Nodup := by simpa using hprogress.once
      have hsubset : ordered.Subperm nodes :=
        List.subperm_of_subset honce fun n hn => ((hmem n).mp hn).1
      have hperm := hsubset.perm_of_length_le (not_lt.mp hshort)
      exact fun n hn => hperm.mem_iff.mpr hn
    refine ⟨ordered, [], ?_, hend, hmem, fun n => ?_, List.nodup_nil, List.Pairwise.nil⟩
    · rw [if_neg hshort, List.append_nil]
    · refine iff_of_false List.not_mem_nil fun hn => hn.2 ((hmem n).mp (hall n hn.1)).2

/-- **Every node** is listed once. -/
theorem nodup_order : (order nodes dependents degree).Nodup := by
  obtain ⟨ordered, remaining, horder, ⟨degree', hprogress⟩, hreleased, hleft, hnodup, -⟩ :=
    order_eq hlinked hdegree
  have honce : ordered.Nodup := by simpa using hprogress.once
  rw [horder]
  exact honce.append hnodup fun n hn hn' => ((hleft n).mp hn').2 ((hreleased n).mp hn).2

/-- The nodes are listed, and no others. -/
theorem mem_order_iff {n : V} : n ∈ order nodes dependents degree ↔ n ∈ nodes := by
  obtain ⟨ordered, remaining, horder, -, hreleased, hleft, -⟩ := order_eq hlinked hdegree
  rw [horder, List.mem_append, hreleased, hleft]
  tauto

/-- **The prerequisites** are listed first just when those that are left are less than what needs
them. -/
theorem order_iff :
    (∀ n ∈ nodes, ∀ p ∈ prereqs n, p ≠ n → [p, n].Sublist (order nodes dependents degree)) ↔
      ∀ n ∈ nodes, ∀ p ∈ prereqs n, p ≠ n → ¬ Released prereqs dependents n →
        ¬ Released prereqs dependents p → p < n := by
  obtain ⟨ordered, remaining, horder, ⟨degree', hprogress⟩, hreleased, hleft, hnodup, hsorted⟩ :=
    order_eq hlinked hdegree
  rw [horder]
  refine forall₄_congr fun n hn p hp => forall_congr' fun hne => ?_
  have hinside := hlinked.inside n hn p hp
  by_cases hn' : Released prereqs dependents n
  · refine iff_of_true ?_ (absurd hn')
    obtain ⟨before, after, hsplit⟩ := List.append_of_mem ((hreleased n).mpr ⟨hn, hn'⟩)
    have hbefore := (hprogress.first before n after hsplit p hp).1
    exact (hsplit ▸ sublist_of_mem_before hbefore).trans (List.sublist_append_left _ _)
  have hlast : n ∈ remaining := (hleft n).mpr ⟨hn, hn'⟩
  by_cases hp' : Released prereqs dependents p
  · refine iff_of_true ?_ fun _ => absurd hp'
    exact (List.singleton_sublist.mpr ((hreleased p).mpr ⟨hinside, hp'⟩)).append
      (List.singleton_sublist.mpr hlast)
  · have hnot : p ∉ ordered := fun h => hp' ((hreleased p).mp h).2
    have hlate : p ∈ remaining := (hleft p).mpr ⟨hinside, hp'⟩
    rw [forall_prop_of_true hn', forall_prop_of_true hp', ← sublist_iff_lt hsorted hlate hlast hne]
    constructor
    · intro hsublist
      obtain ⟨early, late, hboth, hearly, hlate⟩ := List.sublist_append_iff.mp hsublist
      cases early with
      | nil =>
        rw [List.nil_append] at hboth
        rwa [hboth]
      | cons first early =>
        obtain ⟨rfl, -⟩ := List.cons.inj hboth
        exact absurd (hearly.subset List.mem_cons_self) hnot
    · exact fun hsublist => hsublist.trans (List.sublist_append_right _ _)

end Correctness

end KahnOrder
