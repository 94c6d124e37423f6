/-
# Groups in the order of their first elements, and stable sorts

A list is cut into groups by a key; the groups come in the order of their first elements, and the
elements of a group in their own order.  In each group the early elements come first, by increasing
depth, and the late ones behind them, by decreasing depth; both sorts are stable.

* `groupsOf_eq` : the groups, in closed form;
* `reorder_perm` : nothing is lost and nothing added;
* `reorder_pairwise` : the order that results, as one lexicographic rank;
* `map_reorder` : only key, kind and depth of the elements matter.
-/
import Mathlib

namespace StableGrouping

variable {α β κ : Type*} [DecidableEq κ]

/-! ## Groups -/

/-- Add an element at the end of the group of its key, behind all groups when there is none. -/
def addToGroup (key : κ) (a : α) : List (κ × List α) → List (κ × List α)
  | [] => [(key, [a])]
  | g :: gs => if g.1 = key then (g.1, g.2 ++ [a]) :: gs else g :: addToGroup key a gs

/-- The groups of a list. -/
def groupsOf (keyOf : α → κ) (items : List α) : List (κ × List α) :=
  items.foldl (fun groups a => addToGroup (keyOf a) a groups) []

/-- The keys of a list, in the order of the first elements that have them. -/
def firstKeys (keyOf : α → κ) (items : List α) : List κ :=
  items.foldl (fun keys a => if keyOf a ∈ keys then keys else keys ++ [keyOf a]) []

/-- The place of the first element with a key. -/
def firstIndex (keyOf : α → κ) (items : List α) (key : κ) : ℕ :=
  items.findIdx fun a => keyOf a = key

theorem groupsOf_concat (keyOf : α → κ) (items : List α) (a : α) :
    groupsOf keyOf (items ++ [a]) = addToGroup (keyOf a) a (groupsOf keyOf items) := by
  rw [groupsOf, List.foldl_append]
  rfl

theorem firstKeys_concat (keyOf : α → κ) (items : List α) (a : α) :
    firstKeys keyOf (items ++ [a]) = if keyOf a ∈ firstKeys keyOf items then firstKeys keyOf items
      else firstKeys keyOf items ++ [keyOf a] := by
  rw [firstKeys, List.foldl_append]
  rfl

theorem mem_firstKeys {keyOf : α → κ} {items : List α} {key : κ} :
    key ∈ firstKeys keyOf items ↔ ∃ a ∈ items, keyOf a = key := by
  induction items using List.reverseRecOn with
  | nil => simp [firstKeys]
  | append_singleton items a ih =>
    rw [firstKeys_concat]
    split_ifs with h
    · rw [ih]
      constructor
      · rintro ⟨b, hb, rfl⟩
        exact ⟨b, by simp [hb], rfl⟩
      · rintro ⟨b, hb, rfl⟩
        rcases List.mem_append.mp hb with hb | hb
        · exact ⟨b, hb, rfl⟩
        · obtain rfl := List.mem_singleton.mp hb
          exact ih.mp h
    · simp only [List.mem_append, ih, List.mem_singleton]
      constructor
      · rintro (⟨b, hb, rfl⟩ | rfl)
        · exact ⟨b, .inl hb, rfl⟩
        · exact ⟨a, .inr rfl, rfl⟩
      · rintro ⟨b, hb | rfl, rfl⟩
        · exact .inl ⟨b, hb, rfl⟩
        · exact .inr rfl

theorem firstKeys_pairwise (keyOf : α → κ) (items : List α) :
    (firstKeys keyOf items).Pairwise fun k k' =>
      firstIndex keyOf items k < firstIndex keyOf items k' := by
  induction items using List.reverseRecOn with
  | nil => simp [firstKeys]
  | append_singleton items a ih =>
    have hold : ∀ k ∈ firstKeys keyOf items, firstIndex keyOf items k < items.length ∧
          firstIndex keyOf (items ++ [a]) k = firstIndex keyOf items k := by
      intro k hk
      obtain ⟨b, hb, hkey⟩ := mem_firstKeys.mp hk
      have hlt : firstIndex keyOf items k < items.length :=
        List.findIdx_lt_length_of_exists ⟨b, hb, by simpa using hkey⟩
      refine ⟨hlt, ?_⟩
      rw [firstIndex, List.findIdx_append]
      exact if_pos hlt
    have hpairwise : (firstKeys keyOf items).Pairwise fun k k' =>
        firstIndex keyOf (items ++ [a]) k < firstIndex keyOf (items ++ [a]) k' := by
      refine ih.imp_of_mem fun {k k'} hk hk' hlt => ?_
      rw [(hold k hk).2, (hold k' hk').2]
      exact hlt
    rw [firstKeys_concat]
    split_ifs with h
    · exact hpairwise
    · refine List.pairwise_append.mpr ⟨hpairwise, List.pairwise_singleton _ _, ?_⟩
      rintro k hk k' hk'
      rw [List.mem_singleton.mp hk', (hold k hk).2]
      refine lt_of_lt_of_le (hold k hk).1 ?_
      rw [firstIndex, List.findIdx_append]
      split_ifs with hfound
      · obtain ⟨b, hb, hkey⟩ := List.findIdx_lt_length.mp hfound
        exact absurd (mem_firstKeys.mpr ⟨b, hb, of_decide_eq_true hkey⟩) h
      · exact Nat.le_add_left _ _

theorem firstKeys_nodup (keyOf : α → κ) (items : List α) : (firstKeys keyOf items).Nodup :=
  (firstKeys_pairwise keyOf items).imp fun h heq => absurd h (by rw [heq]; exact lt_irrefl _)

/-- An element is added to groups that are given by distinct keys. -/
theorem addToGroup_map {key : κ} {a : α} {keys : List κ} (hnodup : keys.Nodup)
    {f f' : κ → List α} (hkey : f' key = f key ++ [a]) (hother : ∀ k, k ≠ key → f' k = f k)
    (hnew : key ∉ keys → f key = []) :
    addToGroup key a (keys.map fun k => (k, f k)) =
      (if key ∈ keys then keys else keys ++ [key]).map fun k => (k, f' k) := by
  induction keys with
  | nil => simp [addToGroup, hkey, hnew (List.not_mem_nil)]
  | cons k keys ih =>
    obtain ⟨hk, hnodup⟩ := List.nodup_cons.mp hnodup
    rw [List.map_cons, addToGroup]
    by_cases h : k = key
    · subst h
      have hrest : (keys.map fun k => (k, f k)) = keys.map fun k => (k, f' k) := by
        refine List.map_congr_left fun k' hk' => ?_
        rw [hother k' (by rintro rfl; exact hk hk')]
      rw [if_pos rfl, if_pos List.mem_cons_self, List.map_cons, hkey, hrest]
    · have hmem : key ∈ k :: keys ↔ key ∈ keys := by
        rw [List.mem_cons, or_iff_right (Ne.symm h)]
      rw [if_neg h, ih hnodup fun hnot => hnew (mt hmem.mp hnot)]
      by_cases hin : key ∈ keys
      · rw [if_pos hin, if_pos (hmem.mpr hin), List.map_cons, hother k h]
      · rw [if_neg hin, if_neg (mt hmem.mp hin), List.cons_append, List.map_cons, hother k h]

/-- **The groups.**  One for each key, with the elements that have it. -/
theorem groupsOf_eq (keyOf : α → κ) (items : List α) : groupsOf keyOf items =
      (firstKeys keyOf items).map fun k => (k, items.filter fun a => keyOf a = k) := by
  induction items using List.reverseRecOn with
  | nil => rfl
  | append_singleton items a ih =>
    rw [groupsOf_concat, ih, firstKeys_concat]
    refine addToGroup_map (firstKeys_nodup keyOf items) ?_ ?_ ?_
    · rw [List.filter_append]
      simp
    · intro k hk
      rw [List.filter_append]
      simp [Ne.symm hk]
    · intro hnew
      rw [List.filter_eq_nil_iff]
      intro b hb hkey
      exact hnew (mem_firstKeys.mpr ⟨b, hb, of_decide_eq_true hkey⟩)

theorem flatMap_groupsOf_perm (keyOf : α → κ) (items : List α) :
    ((groupsOf keyOf items).flatMap Prod.snd).Perm items := by
  have hadd : ∀ (key : κ) (a : α) (groups : List (κ × List α)),
      ((addToGroup key a groups).flatMap Prod.snd).Perm (groups.flatMap Prod.snd ++ [a]) := by
    intro key a groups
    induction groups with
    | nil => simp [addToGroup]
    | cons g groups ih =>
      rw [addToGroup]
      split_ifs
      · rw [List.flatMap_cons, List.flatMap_cons, List.append_assoc, List.append_assoc]
        exact List.perm_append_comm.append_left g.2
      · rw [List.flatMap_cons, List.flatMap_cons, List.append_assoc]
        exact ih.append_left g.2
  induction items using List.reverseRecOn with
  | nil => rfl
  | append_singleton items a ih =>
    rw [groupsOf_concat]
    exact (hadd _ a _).trans (ih.append_right [a])

/-! ## Stable sorts -/

section Sorting

variable {r : α → α → Prop} [DecidableRel r] {depthOf : α → ℤ} {place : α → ℕ}

/-- By depth, and by place where the depths are equal. -/
def DepthThenPlace (depthOf : α → ℤ) (place : α → ℕ) (a b : α) : Prop :=
  depthOf a < depthOf b ∨ depthOf a = depthOf b ∧ place a < place b

theorem orderedInsert_pairwise (hr : ∀ a b, r a b ↔ depthOf a ≤ depthOf b) {a : α} {items : List α}
    (hitems : items.Pairwise (DepthThenPlace depthOf place)) (ha : ∀ b ∈ items, place a < place b) :
    (items.orderedInsert r a).Pairwise (DepthThenPlace depthOf place) := by
  induction items with
  | nil => simp
  | cons b items ih =>
    obtain ⟨hb, hrest⟩ := List.pairwise_cons.mp hitems
    rw [List.orderedInsert_cons]
    split_ifs with hab
    · refine List.pairwise_cons.mpr ⟨fun c hc => ?_, hitems⟩
      have hle : depthOf a ≤ depthOf c := by
        rcases List.mem_cons.mp hc with rfl | hc
        · exact (hr _ _).mp hab
        · rcases hb c hc with hlt | ⟨heq, -⟩
          · exact ((hr _ _).mp hab).trans hlt.le
          · exact ((hr _ _).mp hab).trans heq.le
      rcases hle.lt_or_eq with hlt | heq
      · exact .inl hlt
      · exact .inr ⟨heq, ha c hc⟩
    · have hlt : depthOf b < depthOf a := not_le.mp (mt (hr _ _).mpr hab)
      refine List.pairwise_cons.mpr ⟨fun c hc => ?_, ih hrest fun c hc => ha c (List.mem_cons_of_mem _ hc)⟩
      rcases (List.mem_orderedInsert r).mp hc with rfl | hc
      · exact .inl hlt
      · exact hb c hc

/-- **A stable sort** orders by depth, and by place where the depths are equal. -/
theorem insertionSort_pairwise (hr : ∀ a b, r a b ↔ depthOf a ≤ depthOf b) {items : List α}
    (hitems : items.Pairwise fun a b => place a < place b) :
    (items.insertionSort r).Pairwise (DepthThenPlace depthOf place) := by
  induction items with
  | nil => exact List.Pairwise.nil
  | cons a items ih =>
    obtain ⟨ha, hrest⟩ := List.pairwise_cons.mp hitems
    rw [List.insertionSort_cons]
    refine orderedInsert_pairwise hr (ih hrest) fun b hb => ha b ?_
    exact (List.mem_insertionSort r).mp hb

end Sorting

/-! ## The order -/

variable (keyOf : α → κ) (isLate : α → Bool) (depthOf : α → ℤ)

/-- The elements of a group: the early ones by increasing depth, then the late ones by decreasing
depth. -/
def orderGroup (items : List α) : List α :=
  (items.filter fun a => !isLate a).insertionSort (fun a b => depthOf a ≤ depthOf b) ++
    (items.filter isLate).insertionSort fun a b => depthOf b ≤ depthOf a

/-- The groups one after another. -/
def reorder (items : List α) : List α :=
  (groupsOf keyOf items).flatMap fun g => orderGroup isLate depthOf g.2

theorem orderGroup_perm (items : List α) : (orderGroup isLate depthOf items).Perm items := by
  refine ((List.perm_insertionSort _ _).append (List.perm_insertionSort _ _)).trans ?_
  exact List.perm_append_comm.trans (List.filter_append_perm isLate items)

/-- **Nothing is lost and nothing added.** -/
theorem reorder_perm (items : List α) : (reorder keyOf isLate depthOf items).Perm items := by
  have hgroups : ∀ groups : List (κ × List α),
      (groups.flatMap fun g => orderGroup isLate depthOf g.2).Perm (groups.flatMap Prod.snd) := by
    intro groups
    induction groups with
    | nil => rfl
    | cons g groups ih => exact (orderGroup_perm isLate depthOf g.2).append ih
  exact (hgroups _).trans (flatMap_groupsOf_perm keyOf items)

/-- Where an element stands: first its group, then its kind, then its depth, then its place. -/
def rank (items : List α) (place : α → ℕ) (a : α) : ℕ ×ₗ Bool ×ₗ ℤ ×ₗ ℕ :=
  toLex (firstIndex keyOf items (keyOf a), toLex (isLate a,
    toLex (if isLate a then -depthOf a else depthOf a, place a)))

/-- Of two elements of a group the one with the smaller kind, depth and place stands first. -/
theorem rank_lt_rank_iff {items : List α} {place : α → ℕ} {a b : α} (h : keyOf a = keyOf b) :
    rank keyOf isLate depthOf items place a < rank keyOf isLate depthOf items place b ↔
      isLate a < isLate b ∨ isLate a = isLate b ∧ DepthThenPlace
        (fun a => if isLate a then -depthOf a else depthOf a) place a b := by
  simp only [rank, h, Prod.Lex.toLex_lt_toLex, lt_irrefl, false_or, true_and, DepthThenPlace]

/-- A group is in the order of the ranks. -/
theorem orderGroup_pairwise {items group : List α} {place : α → ℕ} {key : κ}
    (hkey : ∀ a ∈ group, keyOf a = key) (h : group.Pairwise fun a b => place a < place b) :
    (orderGroup isLate depthOf group).Pairwise fun a b =>
      rank keyOf isLate depthOf items place a < rank keyOf isLate depthOf items place b := by
  have hearly := @insertionSort_pairwise α (fun a b => depthOf a ≤ depthOf b) _ depthOf place
    (fun _ _ => Iff.rfl) _ (h.filter fun a => !isLate a)
  have hlate := @insertionSort_pairwise α (fun a b => depthOf b ≤ depthOf a) _
    (fun a => -depthOf a) place (fun _ _ => neg_le_neg_iff.symm) _ (h.filter isLate)
  rw [orderGroup]
  refine List.pairwise_append.mpr ⟨hearly.imp_of_mem ?_, hlate.imp_of_mem ?_, ?_⟩
  · intro a b ha hb hlt
    obtain ⟨ha, hka⟩ := List.mem_filter.mp ((List.mem_insertionSort _).mp ha)
    obtain ⟨hb, hkb⟩ := List.mem_filter.mp ((List.mem_insertionSort _).mp hb)
    rw [Bool.not_eq_true'] at hka hkb
    rw [rank_lt_rank_iff _ _ _ ((hkey a ha).trans (hkey b hb).symm)]
    refine .inr ⟨hka.trans hkb.symm, ?_⟩
    simpa [DepthThenPlace, hka, hkb] using hlt
  · intro a b ha hb hlt
    obtain ⟨ha, hka⟩ := List.mem_filter.mp ((List.mem_insertionSort _).mp ha)
    obtain ⟨hb, hkb⟩ := List.mem_filter.mp ((List.mem_insertionSort _).mp hb)
    rw [rank_lt_rank_iff _ _ _ ((hkey a ha).trans (hkey b hb).symm)]
    refine .inr ⟨hka.trans hkb.symm, ?_⟩
    simpa [DepthThenPlace, hka, hkb] using hlt
  · intro a ha b hb
    obtain ⟨ha, hka⟩ := List.mem_filter.mp ((List.mem_insertionSort _).mp ha)
    obtain ⟨hb, hkb⟩ := List.mem_filter.mp ((List.mem_insertionSort _).mp hb)
    rw [Bool.not_eq_true'] at hka
    rw [rank_lt_rank_iff _ _ _ ((hkey a ha).trans (hkey b hb).symm), hka, hkb]
    exact .inl rfl

/-- **The order that results** is the one of the ranks. -/
theorem reorder_pairwise {items : List α} {place : α → ℕ}
    (h : items.Pairwise fun a b => place a < place b) :
    (reorder keyOf isLate depthOf items).Pairwise fun a b =>
      rank keyOf isLate depthOf items place a < rank keyOf isLate depthOf items place b := by
  rw [reorder, groupsOf_eq, List.pairwise_flatMap]
  have hkey : ∀ {k : κ} {a : α},
      a ∈ orderGroup isLate depthOf (items.filter fun a => keyOf a = k) → keyOf a = k := by
    intro k a ha
    have hmem := (orderGroup_perm isLate depthOf _).mem_iff.mp ha
    exact of_decide_eq_true (List.mem_filter.mp hmem).2
  constructor
  · intro g hg
    obtain ⟨k, -, rfl⟩ := List.mem_map.mp hg
    have hkeys : ∀ a ∈ items.filter fun a => keyOf a = k, keyOf a = k := fun a ha =>
      of_decide_eq_true (List.mem_filter.mp ha).2
    exact orderGroup_pairwise keyOf isLate depthOf hkeys (h.filter _)
  · rw [List.pairwise_map]
    refine (firstKeys_pairwise keyOf items).imp fun {k k'} hlt a ha b hb => ?_
    refine Prod.Lex.toLex_lt_toLex.mpr (.inl ?_)
    rw [hkey ha, hkey hb]
    exact hlt

theorem groupsOf_map (f : β → α) (items : List β) : groupsOf keyOf (items.map f) =
      (groupsOf (keyOf ∘ f) items).map fun g => (g.1, g.2.map f) := by
  have hadd : ∀ (key : κ) (b : β) (groups : List (κ × List β)),
      addToGroup key (f b) (groups.map fun g => (g.1, g.2.map f)) =
        (addToGroup key b groups).map fun g => (g.1, g.2.map f) := by
    intro key b groups
    induction groups with
    | nil => rfl
    | cons g groups ih =>
      rw [List.map_cons, addToGroup, addToGroup]
      split_ifs
      · simp
      · rw [List.map_cons, ih]
  induction items using List.reverseRecOn with
  | nil => rfl
  | append_singleton items b ih =>
    rw [List.map_append, List.map_singleton, groupsOf_concat, ih, groupsOf_concat, hadd]
    rfl

/-- **Only key, kind and depth of the elements matter.** -/
theorem map_reorder (f : β → α) (items : List β) :
    (reorder (keyOf ∘ f) (isLate ∘ f) (depthOf ∘ f) items).map f =
      reorder keyOf isLate depthOf (items.map f) := by
  have hgroup : ∀ group : List β, (orderGroup (isLate ∘ f) (depthOf ∘ f) group).map f =
      orderGroup isLate depthOf (group.map f) := by
    intro group
    rw [orderGroup, orderGroup, List.map_append, List.filter_map, List.filter_map]
    congr 1
    · exact List.map_insertionSort _ _ f _ fun _ _ _ _ => Iff.rfl
    · exact List.map_insertionSort _ _ f _ fun _ _ _ _ => Iff.rfl
  rw [reorder, reorder, groupsOf_map, List.map_flatMap, List.flatMap_map]
  exact List.flatMap_congr fun g _ => hgroup g.2

end StableGrouping
