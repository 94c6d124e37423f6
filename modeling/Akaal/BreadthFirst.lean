/-
# Breadth-first search

A search for a target, with a queue and a list of what was visited.  Neighbours are looked at in
order; the search stops at the target, and a neighbour that was not visited is queued.

* `scan_spec` : what looking at the neighbours of one vertex does;
* `search_eq_true_iff` : with enough fuel the search finds the target precisely when a path leads to
  it.

Enough fuel is one step for the start and one for each vertex of a list that contains all neighbours.
-/
import Mathlib.Logic.Relation
import Mathlib.Data.List.Nodup
import Mathlib.Data.List.Perm.Subperm

namespace BreadthFirst

variable {α : Type*} [DecidableEq α] (neighbors : α → List α) (target : α)

/-! ## The search -/

/-- Look at neighbours in order: `none` when the target is among them, else what is visited and
queued after them. -/
def scan : List α → List α → List α → Option (List α × List α)
  | [], visited, queue => some (visited, queue)
  | next :: rest, visited, queue =>
    if next = target then none
    else if next ∈ visited then scan rest visited queue
    else scan rest (next :: visited) (queue ++ [next])

/-- Take vertices from the queue until the target is found or the queue is empty. -/
def search : ℕ → List α → List α → Bool
  | 0, _, _ => false
  | _ + 1, _, [] => false
  | fuel + 1, visited, current :: queue =>
    match scan target (neighbors current) visited queue with
    | none => true
    | some (visited, queue) => search fuel visited queue

/-! ## One vertex -/

/-- **Looking at neighbours.**  When the target is not among them, those that were not visited are
visited and queued, each once; otherwise the target is found. -/
theorem scan_spec (ns visited queue : List α) :
    match scan target ns visited queue with
    | none => target ∈ ns
    | some (visited', queue') => target ∉ ns ∧ ∃ added : List α, visited' = added.reverse ++ visited ∧
        queue' = queue ++ added ∧ added.Nodup ∧ (∀ n ∈ added, n ∈ ns ∧ n ∉ visited) ∧
        ∀ n ∈ ns, n ∈ visited' := by
  induction ns generalizing visited queue with
  | nil =>
    refine ⟨List.not_mem_nil, [], rfl, (List.append_nil _).symm, List.nodup_nil, ?_, ?_⟩
    · intro n hn
      exact absurd hn List.not_mem_nil
    · intro n hn
      exact absurd hn List.not_mem_nil
  | cons next rest ih =>
    rw [scan]
    by_cases htarget : next = target
    · rw [if_pos htarget]
      exact htarget ▸ List.mem_cons_self
    · rw [if_neg htarget]
      by_cases hvisited : next ∈ visited
      · rw [if_pos hvisited]
        have hrest := ih visited queue
        cases hscan : scan target rest visited queue with
        | none =>
          rw [hscan] at hrest
          exact List.mem_cons_of_mem _ hrest
        | some r =>
          rw [hscan] at hrest
          obtain ⟨hnot, added, hvisited', hqueue', hnodup, hadded, hall⟩ := hrest
          refine ⟨?_, added, hvisited', hqueue', hnodup, ?_, ?_⟩
          · exact List.not_mem_cons_of_ne_of_not_mem (Ne.symm htarget) hnot
          · intro n hn
            exact ⟨List.mem_cons_of_mem _ (hadded n hn).1, (hadded n hn).2⟩
          · intro n hn
            rcases List.mem_cons.mp hn with rfl | hn
            · rw [hvisited']
              exact List.mem_append_right _ hvisited
            · exact hall n hn
      · rw [if_neg hvisited]
        have hrest := ih (next :: visited) (queue ++ [next])
        cases hscan : scan target rest (next :: visited) (queue ++ [next]) with
        | none =>
          rw [hscan] at hrest
          exact List.mem_cons_of_mem _ hrest
        | some r =>
          rw [hscan] at hrest
          obtain ⟨hnot, added, hvisited', hqueue', hnodup, hadded, hall⟩ := hrest
          refine ⟨?_, next :: added, ?_, ?_, ?_, ?_, ?_⟩
          · exact List.not_mem_cons_of_ne_of_not_mem (Ne.symm htarget) hnot
          · rw [hvisited', List.reverse_cons, List.append_assoc]
            rfl
          · rw [hqueue', List.append_assoc]
            rfl
          · refine List.nodup_cons.mpr ⟨fun hmem => ?_, hnodup⟩
            exact (hadded next hmem).2 List.mem_cons_self
          · intro n hn
            rcases List.mem_cons.mp hn with rfl | hn
            · exact ⟨List.mem_cons_self, hvisited⟩
            · exact ⟨List.mem_cons_of_mem _ (hadded n hn).1,
                fun h => (hadded n hn).2 (List.mem_cons_of_mem _ h)⟩
          · intro n hn
            rcases List.mem_cons.mp hn with rfl | hn
            · rw [hvisited']
              exact List.mem_append_right _ List.mem_cons_self
            · exact hall n hn

/-! ## Paths -/

/-- One step to a neighbour. -/
def Step (a b : α) : Prop := b ∈ neighbors a

/-- What holds between two steps of a search from a source: the source is visited and the target is
not, the visited vertices are reached and differ, the queued ones are visited, and the neighbours of the others are
visited too. -/
structure Searching (source : α) (visited queue : List α) : Prop where
  source_mem : source ∈ visited
  target_not_mem : target ∉ visited
  nodup : visited.Nodup
  reached : ∀ v ∈ visited, Relation.ReflTransGen (Step neighbors) source v
  queued : ∀ v ∈ queue, v ∈ visited
  closed : ∀ v ∈ visited, v ∉ queue → ∀ n ∈ neighbors v, n ∈ visited

variable {neighbors target} {source : α} {visited queue : List α}

omit [DecidableEq α] in
theorem Searching.not_reached (h : Searching neighbors target source visited []) :
    ¬ Relation.ReflTransGen (Step neighbors) source target := by
  intro hpath
  have hvisited : ∀ v, Relation.ReflTransGen (Step neighbors) source v → v ∈ visited := by
    intro v hv
    induction hv with
    | refl => exact h.source_mem
    | tail _ hstep ih => exact h.closed _ ih List.not_mem_nil _ hstep
  exact h.target_not_mem (hvisited target hpath)

/-- Looking at the neighbours of the first vertex of the queue. -/
theorem Searching.scan {current : α}
    (h : Searching neighbors target source visited (current :: queue)) {added : List α}
    (hnot : target ∉ neighbors current) (hnodup : added.Nodup)
    (hadded : ∀ n ∈ added, n ∈ neighbors current ∧ n ∉ visited)
    (hall : ∀ n ∈ neighbors current, n ∈ added.reverse ++ visited) :
    Searching neighbors target source (added.reverse ++ visited) (queue ++ added) where
  source_mem := List.mem_append_right _ h.source_mem
  target_not_mem := by
    rw [List.mem_append, List.mem_reverse]
    rintro (hmem | hmem)
    · exact hnot (hadded _ hmem).1
    · exact h.target_not_mem hmem
  nodup := by
    refine List.Nodup.append (List.nodup_reverse.mpr hnodup) h.nodup ?_
    intro n hn hvisited
    exact (hadded n (List.mem_reverse.mp hn)).2 hvisited
  reached := by
    intro v hv
    rcases List.mem_append.mp hv with hv | hv
    · exact (h.reached current (h.queued _ List.mem_cons_self)).tail
        (hadded v (List.mem_reverse.mp hv)).1
    · exact h.reached v hv
  queued := by
    intro v hv
    rcases List.mem_append.mp hv with hv | hv
    · exact List.mem_append_right _ (h.queued v (List.mem_cons_of_mem _ hv))
    · exact List.mem_append_left _ (List.mem_reverse.mpr hv)
  closed := by
    intro v hv hqueue n hn
    rw [List.mem_append, not_or] at hqueue
    rcases List.mem_append.mp hv with hv | hv
    · exact absurd (List.mem_reverse.mp hv) hqueue.2
    · by_cases hcurrent : v = current
      · exact hall n (hcurrent ▸ hn)
      · exact List.mem_append_right _
          (h.closed v hv (List.not_mem_cons_of_ne_of_not_mem hcurrent hqueue.1) n hn)

/-- A search with a step of fuel for each queued vertex and each vertex not yet visited. -/
theorem search_iff_of_searching {vertices : List α}
    (hvertices : ∀ v, ∀ n ∈ neighbors v, n ∈ vertices) {fuel : ℕ}
    (h : Searching neighbors target source visited queue)
    (hsub : ∀ v ∈ visited, v ∈ source :: vertices)
    (hfuel : vertices.length + 1 + queue.length < fuel + visited.length) :
    search neighbors target fuel visited queue = true ↔
      Relation.ReflTransGen (Step neighbors) source target := by
  induction fuel generalizing visited queue with
  | zero =>
    -- the visited vertices are distinct ones of the start and the vertices
    have hle : visited.length ≤ (source :: vertices).length :=
      (h.nodup.subperm fun v hv => hsub v hv).length_le
    rw [List.length_cons] at hle
    omega
  | succ fuel ih =>
    cases queue with
    | nil =>
      constructor
      · intro hfound
        cases hfound
      · intro hpath
        exact absurd hpath h.not_reached
    | cons current queue =>
      rw [search]
      have hspec := scan_spec target (neighbors current) visited queue
      cases hscan : BreadthFirst.scan target (neighbors current) visited queue with
      | none =>
        rw [hscan] at hspec
        constructor
        · intro _
          exact (h.reached current (h.queued _ List.mem_cons_self)).tail hspec
        · intro _
          rfl
      | some r =>
        obtain ⟨visited', queue'⟩ := r
        rw [hscan] at hspec
        obtain ⟨hnot, added, rfl, rfl, hnodup, hadded, hall⟩ := hspec
        refine ih (h.scan hnot hnodup hadded hall) ?_ ?_
        · intro v hv
          rcases List.mem_append.mp hv with hv | hv
          · exact List.mem_cons_of_mem _
              (hvertices current v (hadded v (List.mem_reverse.mp hv)).1)
          · exact hsub v hv
        · rw [List.length_cons] at hfuel
          rw [List.length_append, List.length_append, List.length_reverse]
          omega

/-- **The search finds paths.**  From a source that is not the target, the search finds the target
precisely when a path leads to it. -/
theorem search_eq_true_iff {vertices : List α}
    (hvertices : ∀ v, ∀ n ∈ neighbors v, n ∈ vertices) (hne : source ≠ target) {fuel : ℕ}
    (hfuel : vertices.length + 1 < fuel) :
    search neighbors target fuel [source] [source] = true ↔
      Relation.ReflTransGen (Step neighbors) source target := by
  have hstart : Searching neighbors target source [source] [source] := by
    refine ⟨List.mem_singleton_self _, ?_, List.nodup_singleton _, ?_, fun v hv => hv, ?_⟩
    · rw [List.mem_singleton]
      exact Ne.symm hne
    · intro v hv
      rw [List.mem_singleton.mp hv]
    · intro v hv hqueue
      exact absurd hv hqueue
  refine search_iff_of_searching hvertices hstart ?_ ?_
  · intro v hv
    rw [List.mem_singleton.mp hv]
    exact List.mem_cons_self
  · rw [List.length_singleton]
    omega

end BreadthFirst
