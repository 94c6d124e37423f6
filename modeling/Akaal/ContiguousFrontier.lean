/-
# Contiguous frontiers

A tracker of positions in a linear order: positions are registered as pending, and completed in
any order.  Its frontier is the highest completed position that has no pending position below
it, found by a loop over the completed positions in increasing order that stops at the first
one with a pending position below.

* `le_advance_iff` : what the loop finds;
* `le_complete_iff` : when the frontier reaches the position that is completed;
* `frontier_le_complete` : the frontier never goes back;
* `Tracks.isGreatest` : when positions are registered in increasing order, the frontier is the
  greatest completed position below all that are still to be completed.
-/
import Mathlib

namespace ContiguousFrontier

variable {K : Type*} [LinearOrder K]

/-- A tracker: the completed and the pending positions, both in increasing order, and the
frontier. -/
structure Tracker (K : Type*) where
  completed : List K
  pending : List K
  frontier : WithBot K

/-! ## The loop over the completed positions -/

/-- Advance a frontier over completed positions, as long as nothing is pending below them. -/
def advance (pending : List K) : WithBot K → List K → WithBot K
  | f, [] => f
  | f, c :: cs =>
    if pending.any (fun p => decide (p < c)) then f else advance pending (max f c) cs

theorem le_advance (pending : List K) (f : WithBot K) (completed : List K) :
    f ≤ advance pending f completed := by
  induction completed generalizing f with
  | nil => exact le_refl f
  | cons c cs ih =>
    rw [advance]
    split_ifs
    · exact le_refl f
    · exact le_trans (le_max_left f c) (ih (max f c))

/-- **What the loop finds**: it reaches a position exactly when the frontier had, or a completed
position above it has nothing pending below. -/
theorem le_advance_iff {pending : List K} {f : WithBot K} {completed : List K}
    (hsorted : completed.Pairwise (· ≤ ·)) {k : K} :
    (k : WithBot K) ≤ advance pending f completed ↔
      (k : WithBot K) ≤ f ∨ ∃ c ∈ completed, k ≤ c ∧ ∀ p ∈ pending, c ≤ p := by
  induction completed generalizing f with
  | nil => simp [advance]
  | cons c cs ih =>
    obtain ⟨hc, hcs⟩ := List.pairwise_cons.mp hsorted
    rw [advance]
    split_ifs with hany
    · -- Something is pending below `c`, and so below every later position.
      obtain ⟨p, hp, hlt⟩ := List.any_eq_true.mp hany
      have hlt : p < c := of_decide_eq_true hlt
      constructor
      · exact Or.inl
      · rintro (hk | ⟨d, hd, -, hpending⟩)
        · exact hk
        · have hcd : c ≤ d := by
            rcases List.mem_cons.mp hd with rfl | hd
            · exact le_refl d
            · exact hc d hd
          exact absurd (hpending p hp) (not_le.mpr (lt_of_lt_of_le hlt hcd))
    · have hpending : ∀ p ∈ pending, c ≤ p := by
        intro p hp
        by_contra hlt
        exact hany (List.any_eq_true.mpr ⟨p, hp, decide_eq_true (not_le.mp hlt)⟩)
      rw [ih hcs, le_max_iff, WithBot.coe_le_coe]
      constructor
      · rintro ((hk | hk) | ⟨d, hd, hkd, hp⟩)
        · exact .inl hk
        · exact .inr ⟨c, List.mem_cons_self, hk, hpending⟩
        · exact .inr ⟨d, List.mem_cons_of_mem c hd, hkd, hp⟩
      · rintro (hk | ⟨d, hd, hkd, hp⟩)
        · exact .inl (.inl hk)
        · rcases List.mem_cons.mp hd with rfl | hd
          · exact .inl (.inr hkd)
          · exact .inr ⟨d, hd, hkd, hp⟩

/-! ## Registering and completing -/

namespace Tracker

/-- Register a pending position. -/
def register (t : Tracker K) (k : K) : Tracker K :=
  if k ∈ t.pending then t
  else { t with pending := (t.pending ++ [k]).insertionSort (· ≤ ·) }

/-- Complete a position, and advance the frontier. -/
def complete (t : Tracker K) (k : K) : Tracker K :=
  let pending := t.pending.erase k
  let completed :=
    if k ∈ t.completed then t.completed else (t.completed ++ [k]).insertionSort (· ≤ ·)
  ⟨completed, pending, advance pending t.frontier completed⟩

/-- The lists are in increasing order, and no pending position occurs twice. -/
structure Sorted (t : Tracker K) : Prop where
  completed : t.completed.Pairwise (· ≤ ·)
  pending : t.pending.Nodup

variable {k : K} {t : Tracker K}

@[simp] theorem mem_pending_register {p : K} :
    p ∈ (t.register k).pending ↔ p = k ∨ p ∈ t.pending := by
  rw [register]
  split_ifs with hk
  · constructor
    · exact Or.inr
    · rintro (rfl | hp)
      · exact hk
      · exact hp
  · simp [List.mem_insertionSort, or_comm]

@[simp] theorem frontier_register (t : Tracker K) (k : K) :
    (t.register k).frontier = t.frontier := by
  rw [register]
  split_ifs <;> rfl

@[simp] theorem completed_register (t : Tracker K) (k : K) :
    (t.register k).completed = t.completed := by
  rw [register]
  split_ifs <;> rfl

theorem Sorted.register (h : t.Sorted) (k : K) : (t.register k).Sorted := by
  refine ⟨by simpa using h.completed, ?_⟩
  rw [Tracker.register]
  split_ifs with hk
  · exact h.pending
  · refine (List.perm_insertionSort _ _).nodup_iff.mpr ?_
    rw [List.nodup_append]
    refine ⟨h.pending, List.nodup_singleton k, ?_⟩
    intro a ha b hb hab
    rw [List.mem_singleton] at hb
    exact hk (hb ▸ hab ▸ ha)

@[simp] theorem mem_completed_complete {c : K} :
    c ∈ (t.complete k).completed ↔ c = k ∨ c ∈ t.completed := by
  rw [complete]
  split_ifs with hk
  · constructor
    · exact Or.inr
    · rintro (rfl | hc)
      · exact hk
      · exact hc
  · simp [List.mem_insertionSort, or_comm]

theorem Sorted.mem_pending_complete (h : t.Sorted) {p : K} :
    p ∈ (t.complete k).pending ↔ p ≠ k ∧ p ∈ t.pending :=
  h.pending.mem_erase_iff

/-- Completing keeps the lists in order. -/
theorem Sorted.complete (h : t.Sorted) (k : K) : (t.complete k).Sorted := by
  refine ⟨?_, h.pending.erase k⟩
  rw [Tracker.complete]
  split_ifs
  · exact h.completed
  · exact List.pairwise_insertionSort _ _

/-- The frontier never goes back. -/
theorem frontier_le_complete (t : Tracker K) (k : K) : t.frontier ≤ (t.complete k).frontier :=
  le_advance _ _ _

/-- What the frontier reaches when a position is completed. -/
theorem Sorted.le_frontier_complete_iff (h : t.Sorted) {x : K} :
    (x : WithBot K) ≤ (t.complete k).frontier ↔ (x : WithBot K) ≤ t.frontier ∨
        ∃ c ∈ (t.complete k).completed, x ≤ c ∧ ∀ p ∈ (t.complete k).pending, c ≤ p :=
  le_advance_iff (h.complete k).completed

/-- **When the frontier reaches the position that is completed**: it had, or nothing was pending
below. -/
theorem Sorted.le_complete_iff (h : t.Sorted) : (k : WithBot K) ≤ (t.complete k).frontier ↔
      (k : WithBot K) ≤ t.frontier ∨ ∀ p ∈ t.pending, k ≤ p := by
  rw [h.le_frontier_complete_iff]
  constructor
  · rintro (hk | ⟨c, -, hkc, hpending⟩)
    · exact .inl hk
    · refine .inr fun p hp => ?_
      by_cases hpk : p = k
      · exact hpk.ge
      · exact le_trans hkc (hpending p (h.mem_pending_complete.mpr ⟨hpk, hp⟩))
  · rintro (hk | hpending)
    · exact .inl hk
    · refine .inr ⟨k, mem_completed_complete.mpr (.inl rfl), le_refl k, fun p hp => ?_⟩
      exact hpending p (h.mem_pending_complete.mp hp).2

/-! ## Positions registered in increasing order -/

/-- What a tracker knows of the positions that have been registered and completed at it. -/
structure Tracks (t : Tracker K) (registered done : Set K) : Prop where
  sorted : t.Sorted
  pending : ∀ k, k ∈ t.pending ↔ k ∈ registered ∧ k ∉ done
  known : ∀ k ∈ done, k ∈ t.completed ∨ (k : WithBot K) ≤ t.frontier
  recorded : ∀ k ∈ t.completed, k ∈ done
  frontier : ∀ k : K, (k : WithBot K) ≤ t.frontier ↔ ∃ c ∈ done, k ≤ c ∧ ∀ p ∈ t.pending, c ≤ p

namespace Tracks

variable {t : Tracker K} {registered done : Set K}

theorem register (h : t.Tracks registered done) (hdone : done ⊆ registered) {k : K}
    (hk : ∀ r ∈ registered, r < k) : (t.register k).Tracks (insert k registered) done := by
  have hnew : k ∉ done := fun hmem => lt_irrefl k (hk k (hdone hmem))
  refine ⟨h.sorted.register k, fun p => ?_, ?_, ?_, fun x => ?_⟩
  · rw [mem_pending_register, h.pending, Set.mem_insert_iff]
    constructor
    · rintro (rfl | ⟨hp, hp'⟩)
      · exact ⟨.inl rfl, hnew⟩
      · exact ⟨.inr hp, hp'⟩
    · rintro ⟨rfl | hp, hp'⟩
      · exact .inl rfl
      · exact .inr ⟨hp, hp'⟩
  · simpa using h.known
  · simpa using h.recorded
  · rw [frontier_register, h.frontier]
    constructor
    · rintro ⟨c, hc, hxc, hbelow⟩
      refine ⟨c, hc, hxc, fun p hp => ?_⟩
      rcases mem_pending_register.mp hp with rfl | hp
      · exact (hk c (hdone hc)).le
      · exact hbelow p hp
    · rintro ⟨c, hc, hxc, hbelow⟩
      exact ⟨c, hc, hxc, fun p hp => hbelow p (mem_pending_register.mpr (.inr hp))⟩

/-- Completing a position. -/
theorem complete (h : t.Tracks registered done) (k : K) :
    (t.complete k).Tracks registered (insert k done) := by
  have hfewer : ∀ p ∈ (t.complete k).pending, p ∈ t.pending :=
    fun p hp => (h.sorted.mem_pending_complete.mp hp).2
  refine ⟨h.sorted.complete k, fun p => ?_, ?_, ?_, fun x => ?_⟩
  · rw [h.sorted.mem_pending_complete, h.pending, Set.mem_insert_iff, not_or]
    constructor
    · rintro ⟨hne, hp, hp'⟩
      exact ⟨hp, hne, hp'⟩
    · rintro ⟨hp, hne, hp'⟩
      exact ⟨hne, hp, hp'⟩
  · rintro c (rfl | hc)
    · exact .inl (mem_completed_complete.mpr (.inl rfl))
    · rcases h.known c hc with hc | hc
      · exact .inl (mem_completed_complete.mpr (.inr hc))
      · exact .inr (le_trans hc (t.frontier_le_complete k))
  · intro c hc
    rcases mem_completed_complete.mp hc with rfl | hc
    · exact Set.mem_insert c done
    · exact Set.mem_insert_of_mem k (h.recorded c hc)
  · rw [h.sorted.le_frontier_complete_iff]
    constructor
    · rintro (hx | ⟨c, hc, hxc, hbelow⟩)
      · obtain ⟨c, hc, hxc, hbelow⟩ := (h.frontier x).mp hx
        exact ⟨c, Set.mem_insert_of_mem k hc, hxc, fun p hp => hbelow p (hfewer p hp)⟩
      · refine ⟨c, ?_, hxc, hbelow⟩
        rcases mem_completed_complete.mp hc with rfl | hc
        · exact Set.mem_insert c done
        · exact Set.mem_insert_of_mem k (h.recorded c hc)
    · rintro ⟨c, rfl | hc, hxc, hbelow⟩
      · exact .inr ⟨c, mem_completed_complete.mpr (.inl rfl), hxc, hbelow⟩
      · rcases h.known c hc with hc | hc
        · exact .inr ⟨c, mem_completed_complete.mpr (.inr hc), hxc, hbelow⟩
        · exact .inl (le_trans (WithBot.coe_le_coe.mpr hxc) hc)

/-- The completed positions below all that are registered and not completed. -/
def Prefixed (registered done : Set K) : Set K :=
  {c | c ∈ done ∧ ∀ p ∈ registered, p ∉ done → c < p}

theorem le_frontier_iff (h : t.Tracks registered done) {k : K} :
    (k : WithBot K) ≤ t.frontier ↔ ∃ c ∈ Prefixed registered done, k ≤ c := by
  rw [h.frontier]
  constructor
  · rintro ⟨c, hc, hkc, hbelow⟩
    refine ⟨c, ⟨hc, fun p hp hp' => ?_⟩, hkc⟩
    refine lt_of_le_of_ne (hbelow p ((h.pending p).mpr ⟨hp, hp'⟩)) ?_
    rintro rfl
    exact hp' hc
  · rintro ⟨c, ⟨hc, hbelow⟩, hkc⟩
    refine ⟨c, hc, hkc, fun p hp => ?_⟩
    obtain ⟨hp, hp'⟩ := (h.pending p).mp hp
    exact (hbelow p hp hp').le

/-- **The frontier is the greatest completed position** below all that are registered and not
completed. -/
theorem isGreatest (h : t.Tracks registered done) {f : K} (hf : t.frontier = f) :
    IsGreatest (Prefixed registered done) f := by
  obtain ⟨c, hc, hfc⟩ := h.le_frontier_iff.mp hf.ge
  have hle : ∀ x ∈ Prefixed registered done, x ≤ f := fun x hx => by
    rw [← WithBot.coe_le_coe, ← hf]
    exact h.le_frontier_iff.mpr ⟨x, hx, le_refl x⟩
  have hcf : c = f := le_antisymm (hle c hc) hfc
  exact ⟨hcf ▸ hc, hle⟩

theorem eq_empty (h : t.Tracks registered done) (hf : t.frontier = ⊥) :
    Prefixed registered done = ∅ := by
  refine Set.eq_empty_of_forall_notMem fun c hc => ?_
  have hle : (c : WithBot K) ≤ t.frontier := h.le_frontier_iff.mpr ⟨c, hc, le_refl c⟩
  rw [hf, WithBot.le_bot_iff] at hle
  exact WithBot.coe_ne_bot hle

/-- **A registered position that the frontier reaches has been completed.** -/
theorem completed_of_le (h : t.Tracks registered done) {k : K} (hk : k ∈ registered)
    (hle : (k : WithBot K) ≤ t.frontier) : k ∈ done := by
  obtain ⟨c, ⟨-, hbelow⟩, hkc⟩ := h.le_frontier_iff.mp hle
  by_contra hnot
  exact absurd hkc (not_le.mpr (hbelow k hk hnot))

end Tracks

end Tracker

end ContiguousFrontier
