/-
# Releasing what waits in order

Keys wait and are released one after another.  The released keys are in order, and everything that
waits comes after them, precisely when this holds after each change:

* `fronted_arrive` : a key begins to wait;
* `fronted_release` : the least of the waiting keys is released;
* `fronted_pass` : a key is released without having waited;
* `pairwise_append_iff` : in the end, what still waits follows in order.
-/
import Mathlib

namespace OrderedRelease

variable {K : Type*} [LinearOrder K] {released pending pending' : List K} {k : K}

/-- The released keys are in order, and come before the waiting ones. -/
def Fronted (released pending : List K) : Prop :=
  released.Pairwise (· ≤ ·) ∧ ∀ a ∈ released, ∀ b ∈ pending, a ≤ b

theorem fronted_congr (hperm : pending.Perm pending') :
    Fronted released pending ↔ Fronted released pending' := by
  unfold Fronted
  refine and_congr_right fun _ => ⟨?_, ?_⟩
  · intro h a ha b hb
    exact h a ha b (hperm.mem_iff.mpr hb)
  · intro h a ha b hb
    exact h a ha b (hperm.mem_iff.mp hb)

/-- A key that begins to wait has to come after the released ones. -/
theorem fronted_arrive :
    Fronted released (k :: pending) ↔ Fronted released pending ∧ ∀ a ∈ released, a ≤ k := by
  unfold Fronted
  simp only [List.forall_mem_cons]
  constructor
  · rintro ⟨hsorted, h⟩
    exact ⟨⟨hsorted, fun a ha => (h a ha).2⟩, fun a ha => (h a ha).1⟩
  · rintro ⟨⟨hsorted, h⟩, hk⟩
    exact ⟨hsorted, fun a ha => ⟨hk a ha, h a ha⟩⟩

/-- A key that does not wait has to come between the released and the waiting ones. -/
theorem fronted_pass : Fronted (released ++ [k]) pending ↔
      Fronted released pending ∧ (∀ a ∈ released, a ≤ k) ∧ ∀ b ∈ pending, k ≤ b := by
  unfold Fronted
  rw [List.pairwise_append]
  simp only [List.mem_append, List.mem_singleton, forall_eq, List.pairwise_singleton, true_and]
  constructor
  · rintro ⟨⟨hsorted, hk⟩, h⟩
    exact ⟨⟨hsorted, fun a ha => h a (.inl ha)⟩, hk, h k (.inr rfl)⟩
  · rintro ⟨⟨hsorted, h⟩, hk, hpending⟩
    refine ⟨⟨hsorted, hk⟩, ?_⟩
    rintro a (ha | rfl)
    · exact h a ha
    · exact hpending

/-- **The least of the waiting keys** may be released. -/
theorem fronted_release (hleast : ∀ b ∈ pending, k ≤ b) :
    Fronted (released ++ [k]) pending ↔ Fronted released (k :: pending) := by
  rw [fronted_pass, fronted_arrive]
  exact and_congr_right fun _ => and_iff_left hleast

/-- **What waits in the end** follows in order. -/
theorem pairwise_append_iff {rest : List K} (hsorted : rest.Pairwise (· ≤ ·)) :
    (released ++ rest).Pairwise (· ≤ ·) ↔ Fronted released rest := by
  rw [List.pairwise_append]
  exact and_congr_right fun _ => and_iff_right hsorted

end OrderedRelease
