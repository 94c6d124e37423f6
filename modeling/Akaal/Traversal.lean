/-
# Traversals that may raise, and counting along them

`List.mapM` in `Except` succeeds exactly when every element does, and its result is then
related to the list element by element.

* `bind_eq_ok_iff` : what a computation in two steps returns;
* `mapM_eq_ok_iff` : the relation between a list and the result of its traversal;
* `countP_of_forall₂` : related lists have as many elements of corresponding kinds;
* `countP_consecutive` : consecutive intervals contain a point at most once.
-/
import Mathlib

namespace Traversal

universe v

variable {ε α β : Type*}

/-- A computation in two steps returns what its second step returns after the first. -/
theorem bind_eq_ok_iff {α β : Type v} {x : Except ε α} {f : α → Except ε β} {b : β} :
    (x >>= f) = .ok b ↔ ∃ a, x = .ok a ∧ f a = .ok b := by
  cases x with
  | error e =>
    constructor
    · intro h
      cases h
    · rintro ⟨a, ⟨⟩, -⟩
  | ok a =>
    constructor
    · intro h
      exact ⟨a, rfl, h⟩
    · rintro ⟨a', ⟨⟩, h⟩
      exact h

theorem map_eq_ok_iff {α β : Type v} {x : Except ε α} {f : α → β} {b : β} :
    (do let a ← x; return f a) = .ok b ↔ ∃ a, x = .ok a ∧ b = f a := by
  rw [bind_eq_ok_iff]
  refine exists_congr fun a => and_congr_right fun _ => ?_
  exact ⟨fun h => (Except.ok.inj h).symm, fun h => congrArg Except.ok h.symm⟩

theorem map₂_eq_ok_iff {α β γ : Type v} {x : Except ε α} {y : Except ε β} {f : α → β → γ} {c : γ} :
    (do let a ← x; let b ← y; return f a b) = .ok c ↔ ∃ a b, x = .ok a ∧ y = .ok b ∧ c = f a b := by
  rw [bind_eq_ok_iff]
  simp only [map_eq_ok_iff, exists_and_left]

variable {R : α → β → Prop} {as : List α} {bs : List β}

/-- A traversal returns the list of what its function returns for the elements. -/
theorem mapM_eq_ok_iff {f : α → Except ε β} :
    as.mapM f = .ok bs ↔ List.Forall₂ (fun a b => f a = .ok b) as bs := by
  induction as generalizing bs with
  | nil =>
    constructor
    · intro h
      cases h
      exact .nil
    · rintro ⟨⟩
      rfl
  | cons a as ih =>
    rw [List.mapM_cons, List.forall₂_cons_left_iff, map₂_eq_ok_iff]
    simp only [ih]

theorem exists_mapM_eq_ok {f : α → Except ε β}
    (h : ∀ a ∈ as, ∃ b, f a = .ok b) : ∃ bs, as.mapM f = .ok bs := by
  induction as with
  | nil => exact ⟨[], rfl⟩
  | cons a as ih =>
    obtain ⟨b, hb⟩ := h a List.mem_cons_self
    obtain ⟨bs, hbs⟩ := ih fun a' ha' => h a' (List.mem_cons_of_mem a ha')
    refine ⟨b :: bs, ?_⟩
    rw [List.mapM_cons, hb, hbs]
    rfl

theorem exists_of_forall₂ (h : List.Forall₂ R as bs) {a : α} (ha : a ∈ as) : ∃ b ∈ bs, R a b := by
  induction h with
  | nil => simp at ha
  | cons hR _ ih =>
    rcases List.mem_cons.mp ha with rfl | ha'
    · exact ⟨_, List.mem_cons_self, hR⟩
    · obtain ⟨b, hb, hab⟩ := ih ha'
      exact ⟨b, List.mem_cons_of_mem _ hb, hab⟩

theorem exists_of_forall₂' (h : List.Forall₂ R as bs) {b : β} (hb : b ∈ bs) : ∃ a ∈ as, R a b :=
  exists_of_forall₂ h.flip hb

theorem forall₂_imp_of_mem {S : α → β → Prop}
    (h : List.Forall₂ R as bs) (himp : ∀ a ∈ as, ∀ b, R a b → S a b) : List.Forall₂ S as bs := by
  induction h with
  | nil => exact .nil
  | cons hR _ ih =>
    refine .cons (himp _ List.mem_cons_self _ hR) (ih fun a ha => ?_)
    exact himp a (List.mem_cons_of_mem _ ha)

/-- Related lists have the same number of elements of corresponding kinds. -/
theorem countP_of_forall₂ {p : α → Bool} {q : β → Bool}
    (h : List.Forall₂ (fun a b => R a b ∧ p a = q b) as bs) :
    bs.countP q = as.countP p := by
  induction h with
  | nil => rfl
  | cons hR _ ih => rw [List.countP_cons, List.countP_cons, ih, hR.2]

/-- Of the consecutive intervals between the values of a monotone sequence, at most one
contains a given point: exactly one when the point is between the first value and the
last. -/
theorem countP_consecutive {L : Type*} [LinearOrder L] {g : ℕ → L} (hmono : Monotone g) (k : L)
    (m : ℕ) :
    (List.range m).countP (fun i => decide (g i ≤ k ∧ k < g (i + 1))) =
      if g 0 ≤ k ∧ k < g m then 1 else 0 := by
  induction m with
  | zero =>
    rw [List.range_zero, List.countP_nil, if_neg]
    rintro ⟨h0, hlt⟩
    exact absurd h0 (not_le.mpr hlt)
  | succ m ih =>
    rw [List.range_succ, List.countP_append, ih, List.countP_singleton]
    have h0 : g 0 ≤ g m := hmono (Nat.zero_le m)
    have h1 : g m ≤ g (m + 1) := hmono (Nat.le_succ m)
    by_cases hm : g m ≤ k
    · have hk0 : g 0 ≤ k := le_trans h0 hm
      simp [hm, hk0]
    · have hkm : k < g m := not_le.mp hm
      have hk1 : k < g (m + 1) := lt_of_lt_of_le hkm h1
      simp [hkm, hk1]

end Traversal
