/-
# Lists side by side

A list and the list of the images of some of its elements, in the same order.

* `find?_zip_left`, `find?_zip_right` : a search among the pairs of two lists is a search in either list;
* `exists_sublist_forall₂_filterMap_iff` : the images are related to a part of the list precisely when each
  image is related to the element it comes from.
-/
import Akaal.Traversal

namespace PairedLists

variable {α β : Type*}

/-! ## Searching -/

variable {R : α → β → Prop} {as : List α} {bs : List β}

/-- The element on the left of the first pair whose right element passes a test. -/
theorem find?_zip_left {p : α → Bool} {q : β → Bool}
    (h : List.Forall₂ (fun a b => p a = q b) as bs) :
    ((as.zip bs).find? fun pair => q pair.2).map Prod.fst = as.find? p := by
  induction h with
  | nil => rfl
  | @cons a b as bs hab _ ih =>
    cases hq : q b with
    | true => simp [hab, hq]
    | false => simpa [hab, hq] using ih

/-- The element on the right of the first pair whose right element passes a test. -/
theorem find?_zip_right {q : β → Bool} (h : as.length = bs.length) :
    ((as.zip bs).find? fun pair => q pair.2).map Prod.snd = bs.find? q := by
  induction bs generalizing as with
  | nil => rw [List.zip_nil_right, List.find?_nil, List.find?_nil, Option.map_none]
  | cons b bs ih =>
    cases as with
    | nil => simp at h
    | cons a as =>
      cases hq : q b with
      | true => simp [hq]
      | false => simpa [hq] using ih (Nat.succ.inj h)

theorem rel_of_find?_zip {p : α × β → Bool} {a : α} {b : β}
    (h : List.Forall₂ R as bs) (hfind : (as.zip bs).find? p = some (a, b)) : R a b :=
  List.forall₂_zip h (List.mem_of_find?_eq_some hfind)

theorem forall₂_iff_of_forall₂ {S : α → β → Prop} {P : α → Prop}
    (hS : List.Forall₂ S as bs) (hP : ∀ a ∈ as, ∀ b, S a b → (R a b ↔ P a)) :
    List.Forall₂ R as bs ↔ ∀ a ∈ as, P a := by
  induction hS with
  | nil => exact iff_of_true .nil fun a ha => absurd ha List.not_mem_nil
  | @cons a b as bs hab _ ih =>
    obtain ⟨ha, has⟩ := List.forall_mem_cons.mp hP
    rw [List.forall₂_cons, List.forall_mem_cons, ha b hab, ih has]

/-! ## Images of some of the elements -/

theorem forall₂_filter_filterMap (f : α → Option β) (as : List α) :
    List.Forall₂ (fun a b => f a = some b) (as.filter fun a => (f a).isSome) (as.filterMap f) := by
  induction as with
  | nil => exact .nil
  | cons a as ih =>
    cases hf : f a with
    | none => simpa [hf] using ih
    | some b => simpa [hf] using ih

/-- **Images of a part of a list.**  Where only elements that have an image are related to anything, the
images are related to a part of the list precisely when each is related to the element it comes from. -/
theorem exists_sublist_forall₂_filterMap_iff {f : α → Option β} (hR : ∀ a b, R a b → (f a).isSome) :
    (∃ kept, kept.Sublist as ∧ List.Forall₂ R kept (as.filterMap f)) ↔
      ∀ a ∈ as, ∀ b, f a = some b → R a b := by
  have himages := forall₂_filter_filterMap f as
  constructor
  · rintro ⟨kept, hsub, hkept⟩
    have hfilter : kept.filter (fun a => (f a).isSome) = kept := by
      refine List.filter_eq_self.mpr fun a ha => ?_
      obtain ⟨b, -, hab⟩ := Traversal.exists_of_forall₂ hkept ha
      exact hR a b hab
    have hpart : kept.Sublist (as.filter fun a => (f a).isSome) := hfilter ▸ hsub.filter _
    have heq := hpart.eq_of_length (hkept.length_eq.trans himages.length_eq.symm)
    rw [heq] at hkept
    have hboth : List.Forall₂ (fun a b => f a = some b ∧ R a b) _ (as.filterMap f) :=
      List.forall₂_iff_zip.mpr ⟨himages.length_eq, fun hpair =>
        ⟨List.forall₂_zip himages hpair, List.forall₂_zip hkept hpair⟩⟩
    intro a ha b hb
    have hmem : a ∈ as.filter fun a => (f a).isSome := List.mem_filter.mpr ⟨ha, Option.isSome_of_mem hb⟩
    obtain ⟨b', -, hb', hab⟩ := Traversal.exists_of_forall₂ hboth hmem
    rwa [Option.some.inj (hb.symm.trans hb')]
  · intro h
    refine ⟨_, List.filter_sublist, Traversal.forall₂_imp_of_mem himages fun a ha b hab => ?_⟩
    exact h a (List.mem_of_mem_filter ha) b hab

end PairedLists
