/-
# Contents written by key

Writes that replace or remove what stands under a key.  What a sequence of writes leaves under a
key is what its last write there leaves, so that two orders of the same writes leave the same
contents exactly when they agree, key by key, on the last write.

* `writeAll_apply` : what is left under a key;
* `writeAll_eq_iff` : the sequences that always leave the same;
* `reordered_iff` : the reorderings that always leave the same.
-/
import Mathlib

namespace KeyedContents

variable {κ ρ : Type*} [DecidableEq κ]

/-! ## Writes -/

/-- What stands under each key. -/
abbrev Contents (κ ρ : Type*) := κ → Option ρ

/-- A write under a key: `none` removes what stands there. -/
structure Write (κ ρ : Type*) where
  key : κ
  value : Option ρ

/-- The contents after a write. -/
def write (contents : Contents κ ρ) (w : Write κ ρ) : Contents κ ρ :=
  Function.update contents w.key w.value

/-- The contents after writes. -/
def writeAll (contents : Contents κ ρ) (ws : List (Write κ ρ)) : Contents κ ρ :=
  ws.foldl write contents

/-- The last write under a key. -/
def lastAt (key : κ) (ws : List (Write κ ρ)) : Option (Write κ ρ) :=
  (ws.filter fun w => w.key = key).getLast?

theorem lastAt_concat (key : κ) (ws : List (Write κ ρ)) (w : Write κ ρ) :
    lastAt key (ws ++ [w]) = if w.key = key then some w else lastAt key ws := by
  rw [lastAt, List.filter_append]
  by_cases h : w.key = key
  · simp [h]
  · simp [h, lastAt]

/-- **What is left under a key** is what its last write leaves. -/
theorem writeAll_apply (contents : Contents κ ρ) (ws : List (Write κ ρ)) (key : κ) :
    writeAll contents ws key = ((lastAt key ws).map Write.value).getD (contents key) := by
  induction ws using List.reverseRecOn with
  | nil => rfl
  | append_singleton ws w ih =>
    rw [lastAt_concat, writeAll, List.foldl_append]
    by_cases h : w.key = key
    · rw [if_pos h, ← h]
      show write _ w w.key = _
      rw [write, Function.update_self]
      rfl
    · rw [if_neg h, ← ih]
      show write _ w key = _
      rw [write, Function.update_of_ne (Ne.symm h)]
      rfl

/-- **The sequences that always leave the same** agree on the last write under each key. -/
theorem writeAll_eq_iff [Nonempty ρ] (ws ws' : List (Write κ ρ)) :
    (∀ contents, writeAll contents ws = writeAll contents ws') ↔
      ∀ key, (lastAt key ws).map Write.value = (lastAt key ws').map Write.value := by
  constructor
  · intro h key
    obtain ⟨r⟩ := ‹Nonempty ρ›
    -- contents without any row, and contents with a row under every key
    have hempty := congrFun (h fun _ => none) key
    have hfull := congrFun (h fun _ => some r) key
    rw [writeAll_apply, writeAll_apply] at hempty hfull
    cases hws : (lastAt key ws).map Write.value with
    | none =>
      cases hws' : (lastAt key ws').map Write.value with
      | none => rfl
      | some v' =>
        rw [hws, hws'] at hempty hfull
        simp only [Option.getD_none, Option.getD_some] at hempty hfull
        rw [← hempty] at hfull
        cases hfull
    | some v =>
      cases hws' : (lastAt key ws').map Write.value with
      | none =>
        rw [hws, hws'] at hempty hfull
        simp only [Option.getD_none, Option.getD_some] at hempty hfull
        rw [hempty] at hfull
        cases hfull
      | some v' =>
        rw [hws, hws'] at hempty
        exact congrArg some hempty
  · intro h contents
    funext key
    rw [writeAll_apply, writeAll_apply, h key]

/-! ## Reorderings -/

section Ranks

variable {α ι ι' : Type*} [LinearOrder ι] [LinearOrder ι'] (writeOf : α → Write κ ρ)

/-- An element of a list such that no other one that writes under its key is ranked above it. -/
def IsLast (rank : α → ι) (items : List α) (x : α) : Prop :=
  x ∈ items ∧ ∀ y ∈ items, (writeOf y).key = (writeOf x).key → rank y ≤ rank x

omit [DecidableEq κ] in
theorem getLast?_eq_some_iff {rank : α → ι} {items : List α}
    (h : items.Pairwise fun x y => rank x < rank y) {x : α} :
    items.getLast? = some x ↔ x ∈ items ∧ ∀ y ∈ items, rank y ≤ rank x := by
  induction items using List.reverseRecOn with
  | nil => simp
  | append_singleton items z _ =>
    have hbelow : ∀ y ∈ items, rank y < rank z := fun y hy =>
      (List.pairwise_append.mp h).2.2 y hy z (List.mem_singleton_self z)
    rw [List.getLast?_concat, Option.some.injEq]
    constructor
    · rintro rfl
      refine ⟨by simp, fun y hy => ?_⟩
      rcases List.mem_append.mp hy with hy | hy
      · exact (hbelow y hy).le
      · rw [List.mem_singleton.mp hy]
    · rintro ⟨hx, hmax⟩
      rcases List.mem_append.mp hx with hx | hx
      · exact absurd (hmax z (by simp)) (not_le.mpr (hbelow x hx))
      · exact (List.mem_singleton.mp hx).symm

/-- The last write under a key, in a list that is in the order of the ranks. -/
theorem lastAt_eq_some_iff {rank : α → ι} {items : List α}
    (h : items.Pairwise fun x y => rank x < rank y) {key : κ} {w : Write κ ρ} :
    lastAt key (items.map writeOf) = some w ↔
      ∃ x, IsLast writeOf rank items x ∧ (writeOf x).key = key ∧ writeOf x = w := by
  have hlast : lastAt key (items.map writeOf) =
      ((items.filter fun x => (writeOf x).key = key).getLast?).map writeOf := by
    rw [lastAt, List.filter_map, List.getLast?_map]
    rfl
  rw [hlast, Option.map_eq_some_iff]
  refine exists_congr fun x => ?_
  rw [getLast?_eq_some_iff (h.filter _), List.mem_filter, decide_eq_true_eq]
  constructor
  · rintro ⟨⟨⟨hx, hkey⟩, hmax⟩, hw⟩
    refine ⟨⟨hx, fun y hy hsame => ?_⟩, hkey, hw⟩
    exact hmax y (List.mem_filter.mpr ⟨hy, by simpa using hsame.trans hkey⟩)
  · rintro ⟨⟨hx, hmax⟩, hkey, hw⟩
    refine ⟨⟨⟨hx, hkey⟩, fun y hy => ?_⟩, hw⟩
    obtain ⟨hy, hsame⟩ := List.mem_filter.mp hy
    exact hmax y hy ((of_decide_eq_true hsame).trans hkey.symm)

/-- **The reorderings that always leave the same.**  The list `items'` has the elements of `items`
in another order: the last element of each key in the one order has to write the value that the
last in the other order writes. -/
theorem reordered_iff [Nonempty ρ] {rank : α → ι} {rank' : α → ι'} {items items' : List α}
    (h : items.Pairwise fun x y => rank x < rank y)
    (h' : items'.Pairwise fun x y => rank' x < rank' y) (hperm : items.Perm items') :
    (∀ contents, writeAll contents (items'.map writeOf) = writeAll contents (items.map writeOf)) ↔
      ∀ x y, IsLast writeOf rank' items x → IsLast writeOf rank items y →
        (writeOf x).key = (writeOf y).key → (writeOf x).value = (writeOf y).value := by
  have hsame : ∀ x, IsLast writeOf rank' items x ↔ IsLast writeOf rank' items' x := by
    intro x
    simp only [IsLast, hperm.mem_iff]
  have hnone : ∀ key, lastAt key (items'.map writeOf) = none ↔ lastAt key (items.map writeOf) = none := by
    intro key
    simp only [lastAt, List.getLast?_eq_none_iff, List.filter_eq_nil_iff, List.forall_mem_map,
      hperm.mem_iff]
  rw [writeAll_eq_iff]
  constructor
  · intro hlast x y hx hy hkey
    have hl' := (lastAt_eq_some_iff writeOf h').mpr ⟨x, (hsame x).mp hx, rfl, rfl⟩
    have hl := (lastAt_eq_some_iff writeOf h).mpr ⟨y, hy, rfl, rfl⟩
    have heq := hlast (writeOf x).key
    rw [hl', hkey, hl] at heq
    exact Option.some.inj heq
  · intro hvalue key
    cases hl' : lastAt key (items'.map writeOf) with
    | none => rw [(hnone key).mp hl']
    | some w' =>
      cases hl : lastAt key (items.map writeOf) with
      | none =>
        rw [(hnone key).mpr hl] at hl'
        cases hl'
      | some w =>
        obtain ⟨x, hx, hxkey, rfl⟩ := (lastAt_eq_some_iff writeOf h').mp hl'
        obtain ⟨y, hy, hykey, rfl⟩ := (lastAt_eq_some_iff writeOf h).mp hl
        exact congrArg some (hvalue x y ((hsame x).mpr hx) hy (hxkey.trans hykey.symm))

end Ranks

end KeyedContents
