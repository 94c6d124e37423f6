/-
# Numerals and separators in texts

Texts that are put together from parts with separators between them: a part is determined when
it does not contain the separator that follows or precedes it, and an integer is determined by
its numeral.

* `separate_right` : what stands around the last separator is determined;
* `intercalate_inj` : so are parts without the separator that are joined by it;
* `intText_injective`, `not_mem_intText` : numerals, and the characters they do not contain.
-/
import Akaal.FramedBytes
import Akaal.PythonValue

open FramedBytes

namespace DelimitedText

/-! ## Separators -/

/-- What stands after the last separator, and what precedes it, are determined. -/
theorem separate_right {α : Type*} {c : α} {x x' y y' : List α} (hy : c ∉ y) (hy' : c ∉ y')
    (h : x ++ c :: y = x' ++ c :: y') : x = x' ∧ y = y' := by
  have hreverse : y.reverse ++ c :: x.reverse = y'.reverse ++ c :: x'.reverse := by
    have := congrArg List.reverse h
    simpa using this
  obtain ⟨hyy, hxx⟩ := separate_left (by simpa using hy) (by simpa using hy') hreverse
  exact ⟨List.reverse_injective hxx, List.reverse_injective hyy⟩

theorem count_intercalate {α : Type*} [DecidableEq α] (c : α) (l : List α) (ls : List (List α)) :
    ([c].intercalate (l :: ls)).count c = ls.length + ((l :: ls).map (List.count c)).sum := by
  induction ls generalizing l with
  | nil => simp [List.intercalate]
  | cons m ls ih =>
    rw [List.intercalate_cons_cons, List.count_append, List.count_append, ih]
    simp
    omega

/-- **Parts without the separator are determined**, among all those of their number, by what they
are joined to. -/
theorem intercalate_inj {α : Type*} [DecidableEq α] {c : α} {ls ms : List (List α)}
    (hls : ∀ l ∈ ls, c ∉ l) (hlength : ms.length = ls.length)
    (h : [c].intercalate ms = [c].intercalate ls) : ms = ls := by
  cases ls with
  | nil => simpa using hlength
  | cons l ls =>
    obtain ⟨m, ms, rfl⟩ : ∃ m ms', ms = m :: ms' := by
      cases ms with
      | nil => simp at hlength
      | cons m ms => exact ⟨m, ms, rfl⟩
    have hsum : ((l :: ls).map (List.count c)).sum = 0 := by
      rw [List.sum_eq_zero_iff]
      intro n hn
      obtain ⟨x, hx, rfl⟩ := List.mem_map.mp hn
      exact List.count_eq_zero_of_not_mem (hls x hx)
    -- There are as many separators, so none is left for the parts on the other side.
    have hcount := congrArg (List.count c) h
    rw [count_intercalate, count_intercalate, hsum] at hcount
    have hlen : ms.length = ls.length := by simpa using hlength
    have hms : ∀ x ∈ m :: ms, c ∉ x := by
      intro x hx hc
      have hzero : ((m :: ms).map (List.count c)).sum = 0 := by omega
      have hnone := List.sum_eq_zero_iff.mp hzero _ (List.mem_map_of_mem hx)
      exact absurd hc (List.count_eq_zero.mp hnone)
    rw [← List.splitOn_intercalate c hms (by simp), h, List.splitOn_intercalate c hls (by simp)]

/-! ## Numerals -/

theorem toList_intText (z : ℤ) :
    (intText z).toList = signText (z < 0) ++ Nat.toDigits 10 z.natAbs := by
  rw [intText, String.toList_ofList, Nat.toList_repr]

theorem isDigit_of_mem {n : ℕ} {c : Char} (hc : c ∈ Nat.toDigits 10 n) : c.isDigit = true :=
  Nat.isDigit_of_mem_toDigits (by decide) (by decide) hc

/-- A character that is neither a digit nor the sign does not occur in a numeral. -/
theorem not_mem_intText {z : ℤ} {c : Char} (hsign : c ≠ '-') (hdigit : c.isDigit = false) :
    c ∉ (intText z).toList := by
  rw [toList_intText, List.mem_append, signText]
  rintro (h | h)
  · split_ifs at h
    · exact hsign (List.mem_singleton.mp h)
    · exact List.not_mem_nil h
  · rw [isDigit_of_mem h] at hdigit
    cases hdigit

theorem sign_not_mem_intText {z : ℤ} (hz : 0 ≤ z) : '-' ∉ (intText z).toList := by
  rw [toList_intText, List.mem_append, signText]
  rintro (h | h)
  · simp [not_lt.mpr hz] at h
  · have := isDigit_of_mem h
    revert this
    decide

/-- **An integer is determined by its numeral.** -/
theorem intText_injective : Function.Injective intText := by
  intro z w h
  have hlist : (intText z).toList = (intText w).toList := congrArg String.toList h
  have habs : ∀ {n m : ℕ}, Nat.toDigits 10 n = Nat.toDigits 10 m → n = m := by
    intro n m hnm
    have := congrArg (fun l => Nat.ofDigitChars 10 l 0) hnm
    simpa [Nat.ofDigitChars_ten_toDigits] using this
  -- The sign is the first character exactly when the integer is negative.
  have hsign : z < 0 ↔ w < 0 := by
    have hiff : ∀ v : ℤ, '-' ∈ (intText v).toList ↔ v < 0 := by
      intro v
      constructor
      · intro hmem
        by_contra hv
        exact sign_not_mem_intText (not_lt.mp hv) hmem
      · intro hv
        rw [toList_intText, signText]
        simp [hv]
    rw [← hiff z, ← hiff w, hlist]
  rw [toList_intText, toList_intText] at hlist
  by_cases hz : z < 0
  · have hw := hsign.mp hz
    simp only [signText, hz, hw, decide_true, if_true, List.cons_append, List.nil_append,
      List.cons.injEq, true_and] at hlist
    have := habs hlist
    omega
  · have hw : ¬ w < 0 := fun hw => hz (hsign.mpr hw)
    simp only [signText, hz, hw, decide_false, Bool.false_eq_true, if_false,
      List.nil_append] at hlist
    have := habs hlist
    omega

/-! ## Bars -/

/-- How often a bar occurs in a text. -/
def bars (text : String) : ℕ := text.toList.count '|'

theorem bars_eq_zero {text : String} (h : '|' ∉ text.toList) : bars text = 0 :=
  List.count_eq_zero.mpr h

theorem bars_intText (z : ℤ) : bars (intText z) = 0 :=
  bars_eq_zero (not_mem_intText (by decide) (by decide))

end DelimitedText
