/-
# Numerals and frames in byte strings

Texts are written as their UTF-8 bytes.  A numeral followed by a byte that is not a digit can
be read back, and so can a text whose length in bytes stands before it: the framings below
lose nothing.

* `utf8_injective` : a text is determined by its bytes;
* `separate_left` : what stands before a separator is determined when it does not contain the
  separator;
* `hexPadded_injective` : so is a number written in padded hexadecimal digits.
-/
import Mathlib

namespace FramedBytes

/-! ## UTF-8 -/

/-- The UTF-8 bytes of a text. -/
def utf8 (s : String) : List UInt8 := s.toList.flatMap String.utf8EncodeChar

@[simp] theorem utf8_append (s t : String) : utf8 (s ++ t) = utf8 s ++ utf8 t := by
  simp [utf8]

/-- A text is determined by its bytes. -/
theorem utf8_injective : Function.Injective utf8 := by
  intro s t h
  have hbytes : s.toList.utf8Encode = t.toList.utf8Encode := by
    unfold utf8 at h
    rw [List.utf8Encode, List.utf8Encode, h]
  rw [String.utf8Encode_toList, String.utf8Encode_toList] at hbytes
  exact String.toByteArray_inj.mp hbytes

/-- The text bytes stand for, when they are the UTF-8 bytes of one. -/
def ofUtf8 (bytes : List UInt8) : Option String := String.fromUTF8? bytes.toByteArray

@[simp] theorem ofUtf8_utf8 (s : String) : ofUtf8 (utf8 s) = some s := by
  have hbytes : (utf8 s).toByteArray = s.toByteArray := by
    rw [← String.utf8Encode_toList, utf8, List.utf8Encode]
  unfold ofUtf8 String.fromUTF8?
  rw [hbytes, dif_pos s.isValidUTF8]
  rfl

theorem utf8EncodeChar_of_lt {c : Char} (h : c.toNat < 128) :
    String.utf8EncodeChar c = [c.toNat.toUInt8] := by
  have hval : c.toNat ≤ 127 := Nat.le_of_lt_succ h
  simp [String.utf8EncodeChar, hval]

variable {b : UInt8} {n : ℕ}

theorem mem_utf8_ofList {l : List Char} (hl : ∀ c ∈ l, c.toNat < 128)
    (hb : b ∈ utf8 (String.ofList l)) : ∃ c ∈ l, b = c.toNat.toUInt8 := by
  rw [utf8, String.toList_ofList, List.mem_flatMap] at hb
  obtain ⟨c, hc, hbc⟩ := hb
  rw [utf8EncodeChar_of_lt (hl c hc), List.mem_singleton] at hbc
  exact ⟨c, hc, hbc⟩

/-! ## Separators -/

/-- What stands before and after a separator is determined when the parts before it contain it
equally often. -/
theorem separate_count {α : Type*} [DecidableEq α] {c : α} {x x' y y' : List α}
    (hcount : x.count c = x'.count c) (h : x ++ c :: y = x' ++ c :: y') : x = x' ∧ y = y' := by
  induction x generalizing x' with
  | nil =>
    cases x' with
    | nil => exact ⟨rfl, (List.cons.inj h).2⟩
    | cons d x' =>
      obtain ⟨rfl, -⟩ := List.cons.inj h
      simp at hcount
  | cons d x ih =>
    cases x' with
    | nil =>
      obtain ⟨rfl, -⟩ := List.cons.inj h
      simp at hcount
    | cons d' x' =>
      obtain ⟨rfl, hrest⟩ := List.cons.inj h
      rw [List.count_cons, List.count_cons, Nat.add_right_cancel_iff] at hcount
      obtain ⟨hx, hy⟩ := ih hcount hrest
      exact ⟨hx ▸ rfl, hy⟩

/-- What stands before the first separator, and what follows it, are determined. -/
theorem separate_left {α : Type*} {c : α} {x x' y y' : List α} (hx : c ∉ x) (hx' : c ∉ x')
    (h : x ++ c :: y = x' ++ c :: y') : x = x' ∧ y = y' := by
  classical
  exact separate_count (by rw [List.count_eq_zero.mpr hx, List.count_eq_zero.mpr hx']) h

/-! ## Numerals -/

/-- The decimal numeral of a number. -/
def numeral (n : ℕ) : List UInt8 := utf8 n.repr

theorem digit_of_mem_numeral (hb : b ∈ numeral n) : 48 ≤ b.toNat ∧ b.toNat ≤ 57 := by
  have hdigit : ∀ c ∈ Nat.toDigits 10 n, 48 ≤ c.toNat ∧ c.toNat ≤ 57 := by
    intro c hc
    have h := Nat.isDigit_of_mem_toDigits (by decide) (by decide) hc
    simp only [Char.isDigit, Bool.and_eq_true, decide_eq_true_eq] at h
    exact ⟨h.1, h.2⟩
  rw [numeral, Nat.repr_eq_ofList_toDigits] at hb
  obtain ⟨c, hc, rfl⟩ := mem_utf8_ofList (fun c hc => by have := hdigit c hc; omega) hb
  obtain ⟨h1, h2⟩ := hdigit c hc
  have hto : c.toNat.toUInt8.toNat = c.toNat := by
    simp only [Nat.toUInt8, UInt8.toNat_ofNat']
    omega
  omega

theorem not_mem_numeral (hb : b.toNat < 48 ∨ 57 < b.toNat) : b ∉ numeral n := by
  intro hmem
  have h := digit_of_mem_numeral hmem
  omega

theorem numeral_injective : Function.Injective numeral := by
  intro n m h
  have hrepr : n.repr = m.repr := utf8_injective h
  have hdigits : Nat.toDigits 10 n = Nat.toDigits 10 m := by
    rw [← Nat.toList_repr, ← Nat.toList_repr, hrepr]
  rw [← Nat.ofDigitChars_toDigits (n := n) (b := 10) (by decide) (by decide), hdigits,
    Nat.ofDigitChars_toDigits (by decide) (by decide)]

theorem numeral_separate {m : ℕ} {y y' : List UInt8}
    (hb : b.toNat < 48 ∨ 57 < b.toNat) (h : numeral n ++ b :: y = numeral m ++ b :: y') :
    n = m ∧ y = y' := by
  obtain ⟨hnum, hrest⟩ := separate_left (not_mem_numeral hb) (not_mem_numeral hb) h
  exact ⟨numeral_injective hnum, hrest⟩

/-! ## Length frames -/

/-! ## Hexadecimal digits -/

/-- The digits of a number in base 16, the least significant first, filled up to a width. -/
def paddedDigits (width n : ℕ) : List ℕ :=
  Nat.digits 16 n ++ List.replicate (width - (Nat.digits 16 n).length) 0

/-- The format `:0{width}x` of a number. -/
def hexPadded (width n : ℕ) : String :=
  String.ofList ((paddedDigits width n).reverse.map Nat.digitChar)

theorem ofDigits_paddedDigits (width n : ℕ) : Nat.ofDigits 16 (paddedDigits width n) = n := by
  rw [paddedDigits, Nat.ofDigits_append_replicate_zero, Nat.ofDigits_digits]

theorem lt_of_mem_paddedDigits {width d : ℕ} (h : d ∈ paddedDigits width n) : d < 16 := by
  rcases List.mem_append.mp h with hd | hd
  · exact Nat.digits_lt_base (by decide) hd
  · rw [List.eq_of_mem_replicate hd]
    decide

theorem digitChar_inj {d e : ℕ} (hd : d < 16) (he : e < 16)
    (h : Nat.digitChar d = Nat.digitChar e) : d = e := by
  have hall : ∀ d < 16, ∀ e < 16, Nat.digitChar d = Nat.digitChar e → d = e := by decide
  exact hall d hd e he h

theorem map_digitChar_inj {l m : List ℕ} (hl : ∀ d ∈ l, d < 16) (hm : ∀ d ∈ m, d < 16)
    (h : l.map Nat.digitChar = m.map Nat.digitChar) : l = m := by
  induction l generalizing m with
  | nil => exact (List.map_eq_nil_iff.mp h.symm).symm
  | cons d l ih =>
    cases m with
    | nil => simp at h
    | cons e m =>
      obtain ⟨hhead, htail⟩ := List.cons.inj h
      rw [digitChar_inj (hl d List.mem_cons_self) (hm e List.mem_cons_self) hhead,
        ih (fun x hx => hl x (List.mem_cons_of_mem _ hx))
          (fun x hx => hm x (List.mem_cons_of_mem _ hx)) htail]

/-- A number is determined by its padded hexadecimal digits. -/
theorem hexPadded_injective (width : ℕ) : Function.Injective (hexPadded width) := by
  intro n m h
  have hlists : (paddedDigits width n).reverse = (paddedDigits width m).reverse := by
    refine map_digitChar_inj (fun d hd => ?_) (fun d hd => ?_) (String.ofList_injective h)
    · exact lt_of_mem_paddedDigits (List.mem_reverse.mp hd)
    · exact lt_of_mem_paddedDigits (List.mem_reverse.mp hd)
  rw [← ofDigits_paddedDigits width n, List.reverse_injective hlists, ofDigits_paddedDigits]

end FramedBytes
