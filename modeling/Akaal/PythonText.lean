/-
# Operations on Python texts

`str.upper`, `str.lower`, `str.strip` and `int(s, 16)`.  Of the letters outside ASCII, those
whose image has a letter of ASCII are listed; the others, whose images are outside ASCII too,
are left alone.  So an image is a given text of ASCII exactly when the language's is, and the
operations agree with the language's on every text that is already in normal form.

* `upper_upper`, `lower_lower` : upper and lower case are normal forms;
* `strip_strip` : and so is a text without space around it;
* `strip_lower` : lower case leaves the space around a text alone.
-/
import Mathlib

namespace PythonText

/-! ## Upper and lower case -/

/-- The letters outside ASCII whose upper case has a letter of ASCII. -/
def upperTable : List (ℕ × List Char) :=
  [(0xDF, ['S', 'S']), (0x131, ['I']), (0x149, ['\u02BC', 'N']), (0x17F, ['S']),
    (0x1F0, ['J', '\u030C']), (0x1E96, ['H', '\u0331']), (0x1E97, ['T', '\u0308']),
    (0x1E98, ['W', '\u030A']), (0x1E99, ['Y', '\u030A']), (0x1E9A, ['A', '\u02BE']),
    (0xFB00, ['F', 'F']), (0xFB01, ['F', 'I']), (0xFB02, ['F', 'L']),
    (0xFB03, ['F', 'F', 'I']), (0xFB04, ['F', 'F', 'L']), (0xFB05, ['S', 'T']),
    (0xFB06, ['S', 'T'])]

/-- The upper case of a character. -/
def upperChar (c : Char) : List Char := (upperTable.lookup c.toNat).getD [c.toUpper]

/-- `s.upper()`. -/
def upper (s : String) : String := String.ofList (s.toList.flatMap upperChar)

/-- The letters outside ASCII whose lower case has a letter of ASCII. -/
def lowerTable : List (ℕ × List Char) := [(0x130, ['i', '\u0307']), (0x212A, ['k'])]

/-- The lower case of a character. -/
def lowerChar (c : Char) : List Char := (lowerTable.lookup c.toNat).getD [c.toLower]

/-- `s.lower()`. -/
def lower (s : String) : String := String.ofList (s.toList.flatMap lowerChar)

theorem mem_of_lookup {α β : Type*} [BEq α] [LawfulBEq α] {a : α} {b : β} {table : List (α × β)}
    (h : table.lookup a = some b) : (a, b) ∈ table := by
  obtain ⟨before, after, heq, -⟩ := List.lookup_eq_some_iff.mp h
  rw [heq]
  exact List.mem_append_right before List.mem_cons_self

variable {c d : Char} {cs : List Char} {n : ℕ}

theorem lookup_eq_none_of_lt {table : List (ℕ × List Char)} (hall : ∀ p ∈ table, 128 ≤ p.1) (h : n < 128) :
    table.lookup n = none := by
  rw [List.lookup_eq_none_iff]
  intro p hp
  have hne : n ≠ p.1 := by
    have := hall p hp
    omega
  simpa using hne

theorem getD_lookup_ne_nil {table : List (ℕ × List Char)} (hall : ∀ p ∈ table, p.2 ≠ []) :
    (table.lookup n).getD [c] ≠ [] := by
  cases hlookup : table.lookup n with
  | none => exact List.cons_ne_nil _ _
  | some image => exact hall _ (mem_of_lookup hlookup)

theorem upperChar_of_mem (h : d ∈ upperChar c) : upperChar d = [d] := by
  cases hlookup : upperTable.lookup c.toNat with
  | some image =>
    -- A listed image: each of its characters is checked.
    rw [upperChar, hlookup, Option.getD_some] at h
    have hall : ∀ p ∈ upperTable, ∀ d ∈ p.2, upperChar d = [d] := by
      simp [upperTable, upperChar, List.lookup, Char.toUpper]
    exact hall _ (mem_of_lookup hlookup) d h
  | none =>
    rw [upperChar, hlookup, Option.getD_none, List.mem_singleton] at h
    subst h
    have hnone : upperTable.lookup c.toUpper.toNat = none := by
      by_cases hlower : c.isLower = true
      · apply lookup_eq_none_of_lt (by decide)
        rw [Char.toUpper_eq_of_isLower hlower]
        have hle : c.toNat ≤ 122 := by
          simp [Char.isLower, UInt32.le_iff_toNat_le] at hlower
          exact hlower.2
        rw [Char.toNat_ofNat]
        split_ifs <;> omega
      · rw [Char.toUpper_eq_of_not_isLower hlower]
        exact hlookup
    rw [upperChar, hnone, Option.getD_none, Char.toUpper_toUpper_eq_toUpper]

theorem flatMap_eq_self {f : Char → List Char} (h : ∀ c ∈ cs, f c = [c]) : cs.flatMap f = cs := by
  induction cs with
  | nil => rfl
  | cons c cs ih =>
    rw [List.flatMap_cons, h c List.mem_cons_self, ih fun d hd => h d (List.mem_cons_of_mem c hd)]
    rfl

/-- **Upper case is a normal form.** -/
@[simp] theorem upper_upper (s : String) : upper (upper s) = upper s := by
  rw [upper, upper, String.toList_ofList, flatMap_eq_self]
  intro d hd
  obtain ⟨c, -, hc⟩ := List.mem_flatMap.mp hd
  exact upperChar_of_mem hc

theorem toNat_toLower_of_isUpper (h : c.isUpper = true) :
    97 ≤ c.toLower.toNat ∧ c.toLower.toNat ≤ 122 := by
  rw [Char.toLower_eq_of_isUpper h]
  have hbounds : 65 ≤ c.toNat ∧ c.toNat ≤ 90 := by
    simp [Char.isUpper, UInt32.le_iff_toNat_le] at h
    exact h
  rw [Char.toNat_ofNat, if_pos (Or.inl (by omega))]
  omega

theorem lowerChar_of_mem (h : d ∈ lowerChar c) : lowerChar d = [d] := by
  cases hlookup : lowerTable.lookup c.toNat with
  | some image =>
    rw [lowerChar, hlookup, Option.getD_some] at h
    have hall : ∀ p ∈ lowerTable, ∀ d ∈ p.2, lowerChar d = [d] := by
      simp [lowerTable, lowerChar, List.lookup, Char.toLower]
    exact hall _ (mem_of_lookup hlookup) d h
  | none =>
    rw [lowerChar, hlookup, Option.getD_none, List.mem_singleton] at h
    subst h
    have hnone : lowerTable.lookup c.toLower.toNat = none := by
      by_cases hupper : c.isUpper = true
      · have hle := (toNat_toLower_of_isUpper hupper).2
        exact lookup_eq_none_of_lt (by decide) (by omega)
      · rw [Char.toLower_eq_of_not_isUpper hupper]
        exact hlookup
    rw [lowerChar, hnone, Option.getD_none, Char.toLower_toLower_eq_toLower]

/-- **Lower case is a normal form.** -/
@[simp] theorem lower_lower (s : String) : lower (lower s) = lower s := by
  rw [lower, lower, String.toList_ofList, flatMap_eq_self]
  intro d hd
  obtain ⟨c, -, hc⟩ := List.mem_flatMap.mp hd
  exact lowerChar_of_mem hc

theorem upper_eq_empty_iff {s : String} : upper s = "" ↔ s = "" := by
  have hne : ∀ c : Char, upperChar c ≠ [] := fun c => getD_lookup_ne_nil (by decide)
  rw [upper, ← String.toList_inj, ← String.toList_inj, String.toList_ofList]
  cases hs : s.toList with
  | nil => simp
  | cons c cs => simp [hne c]

/-! ## Space -/

/-- `c.isspace()`. -/
def isSpace (c : Char) : Bool :=
  let n := c.toNat
  (9 ≤ n && n ≤ 13) || (28 ≤ n && n ≤ 32) || n == 0x85 || n == 0xA0 || n == 0x1680 ||
    (0x2000 ≤ n && n ≤ 0x200A) || n == 0x2028 || n == 0x2029 || n == 0x202F || n == 0x205F ||
    n == 0x3000

/-- `s.strip()`. -/
def strip (s : String) : String :=
  String.ofList ((s.toList.dropWhile isSpace).rdropWhile isSpace)

/-- A text stripped of space has none around it. -/
@[simp] theorem strip_strip (s : String) : strip (strip s) = strip s := by
  rw [strip, strip, String.toList_ofList]
  congr 1
  generalize hcs : s.toList.dropWhile isSpace = cs
  have hidem : cs.dropWhile isSpace = cs := by
    rw [← hcs]
    exact List.dropWhile_idempotent _ _
  -- What is dropped on the right cannot uncover a space on the left.
  have hleft : (cs.rdropWhile isSpace).dropWhile isSpace = cs.rdropWhile isSpace := by
    cases hcs' : cs.rdropWhile isSpace with
    | nil => rfl
    | cons c rest =>
      obtain ⟨dropped, hdropped⟩ := List.rdropWhile_prefix (p := isSpace) (l := cs)
      rw [hcs', List.cons_append] at hdropped
      have hc : isSpace c = false := by
        rw [← hdropped] at hidem
        by_contra hspace
        rw [List.dropWhile_cons_of_pos (by simpa using hspace)] at hidem
        have hlen := congrArg List.length hidem
        have hle := (List.dropWhile_suffix isSpace (l := rest ++ dropped)).length_le
        rw [List.length_cons] at hlen
        omega
      rw [List.dropWhile_cons_of_neg (by simp [hc])]
  rw [hleft, List.rdropWhile_idempotent]

theorem isSpace_of_mem_lowerChar (h : d ∈ lowerChar c) : isSpace d = isSpace c := by
  cases hlookup : lowerTable.lookup c.toNat with
  | some image =>
    rw [lowerChar, hlookup, Option.getD_some] at h
    have hall : ∀ p ∈ lowerTable, ∀ d ∈ p.2, isSpace d = false := by simp [lowerTable, isSpace]
    have hkeys : ∀ p ∈ lowerTable, ∀ c : Char, c.toNat = p.1 → isSpace c = false := by
      simp +contextual [lowerTable, isSpace]
    rw [hall _ (mem_of_lookup hlookup) d h, hkeys _ (mem_of_lookup hlookup) c rfl]
  | none =>
    rw [lowerChar, hlookup, Option.getD_none, List.mem_singleton] at h
    subst h
    by_cases hupper : c.isUpper = true
    · obtain ⟨hle, hge⟩ := toNat_toLower_of_isUpper hupper
      have hbounds : 65 ≤ c.toNat ∧ c.toNat ≤ 90 := by
        simp [Char.isUpper, UInt32.le_iff_toNat_le] at hupper
        exact hupper
      rw [Bool.eq_iff_iff]
      simp only [isSpace, Bool.or_eq_true, Bool.and_eq_true, decide_eq_true_eq, beq_iff_eq]
      omega
    · rw [Char.toLower_eq_of_not_isUpper hupper]

theorem dropWhile_flatMap {p : Char → Bool} {f : Char → List Char} (hne : ∀ c, f c ≠ [])
    (hf : ∀ c, ∀ d ∈ f c, p d = p c) (cs : List Char) :
    (cs.flatMap f).dropWhile p = (cs.dropWhile p).flatMap f := by
  induction cs with
  | nil => rfl
  | cons c cs ih =>
    rw [List.flatMap_cons]
    cases hp : p c with
    | true =>
      rw [List.dropWhile_cons_of_pos hp, ← ih]
      exact List.dropWhile_append_of_pos fun d hd => (hf c d hd).trans hp
    | false =>
      rw [List.dropWhile_cons_of_neg (by simp [hp]), List.flatMap_cons]
      cases hfc : f c with
      | nil => exact absurd hfc (hne c)
      | cons d rest =>
        have hd := hf c d (by rw [hfc]; exact List.mem_cons_self)
        rw [List.cons_append, List.dropWhile_cons_of_neg (by simp [hd, hp])]

/-- **Lower case leaves the space around a text alone.** -/
@[simp] theorem strip_lower (s : String) : strip (lower s) = lower (strip s) := by
  have hne : ∀ c : Char, lowerChar c ≠ [] := fun c => getD_lookup_ne_nil (by decide)
  have hright : ∀ cs : List Char,
      (cs.flatMap lowerChar).rdropWhile isSpace = (cs.rdropWhile isSpace).flatMap lowerChar := by
    intro cs
    rw [List.rdropWhile, List.reverse_flatMap, dropWhile_flatMap (f := List.reverse ∘ lowerChar),
      List.rdropWhile, List.flatMap_reverse]
    · exact fun c h => hne c (List.reverse_eq_nil_iff.mp h)
    · exact fun c d hd => isSpace_of_mem_lowerChar (List.mem_reverse.mp hd)
  rw [strip, strip, lower, lower, String.toList_ofList, String.toList_ofList,
    dropWhile_flatMap hne fun c d hd => isSpace_of_mem_lowerChar hd, hright]

/-! ## Integers of base 16 -/

/-- The zeros of the decimal digits outside ASCII. -/
def decimalZeros : List ℕ :=
  [0x660, 0x6F0, 0x7C0, 0x966, 0x9E6, 0xA66, 0xAE6, 0xB66, 0xBE6, 0xC66, 0xCE6, 0xD66, 0xDE6,
    0xE50, 0xED0, 0xF20, 0x1040, 0x1090, 0x17E0, 0x1810, 0x1946, 0x19D0, 0x1A80, 0x1A90, 0x1B50,
    0x1BB0, 0x1C40, 0x1C50, 0xA620, 0xA8D0, 0xA900, 0xA9D0, 0xA9F0, 0xAA50, 0xABF0, 0xFF10,
    0x104A0, 0x10D30, 0x11066, 0x110F0, 0x11136, 0x111D0, 0x112F0, 0x11450, 0x114D0, 0x11650,
    0x116C0, 0x11730, 0x118E0, 0x11950, 0x11C50, 0x11D50, 0x11DA0, 0x16A60, 0x16AC0, 0x16B50,
    0x1D7CE, 0x1D7D8, 0x1D7E2, 0x1D7EC, 0x1D7F6, 0x1E140, 0x1E2F0, 0x1E950, 0x1FBF0]

/-- The value of a digit of base 16. -/
def hexDigit (c : Char) : Option ℕ :=
  let n := c.toNat
  if 48 ≤ n ∧ n ≤ 57 then some (n - 48)
  else if 97 ≤ n ∧ n ≤ 102 then some (n - 87)
  else if 65 ≤ n ∧ n ≤ 70 then some (n - 55)
  else (decimalZeros.find? fun z => z ≤ n && n ≤ z + 9).map fun z => n - z

/-- The value of the remaining digits after a number; single underscores may separate them. -/
def hexDigits : ℕ → List Char → Option ℕ
  | n, [] => some n
  | n, '_' :: c :: cs => (hexDigit c).bind fun d => hexDigits (16 * n + d) cs
  | n, c :: cs => (hexDigit c).bind fun d => hexDigits (16 * n + d) cs

/-- A numeral of base 16 without sign; `0x` and one underscore may stand before it. -/
def hexNumeral (cs : List Char) : Option ℕ :=
  let digits := match cs with
    | '0' :: 'x' :: '_' :: cs | '0' :: 'X' :: '_' :: cs => cs
    | '0' :: 'x' :: cs | '0' :: 'X' :: cs => cs
    | cs => cs
  match digits with
  | [] => none
  | c :: cs => (hexDigit c).bind fun d => hexDigits d cs

/-- `int(s, 16)`. -/
def hexInt (s : String) : Option ℤ :=
  let space := fun c : Char => isSpace c && !(28 ≤ c.toNat && c.toNat ≤ 31)
  match (s.toList.dropWhile space).rdropWhile space with
  | '-' :: cs => (hexNumeral cs).map fun n => -(n : ℤ)
  | '+' :: cs => (hexNumeral cs).map fun n => (n : ℤ)
  | cs => (hexNumeral cs).map fun n => (n : ℤ)

example : hexInt "16B3748" = some 0x16B3748 ∧ hexInt " -0x_1_f" = some (-31) ∧
    hexInt "1__2" = none := by decide

theorem mem_hexDigits {m : ℕ} (h : hexDigits n cs = some m)
    (hc : c ∈ cs) : c = '_' ∨ (hexDigit c).isSome := by
  induction n, cs using hexDigits.induct with
  | case1 n => simp at hc
  | case2 n d cs ih =>
    rw [hexDigits] at h
    obtain ⟨v, hv, h⟩ := Option.bind_eq_some_iff.mp h
    rcases List.mem_cons.mp hc with rfl | hc
    · exact .inl rfl
    · rcases List.mem_cons.mp hc with rfl | hc
      · exact .inr (by rw [hv]; rfl)
      · exact ih v h hc
  | case3 n d cs hne ih =>
    rw [hexDigits] at h
    · obtain ⟨v, hv, h⟩ := Option.bind_eq_some_iff.mp h
      rcases List.mem_cons.mp hc with rfl | hc
      · exact .inr (by rw [hv]; rfl)
      · exact ih v h hc
    · exact hne

theorem mem_hexNumeral (h : hexNumeral cs = some n)
    (hc : c ∈ cs) : c ∈ ['_', 'x', 'X'] ∨ (hexDigit c).isSome := by
  unfold hexNumeral at h
  extract_lets digits at h
  have hsplit : c ∈ ['0', '_', 'x', 'X'] ∨ c ∈ digits := by
    dsimp only [digits]
    split
    · simp only [List.mem_cons] at hc ⊢
      tauto
    · simp only [List.mem_cons] at hc ⊢
      tauto
    · simp only [List.mem_cons] at hc ⊢
      tauto
    · simp only [List.mem_cons] at hc ⊢
      tauto
    · exact .inr hc
  rcases hsplit with hprefix | hmem
  · have hzero : (hexDigit '0').isSome := by decide
    rw [List.mem_cons] at hprefix
    rcases hprefix with rfl | hprefix
    · exact .inr hzero
    · exact .inl hprefix
  · clear_value digits
    cases digits with
    | nil => cases h
    | cons d rest =>
      obtain ⟨v, hv, hread⟩ := Option.bind_eq_some_iff.mp h
      rcases List.mem_cons.mp hmem with rfl | hmem
      · exact .inr (by rw [hv]; rfl)
      · rcases mem_hexDigits hread hmem with rfl | hsome
        · simp
        · exact .inr hsome

theorem mem_dropWhile_of_not {p : Char → Bool} (hc : c ∈ cs)
    (hp : ¬ p c = true) : c ∈ cs.dropWhile p := by
  rw [← List.takeWhile_append_dropWhile (p := p) (l := cs), List.mem_append] at hc
  rcases hc with hc | hc
  · exact absurd (List.mem_takeWhile_imp hc) hp
  · exact hc

/-- **The characters of a text that is read as a number of base 16**: spaces, a sign, a prefix,
underscores and digits. -/
theorem mem_hexInt {s : String} {z : ℤ} (h : hexInt s = some z) (hc : c ∈ s.toList) :
    isSpace c ∨ c ∈ ['-', '+', '_', 'x', 'X'] ∨ (hexDigit c).isSome := by
  by_cases hspace : isSpace c = true
  · exact .inl hspace
  right
  unfold hexInt at h
  extract_lets space at h
  have hstripped : c ∈ (s.toList.dropWhile space).rdropWhile space := by
    have hnot : ¬ space c = true := by
      simp [space, hspace]
    rw [List.rdropWhile, List.mem_reverse]
    apply mem_dropWhile_of_not _ hnot
    exact List.mem_reverse.mpr (mem_dropWhile_of_not hc hnot)
  have hnumeral : ∀ {cs : List Char} {n : ℕ}, hexNumeral cs = some n → c ∈ cs →
      c ∈ ['-', '+', '_', 'x', 'X'] ∨ (hexDigit c).isSome := by
    intro cs n hn hmem
    rcases mem_hexNumeral hn hmem with hmem | hsome
    · exact .inl (List.mem_cons_of_mem _ (List.mem_cons_of_mem _ hmem))
    · exact .inr hsome
  split at h
  · next cs heq =>
      cases hn : hexNumeral cs with
      | none =>
        rw [hn] at h
        cases h
      | some n =>
        rw [heq] at hstripped
        rcases List.mem_cons.mp hstripped with rfl | hmem
        · simp
        · exact hnumeral hn hmem
  · next cs heq =>
      cases hn : hexNumeral cs with
      | none =>
        rw [hn] at h
        cases h
      | some n =>
        rw [heq] at hstripped
        rcases List.mem_cons.mp hstripped with rfl | hmem
        · simp
        · exact hnumeral hn hmem
  · next cs _ _ =>
      cases hn : hexNumeral ((s.toList.dropWhile space).rdropWhile space) with
      | none =>
        rw [hn] at h
        cases h
      | some n => exact hnumeral hn hstripped

end PythonText
