/-
# Numbers in JSON texts

How `json.loads` reads a number, and that it reads the numerals `json.dumps` writes: an integer
as itself, and a float by its shortest numeral, which no other float has.

* `readNumber_toDigits` : the numeral of an integer reads as that integer;
* `readNumber_jsonText` : the numeral of a float reads as that float.
-/
import Akaal.ShortestNumeral
import Akaal.PythonValue

open RoundSignificant

namespace JsonText

/-! ## Reading a number -/

/-- The value of decimal digits. -/
def digitsValue (digits : List Char) : ℕ := Nat.ofDigitChars 10 digits 0

/-- The digits of an integer part: one zero, or digits that start with another one. -/
def integerDigits : List Char → List Char
  | '0' :: _ => ['0']
  | s => s.takeWhile Char.isDigit

/-- The digits after a point, and what follows them; a point without digits is not read. -/
def readFraction : List Char → List Char × List Char
  | '.' :: rest =>
    if rest.takeWhile Char.isDigit = [] then ([], '.' :: rest)
    else (rest.takeWhile Char.isDigit, rest.dropWhile Char.isDigit)
  | s => ([], s)

/-- The sign of an exponent, and what follows it. -/
def exponentSign : List Char → ℤ × List Char
  | '+' :: rest => (1, rest)
  | '-' :: rest => (-1, rest)
  | s => (1, s)

/-- An exponent, and what follows it; a letter without digits is not read. -/
def readExponent (s : List Char) : Option ℤ × List Char :=
  match s with
  | [] => (none, [])
  | e :: rest =>
    if e = 'e' ∨ e = 'E' then
      let (sign, digits) := exponentSign rest
      if digits.takeWhile Char.isDigit = [] then (none, s)
      else (some (sign * digitsValue (digits.takeWhile Char.isDigit)),
        digits.dropWhile Char.isDigit)
    else (none, s)

/-- `float` of a numeral: the nearest float. -/
def floatOf (negative : Bool) (mantissa : ℕ) (exponent : ℤ) : PyFloat :=
  let q : ℚ := mantissa * 10 ^ exponent
  if q = 0 then if negative then .negativeZero else .finite 0
  else
    match binary64.round (if negative then -q else q) with
    | some value => .finite value
    | none => .infinite negative

/-- `int` of a numeral. -/
def intOf (negative : Bool) (n : ℕ) : ℤ := if negative then -n else n

/-- A number after its sign, and what follows it: an integer when it has neither a fraction nor
an exponent. -/
def readNumber (negative : Bool) (s : List Char) : Option (PyValue × List Char) :=
  let digits := integerDigits s
  if digits = [] then none
  else
    let (fraction, afterFraction) := readFraction (s.drop digits.length)
    let (exponent, rest) := readExponent afterFraction
    if fraction = [] ∧ exponent = none then some (.int (intOf negative (digitsValue digits)), rest)
    else some (.float (floatOf negative (digitsValue (digits ++ fraction))
      (exponent.getD 0 - fraction.length)), rest)

/-! ## Digits -/

/-- What follows a number does not go on with it. -/
def EndsNumber (s : List Char) : Prop :=
  ∀ c ∈ s.head?, c.isDigit = false ∧ c ≠ '.' ∧ c ≠ 'e' ∧ c ≠ 'E'

theorem takeWhile_isDigit_append {ds rest : List Char} (hds : ∀ c ∈ ds, c.isDigit = true)
    (hrest : ∀ c ∈ rest.head?, c.isDigit = false) :
    (ds ++ rest).takeWhile Char.isDigit = ds ∧ (ds ++ rest).dropWhile Char.isDigit = rest := by
  have hempty : rest.takeWhile Char.isDigit = [] ∧ rest.dropWhile Char.isDigit = rest := by
    cases rest with
    | nil => exact ⟨rfl, rfl⟩
    | cons c rest =>
      have hc : c.isDigit = false := hrest c rfl
      constructor
      · rw [List.takeWhile_cons_of_neg (by simp [hc])]
      · rw [List.dropWhile_cons_of_neg (by simp [hc])]
  constructor
  · rw [List.takeWhile_append_of_pos hds, hempty.1, List.append_nil]
  · rw [List.dropWhile_append_of_pos hds, hempty.2]

theorem digitsValue_lt {ds : List Char} (hds : ∀ c ∈ ds, c.isDigit = true) :
    digitsValue ds < 10 ^ ds.length := by
  induction ds with
  | nil => simp [digitsValue]
  | cons c ds ih =>
    obtain ⟨hc, hrest⟩ := List.forall_mem_cons.mp hds
    have hlt := ih hrest
    have hdigit : c.toNat - 48 ≤ 9 := by
      simp only [Char.isDigit, Bool.and_eq_true, decide_eq_true_eq] at hc
      have h : c.toNat ≤ 57 := hc.2
      omega
    rw [digitsValue, Nat.ofDigitChars_cons, Nat.ofDigitChars_eq_ofDigitChars_zero,
      ← digitsValue, List.length_cons, pow_succ]
    have hmul : 10 ^ ds.length * (10 * 0 + (c.toNat - 48)) ≤ 10 ^ ds.length * 9 :=
      Nat.mul_le_mul_left _ (by omega)
    have hzero : '0'.toNat = 48 := rfl
    rw [hzero]
    omega

theorem digitsValue_append (ds es : List Char) :
    digitsValue (ds ++ es) = 10 ^ es.length * digitsValue ds + digitsValue es := by
  rw [digitsValue, Nat.ofDigitChars_append, Nat.ofDigitChars_eq_ofDigitChars_zero]
  rfl

@[simp] theorem digitsValue_replicate_zero (n : ℕ) : digitsValue (List.replicate n '0') = 0 := by
  rw [digitsValue, Nat.ofDigitChars_replicate_zero, Nat.mul_zero]

@[simp] theorem digitsValue_toDigits (n : ℕ) : digitsValue (Nat.toDigits 10 n) = n :=
  Nat.ofDigitChars_ten_toDigits

theorem digitsValue_zfill (width n : ℕ) : digitsValue (zfill width n) = n := by
  rw [zfill, digitsValue_append, digitsValue_replicate_zero, Nat.toList_repr, digitsValue_toDigits,
    Nat.mul_zero, Nat.zero_add]

theorem isDigit_of_mem_zfill {width n : ℕ} {c : Char} (h : c ∈ zfill width n) :
    c.isDigit = true := by
  rcases List.mem_append.mp h with hzero | hdigit
  · rw [List.eq_of_mem_replicate hzero]
    rfl
  · rw [Nat.toList_repr] at hdigit
    exact Nat.isDigit_of_mem_toDigits (by decide) (by decide) hdigit

theorem toDigits_head_ne_zero {n : ℕ} (hn : 0 < n) {rest : List Char} :
    Nat.toDigits 10 n ≠ '0' :: rest := by
  intro h
  have hdigits : ∀ c ∈ rest, c.isDigit = true := fun c hc =>
    Nat.isDigit_of_mem_toDigits (b := 10) (by decide) (by decide)
      (h ▸ List.mem_cons_of_mem _ hc)
  have hvalue : n = digitsValue rest := by
    conv_lhs => rw [← digitsValue_toDigits n, h]
    rfl
  have hlt := digitsValue_lt hdigits
  rw [← hvalue] at hlt
  have hlength : (Nat.toDigits 10 n).length = rest.length + 1 := by rw [h, List.length_cons]
  rcases Nat.eq_zero_or_pos rest.length with hzero | hpos
  · rw [hzero] at hlt
    omega
  · have hle := (Nat.length_toDigits_le_iff (b := 10) (by decide) hpos).mpr hlt
    omega

/-! ## Integers -/

theorem integerDigits_append {ds rest : List Char} (hds : ∀ c ∈ ds, c.isDigit = true)
    (hhead : ds = ['0'] ∨ ∀ tail, ds ≠ '0' :: tail) (hne : ds ≠ [])
    (hrest : ∀ c ∈ rest.head?, c.isDigit = false) : integerDigits (ds ++ rest) = ds := by
  rcases hhead with rfl | hhead
  · rfl
  · cases ds with
    | nil => exact absurd rfl hne
    | cons d ds =>
      have hd : d ≠ '0' := fun h => hhead ds (by rw [h])
      rw [integerDigits.eq_def]
      split
      · next heq =>
          rw [List.cons_append] at heq
          exact absurd (List.cons.inj heq).1 hd
      · exact (takeWhile_isDigit_append hds hrest).1

theorem toDigits_head (n : ℕ) :
    Nat.toDigits 10 n = ['0'] ∨ ∀ tail, Nat.toDigits 10 n ≠ '0' :: tail := by
  rcases Nat.eq_zero_or_pos n with rfl | hn
  · exact .inl (Nat.toDigits_zero 10)
  · exact .inr fun _ => toDigits_head_ne_zero hn

theorem readFraction_of_ne {s : List Char} (h : ∀ c ∈ s.head?, c ≠ '.') :
    readFraction s = ([], s) := by
  rw [readFraction.eq_def]
  split
  · exact absurd rfl (h '.' rfl)
  · rfl

theorem readExponent_of_ends {s : List Char} (h : EndsNumber s) : readExponent s = (none, s) := by
  cases s with
  | nil => rfl
  | cons c s =>
    obtain ⟨-, -, he, hE⟩ := h c rfl
    rw [readExponent, if_neg (by simp [he, hE])]

/-- **The numeral of an integer** reads as that integer. -/
theorem readNumber_toDigits (negative : Bool) (n : ℕ) {rest : List Char} (h : EndsNumber rest) :
    readNumber negative (Nat.toDigits 10 n ++ rest) = some (.int (intOf negative n), rest) := by
  have hdigits : ∀ c ∈ Nat.toDigits 10 n, c.isDigit = true := fun c hc =>
    Nat.isDigit_of_mem_toDigits (by decide) (by decide) hc
  have hint := integerDigits_append hdigits (toDigits_head n) Nat.toDigits_ne_nil
    fun c hc => (h c hc).1
  unfold readNumber
  simp only [hint, Nat.toDigits_ne_nil, if_false, List.drop_left]
  rw [readFraction_of_ne fun c hc => (h c hc).2.1]
  simp only [readExponent_of_ends h, digitsValue_toDigits, and_self, if_true]

/-! ## Numerals with a fraction or an exponent -/

/-- A fraction after its point; nothing when there is none. -/
def fractionText (fraction : List Char) : List Char :=
  if fraction = [] then [] else '.' :: fraction

/-- An exponent after its letter; nothing when there is none. -/
def exponentPart : Option ℤ → List Char
  | none => []
  | some exponent => 'e' :: exponentText 2 exponent

theorem head_exponentPart {exponent : Option ℤ} {rest : List Char} (h : EndsNumber rest) :
    ∀ c ∈ (exponentPart exponent ++ rest).head?, c.isDigit = false ∧ c ≠ '.' := by
  intro c hc
  cases exponent with
  | none => exact ⟨(h c hc).1, (h c hc).2.1⟩
  | some e =>
    have heq : 'e' = c := Option.some.inj hc
    rw [← heq]
    exact ⟨by decide, by decide⟩

/-- A fraction is read. -/
theorem readFraction_fractionText {fraction rest : List Char}
    (hfraction : ∀ c ∈ fraction, c.isDigit = true)
    (hrest : ∀ c ∈ rest.head?, c.isDigit = false ∧ c ≠ '.') :
    readFraction (fractionText fraction ++ rest) = (fraction, rest) := by
  unfold fractionText
  split_ifs with hnil
  · rw [hnil, List.nil_append]
    exact readFraction_of_ne fun c hc => (hrest c hc).2
  · obtain ⟨htake, hdrop⟩ := takeWhile_isDigit_append hfraction fun c hc => (hrest c hc).1
    show readFraction ('.' :: (fraction ++ rest)) = _
    rw [readFraction, htake, hdrop, if_neg hnil]

theorem readExponent_exponentPart (exponent : Option ℤ) {rest : List Char} (h : EndsNumber rest) :
    readExponent (exponentPart exponent ++ rest) = (exponent, rest) := by
  cases exponent with
  | none => exact readExponent_of_ends h
  | some e =>
    obtain ⟨htake, hdrop⟩ := @takeWhile_isDigit_append (zfill 2 e.natAbs) rest
      (fun c hc => isDigit_of_mem_zfill hc) fun c hc => (h c hc).1
    have hne : zfill 2 e.natAbs ≠ [] := by
      rw [zfill, Nat.toList_repr]
      exact List.append_ne_nil_of_right_ne_nil _ Nat.toDigits_ne_nil
    have hsign : exponentSign (exponentText 2 e ++ rest) =
        (if e < 0 then -1 else 1, zfill 2 e.natAbs ++ rest) := by
      unfold exponentText
      split_ifs <;> rfl
    show readExponent ('e' :: (exponentText 2 e ++ rest)) = _
    rw [readExponent, if_pos (.inl rfl), hsign]
    simp only [htake, hdrop, hne, if_false, digitsValue_zfill]
    congr 2
    split_ifs <;> omega

/-- **A numeral with a fraction or an exponent** reads as the float nearest to its value. -/
theorem readNumber_numeral (negative : Bool) {ds fraction : List Char} {exponent : Option ℤ}
    {rest : List Char} (hds : ∀ c ∈ ds, c.isDigit = true) (hne : ds ≠ [])
    (hhead : ds = ['0'] ∨ ∀ tail, ds ≠ '0' :: tail)
    (hfraction : ∀ c ∈ fraction, c.isDigit = true) (hfloat : fraction ≠ [] ∨ exponent ≠ none)
    (hrest : EndsNumber rest) :
    readNumber negative (ds ++ (fractionText fraction ++ (exponentPart exponent ++ rest))) =
      some (.float (floatOf negative (digitsValue (ds ++ fraction))
        (exponent.getD 0 - fraction.length)), rest) := by
  have hafter := @head_exponentPart exponent rest hrest
  have hpoint : ∀ c ∈ (fractionText fraction ++ (exponentPart exponent ++ rest)).head?,
      c.isDigit = false := by
    intro c hc
    unfold fractionText at hc
    split_ifs at hc with hnil
    · exact (hafter c hc).1
    · have heq : '.' = c := Option.some.inj hc
      rw [← heq]
      decide
  have hint := integerDigits_append hds hhead hne hpoint
  have hboth : ¬ (fraction = [] ∧ exponent = none) := by tauto
  unfold readNumber
  simp only [hint, hne, if_false, List.drop_left]
  rw [readFraction_fractionText hfraction hafter]
  simp only [readExponent_exponentPart exponent hrest, hboth, if_false]

/-! ## The digits of a float -/

theorem stripped_spec {n : ℕ} (hn : 0 < n) :
    let digits := n.repr.toList.rdropWhile (· == '0')
    digits ≠ [] ∧ (∀ c ∈ digits, c.isDigit = true) ∧ (∀ tail, digits ≠ '0' :: tail) ∧
      digits.length ≤ (Nat.toDigits 10 n).length ∧
      n = digitsValue digits * 10 ^ ((Nat.toDigits 10 n).length - digits.length) := by
  intro digits
  have hsplit : digits ++ n.repr.toList.rtakeWhile (· == '0') = Nat.toDigits 10 n := by
    rw [← Nat.toList_repr]
    exact List.rdropWhile_append_rtakeWhile
  have hzeros : n.repr.toList.rtakeWhile (· == '0') =
      List.replicate (n.repr.toList.rtakeWhile (· == '0')).length '0' := by
    rw [List.eq_replicate_iff]
    exact ⟨rfl, fun c hc => by simpa using List.mem_rtakeWhile_imp hc⟩
  have hvalue : n = digitsValue digits * 10 ^ (n.repr.toList.rtakeWhile (· == '0')).length := by
    conv_lhs => rw [← digitsValue_toDigits n, ← hsplit, digitsValue_append, hzeros,
      digitsValue_replicate_zero, Nat.add_zero, mul_comm, List.length_replicate]
  have hlength : (Nat.toDigits 10 n).length =
      digits.length + (n.repr.toList.rtakeWhile (· == '0')).length := by
    rw [← hsplit, List.length_append]
  refine ⟨?_, ?_, ?_, by omega, ?_⟩
  · intro hnil
    rw [hnil] at hvalue
    simp [digitsValue] at hvalue
    omega
  · intro c hc
    apply Nat.isDigit_of_mem_toDigits (b := 10) (n := n) (by decide) (by decide)
    rw [← hsplit]
    exact List.mem_append_left _ hc
  · intro tail htail
    rw [htail, List.cons_append] at hsplit
    exact toDigits_head_ne_zero hn hsplit.symm
  · rw [hlength, Nat.add_sub_cancel_left]
    exact hvalue

theorem significantDigits_spec {k : ℕ} (hk : 0 < k) {r : ℚ} (hr : 0 < r)
    (hnumeral : Format.IsNumeral 10 k r) :
    let (digits, exponent) := significantDigits k r
    digits ≠ [] ∧ (∀ c ∈ digits, c.isDigit = true) ∧ (∀ tail, digits ≠ '0' :: tail) ∧
      r = digitsValue digits * (10 : ℚ) ^ (exponent + 1 - digits.length) := by
  obtain ⟨m, hm⟩ := hnumeral
  rw [abs_of_pos hr] at hm
  simp only [significantDigits]
  set e := Int.log 10 r with he
  push_cast at hm
  have hupos : (0 : ℚ) < (10 : ℚ) ^ (e - (k - 1 : ℕ)) := zpow_pos (by norm_num) _
  have hfloor : ⌊r / (10 : ℚ) ^ (e - (k - 1 : ℕ))⌋ = m := by
    rw [(div_eq_iff hupos.ne').mpr hm, Int.floor_intCast]
  have hmpos : 0 < m := by
    have h : (0 : ℚ) < m * (10 : ℚ) ^ (e - (k - 1 : ℕ)) := hm ▸ hr
    exact_mod_cast (mul_pos_iff_of_pos_right hupos).mp h
  rw [hfloor]
  obtain ⟨n, rfl⟩ := Int.eq_ofNat_of_zero_le hmpos.le
  have hn : 0 < n := by exact_mod_cast hmpos
  rw [Int.toNat_natCast]
  obtain ⟨hne, hdigit, hhead, hle, hvalue⟩ := stripped_spec hn
  refine ⟨hne, hdigit, hhead, ?_⟩
  -- the number has exactly `k` digits
  have hlow : (10 : ℚ) ^ e ≤ r := by
    have h := Int.zpow_log_le_self (b := 10) (by decide) hr
    exact_mod_cast h
  have hhigh : r < (10 : ℚ) ^ (e + 1) := by
    have h := Int.lt_zpow_succ_log_self (b := 10) (by decide) r
    exact_mod_cast h
  have hcast : ∀ j : ℕ, (10 : ℚ) ^ (e - (k - 1 : ℕ) + j) =
      ((10 ^ j : ℕ) : ℚ) * (10 : ℚ) ^ (e - (k - 1 : ℕ)) := by
    intro j
    rw [zpow_add₀ (by norm_num), zpow_natCast, mul_comm]
    push_cast
    rfl
  have hnlow : 10 ^ (k - 1) ≤ n := by
    rw [show e = e - (k - 1 : ℕ) + ((k - 1 : ℕ) : ℤ) by omega, hcast, hm] at hlow
    exact_mod_cast le_of_mul_le_mul_right hlow hupos
  have hnhigh : n < 10 ^ k := by
    rw [show e + 1 = e - (k - 1 : ℕ) + (k : ℤ) by omega, hcast, hm] at hhigh
    exact_mod_cast lt_of_mul_lt_mul_right hhigh hupos.le
  have hlength : (Nat.toDigits 10 n).length = k := by
    have hupper := (Nat.length_toDigits_le_iff (b := 10) (by decide) hk).mpr hnhigh
    rcases Nat.eq_zero_or_pos (k - 1) with hone | hpos
    · have hpositive := Nat.length_toDigits_pos (b := 10) (n := n)
      omega
    · have hlower := mt (Nat.length_toDigits_le_iff (b := 10) (n := n) (by decide) hpos).mp
        (not_lt.mpr hnlow)
      omega
  rw [hlength] at hvalue hle
  rw [hm]
  conv_lhs => rw [hvalue]
  push_cast
  rw [mul_assoc, ← zpow_natCast, ← zpow_add₀ (by norm_num)]
  congr 2
  omega

/-! ## The numeral of a float -/

/-- A float: one of the numbers of the format, so that it is neither rounded nor overflows. -/
def IsFloat : PyFloat → Prop
  | .finite q => q = 0 ∨ binary64.round q = some q
  | _ => True

/-- A text as a numeral with a fraction or an exponent of a value. -/
def IsNumeralText (text : List Char) (r : ℚ) : Prop :=
  ∃ ds fraction exponent, text = ds ++ (fractionText fraction ++ exponentPart exponent) ∧
    (∀ c ∈ ds, c.isDigit = true) ∧ ds ≠ [] ∧ (ds = ['0'] ∨ ∀ tail, ds ≠ '0' :: tail) ∧
    (∀ c ∈ fraction, c.isDigit = true) ∧ (fraction ≠ [] ∨ exponent ≠ none) ∧
    r = digitsValue (ds ++ fraction) * (10 : ℚ) ^ (exponent.getD 0 - (fraction.length : ℤ))

theorem ne_of_isDigit {c : Char} (h : c.isDigit = true) : c ≠ '.' ∧ c ≠ 'e' := by
  constructor
  · rintro rfl
    simp at h
  · rintro rfl
    simp at h

/-- Positional notation of a number below one. -/
theorem isNumeralText_small {digits : List Char} {exponent : ℤ} {r : ℚ}
    (hdigit : ∀ c ∈ digits, c.isDigit = true) (hne : digits ≠ [])
    (hr : r = digitsValue digits * (10 : ℚ) ^ (exponent + 1 - digits.length))
    (hexponent : exponent < 0) :
    IsNumeralText ('0' :: '.' :: (List.replicate (-exponent - 1).toNat '0' ++ digits)) r := by
  refine ⟨['0'], List.replicate (-exponent - 1).toNat '0' ++ digits, none, ?_, ?_, by simp,
    .inl rfl, ?_, .inl (List.append_ne_nil_of_right_ne_nil _ hne), ?_⟩
  · rw [fractionText, if_neg (List.append_ne_nil_of_right_ne_nil _ hne)]
    simp [exponentPart]
  · intro c hc
    rw [List.mem_singleton.mp hc]
    rfl
  · intro c hc
    rcases List.mem_append.mp hc with hzero | hc
    · rw [List.eq_of_mem_replicate hzero]
      rfl
    · exact hdigit c hc
  · have hvalue : digitsValue (['0'] ++ (List.replicate (-exponent - 1).toNat '0' ++ digits)) =
        digitsValue digits := by
      have hzero : digitsValue ['0'] = 0 := rfl
      rw [← List.append_assoc, digitsValue_append, digitsValue_append, digitsValue_replicate_zero,
        hzero]
      simp
    rw [hvalue, hr]
    congr 2
    simp only [Option.getD_none, List.length_append, List.length_replicate]
    omega

/-- Positional notation of a whole number. -/
theorem isNumeralText_whole {digits : List Char} {exponent : ℤ} {r : ℚ}
    (hdigit : ∀ c ∈ digits, c.isDigit = true) (hne : digits ≠ [])
    (hhead : ∀ tail, digits ≠ '0' :: tail)
    (hr : r = digitsValue digits * (10 : ℚ) ^ (exponent + 1 - digits.length))
    (hexponent : 0 ≤ exponent) (hlength : digits.length ≤ exponent.toNat + 1) :
    IsNumeralText (digits ++ List.replicate (exponent.toNat + 1 - digits.length) '0' ++ ['.', '0'])
      r := by
  refine ⟨digits ++ List.replicate (exponent.toNat + 1 - digits.length) '0', ['0'], none, ?_, ?_,
    List.append_ne_nil_of_left_ne_nil hne _, .inr ?_, ?_, .inl (by simp), ?_⟩
  · simp [fractionText, exponentPart]
  · intro c hc
    rcases List.mem_append.mp hc with hc | hzero
    · exact hdigit c hc
    · rw [List.eq_of_mem_replicate hzero]
      rfl
  · intro tail h
    cases digits with
    | nil => exact hne rfl
    | cons d digits =>
      rw [List.cons_append] at h
      exact hhead digits (by rw [(List.cons.inj h).1])
  · intro c hc
    rw [List.mem_singleton.mp hc]
    rfl
  · have hzero : digitsValue ['0'] = 0 := rfl
    rw [digitsValue_append, digitsValue_append, digitsValue_replicate_zero, hr, hzero]
    simp only [List.length_replicate, List.length_singleton, Option.getD_none, Nat.add_zero]
    push_cast
    rw [show exponent + 1 - (digits.length : ℤ) =
        ((exponent.toNat + 1 - digits.length : ℕ) : ℤ) by omega, zpow_natCast]
    norm_num
    ring

/-- Positional notation of a number with a fraction. -/
theorem isNumeralText_fraction {digits : List Char} {exponent : ℤ} {r : ℚ}
    (hdigit : ∀ c ∈ digits, c.isDigit = true) (hhead : ∀ tail, digits ≠ '0' :: tail)
    (hr : r = digitsValue digits * (10 : ℚ) ^ (exponent + 1 - digits.length))
    (hexponent : 0 ≤ exponent) (hlength : exponent.toNat + 1 < digits.length) :
    IsNumeralText (digits.take (exponent.toNat + 1) ++ '.' :: digits.drop (exponent.toNat + 1))
      r := by
  have hdrop : digits.drop (exponent.toNat + 1) ≠ [] := by
    intro hnil
    have hzero := congrArg List.length hnil
    rw [List.length_drop, List.length_nil] at hzero
    omega
  refine ⟨digits.take (exponent.toNat + 1), digits.drop (exponent.toNat + 1), none, ?_,
    fun c hc => hdigit c (List.mem_of_mem_take hc), ?_, .inr ?_,
    fun c hc => hdigit c (List.mem_of_mem_drop hc), .inl hdrop, ?_⟩
  · rw [fractionText, if_neg hdrop]
    simp [exponentPart]
  · intro hnil
    have hzero := congrArg List.length hnil
    rw [List.length_take, List.length_nil] at hzero
    omega
  · intro tail h
    cases digits with
    | nil => simp at h
    | cons d digits =>
      rw [List.take_succ_cons] at h
      exact hhead digits (by rw [(List.cons.inj h).1])
  · rw [List.take_append_drop, hr]
    congr 2
    simp only [Option.getD_none, List.length_drop]
    omega

/-- Scientific notation. -/
theorem isNumeralText_scientific {digits : List Char} {exponent : ℤ} {r : ℚ}
    (hdigit : ∀ c ∈ digits, c.isDigit = true) (hne : digits ≠ [])
    (hhead : ∀ tail, digits ≠ '0' :: tail)
    (hr : r = digitsValue digits * (10 : ℚ) ^ (exponent + 1 - digits.length)) :
    IsNumeralText (mantissaText digits ++ 'e' :: exponentText 2 exponent) r := by
  cases digits with
  | nil => exact absurd rfl hne
  | cons d digits =>
    obtain ⟨hd, hrest⟩ := List.forall_mem_cons.mp hdigit
    refine ⟨[d], digits, some exponent, ?_, by simpa using hd, by simp, .inr ?_, hrest,
      .inr (by simp), ?_⟩
    · cases digits with
      | nil => rfl
      | cons d' digits => simp [mantissaText, fractionText, exponentPart]
    · intro tail h
      exact hhead digits (by rw [(List.cons.inj h).1])
    · rw [List.singleton_append, hr]
      congr 2
      simp only [Option.getD_some, List.length_cons]
      omega

theorem withFraction_of_digits {text : List Char} (h : ∀ c ∈ text, c.isDigit = true) :
    withFraction text = text ++ ['.', '0'] := by
  rw [withFraction, if_neg]
  rintro (hmem | hmem)
  · exact (ne_of_isDigit (h _ hmem)).1 rfl
  · exact (ne_of_isDigit (h _ hmem)).2 rfl

theorem isNumeralText_finiteFloatText {k : ℕ} (hk : 0 < k) (limit : ℤ) {r : ℚ} (hr : 0 < r)
    (hnumeral : Format.IsNumeral 10 k r) :
    IsNumeralText (withFraction (finiteFloatText k limit r)) r := by
  have hspec := significantDigits_spec hk hr hnumeral
  rw [finiteFloatText, abs_of_pos hr]
  rcases hdigits : significantDigits k r with ⟨digits, exponent⟩
  rw [hdigits] at hspec
  obtain ⟨hne, hdigit, hhead, hvalue⟩ := hspec
  have hsign : signText (decide (r < 0)) = [] := by
    rw [signText, if_neg (by simpa using hr.le)]
  simp only [hsign, List.nil_append]
  split_ifs with hpositional
  · unfold positionalText
    split_ifs with hneg hwhole
    · rw [withFraction, if_pos (.inl (by simp))]
      exact isNumeralText_small hdigit hne hvalue hneg
    · rw [withFraction_of_digits]
      · exact isNumeralText_whole hdigit hne hhead hvalue (by omega) hwhole
      · intro c hc
        rcases List.mem_append.mp hc with hc | hzero
        · exact hdigit c hc
        · rw [List.eq_of_mem_replicate hzero]
          rfl
    · rw [withFraction, if_pos (.inl (by simp))]
      exact isNumeralText_fraction hdigit hhead hvalue (by omega) (by omega)
  · rw [withFraction, if_pos (.inr (by simp))]
    exact isNumeralText_scientific hdigit hne hhead hvalue

theorem nearest_of_isFloat {q : ℚ} (h : binary64.round q = some q) : binary64.nearest q = q :=
  (Format.nearest_of_round binary64 h).symm

/-- The shortest numeral of a float reads as that float, and has its sign. -/
theorem reprFloat_spec {q : ℚ} (hq : q ≠ 0) (h : binary64.round q = some q) :
    binary64.round (PyNumber.reprFloat q) = some q ∧ Format.IsNumeral 10 17 (PyNumber.reprFloat q) ∧
      (0 < q → 0 < PyNumber.reprFloat q) ∧ (q < 0 → PyNumber.reprFloat q < 0) := by
  have hfix := nearest_of_isFloat h
  have hread : binary64.nearest (PyNumber.reprFloat q) = q :=
    Format.nearest_shortest binary64 hfix 10 17
  refine ⟨?_, Format.shortest_isNumeral binary64 (by decide) (by decide) (by decide) hq hfix, ?_,
    ?_⟩
  · unfold Format.round at h ⊢
    rw [hread]
    rwa [hfix] at h
  · intro hpos
    by_contra hle
    have hmono := binary64.nearest_mono (not_lt.mp hle)
    rw [hread, Format.nearest_zero] at hmono
    exact absurd hpos (not_lt.mpr hmono)
  · intro hneg
    by_contra hle
    have hmono := binary64.nearest_mono (not_lt.mp hle)
    rw [hread, Format.nearest_zero] at hmono
    exact absurd hneg (not_lt.mpr hmono)

theorem finiteFloatText_abs (k : ℕ) (limit : ℤ) (r : ℚ) :
    finiteFloatText k limit r = signText (r < 0) ++ finiteFloatText k limit |r| := by
  have hnonneg : signText (decide (|r| < 0)) = [] := by
    rw [signText, if_neg (by simp)]
  simp only [finiteFloatText, abs_abs, hnonneg, List.nil_append]

theorem withFraction_finiteFloatText (r : ℚ) : withFraction (finiteFloatText 17 16 r) =
      signText (r < 0) ++ withFraction (finiteFloatText 17 16 |r|) := by
  have hsplit := finiteFloatText_abs 17 16 r
  have hsign : ∀ c ∈ signText (decide (r < 0)), c ≠ '.' ∧ c ≠ 'e' := by
    intro c hc
    unfold signText at hc
    split_ifs at hc
    · rw [List.mem_singleton.mp hc]
      decide
    · cases hc
  have hmem : ∀ c ∈ ['.', 'e'], c ∈ signText (decide (r < 0)) ++ finiteFloatText 17 16 |r| ↔
      c ∈ finiteFloatText 17 16 |r| := by
    intro c hc
    rw [List.mem_append]
    constructor
    · rintro (h | h)
      · obtain ⟨h1, h2⟩ := hsign c h
        simp only [List.mem_cons, List.not_mem_nil, or_false] at hc
        tauto
      · exact h
    · exact .inr
  have hboth : ('.' ∈ finiteFloatText 17 16 r ∨ 'e' ∈ finiteFloatText 17 16 r) ↔
      ('.' ∈ finiteFloatText 17 16 |r| ∨ 'e' ∈ finiteFloatText 17 16 |r|) := by
    rw [hsplit, hmem '.' (by simp), hmem 'e' (by simp)]
  unfold withFraction
  by_cases hpoint : '.' ∈ finiteFloatText 17 16 |r| ∨ 'e' ∈ finiteFloatText 17 16 |r|
  · rw [if_pos hpoint, if_pos (hboth.mpr hpoint), hsplit]
  · rw [if_neg hpoint, if_neg (mt hboth.mp hpoint), hsplit, List.append_assoc]

/-- **The numeral of a float** is a sign and a text that reads as that float. -/
theorem readNumber_jsonText {q : ℚ} (hq : q ≠ 0) (h : binary64.round q = some q) :
    ∃ text, (PyFloat.finite q).jsonText.toList = signText (q < 0) ++ text ∧
      (∀ c ∈ text.head?, c.isDigit = true) ∧ text ≠ [] ∧
      ∀ rest, EndsNumber rest →
        readNumber (decide (q < 0)) (text ++ rest) = some (.float (.finite q), rest) := by
  obtain ⟨hround, hnumeral, hpos, hneg⟩ := reprFloat_spec hq h
  set r := PyNumber.reprFloat q with hr
  have hlt : decide (r < 0) = decide (q < 0) := by
    rcases lt_or_gt_of_ne hq with hq | hq
    · rw [decide_eq_true hq, decide_eq_true (hneg hq)]
    · rw [decide_eq_false (not_lt.mpr hq.le), decide_eq_false (not_lt.mpr (hpos hq).le)]
  have hrne : r ≠ 0 := by
    rcases lt_or_gt_of_ne hq with hq | hq
    · exact (hneg hq).ne
    · exact (hpos hq).ne'
  have habs : Format.IsNumeral 10 17 |r| := by
    obtain ⟨m, hm⟩ := hnumeral
    refine ⟨|m|, ?_⟩
    rw [abs_abs]
    conv_lhs => rw [hm]
    have hunit : (0 : ℚ) < ((10 : ℕ) : ℚ) ^ (Int.log 10 |r| - ((17 - 1 : ℕ) : ℤ)) :=
      zpow_pos (by norm_num) _
    rw [abs_mul, abs_of_pos hunit, Int.cast_abs]
  obtain ⟨ds, fraction, exponent, htext, hds, hne, hhead, hfraction, hfloat, hvalue⟩ :=
    isNumeralText_finiteFloatText (by decide) 16 (abs_pos.mpr hrne) habs
  refine ⟨withFraction (finiteFloatText 17 16 |r|), ?_, ?_, ?_, ?_⟩
  · rw [PyFloat.jsonText, if_neg hq, String.toList_ofList, ← hr, withFraction_finiteFloatText, hlt]
  · intro c hc
    rw [htext, List.head?_append_of_ne_nil _ hne] at hc
    exact hds c (List.mem_of_head? hc)
  · rw [htext]
    exact List.append_ne_nil_of_left_ne_nil hne _
  · intro rest hrest
    rw [htext, List.append_assoc, List.append_assoc,
      readNumber_numeral _ hds hne hhead hfraction hfloat hrest]
    have hfloatOf : floatOf (decide (q < 0)) (digitsValue (ds ++ fraction))
        (exponent.getD 0 - fraction.length) = .finite q := by
      have hsigned : (if decide (q < 0) = true then -|r| else |r|) = r := by
        rw [← hlt]
        split_ifs with hsign
        · rw [abs_of_neg (of_decide_eq_true hsign), neg_neg]
        · rw [abs_of_nonneg (not_lt.mp fun h => hsign (decide_eq_true h))]
      rw [floatOf]
      simp only [← hvalue, abs_eq_zero, hrne, if_false, hsigned, hround]
    rw [hfloatOf]

theorem readNumber_zero (negative : Bool) {rest : List Char} (h : EndsNumber rest) :
    readNumber negative ('0' :: '.' :: '0' :: rest) =
      some (.float (if negative then .negativeZero else .finite 0), rest) := by
  have hnumeral := @readNumber_numeral negative ['0'] ['0'] none rest (by simp) (by simp) (.inl rfl)
    (by simp) (.inl (by simp)) h
  have hvalue : digitsValue (['0'] ++ ['0']) = 0 := rfl
  have hfloat : floatOf negative 0 (-1) = if negative then .negativeZero else .finite 0 := by
    rw [floatOf]
    simp
  rw [hvalue] at hnumeral
  simpa [fractionText, exponentPart, hfloat] using hnumeral

end JsonText
