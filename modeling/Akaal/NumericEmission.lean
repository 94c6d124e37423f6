/-
# The numbers of source and target types

A source type has the decimals of its precision and scale, or the integers of its width and sign; a target
type has the numbers its engine documents.  An emission that is called exact should have room for every
number of the source.

* `preserves_word_iff`, `preserves_decimal` : a word is always called exact, and a decimal type only when it
  has the digits of the source;
* `fits_signed_iff`, `fits_unsigned_iff`, `fits_digits_iff`, `fits_bignumeric_iff` : which types fit a range;
* `keeps_iff` : for which types an engine keeps every number, or finds the loss.
-/
import Akaal.ScaledRange
import Akaal.TypeEmission

open ScaledRange ScaledRange.Range

namespace TypeEmission

/-! ## Numbers -/

/-- The numbers of a source type: by precision and scale, or else by width and sign. -/
def CanonicalType.valueRange (c : CanonicalType) : Option Range :=
  match c.precision, c.bits with
  | some p, _ => some (digits p (c.scale.getD 0))
  | none, some b => some (if c.isSigned then signed b else unsigned b)
  | none, none => none

/-- The numbers of integer types. -/
def integerWords : List (String × Range) :=
  [("TINYINT", signed 8), ("BYTE", signed 8), ("SMALLINT", signed 16), ("SHORT", signed 16),
    ("INT", signed 32), ("INTEGER", signed 32), ("BIGINT", signed 64), ("LONG", signed 64)]

/-- The numbers of `BIGNUMERIC`: a width of 256, and 38 digits after the point. -/
def bignumeric : Range := ⟨-2 ^ 255, 2 ^ 255 - 1, 38⟩

/-- The numbers of the types an engine documents in its own way. -/
def ownWords : Engine → List (String × Range)
  | .postgresql => [("NUMERIC", digits (131072 + 16383) 16383)]
  | .mssql => [("TINYINT", unsigned 8)]
  | .sqlite => [("INTEGER", signed 64)]
  | .bigquery =>
    [("INT64", signed 64), ("NUMERIC", digits (29 + 9) 9), ("BIGNUMERIC", bignumeric)]
  | .clickhouse =>
    [("Int8", signed 8), ("UInt8", unsigned 8), ("Int16", signed 16), ("UInt16", unsigned 16),
      ("Int32", signed 32), ("UInt32", unsigned 32), ("Int64", signed 64), ("UInt64", unsigned 64)]
  | _ => []

/-- The numbers an engine documents for a type. -/
def documentedRange (e : Engine) : NativeType → Option Range
  | .word name => (ownWords e ++ integerWords).lookup name
  | .whole _ p => some (digits p 0)
  | .sized _ p s => some (digits p s)
  | .nullable native => documentedRange e native

/-- An emission that is called exact has room for every number of the source. -/
def Preserves (e : Engine) (c : CanonicalType) (em : TargetTypeEmission) : Prop :=
  em.safety = .exact → ∀ source, c.valueRange = some source →
    ∃ target, documentedRange e em.targetNativeType = some target ∧ source.Within target

/-! ## Which types are kept -/

/-- The widths that have an integer type of their own, or at most 32. -/
def FitsWidth (c : CanonicalType) (own : List ℕ) (b : ℕ) : Prop :=
  if c.isSigned then b ≤ 32 ∨ b = 64 else b ≤ 31 ∧ b ∉ own

/-- The digits of an integer type that is chosen by width. -/
def slotDigits : Option ℕ → ℕ
  | some 8 => 2
  | some 16 => 4
  | some 64 => 18
  | _ => 9

/-- The decimals that an engine keeps. -/
def KeepsDigits (e : Engine) (c : CanonicalType) (p s : ℕ) : Prop :=
  match e with
  | .postgresql =>
    if c.oracleUnconstrained then s ≤ 16383 ∧ p ≤ s + 131072
    else 0 < s ∨ (c.bits = some 16 → p ≤ 4) ∧ (c.bits = some 64 → p ≤ 18)
  | .oracle => True
  | .mysql => 0 < s ∨ p ≤ 18 ∧ (c.bits = some 8 → p ≤ 2) ∧ (c.bits = some 16 → p ≤ 4)
  | .mssql => 0 < s ∨ p ≤ 18 ∧ (c.bits = some 8 → p = 0) ∧ (c.bits = some 16 → p ≤ 4)
  | .db2 => 0 < s ∨ p ≤ if c.bits = some 8 then 9 else slotDigits c.bits
  | .sqlite => s = 0 ∧ p ≤ 18
  | .snowflake => c.scale = none → p ≤ 38
  | .bigquery =>
    (9 < s → s ≤ 38 ∧ p ≤ s + 38) ∧ (s ≤ 9 → 18 < p → p ≤ s + 29) ∧ (s ≤ 9 → p ≤ 18 → s = 0)
  | .redshift => 0 < s ∨ p ≤ 18 ∧ (c.bits = some 16 → p ≤ 4)
  | .databricks => 0 < s ∨ p ≤ slotDigits c.bits
  | .clickhouse => 0 < s ∨ if c.isSigned then p ≤ slotDigits c.bits else p = 0

/-- The widths that an engine keeps. -/
def KeepsWidth (e : Engine) (c : CanonicalType) (b : ℕ) : Prop :=
  match e with
  | .postgresql =>
    if c.oracleUnconstrained then
      if c.isSigned then (2 : ℤ) ^ b < 2 * 10 ^ 131072 else (2 : ℤ) ^ b ≤ 10 ^ 131072
    else FitsWidth c [16] b
  | .oracle | .snowflake => b ≤ if c.isSigned then 127 else 126
  | .mysql | .databricks => FitsWidth c [8, 16] b
  | .mssql => FitsWidth c [16] b ∧ (c.isSigned → b ≠ 8)
  | .db2 | .redshift => FitsWidth c [16] b
  | .sqlite => b ≤ if c.isSigned then 64 else 63
  | .bigquery =>
    if c.scale.any (9 < ·) then b ≤ if c.isSigned then 129 else 128
    else b ≤ if c.isSigned then 64 else 63
  | .clickhouse => b ≤ 32 ∨ b = 64

/-- The types that an engine keeps, or whose loss is always found. -/
def Keeps (e : Engine) (c : CanonicalType) : Prop :=
  c.oracleNegativeScale = false → (∀ p, c.precision = some p → KeepsDigits e c p (c.scale.getD 0)) ∧
      ∀ b, c.precision = none → c.bits = some b → KeepsWidth e c b

section Emissions

variable {c : CanonicalType} {e : Engine}

/-- The numbers of a type are in a range. -/
def CanonicalType.Fits (c : CanonicalType) (target : Range) : Prop :=
  ∀ source, c.valueRange = some source → source.Within target

variable {b k p s s' : ℕ} {em : TargetTypeEmission} {target : Range}

/-- **A word** is called exact, and has room when its range has. -/
theorem preserves_word_iff (hexact : em.safety = .exact)
    (hprecision : em.targetPrecision = none) (hscale : em.targetScale = none)
    (hrange : documentedRange e em.targetNativeType = some target)
    (hnegative : c.oracleNegativeScale = false) :
    Preserves e c (evaluateConversion c em) ↔ c.Fits target := by
  have hsafe : (evaluateConversion c em).safety = .exact := by
    rw [safety_evaluateConversion_eq_exact_iff, hprecision, hscale]
    refine ⟨hexact, ?_, ?_, hnegative⟩
    · cases c.precision <;> rfl
    · cases c.scale <;> rfl
  have hnative : documentedRange e (evaluateConversion c em).targetNativeType = some target := hrange
  rw [Preserves, hnative, forall_prop_of_true hsafe]
  simp only [Option.some.injEq, exists_eq_left', CanonicalType.Fits]

/-- **A decimal type** that is called exact has the digits of the source. -/
theorem preserves_decimal {p' : ℕ} (hp : c.precision = some p)
    (hs : c.scale.getD 0 = s) (hprecision : em.targetPrecision = some p')
    (hscale : em.targetScale = some s') (hp' : p' ≤ p) (hs' : s' ≤ s)
    (hrange : documentedRange e em.targetNativeType = some (digits p' s')) :
    Preserves e c (evaluateConversion c em) := by
  intro hexact source hsource
  rw [safety_evaluateConversion_eq_exact_iff, hprecision, hscale, hp] at hexact
  obtain ⟨-, hdigits, hplaces, -⟩ := hexact
  have hsame : p' = p := by
    have : ¬ p' < p := by simpa [insufficient] using hdigits
    omega
  have hsame' : s' = s := by
    cases hc : c.scale with
    | none =>
      rw [hc, Option.getD_none] at hs
      omega
    | some t =>
      rw [hc] at hs hplaces
      have : ¬ s' < t := by simpa [insufficient] using hplaces
      rw [Option.getD_some] at hs
      omega
  subst hsame hsame'
  refine ⟨_, hrange, ?_⟩
  rw [CanonicalType.valueRange, hp, hs] at hsource
  rw [← Option.some.inj hsource]
  exact fun _ hx => hx

/-- A type fits when its digits do, or else its bits. -/
theorem fits_iff :
    c.Fits target ↔ (∀ p, c.precision = some p → (digits p (c.scale.getD 0)).Within target) ∧
      ∀ b, c.precision = none → c.bits = some b → (if c.isSigned then signed b else unsigned b).Within target := by
  cases hp : c.precision with
  | some p => simp [CanonicalType.Fits, CanonicalType.valueRange, hp]
  | none => cases hb : c.bits <;> simp [CanonicalType.Fits, CanonicalType.valueRange, hp, hb]

/-- The scale is at most the precision, where both are known. -/
def CanonicalType.Scaled (c : CanonicalType) : Prop := ∀ p, c.precision = some p → c.scale.getD 0 ≤ p

/-- **Which types** fit a signed integer type. -/
theorem fits_signed_iff {t : ℕ} (hle : (10 : ℤ) ^ t ≤ 2 ^ k) (hlt : (2 : ℤ) ^ k < 10 ^ (t + 1))
    (hscaled : c.Scaled) :
    c.Fits (signed (k + 1)) ↔ (∀ p, c.precision = some p → c.scale.getD 0 = 0 ∧ p ≤ t) ∧
      ∀ b, c.precision = none → c.bits = some b → b ≤ if c.isSigned then k + 1 else k := by
  refine fits_iff.trans (and_congr (forall₂_congr fun p hp => ?_) (forall₃_congr fun b _ _ => ?_))
  · rcases Nat.eq_zero_or_pos (c.scale.getD 0) with hs | hs
    · rw [hs, digits_within_signed hle hlt, and_iff_right rfl]
    · have hpos : 1 ≤ p := hs.trans_le (hscaled p hp)
      exact iff_of_false (not_digits_within_integers hpos hs rfl) fun h => hs.ne' h.1
  · split_ifs
    · exact signed_within_signed (Nat.le_add_left 1 k)
    · exact unsigned_within_signed

/-- **Which types** fit an unsigned integer type. -/
theorem fits_unsigned_iff (hscaled : c.Scaled) :
    c.Fits (unsigned k) ↔ (∀ p, c.precision = some p → p = 0) ∧
      ∀ b, c.precision = none → c.bits = some b → if c.isSigned then b = 0 else b ≤ k := by
  refine fits_iff.trans (and_congr (forall₂_congr fun p hp => ?_) (forall₃_congr fun b _ _ => ?_))
  · rcases Nat.eq_zero_or_pos (c.scale.getD 0) with hs | hs
    · rw [hs, digits_within_unsigned]
    · have hpos : 1 ≤ p := hs.trans_le (hscaled p hp)
      exact iff_of_false (not_digits_within_integers hpos hs rfl) (Nat.ne_of_gt hpos)
  · split_ifs
    · exact signed_within_unsigned
    · exact unsigned_within_unsigned

theorem digits_within_iff {q : ℕ} (hs : s ≤ p) :
    (digits p s).Within (digits (q + s') s') ↔ s ≤ s' ∧ p ≤ s + q := by
  rcases Nat.eq_zero_or_pos p with rfl | hp
  · obtain rfl := Nat.le_zero.mp hs
    have hone : (1 : ℤ) ≤ 10 ^ (q + s') := one_le_pow₀ (by norm_num)
    refine iff_of_true (digits_zero_within ?_ ?_) ⟨Nat.zero_le _, Nat.zero_le _⟩ <;>
      simp only [digits] <;> linarith
  · by_cases hle : s ≤ s'
    · rw [digits_within_digits hp hle]
      omega
    · have hten : (10 : ℤ) ^ 1 ≤ 10 ^ p := pow_le_pow_right₀ (by norm_num) hp
      refine iff_of_false (not_within_of_scale_lt ?_ ?_ (not_le.mp hle)) fun h => hle h.1 <;>
        simp only [digits] <;> linarith

/-- **Which types** fit a decimal type. -/
theorem fits_digits_iff {q : ℕ} (hscaled : c.Scaled) : c.Fits (digits (q + s') s') ↔
      (∀ p, c.precision = some p → c.scale.getD 0 ≤ s' ∧ p ≤ c.scale.getD 0 + q) ∧
      ∀ b, c.precision = none → c.bits = some b →
        if c.isSigned then (2 : ℤ) ^ b < 2 * 10 ^ q else (2 : ℤ) ^ b ≤ 10 ^ q := by
  refine fits_iff.trans (and_congr (forall₂_congr fun p hp => digits_within_iff (hscaled p hp))
    (forall₃_congr fun b _ _ => ?_))
  split_ifs
  · have hone : (1 : ℤ) ≤ 10 ^ q := one_le_pow₀ (by norm_num)
    cases b with
    | zero =>
      have hone' : (1 : ℤ) ≤ 10 ^ (q + s') := one_le_pow₀ (by norm_num)
      refine iff_of_true (signed_zero_within ?_ ?_) (by rw [pow_zero]; linarith) <;>
        simp only [digits] <;> linarith
    | succ b =>
      rw [signed_within_digits, pow_succ, mul_comm, mul_lt_mul_iff_right₀ (by norm_num)]
  · exact unsigned_within_digits

theorem digits_within_bignumeric_iff (hs : s ≤ p) :
    (digits p s).Within bignumeric ↔ s ≤ 38 ∧ p ≤ s + 38 := by
  rcases Nat.eq_zero_or_pos p with rfl | hp
  · obtain rfl := Nat.le_zero.mp hs
    exact iff_of_true (digits_zero_within (by norm_num [bignumeric]) (by norm_num [bignumeric]))
      ⟨Nat.zero_le _, Nat.zero_le _⟩
  by_cases hle : s ≤ 38
  · obtain ⟨d, hd⟩ := Nat.exists_eq_add_of_le hle
    rw [within_iff hle (digits_lo_le_hi p s)]
    simp only [digits, bignumeric, and_iff_right hle]
    have hplaces : 38 - s = d := by omega
    have hexpand : ((10 : ℤ) ^ p - 1) * 10 ^ d = 10 ^ (p + d) - 10 ^ d := by rw [pow_add]; ring
    have hone : (1 : ℤ) ≤ 10 ^ d := one_le_pow₀ (by norm_num)
    rw [hplaces, neg_mul, hexpand]
    constructor
    · rintro ⟨-, hhi⟩
      by_contra hlt
      obtain ⟨n, hn⟩ : ∃ n, p + d = n + 1 := ⟨p + d - 1, by omega⟩
      have hsmall : (10 : ℤ) ^ d ≤ 10 ^ n := pow_le_pow_right₀ (by norm_num) (by omega)
      have hgreat : (10 : ℤ) ^ 76 ≤ 10 ^ n := pow_le_pow_right₀ (by norm_num) (by omega)
      have hbound : (2 : ℤ) ^ 255 ≤ 9 * 10 ^ 76 := by norm_num
      rw [hn, pow_succ] at hhi
      linarith
    · intro hle
      have hpow : (10 : ℤ) ^ (p + d) ≤ 10 ^ 76 := pow_le_pow_right₀ (by norm_num) (by omega)
      have hbound : (10 : ℤ) ^ 76 ≤ 2 ^ 255 := by norm_num
      constructor <;> linarith
  · have hten : (10 : ℤ) ^ 1 ≤ 10 ^ p := pow_le_pow_right₀ (by norm_num) hp
    refine iff_of_false (not_within_of_scale_lt ?_ ?_ (not_le.mp hle)) fun h => hle h.1 <;>
      simp only [digits] <;> linarith

theorem signed_within_bignumeric_iff : (signed b).Within bignumeric ↔ b ≤ 129 := by
  cases b with
  | zero =>
    exact iff_of_true (signed_zero_within (by norm_num [bignumeric]) (by norm_num [bignumeric]))
      (Nat.zero_le _)
  | succ b =>
    rw [within_iff (Nat.zero_le _) (signed_lo_le_hi _), Nat.succ_le_succ_iff]
    simp only [signed, bignumeric, Nat.sub_zero]
    constructor
    · rintro ⟨hlo, -⟩
      by_contra hlt
      have hgreat : (2 : ℤ) ^ 129 ≤ 2 ^ b := pow_le_pow_right₀ (by norm_num) (by omega)
      have hbound : (2 : ℤ) ^ 255 < 2 ^ 129 * 10 ^ 38 := by norm_num
      linarith [mul_le_mul_of_nonneg_right hgreat (by norm_num : (0 : ℤ) ≤ 10 ^ 38)]
    · intro hle
      have hpow : (2 : ℤ) ^ b ≤ 2 ^ 128 := pow_le_pow_right₀ (by norm_num) hle
      have hbound : (2 : ℤ) ^ 128 * 10 ^ 38 ≤ 2 ^ 255 := by norm_num
      have hless := mul_le_mul_of_nonneg_right hpow (by norm_num : (0 : ℤ) ≤ 10 ^ 38)
      constructor <;> linarith

theorem unsigned_within_bignumeric_iff : (unsigned b).Within bignumeric ↔ b ≤ 128 := by
  rw [within_iff (Nat.zero_le _) (unsigned_lo_le_hi b)]
  simp only [unsigned, bignumeric, Nat.sub_zero]
  constructor
  · rintro ⟨-, hhi⟩
    by_contra hlt
    have hgreat : (2 : ℤ) ^ 129 ≤ 2 ^ b := pow_le_pow_right₀ (by norm_num) (by omega)
    have hbound : (2 : ℤ) ^ 255 < (2 ^ 129 - 1) * 10 ^ 38 := by norm_num
    linarith [mul_le_mul_of_nonneg_right hgreat (by norm_num : (0 : ℤ) ≤ 10 ^ 38)]
  · intro hle
    have hpow : (2 : ℤ) ^ b ≤ 2 ^ 128 := pow_le_pow_right₀ (by norm_num) hle
    have hbound : (2 : ℤ) ^ 128 * 10 ^ 38 ≤ 2 ^ 255 := by norm_num
    have hless := mul_le_mul_of_nonneg_right hpow (by norm_num : (0 : ℤ) ≤ 10 ^ 38)
    constructor <;> linarith

/-- **Which types** fit `BIGNUMERIC`. -/
theorem fits_bignumeric_iff (hscaled : c.Scaled) : c.Fits bignumeric ↔
      (∀ p, c.precision = some p → c.scale.getD 0 ≤ 38 ∧ p ≤ c.scale.getD 0 + 38) ∧
      ∀ b, c.precision = none → c.bits = some b → b ≤ if c.isSigned then 129 else 128 := by
  refine fits_iff.trans (and_congr (forall₂_congr fun p hp => digits_within_bignumeric_iff (hscaled p hp))
    (forall₃_congr fun b _ _ => ?_))
  split_ifs
  · exact signed_within_bignumeric_iff
  · exact unsigned_within_bignumeric_iff

/-! ## The engines -/

theorem fraction?_eq_some (h : c.fraction? = some (p, s)) :
    c.precision = some p ∧ c.scale = some s ∧ 0 < s := by
  rw [CanonicalType.fraction?] at h
  split at h
  · split_ifs at h with hs
    cases h
    exact ⟨‹_›, ‹_›, hs⟩
  · exact absurd h (by simp)

theorem fraction?_eq_none (h : c.fraction? = none) (hp : c.precision = some p) :
    c.scale.getD 0 = 0 := by
  rw [CanonicalType.fraction?, hp] at h
  cases hs : c.scale with
  | none => rfl
  | some s =>
    rw [hs] at h
    simpa using h

/-- The condition of an engine for a type. -/
def KeepsAll (e : Engine) (c : CanonicalType) : Prop :=
  (∀ p, c.precision = some p → KeepsDigits e c p (c.scale.getD 0)) ∧
    ∀ b, c.precision = none → c.bits = some b → KeepsWidth e c b

theorem keepsAll_of_precision (hp : c.precision = some p)
    (h : KeepsDigits e c p (c.scale.getD 0)) : KeepsAll e c := by
  constructor
  · intro p' hp'
    rw [hp] at hp'
    rwa [← Option.some.inj hp']
  · intro b hnone
    rw [hp] at hnone
    exact absurd hnone (by simp)

/-- **A decimal type** for digits after the point keeps what it is called exact for. -/
theorem preserves_fraction_iff {p' : ℕ}
    (hfraction : c.fraction? = some (p, s)) (hprecision : em.targetPrecision = some p')
    (hscale : em.targetScale = some s') (hp' : p' ≤ p) (hs' : s' ≤ s)
    (hrange : documentedRange e em.targetNativeType = some (digits p' s'))
    (hkeeps : 0 < s → KeepsDigits e c p s) :
    Preserves e c (evaluateConversion c em) ↔ KeepsAll e c := by
  obtain ⟨hp, hs, hpos⟩ := fraction?_eq_some hfraction
  refine iff_of_true (preserves_decimal hp (by rw [hs, Option.getD_some]) hprecision hscale hp' hs'
    hrange) (keepsAll_of_precision hp ?_)
  rw [hs, Option.getD_some]
  exact hkeeps hpos

theorem slotDigits_of_ne (h8 : c.bits ≠ some 8) (h16 : c.bits ≠ some 16) (h64 : c.bits ≠ some 64) :
    slotDigits c.bits = 9 := by
  rw [slotDigits]
  · exact h8
  · exact h16
  · exact h64

/-- The numbers of a type have at most some digits, or widths. -/
def AtMost (c : CanonicalType) (digits signedWidth unsignedWidth : ℕ) : Prop :=
  (∀ p, c.precision = some p → c.scale.getD 0 = 0 ∧ p ≤ digits) ∧
    ∀ b, c.precision = none → c.bits = some b → b ≤ if c.isSigned then signedWidth else unsignedWidth

attribute [local grind =] AtMost KeepsAll KeepsDigits KeepsWidth FitsWidth slotDigits CanonicalType.precisionOver

variable (hnegative : c.oracleNegativeScale = false) (hscaled : c.Scaled) {engine name : String}
include hnegative hscaled

theorem preserves_signed8_iff (hrange : documentedRange e (.word name) = some (signed 8)) :
    Preserves e c (evaluateConversion c (wordType engine name)) ↔ AtMost c 2 8 7 :=
  (preserves_word_iff rfl rfl rfl hrange hnegative).trans
    (fits_signed_iff (by norm_num) (by norm_num) hscaled)

theorem preserves_signed16_iff (hrange : documentedRange e (.word name) = some (signed 16)) :
    Preserves e c (evaluateConversion c (wordType engine name)) ↔ AtMost c 4 16 15 :=
  (preserves_word_iff rfl rfl rfl hrange hnegative).trans
    (fits_signed_iff (by norm_num) (by norm_num) hscaled)

theorem preserves_signed32_iff (hrange : documentedRange e (.word name) = some (signed 32)) :
    Preserves e c (evaluateConversion c (wordType engine name)) ↔ AtMost c 9 32 31 :=
  (preserves_word_iff rfl rfl rfl hrange hnegative).trans
    (fits_signed_iff (by norm_num) (by norm_num) hscaled)

theorem preserves_signed64_iff (hrange : documentedRange e (.word name) = some (signed 64)) :
    Preserves e c (evaluateConversion c (wordType engine name)) ↔ AtMost c 18 64 63 :=
  (preserves_word_iff rfl rfl rfl hrange hnegative).trans
    (fits_signed_iff (by norm_num) (by norm_num) hscaled)

theorem preserves_db2_iff :
    Preserves .db2 c (evaluateConversion c (emitDb2 c)) ↔ KeepsAll .db2 c := by
  rw [emitDb2]
  cases hfraction : c.fraction? with
  | some digits =>
    exact preserves_fraction_iff hfraction rfl rfl (min_le_left _ _) (min_le_left _ _) rfl
      Or.inl
  | none =>
    have hzero := fun p (hp : c.precision = some p) => fraction?_eq_none hfraction hp
    simp only
    split_ifs with h16 h64
    · rw [preserves_signed16_iff hnegative hscaled rfl]
      grind
    · rw [preserves_signed64_iff hnegative hscaled rfl]
      grind
    · rw [preserves_signed32_iff hnegative hscaled rfl]
      have hslot : (if c.bits = some 8 then 9 else slotDigits c.bits) = 9 := by
        split_ifs with h8
        · rfl
        · exact slotDigits_of_ne h8 h16 h64
      grind

theorem preserves_redshift_iff :
    Preserves .redshift c (evaluateConversion c (emitRedshift c)) ↔ KeepsAll .redshift c := by
  rw [emitRedshift]
  cases hfraction : c.fraction? with
  | some digits =>
    exact preserves_fraction_iff hfraction rfl rfl (min_le_left _ _) (min_le_left _ _) rfl
      Or.inl
  | none =>
    have hzero := fun p (hp : c.precision = some p) => fraction?_eq_none hfraction hp
    simp only
    split_ifs with h16 h64
    · rw [preserves_signed16_iff hnegative hscaled rfl]
      grind
    · rw [preserves_signed64_iff hnegative hscaled rfl]
      grind
    · rw [preserves_signed32_iff hnegative hscaled rfl]
      grind

theorem preserves_mysql_iff :
    Preserves .mysql c (evaluateConversion c (emitMysql c)) ↔ KeepsAll .mysql c := by
  rw [emitMysql]
  cases hfraction : c.fraction? with
  | some digits =>
    exact preserves_fraction_iff hfraction rfl rfl (min_le_left _ _) (min_le_left _ _) rfl
      Or.inl
  | none =>
    have hzero := fun p (hp : c.precision = some p) => fraction?_eq_none hfraction hp
    simp only
    split_ifs with h8 h16 h64
    · rw [preserves_signed8_iff hnegative hscaled rfl]
      grind
    · rw [preserves_signed16_iff hnegative hscaled rfl]
      grind
    · rw [preserves_signed64_iff hnegative hscaled rfl]
      grind
    · rw [preserves_signed32_iff hnegative hscaled rfl]
      grind

theorem preserves_mssql_iff :
    Preserves .mssql c (evaluateConversion c (emitMssql c)) ↔ KeepsAll .mssql c := by
  rw [emitMssql]
  cases hfraction : c.fraction? with
  | some digits =>
    exact preserves_fraction_iff hfraction rfl rfl (min_le_left _ _) (min_le_left _ _) rfl
      Or.inl
  | none =>
    have hzero := fun p (hp : c.precision = some p) => fraction?_eq_none hfraction hp
    simp only
    split_ifs with h8 h16 h64
    · rw [preserves_word_iff rfl rfl rfl (show documentedRange .mssql (.word "TINYINT") =
        some (unsigned 8) from rfl) hnegative, fits_unsigned_iff hscaled]
      grind
    · rw [preserves_signed16_iff hnegative hscaled rfl]
      grind
    · rw [preserves_signed64_iff hnegative hscaled rfl]
      grind
    · rw [preserves_signed32_iff hnegative hscaled rfl]
      grind

theorem preserves_postgresql_iff :
    Preserves .postgresql c (evaluateConversion c (emitPostgresql c)) ↔ KeepsAll .postgresql c := by
  rw [emitPostgresql]
  by_cases hunconstrained : c.oracleUnconstrained = true
  · rw [if_pos hunconstrained, preserves_word_iff rfl rfl rfl
      (show documentedRange .postgresql (.word "NUMERIC") = some (digits (131072 + 16383) 16383) from
        rfl) hnegative, fits_digits_iff hscaled]
    simp only [KeepsAll, KeepsDigits, KeepsWidth, hunconstrained, if_true]
  rw [if_neg hunconstrained]
  cases hfraction : c.fraction? with
  | some digits =>
    refine preserves_fraction_iff hfraction rfl rfl (min_le_left _ _) (min_le_left _ _) rfl ?_
    rw [KeepsDigits, if_neg hunconstrained]
    exact Or.inl
  | none =>
    have hzero := fun p (hp : c.precision = some p) => fraction?_eq_none hfraction hp
    simp only
    split_ifs with h16 h64 h18 h9
    · rw [preserves_signed16_iff hnegative hscaled rfl]
      grind
    · rw [preserves_signed64_iff hnegative hscaled rfl]
      grind
    · cases hp : c.precision with
      | none => exact absurd h18 (by simp [CanonicalType.precisionOver, hp])
      | some p =>
        refine iff_of_true (preserves_decimal hp (hzero p hp) rfl rfl (min_le_left _ _)
          (le_refl _) rfl) (keepsAll_of_precision hp ?_)
        rw [KeepsDigits, if_neg hunconstrained]
        exact Or.inr ⟨fun h => absurd h h16, fun h => absurd h h64⟩
    · rw [preserves_signed64_iff hnegative hscaled rfl]
      grind
    · rw [preserves_signed32_iff hnegative hscaled rfl]
      grind

omit hnegative in
theorem fits_digits38_iff :
    c.Fits (digits 38 0) ↔ (∀ p, c.precision = some p → c.scale.getD 0 = 0 ∧ p ≤ 38) ∧
      ∀ b, c.precision = none → c.bits = some b → b ≤ if c.isSigned then 127 else 126 := by
  rw [show digits 38 0 = digits (38 + 0) 0 from rfl, fits_digits_iff hscaled]
  refine and_congr (forall₂_congr fun p _ => by omega) (forall₃_congr fun b _ _ => ?_)
  split_ifs
  · rw [← Int.le_sub_one_iff]
    exact pow_le_iff (b := 2) (by norm_num) (by norm_num) (by norm_num)
  · exact pow_le_iff (b := 2) (by norm_num) (by norm_num) (by norm_num)

theorem preserves_oracle_iff :
    Preserves .oracle c (evaluateConversion c (emitOracle c)) ↔ KeepsAll .oracle c := by
  rw [emitOracle]
  cases hp : c.precision with
  | some p =>
    refine iff_of_true ?_ (keepsAll_of_precision hp trivial)
    cases hs : c.scale with
    | some s =>
      exact preserves_decimal hp (by rw [hs, Option.getD_some]) rfl rfl (min_le_left _ _)
        (min_le_left _ _) rfl
    | none =>
      exact preserves_decimal hp (by rw [hs, Option.getD_none]) rfl rfl (min_le_left _ _)
        (le_refl _) rfl
  | none =>
    have hkeeps : KeepsAll .oracle c ↔
        ∀ b, c.bits = some b → b ≤ if c.isSigned then 127 else 126 := by
      simp [KeepsAll, KeepsWidth, hp]
    simp only
    rw [preserves_word_iff rfl rfl rfl (show documentedRange .oracle (.whole "NUMBER" 38) =
      some (digits 38 0) from rfl) hnegative, fits_digits38_iff hscaled, hkeeps]
    simp [hp]

theorem preserves_snowflake_iff :
    Preserves .snowflake c (evaluateConversion c (emitSnowflake c)) ↔ KeepsAll .snowflake c := by
  rw [emitSnowflake]
  split
  · next p s hp hs =>
      refine iff_of_true (preserves_decimal hp (by rw [hs, Option.getD_some]) rfl rfl
        (min_le_left _ _) (min_le_left _ _) rfl) (keepsAll_of_precision hp ?_)
      exact fun hnone => absurd (hs.symm.trans hnone) (by simp)
  · next hnone =>
      rw [preserves_word_iff rfl rfl rfl (show documentedRange .snowflake (.sized "NUMBER" 38 0) =
        some (digits 38 0) from rfl) hnegative, fits_digits38_iff hscaled]
      refine and_congr (forall₂_congr fun p hp => ?_) Iff.rfl
      have hscale : c.scale = none := by
        cases hs : c.scale with
        | none => rfl
        | some s => exact absurd hs (hnone p s hp)
      simp only [KeepsDigits, hscale, Option.getD_none, true_and, true_implies]

theorem preserves_sqlite_iff :
    Preserves .sqlite c (evaluateConversion c (emitSqlite c)) ↔ KeepsAll .sqlite c :=
  preserves_signed64_iff hnegative hscaled rfl

theorem preserves_databricks_iff :
    Preserves .databricks c (evaluateConversion c (emitDatabricks c)) ↔ KeepsAll .databricks c := by
  rw [emitDatabricks]
  cases hfraction : c.fraction? with
  | some digits =>
    exact preserves_fraction_iff hfraction rfl rfl (min_le_left _ _) (min_le_left _ _) rfl
      Or.inl
  | none =>
    have hzero := fun p (hp : c.precision = some p) => fraction?_eq_none hfraction hp
    simp only
    split_ifs with h8 h16 h64
    · rw [preserves_signed8_iff hnegative hscaled rfl]
      grind
    · rw [preserves_signed16_iff hnegative hscaled rfl]
      grind
    · rw [preserves_signed64_iff hnegative hscaled rfl]
      grind
    · rw [preserves_signed32_iff hnegative hscaled rfl]
      grind

theorem preserves_bigquery_iff :
    Preserves .bigquery c (evaluateConversion c (emitBigquery c)) ↔ KeepsAll .bigquery c := by
  rw [emitBigquery]
  have hscale : c.scale.any (9 < ·) = true ↔ 9 < c.scale.getD 0 := by
    cases c.scale <;> simp
  split_ifs with hfine h18
  · rw [preserves_word_iff rfl rfl rfl (show documentedRange .bigquery (.word "BIGNUMERIC") =
      some bignumeric from rfl) hnegative, fits_bignumeric_iff hscaled]
    refine and_congr (forall₂_congr fun p _ => ?_) (forall₃_congr fun b _ _ => ?_)
    · have hgreater := hscale.mp hfine
      simp only [KeepsDigits]
      omega
    · rw [KeepsWidth, if_pos hfine]
  · have hle : ¬ 9 < c.scale.getD 0 := fun h => hfine (hscale.mpr h)
    cases hp : c.precision with
    | none => exact absurd h18 (by simp [CanonicalType.precisionOver, hp])
    | some p =>
      have hover : 18 < p := by simpa [CanonicalType.precisionOver, hp] using h18
      rw [preserves_word_iff rfl rfl rfl (show documentedRange .bigquery (.word "NUMERIC") =
        some (digits (29 + 9) 9) from rfl) hnegative, fits_digits_iff hscaled]
      simp only [KeepsAll, hp, Option.some.injEq, forall_eq', reduceCtorEq, false_implies,
        implies_true, and_true, KeepsDigits]
      omega
  · have hle : ¬ 9 < c.scale.getD 0 := fun h => hfine (hscale.mpr h)
    rw [preserves_signed64_iff hnegative hscaled rfl]
    refine and_congr (forall₂_congr fun p hp => ?_) (forall₃_congr fun b _ _ => ?_)
    · have hover : ¬ 18 < p := by simpa [CanonicalType.precisionOver, hp] using h18
      simp only [KeepsDigits]
      omega
    · rw [KeepsWidth, if_neg hfine]

omit hnegative hscaled in
theorem documentedRange_wrap (native : NativeType) :
    documentedRange e (wrap c native) = documentedRange e native := by
  rw [wrap]
  split_ifs
  · rfl
  · rfl

omit hnegative in
/-- Integers of a width, signed or not as the type is. -/
theorem fits_ofSign_iff {t : ℕ} (hle : (10 : ℤ) ^ t ≤ 2 ^ k) (hlt : (2 : ℤ) ^ k < 10 ^ (t + 1)) :
    c.Fits (if c.isSigned then signed (k + 1) else unsigned (k + 1)) ↔
      (∀ p, c.precision = some p → if c.isSigned then c.scale.getD 0 = 0 ∧ p ≤ t else p = 0) ∧
      ∀ b, c.precision = none → c.bits = some b → b ≤ k + 1 := by
  cases hsigned : c.isSigned with
  | true =>
    simp only [if_true]
    rw [fits_signed_iff hle hlt hscaled]
    simp only [hsigned, if_true]
  | false =>
    simp only [Bool.false_eq_true, if_false]
    rw [fits_unsigned_iff hscaled]
    simp only [hsigned, Bool.false_eq_true, if_false]

omit hscaled in
/-- A word of ClickHouse, nullable or not, has the numbers of its width and sign. -/
theorem preserves_clickhouseWord_iff {signedName unsignedName : String}
    (hsigned : documentedRange .clickhouse (.word signedName) = some (signed k))
    (hunsigned : documentedRange .clickhouse (.word unsignedName) = some (unsigned k)) :
    Preserves .clickhouse c (evaluateConversion c (clickhouseWord c signedName unsignedName)) ↔
      c.Fits (if c.isSigned then signed k else unsigned k) := by
  refine preserves_word_iff rfl rfl rfl ?_ hnegative
  rw [clickhouseWord, documentedRange_wrap]
  split_ifs
  · exact hsigned
  · exact hunsigned

theorem preserves_clickhouse_iff :
    Preserves .clickhouse c (evaluateConversion c (emitClickhouse c)) ↔ KeepsAll .clickhouse c := by
  rw [emitClickhouse]
  cases hfraction : c.fraction? with
  | some digits =>
    exact preserves_fraction_iff hfraction rfl rfl (min_le_left _ _) (min_le_left _ _)
      ((documentedRange_wrap _).trans rfl) Or.inl
  | none =>
    have hzero := fun p (hp : c.precision = some p) => fraction?_eq_none hfraction hp
    simp only
    split_ifs with h8 h16 h64
    · rw [preserves_clickhouseWord_iff hnegative rfl rfl,
        fits_ofSign_iff hscaled (t := 2) (by norm_num) (by norm_num)]
      grind
    · rw [preserves_clickhouseWord_iff hnegative rfl rfl,
        fits_ofSign_iff hscaled (t := 4) (by norm_num) (by norm_num)]
      grind
    · rw [preserves_clickhouseWord_iff hnegative rfl rfl,
        fits_ofSign_iff hscaled (t := 18) (by norm_num) (by norm_num)]
      grind
    · rw [preserves_clickhouseWord_iff hnegative rfl rfl,
        fits_ofSign_iff hscaled (t := 9) (by norm_num) (by norm_num)]
      grind

omit hnegative in
/-- **Which types are kept** by an engine, or their loss found. -/
theorem keeps_iff : Preserves e c (evaluateConversion c (e.emit c)) ↔ Keeps e c := by
  cases hnegative : c.oracleNegativeScale with
  | true =>
    refine iff_of_true (fun hexact => ?_) fun h => absurd (hnegative.symm.trans h) (by decide)
    have hfalse := (safety_evaluateConversion_eq_exact_iff.mp hexact).2.2.2
    exact absurd (hnegative.symm.trans hfalse) (by decide)
  | false =>
    rw [Keeps, forall_prop_of_true hnegative]
    cases e with
    | postgresql => exact preserves_postgresql_iff hnegative hscaled
    | oracle => exact preserves_oracle_iff hnegative hscaled
    | mysql => exact preserves_mysql_iff hnegative hscaled
    | mssql => exact preserves_mssql_iff hnegative hscaled
    | db2 => exact preserves_db2_iff hnegative hscaled
    | sqlite => exact preserves_sqlite_iff hnegative hscaled
    | snowflake => exact preserves_snowflake_iff hnegative hscaled
    | bigquery => exact preserves_bigquery_iff hnegative hscaled
    | redshift => exact preserves_redshift_iff hnegative hscaled
    | databricks => exact preserves_databricks_iff hnegative hscaled
    | clickhouse => exact preserves_clickhouse_iff hnegative hscaled

end Emissions

end TypeEmission
