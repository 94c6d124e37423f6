/-
# Ranges of scaled integers

A range has the numbers that are an integer between two bounds, divided by a power of ten: decimals of a
precision and a scale, and integers of a width, signed or not.

* `within_iff` : when the numbers of a range are among those of a finer one;
* `digits_within_digits`, `digits_within_signed`, `signed_within_signed` and the like : the same for
  decimals and for widths, as an inequality.
-/
import Mathlib

namespace ScaledRange

/-- The integers between two bounds, divided by a power of ten. -/
structure Range where
  lo : ℤ
  hi : ℤ
  scale : ℕ
  deriving DecidableEq

namespace Range

/-- A number is in a range. -/
def Represents (r : Range) (x : ℚ) : Prop := ∃ n : ℤ, r.lo ≤ n ∧ n ≤ r.hi ∧ x = n / 10 ^ r.scale

/-- The numbers of a range are in another one. -/
def Within (r r' : Range) : Prop := ∀ x, r.Represents x → r'.Represents x

/-- The decimals of a precision and a scale. -/
def digits (precision scale : ℕ) : Range := ⟨-(10 ^ precision - 1), 10 ^ precision - 1, scale⟩

/-- The integers of a width, in two's complement. -/
def signed : ℕ → Range
  | 0 => ⟨0, 0, 0⟩
  | width + 1 => ⟨-2 ^ width, 2 ^ width - 1, 0⟩

/-- The natural numbers of a width. -/
def unsigned (width : ℕ) : Range := ⟨0, 2 ^ width - 1, 0⟩

/-! ## Inclusion -/

variable {b k p s : ℕ} {r : Range}

/-- **A range is in a finer one** when its bounds are. -/
theorem within_iff {r' : Range} (hscale : r.scale ≤ r'.scale) (hne : r.lo ≤ r.hi) :
    r.Within r' ↔ r'.lo ≤ r.lo * 10 ^ (r'.scale - r.scale) ∧
      r.hi * 10 ^ (r'.scale - r.scale) ≤ r'.hi := by
  have hpow : (10 : ℚ) ^ r'.scale = 10 ^ (r'.scale - r.scale) * 10 ^ r.scale := by
    rw [← pow_add, Nat.sub_add_cancel hscale]
  -- the same number in the finer range
  have hsame : ∀ n m : ℤ, (n : ℚ) / 10 ^ r.scale = m / 10 ^ r'.scale ↔
      m = n * 10 ^ (r'.scale - r.scale) := by
    intro n m
    rw [div_eq_div_iff (by positivity) (by positivity), hpow, ← mul_assoc,
      mul_left_inj' (by positivity)]
    constructor
    · intro h
      exact_mod_cast h.symm
    · intro h
      rw [h]
      push_cast
      rfl
  have hrepresents : ∀ n : ℤ, r'.Represents (n / 10 ^ r.scale) ↔
      r'.lo ≤ n * 10 ^ (r'.scale - r.scale) ∧ n * 10 ^ (r'.scale - r.scale) ≤ r'.hi := by
    intro n
    constructor
    · rintro ⟨m, hlo, hhi, hm⟩
      rw [(hsame n m).mp hm] at hlo hhi
      exact ⟨hlo, hhi⟩
    · rintro ⟨hlo, hhi⟩
      exact ⟨_, hlo, hhi, (hsame n _).mpr rfl⟩
  constructor
  · intro h
    exact ⟨((hrepresents r.lo).mp (h _ ⟨r.lo, le_refl _, hne, rfl⟩)).1,
      ((hrepresents r.hi).mp (h _ ⟨r.hi, hne, le_refl _, rfl⟩)).2⟩
  · rintro ⟨hlo, hhi⟩ x ⟨n, hn, hn', rfl⟩
    have hpos : (0 : ℤ) ≤ 10 ^ (r'.scale - r.scale) := by positivity
    exact (hrepresents n).mpr ⟨hlo.trans (mul_le_mul_of_nonneg_right hn hpos),
      (mul_le_mul_of_nonneg_right hn' hpos).trans hhi⟩

theorem not_within_of_scale_lt {r' : Range} (hlo : r.lo ≤ 1) (hhi : 1 ≤ r.hi)
    (hscale : r'.scale < r.scale) : ¬ r.Within r' := by
  intro h
  obtain ⟨m, -, -, hm⟩ := h (1 / 10 ^ r.scale) ⟨1, hlo, hhi, by push_cast; rfl⟩
  have hpow : (10 : ℚ) ^ r.scale = 10 ^ (r.scale - r'.scale) * 10 ^ r'.scale := by
    rw [← pow_add, Nat.sub_add_cancel hscale.le]
  rw [div_eq_div_iff (by positivity) (by positivity), hpow, ← mul_assoc, one_mul] at hm
  have hunit : (1 : ℚ) = m * 10 ^ (r.scale - r'.scale) :=
    mul_right_cancel₀ (b := (10 : ℚ) ^ r'.scale) (by positivity) (by rw [one_mul]; exact hm)
  have hdvd : (10 : ℤ) ∣ 1 := by
    have hint : (1 : ℤ) = m * 10 ^ (r.scale - r'.scale) := by exact_mod_cast hunit
    rw [hint]
    exact Dvd.dvd.mul_left (dvd_pow_self 10 (Nat.sub_ne_zero_of_lt hscale)) m
  norm_num at hdvd

/-! ## Powers -/

theorem pow_le_iff {t : ℕ} (hb : 1 < b) {n : ℤ} (hle : (b : ℤ) ^ t ≤ n) (hlt : n < (b : ℤ) ^ (t + 1)) :
    (b : ℤ) ^ p ≤ n ↔ p ≤ t := by
  have hbase : (1 : ℤ) < b := by exact_mod_cast hb
  constructor
  · intro h
    have hpow := lt_of_le_of_lt h hlt
    exact Nat.lt_succ_iff.mp ((pow_lt_pow_iff_right₀ hbase).mp hpow)
  · exact fun h => (pow_le_pow_right₀ hbase.le h).trans hle

theorem digits_lo_le_hi (p s : ℕ) : (digits p s).lo ≤ (digits p s).hi := by
  have : (1 : ℤ) ≤ 10 ^ p := one_le_pow₀ (by norm_num)
  simp only [digits]
  linarith

theorem signed_lo_le_hi (b : ℕ) : (signed b).lo ≤ (signed b).hi := by
  cases b with
  | zero => exact le_refl _
  | succ b =>
    have : (1 : ℤ) ≤ 2 ^ b := one_le_pow₀ (by norm_num)
    simp only [signed]
    linarith

theorem unsigned_lo_le_hi (b : ℕ) : (unsigned b).lo ≤ (unsigned b).hi := by
  have : (1 : ℤ) ≤ 2 ^ b := one_le_pow₀ (by norm_num)
  simp only [unsigned]
  linarith

/-! ## Decimals -/

/-- **Decimals in decimals** of a greater scale: there must be as many digits before the point. -/
theorem digits_within_digits {p' s' : ℕ} (hp : 1 ≤ p) (hs : s ≤ s') :
    (digits p s).Within (digits p' s') ↔ p + (s' - s) ≤ p' := by
  rw [within_iff hs (digits_lo_le_hi p s)]
  simp only [digits]
  obtain ⟨d, rfl⟩ := Nat.exists_eq_add_of_le hs
  rw [Nat.add_sub_cancel_left]
  have hone : (1 : ℤ) ≤ 10 ^ d := one_le_pow₀ (by norm_num)
  have hexpand : ((10 : ℤ) ^ p - 1) * 10 ^ d = 10 ^ (p + d) - 10 ^ d := by rw [pow_add]; ring
  constructor
  · rintro ⟨-, hhi⟩
    by_contra hlt
    rw [not_le] at hlt
    rw [hexpand] at hhi
    obtain ⟨q, hq⟩ : ∃ q, p + d = q + 1 := ⟨p + d - 1, by omega⟩
    have hfirst : (10 : ℤ) ^ p' ≤ 10 ^ q := pow_le_pow_right₀ (by norm_num) (by omega)
    have hsecond : (10 : ℤ) ^ d ≤ 10 ^ q := pow_le_pow_right₀ (by norm_num) (by omega)
    rw [hq, pow_succ] at hhi
    have : (1 : ℤ) ≤ 10 ^ q := one_le_pow₀ (by norm_num)
    linarith
  · intro hle
    have hpow : (10 : ℤ) ^ (p + d) ≤ 10 ^ p' := pow_le_pow_right₀ (by norm_num) hle
    constructor
    · rw [neg_mul, hexpand]
      linarith
    · rw [hexpand]
      linarith

theorem digits_zero_within (hlo : r.lo ≤ 0) (hhi : 0 ≤ r.hi) : (digits 0 0).Within r := by
  rw [within_iff (Nat.zero_le _) (digits_lo_le_hi 0 0)]
  simpa [digits] using ⟨hlo, hhi⟩

/-- **Whole decimals in signed integers.** -/
theorem digits_within_signed {t : ℕ} (hle : (10 : ℤ) ^ t ≤ 2 ^ k) (hlt : (2 : ℤ) ^ k < 10 ^ (t + 1)) :
    (digits p 0).Within (signed (k + 1)) ↔ p ≤ t := by
  rw [within_iff (Nat.zero_le _) (digits_lo_le_hi p 0), ← pow_le_iff (b := 10) (by norm_num) hle hlt]
  simp only [digits, signed, Nat.sub_self, pow_zero, mul_one, Nat.cast_ofNat]
  constructor
  · rintro ⟨-, hhi⟩
    linarith
  · intro h
    constructor <;> linarith

theorem digits_within_unsigned : (digits p 0).Within (unsigned k) ↔ p = 0 := by
  have hone : (1 : ℤ) ≤ 2 ^ k := one_le_pow₀ (by norm_num)
  rw [within_iff (Nat.zero_le _) (digits_lo_le_hi p 0)]
  simp only [digits, unsigned, Nat.sub_self, pow_zero, mul_one]
  constructor
  · rintro ⟨hlo, -⟩
    by_contra hp
    have : (10 : ℤ) ^ 1 ≤ 10 ^ p := pow_le_pow_right₀ (by norm_num) (Nat.pos_of_ne_zero hp)
    linarith
  · rintro rfl
    constructor <;> linarith

theorem not_digits_within_integers (hp : 1 ≤ p) (hs : 0 < s) (hr : r.scale = 0) :
    ¬ (digits p s).Within r := by
  have hpow : (10 : ℤ) ^ 1 ≤ 10 ^ p := pow_le_pow_right₀ (by norm_num) hp
  refine not_within_of_scale_lt ?_ ?_ (hr ▸ hs) <;> simp only [digits] <;> linarith

/-! ## Widths -/

theorem signed_zero_within (hlo : r.lo ≤ 0) (hhi : 0 ≤ r.hi) : (signed 0).Within r := by
  rw [within_iff (Nat.zero_le _) (signed_lo_le_hi 0)]
  simpa [signed] using ⟨hlo, hhi⟩

/-- **Signed integers in signed integers.** -/
theorem signed_within_signed (hk : 1 ≤ k) : (signed b).Within (signed k) ↔ b ≤ k := by
  obtain ⟨k, rfl⟩ := Nat.exists_eq_add_of_le' hk
  have hone : (1 : ℤ) ≤ 2 ^ k := one_le_pow₀ (by norm_num)
  cases b with
  | zero =>
    refine iff_of_true (signed_zero_within ?_ ?_) (Nat.zero_le _) <;> simp only [signed] <;> linarith
  | succ b =>
    rw [within_iff (Nat.zero_le _) (signed_lo_le_hi _), Nat.succ_le_succ_iff]
    simp only [signed, Nat.sub_self, pow_zero, mul_one]
    rw [← pow_le_pow_iff_right₀ (a := (2 : ℤ)) (by norm_num)]
    constructor
    · rintro ⟨-, hhi⟩
      linarith
    · intro h
      constructor <;> linarith

/-- **Unsigned integers in signed integers.** -/
theorem unsigned_within_signed : (unsigned b).Within (signed (k + 1)) ↔ b ≤ k := by
  rw [within_iff (Nat.zero_le _) (unsigned_lo_le_hi b)]
  simp only [unsigned, signed, Nat.sub_self, pow_zero, mul_one]
  rw [← pow_le_pow_iff_right₀ (a := (2 : ℤ)) (by norm_num)]
  have hone : (1 : ℤ) ≤ 2 ^ k := one_le_pow₀ (by norm_num)
  constructor
  · rintro ⟨-, hhi⟩
    linarith
  · intro h
    constructor <;> linarith

theorem signed_within_unsigned : (signed b).Within (unsigned k) ↔ b = 0 := by
  have hone : (1 : ℤ) ≤ 2 ^ k := one_le_pow₀ (by norm_num)
  cases b with
  | zero =>
    refine iff_of_true (signed_zero_within ?_ ?_) rfl <;> simp only [unsigned] <;> linarith
  | succ b =>
    refine iff_of_false ?_ (Nat.succ_ne_zero b)
    rw [within_iff (Nat.zero_le _) (signed_lo_le_hi _)]
    rintro ⟨hlo, -⟩
    have : (1 : ℤ) ≤ 2 ^ b := one_le_pow₀ (by norm_num)
    simp only [signed, unsigned, Nat.sub_self, pow_zero, mul_one] at hlo
    linarith

/-- **Unsigned integers in unsigned integers.** -/
theorem unsigned_within_unsigned : (unsigned b).Within (unsigned k) ↔ b ≤ k := by
  rw [within_iff (Nat.zero_le _) (unsigned_lo_le_hi b)]
  simp only [unsigned, Nat.sub_self, pow_zero, mul_one]
  rw [← pow_le_pow_iff_right₀ (a := (2 : ℤ)) (by norm_num)]
  constructor
  · rintro ⟨-, hhi⟩
    linarith
  · intro h
    constructor <;> linarith

/-! ## Integers in decimals -/

/-- **Signed integers in decimals** with room before the point. -/
theorem signed_within_digits {q : ℕ} :
    (signed (b + 1)).Within (digits (q + s) s) ↔ (2 : ℤ) ^ b < 10 ^ q := by
  have hs : (1 : ℤ) ≤ 10 ^ s := one_le_pow₀ (by norm_num)
  have hscale : ∀ n : ℤ, n * 10 ^ s ≤ 10 ^ (q + s) - 1 ↔ n < 10 ^ q := by
    intro n
    rw [Int.le_sub_one_iff, pow_add, mul_lt_mul_iff_left₀ (by linarith)]
  rw [within_iff (Nat.zero_le _) (signed_lo_le_hi _)]
  simp only [signed, digits, Nat.sub_zero]
  rw [hscale, neg_mul, neg_le_neg_iff, hscale]
  constructor
  · exact And.left
  · exact fun h => ⟨h, by linarith⟩

/-- **Unsigned integers in decimals** with room before the point. -/
theorem unsigned_within_digits {q : ℕ} :
    (unsigned b).Within (digits (q + s) s) ↔ (2 : ℤ) ^ b ≤ 10 ^ q := by
  have hs : (1 : ℤ) ≤ 10 ^ s := one_le_pow₀ (by norm_num)
  have hscale : ∀ n : ℤ, n * 10 ^ s ≤ 10 ^ (q + s) - 1 ↔ n < 10 ^ q := by
    intro n
    rw [Int.le_sub_one_iff, pow_add, mul_lt_mul_iff_left₀ (by linarith)]
  have hlo : -((10 : ℤ) ^ (q + s) - 1) ≤ 0 := by
    have : (1 : ℤ) ≤ 10 ^ (q + s) := one_le_pow₀ (by norm_num)
    linarith
  rw [within_iff (Nat.zero_le _) (unsigned_lo_le_hi b)]
  simp only [unsigned, digits, Nat.sub_zero, zero_mul]
  rw [hscale, and_iff_right hlo]
  exact Int.sub_one_lt_iff

end Range

end ScaledRange
