/-
# Rounding to significant digits

Arithmetic with a fixed number of significant digits in some base: binary floating point
(53 digits in base 2) and decimal contexts (28 digits in base 10) are two formats.  A result
is the exact rational rounded to the nearest number with that many digits, ties to an even
last digit; a result whose exponent is above the format's largest has no value.

* `roundHalfEven_mono`, `Format.nearest_mono` : rounding keeps the order;
* `Format.nearest_shortest` : the shortest numeral of a number reads back as that number;
* `Format.shortest_le_shortest` : so printing and reading keeps the order too.

Numbers below the least normal one are not treated: the format has no least exponent.
-/
import Mathlib

namespace RoundSignificant

/-! ## Rounding to an integer -/

/-- The nearest integer, and the even one of the two nearest in a tie. -/
def roundHalfEven (x : ℚ) : ℤ :=
  if x - ⌊x⌋ < 1 / 2 then ⌊x⌋
  else if 1 / 2 < x - ⌊x⌋ then ⌊x⌋ + 1
  else if ⌊x⌋ % 2 = 0 then ⌊x⌋
  else ⌊x⌋ + 1

theorem floor_le_roundHalfEven (x : ℚ) : ⌊x⌋ ≤ roundHalfEven x := by
  unfold roundHalfEven
  split_ifs <;> omega

theorem roundHalfEven_le_floor_add_one (x : ℚ) : roundHalfEven x ≤ ⌊x⌋ + 1 := by
  unfold roundHalfEven
  split_ifs <;> omega

/-- Rounding keeps the order. -/
theorem roundHalfEven_mono {x y : ℚ} (h : x ≤ y) : roundHalfEven x ≤ roundHalfEven y := by
  rcases lt_or_eq_of_le (Int.floor_le_floor h) with hlt | heq
  · calc roundHalfEven x ≤ ⌊x⌋ + 1 := roundHalfEven_le_floor_add_one x
      _ ≤ ⌊y⌋ := hlt
      _ ≤ roundHalfEven y := floor_le_roundHalfEven y
  · -- with equal floors the fractional parts are in the order of the numbers
    have hfrac : x - ⌊y⌋ ≤ y - ⌊y⌋ := by linarith
    unfold roundHalfEven
    rw [heq]
    split_ifs <;> first | omega | (exfalso; linarith)

@[simp] theorem roundHalfEven_intCast (n : ℤ) : roundHalfEven (n : ℚ) = n := by
  simp [roundHalfEven]

theorem roundHalfEven_le_of_le_intCast {x : ℚ} {n : ℤ} (h : x ≤ n) : roundHalfEven x ≤ n := by
  have hmono := roundHalfEven_mono h
  rwa [roundHalfEven_intCast] at hmono

theorem le_roundHalfEven_of_intCast_le {x : ℚ} {n : ℤ} (h : (n : ℚ) ≤ x) : n ≤ roundHalfEven x := by
  have hmono := roundHalfEven_mono h
  rwa [roundHalfEven_intCast] at hmono

/-! ## Formats -/

/-- A format: a base, the number of significant digits in that base, and the exponent of the
leading digit of its largest numbers. -/
structure Format where
  base : ℕ
  digits : ℕ
  maxExponent : ℤ
  one_lt_base : 1 < base
  digits_pos : 0 < digits

theorem one_lt_ten : 1 < 10 := by decide

namespace Format

variable (f : Format)

theorem base_pos : (0 : ℚ) < f.base := by
  have h := f.one_lt_base
  exact_mod_cast Nat.lt_of_succ_lt h

theorem one_le_base : (1 : ℚ) ≤ f.base := by
  have h := f.one_lt_base
  exact_mod_cast h.le

/-- The weight of the last significant digit of a number with the exponent of `x`. -/
def unit (x : ℚ) : ℚ := (f.base : ℚ) ^ (Int.log f.base x - (f.digits - 1 : ℕ))

theorem unit_pos (x : ℚ) : 0 < f.unit x := zpow_pos f.base_pos _

/-- Round a nonnegative number to the digits of the format. -/
def nearestNonneg (x : ℚ) : ℚ := roundHalfEven (x / f.unit x) * f.unit x

/-- Round a number to the digits of the format, whatever its exponent. -/
def nearest (x : ℚ) : ℚ := if 0 ≤ x then f.nearestNonneg x else -f.nearestNonneg (-x)

/-- The value of a result in the format; `none` on overflow. -/
def round (x : ℚ) : Option ℚ :=
  if Int.log f.base |f.nearest x| ≤ f.maxExponent then some (f.nearest x) else none

variable {x y : ℚ}

theorem nearest_of_round (h : f.round x = some y) : y = f.nearest x := by
  unfold round at h
  split_ifs at h
  exact (Option.some.inj h).symm

/-! ## Rounding keeps the order -/

theorem nearestNonneg_nonneg (hx : 0 ≤ x) : 0 ≤ f.nearestNonneg x := by
  have hdiv : (((0 : ℤ)) : ℚ) ≤ x / f.unit x := by
    rw [Int.cast_zero]
    exact div_nonneg hx (f.unit_pos x).le
  have hround : (0 : ℤ) ≤ roundHalfEven (x / f.unit x) := le_roundHalfEven_of_intCast_le hdiv
  exact mul_nonneg (by exact_mod_cast hround) (f.unit_pos x).le

theorem zpow_eq_mul_unit {e : ℤ} (he : Int.log f.base x ≤ e) :
    (f.base : ℚ) ^ e = (((f.base : ℤ) ^ (e - Int.log f.base x + (f.digits - 1 : ℕ)).toNat : ℤ) : ℚ) *
      f.unit x := by
  have hexp : 0 ≤ e - Int.log f.base x + (f.digits - 1 : ℕ) := by omega
  rw [Int.cast_pow, Int.cast_natCast, ← zpow_natCast, Int.toNat_of_nonneg hexp, unit,
    ← zpow_add₀ (ne_of_gt f.base_pos)]
  congr 1
  omega

theorem nearestNonneg_le_zpow (x : ℚ) :
    f.nearestNonneg x ≤ (f.base : ℚ) ^ (Int.log f.base x + 1) := by
  have hlt : x < (f.base : ℚ) ^ (Int.log f.base x + 1) := Int.lt_zpow_succ_log_self f.one_lt_base x
  have hpow := f.zpow_eq_mul_unit (x := x) (e := Int.log f.base x + 1) (by omega)
  rw [hpow] at hlt ⊢
  rw [← div_lt_iff₀ (f.unit_pos x)] at hlt
  have hround := roundHalfEven_le_of_le_intCast hlt.le
  exact mul_le_mul_of_nonneg_right (by exact_mod_cast hround) (f.unit_pos x).le

theorem zpow_le_nearestNonneg (hx : 0 < x) :
    (f.base : ℚ) ^ Int.log f.base x ≤ f.nearestNonneg x := by
  have hle : (f.base : ℚ) ^ Int.log f.base x ≤ x := Int.zpow_log_le_self f.one_lt_base hx
  have hpow := f.zpow_eq_mul_unit (x := x) (e := Int.log f.base x) le_rfl
  rw [hpow] at hle ⊢
  rw [← le_div_iff₀ (f.unit_pos x)] at hle
  have hround := le_roundHalfEven_of_intCast_le hle
  exact mul_le_mul_of_nonneg_right (by exact_mod_cast hround) (f.unit_pos x).le

theorem nearestNonneg_mono (hx : 0 < x) (hxy : x ≤ y) : f.nearestNonneg x ≤ f.nearestNonneg y := by
  have hy : 0 < y := lt_of_lt_of_le hx hxy
  rcases lt_or_eq_of_le (Int.log_mono_right (b := f.base) hx hxy) with hlt | heq
  · -- a power of the base separates the two results
    calc f.nearestNonneg x ≤ (f.base : ℚ) ^ (Int.log f.base x + 1) := f.nearestNonneg_le_zpow x
      _ ≤ (f.base : ℚ) ^ Int.log f.base y := zpow_le_zpow_right₀ f.one_le_base hlt
      _ ≤ f.nearestNonneg y := f.zpow_le_nearestNonneg hy
  · have hunit : f.unit x = f.unit y := by rw [unit, unit, heq]
    unfold nearestNonneg
    rw [hunit]
    have hdiv : x / f.unit y ≤ y / f.unit y := div_le_div_of_nonneg_right hxy (f.unit_pos y).le
    have hround := roundHalfEven_mono hdiv
    exact mul_le_mul_of_nonneg_right (by exact_mod_cast hround) (f.unit_pos y).le

@[simp] theorem nearestNonneg_zero : f.nearestNonneg 0 = 0 := by
  have h : roundHalfEven (0 : ℚ) = 0 := by exact_mod_cast roundHalfEven_intCast 0
  simp [nearestNonneg, h]

@[simp] theorem nearest_zero : f.nearest 0 = 0 := by simp [nearest]

/-- Rounding keeps the order. -/
theorem nearest_mono (hxy : x ≤ y) : f.nearest x ≤ f.nearest y := by
  unfold nearest
  by_cases hx : 0 ≤ x
  · have hy : 0 ≤ y := le_trans hx hxy
    rw [if_pos hx, if_pos hy]
    rcases lt_or_eq_of_le hx with hpos | hzero
    · exact f.nearestNonneg_mono hpos hxy
    · rw [← hzero, nearestNonneg_zero]
      exact f.nearestNonneg_nonneg hy
  · have hnx : 0 < -x := by linarith
    rw [if_neg hx]
    by_cases hy : 0 ≤ y
    · rw [if_pos hy]
      have hleft := f.nearestNonneg_nonneg hnx.le
      have hright := f.nearestNonneg_nonneg hy
      linarith
    · rw [if_neg hy]
      have hny : 0 < -y := by linarith
      have hmono := f.nearestNonneg_mono hny (by linarith : -y ≤ -x)
      linarith

/-! ## Numbers of the format -/

theorem nearestNonneg_of_eq_mul_unit {n : ℤ} (h : x = n * f.unit x) : f.nearestNonneg x = x := by
  have hdiv : x / f.unit x = n := by
    rw [div_eq_iff (ne_of_gt (f.unit_pos x))]
    exact h
  rw [nearestNonneg, hdiv, roundHalfEven_intCast, ← h]

theorem nearestNonneg_nearestNonneg (hx : 0 < x) :
    f.nearestNonneg (f.nearestNonneg x) = f.nearestNonneg x := by
  have hlow : (f.base : ℚ) ^ Int.log f.base x ≤ f.nearestNonneg x := f.zpow_le_nearestNonneg hx
  have hpos : 0 < f.nearestNonneg x := lt_of_lt_of_le (zpow_pos f.base_pos _) hlow
  rcases lt_or_eq_of_le (f.nearestNonneg_le_zpow x) with hlt | heq
  · -- the result has the exponent of `x`, and so the same unit
    have hlog : Int.log f.base (f.nearestNonneg x) = Int.log f.base x := by
      apply le_antisymm
      · have h := (Int.lt_zpow_iff_log_lt f.one_lt_base hpos).mp hlt
        omega
      · exact (Int.zpow_le_iff_le_log f.one_lt_base hpos).mp hlow
    have hunit : f.unit (f.nearestNonneg x) = f.unit x := by rw [unit, unit, hlog]
    apply f.nearestNonneg_of_eq_mul_unit (n := roundHalfEven (x / f.unit x))
    rw [hunit]
    rfl
  · -- the result is the next power of the base
    have hlog : Int.log f.base (f.nearestNonneg x) = Int.log f.base x + 1 := by
      rw [heq, Int.log_zpow f.one_lt_base]
    apply f.nearestNonneg_of_eq_mul_unit
    rw [← f.zpow_eq_mul_unit (x := f.nearestNonneg x) (e := Int.log f.base x + 1) hlog.le]
    exact heq

theorem nearest_nearest (x : ℚ) : f.nearest (f.nearest x) = f.nearest x := by
  rcases lt_trichotomy x 0 with hneg | rfl | hpos
  · have hnx : 0 < -x := by linarith
    have hvalue : f.nearest x = -f.nearestNonneg (-x) := by rw [nearest, if_neg (not_le.mpr hneg)]
    have hlow : 0 < f.nearestNonneg (-x) :=
      lt_of_lt_of_le (zpow_pos f.base_pos _) (f.zpow_le_nearestNonneg hnx)
    have hneg' : ¬ 0 ≤ -f.nearestNonneg (-x) := by linarith
    rw [hvalue, nearest, if_neg hneg', neg_neg, f.nearestNonneg_nearestNonneg hnx]
  · rw [nearest_zero, nearest_zero]
  · have hvalue : f.nearest x = f.nearestNonneg x := by rw [nearest, if_pos hpos.le]
    rw [hvalue, nearest, if_pos (f.nearestNonneg_nonneg hpos.le),
      f.nearestNonneg_nearestNonneg hpos]

theorem round_of_round (h : f.round x = some y) : f.round y = some y := by
  have hy : y = f.nearest x := f.nearest_of_round h
  have hfix : f.nearest y = y := by rw [hy, f.nearest_nearest]
  unfold round at h ⊢
  split_ifs at h with hexp
  rw [hfix, if_pos (hy ▸ hexp)]

/-! ## The shortest numeral -/

/-- The neighbours of `x` among the numbers with `p` digits in base `b`: the nearest, the one
below and the one above. -/
def neighbours (b p : ℕ) (x : ℚ) : List ℚ :=
  let u : ℚ := (b : ℚ) ^ (Int.log b |x| - (p - 1 : ℕ))
  [roundHalfEven (x / u) * u, ⌊x / u⌋ * u, ⌈x / u⌉ * u]

/-- The number written by the shortest numeral in base `b`, of at most `most` digits, that
reads back as `x` in the format; of the numerals of that length, the nearest to `x`. -/
def shortest (b most : ℕ) (x : ℚ) : ℚ :=
  ((List.range most).findSome? fun p =>
    (neighbours b (p + 1) x).find? fun d => f.nearest d = x).getD x

/-- The shortest numeral of a number of the format reads back as that number. -/
theorem nearest_shortest (hx : f.nearest x = x) (b most : ℕ) :
    f.nearest (f.shortest b most x) = x := by
  unfold shortest
  cases h : (List.range most).findSome? fun p =>
      (neighbours b (p + 1) x).find? fun d => f.nearest d = x with
  | none => exact hx
  | some d =>
    obtain ⟨p, -, hp⟩ := List.exists_of_findSome?_eq_some h
    have hd := List.find?_some hp
    exact of_decide_eq_true hd

/-- Printing the shortest numerals of two numbers of the format keeps their order. -/
theorem shortest_le_shortest (hx : f.nearest x = x) (hy : f.nearest y = y)
    (hxy : x ≤ y) (b most : ℕ) : f.shortest b most x ≤ f.shortest b most y := by
  rcases lt_or_eq_of_le hxy with hlt | rfl
  · by_contra hgt
    have hmono := f.nearest_mono (le_of_lt (not_le.mp hgt))
    rw [f.nearest_shortest hx, f.nearest_shortest hy] at hmono
    exact absurd hlt (not_lt.mpr hmono)
  · exact le_rfl

end Format

end RoundSignificant
