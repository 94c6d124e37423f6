/-
# The digits a shortest numeral needs

A number of a format can be told from the others by a numeral of a fixed number of digits: it is
enough that the numerals lie closer together than the numbers of the format.  Seventeen decimal
digits do for floats.

* `Format.nearest_numeral` : the nearest numeral of that many digits reads back;
* `Format.shortest_isNumeral` : so the shortest numeral is one of at most that many digits.
-/
import Akaal.RoundSignificant

namespace RoundSignificant

/-! ## Rounding to the nearest integer -/

theorem roundHalfEven_eq_of_abs_sub_lt {x : ℚ} {n : ℤ} (h : |x - n| < 1 / 2) :
    roundHalfEven x = n := by
  obtain ⟨hlow, hhigh⟩ := abs_lt.mp h
  by_cases hn : (n : ℚ) ≤ x
  · have hfloor : ⌊x⌋ = n := Int.floor_eq_iff.mpr ⟨hn, by linarith⟩
    rw [roundHalfEven, hfloor, if_pos hhigh]
  · have hfloor : ⌊x⌋ = n - 1 := by
      rw [Int.floor_eq_iff]
      push_cast
      constructor <;> linarith
    have hfrac : 1 / 2 < x - ((n - 1 : ℤ) : ℚ) := by
      push_cast
      linarith
    rw [roundHalfEven, hfloor, if_neg (not_lt.mpr hfrac.le), if_pos hfrac]
    omega

theorem abs_roundHalfEven_sub_le (x : ℚ) : |roundHalfEven x - x| ≤ 1 / 2 := by
  have hlow := Int.floor_le x
  have hhigh := Int.lt_floor_add_one x
  rw [abs_le]
  unfold roundHalfEven
  split_ifs <;> push_cast <;> constructor <;> linarith

theorem roundHalfEven_neg (x : ℚ) : roundHalfEven (-x) = -roundHalfEven x := by
  by_cases hint : x = ⌊x⌋
  · rw [hint]
    have hneg : (-((⌊x⌋ : ℤ) : ℚ)) = ((-⌊x⌋ : ℤ) : ℚ) := by push_cast; ring
    rw [hneg, roundHalfEven_intCast, roundHalfEven_intCast]
  · have hlow : (⌊x⌋ : ℚ) < x := lt_of_le_of_ne (Int.floor_le x) (Ne.symm hint)
    have hhigh := Int.lt_floor_add_one x
    have hfloor : ⌊-x⌋ = -⌊x⌋ - 1 := by
      rw [Int.floor_eq_iff]
      push_cast
      constructor <;> linarith
    unfold roundHalfEven
    rw [hfloor]
    push_cast
    split_ifs <;> first | omega | (exfalso; linarith)

theorem roundHalfEven_le_ceil (x : ℚ) : roundHalfEven x ≤ ⌈x⌉ :=
  roundHalfEven_le_of_le_intCast (Int.le_ceil x)

namespace Format

variable (f : Format)

theorem nearest_neg (x : ℚ) : f.nearest (-x) = -f.nearest x := by
  rcases lt_trichotomy x 0 with hx | rfl | hx
  · rw [nearest, nearest, if_pos (by linarith), if_neg (by linarith), neg_neg]
  · simp
  · rw [nearest, nearest, if_neg (by linarith), if_pos hx.le, neg_neg]

/-! ## Numbers near a number of the format -/

variable {c p : ℕ} {d x : ℚ}

theorem exists_eq_mul_unit (hx : 0 < x) (hfix : f.nearest x = x) : ∃ n : ℤ, x = n * f.unit x := by
  refine ⟨roundHalfEven (x / f.unit x), ?_⟩
  rw [nearest, if_pos hx.le] at hfix
  exact hfix.symm

theorem zpow_succ_eq_mul_unit (x : ℚ) :
    (f.base : ℚ) ^ (Int.log f.base x + 1) = ((f.base ^ f.digits : ℕ) : ℚ) * f.unit x := by
  have hdigits := f.digits_pos
  rw [unit, Nat.cast_pow, ← zpow_natCast, ← zpow_add₀ (ne_of_gt f.base_pos)]
  congr 1
  omega

theorem add_unit_le_zpow (hx : 0 < x) (hfix : f.nearest x = x) :
    x + f.unit x ≤ (f.base : ℚ) ^ (Int.log f.base x + 1) := by
  obtain ⟨n, hn⟩ := f.exists_eq_mul_unit hx hfix
  have hlt : x < (f.base : ℚ) ^ (Int.log f.base x + 1) := Int.lt_zpow_succ_log_self f.one_lt_base x
  rw [f.zpow_succ_eq_mul_unit] at hlt ⊢
  have hn_lt : n < (f.base ^ f.digits : ℕ) := by
    have h : (n : ℚ) * f.unit x < ((f.base ^ f.digits : ℕ) : ℚ) * f.unit x := by rw [← hn]; exact hlt
    exact_mod_cast lt_of_mul_lt_mul_right h (f.unit_pos x).le
  have hsucc : ((n : ℚ) + 1) ≤ ((f.base ^ f.digits : ℕ) : ℚ) := by exact_mod_cast hn_lt
  calc x + f.unit x = ((n : ℚ) + 1) * f.unit x := by rw [add_mul, one_mul, ← hn]
    _ ≤ ((f.base ^ f.digits : ℕ) : ℚ) * f.unit x :=
        mul_le_mul_of_nonneg_right hsucc (f.unit_pos x).le

theorem nearest_eq_of_log_eq (hd : 0 < d) (hx : 0 < x) (hfix : f.nearest x = x)
    (hlog : Int.log f.base d = Int.log f.base x) (h : |d - x| < f.unit x / 2) :
    f.nearest d = x := by
  obtain ⟨n, hn⟩ := f.exists_eq_mul_unit hx hfix
  have hpos := f.unit_pos x
  have hunit : f.unit d = f.unit x := by rw [unit, unit, hlog]
  have hclose : |d / f.unit x - n| < 1 / 2 := by
    have heq : d / f.unit x - n = (d - x) / f.unit x := by
      rw [sub_div]
      congr 1
      exact ((div_eq_iff hpos.ne').mpr hn).symm
    rw [heq, abs_div, abs_of_pos hpos, div_lt_iff₀ hpos]
    linarith
  rw [nearest, if_pos hd.le, nearestNonneg, hunit, roundHalfEven_eq_of_abs_sub_lt hclose]
  exact hn.symm

/-- A number just below a power of the base is rounded to it. -/
theorem nearest_eq_zpow {e : ℤ} (hlow : (f.base : ℚ) ^ (e - 1) ≤ d) (hhigh : d < (f.base : ℚ) ^ e)
    (h : |d - (f.base : ℚ) ^ e| < (f.base : ℚ) ^ (e - f.digits) / 2) :
    f.nearest d = (f.base : ℚ) ^ e := by
  have hd : 0 < d := lt_of_lt_of_le (zpow_pos f.base_pos _) hlow
  have hlog : Int.log f.base d = e - 1 := by
    apply le_antisymm
    · have hlt := (Int.lt_zpow_iff_log_lt f.one_lt_base hd).mp hhigh
      omega
    · exact (Int.zpow_le_iff_le_log f.one_lt_base hd).mp hlow
  have hdigits := f.digits_pos
  have hunit : f.unit d = (f.base : ℚ) ^ (e - f.digits) := by
    rw [unit, hlog]
    congr 1
    omega
  have hpow : (f.base : ℚ) ^ e = ((f.base ^ f.digits : ℕ) : ℤ) * (f.base : ℚ) ^ (e - f.digits) := by
    rw [Int.cast_natCast, Nat.cast_pow, ← zpow_natCast, ← zpow_add₀ (ne_of_gt f.base_pos)]
    congr 1
    omega
  have hpos : (0 : ℚ) < (f.base : ℚ) ^ (e - f.digits) := zpow_pos f.base_pos _
  have hclose : |d / (f.base : ℚ) ^ (e - f.digits) - (((f.base ^ f.digits : ℕ) : ℤ) : ℚ)| < 1 / 2 := by
    have heq : d / (f.base : ℚ) ^ (e - f.digits) - (((f.base ^ f.digits : ℕ) : ℤ) : ℚ) =
        (d - (f.base : ℚ) ^ e) / (f.base : ℚ) ^ (e - f.digits) := by
      rw [sub_div]
      congr 1
      exact ((div_eq_iff hpos.ne').mpr hpow).symm
    rw [heq, abs_div, abs_of_pos hpos, div_lt_iff₀ hpos]
    linarith
  rw [nearest, if_pos hd.le, nearestNonneg, hunit, roundHalfEven_eq_of_abs_sub_lt hclose]
  exact hpow.symm

/-! ## The nearest numeral -/

/-- **The nearest numeral reads back** when numerals of `p + 1` digits are closer together than
the numbers of the format. -/
theorem nearest_numeral (hc : 1 < c) (hdigits : f.base ^ f.digits < c ^ p)
    (hx : 0 < x) (hfix : f.nearest x = x) :
    f.nearest (roundHalfEven (x / (c : ℚ) ^ (Int.log c x - p)) * (c : ℚ) ^ (Int.log c x - p)) = x := by
  have hcpos : (0 : ℚ) < c := by exact_mod_cast Nat.lt_of_succ_lt hc
  set u : ℚ := (c : ℚ) ^ (Int.log c x - p) with hu
  have hupos : 0 < u := zpow_pos hcpos _
  set d : ℚ := roundHalfEven (x / u) * u with hd
  -- the numeral is at most half of its unit away, and its unit is small next to the number
  have hdist : |d - x| ≤ u / 2 := by
    have heq : d - x = (roundHalfEven (x / u) - x / u) * u := by
      rw [sub_mul, div_mul_cancel₀ x hupos.ne']
    rw [heq, abs_mul, abs_of_pos hupos]
    have hround := abs_roundHalfEven_sub_le (x / u)
    calc |(roundHalfEven (x / u) : ℚ) - x / u| * u ≤ 1 / 2 * u :=
          mul_le_mul_of_nonneg_right hround hupos.le
      _ = u / 2 := by ring
  have hux : u * ((c ^ p : ℕ) : ℚ) ≤ x := by
    have heq : u * ((c ^ p : ℕ) : ℚ) = (c : ℚ) ^ Int.log c x := by
      rw [hu, Nat.cast_pow, ← zpow_natCast, ← zpow_add₀ hcpos.ne']
      congr 1
      omega
    rw [heq]
    exact Int.zpow_log_le_self hc hx
  have hdigitsQ : ((f.base ^ f.digits : ℕ) : ℚ) + 1 ≤ ((c ^ p : ℕ) : ℚ) := by exact_mod_cast hdigits
  have hone : (1 : ℚ) ≤ ((f.base ^ f.digits : ℕ) : ℚ) := by
    exact_mod_cast Nat.one_le_pow _ _ (Nat.lt_of_succ_lt f.one_lt_base)
  have hulex : u ≤ x := by nlinarith
  obtain ⟨hdlow, hdhigh⟩ := abs_le.mp hdist
  have hdpos : 0 < d := by linarith
  have hvpos := f.unit_pos x
  have hxlow : (f.base : ℚ) ^ Int.log f.base x ≤ x := Int.zpow_log_le_self f.one_lt_base hx
  by_cases hbelow : (f.base : ℚ) ^ Int.log f.base x ≤ d
  · -- the numeral has the exponent of the number
    have hgap := f.add_unit_le_zpow hx hfix
    have huv : u < f.unit x := by
      have hlt : x < ((f.base ^ f.digits : ℕ) : ℚ) * f.unit x := by
        rw [← f.zpow_succ_eq_mul_unit]
        exact Int.lt_zpow_succ_log_self f.one_lt_base x
      nlinarith
    have hlog : Int.log f.base d = Int.log f.base x := by
      apply le_antisymm
      · have hlt : d < (f.base : ℚ) ^ (Int.log f.base x + 1) := by linarith
        have h := (Int.lt_zpow_iff_log_lt f.one_lt_base hdpos).mp hlt
        omega
      · exact (Int.zpow_le_iff_le_log f.one_lt_base hdpos).mp hbelow
    exact f.nearest_eq_of_log_eq hdpos hx hfix hlog (by linarith)
  · -- the number is a power of the base, and the numeral lies just below it
    rw [not_le] at hbelow
    obtain ⟨n, hn⟩ := f.exists_eq_mul_unit hx hfix
    set e := Int.log f.base x with he
    have hbase : (f.base : ℚ) ^ e = ((f.base ^ (f.digits - 1) : ℕ) : ℤ) * f.unit x := by
      rw [unit, Int.cast_natCast, Nat.cast_pow, ← zpow_natCast, ← zpow_add₀ (ne_of_gt f.base_pos),
        ← he]
      congr 1
      omega
    have huv : u < f.unit x := by
      have hlt : x < ((f.base ^ f.digits : ℕ) : ℚ) * f.unit x := by
        rw [← f.zpow_succ_eq_mul_unit]
        exact Int.lt_zpow_succ_log_self f.one_lt_base x
      nlinarith
    have hxeq : x = (f.base : ℚ) ^ e := by
      have hlt : (n : ℚ) < ((f.base ^ (f.digits - 1) : ℕ) : ℤ) + 1 := by
        have hmul : (n : ℚ) * f.unit x < (((f.base ^ (f.digits - 1) : ℕ) : ℤ) + 1) * f.unit x := by
          rw [add_mul, ← hbase, one_mul, ← hn]
          linarith
        exact lt_of_mul_lt_mul_right hmul hvpos.le
      have hle : n ≤ ((f.base ^ (f.digits - 1) : ℕ) : ℤ) := by
        have : n < ((f.base ^ (f.digits - 1) : ℕ) : ℤ) + 1 := by exact_mod_cast hlt
        omega
      apply le_antisymm _ hxlow
      calc x = n * f.unit x := hn
        _ ≤ ((f.base ^ (f.digits - 1) : ℕ) : ℤ) * f.unit x :=
            mul_le_mul_of_nonneg_right (by exact_mod_cast hle) hvpos.le
        _ = (f.base : ℚ) ^ e := hbase.symm
    have hw : (f.base : ℚ) ^ e = ((f.base ^ f.digits : ℕ) : ℚ) * (f.base : ℚ) ^ (e - f.digits) := by
      rw [Nat.cast_pow, ← zpow_natCast, ← zpow_add₀ (ne_of_gt f.base_pos)]
      congr 1
      omega
    have hwpos : (0 : ℚ) < (f.base : ℚ) ^ (e - f.digits) := zpow_pos f.base_pos _
    have huw : u < (f.base : ℚ) ^ (e - f.digits) := by
      rw [hxeq, hw] at hux
      nlinarith
    have hprev : (f.base : ℚ) ^ (e - 1) ≤ (f.base : ℚ) ^ e / 2 := by
      have htwo : (2 : ℚ) ≤ f.base := by exact_mod_cast f.one_lt_base
      rw [zpow_sub_one₀ (ne_of_gt f.base_pos), div_eq_mul_inv]
      exact mul_le_mul_of_nonneg_left (inv_anti₀ (by norm_num) htwo) (zpow_pos f.base_pos _).le
    have hclose : |d - (f.base : ℚ) ^ e| < (f.base : ℚ) ^ (e - f.digits) / 2 := by
      rw [← hxeq]
      linarith
    rw [f.nearest_eq_zpow (by linarith) hbelow hclose]
    exact hxeq.symm

/-! ## Shortest numerals -/

/-- A number of at most `k` significant digits in base `c`. -/
def IsNumeral (c k : ℕ) (r : ℚ) : Prop :=
  ∃ m : ℤ, r = m * (c : ℚ) ^ (Int.log c |r| - (k - 1 : ℕ))

theorem isNumeral_of_eq_mul {k : ℕ} (hc : 1 < c) {r : ℚ} {m e : ℤ} (hr : r = m * (c : ℚ) ^ e)
    (he : Int.log c |r| - (k - 1 : ℕ) ≤ e) : IsNumeral c k r := by
  have hcpos : (0 : ℚ) < c := by exact_mod_cast Nat.lt_of_succ_lt hc
  refine ⟨m * (c : ℤ) ^ (e - (Int.log c |r| - (k - 1 : ℕ))).toNat, ?_⟩
  rw [Int.cast_mul, Int.cast_pow, Int.cast_natCast, mul_assoc, ← zpow_natCast,
    Int.toNat_of_nonneg (by omega), ← zpow_add₀ hcpos.ne', sub_add_cancel]
  exact hr

theorem abs_bounds_of_floor_le {y : ℚ} {m : ℤ} {a b : ℕ} (ha : (a : ℚ) ≤ |y|) (hb : |y| ≤ b)
    (hfloor : ⌊y⌋ ≤ m) (hceil : m ≤ ⌈y⌉) : a ≤ |m| ∧ |m| ≤ b := by
  rcases abs_cases y with ⟨hy, hsign⟩ | ⟨hy, hsign⟩
  · rw [hy] at ha hb
    have hlow : (a : ℤ) ≤ ⌊y⌋ := Int.le_floor.mpr (by exact_mod_cast ha)
    have hhigh : ⌈y⌉ ≤ (b : ℤ) := Int.ceil_le.mpr (by exact_mod_cast hb)
    rw [abs_of_nonneg (by omega)]
    omega
  · rw [hy] at ha hb
    have hlow : -(b : ℤ) ≤ ⌊y⌋ := by
      rw [Int.le_floor]
      push_cast
      linarith
    have hhigh : ⌈y⌉ ≤ -(a : ℤ) := by
      rw [Int.ceil_le]
      push_cast
      linarith
    rw [abs_of_nonpos (by omega)]
    omega

/-- The neighbours of a number lie between the same two integers of units. -/
theorem exists_of_mem_neighbours (h : d ∈ neighbours c p x) :
    ∃ m : ℤ, d = m * (c : ℚ) ^ (Int.log c |x| - (p - 1 : ℕ)) ∧
      ⌊x / (c : ℚ) ^ (Int.log c |x| - (p - 1 : ℕ))⌋ ≤ m ∧
      m ≤ ⌈x / (c : ℚ) ^ (Int.log c |x| - (p - 1 : ℕ))⌉ := by
  unfold neighbours at h
  simp only [List.mem_cons, List.not_mem_nil, or_false] at h
  rcases h with rfl | rfl | rfl
  · exact ⟨_, rfl, floor_le_roundHalfEven _, roundHalfEven_le_ceil _⟩
  · exact ⟨_, rfl, le_rfl, Int.floor_le_ceil _⟩
  · exact ⟨_, rfl, Int.floor_le_ceil _, le_rfl⟩

theorem isNumeral_of_mem_neighbours {k : ℕ} (hc : 1 < c) (hp : 0 < p) (hpk : p ≤ k)
    (hx : x ≠ 0) (h : d ∈ neighbours c p x) : IsNumeral c k d := by
  have hcpos : (0 : ℚ) < c := by exact_mod_cast Nat.lt_of_succ_lt hc
  have hxpos : 0 < |x| := abs_pos.mpr hx
  obtain ⟨m, hd, hfloor, hceil⟩ := exists_of_mem_neighbours h
  set E := Int.log c |x| with hE
  have hupos : (0 : ℚ) < (c : ℚ) ^ (E - (p - 1 : ℕ)) := zpow_pos hcpos _
  have hpow : ∀ j : ℕ, ((c ^ j : ℕ) : ℚ) * (c : ℚ) ^ (E - (p - 1 : ℕ)) =
      (c : ℚ) ^ (E - (p - 1 : ℕ) + j) := by
    intro j
    rw [Nat.cast_pow, ← zpow_natCast, ← zpow_add₀ hcpos.ne']
    congr 1
    omega
  -- the number has `p` digits above its unit
  have hlow : ((c ^ (p - 1) : ℕ) : ℚ) ≤ |x / (c : ℚ) ^ (E - (p - 1 : ℕ))| := by
    rw [abs_div, abs_of_pos hupos, le_div_iff₀ hupos, hpow]
    have hle := Int.zpow_log_le_self hc hxpos
    rwa [← hE, show E = E - (p - 1 : ℕ) + ((p - 1 : ℕ) : ℤ) by omega] at hle
  have hhigh : |x / (c : ℚ) ^ (E - (p - 1 : ℕ))| ≤ ((c ^ p : ℕ) : ℚ) := by
    rw [abs_div, abs_of_pos hupos, div_le_iff₀ hupos, hpow]
    have hlt := Int.lt_zpow_succ_log_self hc |x|
    rw [← hE, show E + 1 = E - (p - 1 : ℕ) + (p : ℤ) by omega] at hlt
    exact hlt.le
  obtain ⟨hmlow, hmhigh⟩ := abs_bounds_of_floor_le hlow hhigh hfloor hceil
  have habs : |d| = (|m| : ℤ) * (c : ℚ) ^ (E - (p - 1 : ℕ)) := by
    rw [hd, abs_mul, abs_of_pos hupos, Int.cast_abs]
  rcases lt_or_eq_of_le hmhigh with hlt | heq
  · have hdlt : |d| < (c : ℚ) ^ (E + 1) := by
      rw [habs, show E + 1 = E - (p - 1 : ℕ) + (p : ℤ) by omega, ← hpow p]
      exact mul_lt_mul_of_pos_right (by exact_mod_cast hlt) hupos
    have hdpos : 0 < |d| := by
      rw [habs]
      have hone : 1 ≤ c ^ (p - 1) := Nat.one_le_pow _ _ (Nat.lt_of_succ_lt hc)
      have hmpos : (0 : ℤ) < |m| := by omega
      exact mul_pos (by exact_mod_cast hmpos) hupos
    have hlog := (Int.lt_zpow_iff_log_lt hc hdpos).mp hdlt
    exact isNumeral_of_eq_mul hc hd (by omega)
  · -- the neighbour is the next power of the base
    have hpower : |d| = (c : ℚ) ^ (E + 1) := by
      rw [habs, heq, show E + 1 = E - (p - 1 : ℕ) + (p : ℤ) by omega, ← hpow p, Int.cast_natCast]
    have hlog : Int.log c |d| = E + 1 := by rw [hpower, Int.log_zpow hc]
    rcases abs_choice d with hsign | hsign
    · refine isNumeral_of_eq_mul (m := 1) (e := E + 1) hc ?_ (by omega)
      rw [← hsign, hpower, Int.cast_one, one_mul]
    · refine isNumeral_of_eq_mul (m := -1) (e := E + 1) hc ?_ (by omega)
      rw [← hpower, hsign]
      push_cast
      ring

/-- **The shortest numeral has at most `most` digits** when that many digits tell the numbers of
the format apart. -/
theorem shortest_isNumeral {most : ℕ} (hc : 1 < c) (hmost : 0 < most)
    (hdigits : f.base ^ f.digits < c ^ (most - 1)) (hx : x ≠ 0) (hfix : f.nearest x = x) :
    IsNumeral c most (f.shortest c most x) := by
  unfold shortest
  cases h : (List.range most).findSome? fun p =>
      (neighbours c (p + 1) x).find? fun d => f.nearest d = x with
  | some d =>
    obtain ⟨p, hp, hfind⟩ := List.exists_of_findSome?_eq_some h
    exact isNumeral_of_mem_neighbours hc (Nat.succ_pos p) (List.mem_range.mp hp) hx
      (List.mem_of_find?_eq_some hfind)
  | none =>
    -- the nearest numeral of that many digits would have been found
    exfalso
    have hnone := List.findSome?_eq_none_iff.mp h (most - 1) (List.mem_range.mpr (by omega))
    rw [show most - 1 + 1 = most by omega, List.find?_eq_none] at hnone
    have hmem : roundHalfEven (x / (c : ℚ) ^ (Int.log c |x| - (most - 1 : ℕ))) *
        (c : ℚ) ^ (Int.log c |x| - (most - 1 : ℕ)) ∈ neighbours c most x := List.mem_cons_self
    refine hnone _ hmem (decide_eq_true ?_)
    rcases lt_or_gt_of_ne hx with hneg | hpos
    · have hnx : 0 < -x := by linarith
      have hread := f.nearest_numeral hc hdigits hnx (by rw [nearest_neg, hfix])
      rw [abs_of_neg hneg]
      rw [neg_div, roundHalfEven_neg, Int.cast_neg, neg_mul, nearest_neg] at hread
      linarith
    · rw [abs_of_pos hpos]
      exact f.nearest_numeral hc hdigits hpos hfix

end Format

end RoundSignificant
