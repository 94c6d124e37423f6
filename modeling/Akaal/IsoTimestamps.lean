/-
# Timestamps as texts

An instant of the calendar, in microseconds, and the text `isoformat` gives for it in UTC: the date,
the time of day, and the microseconds when there are any.

* `yearAndDay_spec` : the year of a day, and the day of that year;
* `isoformat_lt` : texts are in the order of their instants;
* `isoformat_lt_iff`, `isoformat_le_iff` : so comparing texts compares instants.
-/
import Mathlib

namespace IsoTimestamps

/-! ## Digits of a fixed width -/

/-- A decimal digit. -/
def digit (n : ℕ) : Char := Char.ofNat (48 + n % 10)

/-- The last digits of a number, as many as the width. -/
def digits : ℕ → ℕ → List Char
  | 0, _ => []
  | width + 1, n => digits width (n / 10) ++ [digit n]

@[simp] theorem length_digits (width n : ℕ) : (digits width n).length = width := by
  induction width generalizing n with
  | zero => rfl
  | succ width ih => rw [digits, List.length_append, ih, List.length_singleton]

theorem digit_lt_digit : ∀ a < 10, ∀ b < 10, a < b → digit a < digit b := by decide

theorem digit_mod (n : ℕ) : digit (n % 10) = digit n := by rw [digit, digit, Nat.mod_mod]

theorem append_lt_append {l l' : List Char} (h : l < l') (hlength : l.length = l'.length)
    (r r' : List Char) : l ++ r < l' ++ r' := by
  induction l generalizing l' with
  | nil =>
    cases l' with
    | nil => exact absurd h (lt_irrefl _)
    | cons c l' => cases hlength
  | cons c l ih =>
    cases l' with
    | nil => cases hlength
    | cons c' l' =>
      rw [List.cons_append, List.cons_append]
      rcases List.cons_lt_cons_iff.mp h with hlt | ⟨rfl, hlt⟩
      · exact List.cons_lt_cons_iff.mpr (.inl hlt)
      · exact List.cons_lt_cons_iff.mpr (.inr ⟨rfl, ih hlt (Nat.succ.inj hlength)⟩)

variable {day n year : ℕ} {t u : Instant}

/-- **Digits of one width** are in the order of their numbers. -/
theorem digits_lt_digits {width m : ℕ} (hlt : n < m) (hm : m < 10 ^ width) :
    digits width n < digits width m := by
  induction width generalizing n m with
  | zero =>
    rw [pow_zero] at hm
    omega
  | succ width ih =>
    rw [pow_succ] at hm
    rw [digits, digits]
    rcases Nat.lt_or_ge (n / 10) (m / 10) with hhigh | hhigh
    · exact append_lt_append (ih hhigh (by omega)) (by simp) _ _
    · have heq : n / 10 = m / 10 := by omega
      rw [heq, ← digit_mod n, ← digit_mod m]
      apply List.append_left_lt
      exact List.cons_lt_cons_iff.mpr
        (.inl (digit_lt_digit _ (Nat.mod_lt _ (by decide)) _ (Nat.mod_lt _ (by decide)) (by omega)))

theorem digits_append_lt {width m : ℕ} (hm : m < 10 ^ width) {r r' : List Char}
    (h : n < m ∨ n = m ∧ r < r') : digits width n ++ r < digits width m ++ r' := by
  rcases h with hlt | ⟨rfl, hlt⟩
  · exact append_lt_append (digits_lt_digits hlt hm) (by simp) _ _
  · exact List.append_left_lt hlt

/-! ## The calendar -/

/-- A leap year. -/
def isLeap (year : ℕ) : Bool := year % 4 = 0 ∧ (year % 100 ≠ 0 ∨ year % 400 = 0)

/-- The number of days of a year. -/
def yearLength (year : ℕ) : ℕ := if isLeap year then 366 else 365

/-- The days from the first one of the year 1 to the first one of a year. -/
def daysBeforeYear (year : ℕ) : ℕ :=
  365 * (year - 1) + (year - 1) / 4 - (year - 1) / 100 + (year - 1) / 400

/-- The year of a day, counted from the first one of the year 1, and the day of that year. -/
def yearAndDay (day : ℕ) : ℕ × ℕ :=
  let n400 := day / 146097
  let rest400 := day % 146097
  let n100 := min (rest400 / 36524) 3
  let rest100 := rest400 - 36524 * n100
  let n4 := rest100 / 1461
  let rest4 := rest100 % 1461
  let n1 := min (rest4 / 365) 3
  (400 * n400 + 100 * n100 + 4 * n4 + n1 + 1, rest4 - 365 * n1)

/-- The first day of each month. -/
def monthStarts (leap : Bool) : List ℕ :=
  if leap then [0, 31, 60, 91, 121, 152, 182, 213, 244, 274, 305, 335]
  else [0, 31, 59, 90, 120, 151, 181, 212, 243, 273, 304, 334]

/-- The month of a day of the year, and the day of that month. -/
def monthAndDay (leap : Bool) (yday : ℕ) : ℕ × ℕ :=
  let month := ((monthStarts leap).filter (· ≤ yday)).length
  (month, yday - (monthStarts leap).getD (month - 1) 0 + 1)

theorem isLeap_iff : isLeap year = true ↔ year % 4 = 0 ∧ (year % 100 ≠ 0 ∨ year % 400 = 0) := by
  rw [isLeap, decide_eq_true_iff]

theorem yearLength_eq (year : ℕ) : yearLength year = 365 ∧ isLeap year = false ∨
    yearLength year = 366 ∧ isLeap year = true := by
  rw [yearLength]
  cases isLeap year <;> simp

theorem succ_div_cases (y k : ℕ) : (y + 1) / k = y / k ∧ (y + 1) % k ≠ 0 ∨
    (y + 1) / k = y / k + 1 ∧ (y + 1) % k = 0 := by
  rw [Nat.succ_div, ← Nat.dvd_iff_mod_eq_zero]
  by_cases h : k ∣ y + 1
  · exact .inr ⟨by rw [if_pos h], h⟩
  · exact .inl ⟨by rw [if_neg h, add_zero], by rwa [Ne, ← Nat.dvd_iff_mod_eq_zero]⟩

theorem daysBeforeYear_succ (h : 0 < year) :
    daysBeforeYear (year + 1) = daysBeforeYear year + yearLength year := by
  obtain ⟨y, rfl⟩ : ∃ y, year = y + 1 := ⟨year - 1, by omega⟩
  have hle : y / 100 ≤ y := Nat.div_le_self _ _
  have h4 := succ_div_cases y 4
  have h100 := succ_div_cases y 100
  have h400 := succ_div_cases y 400
  have hmod4 : (y + 1) % 100 = 0 → (y + 1) % 4 = 0 := by omega
  have hmod100 : (y + 1) % 400 = 0 → (y + 1) % 100 = 0 := by omega
  have hlength : yearLength (y + 1) = 366 ∧
        ((y + 1) % 4 = 0 ∧ ((y + 1) % 100 ≠ 0 ∨ (y + 1) % 400 = 0)) ∨
      yearLength (y + 1) = 365 ∧ ¬ ((y + 1) % 4 = 0 ∧ ((y + 1) % 100 ≠ 0 ∨ (y + 1) % 400 = 0)) := by
    rw [yearLength, ← isLeap_iff]
    cases isLeap (y + 1) <;> simp
  rw [daysBeforeYear, daysBeforeYear, Nat.add_sub_cancel, Nat.add_sub_cancel]
  -- from here on only which divisors divide the year counts
  generalize yearLength (y + 1) = length at hlength ⊢
  generalize (y + 1) / 4 = q4', (y + 1) / 100 = q100', (y + 1) / 400 = q400' at h4 h100 h400 ⊢
  generalize (y + 1) % 4 = r4, (y + 1) % 100 = r100, (y + 1) % 400 = r400 at *
  generalize y / 4 = q4, y / 100 = q100, y / 400 = q400 at *
  omega

theorem daysBeforeYear_mono {year' : ℕ} (h : 0 < year) (hle : year ≤ year') :
    daysBeforeYear year ≤ daysBeforeYear year' := by
  induction year', hle using Nat.le_induction with
  | base => exact le_rfl
  | succ y hy ih =>
    rw [daysBeforeYear_succ (h.trans_le hy)]
    exact ih.trans (Nat.le_add_right _ _)

theorem daysBeforeYear_parts {c q f : ℕ} (hq : q ≤ 3) (hf : f ≤ 24) (hn : n ≤ 3) :
    daysBeforeYear (400 * c + 100 * q + 4 * f + n + 1) =
      146097 * c + 36524 * q + 1461 * f + 365 * n := by
  have h4 : (400 * c + 100 * q + 4 * f + n) / 4 = 100 * c + 25 * q + f := by omega
  have h100 : (400 * c + 100 * q + 4 * f + n) / 100 = 4 * c + q := by omega
  have h400 : (400 * c + 100 * q + 4 * f + n) / 400 = c := by omega
  rw [daysBeforeYear, Nat.add_sub_cancel, h4, h100, h400]
  omega

theorem isLeap_parts {c q f : ℕ} (hq : q ≤ 3) (hf : f ≤ 24) (hn : n ≤ 3) :
    isLeap (400 * c + 100 * q + 4 * f + n + 1) = true ↔ n = 3 ∧ (f ≠ 24 ∨ q = 3) := by
  rw [isLeap_iff]
  omega

/-- The place of a day in the cycles. -/
theorem exists_parts (day : ℕ) : ∃ c q f n yday,
    yearAndDay day = (400 * c + 100 * q + 4 * f + n + 1, yday) ∧ q ≤ 3 ∧ f ≤ 24 ∧ n ≤ 3 ∧
      day = 146097 * c + 36524 * q + 1461 * f + 365 * n + yday ∧
      (yday < 365 ∨ yday = 365 ∧ n = 3 ∧ (f ≠ 24 ∨ q = 3)) := by
  obtain ⟨r, hr⟩ : ∃ r, r = day % 146097 := ⟨_, rfl⟩
  obtain ⟨q, hq⟩ : ∃ q, q = min (r / 36524) 3 := ⟨_, rfl⟩
  obtain ⟨r', hr'⟩ : ∃ r', r' = r - 36524 * q := ⟨_, rfl⟩
  obtain ⟨n, hn⟩ : ∃ n, n = min (r' % 1461 / 365) 3 := ⟨_, rfl⟩
  have hr'le : r' ≤ 36524 ∧ (r' = 36524 → q = 3) := by omega
  refine ⟨day / 146097, q, r' / 1461, n, r' % 1461 - 365 * n, ?_, ?_, ?_, ?_, ?_, ?_⟩
  · rw [hn, hr', hq, hr]
    rfl
  · omega
  · omega
  · omega
  · omega
  · omega

/-- **The year of a day.** -/
theorem yearAndDay_spec (day : ℕ) : 0 < (yearAndDay day).1 ∧
    daysBeforeYear (yearAndDay day).1 + (yearAndDay day).2 = day ∧
      (yearAndDay day).2 < yearLength (yearAndDay day).1 := by
  obtain ⟨c, q, f, n, yday, hday, hq, hf, hn, rfl, hyday⟩ := exists_parts day
  rw [hday]
  refine ⟨Nat.succ_pos _, ?_, ?_⟩
  · rw [daysBeforeYear_parts hq hf hn]
  · show yday < _
    rcases yearLength_eq (400 * c + 100 * q + 4 * f + n + 1) with ⟨hlength, hleap⟩ | ⟨hlength, -⟩
    · rw [← Bool.not_eq_true, isLeap_parts hq hf hn] at hleap
      rw [hlength]
      exact hyday.resolve_right fun h => hleap h.2
    · rw [hlength]
      omega

theorem yearAndDay_lt {day' : ℕ} (h : day < day') : (yearAndDay day).1 < (yearAndDay day').1 ∨
      (yearAndDay day).1 = (yearAndDay day').1 ∧ (yearAndDay day).2 < (yearAndDay day').2 := by
  obtain ⟨hpos, hday, hlt⟩ := yearAndDay_spec day
  obtain ⟨hpos', hday', hlt'⟩ := yearAndDay_spec day'
  rcases Nat.lt_trichotomy (yearAndDay day).1 (yearAndDay day').1 with hyear | hyear | hyear
  · exact .inl hyear
  · rw [hyear] at hday
    exact .inr ⟨hyear, by omega⟩
  · have hmono := daysBeforeYear_mono (Nat.succ_pos _) (Nat.succ_le_of_lt hyear)
    rw [Nat.succ_eq_add_one, daysBeforeYear_succ hpos'] at hmono
    omega

/-- The day before the first one of the year 10000. -/
def maxDays : ℕ := 3652059

theorem year_lt (h : day < maxDays) : (yearAndDay day).1 < 10000 := by
  by_contra hge
  have hmono := daysBeforeYear_mono (by decide) (not_lt.mp hge)
  obtain ⟨-, hday, -⟩ := yearAndDay_spec day
  rw [show daysBeforeYear 10000 = maxDays from rfl] at hmono
  omega

/-- A day of a year and the next one. -/
theorem monthAndDay_succ : ∀ leap : Bool, ∀ yday < 365,
    (monthAndDay leap (yday + 1)).1 < 100 ∧ (monthAndDay leap (yday + 1)).2 < 100 ∧
      ((monthAndDay leap yday).1 < (monthAndDay leap (yday + 1)).1 ∨
        (monthAndDay leap yday).1 = (monthAndDay leap (yday + 1)).1 ∧
          (monthAndDay leap yday).2 < (monthAndDay leap (yday + 1)).2) := by
  decide +kernel

/-! ## Texts -/

/-- The text of a day of a year. -/
def yearDayText (leap : Bool) (yday : ℕ) : List Char :=
  digits 2 (monthAndDay leap yday).1 ++ '-' :: digits 2 (monthAndDay leap yday).2

/-- The text of a date. -/
def dateText (day : ℕ) : List Char :=
  digits 4 (yearAndDay day).1 ++ '-' :: yearDayText (isLeap (yearAndDay day).1) (yearAndDay day).2

/-- The text of a second of the day. -/
def clockText (second : ℕ) : List Char :=
  digits 2 (second / 3600) ++ ':' :: (digits 2 (second / 60 % 60) ++ ':' :: digits 2 (second % 60))

/-- The text of a second. -/
def secondText (second : ℕ) : List Char :=
  dateText (second / 86400) ++ 'T' :: clockText (second % 86400)

/-- The text of the microseconds, when there are any. -/
def fractionText (micro : ℕ) : List Char := if micro = 0 then [] else '.' :: digits 6 micro

/-- The instant of the first day after the calendar. -/
def maxInstant : ℕ := maxDays * 86400 * 1000000

theorem zero_lt_maxInstant : 0 < maxInstant := by decide

/-- An instant of the calendar: the microseconds from the beginning of the year 1. -/
structure Instant where
  micros : ℕ
  inRange : micros < maxInstant

/-- `isoformat`, in UTC. -/
def Instant.isoformat (t : Instant) : String :=
  String.ofList (secondText (t.micros / 1000000) ++
    (fractionText (t.micros % 1000000) ++ ['+', '0', '0', ':', '0', '0']))

/-- An instant some microseconds later; `none` when it is not in the calendar. -/
def Instant.add (t : Instant) (micros : ℤ) : Option Instant :=
  if h : 0 ≤ t.micros + micros ∧ (t.micros + micros).toNat < maxInstant then
    some ⟨(t.micros + micros).toNat, h.2⟩
  else none

theorem Instant.add_eq_some {micros : ℤ} (h : t.add micros = some u) :
    (u.micros : ℤ) = t.micros + micros := by
  unfold Instant.add at h
  split_ifs at h with hrange
  cases h
  exact Int.toNat_of_nonneg hrange.1

/-! ## The order of texts -/

@[simp] theorem length_yearDayText (leap : Bool) (yday : ℕ) : (yearDayText leap yday).length = 5 := by
  simp [yearDayText]

@[simp] theorem length_dateText (day : ℕ) : (dateText day).length = 10 := by simp [dateText]

@[simp] theorem length_clockText (second : ℕ) : (clockText second).length = 8 := by simp [clockText]

@[simp] theorem length_secondText (second : ℕ) : (secondText second).length = 19 := by
  simp [secondText]

theorem cons_lt {c : Char} {r r' : List Char} (h : r < r') : c :: r < c :: r' :=
  List.cons_lt_cons_iff.mpr (.inr ⟨rfl, h⟩)

theorem yearDayText_lt {leap : Bool} {yday yday' : ℕ} (hlt : yday < yday') (hle : yday' ≤ 365) :
    yearDayText leap yday < yearDayText leap yday' := by
  induction yday', hlt using Nat.le_induction with
  | base =>
    obtain ⟨hmonth, hday, horder⟩ := monthAndDay_succ leap yday (by omega)
    apply digits_append_lt hmonth
    rcases horder with hlt | ⟨heq, hlt⟩
    · exact .inl hlt
    · exact .inr ⟨heq, cons_lt (digits_lt_digits hlt hday)⟩
  | succ y hy ih =>
    refine (ih (by omega)).trans ?_
    obtain ⟨hmonth, hday, horder⟩ := monthAndDay_succ leap y (by omega)
    apply digits_append_lt hmonth
    rcases horder with hlt | ⟨heq, hlt⟩
    · exact .inl hlt
    · exact .inr ⟨heq, cons_lt (digits_lt_digits hlt hday)⟩

theorem dateText_lt {day' : ℕ} (hlt : day < day') (hday : day' < maxDays) :
    dateText day < dateText day' := by
  apply digits_append_lt (year_lt hday)
  rcases yearAndDay_lt hlt with hyear | ⟨hyear, hyday⟩
  · exact .inl hyear
  · refine .inr ⟨hyear, cons_lt ?_⟩
    rw [hyear]
    apply yearDayText_lt hyday
    have hlength := (yearAndDay_spec day').2.2
    rw [yearLength] at hlength
    split_ifs at hlength <;> omega

theorem clockText_lt {second second' : ℕ} (hlt : second < second') (hday : second' < 86400) :
    clockText second < clockText second' := by
  apply digits_append_lt (by omega)
  rcases Nat.lt_or_ge (second / 3600) (second' / 3600) with hhour | hhour
  · exact .inl hhour
  · refine .inr ⟨by omega, cons_lt (digits_append_lt (by omega) ?_)⟩
    rcases Nat.lt_or_ge (second / 60 % 60) (second' / 60 % 60) with hminute | hminute
    · exact .inl hminute
    · exact .inr ⟨by omega, cons_lt (digits_lt_digits (by omega) (by omega))⟩

theorem secondText_lt {second second' : ℕ} (hlt : second < second')
    (hrange : second' < maxDays * 86400) : secondText second < secondText second' := by
  have hday : second' / 86400 < maxDays := Nat.div_lt_of_lt_mul (by rwa [Nat.mul_comm])
  rw [secondText, secondText]
  rcases Nat.lt_or_ge (second / 86400) (second' / 86400) with hless | hge
  · exact append_lt_append (dateText_lt hless hday) (by simp) _ _
  · rw [show second / 86400 = second' / 86400 by omega]
    exact List.append_left_lt (cons_lt (clockText_lt (by omega) (Nat.mod_lt _ (by decide))))

theorem fractionText_lt {micro micro' : ℕ} (hlt : micro < micro') (hmicro : micro' < 1000000)
    (offset : List Char) : fractionText micro ++ '+' :: offset < fractionText micro' ++ '+' :: offset := by
  have hpos : micro' ≠ 0 := by omega
  rw [fractionText, fractionText, if_neg hpos]
  split_ifs with hzero
  · exact List.cons_lt_cons_iff.mpr (.inl (by decide))
  · exact cons_lt (append_lt_append (digits_lt_digits hlt hmicro) (by simp) _ _)

/-- **Texts are in the order of their instants.** -/
theorem isoformat_lt (h : t.micros < u.micros) : t.isoformat < u.isoformat := by
  have hrange : u.micros / 1000000 < maxDays * 86400 :=
    Nat.div_lt_of_lt_mul (by rw [Nat.mul_comm]; exact u.inRange)
  rw [String.lt_iff_toList_lt, Instant.isoformat, Instant.isoformat, String.toList_ofList,
    String.toList_ofList]
  rcases Nat.lt_or_ge (t.micros / 1000000) (u.micros / 1000000) with hless | hge
  · exact append_lt_append (secondText_lt hless hrange) (by simp) _ _
  · rw [show t.micros / 1000000 = u.micros / 1000000 by omega]
    exact List.append_left_lt (fractionText_lt (by omega) (Nat.mod_lt _ (by decide)) _)

/-- **Comparing texts compares instants**, strictly. -/
theorem isoformat_lt_iff : t.isoformat < u.isoformat ↔ t.micros < u.micros := by
  constructor
  · intro h
    by_contra hge
    rcases (not_lt.mp hge).lt_or_eq with hlt | heq
    · exact absurd (isoformat_lt hlt) (not_lt.mpr h.le)
    · obtain ⟨n, hn⟩ := t
      obtain ⟨m, hm⟩ := u
      obtain rfl : m = n := heq
      exact lt_irrefl _ h
  · exact isoformat_lt

/-- Comparing texts compares instants. -/
theorem isoformat_le_iff : t.isoformat ≤ u.isoformat ↔ t.micros ≤ u.micros := by
  rw [← not_lt, isoformat_lt_iff, not_lt]

end IsoTimestamps
