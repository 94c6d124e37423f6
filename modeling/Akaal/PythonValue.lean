/-
# Python values and their texts

The values a row can hold, as far as the standard library tells them apart, and the texts it
prints for them: `str` and the `.12g` format of numbers, `Decimal.normalize`,
`datetime.astimezone` and `strftime`, `bytes.hex` and `json.dumps`.  Dictionaries keep their
items in the order of insertion, under distinct keys.

* `PyDict.get?_set`, `PyDict.get?_set_of_ne` : an assignment changes the value of one key;
* `PyDict.get?_mapValues` : a function is applied to every value;
* `PyDict.mem_items_iff` : an item is a key with its value.

Floats and decimals below the least normal one, streams and keys of dictionaries that are not
texts are not treated.
-/
import Akaal.PythonNumber

open RoundSignificant

/-! ## Dictionaries -/

/-- A dictionary: items in the order of insertion, under distinct keys. -/
@[ext] structure PyDict (α : Type*) where
  items : List (String × α)
  nodup : (items.map Prod.fst).Nodup

namespace PyDict

variable {α : Type*}

/-- `{}`. -/
def empty : PyDict α where
  items := []
  nodup := List.nodup_nil

instance : Inhabited (PyDict α) := ⟨empty⟩

/-- The keys, in the order of insertion. -/
def keys (d : PyDict α) : List String := d.items.map Prod.fst

/-- `d.get(key)`. -/
def get? (d : PyDict α) (key : String) : Option α := List.lookup key d.items

/-- Replace the value of a key in place, or add the item at the end. -/
def setItem (key : String) (value : α) : List (String × α) → List (String × α)
  | [] => [(key, value)]
  | item :: items =>
    if item.1 = key then (key, value) :: items else item :: setItem key value items

theorem mem_keys_setItem {key : String} {value : α} {items : List (String × α)} {k : String} :
    k ∈ (setItem key value items).map Prod.fst ↔ k = key ∨ k ∈ items.map Prod.fst := by
  induction items with
  | nil => simp [setItem]
  | cons item items ih =>
    rw [setItem]
    split_ifs with h
    · subst h
      simp
    · rw [List.map_cons, List.mem_cons, ih, List.map_cons, List.mem_cons]
      tauto

theorem nodup_setItem {key : String} {value : α} {items : List (String × α)}
    (h : (items.map Prod.fst).Nodup) : ((setItem key value items).map Prod.fst).Nodup := by
  induction items with
  | nil => simp [setItem]
  | cons item items ih =>
    rw [List.map_cons, List.nodup_cons] at h
    rw [setItem]
    split_ifs with hkey
    · subst hkey
      exact List.nodup_cons.mpr h
    · refine List.nodup_cons.mpr ⟨?_, ih h.2⟩
      rw [mem_keys_setItem]
      rintro (heq | hmem)
      · exact hkey heq
      · exact h.1 hmem

/-- `d[key] = value`. -/
def set (d : PyDict α) (key : String) (value : α) : PyDict α where
  items := setItem key value d.items
  nodup := nodup_setItem d.nodup

theorem lookup_setItem (key : String) (value : α) (items : List (String × α)) :
    List.lookup key (setItem key value items) = some value := by
  induction items with
  | nil => simp [setItem]
  | cons item items ih =>
    rw [setItem]
    split_ifs with h
    · simp
    · have hne : (key == item.1) = false := by simpa using Ne.symm h
      rw [List.lookup_cons, hne]
      exact ih

theorem lookup_setItem_of_ne (value : α) (items : List (String × α)) {key k : String}
    (h : k ≠ key) : List.lookup k (setItem key value items) = List.lookup k items := by
  have hk : (k == key) = false := by simpa using h
  induction items with
  | nil => simp [setItem, List.lookup_cons, hk]
  | cons item items ih =>
    rw [setItem]
    split_ifs with hitem
    · rw [List.lookup_cons, List.lookup_cons, hitem, hk]
    · rw [List.lookup_cons, List.lookup_cons, ih]

theorem setItem_of_not_mem {key : String} {value : α} {items : List (String × α)}
    (h : key ∉ items.map Prod.fst) : setItem key value items = items ++ [(key, value)] := by
  induction items with
  | nil => rfl
  | cons item items ih =>
    rw [List.map_cons, List.mem_cons, not_or] at h
    rw [setItem, if_neg (Ne.symm h.1), ih h.2, List.cons_append]

theorem foldl_setItem_of_nodup {items added : List (String × α)}
    (h : ((items ++ added).map Prod.fst).Nodup) :
    added.foldl (fun items item => setItem item.1 item.2 items) items = items ++ added := by
  induction added generalizing items with
  | nil => simp
  | cons item added ih =>
    have hnew : item.1 ∉ items.map Prod.fst := by
      intro hmem
      rw [List.map_append, List.nodup_append] at h
      exact h.2.2 _ hmem _ (by simp) rfl
    rw [List.foldl_cons, setItem_of_not_mem hnew, ih]
    · rw [List.append_assoc, List.singleton_append]
    · rw [List.append_assoc, List.singleton_append]
      exact h

/-- The assigned value is read back. -/
@[simp] theorem get?_set (d : PyDict α) (key : String) (value : α) :
    (d.set key value).get? key = some value :=
  lookup_setItem key value d.items

/-- The other values are left alone. -/
theorem get?_set_of_ne (d : PyDict α) {key k : String} (value : α) (h : k ≠ key) :
    (d.set key value).get? k = d.get? k :=
  lookup_setItem_of_ne value d.items h

/-- An item is a key with its value. -/
theorem mem_items_iff (d : PyDict α) {key : String} {value : α} :
    (key, value) ∈ d.items ↔ d.get? key = some value := by
  obtain ⟨items, hnodup⟩ := d
  show (key, value) ∈ items ↔ List.lookup key items = some value
  induction items with
  | nil => simp
  | cons item items ih =>
    rw [List.map_cons, List.nodup_cons] at hnodup
    rw [List.mem_cons, List.lookup_cons]
    by_cases h : key = item.1
    · subst h
      have hnot : (item.1, value) ∉ items := fun hmem =>
        hnodup.1 (List.mem_map.mpr ⟨_, hmem, rfl⟩)
      simp [hnot, Prod.ext_iff, eq_comm]
    · have hne : (key == item.1) = false := by simpa using h
      have hpair : (key, value) ≠ item := fun heq => h (by rw [← heq])
      simp [hne, hpair, ih hnodup.2]

/-- A dictionary with a function applied to its values. -/
def mapValues (f : α → α) (d : PyDict α) : PyDict α where
  items := d.items.map fun item => (item.1, f item.2)
  nodup := by
    rw [List.map_map]
    exact d.nodup

/-- The value of a key after a function was applied to the values. -/
theorem get?_mapValues (f : α → α) (d : PyDict α) (key : String) :
    (d.mapValues f).get? key = (d.get? key).map f := by
  obtain ⟨items, hnodup⟩ := d
  show List.lookup key (items.map fun item => (item.1, f item.2)) = (List.lookup key items).map f
  clear hnodup
  induction items with
  | nil => rfl
  | cons item items ih =>
    rw [List.map_cons, List.lookup_cons, List.lookup_cons, ih]
    cases key == item.1 <;> rfl

theorem mapValues_eq_self_iff {f : α → α} {d : PyDict α} :
    d.mapValues f = d ↔ ∀ item ∈ d.items, f item.2 = item.2 := by
  rw [PyDict.ext_iff]
  show d.items.map (fun item => (item.1, f item.2)) = d.items ↔ _
  have hsame := List.map_inj_left (l := d.items) (f := fun item => (item.1, f item.2)) (g := id)
  rw [List.map_id] at hsame
  rw [hsame]
  simp [Prod.ext_iff]

end PyDict

/-! ## Values -/

/-- A float; `finite 0` is the positive zero. -/
inductive PyFloat where
  | finite (q : ℚ)
  | negativeZero
  | infinite (negative : Bool)
  | nan
  deriving DecidableEq

/-- A `Decimal`: `coefficient * 10 ^ exponent` under a sign, or a special value. -/
inductive PyDecimal where
  | finite (negative : Bool) (coefficient : ℕ) (exponent : ℤ)
  | infinite (negative : Bool)
  | nan (signaling : Bool)
  deriving DecidableEq

/-- The days of the years 1 to 9999. -/
def maxOrdinal : ℕ := 3652059

/-- The microseconds of a day. -/
def dayMicroseconds : ℕ := 86400000000

/-- A `datetime`: the microseconds its own clock counts from the start of the year 1, and the
offset of that clock from UTC when it is aware. -/
structure PyDatetime where
  moment : ℕ
  utcoffset : Option ℤ
  inRange : moment < maxOrdinal * dayMicroseconds
  deriving DecidableEq

/-- A `date`: the days from the start of the year 1. -/
structure PyDate where
  day : ℕ
  inRange : day < maxOrdinal
  deriving DecidableEq

/-- A `time`: the microseconds from midnight. -/
structure PyTime where
  moment : ℕ
  inRange : moment < dayMicroseconds
  deriving DecidableEq

/-- A value of a column.  A value of a class that is none of the others is the text `str` gives
for it. -/
inductive PyValue where
  | none
  | str (s : String)
  | bool (b : Bool)
  | int (z : ℤ)
  | float (x : PyFloat)
  | decimal (d : PyDecimal)
  | datetime (d : PyDatetime)
  | date (d : PyDate)
  | time (t : PyTime)
  | bytes (b : List UInt8)
  | list (elements : List PyValue)
  | dict (items : List (String × PyValue))
  | other (typeName text : String)

/-- The exceptions that formatting or hashing a value raises. -/
inductive PyException where
  | decimalOverflow
  | decimalInvalidOperation
  | dateOverflow
  | notSerializable (typeName : String)
  | unhashable (typeName : String)
  | signalingNanHash
  deriving DecidableEq

/-- `str` of an exception. -/
def PyException.str : PyException → String
  | .decimalOverflow => "[<class 'decimal.Overflow'>]"
  | .decimalInvalidOperation => "[<class 'decimal.InvalidOperation'>]"
  | .dateOverflow => "date value out of range"
  | .notSerializable typeName => s!"Object of type {typeName} is not JSON serializable"
  | .unhashable typeName => s!"unhashable type: '{typeName}'"
  | .signalingNanHash => "Cannot hash a signaling NaN value"

/-! ## Numbers as texts -/

/-- The numeral of a number, filled up with zeros on the left. -/
def zfill (width n : ℕ) : List Char :=
  List.replicate (width - n.repr.toList.length) '0' ++ n.repr.toList

/-- The digits of a positive number that has at most `k` significant ones, without zeros at
their end, and the exponent of the first digit. -/
def significantDigits (k : ℕ) (r : ℚ) : List Char × ℤ :=
  let exponent := Int.log 10 r
  let coefficient := ⌊r / (10 : ℚ) ^ (exponent - (k - 1 : ℕ))⌋.toNat
  (coefficient.repr.toList.rdropWhile (· == '0'), exponent)

/-- Digits in positional notation, the first of them with the given exponent. -/
def positionalText (digits : List Char) (exponent : ℤ) : List Char :=
  if exponent < 0 then '0' :: '.' :: (List.replicate (-exponent - 1).toNat '0' ++ digits)
  else if digits.length ≤ exponent.toNat + 1 then
    digits ++ List.replicate (exponent.toNat + 1 - digits.length) '0'
  else digits.take (exponent.toNat + 1) ++ '.' :: digits.drop (exponent.toNat + 1)

/-- Digits with a point after the first of them. -/
def mantissaText : List Char → List Char
  | [] => []
  | [d] => [d]
  | d :: digits => d :: '.' :: digits

/-- An exponent under its sign. -/
def exponentText (width : ℕ) (exponent : ℤ) : List Char :=
  (if exponent < 0 then '-' else '+') :: zfill width exponent.natAbs

/-- A minus sign, or nothing. -/
def signText (negative : Bool) : List Char := if negative then ['-'] else []

/-- `str` of an integer. -/
def intText (z : ℤ) : String := String.ofList (signText (z < 0) ++ z.natAbs.repr.toList)

/-- A finite nonzero float of at most `k` significant digits: positional when the exponent is
at least -4 and below the limit. -/
def finiteFloatText (k : ℕ) (limit : ℤ) (q : ℚ) : List Char :=
  let (digits, exponent) := significantDigits k |q|
  signText (q < 0) ++
    if -4 ≤ exponent ∧ exponent < limit then positionalText digits exponent
    else mantissaText digits ++ 'e' :: exponentText 2 exponent

/-- Twelve decimal digits. -/
def twelveDigits : Format where
  base := 10
  digits := 12
  maxExponent := 308
  one_lt_base := one_lt_ten
  digits_pos := by decide

/-- The format `.12g` of a float. -/
def PyFloat.format12g : PyFloat → String
  | .finite q =>
    if q = 0 then "0" else String.ofList (finiteFloatText 12 12 (twelveDigits.nearest q))
  | .negativeZero => "-0"
  | .infinite negative => String.ofList (signText negative ++ "inf".toList)
  | .nan => "nan"

/-- A positional numeral of a float has a fraction. -/
def withFraction (text : List Char) : List Char :=
  if '.' ∈ text ∨ 'e' ∈ text then text else text ++ ['.', '0']

/-- `json.dumps` of a float: its shortest numeral, and the names of the special values. -/
def PyFloat.jsonText : PyFloat → String
  | .finite q =>
    if q = 0 then "0.0"
    else String.ofList (withFraction (finiteFloatText 17 16 (PyNumber.reprFloat q)))
  | .negativeZero => "-0.0"
  | .infinite negative => String.ofList (signText negative ++ "Infinity".toList)
  | .nan => "NaN"

/-! ## Decimals -/

namespace PyDecimal

/-- Round a coefficient to the 28 digits of the context, half to even. -/
def fix (coefficient : ℕ) (exponent : ℤ) : ℕ × ℤ :=
  let excess := coefficient.repr.toList.length - 28
  ((roundHalfEven ((coefficient : ℚ) / 10 ^ excess)).toNat, exponent + excess)

/-- Move the zeros at the end of a coefficient into the exponent. -/
def stripZeros (coefficient : ℕ) (exponent : ℤ) : ℕ × ℤ :=
  let zeros := (coefficient.repr.toList.rtakeWhile (· == '0')).length
  if coefficient = 0 then (0, 0) else (coefficient / 10 ^ zeros, exponent + zeros)

/-- `Decimal.normalize`. -/
def normalize : PyDecimal → Except PyException PyDecimal
  | .finite negative coefficient exponent =>
    let (rounded, raised) := fix coefficient exponent
    let (stripped, shown) := stripZeros rounded raised
    if 999999 < shown + stripped.repr.toList.length - 1 then .error .decimalOverflow
    else .ok (.finite negative stripped shown)
  | .infinite negative => .ok (.infinite negative)
  | .nan false => .ok (.nan false)
  | .nan true => .error .decimalInvalidOperation

/-- `str` of a decimal. -/
def str : PyDecimal → String
  | .finite negative coefficient exponent =>
    let digits := coefficient.repr.toList
    let leading := exponent + digits.length - 1
    String.ofList (signText negative ++
      if exponent ≤ 0 ∧ -7 < leading then positionalText digits leading
      else mantissaText digits ++
        if leading = 0 then [] else 'E' :: exponentText 0 leading)
  | .infinite negative => String.ofList (signText negative ++ "Infinity".toList)
  | .nan false => "NaN"
  | .nan true => "sNaN"

end PyDecimal

/-! ## Dates and times -/

/-- Whether a year has a 29th of February. -/
def isLeap (year : ℕ) : Bool := year % 4 == 0 && (year % 100 != 0 || year % 400 == 0)

/-- The lengths of the months of a year. -/
def monthLengths (year : ℕ) : List ℕ :=
  [31, if isLeap year then 29 else 28, 31, 30, 31, 30, 31, 31, 30, 31, 30, 31]

/-- The month a day of the year lies in, and the day of that month, both from 1. -/
def monthOfDay : ℕ → List ℕ → ℕ → ℕ × ℕ
  | month, [], day => (month, day + 1)
  | month, length :: lengths, day =>
    if day < length then (month, day + 1) else monthOfDay (month + 1) lengths (day - length)

/-- The days before a year. -/
def daysBeforeYear (year : ℕ) : ℕ :=
  let y := year - 1
  y * 365 + y / 4 - y / 100 + y / 400

/-- The year of a day counted from the start of the year 1: a guess by the mean length of a
year, which is late by at most one year. -/
def yearOfDay (day : ℕ) : ℕ :=
  let guess := day * 400 / 146097 + 2
  if daysBeforeYear guess ≤ day then guess else guess - 1

/-- A day in the format `%Y-%m-%d`. -/
def dateText (day : ℕ) : List Char :=
  let year := yearOfDay day
  let (month, dayOfMonth) := monthOfDay 1 (monthLengths year) (day - daysBeforeYear year)
  zfill 4 year ++ '-' :: zfill 2 month ++ '-' :: zfill 2 dayOfMonth

/-- A moment of a day in the format `%H:%M:%S.%f`. -/
def timeText (moment : ℕ) : List Char :=
  zfill 2 (moment / 3600000000) ++ ':' :: zfill 2 (moment / 60000000 % 60) ++
    ':' :: zfill 2 (moment / 1000000 % 60) ++ '.' :: zfill 6 (moment % 1000000)

/-- A moment in the format `%Y-%m-%dT%H:%M:%S.%f`. -/
def datetimeText (moment : ℕ) : String :=
  String.ofList (dateText (moment / dayMicroseconds) ++ 'T' :: timeText (moment % dayMicroseconds))

/-- The moment on the clock of UTC, for an aware `datetime`; its own clock's otherwise. -/
def PyDatetime.astimezoneUtc (d : PyDatetime) : Except PyException ℕ :=
  match d.utcoffset with
  | none => .ok d.moment
  | some offset =>
    let moment := (d.moment : ℤ) - offset
    if 0 ≤ moment ∧ moment < maxOrdinal * dayMicroseconds then .ok moment.toNat
    else .error .dateOverflow

/-! ## Bytes and JSON -/

/-- `bytes.hex`. -/
def hexText (b : List UInt8) : String :=
  String.ofList (b.flatMap fun x =>
    [Nat.digitChar (x.toNat / 16), Nat.digitChar (x.toNat % 16)])

/-- A character of a JSON text, with `ensure_ascii=False`. -/
def jsonChar (c : Char) : List Char :=
  if c = '"' then ['\\', '"']
  else if c = '\\' then ['\\', '\\']
  else if c = '\n' then ['\\', 'n']
  else if c = '\r' then ['\\', 'r']
  else if c = '\t' then ['\\', 't']
  else if c.toNat = 12 then ['\\', 'f']
  else if c.toNat = 8 then ['\\', 'b']
  else if c.toNat < 32 then
    ['\\', 'u', '0', '0', Nat.digitChar (c.toNat / 16), Nat.digitChar (c.toNat % 16)]
  else [c]

/-- A JSON text. -/
def jsonString (s : String) : String :=
  String.ofList ('"' :: (s.toList.flatMap jsonChar ++ ['"']))

mutual

/-- `json.dumps(val, sort_keys=True, separators=(",", ":"), ensure_ascii=False)`. -/
def PyValue.jsonDumps : PyValue → Except PyException String
  | .none => .ok "null"
  | .str s => .ok (jsonString s)
  | .bool b => .ok (if b then "true" else "false")
  | .int z => .ok (intText z)
  | .float x => .ok x.jsonText
  | .decimal _ => .error (.notSerializable "Decimal")
  | .datetime _ => .error (.notSerializable "datetime")
  | .date _ => .error (.notSerializable "date")
  | .time _ => .error (.notSerializable "time")
  | .bytes _ => .error (.notSerializable "bytes")
  | .other typeName _ => .error (.notSerializable typeName)
  | .list elements => do
      let texts ← dumpsElements elements
      return "[" ++ ",".intercalate texts ++ "]"
  | .dict items => do
      let members ← dumpsMembers items
      let sorted := members.insertionSort fun a b => a.1 ≤ b.1
      return "\x7b" ++ ",".intercalate (sorted.map fun m => jsonString m.1 ++ ":" ++ m.2) ++ "\x7d"

/-- The texts of the elements of a list. -/
def PyValue.dumpsElements : List PyValue → Except PyException (List String)
  | [] => .ok []
  | v :: vs => do
      let text ← v.jsonDumps
      let texts ← dumpsElements vs
      return text :: texts

/-- The keys of a dictionary with the texts of their values. -/
def PyValue.dumpsMembers : List (String × PyValue) → Except PyException (List (String × String))
  | [] => .ok []
  | (key, v) :: items => do
      let text ← v.jsonDumps
      let members ← dumpsMembers items
      return (key, text) :: members

end
