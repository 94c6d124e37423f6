/-
# Python numbers

The integers, floats and `Decimal`s the partitioner computes with.  Two integers add exactly
and divide to a float; an integer next to a float is converted to a float; anything next to a
`Decimal` is computed in the default decimal context.  Float results that overflow are
infinite, while conversions, integer divisions and decimal results that overflow raise.

* `PyNumber.literal` : the value of a number as an f-string prints it.
-/
import Akaal.RoundSignificant

open RoundSignificant

/-! ## Formats -/

/-- Floats: 53 binary digits. -/
def binary64 : Format where
  base := 2
  digits := 53
  maxExponent := 1023
  one_lt_base := by decide
  digits_pos := by decide

/-- The default decimal context: 28 digits. -/
def decimalContext : Format where
  base := 10
  digits := 28
  maxExponent := 999999
  one_lt_base := one_lt_ten
  digits_pos := by decide

/-! ## Numbers -/

/-- A number; `nonFinite` stands for the infinities and nan. -/
inductive PyNumber where
  | int (z : ℤ)
  | float (q : ℚ)
  | decimal (q : ℚ)
  | nonFinite
  deriving DecidableEq

/-- The exceptions of the arithmetic. -/
inductive PyError where
  | overflowError
  | zeroDivisionError
  | typeError
  deriving DecidableEq

namespace PyNumber

/-- The value of a finite number. -/
def value : PyNumber → Option ℚ
  | .int z => some z
  | .float q => some q
  | .decimal q => some q
  | .nonFinite => none

/-- `==`, by value. -/
def eq (a b : PyNumber) : Bool :=
  match a.value, b.value with
  | some p, some q => p == q
  | _, _ => false

/-- `a <= 0`. -/
def nonpos (a : PyNumber) : Bool :=
  match a.value with
  | some q => q ≤ 0
  | none => false

/-- `int(a)`, which truncates towards zero. -/
def toInt (a : PyNumber) : Except PyError ℤ :=
  match a.value with
  | some q => .ok (if 0 ≤ q then ⌊q⌋ else ⌈q⌉)
  | none => .error .overflowError

/-- `float(z)` of an integer. -/
def floatOfInt (z : ℤ) : Except PyError ℚ :=
  match binary64.round z with
  | some q => .ok q
  | none => .error .overflowError

/-- The float nearest to a result. -/
def floatResult (q : ℚ) : PyNumber :=
  match binary64.round q with
  | some q => .float q
  | none => .nonFinite

/-- The `Decimal` nearest to a result. -/
def decimalResult (q : ℚ) : Except PyError PyNumber :=
  match decimalContext.round q with
  | some q => .ok (.decimal q)
  | none => .error .overflowError

/-- The coercions of `+`, `-` and `*`. -/
def arith (onInt : ℤ → ℤ → ℤ) (onRat : ℚ → ℚ → ℚ) : PyNumber → PyNumber → Except PyError PyNumber
  | .int a, .int b => .ok (.int (onInt a b))
  | .int a, .float b => (floatOfInt a).map fun p => floatResult (onRat p b)
  | .float a, .int b => (floatOfInt b).map fun q => floatResult (onRat a q)
  | .float a, .float b => .ok (floatResult (onRat a b))
  | .int a, .decimal b => decimalResult (onRat a b)
  | .decimal a, .int b => decimalResult (onRat a b)
  | .decimal a, .decimal b => decimalResult (onRat a b)
  | .decimal _, _ => .error .typeError
  | _, .decimal _ => .error .typeError
  | .int a, .nonFinite => (floatOfInt a).map fun _ => .nonFinite
  | .nonFinite, .int b => (floatOfInt b).map fun _ => .nonFinite
  | _, _ => .ok .nonFinite

/-- `a + b`. -/
def add (a b : PyNumber) : Except PyError PyNumber := arith (· + ·) (· + ·) a b

/-- `a - b`. -/
def sub (a b : PyNumber) : Except PyError PyNumber := arith (· - ·) (· - ·) a b

/-- `a * b`. -/
def mul (a b : PyNumber) : Except PyError PyNumber := arith (· * ·) (· * ·) a b

/-- `a / b` by an integer `b`. -/
def divInt (a : PyNumber) (b : ℤ) : Except PyError PyNumber :=
  if b = 0 then .error .zeroDivisionError
  else
    match a with
    | .int a =>
      -- the quotient is rounded once, and one that does not fit raises
      match binary64.round ((a : ℚ) / b) with
      | some q => .ok (.float q)
      | none => .error .overflowError
    | .float a => (floatOfInt b).map fun q => floatResult (a / q)
    | .decimal a => decimalResult (a / b)
    | .nonFinite => (floatOfInt b).map fun _ => .nonFinite

/-- `repr` of a float: its shortest numeral, of at most seventeen digits. -/
def reprFloat (q : ℚ) : ℚ := binary64.shortest 10 17 q

/-- The value an f-string prints; `inf` and `nan` are not numerals. -/
def literal : PyNumber → Option ℚ
  | .int z => some z
  | .float q => some (reprFloat q)
  | .decimal q => some q
  | .nonFinite => none

/-! ## The kinds of key values -/

/-- The numbers a key column of integers or exact decimals delivers. -/
def IsKey : PyNumber → Prop
  | .int _ => True
  | .decimal _ => True
  | _ => False

end PyNumber
