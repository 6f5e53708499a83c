import Mathlib.Data.Nat.Size
import Mathlib.Tactic.Ring

/-!
# Binary floating-point formats

A finite value of a binary interchange format is an integer significand scaled
by a power of two.  `Canonical` pins the one representation of each value, so
that equality of data is equality of numbers (with the two zeros kept apart).
Rounding is to nearest, ties to even; a magnitude past the largest finite
number rounds to infinity, which is what the default IEEE rounding mode does.
-/

namespace Grab.Lib

/-- The parameters of a binary format: the number of significand bits and the
range of the exponent of the last significand bit. -/
structure Format where
  precision : Nat
  minExponent : Int
  maxExponent : Int
  deriving DecidableEq, Repr

/-- The unique scaling of a finite value: a full significand, or a short one at
the smallest exponent (a subnormal or a zero). -/
def Format.Canonical (format : Format) (mantissa : Nat) (exponent : Int) : Prop :=
  mantissa < 2 ^ format.precision ∧
    format.minExponent ≤ exponent ∧ exponent ≤ format.maxExponent ∧
    (2 ^ (format.precision - 1) ≤ mantissa ∨ exponent = format.minExponent)

instance (format : Format) (mantissa : Nat) (exponent : Int) :
    Decidable (format.Canonical mantissa exponent) :=
  inferInstanceAs (Decidable (_ ∧ _))

/-- A datum of a binary format. -/
inductive Binary (format : Format) where
  | finite (negative : Bool) (mantissa : Nat) (exponent : Int)
      (canonical : format.Canonical mantissa exponent)
  | infinity (negative : Bool)
  | nan
  deriving DecidableEq

/-- IEEE binary64. -/
def binary64 : Format := ⟨53, -1074, 971⟩

/-- IEEE binary32. -/
def binary32 : Format := ⟨24, -149, 104⟩

abbrev Double := Binary binary64

abbrev Single := Binary binary32

namespace Binary

variable {format : Format}

/-- Finiteness, the property a number needs to be written as a JSON literal. -/
def isFinite : Binary format → Bool
  | .finite .. => true
  | _ => false

/-- Numeric equality: the two zeros are equal and no NaN equals anything. -/
def numericEq : Binary format → Binary format → Bool
  | .finite negative mantissa exponent _, .finite otherNegative otherMantissa otherExponent _ =>
    mantissa == otherMantissa && exponent == otherExponent &&
      (negative == otherNegative || mantissa == 0)
  | .infinity negative, .infinity otherNegative => negative == otherNegative
  | _, _ => false

/-- Comparison with zero from below: the negative zero is not negative. -/
def isNegative : Binary format → Bool
  | .finite negative mantissa _ _ => negative && mantissa != 0
  | .infinity negative => negative
  | .nan => false

/-- Divide by `2 ^ shift`, rounding to nearest with ties to even. -/
def shiftRounded (mantissa shift : Nat) : Nat :=
  let quotient := mantissa / 2 ^ shift
  let remainder := mantissa % 2 ^ shift
  if 2 ^ shift < 2 * remainder ∨ (2 ^ shift = 2 * remainder ∧ quotient % 2 = 1) then
    quotient + 1
  else
    quotient

/-- Assemble a significand and an exponent.  The only way a rounded pair fails
to be canonical is an exponent past the largest one. -/
def assemble (format : Format) (negative : Bool) (mantissa : Nat) (exponent : Int) :
    Binary format :=
  if canonical : format.Canonical mantissa exponent then
    .finite negative mantissa exponent canonical
  else
    .infinity negative

/-- Round `mantissa * 2 ^ exponent` into a format. -/
def round (format : Format) (negative : Bool) (mantissa : Nat) (exponent : Int) : Binary format :=
  if mantissa = 0 then
    assemble format negative 0 format.minExponent
  else
    let target := max format.minExponent
      (exponent + (Nat.size mantissa : Int) - (format.precision : Int))
    if target ≤ exponent then
      assemble format negative (mantissa * 2 ^ (exponent - target).toNat) target
    else
      let rounded := shiftRounded mantissa (target - exponent).toNat
      -- Rounding up can carry out of the significand.
      if rounded = 2 ^ format.precision then
        assemble format negative (2 ^ (format.precision - 1)) (target + 1)
      else
        assemble format negative rounded target

/-- Conversion between formats, by rounding the exact value. -/
def convert (target : Format) : Binary format → Binary target
  | .finite negative mantissa exponent _ => round target negative mantissa exponent
  | .infinity negative => .infinity negative
  | .nan => .nan

/-- Conversion of an integer, by rounding its magnitude. -/
def ofInt (format : Format) (value : Int) : Binary format :=
  round format (decide (value < 0)) value.natAbs 0

end Binary

end Grab.Lib
