import ComplexCalculator.Binary64.Basic

/-!
# Decimal numbers

A non-negative number written in base ten: a significand and a power of ten.
`Decimal.nearest` gives the double-precision number that it is read as.
-/

namespace ComplexCalculator

/-- The number `significand * 10 ^ exponent`. -/
structure Decimal where
  /-- All digits, without the point. -/
  significand : Nat
  /-- The power of ten that the significand is multiplied by. -/
  exponent : Int
  deriving DecidableEq, Repr

namespace Decimal

open Binary64 (ofRatio signedZero unitBits)

/-- The double-precision number nearest to the decimal one, with the given sign.  A
positive exponent of 400 lies beyond the range whatever the significand, and the
bound in the other direction leaves less than a quarter of the smallest unit; both
spare the powers of ten that need not be computed. -/
def nearest (negative : Bool) (d : Decimal) : Binary64 :=
  match d.exponent with
  | .ofNat scale =>
    if d.significand = 0 then signedZero negative
    else if 400 ≤ scale then .infinite negative
    else ofRatio negative (d.significand * power 10 scale * power 2 unitBits) 1
  | .negSucc scale =>
    if d.significand.log2 + unitBits + 3 ≤ 3 * (scale + 1) then signedZero negative
    else ofRatio negative (d.significand * power 2 unitBits) (power 10 (scale + 1))

/-- The power of ten of the first digit. -/
def leadingExponent (d : Decimal) : Int :=
  (Nat.toDigits 10 d.significand).length - 1 + d.exponent

end Decimal

end ComplexCalculator
