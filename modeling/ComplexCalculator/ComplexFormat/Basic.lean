import ComplexCalculator.ComplexNumber.Basic
import ComplexCalculator.Failure.Basic

/-!
# The text of complex numbers

A complex number is written as its real part, a sign between blanks, the absolute
value of its imaginary part and the symbol of the imaginary unit, both parts with the
same number of decimal places.  Finite parts are the exact values, rounded half to
even; what is rounded to zero has no minus sign.
-/

namespace ComplexCalculator

namespace Magnitude

/-- The number of units of the last decimal place, rounded half to even. -/
def roundedPlaces (x : Magnitude) (places : Nat) : Nat :=
  roundHalfEven (x.units * power 10 places) (power 2 Binary64.unitBits)

end Magnitude

/-- A number of units of the last of `places` decimal places, written with a point. -/
def fixedText (places n : Nat) : List Char :=
  let digits := Text.numeral 10 (places + 1) n
  let whole := digits.length - places
  digits.take whole ++ if places = 0 then [] else '.' :: digits.drop whole

/-- How complex numbers are written and read. -/
structure ComplexFormat where
  /-- The number of decimal places of both parts. -/
  precision : Nat
  symbol : String

namespace ComplexFormat

/-- The precision that an unchecked value stands for. -/
def checkPrecision : Datum → Except Failure Nat
  | .integer (.ofNat n) => .ok n
  | given => .error (.invalidPrecision given)

/-- The format with an unchecked precision and an unchecked symbol, of which the
precision is checked first. -/
def create (precision symbol : Datum) : Except Failure ComplexFormat := do
  let places ← checkPrecision precision
  let symbol ← symbol.asText
  return ⟨places, symbol⟩

/-- The largest number of places that a finite part can be written with. -/
def maxPlaces : Nat := power 2 31 - 1

/-- The largest number of places that fits a machine word. -/
def maxWord : Nat := power 2 63 - 1

/-- The number of places for a finite part. -/
def finitePlaces (f : ComplexFormat) : Except Failure Nat :=
  if maxWord < f.precision then .error .tooManyDigits
  else if maxPlaces < f.precision then .error .precisionTooBig
  else .ok f.precision

def nanMarker : List Char := "(NaN)".toList

def infinityMarker (negative : Bool) : List Char :=
  if negative then "(-Infinity)".toList else "(Infinity)".toList

/-- The text of the absolute value of a number. -/
def partText (f : ComplexFormat) : Binary64 → Except Failure (List Char)
  | .nan => .ok nanMarker
  | .infinite _ => .ok (infinityMarker false)
  | .finite _ x => f.finitePlaces.map fun places => fixedText places (x.roundedPlaces places)

/-- Whether a number is written with a minus sign. -/
def showsMinus (f : ComplexFormat) : Binary64 → Bool
  | .nan => false
  | .infinite negative => negative
  | .finite negative x => negative && x.roundedPlaces f.precision != 0

/-- The text of a real part, with its sign. -/
def realText (f : ComplexFormat) : Binary64 → Except Failure (List Char)
  | .infinite negative => .ok (infinityMarker negative)
  | x => (f.partText x).map fun text => if f.showsMinus x then '-' :: text else text

/-- The text of a complex number; the imaginary part is written first. -/
def format (f : ComplexFormat) (z : ComplexNumber) : Except Failure String := do
  let imaginary ← f.partText z.im
  let real ← f.realText z.re
  let sign := if f.showsMinus z.im then '-' else '+'
  return String.ofList (real ++ ' ' :: sign :: ' ' :: imaginary ++ f.symbol.toList)

end ComplexFormat

end ComplexCalculator
