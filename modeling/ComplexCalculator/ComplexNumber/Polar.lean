import ComplexCalculator.ComplexNumber.Basic
import ComplexCalculator.FixedPoint.Exponential
import ComplexCalculator.FixedPoint.Trigonometric

/-!
# Absolute value and angle

The polar coordinates of a complex number, with the square root and the logarithm
that are read off them.  The branch cuts lie on the negative real axis, and the sign
of a zero imaginary part tells the two sides of a cut apart.
-/

namespace ComplexCalculator

namespace Binary64

/-- A fixed-point number that is not negative, rounded and given a sign. -/
def ofMagnitude (negative : Bool) (x : FixedPoint) : Binary64 :=
  (x.toBinary64 false).withSign negative

/-- The half turn with a sign. -/
def halfTurn (negative : Bool) : Binary64 := ofMagnitude negative FixedPoint.pi

/-- The right angle with a sign. -/
def quarterTurn (negative : Bool) : Binary64 := ofMagnitude negative FixedPoint.rightAngle

/-- Half the right angle with a sign. -/
def eighthTurn (negative : Bool) : Binary64 :=
  ofMagnitude negative (FixedPoint.rightAngle.scale (-1))

/-- The exact absolute value of a finite number. -/
def size (x : Binary64) : FixedPoint := (FixedPoint.ofBinary64 x).abs

/-- One for an infinity and zero for any other number: the direction in which an
infinite point lies. -/
def direction (x : Binary64) : FixedPoint := if x.isInfinite then 1 else 0

end Binary64

namespace ComplexNumber

open FixedPoint (angle hypot pi)

/-- The absolute value as a number; infinite if one part is, whatever the other. -/
def modulus (z : ComplexNumber) : Binary64 :=
  if z.re.isInfinite || z.im.isInfinite then .infinite false
  else if z.re.isNaN || z.im.isNaN then .nan
  else .ofMagnitude false (hypot z.re.size z.im.size)

/-- The angle from the positive real axis, between minus and plus a half turn. -/
def argument (z : ComplexNumber) : Binary64 :=
  if z.re.isNaN || z.im.isNaN then .nan
  else
    let infinite := z.re.isInfinite || z.im.isInfinite
    let x := if infinite then z.re.direction else z.re.size
    let y := if infinite then z.im.direction else z.im.size
    let acute := angle x y
    .ofMagnitude z.im.isNegative (if z.re.isNegative then pi - acute else acute)

/-- The absolute value as a complex number. -/
def abs (z : ComplexNumber) : ComplexNumber := ofReal z.modulus

/-- The angle as a complex number. -/
def arg (z : ComplexNumber) : ComplexNumber := ofReal z.argument

/-- The logarithm of the absolute value of a number that has no NaN part. -/
def logModulus (z : ComplexNumber) : Binary64 :=
  if z.re.isInfinite || z.im.isInfinite then .infinite false
  else if z.isZero then .infinite true
  else ((z.re.size * z.re.size + z.im.size * z.im.size).log.scale (-1)).toBinary64 false

def log (z : ComplexNumber) : ComplexNumber :=
  match z.re, z.im with
  | .nan, .infinite _ | .infinite _, .nan => ⟨.infinite false, .nan⟩
  | .nan, _ | _, .nan => nan
  | _, _ => ⟨z.logModulus, z.argument⟩

/-- The two parts of the principal square root of a point in the first quadrant, the
larger first: half the sum and half the difference of the absolute value and the
real part, under the root. -/
def rootParts (x y : FixedPoint) : FixedPoint × FixedPoint :=
  let modulus := hypot x y
  (((modulus + x).scale (-1)).sqrt, ((modulus - x).scale (-1)).sqrt)

def sqrt (z : ComplexNumber) : ComplexNumber :=
  let below := z.im.isNegative
  match z.re, z.im with
  | _, .infinite _ => ⟨.infinite false, z.im⟩
  | .infinite true, .nan => ⟨.nan, .infinite below⟩
  | .infinite true, _ => ⟨.zero, .infinite below⟩
  | .infinite false, .nan => ⟨.infinite false, .nan⟩
  | .infinite false, _ => ⟨.infinite false, .signedZero below⟩
  | .nan, _ | _, .nan => nan
  | .finite .., .finite .. =>
    let (large, small) := rootParts z.re.size z.im.size
    if z.re.isNegative then ⟨.ofMagnitude false small, .ofMagnitude below large⟩
    else ⟨.ofMagnitude false large, .ofMagnitude below small⟩

end ComplexNumber

end ComplexCalculator
