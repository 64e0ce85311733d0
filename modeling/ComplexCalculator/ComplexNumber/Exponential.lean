import ComplexCalculator.ComplexNumber.Polar

/-!
# Exponential, circular and hyperbolic functions

Finite arguments follow the addition theorems, which split each function into real
ones of the two parts.  At infinite arguments the functions take their limits, where
these exist; a part without a limit is NaN.
-/

namespace ComplexCalculator.ComplexNumber

open FixedPoint (cosSin)

/-- The exact parts of a finite number. -/
def exactParts (z : ComplexNumber) : FixedPoint × FixedPoint :=
  (.ofBinary64 z.re, .ofBinary64 z.im)

/-- Whether the cosine and the sine of an angle are negative; the sine of a zero has
the zero's sign. -/
def quadrant (angle : Binary64) : Bool × Bool :=
  let (cos, sin) := cosSin (.ofBinary64 angle)
  (cos < 0, if sin = 0 then angle.isNegative else sin < 0)

/-- The number itself if it is zero, and NaN otherwise. -/
def zeroOrNaN (x : Binary64) : Binary64 := if x.isZero then x else .nan

def exp (z : ComplexNumber) : ComplexNumber :=
  match z.re, z.im with
  | .finite .., .finite .. =>
    let (x, y) := z.exactParts
    let (cos, sin) := cosSin y
    let size := x.exp
    let (left, below) := quadrant z.im
    ⟨(size * cos).toBinary64 left, (size * sin).toBinary64 below⟩
  | .finite .., _ => nan
  | .infinite negative, .finite .. =>
    let size : Binary64 := if negative then .zero else .infinite false
    let (left, below) := quadrant z.im
    if z.im.isZero then ⟨size, z.im⟩ else ⟨size.withSign left, size.withSign below⟩
  | .infinite true, _ => ⟨.zero, .signedZero z.im.isNegative⟩
  | .infinite false, _ => ⟨.infinite false, .nan⟩
  | .nan, _ => ⟨.nan, zeroOrNaN z.im⟩

def sinh (z : ComplexNumber) : ComplexNumber :=
  match z.re, z.im with
  | .finite .., .finite .. =>
    let (x, y) := z.exactParts
    let (cos, sin) := cosSin y
    let (left, below) := quadrant z.im
    ⟨(x.sinh * cos).toBinary64 (z.re.isNegative != left), (x.cosh * sin).toBinary64 below⟩
  | .finite .., _ => ⟨zeroOrNaN z.re, .nan⟩
  | .infinite negative, .finite .. =>
    let (left, below) := quadrant z.im
    if z.im.isZero then z else ⟨.infinite (negative != left), .infinite below⟩
  | .infinite _, _ => ⟨.infinite false, .nan⟩
  | .nan, _ => ⟨.nan, zeroOrNaN z.im⟩

def cosh (z : ComplexNumber) : ComplexNumber :=
  match z.re, z.im with
  | .finite .., .finite .. =>
    let (x, y) := z.exactParts
    let (cos, sin) := cosSin y
    let (left, below) := quadrant z.im
    ⟨(x.cosh * cos).toBinary64 left, (x.sinh * sin).toBinary64 (z.re.isNegative != below)⟩
  | .finite .., _ => ⟨.nan, zeroOrNaN z.re⟩
  | .infinite negative, .finite .. =>
    let (left, below) := quadrant z.im
    if z.im.isZero then ⟨.infinite false, .signedZero (negative != below)⟩
    else ⟨.infinite left, .infinite (negative != below)⟩
  | .infinite _, _ => ⟨.infinite false, .nan⟩
  | .nan, _ => ⟨.nan, zeroOrNaN z.im⟩

def sin (z : ComplexNumber) : ComplexNumber :=
  match z.re, z.im with
  | .finite .., .finite .. =>
    let (x, y) := z.exactParts
    let (cos, sin) := cosSin x
    let (left, below) := quadrant z.re
    ⟨(sin * y.cosh).toBinary64 below, (cos * y.sinh).toBinary64 (z.im.isNegative != left)⟩
  | .finite .., .infinite negative =>
    let (left, below) := quadrant z.re
    if z.re.isZero then z else ⟨.infinite below, .infinite (negative != left)⟩
  | _, .infinite _ => ⟨.nan, .infinite false⟩
  | .finite .., .nan => ⟨zeroOrNaN z.re, .nan⟩
  | _, _ => ⟨.nan, zeroOrNaN z.im⟩

/-- The cosine, as the hyperbolic cosine of the argument turned by a right angle. -/
def cos (z : ComplexNumber) : ComplexNumber := cosh ⟨-z.im, z.re⟩

/-- The hyperbolic tangent of a finite number `x + iy`, with the common denominator
`sinh² x + cos² y`. -/
def finiteTanh (z : ComplexNumber) : ComplexNumber :=
  let (x, y) := z.exactParts
  let (cos, sin) := cosSin y
  let denominator := x.sinh * x.sinh + cos * cos
  ⟨(x.sinh * x.cosh / denominator).toBinary64 z.re.isNegative,
    (sin * cos / denominator).toBinary64 z.im.isNegative⟩

def tanh (z : ComplexNumber) : ComplexNumber :=
  match z.re, z.im with
  | .finite .., .finite .. => finiteTanh z
  | .infinite negative, .finite .. =>
    let (left, below) := quadrant z.im
    ⟨Binary64.one.withSign negative, .signedZero (left != below)⟩
  | .infinite negative, _ => ⟨Binary64.one.withSign negative, .signedZero z.im.isNegative⟩
  | _, _ => if z.im.isZero then z else ⟨zeroOrNaN z.re, .nan⟩

/-- The tangent, as the hyperbolic tangent of the argument turned by a right angle,
turned back. -/
def tan (z : ComplexNumber) : ComplexNumber :=
  let w := tanh ⟨-z.im, z.re⟩
  ⟨w.im, -w.re⟩

end ComplexCalculator.ComplexNumber
