import ComplexCalculator.ComplexNumber.Polar

/-!
# Inverse circular functions

Arc sine and arc tangent are computed in the first quadrant and carried to the others
by their symmetries, so that on a branch cut the sign of the zero part picks the
side.  The arc cosine is the complement of the arc sine to a right angle.
-/

namespace ComplexCalculator.ComplexNumber

open FixedPoint (angle hypot pi rightAngle)

/-- The arc sine of a point in the first quadrant.  With `s - it` the principal root
of `1 - z²`, it is the angle and the logarithm of the length of `(s + y) + i(t + x)`. -/
def quadrantArcsin (x y : FixedPoint) : FixedPoint × FixedPoint :=
  let difference := 1 - x * x + y * y
  let (large, small) := rootParts difference.abs ((x * y).scale 1)
  let (s, t) := if difference < 0 then (small, large) else (large, small)
  let across := y + s
  let along := x + t
  (angle across along, max 0 ((across * across + along * along).log.scale (-1)))

def asin (z : ComplexNumber) : ComplexNumber :=
  let left := z.re.isNegative
  let below := z.im.isNegative
  match z.re, z.im with
  | .nan, .infinite _ | .infinite _, .nan => ⟨.nan, .infinite below⟩
  | .nan, _ => nan
  | .finite .., .nan => if z.re.isZero then z else nan
  | .infinite _, .infinite _ => ⟨.eighthTurn left, z.im⟩
  | .infinite _, .finite .. => ⟨.quarterTurn left, .infinite below⟩
  | .finite .., .infinite _ => ⟨.signedZero left, z.im⟩
  | .finite .., .finite .. =>
    let (u, v) := quadrantArcsin z.re.size z.im.size
    ⟨.ofMagnitude left u, .ofMagnitude below v⟩

def acos (z : ComplexNumber) : ComplexNumber :=
  if z.isFinite then
    let (u, v) := quadrantArcsin z.re.size z.im.size
    let complement := if z.re.isNegative then rightAngle + u else rightAngle - u
    ⟨.ofMagnitude false complement, .ofMagnitude (!z.im.isNegative) v⟩
  else
    let w := asin z
    ⟨.quarterTurn false - w.re, -w.im⟩

/-- The arc tangent of a point in the first quadrant.  Its real part is half the angle
of `(1 - x² - y²) + 2ix`, its imaginary part a quarter of the logarithm of the ratio
of the squared distances to `-i` and to `i`; at `i` the latter is infinite. -/
def quadrantArctan (x y : FixedPoint) : FixedPoint × Option FixedPoint :=
  let across := 1 - x * x - y * y
  let along := x.scale 1
  let doubled := if across < 0 then pi - angle (-across) along else angle across along
  let far := x * x + (1 + y) * (1 + y)
  let near := x * x + (1 - y) * (1 - y)
  (doubled.scale (-1), if near = 0 then none else some ((far / near).log.scale (-2)))

def atan (z : ComplexNumber) : ComplexNumber :=
  let left := z.re.isNegative
  let below := z.im.isNegative
  match z.re, z.im with
  | .infinite _, _ | .finite .., .infinite _ => ⟨.quarterTurn left, .signedZero below⟩
  | .nan, .infinite _ => ⟨.nan, .signedZero below⟩
  | .nan, _ => ⟨.nan, if z.im.isZero then z.im else .nan⟩
  | .finite .., .nan => nan
  | .finite .., .finite .. =>
    let (u, v) := quadrantArctan z.re.size z.im.size
    ⟨.ofMagnitude left u, (v.map (.ofMagnitude below)).getD (.infinite below)⟩

end ComplexCalculator.ComplexNumber
