import ComplexCalculator.FixedPoint.Basic

/-!
# The exponential function and the logarithm

Both reduce their argument by a power of two and sum a power series by Horner's
rule, with as many terms as the fixed-point step needs.
-/

namespace ComplexCalculator.FixedPoint

/-- The series `1 + x + x ^ 2 / 2! + ⋯`, for `x` between `-1/2` and `1/2`. -/
def expSeries (x : FixedPoint) : FixedPoint :=
  (List.range 300).foldr (fun n tail => 1 + (x * tail).divNat (n + 1)) 1

/-- The series `t + t ^ 3 / 3 + t ^ 5 / 5 + ⋯` of the inverse hyperbolic tangent, for
`t` between `-1/5` and `1/5`. -/
def artanhSeries (t : FixedPoint) : FixedPoint :=
  let square := t * t
  t * (List.range 500).foldr (fun n tail => (1 : FixedPoint).divNat (2 * n + 1) + square * tail) 0

/-- The logarithm of a number between `2/3` and `3/2`. -/
def logNearOne (x : FixedPoint) : FixedPoint :=
  (artanhSeries ((x - 1) / (x + 1))).scale 1

def logTwo : FixedPoint := (logNearOne (2 : FixedPoint).sqrt).scale 1

/-- The natural logarithm of a positive number. -/
def log (x : FixedPoint) : FixedPoint :=
  let exponent : Int := x.steps.toNat.log2 - fractionBits
  let mantissa := x.scale (-exponent)
  let (exponent, mantissa) :=
    if mantissa * mantissa ≤ 2 then (exponent, mantissa) else (exponent + 1, mantissa.scale (-1))
  ⟨exponent * logTwo.steps⟩ + logNearOne mantissa

/-- The exponential function.  Beyond `4096` in absolute value the argument is cut
off: its exponential, and any multiple of it by a sine or cosine of a double, is too
large or too small for double precision. -/
def exp (x : FixedPoint) : FixedPoint :=
  let x := max (ofInt (-4096)) (min 4096 x)
  let exponent := (x / logTwo).round
  (expSeries (x - ⟨exponent * logTwo.steps⟩)).scale exponent

def cosh (x : FixedPoint) : FixedPoint := (exp x + exp (-x)).scale (-1)

def sinh (x : FixedPoint) : FixedPoint := (exp x - exp (-x)).scale (-1)

end ComplexCalculator.FixedPoint
