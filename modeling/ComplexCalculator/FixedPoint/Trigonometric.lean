import ComplexCalculator.FixedPoint.Basic

/-!
# Trigonometric functions

Sine and cosine subtract a multiple of the right angle and sum their power series;
the angle of a point is found by halving it twice before its series is summed.
-/

namespace ComplexCalculator.FixedPoint

/-- The series `t - t ^ 3 / 3 + t ^ 5 / 5 - ⋯` of the inverse tangent, for `t` between
`-1/5` and `1/5`. -/
def arctanSeries (t : FixedPoint) : FixedPoint :=
  let square := t * t
  t * (List.range 500).foldr (fun n tail => (1 : FixedPoint).divNat (2 * n + 1) - square * tail) 0

/-- The half turn, as `16 arctan (1/5) - 4 arctan (1/239)`. -/
def pi : FixedPoint :=
  (arctanSeries ((1 : FixedPoint).divNat 5)).scale 4 -
    (arctanSeries ((1 : FixedPoint).divNat 239)).scale 2

def rightAngle : FixedPoint := pi.scale (-1)

/-- The tangent of half the angle whose tangent is `t`. -/
def halfAngleTangent (t : FixedPoint) : FixedPoint := t / (1 + (1 + t * t).sqrt)

/-- The inverse tangent of a number between zero and one. -/
def arctanUnit (t : FixedPoint) : FixedPoint :=
  (arctanSeries (halfAngleTangent (halfAngleTangent t))).scale 2

/-- The angle from the positive first axis to a point of the first quadrant, and zero
for the origin. -/
def angle (x y : FixedPoint) : FixedPoint :=
  if y = 0 then 0
  else if y ≤ x then arctanUnit (y / x)
  else rightAngle - arctanUnit (x / y)

/-- The series of the sine, for arguments between `-1` and `1`. -/
def sinSeries (x : FixedPoint) : FixedPoint :=
  let square := x * x
  x * (List.range 170).foldr
    (fun n tail => 1 - (square * tail).divNat ((2 * n + 2) * (2 * n + 3))) 1

/-- The series of the cosine, for arguments between `-1` and `1`. -/
def cosSeries (x : FixedPoint) : FixedPoint :=
  let square := x * x
  (List.range 170).foldr
    (fun n tail => 1 - (square * tail).divNat ((2 * n + 1) * (2 * n + 2))) 1

/-- The cosine and the sine of an angle: with the nearest multiple of the right angle
taken away, they are up to sign those of the rest, in either order. -/
def cosSin (x : FixedPoint) : FixedPoint × FixedPoint :=
  let turns := (x / rightAngle).round
  let rest := x - ⟨turns * rightAngle.steps⟩
  match turns % 4 with
  | 0 => (cosSeries rest, sinSeries rest)
  | 1 => (-sinSeries rest, cosSeries rest)
  | 2 => (-cosSeries rest, -sinSeries rest)
  | _ => (sinSeries rest, -cosSeries rest)

def cos (x : FixedPoint) : FixedPoint := (cosSin x).1

def sin (x : FixedPoint) : FixedPoint := (cosSin x).2

end ComplexCalculator.FixedPoint
