import ComplexCalculator.Binary64.Basic
import ComplexCalculator.Natural.Arithmetic

/-!
# Fixed-point numbers

The elementary functions are computed on whole multiples of `2 ^ (-2304)` and
rounded to double precision once, at the end.  The step is so fine that squares of
the smallest doubles are exact, and that after all cancellation in the formulas for
complex arguments the error stays far below the last bit of any double.

These numbers serve to run the elementary functions.  No result about expressions
depends on how they are computed; `Operation.Basic` says which operations they serve.
-/

namespace ComplexCalculator

/-- A whole multiple of `2 ^ (-2304)`. -/
structure FixedPoint where
  /-- How many steps of `2 ^ (-2304)` the number holds. -/
  steps : Int
  deriving DecidableEq

namespace FixedPoint

/-- The binary digits behind the point. -/
def fractionBits : Nat := 2304

/-- The number of steps of the number one. -/
def stepsPerOne : Nat := power 2 fractionBits

/-- The number of steps of the smallest positive double. -/
def stepsPerUnit : Nat := power 2 (fractionBits - Binary64.unitBits)

/-- The number that an integer is. -/
def ofInt (n : Int) : FixedPoint := ⟨n * stepsPerOne⟩

instance (n : Nat) : OfNat FixedPoint n := ⟨ofInt n⟩
instance : Inhabited FixedPoint := ⟨0⟩

instance : Neg FixedPoint := ⟨fun x => ⟨-x.steps⟩⟩
instance : Add FixedPoint := ⟨fun x y => ⟨x.steps + y.steps⟩⟩
instance : Sub FixedPoint := ⟨fun x y => ⟨x.steps - y.steps⟩⟩

/-- The product, rounded down. -/
instance : Mul FixedPoint := ⟨fun x y => ⟨(x.steps * y.steps) >>> fractionBits⟩⟩

/-- The quotient, rounded down for a positive divisor. -/
instance : Div FixedPoint := ⟨fun x y => ⟨x.steps * stepsPerOne / y.steps⟩⟩

instance : LE FixedPoint := ⟨fun x y => x.steps ≤ y.steps⟩
instance : LT FixedPoint := ⟨fun x y => x.steps < y.steps⟩
instance (x y : FixedPoint) : Decidable (x ≤ y) := inferInstanceAs (Decidable (x.steps ≤ y.steps))
instance (x y : FixedPoint) : Decidable (x < y) := inferInstanceAs (Decidable (x.steps < y.steps))
instance : Min FixedPoint := ⟨fun x y => if x ≤ y then x else y⟩
instance : Max FixedPoint := ⟨fun x y => if x ≤ y then y else x⟩

/-- The number divided by a natural number, rounded down. -/
def divNat (x : FixedPoint) (n : Nat) : FixedPoint := ⟨x.steps / n⟩

/-- The number multiplied by a power of two. -/
def scale (x : FixedPoint) : Int → FixedPoint
  | .ofNat n => ⟨x.steps * power 2 n⟩
  | .negSucc n => ⟨x.steps >>> (n + 1)⟩

/-- The integer nearest to the number. -/
def round (x : FixedPoint) : Int := (x.steps + power 2 (fractionBits - 1)) >>> fractionBits

def abs (x : FixedPoint) : FixedPoint := ⟨x.steps.natAbs⟩

/-- The square root, rounded down; that of a negative number is zero. -/
def sqrt (x : FixedPoint) : FixedPoint :=
  ⟨rootFloor (x.steps.toNat * stepsPerOne)⟩

/-- The length of the hypotenuse over two legs. -/
def hypot (x y : FixedPoint) : FixedPoint := (x * x + y * y).sqrt

/-- The exact value of a finite double-precision number, and zero for another. -/
def ofBinary64 : Binary64 → FixedPoint
  | .finite negative x =>
    let steps : Int := x.units * stepsPerUnit
    ⟨if negative then -steps else steps⟩
  | _ => 0

/-- The nearest double-precision number; a zero takes the given sign. -/
def toBinary64 (x : FixedPoint) (negativeZero : Bool) : Binary64 :=
  let negative := if x.steps = 0 then negativeZero else x.steps < 0
  Binary64.ofRatio negative x.steps.natAbs stepsPerUnit

end FixedPoint

end ComplexCalculator
