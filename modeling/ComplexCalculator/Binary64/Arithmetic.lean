import ComplexCalculator.Binary64.Basic

/-!
# Arithmetic in double precision

Sum, difference, product and quotient: each is the exact result, rounded once.  An
operation on infinities and zeros that has no limit gives NaN, and NaN is kept by
every operation.  Sums that cancel are positive zero.
-/

namespace ComplexCalculator.Binary64

/-- The integer with the given sign and absolute value. -/
def signedUnits (negative : Bool) (units : Nat) : Int :=
  if negative then -(units : Int) else units

def add : Binary64 → Binary64 → Binary64
  | .nan, _ | _, .nan => .nan
  | .infinite s, .infinite t => if s = t then .infinite s else .nan
  | .infinite s, .finite .. | .finite .., .infinite s => .infinite s
  | .finite s x, .finite t y =>
    let sum := signedUnits s x.units + signedUnits t y.units
    if sum = 0 then signedZero (s && t) else ofRatio (sum < 0) sum.natAbs 1

def sub (x y : Binary64) : Binary64 := x.add (-y)

def mul : Binary64 → Binary64 → Binary64
  | .nan, _ | _, .nan => .nan
  | .infinite s, .infinite t => .infinite (s != t)
  | .infinite s, .finite t x | .finite t x, .infinite s =>
    if x.units = 0 then .nan else .infinite (s != t)
  | .finite s x, .finite t y => ofRatio (s != t) (x.units * y.units) (power 2 unitBits)

def div : Binary64 → Binary64 → Binary64
  | .nan, _ | _, .nan => .nan
  | .infinite _, .infinite _ => .nan
  | .infinite s, .finite t _ => .infinite (s != t)
  | .finite s _, .infinite t => signedZero (s != t)
  | .finite s x, .finite t y =>
    if y.units = 0 then
      if x.units = 0 then .nan else .infinite (s != t)
    else
      ofRatio (s != t) (x.units * power 2 unitBits) y.units

instance : Add Binary64 := ⟨add⟩
instance : Sub Binary64 := ⟨sub⟩
instance : Mul Binary64 := ⟨mul⟩
instance : Div Binary64 := ⟨div⟩

/-- Whether the first number is at most the second; never so for NaN. -/
def le : Binary64 → Binary64 → Bool
  | .nan, _ | _, .nan => false
  | .infinite true, _ | _, .infinite false => true
  | .infinite false, _ | _, .infinite true => false
  | .finite s x, .finite t y => signedUnits s x.units ≤ signedUnits t y.units

/-- The integer that a finite number is, and nothing if it is not whole. -/
def toInt? : Binary64 → Option Int
  | .finite negative x =>
    if x.units % power 2 unitBits = 0 then
      some (signedUnits negative (x.units / power 2 unitBits))
    else none
  | _ => none

end ComplexCalculator.Binary64
