import ComplexCalculator.Failure.Basic
import ComplexCalculator.Operation.Basic

/-!
# Values given as operands

A number may be given as a double, an integer, a truth value or a complex number, or
not at all.  Where a real number is wanted, a complex one is refused; an integer is
rounded, and refused if that leads to infinity.
-/

namespace ComplexCalculator

/-- A number of some type, or none. -/
inductive Quantity where
  | absent
  | real (value : Binary64)
  | integer (value : Int)
  /-- A truth value, which counts as one or zero. -/
  | boolean (value : Bool)
  | complex (value : ComplexNumber)

namespace Quantity

/-- The double nearest to an integer, if it is in range. -/
def ofInteger (n : Int) : Except Failure Binary64 :=
  let x := Binary64.ofInt n
  if x.isFinite then .ok x else .error .integerTooLarge

/-- The quantity as a real number. -/
def toReal : Quantity → Except Failure Binary64
  | .absent | .complex _ => .error .notNumber
  | .real x => .ok x
  | .integer n => ofInteger n
  | .boolean b => .ok (if b then .one else .zero)

/-- The quantity as a complex number. -/
def toComplex : Quantity → Except Failure ComplexNumber
  | .complex z => .ok z
  | quantity => quantity.toReal.map .ofReal

/-- The quantity as an operand; an absent one has no value. -/
def toOperand : Quantity → Except Failure ComplexNumber
  | .absent => .ok .nan
  | quantity => quantity.toComplex

end Quantity

namespace Operation

/-- The operation with the given symbol or name, at the given operands. -/
def invoke (name : String) (operands : List Quantity) : Except Failure ComplexNumber :=
  match ofName? name with
  | none => .error (.ofCause (.unrecognizedToken name))
  | some operation =>
    if operands.length ≠ operation.arity then .error .operandCount
    else do
      let values ← operands.mapM Quantity.toOperand
      match operation.applyTo? values with
      | some value => .ok value
      | none => .error .operandCount

end Operation

end ComplexCalculator
