import ComplexCalculator.Proofs.Expression.Pieces
import ComplexCalculator.Proofs.Rpn.Evaluation

/-!
# Phrases

A phrase is what a user writes: a formula of literals in which a sum may begin with a sign,
and a product may be followed by degree signs.  Its value is defined by recursion on what is
written.  The normal form of a phrase is a formula, which has the same value: a sign at the
beginning gets a zero in front, and a degree sign becomes a product and a quotient.
-/

namespace ComplexCalculator

/-- A sentence of the grammar that users write, at one of its levels. -/
inductive Phrase : Level → Type where
  | literal (l : Literal) : Phrase .factor
  | freeVariable : Phrase .factor
  | bracketed (body : Phrase .sum) : Phrase .factor
  | call (function : UnaryOperation) (argument : Phrase .sum) : Phrase .factor
  | power (base exponent : Phrase .sum) : Phrase .factor
  | single (body : Phrase .factor) : Phrase .product
  | times (left : Phrase .product) (operator : FactorOperator) (right : Phrase .factor) :
      Phrase .product
  | degrees (angle : Phrase .product) : Phrase .product
  | term (body : Phrase .product) : Phrase .sum
  | signed (operator : TermOperator) (body : Phrase .product) : Phrase .sum
  | plus (left : Phrase .sum) (operator : TermOperator) (right : Phrase .product) : Phrase .sum

namespace Phrase

/-- The pieces that a phrase is written with. -/
def pieces : {level : Level} → Phrase level → List (List Char)
  | _, .literal l => [l.text]
  | _, .freeVariable => [Alphabet.variableName.toList]
  | _, .bracketed body =>
    [Alphabet.openBracket] :: (body.pieces ++ [[Alphabet.closeBracket]])
  | _, .call function argument =>
    function.name.toList :: [Alphabet.openBracket] ::
      (argument.pieces ++ [[Alphabet.closeBracket]])
  | _, .power base exponent =>
    BinaryOperation.pow.symbol.toList :: [Alphabet.openBracket] ::
      (base.pieces ++ [Alphabet.separator] :: (exponent.pieces ++ [[Alphabet.closeBracket]]))
  | _, .single body => body.pieces
  | _, .times left operator right =>
    left.pieces ++ operator.operation.symbol.toList :: right.pieces
  | _, .degrees angle => angle.pieces ++ [[Alphabet.degreeSign]]
  | _, .term body => body.pieces
  | _, .signed operator body => operator.operation.symbol.toList :: body.pieces
  | _, .plus left operator right =>
    left.pieces ++ operator.operation.symbol.toList :: right.pieces

/-- Half a turn in radians, with sixteen digits. -/
def halfTurn : ComplexNumber := .ofReal (Decimal.nearest false ⟨3141592653589793, -15⟩)

def halfTurnDegrees : ComplexNumber := .ofReal (Decimal.nearest false ⟨180, 0⟩)

/-- The value of a phrase at a value of the variable.  Every operation rounds its result to
the places of the format; operators associate to the left. -/
def value (f : ComplexFormat) (v : Binary64) :
    {level : Level} → Phrase level → Except Failure ComplexNumber
  | _, .literal l => l.value f
  | _, .freeVariable => .ok (.ofReal v)
  | _, .bracketed body => body.value f v
  | _, .call function argument => do
    let z ← argument.value f v
    f.rounded (function.apply z)
  | _, .power base exponent => do
    let z ← base.value f v
    let w ← exponent.value f v
    f.rounded (z.pow w)
  | _, .single body => body.value f v
  | _, .times left operator right => do
    let z ← left.value f v
    let w ← right.value f v
    f.rounded (operator.operation.apply z w)
  | _, .degrees angle => do
    let z ← angle.value f v
    let w ← f.rounded (z.mul halfTurn)
    f.rounded (w.div halfTurnDegrees)
  | _, .term body => body.value f v
  | _, .signed operator body => do
    let z ← body.value f v
    f.rounded (operator.operation.apply .zero z)
  | _, .plus left operator right => do
    let z ← left.value f v
    let w ← right.value f v
    f.rounded (operator.operation.apply z w)

end Phrase

/-! ## Normal forms -/

/-- The digits of half a turn in radians. -/
def Numeral.halfTurn : Numeral :=
  ⟨['3'], some "141592653589793".toList, none, by decide, by decide⟩

/-- The digits of half a turn in degrees. -/
def Numeral.halfTurnDegrees : Numeral := ⟨"180".toList, none, none, by decide, by decide⟩

namespace Literal

def zero : Literal := .real Numeral.zero (Numeral.unsigned_of_exponent_eq_none rfl)

def halfTurn : Literal := .real Numeral.halfTurn (Numeral.unsigned_of_exponent_eq_none rfl)

def halfTurnDegrees : Literal :=
  .real Numeral.halfTurnDegrees (Numeral.unsigned_of_exponent_eq_none rfl)

theorem value_zero (f : ComplexFormat) : zero.value f = .ok .zero := by
  rw [zero, value, number, Numeral.nearest_zero, ComplexNumber.zero]

theorem value_halfTurn (f : ComplexFormat) : halfTurn.value f = .ok Phrase.halfTurn := by
  have hdecimal : Numeral.halfTurn.decimal = ⟨3141592653589793, -15⟩ := by decide
  rw [halfTurn, value, number, hdecimal, Phrase.halfTurn]

theorem value_halfTurnDegrees (f : ComplexFormat) :
    halfTurnDegrees.value f = .ok Phrase.halfTurnDegrees := by
  have hdecimal : Numeral.halfTurnDegrees.decimal = ⟨180, 0⟩ := by decide
  rw [halfTurnDegrees, value, number, hdecimal, Phrase.halfTurnDegrees]

end Literal

namespace Phrase

/-- The formula that a phrase stands for. -/
def formula : {level : Level} → Phrase level → Formula level
  | _, .literal l => .literal l.name
  | _, .freeVariable => .freeVariable
  | _, .bracketed body => .bracketed body.formula
  | _, .call function argument => .call function argument.formula
  | _, .power base exponent => .power base.formula exponent.formula
  | _, .single body => .single body.formula
  | _, .times left operator right => .times left.formula operator right.formula
  | _, .degrees angle =>
    .times (.times angle.formula .mul (.literal Literal.halfTurn.name)) .div
      (.literal Literal.halfTurnDegrees.name)
  | _, .term body => .term body.formula
  | _, .signed operator body =>
    .plus (.term (.single (.literal Literal.zero.name))) operator body.formula
  | _, .plus left operator right => .plus left.formula operator right.formula

theorem genuine_formula {level : Level} (e : Phrase level) : e.formula.tree.Genuine := by
  induction e with
  | literal l => exact ⟨l, rfl⟩
  | freeVariable => trivial
  | bracketed body ih => exact ih
  | call function argument ih => exact ih
  | power base exponent ihBase ihExponent => exact ⟨ihBase, ihExponent⟩
  | single body ih => exact ih
  | times left operator right ihLeft ihRight => exact ⟨ihLeft, ihRight⟩
  | degrees angle ih => exact ⟨⟨ih, _, rfl⟩, _, rfl⟩
  | term body ih => exact ih
  | signed operator body ih => exact ⟨⟨_, rfl⟩, ih⟩
  | plus left operator right ihLeft ihRight => exact ⟨ihLeft, ihRight⟩

/-- A phrase and the formula that it stands for have the same value. -/
theorem value_formula {f : ComplexFormat} (hsymbol : f.symbol = Alphabet.imaginaryUnit.toString)
    (v : Binary64) {level : Level} (e : Phrase level) :
    e.formula.tree.value f v = e.value f v := by
  induction e with
  | literal l => exact l.literalEntry_read hsymbol
  | freeVariable => rfl
  | bracketed body ih => exact ih
  | call function argument ih => rw [formula, Formula.tree, Tree.value, value, ih]
  | power base exponent ihBase ihExponent =>
      rw [formula, Formula.tree, Tree.value, value, ihBase, ihExponent]
      rfl
  | single body ih => exact ih
  | times left operator right ihLeft ihRight =>
      rw [formula, Formula.tree, Tree.value, value, ihLeft, ihRight]
  | degrees angle ih =>
      have hradians := Literal.halfTurn.literalEntry_read hsymbol
      have hdegrees := Literal.halfTurnDegrees.literalEntry_read hsymbol
      rw [Literal.value_halfTurn] at hradians
      rw [Literal.value_halfTurnDegrees] at hdegrees
      simp only [formula, Formula.tree, Tree.value, value, ih, hradians, hdegrees, ok_bind,
        bind_assoc, FactorOperator.operation, BinaryOperation.apply]
  | term body ih => exact ih
  | signed operator body ih =>
      have hzero := Literal.zero.literalEntry_read hsymbol
      rw [Literal.value_zero] at hzero
      rw [formula, Formula.tree, Tree.value, value, ih]
      rw [Formula.tree, Formula.tree, Formula.tree, Tree.value, hzero]
      rfl
  | plus left operator right ihLeft ihRight =>
      rw [formula, Formula.tree, Tree.value, value, ihLeft, ihRight]

end Phrase

end ComplexCalculator
