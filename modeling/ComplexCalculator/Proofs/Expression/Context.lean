import ComplexCalculator.Proofs.Expression.ComplexLiteral

/-!
# Sums in phrases

A context is a phrase with a hole in the place of a sum: between brackets, as an argument of
a function, or in front of further terms.  What is written around the hole does not depend on
what fills it, and the value of the filled phrase depends on the value in the hole only.  A
sum whose last step is an operation has a value that is read back from its text, so that its
text can take its place.
-/

namespace ComplexCalculator

namespace Phrase

/-- A phrase with a hole for a sum. -/
inductive Context : Level → Type where
  | hole : Context .sum
  | bracketed (body : Context .sum) : Context .factor
  | call (function : UnaryOperation) (argument : Context .sum) : Context .factor
  | powerBase (base : Context .sum) (exponent : Phrase .sum) : Context .factor
  | powerExponent (base : Phrase .sum) (exponent : Context .sum) : Context .factor
  | single (body : Context .factor) : Context .product
  | timesLeft (left : Context .product) (operator : FactorOperator) (right : Phrase .factor) :
      Context .product
  | timesRight (left : Phrase .product) (operator : FactorOperator) (right : Context .factor) :
      Context .product
  | degrees (angle : Context .product) : Context .product
  | term (body : Context .product) : Context .sum
  | signed (operator : TermOperator) (body : Context .product) : Context .sum
  | plusLeft (left : Context .sum) (operator : TermOperator) (right : Phrase .product) :
      Context .sum
  | plusRight (left : Phrase .sum) (operator : TermOperator) (right : Context .product) :
      Context .sum

namespace Context

/-- The phrase with a sum in the hole. -/
def fill (e : Phrase .sum) : {level : Level} → Context level → Phrase level
  | _, .hole => e
  | _, .bracketed body => .bracketed (body.fill e)
  | _, .call function argument => .call function (argument.fill e)
  | _, .powerBase base exponent => .power (base.fill e) exponent
  | _, .powerExponent base exponent => .power base (exponent.fill e)
  | _, .single body => .single (body.fill e)
  | _, .timesLeft left operator right => .times (left.fill e) operator right
  | _, .timesRight left operator right => .times left operator (right.fill e)
  | _, .degrees angle => .degrees (angle.fill e)
  | _, .term body => .term (body.fill e)
  | _, .signed operator body => .signed operator (body.fill e)
  | _, .plusLeft left operator right => .plus (left.fill e) operator right
  | _, .plusRight left operator right => .plus left operator (right.fill e)

/-- The pieces in front of the hole. -/
def before : {level : Level} → Context level → List (List Char)
  | _, .hole => []
  | _, .bracketed body => [Alphabet.openBracket] :: body.before
  | _, .call function argument =>
    function.name.toList :: [Alphabet.openBracket] :: argument.before
  | _, .powerBase base _ =>
    BinaryOperation.pow.symbol.toList :: [Alphabet.openBracket] :: base.before
  | _, .powerExponent base exponent =>
    BinaryOperation.pow.symbol.toList :: [Alphabet.openBracket] ::
      (base.pieces ++ [Alphabet.separator] :: exponent.before)
  | _, .single body => body.before
  | _, .timesLeft left _ _ => left.before
  | _, .timesRight left operator right =>
    left.pieces ++ operator.operation.symbol.toList :: right.before
  | _, .degrees angle => angle.before
  | _, .term body => body.before
  | _, .signed operator body => operator.operation.symbol.toList :: body.before
  | _, .plusLeft left _ _ => left.before
  | _, .plusRight left operator right =>
    left.pieces ++ operator.operation.symbol.toList :: right.before

/-- The pieces behind the hole. -/
def behind : {level : Level} → Context level → List (List Char)
  | _, .hole => []
  | _, .bracketed body => body.behind ++ [[Alphabet.closeBracket]]
  | _, .call _ argument => argument.behind ++ [[Alphabet.closeBracket]]
  | _, .powerBase base exponent =>
    base.behind ++ [Alphabet.separator] :: (exponent.pieces ++ [[Alphabet.closeBracket]])
  | _, .powerExponent _ exponent => exponent.behind ++ [[Alphabet.closeBracket]]
  | _, .single body => body.behind
  | _, .timesLeft left operator right =>
    left.behind ++ operator.operation.symbol.toList :: right.pieces
  | _, .timesRight _ _ right => right.behind
  | _, .degrees angle => angle.behind ++ [[Alphabet.degreeSign]]
  | _, .term body => body.behind
  | _, .signed _ body => body.behind
  | _, .plusLeft left operator right =>
    left.behind ++ operator.operation.symbol.toList :: right.pieces
  | _, .plusRight _ _ right => right.behind

/-- A filled phrase is written with the pieces around the hole and those of the sum. -/
theorem pieces_fill {level : Level} (c : Context level) (e : Phrase .sum) :
    (c.fill e).pieces = c.before ++ (e.pieces ++ c.behind) := by
  induction c with
  | hole => exact (List.append_nil e.pieces).symm
  | _ => simp [fill, pieces, before, behind, *]

/-- Sums of equal value can be exchanged. -/
theorem value_fill {f : ComplexFormat} {v : Binary64} {e e' : Phrase .sum}
    (h : e'.value f v = e.value f v) {level : Level} (c : Context level) :
    (c.fill e').value f v = (c.fill e).value f v := by
  induction c with
  | hole => exact h
  | bracketed body ih => exact ih
  | single body ih => exact ih
  | term body ih => exact ih
  | _ => simp only [fill, value, *]

end Context

/-- Whether the last step of a phrase is an operation; brackets do not count. -/
def IsOperation : {level : Level} → Phrase level → Prop
  | _, .literal _ => False
  | _, .freeVariable => False
  | _, .bracketed body => body.IsOperation
  | _, .single body => body.IsOperation
  | _, .term body => body.IsOperation
  | _, _ => True

end Phrase

/-- The result of an operation is rounded already. -/
theorem Phrase.settled_value {f : ComplexFormat}
    (hsymbol : f.symbol = Alphabet.imaginaryUnit.toString) {v : Binary64} {level : Level}
    {e : Phrase level} (h : e.IsOperation) {z : ComplexNumber} (hz : e.value f v = .ok z) :
    f.settled z = z := by
  have hrounded {w z : ComplexNumber} (h : f.rounded w = .ok z) : f.settled z = z :=
    ComplexFormat.settled_of_rounded (hsymbol ▸ Alphabet.isBlank_of_mem_imaginaryUnit) h
  have hbind {x : Except Failure ComplexNumber} {g : ComplexNumber → Except Failure ComplexNumber}
      (hg : ∀ {a z}, g a = .ok z → f.settled z = z) {z : ComplexNumber} (h : x >>= g = .ok z) :
      f.settled z = z := by
    obtain ⟨a, -, h⟩ := bind_eq_ok_iff.mp h
    exact hg h
  induction e with
  | literal l => exact h.elim
  | freeVariable => exact h.elim
  | bracketed body ih => exact ih h hz
  | single body ih => exact ih h hz
  | term body ih => exact ih h hz
  | call function argument => exact hbind hrounded hz
  | signed operator body => exact hbind hrounded hz
  | power base exponent => exact hbind (hbind hrounded) hz
  | times left operator right => exact hbind (hbind hrounded) hz
  | degrees angle => exact hbind (hbind hrounded) hz
  | plus left operator right => exact hbind (hbind hrounded) hz

/-- A literal with two parts has the value of its number, rounded. -/
theorem ComplexLiteral.value_phrase {f : ComplexFormat}
    (hsymbol : f.symbol = Alphabet.imaginaryUnit.toString)
    (hplaces : f.precision ≤ ComplexFormat.maxPlaces) {c : ComplexLiteral}
    (hc : c.phrase.IsOperation) (v : Binary64) :
    c.phrase.value f v = .ok (f.settled c.number) := by
  obtain ⟨u, hu, hsettled⟩ := c.exists_value_phrase hsymbol hplaces v
  rw [hu, ← hsettled, Phrase.settled_value hsymbol hc hu]

end ComplexCalculator
