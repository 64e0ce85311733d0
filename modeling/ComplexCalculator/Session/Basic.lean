import ComplexCalculator.Rpn.Conversion
import ComplexCalculator.Rpn.Evaluation
import ComplexCalculator.Settings

/-!
# Sessions

A session remembers the precision and the last expression that was parsed, already
converted.  The expression can be evaluated any number of times, at other precisions
and other values of the variable, without being parsed again.  A failure changes
nothing.
-/

namespace ComplexCalculator

/-- What a calculator remembers between two commands. -/
structure Session where
  /-- The number of decimal places of results. -/
  precision : Nat
  /-- The entries of the last parsed expression, the first to evaluate standing last. -/
  stored : List String

namespace Session

def format (s : Session) : ComplexFormat :=
  ⟨s.precision, Alphabet.imaginaryUnit.toString⟩

/-- A session in which nothing has been parsed. -/
def create (precision : Datum) : Except Failure Session :=
  (ComplexFormat.checkPrecision precision).map fun places => ⟨places, []⟩

/-- A session at the default precision. -/
def createDefault : Except Failure Session := create Settings.standard.defaultPrecision

/-- Whether what is given as an expression counts as nothing or has only blanks. -/
def isBlankExpression : Datum → Bool
  | .text expression => expression.toList.all Text.isBlank
  | given => given.isVoid

/-- Parses what is given as an expression; what it fails with carries the expression. -/
def parse (s : Session) (given : Datum) : Except Failure Session :=
  if isBlankExpression given then .error (.parse ⟨.emptyExpression, given⟩)
  else
    match Expression.ofDatum given >>= Rpn.convertExpression s.format with
    | .ok rpn => .ok { s with stored := rpn }
    | .error failure => .error (failure.withExpression given)

/-- The text of a value at the session's precision. -/
def formatQuantity (s : Session) (value : Quantity) : Except Failure String :=
  value.toComplex >>= s.format.format

/-- The text of the value of the parsed expression; empty if none has been parsed. -/
def evaluate (s : Session) (value : Quantity) : Except Failure String :=
  if s.stored.isEmpty then .ok ""
  else Rpn.evaluate s.format s.stored value >>= s.format.format

/-- The value of the parsed expression, read back from its text. -/
def evaluateComplex (s : Session) (value : Quantity) : Except Failure ComplexNumber :=
  s.evaluate value >>= s.format.read

/-- Changes the precision; the parsed expression stays. -/
def setPrecision (s : Session) (precision : Datum) : Except Failure Session :=
  (ComplexFormat.checkPrecision precision).map fun places => { s with precision := places }

end Session

end ComplexCalculator
