import ComplexCalculator.Datum

/-!
# Parse errors

Why a text is not an expression, or a parsed expression has no value.  Each cause
has a kind and a message; an error that concerns a whole expression also carries it,
and then its text shows both.
-/

namespace ComplexCalculator

/-- The kinds of parse errors. -/
inductive ParseErrorKind where
  /-- A piece of the expression is no token. -/
  | unrecognizedToken
  /-- Two values stand side by side. -/
  | missingOperator
  | missingOperand
  | malformedNumber
  | mismatchedBracket
  deriving DecidableEq, Repr

namespace ParseErrorKind

def all : List ParseErrorKind :=
  [.unrecognizedToken, .missingOperator, .missingOperand, .malformedNumber, .mismatchedBracket]

/-- The name of the kind in capitals. -/
def name : ParseErrorKind → String
  | .unrecognizedToken => "UNRECOGNIZED_TOKEN"
  | .missingOperator => "MISSING_OPERATOR"
  | .missingOperand => "MISSING_OPERAND"
  | .malformedNumber => "MALFORMED_NUMBER"
  | .mismatchedBracket => "MISMATCHED_BRACKET"

/-- The label of the kind in reports. -/
def label : ParseErrorKind → String
  | .unrecognizedToken => "unrecognized_token"
  | .missingOperator => "missing_operator"
  | .missingOperand => "missing_operand"
  | .malformedNumber => "malformed_number"
  | .mismatchedBracket => "mismatched_bracket"

end ParseErrorKind

/-- What is wrong. -/
inductive Cause where
  /-- The expression is missing or blank. -/
  | emptyExpression
  /-- A piece is neither a delimiter nor an operation, the variable or a number. -/
  | unrecognizedToken (name : String)
  | mismatchedBracket
  /-- A text is not a complex number. -/
  | malformedNumber (text : String)
  /-- What should be read as a complex number is not a text. -/
  | notText (typeName : String)
  | missingOperand (name : String)
  /-- More than one value is left. -/
  | missingOperator
  /-- No value is left. -/
  | nothingToEvaluate
  deriving DecidableEq, Repr

namespace Cause

def kind : Cause → ParseErrorKind
  | .emptyExpression | .unrecognizedToken _ => .unrecognizedToken
  | .mismatchedBracket => .mismatchedBracket
  | .malformedNumber _ | .notText _ => .malformedNumber
  | .missingOperand _ | .nothingToEvaluate => .missingOperand
  | .missingOperator => .missingOperator

def message : Cause → String
  | .emptyExpression => "Empty expression"
  | .unrecognizedToken name => "Unrecognized token: " ++ name
  | .mismatchedBracket => "Closing bracket without matching opening bracket"
  | .malformedNumber text => "Malformed number: " ++ text
  | .notText typeName => "Cannot parse complex number from " ++ typeName
  | .missingOperand name => "Missing operand for " ++ name
  | .missingOperator => "Some operator is missing"
  | .nothingToEvaluate => "Nothing to evaluate"

end Cause

/-- An error as it is shown: with a kind, if it has one, a message and perhaps the
expression that it is about. -/
structure Report where
  kind : Option ParseErrorKind
  /-- What is wrong. -/
  message : String
  /-- What was given as the whole expression; no value if the error is not about one. -/
  expression : Datum

/-- The message, followed by the expression if there is one. -/
def Report.text (report : Report) : String :=
  match report.expression with
  | .none => report.message
  | expression => report.message ++ " (expression: " ++ expression.shown ++ ")"

/-- An error with its cause. -/
structure ParseError where
  /-- What is wrong. -/
  cause : Cause
  /-- What was given as the expression to parse; no value if nothing was being parsed. -/
  expression : Datum

/-- The error as it is shown. -/
def ParseError.report (error : ParseError) : Report :=
  ⟨some error.cause.kind, error.cause.message, error.expression⟩

end ComplexCalculator
