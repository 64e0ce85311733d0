import ComplexCalculator.Datum
import ComplexCalculator.Failure.ParseError

/-!
# Failures

Everything that an operation of the calculator can fail with: parse errors, and the
faults of its other arguments.
-/

namespace ComplexCalculator

/-- What makes a table of settings unusable. -/
inductive SettingsFault where
  /-- The default precision is not a non-negative integer. -/
  | precision
  /-- A delimiter is not a single character. -/
  | delimiter (given : String)
  /-- An operator is also a delimiter. -/
  | delimiterAsOperator (operator : Char)
  /-- An operator has no precedence. -/
  | noPrecedence (operator : Char)
  /-- The variable's name contains the imaginary unit. -/
  | imaginaryVariable
  deriving DecidableEq, Repr

def SettingsFault.message : SettingsFault → String
  | .precision => "精度必须是非负整数"
  | .delimiter given => "分隔符必须是单个字符: " ++ Text.quoted given
  | .delimiterAsOperator operator => "运算符与分隔符冲突: " ++ Text.quoted operator.toString
  | .noPrecedence operator => "运算符缺少优先级: " ++ Text.quoted operator.toString
  | .imaginaryVariable => "变量名不能包含虚数单位"

/-- Why an operation failed. -/
inductive Failure where
  | parse (error : ParseError)
  | invalidPrecision (given : Datum)
  /-- A finite part cannot be written with so many places. -/
  | precisionTooBig
  /-- A finite part cannot be written with so many places, their number being beyond
  a machine word. -/
  | tooManyDigits
  /-- An integer is beyond the range of double precision. -/
  | integerTooLarge
  /-- A value is not a real number, or not a number at all. -/
  | notNumber
  | notText
  /-- What is given as an expression is not a text. -/
  | notExpression
  /-- An entry to evaluate is a list or a mapping. -/
  | compoundEntry
  /-- An operation was given more or fewer operands than it takes. -/
  | operandCount
  /-- A token has no kind that could be shown. -/
  | noKind
  | settings (fault : SettingsFault)

namespace Failure

/-- The failure with a parse error's cause, where no whole expression is known. -/
def ofCause (cause : Cause) : Failure := .parse ⟨cause, .none⟩

def message : Failure → String
  | .parse error => error.cause.message
  | .invalidPrecision given => "Precision must be a non-negative integer, got " ++ given.shown
  | .precisionTooBig => "precision too big"
  | .tooManyDigits => "Too many decimal digits in format string"
  | .integerTooLarge => "int too large to convert to float"
  | .notNumber => "not a number"
  | .notText => "not a text"
  | .notExpression => "not an expression"
  | .compoundEntry => "not an entry"
  | .operandCount => "wrong number of operands"
  | .noKind => "the token has no kind"
  | .settings fault => fault.message

/-- The failure, with the expression added if it is a parse error. -/
def withExpression (expression : Datum) : Failure → Failure
  | .parse error => .parse { error with expression := expression }
  | failure => failure

end Failure

/-- The text that an unchecked value is. -/
def Datum.asText : Datum → Except Failure String
  | .text value => .ok value
  | _ => .error .notText

end ComplexCalculator
