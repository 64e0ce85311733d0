import ComplexCalculator.Alphabet
import ComplexCalculator.Binary64.Reader
import ComplexCalculator.Token.Basic

/-!
# The kind of a piece

A piece of an expression is a delimiter, an operation, the variable or a number, in
this order.  A number is a decimal numeral whose exponent has no sign, or any text
that contains the imaginary unit; whether the latter can be read is found out later.
-/

namespace ComplexCalculator.Token

/-- Whether the text contains the imaginary unit. -/
def isImaginary (text : String) : Bool := text.toList.contains Alphabet.imaginaryUnit

/-- Whether the text is a decimal numeral as expressions have it. -/
def isRealLiteral (text : String) : Bool := (Decimal.read? false text.toList).isSome

/-- Whether the text counts as a number. -/
def isNumber (text : String) : Bool := isRealLiteral text || isImaginary text

/-- Whether the text is the sign of an operator. -/
def isOperator (text : String) : Bool :=
  match text.toList with
  | [c] => Alphabet.operators.contains c
  | _ => false

/-- Whether the text is the name of a function. -/
def isFunction (text : String) : Bool := functionNames.contains text

/-- The kind of a delimiter that is no operator. -/
def bracketKind? (text : String) : Option TokenKind :=
  if text = Alphabet.openBracket.toString then some .openBracket
  else if text = Alphabet.closeBracket.toString then some .closeBracket
  else if text = Alphabet.separator.toString then some .separator
  else none

/-- The token that a piece of an expression is. -/
def classify (text : String) : Except Failure Token :=
  match bracketKind? text, Operation.ofSymbol? text with
  | some kind, _ => .ok (plain kind text)
  | none, some operation => .ok operation.token
  | none, none =>
    if text = Alphabet.variableName then .ok (plain .freeVariable text)
    else if isNumber text then .ok (plain .number text)
    else .error (.ofCause (.unrecognizedToken text))

end ComplexCalculator.Token
