import ComplexCalculator.ComplexNumber.Inverse
import ComplexCalculator.ComplexNumber.Power

/-!
# Operations

The closed set of operators and functions.  An operation is unary or binary by its
type, so that it can only be applied to as many operands as it takes; its symbol is
what expressions are written with.

The operators, `neg`, `conj`, `real` and `imag` are their formulas on the parts, and
what is proved of them is proved from these formulas.  The other operations, `abs`,
`arg`, `sqrt`, `log`, `exp` and `pow` with the circular and hyperbolic functions and
their inverses, stand for the functions of the numerical library.  The definitions
here are the instance that runs; no result about expressions uses the values they
take, and every such result holds of any total functions in their place.
-/

namespace ComplexCalculator

/-- The functions of one argument. -/
inductive UnaryOperation where
  | abs
  | acos
  | arg
  | asin
  | atan
  | conj
  | cos
  | cosh
  | exp
  | imag
  | log
  | neg
  | real
  | sin
  | sinh
  | sqrt
  | tan
  | tanh
  deriving DecidableEq, Repr

/-- The operators, and the function of two arguments. -/
inductive BinaryOperation where
  | mul
  | add
  | sub
  | div
  | pow
  deriving DecidableEq, Repr

/-- An operator or a function. -/
inductive Operation where
  | unary (operation : UnaryOperation)
  | binary (operation : BinaryOperation)
  deriving DecidableEq, Repr

/-- The value of a function of one argument. -/
def UnaryOperation.apply : UnaryOperation → ComplexNumber → ComplexNumber
  | .abs => .abs
  | .acos => .acos
  | .arg => .arg
  | .asin => .asin
  | .atan => .atan
  | .conj => .conj
  | .cos => .cos
  | .cosh => .cosh
  | .exp => .exp
  | .imag => .imaginaryPart
  | .log => .log
  | .neg => .neg
  | .real => .realPart
  | .sin => .sin
  | .sinh => .sinh
  | .sqrt => .sqrt
  | .tan => .tan
  | .tanh => .tanh

/-- The name of a function of one argument. -/
def UnaryOperation.name : UnaryOperation → String
  | .abs => "abs"
  | .acos => "acos"
  | .arg => "arg"
  | .asin => "asin"
  | .atan => "atan"
  | .conj => "conj"
  | .cos => "cos"
  | .cosh => "cosh"
  | .exp => "exp"
  | .imag => "imag"
  | .log => "log"
  | .neg => "neg"
  | .real => "real"
  | .sin => "sin"
  | .sinh => "sinh"
  | .sqrt => "sqrt"
  | .tan => "tan"
  | .tanh => "tanh"

/-- The value of a binary operation at its left and right operand. -/
def BinaryOperation.apply : BinaryOperation → ComplexNumber → ComplexNumber → ComplexNumber
  | .mul => .mul
  | .add => .add
  | .sub => .sub
  | .div => .div
  | .pow => .pow

/-- The name of a binary operation. -/
def BinaryOperation.name : BinaryOperation → String
  | .mul => "mul"
  | .add => "add"
  | .sub => "sub"
  | .div => "div"
  | .pow => "pow"

/-- What a binary operation is written with in expressions. -/
def BinaryOperation.symbol : BinaryOperation → String
  | .mul => "*"
  | .add => "+"
  | .sub => "-"
  | .div => "/"
  | .pow => "pow"

/-- How tightly an operator binds; functions have no precedence. -/
def BinaryOperation.precedence : BinaryOperation → Int
  | .mul | .div => 2
  | .add | .sub => 1
  | .pow => 0

namespace Operation

def name : Operation → String
  | .unary operation => operation.name
  | .binary operation => operation.name

/-- What the operation is written with in expressions. -/
def symbol : Operation → String
  | .unary operation => operation.name
  | .binary operation => operation.symbol

def arity : Operation → Nat
  | .unary _ => 1
  | .binary _ => 2

def precedence : Operation → Int
  | .unary _ => 0
  | .binary operation => operation.precedence

/-- Whether the operation is written between its operands. -/
def isOperator : Operation → Bool
  | .unary _ | .binary .pow => false
  | .binary _ => true

/-- All operations, by ascending symbol. -/
def all : List Operation :=
  [.binary .mul, .binary .add, .binary .sub, .binary .div, .unary .abs, .unary .acos,
    .unary .arg, .unary .asin, .unary .atan, .unary .conj, .unary .cos, .unary .cosh,
    .unary .exp, .unary .imag, .unary .log, .unary .neg, .binary .pow, .unary .real,
    .unary .sin, .unary .sinh, .unary .sqrt, .unary .tan, .unary .tanh]

/-- The operation that is written with the given symbol. -/
def ofSymbol? (symbol : String) : Option Operation :=
  all.find? (·.symbol == symbol)

theorem ofSymbol?_symbol (operation : Operation) :
    ofSymbol? operation.symbol = some operation := by
  rcases operation with operation | operation <;> cases operation <;> decide

theorem symbol_injective {a b : Operation} (h : a.symbol = b.symbol) : a = b := by
  have ha := ofSymbol?_symbol a
  rw [h, ofSymbol?_symbol] at ha
  injection ha with ha
  exact ha.symm

/-- The operation with the given symbol or name. -/
def ofName? (name : String) : Option Operation :=
  all.find? fun operation => operation.symbol == name || operation.name == name

/-- The value of the operation at a list of operands, if they are as many as it
takes. -/
def applyTo? : Operation → List ComplexNumber → Option ComplexNumber
  | .unary operation, [z] => some (operation.apply z)
  | .binary operation, [z, w] => some (operation.apply z w)
  | _, _ => none

/-- The operation done at the top of a stack, where the last operand lies uppermost,
if there are enough operands. -/
def reduce? : Operation → List ComplexNumber → Option (List ComplexNumber × ComplexNumber)
  | .unary operation, z :: stack => some (stack, operation.apply z)
  | .binary operation, w :: z :: stack => some (stack, operation.apply z w)
  | _, _ => none

end Operation

end ComplexCalculator
