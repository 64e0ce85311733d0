import ComplexCalculator.Failure.Basic
import ComplexCalculator.Operation.Basic

/-!
# Tokens

A token is a piece of an expression together with its kind.  Tokens are compared by
kind and name; the number of operands and the precedence belong to the operation that
a token stands for.
-/

namespace ComplexCalculator

/-- The kinds of tokens. -/
inductive TokenKind where
  /-- A real literal, or one that contains the imaginary unit. -/
  | number
  | freeVariable
  | operator
  | function
  | openBracket
  | closeBracket
  | separator
  deriving DecidableEq, Repr

namespace TokenKind

def all : List TokenKind :=
  [.number, .freeVariable, .operator, .function, .openBracket, .closeBracket, .separator]

def label : TokenKind → String
  | .number => "number"
  | .freeVariable => "variable"
  | .operator => "operator"
  | .function => "function"
  | .openBracket => "open_bracket"
  | .closeBracket => "close_bracket"
  | .separator => "separator"

/-- The name of the kind in capitals. -/
def name (kind : TokenKind) : String := kind.label.toUpper

end TokenKind

/-- A piece of an expression.  A token made by hand may lack a kind. -/
structure Token where
  kind : Option TokenKind
  name : String
  /-- The number of operands of the operation. -/
  arity : Int
  precedence : Int
  deriving DecidableEq, Repr

namespace Token

/-- A token that is no operation. -/
def plain (kind : TokenKind) (name : String) : Token := ⟨some kind, name, 0, 0⟩

/-- Whether two tokens have the same kind and name. -/
def same (a b : Token) : Bool := a.kind == b.kind && a.name == b.name

/-- The token as messages show it. -/
def shown (token : Token) : Except Failure String :=
  match token.kind with
  | some kind => .ok ("Token(" ++ kind.name ++ ", " ++ Text.quoted token.name ++ ")")
  | none => .error .noKind

/-- The message for an attempt to change a token. -/
def frozenMessage : String := "Token is immutable"

end Token

def Operation.token (operation : Operation) : Token where
  kind := some (if operation.isOperator then .operator else .function)
  name := operation.symbol
  arity := operation.arity
  precedence := operation.precedence

theorem Operation.token_injective {a b : Operation} (h : a.token = b.token) : a = b :=
  Operation.symbol_injective (congrArg Token.name h)

namespace Token

/-- The tokens of all operations, by ascending name. -/
def definitions : List Token := Operation.all.map Operation.token

/-- The names of all functions, ascending. -/
def functionNames : List String :=
  (definitions.filter (·.kind == some .function)).map (·.name)

end Token

end ComplexCalculator
