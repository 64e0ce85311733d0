import ComplexCalculator.ComplexFormat.Reader
import ComplexCalculator.Expression.Pieces

/-!
# Conversion to reverse Polish notation

An infix expression is turned into a list of entries in which every operation stands
after its operands.  Operators and functions wait on a stack until their operands are
complete; an operator releases those before it that bind at least as tightly.  The
list is kept in reverse: its last entry is evaluated first.
-/

namespace ComplexCalculator.Rpn

/-- A conversion that is under way. -/
structure Conversion where
  /-- The operations and brackets that wait, the latest first. -/
  pending : List Token
  /-- The entries so far, the latest first. -/
  output : List String

namespace Conversion

/-- Nothing read yet. -/
def start : Conversion := ⟨[], []⟩

/-- Whether the token is an opening bracket. -/
def isOpen (token : Token) : Bool := token.kind == some .openBracket

def write (c : Conversion) (entry : String) : Conversion :=
  { c with output := entry :: c.output }

def push (c : Conversion) (token : Token) : Conversion :=
  { c with pending := token :: c.pending }

/-- Writes the waiting tokens as long as they satisfy a condition. -/
def releaseWhile (condition : Token → Bool) (c : Conversion) : Conversion where
  pending := c.pending.dropWhile condition
  output := ((c.pending.takeWhile condition).map (·.name)).reverse ++ c.output

/-- Writes everything that waits since the last opening bracket. -/
def releaseArgument (c : Conversion) : Conversion := c.releaseWhile (!isOpen ·)

/-- Writes the function that waits in front of a closed bracket. -/
def releaseFunction (c : Conversion) : Conversion :=
  match c.pending with
  | token :: rest => if token.kind = some .function then ⟨rest, token.name :: c.output⟩ else c
  | [] => c

def close (c : Conversion) : Except Failure Conversion :=
  let c := c.releaseArgument
  match c.pending with
  | [] => .error (.ofCause .mismatchedBracket)
  | _ :: rest => .ok ({ c with pending := rest }).releaseFunction

/-- Reads an operator: those that bind at least as tightly go first. -/
def pushOperator (c : Conversion) (token : Token) : Conversion :=
  (c.releaseWhile fun waiting =>
    waiting.kind == some .operator && token.precedence ≤ waiting.precedence).push token

end Conversion

/-- The entry of a number.  A real literal is written as it is, an imaginary one as the
format writes its value. -/
def literalEntry (f : ComplexFormat) (name : String) : Except Failure String :=
  if name = Alphabet.imaginaryUnit.toString then f.format .imaginaryUnit
  else if Token.isImaginary name then f.read ("0+" ++ name) >>= f.format
  else .ok name

def Conversion.step (f : ComplexFormat) (c : Conversion) (token : Token) :
    Except Failure Conversion :=
  match token.kind with
  | some .separator => .ok c.releaseArgument
  | some .openBracket => .ok (c.push token)
  | some .closeBracket => c.close
  | some .number => (literalEntry f token.name).map c.write
  | some .freeVariable => .ok (c.write token.name)
  | some .operator => .ok (c.pushOperator token)
  | some .function => .ok (c.push token)
  | none => .error (.ofCause (.unrecognizedToken token.name))

/-- The finished list: what still waits is written, and open brackets are dropped. -/
def Conversion.finish (c : Conversion) : List String :=
  ((c.pending.filter (!isOpen ·)).map (·.name)).reverse ++ c.output

/-- The entries of a row of tokens, where the first failure decides. -/
def convertAll (f : ComplexFormat) (tokens : List (Except Failure Token)) :
    Except Failure (List String) :=
  (tokens.foldlM (fun c token => token >>= c.step f) Conversion.start).map Conversion.finish

/-- The entries of a row of tokens. -/
def convert (f : ComplexFormat) (tokens : List Token) : Except Failure (List String) :=
  convertAll f (tokens.map .ok)

def convertExpression (f : ComplexFormat) (expression : String) : Except Failure (List String) :=
  convertAll f (Expression.tokens expression)

end ComplexCalculator.Rpn
