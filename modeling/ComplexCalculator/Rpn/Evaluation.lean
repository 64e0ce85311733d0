import ComplexCalculator.Alphabet
import ComplexCalculator.ComplexFormat.Reader
import ComplexCalculator.Operation.Invocation

/-!
# Evaluation of reverse Polish notation

The entries are taken from the last to the first.  A literal is put on a stack; an
operation takes its operands from there and puts back its result, rounded to the
decimal places of the format.  In the end the stack holds the value.
-/

namespace ComplexCalculator.Rpn

/-- Whether an entry is the variable. -/
def isVariable : Datum → Bool
  | .text name => name == Alphabet.variableName
  | _ => false

/-- The entries with the shortest text of a real number in the place of the variable. -/
def substitute (entries : List Datum) (value : Quantity) : Except Failure (List Datum) :=
  value.toReal.map fun x =>
    entries.map fun entry => if isVariable entry then .text x.shortestText else entry

/-- The entries with the variable replaced by its value; without a value there must be
no variable. -/
def bindVariable (entries : List Datum) : Quantity → Except Failure (List Datum)
  | .absent =>
    if entries.any isVariable then
      .error (.ofCause (.unrecognizedToken Alphabet.variableName))
    else .ok entries
  | value => substitute entries value

/-- The effect of one entry on the stack, whose top is its head. -/
def step (f : ComplexFormat) (entry : Datum) (stack : List ComplexNumber) :
    Except Failure (List ComplexNumber) :=
  match entry with
  | .text name =>
    match Operation.ofSymbol? name with
    | none => (f.read name).map (· :: stack)
    | some operation =>
      match operation.reduce? stack with
      | none => .error (.ofCause (.missingOperand name))
      | some (rest, result) => (f.rounded result).map (· :: rest)
  | given =>
    if given.isCompound then .error .compoundEntry
    else (f.readDatum given).map (· :: stack)

/-- The only value on the stack. -/
def single : List ComplexNumber → Except Failure ComplexNumber
  | [z] => .ok z
  | [] => .error (.ofCause .nothingToEvaluate)
  | _ => .error (.ofCause .missingOperator)

/-- The value of a list of unchecked entries. -/
def evaluateData (f : ComplexFormat) (entries : List Datum) (value : Quantity) :
    Except Failure ComplexNumber := do
  let entries ← bindVariable entries value
  let stack ← entries.foldrM (step f) []
  single stack

/-- The value of a list of entries, the last of which is evaluated first. -/
def evaluate (f : ComplexFormat) (rpn : List String) (value : Quantity) :
    Except Failure ComplexNumber :=
  evaluateData f (rpn.map .text) value

end ComplexCalculator.Rpn
