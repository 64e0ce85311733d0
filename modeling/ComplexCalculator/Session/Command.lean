import ComplexCalculator.Session.Basic

/-!
# Commands of a session

A run of a session is a sequence of commands, each of which gets a reply or fails.
The state after a command that fails is the state before it.
-/

namespace ComplexCalculator.Session

/-- What can be asked of a session. -/
inductive Command where
  | parse (expression : Datum)
  | evaluate (value : Quantity)
  | evaluateComplex (value : Quantity)
  | setPrecision (precision : Datum)
  | getPrecision
  | format (value : Quantity)
  | storedEntries

/-- What a session answers. -/
inductive Reply where
  | done
  | text (text : String)
  | complex (value : ComplexNumber)
  | places (count : Nat)
  | entries (rpn : List String)

/-- What a command leads to: a new state and a reply, or a failure. -/
def attempt (s : Session) : Command → Except Failure (Session × Reply)
  | .parse expression => (s.parse expression).map (·, .done)
  | .evaluate value => (s.evaluate value).map (s, .text ·)
  | .evaluateComplex value => (s.evaluateComplex value).map (s, .complex ·)
  | .setPrecision precision => (s.setPrecision precision).map (·, .done)
  | .getPrecision => .ok (s, .places s.precision)
  | .format value => (s.formatQuantity value).map (s, .text ·)
  | .storedEntries => .ok (s, .entries s.stored)

/-- The state after a command, and its reply or failure. -/
def perform (s : Session) (command : Command) : Session × Except Failure Reply :=
  match s.attempt command with
  | .ok (next, reply) => (next, .ok reply)
  | .error failure => (s, .error failure)

/-- The states after each of a row of commands, with the replies. -/
def run (s : Session) : List Command → List (Session × Except Failure Reply)
  | [] => []
  | command :: commands =>
    let (next, reply) := s.perform command
    (next, reply) :: run next commands

end ComplexCalculator.Session
