import ComplexCalculator.Alphabet
import ComplexCalculator.Failure.Basic

/-!
# Settings

The table that names the signs of the calculator and its default precision, with the
table of precedences, and the conditions under which they are usable.
-/

namespace ComplexCalculator

/-- The settings of the calculator, as they may be given. -/
structure Settings where
  /-- The number of decimal places that results are rounded to. -/
  defaultPrecision : Datum
  imaginarySymbol : String
  variableToken : String
  separator : String
  operators : String
  openBracket : String
  closeBracket : String
  degreeSymbol : String
  precedences : List (String × Int)

namespace Settings

/-- The settings that the calculator runs with. -/
def standard : Settings where
  defaultPrecision := .integer 3
  imaginarySymbol := Alphabet.imaginaryUnit.toString
  variableToken := Alphabet.variableName
  separator := Alphabet.separator.toString
  operators := String.ofList Alphabet.operators
  openBracket := Alphabet.openBracket.toString
  closeBracket := Alphabet.closeBracket.toString
  degreeSymbol := Alphabet.degreeSign.toString
  precedences := [("+", 1), ("-", 1), ("*", 2), ("/", 2)]

/-- Whether the value is a number of places; truth values count as numbers here. -/
def isPlaces : Datum → Bool
  | .integer n => 0 ≤ n
  | .boolean _ => true
  | _ => false

def delimiters (settings : Settings) : List String :=
  [settings.separator, settings.openBracket, settings.closeBracket]

/-- The fault of one operator sign. -/
def operatorFault? (settings : Settings) (operator : Char) : Option SettingsFault :=
  if settings.delimiters.contains operator.toString then some (.delimiterAsOperator operator)
  else if settings.precedences.any (·.1 == operator.toString) then none
  else some (.noPrecedence operator)

/-- Whether the first text occurs within the second. -/
def occursIn (text : List Char) : List Char → Bool
  | [] => text.isEmpty
  | c :: rest => text.isPrefixOf (c :: rest) || occursIn text rest

/-- The first fault of the settings. -/
def fault? (settings : Settings) : Option SettingsFault :=
  if !isPlaces settings.defaultPrecision then some .precision
  else
    let badDelimiter := settings.delimiters.find? (·.length ≠ 1)
    let badOperator := settings.operators.toList.findSome? settings.operatorFault?
    match badDelimiter, badOperator with
    | some given, _ => some (.delimiter given)
    | none, some fault => some fault
    | none, none =>
      if occursIn settings.imaginarySymbol.toList settings.variableToken.toList then
        some .imaginaryVariable
      else none

/-- Checks that the settings are usable. -/
def validate (settings : Settings) : Except Failure Unit :=
  match settings.fault? with
  | some fault => .error (.settings fault)
  | none => .ok ()

end Settings

end ComplexCalculator
