/-!
# The alphabet of expressions

The signs and names that expressions are written with.
-/

namespace ComplexCalculator.Alphabet

/-- The letter of the imaginary unit. -/
def imaginaryUnit : Char := 'I'

/-- The name of the only variable. -/
def variableName : String := "var"

/-- The sign between the arguments of a function. -/
def separator : Char := ','

/-- The sign that opens a bracket. -/
def openBracket : Char := '('

/-- The sign that closes a bracket. -/
def closeBracket : Char := ')'

/-- The signs of the binary operators. -/
def operators : List Char := ['+', '-', '*', '/']

/-- The sign of a degree, which stands behind an angle. -/
def degreeSign : Char := '°'

/-- Whether the character is an operator, a separator or a bracket. -/
def isDelimiter (c : Char) : Bool :=
  operators.contains c || c == separator || c == openBracket || c == closeBracket

/-- Whether the character is a sign that a number or term can have. -/
def isSign (c : Char) : Bool := c == '+' || c == '-'

/-- Whether an argument or a bracketed expression begins after the character. -/
def opensArgument (c : Char) : Bool := c == openBracket || c == separator

end ComplexCalculator.Alphabet
