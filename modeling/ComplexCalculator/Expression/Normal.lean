import ComplexCalculator.Alphabet
import ComplexCalculator.Text.Digits

/-!
# The normal form of an expression

Before an expression is split into tokens it is brought into a normal form.  Blanks
disappear, except that between two digits or points they become one plain space.  A degree sign
becomes the factor that turns degrees into radians.  A sign at the beginning of the
expression or of an argument gets a zero in front, so that it is an operator.
-/

namespace ComplexCalculator.Expression

open Alphabet (degreeSign isSign opensArgument)
open Text (isBlank isDecimalDigit)

/-- Whether the character can be part of an unsigned decimal numeral. -/
def isNumeric (c : Char) : Bool := isDecimalDigit c || c == '.'

/-- What stands between two characters that had blanks between them. -/
def gap (before : Option Char) (after : Char) : List Char :=
  if before.any isNumeric && isNumeric after then [' '] else []

/-- Removes blanks from the rest of a text; `before` is the last character that was
kept, and `blank` tells whether blanks were removed since. -/
def closeGaps (before : Option Char) (blank : Bool) : List Char → List Char
  | [] => []
  | c :: rest =>
    if isBlank c then closeGaps before true rest
    else (if blank then gap before c else []) ++ c :: closeGaps (some c) false rest

/-- What a degree sign stands for. -/
def degreeFactor : List Char := "*3.141592653589793/180".toList

/-- Writes out the degree signs. -/
def expandDegrees (text : List Char) : List Char :=
  text.flatMap fun c => if c = degreeSign then degreeFactor else [c]

/-- Puts a zero in front of a sign at the start of an argument; `atStart` tells whether
the rest of the text is the start of one. -/
def fillZeros (atStart : Bool) : List Char → List Char
  | [] => []
  | c :: rest =>
    (if atStart && isSign c then ['0'] else []) ++ c :: fillZeros (opensArgument c) rest

/-- The normal form of the characters of an expression. -/
def normalChars (text : List Char) : List Char :=
  fillZeros true (expandDegrees (closeGaps none false text))

/-- The normal form of an expression. -/
def normalize (expression : String) : String :=
  String.ofList (normalChars expression.toList)

end ComplexCalculator.Expression
