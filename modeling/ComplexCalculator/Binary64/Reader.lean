import ComplexCalculator.Decimal.Basic
import ComplexCalculator.Text.Digits

/-!
# Reading numbers

An unsigned decimal numeral is a row of digits with at most one point, which may
stand at either end, and perhaps an exponent.  The digits may come from any script.
`Decimal.take` reads the longest numeral at the start of a text; whether an exponent
may carry a sign is the caller's choice, because where a sign is an operator it
ends the numeral.

The text of a double-precision number is such a numeral or the word for an infinity
or NaN, in either case, perhaps with a sign in front and blanks around it.
-/

namespace ComplexCalculator

namespace Decimal

open Text (isDecimalDigit digitsValue)

/-- The digits at the start of the text, and the text after them. -/
def spanDigits (text : List Char) : List Char × List Char :=
  (text.takeWhile isDecimalDigit, text.dropWhile isDecimalDigit)

/-- The sign at the start of the text, and the text after it. -/
def takeSign : List Char → Option (Bool × List Char)
  | '+' :: rest => some (false, rest)
  | '-' :: rest => some (true, rest)
  | _ => none

/-- The digits before the point, those after it, and the rest of the text. -/
def takeMantissa (text : List Char) : Option (List Char × List Char × List Char) :=
  match spanDigits text with
  | (whole, '.' :: rest) =>
    let (fraction, rest) := spanDigits rest
    if whole.isEmpty && fraction.isEmpty then none else some (whole, fraction, rest)
  | (whole, rest) => if whole.isEmpty then none else some (whole, [], rest)

/-- The digits of an exponent, with a sign in front if signs are read. -/
def takeExponentDigits (signed : Bool) (text : List Char) : Option (Int × List Char) :=
  let (negative, text) := if signed then (takeSign text).getD (false, text) else (false, text)
  match spanDigits text with
  | ([], _) => none
  | (digits, rest) =>
    let size : Int := digitsValue digits
    some (if negative then -size else size, rest)

/-- The exponent at the start of the text; without one it is zero and nothing is
read. -/
def takeExponent (signed : Bool) (text : List Char) : Int × List Char :=
  match text with
  | c :: rest =>
    if c = 'e' || c = 'E' then (takeExponentDigits signed rest).getD (0, text) else (0, text)
  | [] => (0, [])

/-- The longest decimal numeral at the start of the text, and the text after it. -/
def take (signed : Bool) (text : List Char) : Option (Decimal × List Char) :=
  (takeMantissa text).map fun (whole, fraction, rest) =>
    let (exponent, rest) := takeExponent signed rest
    (⟨digitsValue (whole ++ fraction), exponent - fraction.length⟩, rest)

/-- The decimal number that the whole text denotes. -/
def read? (signed : Bool) (text : List Char) : Option Decimal :=
  match take signed text with
  | some (d, []) => some d
  | _ => none

end Decimal

namespace Binary64

/-- The text without the blanks at its two ends. -/
def trimBlanks (text : List Char) : List Char :=
  ((text.dropWhile Text.isBlank).reverse.dropWhile Text.isBlank).reverse

/-- The number that a text without a sign denotes, with the given sign. -/
def readUnsigned? (negative : Bool) (text : List Char) : Option Binary64 :=
  let word := String.ofList (text.map Char.toLower)
  if word = "nan" then some .nan
  else if word = "inf" || word = "infinity" then some (.infinite negative)
  else (Decimal.read? true text).map (Decimal.nearest negative)

/-- The number that a text denotes. -/
def read? (text : String) : Option Binary64 :=
  let trimmed := trimBlanks text.toList
  let (negative, digits) := (Decimal.takeSign trimmed).getD (false, trimmed)
  readUnsigned? negative digits

end Binary64

end ComplexCalculator
