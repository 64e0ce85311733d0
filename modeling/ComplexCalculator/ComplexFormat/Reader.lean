import ComplexCalculator.Binary64.Reader
import ComplexCalculator.ComplexFormat.Basic
import ComplexCalculator.Text.Digits

/-!
# Reading complex numbers

A text is read without its blanks.  It is a real number, a real number followed by a
signed imaginary one, or an imaginary number alone; the imaginary unit may stand
without a number.  Real numbers are decimal numerals or the markers of NaN and the
infinities, with a sign in front.
-/

namespace ComplexCalculator.ComplexFormat

/-- The markers of numbers that are not finite, with their values. -/
def markers : List (List Char × Binary64) :=
  [(nanMarker, .nan), (infinityMarker false, .infinite false),
    (infinityMarker true, .infinite true)]

/-- The marker at the start of the text, and the text after it. -/
def takeMarker (text : List Char) : Option (Binary64 × List Char) :=
  (markers.find? (·.1.isPrefixOf text)).map fun (marker, x) => (x, text.drop marker.length)

/-- The unsigned number at the start of the text, and the text after it. -/
def takeUnsigned (text : List Char) : Option (Binary64 × List Char) :=
  match Decimal.take true text with
  | some (d, rest) => some (d.nearest false, rest)
  | none => takeMarker text

/-- The number with a sign in front of it. -/
def applySign (negative : Bool) (x : Binary64) : Binary64 := if negative then -x else x

/-- The number at the start of the text, perhaps with a sign, and the text after it. -/
def takeSigned (text : List Char) : Option (Binary64 × List Char) :=
  let (negative, text) := (Decimal.takeSign text).getD (false, text)
  (takeUnsigned text).map fun (x, rest) => (applySign negative x, rest)

/-- The real number that the whole text denotes. -/
def readReal? (text : List Char) : Option ComplexNumber :=
  match takeSigned text with
  | some (x, []) => some (.ofReal x)
  | _ => none

/-- The number before an imaginary unit, which is one if nothing is written. -/
def readFactor? : List Char → Option Binary64
  | [] => some .one
  | text =>
    match takeUnsigned text with
    | some (x, []) => some x
    | _ => none

/-- The complex number that a text denotes when the symbol of the imaginary unit
follows it. -/
def readBeforeSymbol? (text : List Char) : Option ComplexNumber :=
  match takeSigned text with
  | some (re, []) => some ⟨.zero, re⟩
  | some (re, rest) => do
    let (negative, rest) ← Decimal.takeSign rest
    let im ← readFactor? rest
    return ⟨re, applySign negative im⟩
  | none => do
    let (negative, rest) := (Decimal.takeSign text).getD (false, text)
    let im ← readFactor? rest
    return ⟨.zero, applySign negative im⟩

/-- The text before the symbol at its end. -/
def beforeSymbol? (symbol text : List Char) : Option (List Char) :=
  if symbol.isSuffixOf text then some (text.take (text.length - symbol.length)) else none

/-- The complex number that a text without blanks denotes. -/
def readCompact? (symbol text : List Char) : Option ComplexNumber :=
  match readReal? text with
  | some z => some z
  | none => (beforeSymbol? symbol text).bind readBeforeSymbol?

/-- The complex number that a text denotes. -/
def read? (f : ComplexFormat) (text : String) : Option ComplexNumber :=
  readCompact? f.symbol.toList (Text.dropBlanks text.toList)

/-- Reads a complex number from a text. -/
def read (f : ComplexFormat) (text : String) : Except Failure ComplexNumber :=
  match f.read? text with
  | some z => .ok z
  | none => .error (.ofCause (.malformedNumber text))

/-- Reads a complex number from an unchecked value. -/
def readDatum (f : ComplexFormat) : Datum → Except Failure ComplexNumber
  | .text text => f.read text
  | given => .error (.ofCause (.notText given.typeName))

/-- The complex number that is read back from its text: both parts rounded to the
decimal places of the format. -/
def rounded (f : ComplexFormat) (z : ComplexNumber) : Except Failure ComplexNumber :=
  f.format z >>= f.read

end ComplexCalculator.ComplexFormat
