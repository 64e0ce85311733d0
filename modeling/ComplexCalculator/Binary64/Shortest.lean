import ComplexCalculator.Decimal.Basic
import ComplexCalculator.Text.Digits

/-!
# The shortest text of a number

A double-precision number is written with the fewest digits that read back to it,
and of the decimals with so many digits the one nearest to it.  The notation is
positional while the first digit stands between `10 ^ (-4)` and `10 ^ 15`, and has
an exponent otherwise.
-/

namespace ComplexCalculator

namespace Magnitude

/-- The exact decimal value: a unit is `5 ^ 1074 * 10 ^ (-1074)`. -/
def toDecimal (x : Magnitude) : Decimal :=
  ⟨x.units * power 5 Binary64.unitBits, -(Binary64.unitBits : Int)⟩

/-- Whether a decimal is read as this number. -/
def reads (x : Magnitude) (d : Decimal) : Bool :=
  d.nearest false = .finite false x

/-- The decimals with the given number of digits on either side of the number that
read back to it, the nearer one first; on a tie that with the even last digit. -/
def neighbours (x : Magnitude) (exact : Decimal) (length digits : Nat) : List Decimal :=
  let dropped := length - digits
  let grid := power 10 dropped
  let below := exact.significand / grid
  let above := below + 1
  let twice := 2 * (exact.significand % grid)
  let candidates :=
    if twice < grid || (twice == grid && below % 2 == 0) then [below, above] else [above, below]
  (candidates.map fun n => ⟨n, dropped + exact.exponent⟩).filter x.reads

/-- The shortest decimal that reads back to the number.  Seventeen digits always do;
should they not, the exact value would stand in. -/
def shortest (x : Magnitude) : Decimal :=
  let exact := x.toDecimal
  let length := (Nat.toDigits 10 exact.significand).length
  let found := (List.range 17).findSome? fun n => (neighbours x exact length (n + 1)).head?
  found.getD exact

end Magnitude

namespace Binary64

/-- The sign of a negative number. -/
def signText (negative : Bool) : List Char :=
  if negative then ['-'] else []

/-- The exponent of a number, with its sign and at least two digits. -/
def exponentText (exponent : Int) : List Char :=
  'e' :: (if exponent < 0 then '-' else '+') :: Text.numeral 10 2 exponent.natAbs

/-- The digits with a point behind the first, if others follow. -/
def pointAfterFirst : List Char → List Char
  | first :: second :: rest => first :: '.' :: second :: rest
  | digits => digits

/-- A decimal in positional notation, with at least one digit on both sides of the
point. -/
def positionalText (digits : List Char) (leading : Int) : List Char :=
  if leading < 0 then
    ['0', '.'] ++ List.replicate (-leading - 1).toNat '0' ++ digits
  else
    let whole := leading.toNat + 1
    digits.take whole ++ List.replicate (whole - digits.length) '0' ++
      '.' :: if digits.length ≤ whole then ['0'] else digits.drop whole

/-- The digits without the zeros at their end, but at least one. -/
def significantDigits (digits : List Char) : List Char :=
  match (digits.reverse.dropWhile (· == '0')).reverse with
  | [] => ['0']
  | significant => significant

/-- A non-negative decimal in the notation that suits its size. -/
def decimalText (d : Decimal) : List Char :=
  let digits := significantDigits (Nat.toDigits 10 d.significand)
  let leading := if d.significand = 0 then 0 else d.leadingExponent
  if -4 ≤ leading && leading < 16 then positionalText digits leading
  else pointAfterFirst digits ++ exponentText leading

/-- The shortest text that reads back to the number. -/
def shortestText : Binary64 → String
  | .nan => "nan"
  | .infinite negative => String.ofList (signText negative ++ "inf".toList)
  | .finite negative x => String.ofList (signText negative ++ decimalText x.shortest)

/-- The number in scientific notation with the given number of digits behind the
point, rounded half to even; zero has neither sign, point nor exponent. -/
def scientificText (places : Nat) : Binary64 → String
  | .nan => "nan"
  | .infinite negative => String.ofList (signText negative ++ "inf".toList)
  | .finite negative x =>
    if x.units = 0 then "0" else
      let exact := x.toDecimal
      let length := (Nat.toDigits 10 exact.significand).length
      let rounded := roundHalfEven (exact.significand * power 10 (places + 1)) (power 10 length)
      let leading : Int := length - 1 + exact.exponent
      let (significand, leading) :=
        if rounded = power 10 (places + 1) then (power 10 places, leading + 1)
        else (rounded, leading)
      String.ofList (signText negative ++ pointAfterFirst (Nat.toDigits 10 significand) ++
        exponentText leading)

end Binary64

end ComplexCalculator
