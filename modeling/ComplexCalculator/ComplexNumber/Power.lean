import ComplexCalculator.ComplexNumber.Exponential

/-!
# Powers

A power with a whole exponent below one hundred in absolute value is a product of
squarings.  Every other power is the exponential of the exponent times the logarithm
of the base; that product keeps an infinity where the plain one would lose it.
-/

namespace ComplexCalculator.ComplexNumber

/-- An infinite part becomes one and any other zero, with their signs. -/
def unitPart (x : Binary64) : Binary64 :=
  if x.isInfinite then Binary64.one.withSign x.isNegative else .signedZero x.isNegative

/-- The direction in which an infinite number lies. -/
def unitParts (z : ComplexNumber) : ComplexNumber := ⟨unitPart z.re, unitPart z.im⟩

/-- The number with positive zeros in the place of NaNs. -/
def fillNaN (z : ComplexNumber) : ComplexNumber :=
  ⟨if z.re.isNaN then .zero else z.re, if z.im.isNaN then .zero else z.im⟩

def isInfinite (z : ComplexNumber) : Bool := z.re.isInfinite || z.im.isInfinite

/-- Whether one of the four products of parts overflows. -/
def overflows (z w : ComplexNumber) : Bool :=
  (z.re * w.re).isInfinite || (z.im * w.im).isInfinite ||
    (z.re * w.im).isInfinite || (z.im * w.re).isInfinite

/-- The product, where an infinite factor or an overflow gives an infinity even if the
plain formula has NaN in both parts. -/
def mulKeepingInfinity (z w : ComplexNumber) : ComplexNumber :=
  let product := z * w
  if !(product.re.isNaN && product.im.isNaN) then product
  else
    let finiteDirection (x : ComplexNumber) := if x.isInfinite then x.unitParts else x.fillNaN
    if z.isInfinite || w.isInfinite || overflows z w then
      let p := finiteDirection z * finiteDirection w
      ⟨.infinite false * p.re, .infinite false * p.im⟩
    else product

/-- The product of `product` and `base ^ n`, by squaring the base for each binary digit
of `n`. -/
def mulPower (product base : ComplexNumber) (n : Nat) : ComplexNumber :=
  let product := if n % 2 = 1 then product * base else product
  if h : n / 2 = 0 then product
  else mulPower product (base * base) (n / 2)
termination_by n
decreasing_by omega

/-- The power with a whole exponent. -/
def powInt (z : ComplexNumber) (n : Int) : ComplexNumber :=
  if n = 1 then z
  else if n = 2 then z * z
  else if n = 3 then z * (z * z)
  else
    let power := mulPower one z n.natAbs
    if n < 0 then one / power else power

/-- The small whole number that an exponent is, if it is one. -/
def smallExponent? (w : ComplexNumber) : Option Int :=
  if w.im.isZero then w.re.toInt?.filter (·.natAbs < 100) else none

/-- The power.  Any number to the power zero is one; zero to a power with positive
real part is zero, and to any other it has no value. -/
def pow (z w : ComplexNumber) : ComplexNumber :=
  if w.isZero then one
  else if z.isZero then
    if Binary64.zero.le w.re && !w.re.isZero then zero else nan
  else
    match w.smallExponent? with
    | some n => z.powInt n
    | none => exp (mulKeepingInfinity w (log z))

end ComplexCalculator.ComplexNumber
