import ComplexCalculator.Binary64.Arithmetic

/-!
# Complex numbers

A complex number is a pair of double-precision numbers.  Sum and difference act on
the parts; the product is the plain formula, rounded after each of its operations;
the quotient scales by the larger part of the divisor.
-/

namespace ComplexCalculator

/-- A complex number. -/
structure ComplexNumber where
  re : Binary64
  im : Binary64
  deriving DecidableEq, Inhabited

namespace ComplexNumber

/-- A real number as a complex one. -/
def ofReal (x : Binary64) : ComplexNumber := ⟨x, .zero⟩

def zero : ComplexNumber := ofReal .zero

def one : ComplexNumber := ofReal .one

def imaginaryUnit : ComplexNumber := ⟨.zero, .one⟩

def nan : ComplexNumber := ⟨.nan, .nan⟩

def isZero (z : ComplexNumber) : Bool := z.re.isZero && z.im.isZero

def isFinite (z : ComplexNumber) : Bool := z.re.isFinite && z.im.isFinite

def add (z w : ComplexNumber) : ComplexNumber := ⟨z.re + w.re, z.im + w.im⟩

def sub (z w : ComplexNumber) : ComplexNumber := ⟨z.re - w.re, z.im - w.im⟩

def mul (z w : ComplexNumber) : ComplexNumber :=
  ⟨z.re * w.re - z.im * w.im, z.re * w.im + z.im * w.re⟩

/-- The quotient by a divisor whose real part is not the smaller one. -/
def divByReal (z w : ComplexNumber) : ComplexNumber :=
  let ratio := w.im / w.re
  let scale := .one / (w.re + w.im * ratio)
  ⟨(z.re + z.im * ratio) * scale, (z.im - z.re * ratio) * scale⟩

/-- The quotient by a divisor whose imaginary part is the larger one. -/
def divByImaginary (z w : ComplexNumber) : ComplexNumber :=
  let ratio := w.re / w.im
  let scale := .one / (w.im + w.re * ratio)
  ⟨(z.re * ratio + z.im) * scale, (z.im * ratio - z.re) * scale⟩

/-- The quotient.  A divisor of zero divides both parts by positive zero. -/
def div (z w : ComplexNumber) : ComplexNumber :=
  if w.im.abs.le w.re.abs then
    if w.isZero then ⟨z.re / w.re.abs, z.im / w.re.abs⟩ else divByReal z w
  else
    divByImaginary z w

instance : Add ComplexNumber := ⟨add⟩
instance : Sub ComplexNumber := ⟨sub⟩
instance : Mul ComplexNumber := ⟨mul⟩
instance : Div ComplexNumber := ⟨div⟩

/-- The number with both parts negated. -/
def neg (z : ComplexNumber) : ComplexNumber := ⟨-z.re, -z.im⟩

def conj (z : ComplexNumber) : ComplexNumber := ⟨z.re, -z.im⟩

/-- The real part as a complex number. -/
def realPart (z : ComplexNumber) : ComplexNumber := ofReal z.re

/-- The imaginary part as a complex number. -/
def imaginaryPart (z : ComplexNumber) : ComplexNumber := ofReal z.im

end ComplexNumber

end ComplexCalculator
