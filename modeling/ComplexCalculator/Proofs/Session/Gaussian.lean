import ComplexCalculator.Proofs.Binary64.Integer
import ComplexCalculator.Proofs.Session.ExactSum
import Mathlib.NumberTheory.Zsqrtd.GaussianInt

/-!
# Gaussian integers

Sums, differences, products and conjugates of Gaussian integers are evaluated without any
error, at every precision, as long as no integer on the way exceeds `2 ^ 53`.  The rounding
between two operations does not disturb them: it only changes the sign of a zero, which no
text shows.
-/

namespace ComplexCalculator

open Binary64 (IsInteger)
open Expression (Spaced)

/-! ## Exact values -/

/-- A row of digits denotes an integer. -/
theorem Numeral.value_whole {n : Numeral} (hfraction : n.fraction = none)
    (hexponent : n.exponent = none) : n.decimal.value = (Text.digitsValue n.whole : ℤ) := by
  rw [Decimal.value, Numeral.decimal, hfraction, hexponent]
  simp

namespace Literal

theorem unsigned_none : ∀ m ∈ (none : Option Numeral), m.Unsigned := by
  simp

/-- The Gaussian integer that a literal is written for, if its parts are integers. -/
def gaussian (l : Literal) : GaussianInt := ⟨⌊l.exactValue.1⌋, ⌊l.exactValue.2⌋⟩

/-- Whether both parts of a literal are integers. -/
def IsGaussian (l : Literal) : Prop :=
  l.exactValue = ((l.gaussian.re : ℚ), (l.gaussian.im : ℚ))

theorem isGaussian_of_exactValue {l : Literal} {z : GaussianInt}
    (h : l.exactValue = ((z.re : ℚ), (z.im : ℚ))) : l.IsGaussian ∧ l.gaussian = z := by
  have hgaussian : l.gaussian = z := by
    rw [gaussian, h, Int.floor_intCast, Int.floor_intCast]
  exact ⟨by rw [IsGaussian, hgaussian, h], hgaussian⟩

end Literal

/-- The functions that take Gaussian integers to Gaussian integers without rounding. -/
def gaussianFunctions : List UnaryOperation := [.neg, .conj, .real, .imag]

/-- The exact result of such a function. -/
def UnaryOperation.gaussian : UnaryOperation → GaussianInt → GaussianInt
  | .neg, z => -z
  | .conj, z => star z
  | .real, z => ⟨z.re, 0⟩
  | .imag, z => ⟨z.im, 0⟩
  | _, _ => 0

/-- Whether both parts of a Gaussian integer are at most `2 ^ 53`. -/
structure FitsDouble (z : GaussianInt) : Prop where
  re : |z.re| ≤ 2 ^ 53
  im : |z.im| ≤ 2 ^ 53

/-- Whether the four products that the product of two Gaussian integers is made of are at
most `2 ^ 53`. -/
structure ProductsFit (z w : GaussianInt) : Prop where
  re_re : |z.re * w.re| ≤ 2 ^ 53
  im_im : |z.im * w.im| ≤ 2 ^ 53
  re_im : |z.re * w.im| ≤ 2 ^ 53
  im_re : |z.im * w.re| ≤ 2 ^ 53

namespace Phrase

/-- Whether a phrase is made of literals with integer parts, and of sums, differences,
products, signs, brackets and functions that keep Gaussian integers. -/
def IsGaussian : {level : Level} → Phrase level → Prop
  | _, .literal l => l.IsGaussian
  | _, .bracketed body => body.IsGaussian
  | _, .call function argument => function ∈ gaussianFunctions ∧ argument.IsGaussian
  | _, .single body => body.IsGaussian
  | _, .times left operator right => operator = .mul ∧ left.IsGaussian ∧ right.IsGaussian
  | _, .term body => body.IsGaussian
  | _, .signed _ body => body.IsGaussian
  | _, .plus left _ right => left.IsGaussian ∧ right.IsGaussian
  | _, .freeVariable => False
  | _, .power _ _ => False
  | _, .degrees _ => False

/-- The exact value of such a phrase. -/
def gaussian : {level : Level} → Phrase level → GaussianInt
  | _, .literal l => l.gaussian
  | _, .bracketed body => body.gaussian
  | _, .call function argument => function.gaussian argument.gaussian
  | _, .single body => body.gaussian
  | _, .times left _ right => left.gaussian * right.gaussian
  | _, .term body => body.gaussian
  | _, .signed operator body => operator.exact 0 body.gaussian
  | _, .plus left operator right => operator.exact left.gaussian right.gaussian
  | _, .freeVariable => 0
  | _, .power _ _ => 0
  | _, .degrees _ => 0

/-- Whether the parts of all literals, the products of parts and the sums and differences of
parts are at most `2 ^ 53` in the exact evaluation of a phrase. -/
def InRange : {level : Level} → Phrase level → Prop
  | _, .literal l => FitsDouble l.gaussian
  | _, .bracketed body => body.InRange
  | _, .call _ argument => argument.InRange
  | _, .single body => body.InRange
  | _, .times left _ right =>
    left.InRange ∧ right.InRange ∧ ProductsFit left.gaussian right.gaussian ∧
      FitsDouble (left.gaussian * right.gaussian)
  | _, .term body => body.InRange
  | _, .signed _ body => body.InRange
  | _, .plus left operator right =>
    left.InRange ∧ right.InRange ∧ FitsDouble (operator.exact left.gaussian right.gaussian)
  | _, .freeVariable => True
  | _, .power _ _ => True
  | _, .degrees _ => True

theorem IsGaussian.closed {level : Level} {e : Phrase level} (h : e.IsGaussian) :
    e.formula.tree.Closed := by
  induction e with
  | literal l => trivial
  | freeVariable => exact h.elim
  | bracketed body ih => exact ih h
  | call function argument ih => exact ih h.2
  | power base exponent _ _ => exact h.elim
  | single body ih => exact ih h
  | times left operator right ihLeft ihRight => exact ⟨ihLeft h.2.1, ihRight h.2.2⟩
  | degrees angle _ => exact h.elim
  | term body ih => exact ih h
  | signed operator body ih => exact ⟨trivial, ih h⟩
  | plus left operator right ihLeft ihRight => exact ⟨ihLeft h.1, ihRight h.2⟩

end Phrase

/-! ## Ranges -/

theorem fitsDouble_zero : FitsDouble 0 := by
  constructor <;> norm_num

theorem FitsDouble.neg {z : GaussianInt} (h : FitsDouble z) : FitsDouble (-z) := by
  refine ⟨?_, ?_⟩
  · rw [Zsqrtd.re_neg, abs_neg]
    exact h.re
  · rw [Zsqrtd.im_neg, abs_neg]
    exact h.im

theorem FitsDouble.apply {z : GaussianInt} (h : FitsDouble z) (function : UnaryOperation) :
    FitsDouble (function.gaussian z) := by
  have hzero : |(0 : ℤ)| ≤ 2 ^ 53 := by norm_num
  cases function with
  | neg => exact h.neg
  | conj => exact ⟨h.re, (abs_neg z.im).trans_le h.im⟩
  | real => exact ⟨h.re, hzero⟩
  | imag => exact ⟨h.im, hzero⟩
  | _ => exact fitsDouble_zero

theorem FitsDouble.exact_zero {z : GaussianInt} (h : FitsDouble z) (operator : TermOperator) :
    FitsDouble (operator.exact 0 z) := by
  cases operator with
  | add => rwa [show TermOperator.add.exact 0 z = z from zero_add z]
  | sub =>
      rw [show TermOperator.sub.exact 0 z = -z from zero_sub z]
      exact h.neg

/-! ## Exact operations -/

/-- Whether both parts of a complex number are those of a Gaussian integer; zeros may have
either sign. -/
structure ComplexNumber.IsGaussian (z : GaussianInt) (x : ComplexNumber) : Prop where
  re : IsInteger z.re x.re
  im : IsInteger z.im x.im

namespace ComplexNumber

variable {z w : GaussianInt} {x y : ComplexNumber}

theorem isGaussian_zero : IsGaussian 0 zero :=
  ⟨Binary64.isInteger_zero, Binary64.isInteger_zero⟩

theorem IsGaussian.apply (h : x.IsGaussian z) {function : UnaryOperation}
    (hfunction : function ∈ gaussianFunctions) :
    (function.apply x).IsGaussian (function.gaussian z) := by
  have hcases : function = .neg ∨ function = .conj ∨ function = .real ∨ function = .imag := by
    simpa [gaussianFunctions] using hfunction
  rcases hcases with rfl | rfl | rfl | rfl
  · exact ⟨h.re.neg, h.im.neg⟩
  · exact ⟨h.re, h.im.neg⟩
  · exact ⟨h.re, Binary64.isInteger_zero⟩
  · exact ⟨h.im, Binary64.isInteger_zero⟩

theorem IsGaussian.exact (hx : x.IsGaussian z) (hy : y.IsGaussian w) (operator : TermOperator)
    (hfits : FitsDouble (operator.exact z w)) :
    (operator.operation.apply x y).IsGaussian (operator.exact z w) := by
  cases operator with
  | add => exact ⟨hx.re.add hy.re hfits.re, hx.im.add hy.im hfits.im⟩
  | sub => exact ⟨hx.re.sub hy.re hfits.re, hx.im.sub hy.im hfits.im⟩

theorem IsGaussian.mul (hx : x.IsGaussian z) (hy : y.IsGaussian w) (hproducts : ProductsFit z w)
    (hfits : FitsDouble (z * w)) : (x.mul y).IsGaussian (z * w) := by
  have hre : (z * w).re = z.re * w.re - z.im * w.im := by
    rw [Zsqrtd.re_mul]
    ring
  have him : (z * w).im = z.re * w.im + z.im * w.re := Zsqrtd.im_mul z w
  obtain ⟨hreFits, himFits⟩ := hfits
  rw [hre] at hreFits
  rw [him] at himFits
  constructor
  · rw [hre]
    exact (hx.re.mul hy.re hproducts.re_re).sub (hx.im.mul hy.im hproducts.im_im) hreFits
  · rw [him]
    exact (hx.re.mul hy.im hproducts.re_im).add (hx.im.mul hy.re hproducts.im_re) himFits

end ComplexNumber

/-- The rounding after an operation keeps Gaussian integers. -/
theorem ComplexFormat.exists_rounded {f : ComplexFormat}
    (hsymbol : f.symbol = Alphabet.imaginaryUnit.toString) (hplaces : f.precision ≤ maxPlaces)
    {z : GaussianInt} {x : ComplexNumber} (h : x.IsGaussian z) (hfits : FitsDouble z) :
    ∃ y, f.rounded x = .ok y ∧ y.IsGaussian z :=
  ⟨f.settled x, rounded_eq_settled hsymbol hplaces x, h.re.settled hfits.re f.precision,
    h.im.settled hfits.im f.precision⟩

/-! ## Evaluation -/

theorem Numeral.isInteger_nearest {n : Numeral} {k : ℤ} (h : n.decimal.value = k)
    (hrange : |k| ≤ 2 ^ 53) : IsInteger k (n.decimal.nearest false) := by
  have hnonneg : 0 ≤ n.decimal.value := by
    rw [Decimal.value]
    positivity
  have habs : |(k : ℚ)| = k := abs_of_nonneg (h ▸ hnonneg)
  exact Binary64.isInteger_nearest hrange (h.trans habs.symm) habs

theorem Literal.isInteger_factor {n : Option Numeral} {k : ℤ}
    (h : (n.map (·.decimal.value)).getD 1 = k) (hrange : |k| ≤ 2 ^ 53) :
    IsInteger k (factor n) := by
  cases n with
  | none =>
      rw [Option.map_none, Option.getD_none] at h
      have hone : k = 1 := by exact_mod_cast h.symm
      rw [hone, factor_none]
      exact Binary64.isInteger_one
  | some n => exact Numeral.isInteger_nearest h hrange

theorem Literal.isGaussian_number {l : Literal} (hl : l.IsGaussian)
    (hfits : FitsDouble l.gaussian) : l.number.IsGaussian l.gaussian := by
  obtain ⟨hre, him⟩ := Prod.mk.inj hl
  cases l with
  | real n hn =>
      have hzero : (Literal.real n hn).gaussian.im = 0 := Int.floor_zero
      refine ⟨Numeral.isInteger_nearest hre hfits.re, ?_⟩
      rw [hzero]
      exact Binary64.isInteger_zero
  | imaginary n hn =>
      have hzero : (Literal.imaginary n hn).gaussian.re = 0 := Int.floor_zero
      refine ⟨?_, isInteger_factor him hfits.im⟩
      rw [hzero]
      exact Binary64.isInteger_zero

section

variable {f : ComplexFormat} (hsymbol : f.symbol = Alphabet.imaginaryUnit.toString)
  (hplaces : f.precision ≤ ComplexFormat.maxPlaces)

include hsymbol hplaces

theorem Literal.exists_value {l : Literal} (hl : l.IsGaussian) (hfits : FitsDouble l.gaussian) :
    ∃ x, l.value f = .ok x ∧ x.IsGaussian l.gaussian := by
  have hnumber := isGaussian_number hl hfits
  cases l with
  | real n hn => exact ⟨_, rfl, hnumber⟩
  | imaginary n hn => exact ComplexFormat.exists_rounded hsymbol hplaces hnumber hfits

/-- The value of a phrase of Gaussian integers is its exact value, which is in range. -/
theorem Phrase.exists_gaussian (v : Binary64) {level : Level} {e : Phrase level}
    (he : e.IsGaussian) (hrange : e.InRange) :
    FitsDouble e.gaussian ∧ ∃ x, e.value f v = .ok x ∧ x.IsGaussian e.gaussian := by
  -- The range of the exact value is part of the induction: signs and functions have no
  -- bound of their own.
  induction e with
  | literal l => exact ⟨hrange, l.exists_value hsymbol hplaces he hrange⟩
  | freeVariable => exact he.elim
  | bracketed body ih => exact ih he hrange
  | call function argument ih =>
      obtain ⟨hfunction, hargument⟩ := he
      obtain ⟨hfits, x, hvalue, hx⟩ := ih hargument hrange
      refine ⟨hfits.apply function, ?_⟩
      rw [value, hvalue, ok_bind]
      exact ComplexFormat.exists_rounded hsymbol hplaces (hx.apply hfunction)
        (hfits.apply function)
  | power base exponent _ _ => exact he.elim
  | single body ih => exact ih he hrange
  | times left operator right ihLeft ihRight =>
      obtain ⟨rfl, heLeft, heRight⟩ := he
      obtain ⟨hleft, hright, hproducts, hfits⟩ := hrange
      obtain ⟨-, x, hvalueLeft, hx⟩ := ihLeft heLeft hleft
      obtain ⟨-, y, hvalueRight, hy⟩ := ihRight heRight hright
      refine ⟨hfits, ?_⟩
      rw [value, hvalueLeft, hvalueRight, ok_bind, ok_bind]
      exact ComplexFormat.exists_rounded hsymbol hplaces (hx.mul hy hproducts hfits) hfits
  | degrees angle _ => exact he.elim
  | term body ih => exact ih he hrange
  | signed operator body ih =>
      obtain ⟨hfits, x, hvalue, hx⟩ := ih he hrange
      refine ⟨hfits.exact_zero operator, ?_⟩
      rw [value, hvalue, ok_bind]
      exact ComplexFormat.exists_rounded hsymbol hplaces
        (ComplexNumber.isGaussian_zero.exact hx operator (hfits.exact_zero operator))
        (hfits.exact_zero operator)
  | plus left operator right ihLeft ihRight =>
      obtain ⟨hleft, hright, hfits⟩ := hrange
      obtain ⟨-, x, hvalueLeft, hx⟩ := ihLeft he.1 hleft
      obtain ⟨-, y, hvalueRight, hy⟩ := ihRight he.2 hright
      refine ⟨hfits, ?_⟩
      rw [value, hvalueLeft, hvalueRight, ok_bind, ok_bind]
      exact ComplexFormat.exists_rounded hsymbol hplaces (hx.exact hy operator hfits) hfits

end

/-! ## Texts -/

/-- The digits of an integer, with so many zeros behind a point. -/
def wholeText (places n : ℕ) : List Char :=
  Nat.toDigits 10 n ++ if places = 0 then [] else '.' :: List.replicate places '0'

/-- The text of a Gaussian integer with so many decimal places; no zero has a minus sign. -/
def gaussianText (places : ℕ) (z : GaussianInt) : String :=
  String.ofList ((if z.re < 0 then ['-'] else []) ++ wholeText places z.re.natAbs ++
    ' ' :: signChar (z.im < 0) :: ' ' :: wholeText places z.im.natAbs ++
      [Alphabet.imaginaryUnit])

theorem toDigits_mul_pow {n : ℕ} (hn : 0 < n) (places : ℕ) :
    Nat.toDigits 10 (n * 10 ^ places) = Nat.toDigits 10 n ++ List.replicate places '0' := by
  induction places with
  | zero => simp
  | succ places ih =>
      have hpos : 0 < n * 10 ^ places := by positivity
      have hstep : n * 10 ^ (places + 1) = 10 * (n * 10 ^ places) + 0 := by ring
      rw [hstep, ← Nat.toDigits_append_toDigits (by norm_num) hpos (by norm_num), ih,
        List.append_assoc, List.replicate_succ']
      rfl

/-- An integer fills its decimal places with zeros. -/
theorem numeral_mul_pow (places n : ℕ) :
    Text.numeral 10 (places + 1) (n * 10 ^ places) =
      Nat.toDigits 10 n ++ List.replicate places '0' := by
  rcases Nat.eq_zero_or_pos n with rfl | hn
  · rw [Nat.zero_mul, Text.numeral, Nat.toDigits_zero]
    change List.replicate places '0' ++ ['0'] = '0' :: List.replicate places '0'
    rw [← List.replicate_succ', List.replicate_succ]
  · have hlength : 0 < (Nat.toDigits 10 n).length := Nat.length_toDigits_pos
    have hnone : places + 1 - ((Nat.toDigits 10 n).length + places) = 0 := by omega
    rw [Text.numeral, toDigits_mul_pow hn, List.length_append, List.length_replicate, hnone,
      List.replicate_zero, List.nil_append]

theorem fixedText_mul_pow (places n : ℕ) :
    fixedText places (n * 10 ^ places) = wholeText places n := by
  rw [fixedText, numeral_mul_pow, wholeText, List.length_append, List.length_replicate,
    Nat.add_sub_cancel, List.take_left, List.drop_left]

theorem exactText_mul_pow (places : ℕ) (z : GaussianInt) :
    exactText places (z.re * 10 ^ places) (z.im * 10 ^ places) = gaussianText places z := by
  have hsign (n : ℤ) : n * 10 ^ places < 0 ↔ n < 0 := by
    rw [← not_le, ← not_le, mul_nonneg_iff_of_pos_right (by positivity)]
  have habs (n : ℤ) : (n * 10 ^ places).natAbs = n.natAbs * 10 ^ places := by
    rw [Int.natAbs_mul, Int.natAbs_pow]
    rfl
  simp only [exactText, gaussianText, hsign, habs, fixedText_mul_pow]

/-! ## Sessions -/

namespace Session

/-- An expression over Gaussian integers, in any spacing, is evaluated to the text of its
exact value, provided that no integer on the way exceeds `2 ^ 53`. -/
theorem evaluate_gaussian (s : Session) (hplaces : s.precision ≤ 2147483647) (e : Phrase .sum)
    (he : e.IsGaussian) (hrange : e.InRange) (text : String)
    (htext : Spaced e.pieces text.toList) :
    ∃ s', s.parse (.text text) = .ok s' ∧
      s'.evaluate .absent = .ok (gaussianText s.precision e.gaussian) := by
  have hclose := Expression.closeGaps_spaced (Expression.separated_phrase e) htext none false
    (by simp)
  obtain ⟨s', hparse, hevaluate⟩ := evaluate_absent_of_closed hplaces he.closed hclose
  obtain ⟨-, x, hvalue, hx⟩ :=
    Phrase.exists_gaussian (f := s.format) rfl hplaces .zero he hrange
  refine ⟨s', hparse, ?_⟩
  rw [hevaluate, hvalue, ok_bind, ← exactText_mul_pow]
  exact ComplexFormat.format_of_near (f := s.format) rfl hplaces (by norm_num) (hx.re.near _)
    (hx.im.near _)

/-- The digits of `2 ^ 53 - 4`. -/
def nearBound : Numeral := ⟨"9007199254740988".toList, none, none, by decide, by decide⟩

def four : Numeral := ⟨['4'], none, none, by decide, by decide⟩

/-- The phrase `neg(9007199254740988I)+conj(I)*4`. -/
def sumAtBound : Phrase .sum :=
  .plus
    (.term (.single (.call .neg (.term (.single (.literal (.imaginary (some nearBound)
      (by simpa using Numeral.unsigned_of_exponent_eq_none rfl))))))))
    .add
    (.times
      (.single (.call .conj (.term (.single (.literal (.imaginary none Literal.unsigned_none))))))
      .mul
      (.literal (.real four (Numeral.unsigned_of_exponent_eq_none rfl))))

/-- The result has more digits than are exact in general, and a real part that is the sum of
zeros of both signs. -/
theorem evaluate_gaussian_atBound :
    sumAtBound.IsGaussian ∧ sumAtBound.InRange ∧ sumAtBound.gaussian = ⟨0, -2 ^ 53⟩ ∧
      ∃ s', (⟨2, []⟩ : Session).parse (.text "neg(9007199254740988I) + conj( I )*4") = .ok s' ∧
        s'.evaluate .absent = .ok "0.00 - 9007199254740992.00I" := by
  have hnear := Literal.isGaussian_of_exactValue (z := ⟨0, 9007199254740988⟩)
    (l := .imaginary (some nearBound) (by simpa using Numeral.unsigned_of_exponent_eq_none rfl))
    (congrArg (Prod.mk 0) (Numeral.value_whole rfl rfl))
  have hunit := Literal.isGaussian_of_exactValue (z := ⟨0, 1⟩)
    (l := .imaginary none Literal.unsigned_none) (by simp [Literal.exactValue])
  have hfour := Literal.isGaussian_of_exactValue (z := ⟨4, 0⟩)
    (l := .real four (Numeral.unsigned_of_exponent_eq_none rfl))
    (congrArg (Prod.mk · 0) (Numeral.value_whole rfl rfl))
  have hgaussian : sumAtBound.IsGaussian :=
    ⟨⟨by decide, hnear.1⟩, rfl, ⟨by decide, hunit.1⟩, hfour.1⟩
  have hexact : sumAtBound.gaussian = ⟨0, -2 ^ 53⟩ := by
    simp only [sumAtBound, Phrase.gaussian, hnear.2, hunit.2, hfour.2]
    decide
  have hrange : sumAtBound.InRange := by
    simp only [sumAtBound, Phrase.InRange, Phrase.gaussian, hnear.2, hunit.2, hfour.2]
    refine ⟨?_, ⟨?_, ?_, ?_, ?_⟩, ?_⟩
    all_goals constructor <;> decide
  have hpieces : sumAtBound.pieces =
      ["neg".toList, ['('], "9007199254740988I".toList, [')'], ['+'], "conj".toList, ['('], ['I'],
        [')'], ['*'], ['4']] := by
    decide
  have htext : Spaced sumAtBound.pieces "neg(9007199254740988I) + conj( I )*4".toList := by
    rw [hpieces]
    exact .next (.next (.next (.next (.space (.next (.space (.next (.next (.space (.next
      (.space (.next (.next (.next .empty))))))))))))))
  obtain ⟨s', hparse, hevaluate⟩ :=
    evaluate_gaussian ⟨2, []⟩ (by decide) sumAtBound hgaussian hrange
      "neg(9007199254740988I) + conj( I )*4" htext
  refine ⟨hgaussian, hrange, hexact, s', hparse, ?_⟩
  rw [hevaluate, hexact]
  rfl

end Session

end ComplexCalculator
