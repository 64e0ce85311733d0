import ComplexCalculator.Proofs.ComplexFormat.Exact
import ComplexCalculator.Proofs.Session.Reentry

/-!
# Exact sums

Sums and differences of decimals are evaluated exactly, although neither the literals nor the
results of the operations are exact in double precision.  Every operand is the number nearest
to an exact decimal with as many places as the format has.  The result of an operation is less
than half a unit of the last place away from the exact one, and rounding to the places of the
format takes it to the number nearest to the exact result.
-/

namespace ComplexCalculator

open Binary64 (ofPlaces)
open Expression (Spaced)

/-! ## Exact values -/

/-- Whether a numeral has at most so many digits behind the point, and no exponent. -/
def Numeral.IsFixed (places : ℕ) (n : Numeral) : Prop :=
  n.exponent = none ∧ (n.fraction.getD []).length ≤ places

namespace Literal

/-- Whether a literal has at most so many digits behind the point, and no exponent. -/
def IsFixed (places : ℕ) : Literal → Prop
  | .real n _ => n.IsFixed places
  | .imaginary n _ => ∀ m ∈ n, m.IsFixed places

/-- The real and the imaginary part that a literal is written for. -/
def exactValue : Literal → ℚ × ℚ
  | .real n _ => (n.decimal.value, 0)
  | .imaginary n _ => (0, (n.map (·.decimal.value)).getD 1)

end Literal

/-- The exact result of an operator. -/
def TermOperator.exact {α : Type} [Add α] [Sub α] : TermOperator → α → α → α
  | .add => (· + ·)
  | .sub => (· - ·)

namespace Phrase

/-- Whether a phrase is made of literals with at most so many digits behind the point, and of
sums, differences, signs, negations and brackets. -/
def IsFixedSum (places : ℕ) : {level : Level} → Phrase level → Prop
  | _, .literal l => l.IsFixed places
  | _, .bracketed body => body.IsFixedSum places
  | _, .call function argument => function = .neg ∧ argument.IsFixedSum places
  | _, .single body => body.IsFixedSum places
  | _, .term body => body.IsFixedSum places
  | _, .signed _ body => body.IsFixedSum places
  | _, .plus left _ right => left.IsFixedSum places ∧ right.IsFixedSum places
  | _, .freeVariable => False
  | _, .power _ _ => False
  | _, .times _ _ _ => False
  | _, .degrees _ => False

/-- The real and the imaginary part of the exact value of such a phrase. -/
def exactValue : {level : Level} → Phrase level → ℚ × ℚ
  | _, .literal l => l.exactValue
  | _, .bracketed body => body.exactValue
  | _, .call _ argument => -argument.exactValue
  | _, .single body => body.exactValue
  | _, .term body => body.exactValue
  | _, .signed operator body => operator.exact 0 body.exactValue
  | _, .plus left operator right => operator.exact left.exactValue right.exactValue
  | _, .freeVariable => 0
  | _, .power _ _ => 0
  | _, .times _ _ _ => 0
  | _, .degrees _ => 0

/-- Whether both parts of the exact value are bounded, for the phrase itself and for all
phrases that it is made of. -/
def Bounded (bound : ℚ) : {level : Level} → Phrase level → Prop
  | _, .literal l => |l.exactValue.1| ≤ bound ∧ |l.exactValue.2| ≤ bound
  | _, .bracketed body => body.Bounded bound
  | _, .call _ argument => argument.Bounded bound
  | _, .single body => body.Bounded bound
  | _, .term body => body.Bounded bound
  | _, .signed _ body => body.Bounded bound
  | _, .plus left operator right =>
    left.Bounded bound ∧ right.Bounded bound ∧
      |(operator.exact left.exactValue right.exactValue).1| ≤ bound ∧
      |(operator.exact left.exactValue right.exactValue).2| ≤ bound
  | _, .freeVariable => True
  | _, .power _ _ => True
  | _, .times _ _ _ => True
  | _, .degrees _ => True

theorem IsFixedSum.closed {places : ℕ} {level : Level} {e : Phrase level}
    (h : e.IsFixedSum places) : e.formula.tree.Closed := by
  induction e with
  | literal l => trivial
  | freeVariable => exact h.elim
  | bracketed body ih => exact ih h
  | call function argument ih => exact ih h.2
  | power base exponent _ _ => exact h.elim
  | single body ih => exact ih h
  | times left operator right _ _ => exact h.elim
  | degrees angle _ => exact h.elim
  | term body ih => exact ih h
  | signed operator body ih => exact ⟨trivial, ih h⟩
  | plus left operator right ihLeft ihRight => exact ⟨ihLeft h.1, ihRight h.2⟩

end Phrase

/-! ## Whole numbers of units -/

/-- The value of so many units of the last decimal place in both parts. -/
def unitsValue (places : ℕ) (z : ℤ × ℤ) : ℚ × ℚ := (z.1 / 10 ^ places, z.2 / 10 ^ places)

/-- Whether both parts are so small that the units are not lost in rounding. -/
def Few (z : ℤ × ℤ) : Prop := |z.1| ≤ 10 ^ 15 ∧ |z.2| ≤ 10 ^ 15

/-- The complex number nearest to so many units of the last decimal place. -/
def ComplexNumber.ofPlaces (places : ℕ) (z : ℤ × ℤ) : ComplexNumber :=
  ⟨.ofPlaces places z.1, .ofPlaces places z.2⟩

variable {f : ComplexFormat} {places : ℕ}

theorem unitsValue_neg (places : ℕ) (z : ℤ × ℤ) :
    unitsValue places (-z) = -unitsValue places z := by
  simp [unitsValue, neg_div]

theorem unitsValue_exact (places : ℕ) (operator : TermOperator) (z w : ℤ × ℤ) :
    unitsValue places (operator.exact z w) =
      operator.exact (unitsValue places z) (unitsValue places w) := by
  cases operator with
  | add => simp [unitsValue, TermOperator.exact, add_div]
  | sub => simp [unitsValue, TermOperator.exact, sub_div]

theorem unitsValue_zero (places : ℕ) : unitsValue places 0 = 0 := by
  simp [unitsValue]

theorem Few.neg {z : ℤ × ℤ} (h : Few z) : Few (-z) := by
  simpa [Few] using h

theorem few_zero : Few 0 := by
  simp [Few]

/-- The bound on exact values is one on units. -/
theorem few_of_bounded (hplaces : places ≤ 15) {z : ℤ × ℤ}
    (hre : |(unitsValue places z).1| ≤ 10 ^ (15 - places))
    (him : |(unitsValue places z).2| ≤ 10 ^ (15 - places)) : Few z := by
  have hle {n : ℤ} (h : |(n : ℚ) / 10 ^ places| ≤ 10 ^ (15 - places)) : |n| ≤ 10 ^ 15 := by
    have hpos : (0 : ℚ) < 10 ^ places := by positivity
    rw [abs_div, abs_of_pos hpos, div_le_iff₀ hpos, ← pow_add, Nat.sub_add_cancel hplaces] at h
    exact_mod_cast h
  exact ⟨hle hre, hle him⟩

theorem Numeral.IsFixed.exists_units {n : Numeral} (h : n.IsFixed places) :
    ∃ k : ℕ, n.decimal.value = k / 10 ^ places := by
  obtain ⟨hexponent, hfraction⟩ := h
  refine ⟨n.decimal.significand * 10 ^ (places - (n.fraction.getD []).length), ?_⟩
  have hpower : (10 : ℚ) ^ places = 10 ^ (places - (n.fraction.getD []).length) *
      10 ^ (n.fraction.getD []).length := by
    rw [← pow_add, Nat.sub_add_cancel hfraction]
  have hscale : n.decimal.exponent = -((n.fraction.getD []).length : ℤ) := by
    rw [Numeral.decimal, hexponent]
    exact zero_sub _
  rw [Decimal.value, hscale, zpow_neg, zpow_natCast, hpower]
  push_cast
  field_simp

/-- The number in front of an imaginary unit is a whole number of units. -/
theorem Literal.exists_units_factor {n : Option Numeral} (h : ∀ m ∈ n, m.IsFixed places) :
    ∃ k : ℕ, (n.map (·.decimal.value)).getD 1 = k / 10 ^ places ∧
      factor n = .ofPlaces places k := by
  cases n with
  | none =>
      refine ⟨10 ^ places, ?_, ?_⟩
      · push_cast
        exact (div_self (by positivity)).symm
      · rw [Binary64.ofPlaces_one, factor_none]
  | some n =>
      obtain ⟨k, hk⟩ := (h n rfl).exists_units
      exact ⟨k, hk, Binary64.ofPlaces_of_value hk⟩

/-! ## Operations -/

section

variable (hsymbol : f.symbol = Alphabet.imaginaryUnit.toString) (hplaces : f.precision ≤ 15)

include hsymbol hplaces

/-- A number both parts of which round to units is rounded to these units. -/
theorem rounded_eq_ofPlaces {x : ComplexNumber} {z : ℤ × ℤ}
    (hre : x.re.settled f.precision = .ofPlaces f.precision z.1)
    (him : x.im.settled f.precision = .ofPlaces f.precision z.2) :
    f.rounded x = .ok (.ofPlaces f.precision z) := by
  rw [ComplexFormat.rounded_eq_settled hsymbol (hplaces.trans (by decide))]
  exact congrArg Except.ok (congrArg₂ ComplexNumber.mk hre him)

theorem rounded_ofPlaces {z : ℤ × ℤ} (hz : Few z) :
    f.rounded (.ofPlaces f.precision z) = .ok (.ofPlaces f.precision z) :=
  rounded_eq_ofPlaces hsymbol hplaces (Binary64.settled_ofPlaces hplaces hz.1)
    (Binary64.settled_ofPlaces hplaces hz.2)

theorem rounded_neg_ofPlaces {z : ℤ × ℤ} (hz : Few z) :
    f.rounded (ComplexNumber.ofPlaces f.precision z).neg = .ok (.ofPlaces f.precision (-z)) :=
  rounded_eq_ofPlaces hsymbol hplaces (Binary64.settled_neg_ofPlaces hplaces hz.1)
    (Binary64.settled_neg_ofPlaces hplaces hz.2)

/-- Rounding the result of an operator gives the number nearest to the exact result. -/
theorem rounded_operator_ofPlaces (operator : TermOperator) {z w : ℤ × ℤ} (hz : Few z)
    (hw : Few w) (h : Few (operator.exact z w)) :
    f.rounded (operator.operation.apply (.ofPlaces f.precision z) (.ofPlaces f.precision w)) =
      .ok (.ofPlaces f.precision (operator.exact z w)) := by
  cases operator with
  | add =>
      exact rounded_eq_ofPlaces hsymbol hplaces
        (Binary64.settled_add_ofPlaces hplaces hz.1 hw.1 h.1)
        (Binary64.settled_add_ofPlaces hplaces hz.2 hw.2 h.2)
  | sub =>
      exact rounded_eq_ofPlaces hsymbol hplaces
        (Binary64.settled_sub_ofPlaces hplaces hz.1 hw.1 h.1)
        (Binary64.settled_sub_ofPlaces hplaces hz.2 hw.2 h.2)

end

/-! ## Phrases -/

namespace Phrase

/-- Whether the exact value of a phrase is a whole number of few units in both parts, and the
phrase is evaluated to the number nearest to it. -/
structure IsExact (f : ComplexFormat) (v : Binary64) {level : Level} (e : Phrase level)
    (z : ℤ × ℤ) : Prop where
  few : Few z
  exactValue_eq : e.exactValue = unitsValue f.precision z
  value_eq : e.value f v = .ok (.ofPlaces f.precision z)

variable {v : Binary64}

section

variable (hsymbol : f.symbol = Alphabet.imaginaryUnit.toString) (hplaces : f.precision ≤ 15)

include hsymbol hplaces

theorem exists_isExact_literal {l : Literal} (hl : l.IsFixed f.precision)
    (hbound : (literal l).Bounded (10 ^ (15 - f.precision))) :
    ∃ z, IsExact f v (literal l) z := by
  obtain ⟨hre, him⟩ := hbound
  cases l with
  | real n hn =>
      obtain ⟨k, hk⟩ := hl.exists_units
      have hexact : (Literal.real n hn).exactValue = unitsValue f.precision (k, 0) := by
        simp [Literal.exactValue, unitsValue, hk]
      rw [hexact] at hre him
      refine ⟨(k, 0), few_of_bounded hplaces hre him, hexact, ?_⟩
      rw [value, Literal.value, Literal.number, ComplexNumber.ofReal, Binary64.ofPlaces_of_value hk,
        ComplexNumber.ofPlaces, Binary64.ofPlaces_zero]
  | imaginary n hn =>
      obtain ⟨k, hk, hfactor⟩ := Literal.exists_units_factor hl
      have hexact : (Literal.imaginary n hn).exactValue = unitsValue f.precision (0, k) := by
        simp [Literal.exactValue, unitsValue, hk]
      rw [hexact] at hre him
      have hfew := few_of_bounded hplaces hre him
      refine ⟨(0, k), hfew, hexact, ?_⟩
      have hnumber : (Literal.imaginary n hn).number = .ofPlaces f.precision (0, (k : ℤ)) := by
        rw [Literal.number, hfactor, ComplexNumber.ofPlaces, Binary64.ofPlaces_zero]
      rw [value, Literal.value, hnumber]
      exact rounded_ofPlaces hsymbol hplaces hfew

theorem IsExact.neg {argument : Phrase .sum} {z : ℤ × ℤ} (h : IsExact f v argument z) :
    IsExact f v (call .neg argument) (-z) := by
  refine ⟨h.few.neg, ?_, ?_⟩
  · rw [exactValue, h.exactValue_eq, unitsValue_neg]
  · rw [value, h.value_eq, ok_bind]
    exact rounded_neg_ofPlaces hsymbol hplaces h.few

theorem IsExact.signed {body : Phrase .product} {z : ℤ × ℤ} (h : IsExact f v body z)
    (operator : TermOperator) :
    IsExact f v (Phrase.signed operator body) (operator.exact 0 z) := by
  have hfew : Few (operator.exact 0 z) := by
    cases operator with
    | add => simpa [TermOperator.exact] using h.few
    | sub => simpa [TermOperator.exact] using h.few.neg
  have hzero : ComplexNumber.ofPlaces f.precision 0 = .zero := by
    rw [ComplexNumber.ofPlaces, Prod.fst_zero, Prod.snd_zero, Binary64.ofPlaces_zero]
    rfl
  refine ⟨hfew, ?_, ?_⟩
  · rw [exactValue, h.exactValue_eq, unitsValue_exact, unitsValue_zero]
  · rw [value, h.value_eq, ok_bind, ← hzero]
    exact rounded_operator_ofPlaces hsymbol hplaces operator few_zero h.few hfew

theorem IsExact.plus {left : Phrase .sum} {right : Phrase .product} {z w : ℤ × ℤ}
    (hleft : IsExact f v left z) (hright : IsExact f v right w) (operator : TermOperator)
    (hfew : Few (operator.exact z w)) :
    IsExact f v (Phrase.plus left operator right) (operator.exact z w) := by
  refine ⟨hfew, ?_, ?_⟩
  · rw [exactValue, hleft.exactValue_eq, hright.exactValue_eq, unitsValue_exact]
  · rw [value, hleft.value_eq, hright.value_eq, ok_bind, ok_bind]
    exact rounded_operator_ofPlaces hsymbol hplaces operator hleft.few hright.few hfew

/-- Sums of decimals are evaluated exactly. -/
theorem exists_isExact (v : Binary64) {level : Level} (e : Phrase level)
    (he : e.IsFixedSum f.precision) (hbound : e.Bounded (10 ^ (15 - f.precision))) :
    ∃ z, IsExact f v e z := by
  induction e with
  | literal l => exact exists_isExact_literal hsymbol hplaces he hbound
  | freeVariable => exact he.elim
  | bracketed body ih =>
      obtain ⟨z, hz⟩ := ih he hbound
      exact ⟨z, hz.few, hz.exactValue_eq, hz.value_eq⟩
  | call function argument ih =>
      obtain ⟨rfl, hargument⟩ := he
      obtain ⟨z, hz⟩ := ih hargument hbound
      exact ⟨-z, hz.neg hsymbol hplaces⟩
  | power base exponent _ _ => exact he.elim
  | single body ih =>
      obtain ⟨z, hz⟩ := ih he hbound
      exact ⟨z, hz.few, hz.exactValue_eq, hz.value_eq⟩
  | times left operator right _ _ => exact he.elim
  | degrees angle _ => exact he.elim
  | term body ih =>
      obtain ⟨z, hz⟩ := ih he hbound
      exact ⟨z, hz.few, hz.exactValue_eq, hz.value_eq⟩
  | signed operator body ih =>
      obtain ⟨z, hz⟩ := ih he hbound
      exact ⟨operator.exact 0 z, hz.signed hsymbol hplaces operator⟩
  | plus left operator right ihLeft ihRight =>
      obtain ⟨hleft, hright, hre, him⟩ := hbound
      obtain ⟨z, hz⟩ := ihLeft he.1 hleft
      obtain ⟨w, hw⟩ := ihRight he.2 hright
      rw [hz.exactValue_eq, hw.exactValue_eq, ← unitsValue_exact] at hre him
      exact ⟨operator.exact z w,
        hz.plus hsymbol hplaces hw operator (few_of_bounded hplaces hre him)⟩

end

end Phrase

namespace Session

/-- A sum of decimals with no more digits behind the point than the precision has places, in
any spacing, is evaluated to the text of its exact value, as long as no part of a literal or
of an intermediate result exceeds `10 ^ 15` units of the last place. -/
theorem evaluate_fixedSum (s : Session) (hplaces : s.precision ≤ 15) (e : Phrase .sum)
    (he : e.IsFixedSum s.precision) (hbound : e.Bounded (10 ^ (15 - s.precision)))
    (text : String) (htext : Spaced e.pieces text.toList) :
    ∃ (s' : Session) (re im : ℤ), s.parse (.text text) = .ok s' ∧
      e.exactValue = ((re : ℚ) / 10 ^ s.precision, (im : ℚ) / 10 ^ s.precision) ∧
      s'.evaluate .absent = .ok (exactText s.precision re im) := by
  have hmax : s.precision ≤ ComplexFormat.maxPlaces := hplaces.trans (by decide)
  have hclose := Expression.closeGaps_spaced (Expression.separated_phrase e) htext none false
    (by simp)
  obtain ⟨s', hparse, hevaluate⟩ := evaluate_absent_of_closed hmax he.closed hclose
  obtain ⟨⟨re, im⟩, hexact⟩ := Phrase.exists_isExact (f := s.format) rfl hplaces .zero e he hbound
  refine ⟨s', re, im, hparse, hexact.exactValue_eq, ?_⟩
  rw [hevaluate, hexact.value_eq, ok_bind]
  exact ComplexFormat.format_of_near (f := s.format) rfl hmax (by norm_num)
    (Binary64.near_ofPlaces hplaces hexact.few.1) (Binary64.near_ofPlaces hplaces hexact.few.2)

/-- The numeral with one digit, which stands behind the point. -/
def tenths (digit : Char) (h : Text.isDecimalDigit digit = true) : Numeral :=
  ⟨[], some [digit], none, by simpa using h, by simp⟩

/-- The phrase `-(.1+.2)+.3I`. -/
def sumOfTenths : Phrase .sum :=
  .plus
    (.signed .sub (.single (.bracketed
      (.plus
        (.term (.single (.literal (.real (tenths '1' (by decide))
          (Numeral.unsigned_of_exponent_eq_none rfl)))))
        .add
        (.single (.literal (.real (tenths '2' (by decide))
          (Numeral.unsigned_of_exponent_eq_none rfl))))))))
    .add
    (.single (.literal (.imaginary (some (tenths '3' (by decide)))
      (by simpa using Numeral.unsigned_of_exponent_eq_none rfl))))

/-- The double-precision sum of one tenth and two tenths is not the number nearest to three
tenths. -/
theorem evaluate_fixedSum_tenths :
    sumOfTenths.IsFixedSum 1 ∧ sumOfTenths.Bounded (10 ^ (15 - 1)) ∧
      sumOfTenths.exactValue = (-3 / 10, 3 / 10) ∧
      ∃ s', (⟨1, []⟩ : Session).parse (.text "-(.1+.2) + .3I") = .ok s' ∧
        s'.evaluate .absent = .ok "-0.3 + 0.3I" := by
  have hfixed : sumOfTenths.IsFixedSum 1 := by
    simp [sumOfTenths, Phrase.IsFixedSum, Literal.IsFixed, Numeral.IsFixed, tenths]
  have htenths {digit : Char} {hdigit : Text.isDecimalDigit digit = true} {k : ℕ}
      (h : (tenths digit hdigit).decimal = .ofPlaces 1 k) :
      (tenths digit hdigit).decimal.value = k / 10 := by
    rw [h, Decimal.value_ofPlaces, pow_one]
  have hone : (tenths '1' (by decide)).decimal.value = (1 : ℕ) / 10 := htenths (by decide)
  have htwo : (tenths '2' (by decide)).decimal.value = (2 : ℕ) / 10 := htenths (by decide)
  have hthree : (tenths '3' (by decide)).decimal.value = (3 : ℕ) / 10 := htenths (by decide)
  have hexact : sumOfTenths.exactValue = (-3 / 10, 3 / 10) := by
    norm_num [sumOfTenths, Phrase.exactValue, Literal.exactValue, TermOperator.exact, hone, htwo,
      hthree]
  have hbound : sumOfTenths.Bounded (10 ^ (15 - 1)) := by
    norm_num [sumOfTenths, Phrase.Bounded, Phrase.exactValue, Literal.exactValue,
      TermOperator.exact, hone, htwo, hthree, abs_of_pos, abs_of_neg]
  have hpieces : sumOfTenths.pieces =
      [['-'], ['('], ".1".toList, ['+'], ".2".toList, [')'], ['+'], ".3I".toList] := by
    decide
  have htext : Spaced sumOfTenths.pieces "-(.1+.2) + .3I".toList := by
    rw [hpieces]
    exact .next (.next (.next (.next (.next (.next (.space (.next (.space (.next .empty)))))))))
  obtain ⟨s', re, im, hparse, hvalue, hevaluate⟩ :=
    evaluate_fixedSum ⟨1, []⟩ (by decide) sumOfTenths hfixed hbound "-(.1+.2) + .3I" htext
  refine ⟨hfixed, hbound, hexact, s', hparse, ?_⟩
  rw [hexact, Prod.mk.injEq] at hvalue
  have hre : re = -3 := by
    have h : (re : ℚ) = -3 := by linarith [hvalue.1]
    exact_mod_cast h
  have him : im = 3 := by
    have h : (im : ℚ) = 3 := by linarith [hvalue.2]
    exact_mod_cast h
  rw [hevaluate, hre, him]
  rfl

end Session

end ComplexCalculator
