import ComplexCalculator.Proofs.ComplexFormat.Signs
import ComplexCalculator.Proofs.Expression.Phrase

/-!
# Literals of complex numbers

What the reader of complex numbers accepts is a literal, perhaps with a sign, or a real
literal and an imaginary one with a sign between them.  Such a text is a phrase as well.  As
a phrase it is evaluated in several steps, each of which rounds, and yet its value is
written like the number that the reader gives: rounding twice is rounding once, and a change
of sign or a sum with zero does not show.
-/

namespace ComplexCalculator

open ComplexFormat (applySign)

/-- A complex number as texts have it whose numbers are literals of expressions. -/
inductive ComplexLiteral where
  /-- A real or imaginary number, perhaps with a sign; true stands for minus. -/
  | single (sign : Option Bool) (l : Literal)
  /-- A real number, perhaps with a sign, and a signed imaginary one. -/
  | pair (sign : Option Bool) (n : Numeral) (hn : n.Unsigned) (negative : Bool)
      (m : Option Numeral) (hm : ∀ k ∈ m, k.Unsigned)

/-- The operator that a sign is between terms. -/
def TermOperator.ofSign (negative : Bool) : TermOperator := if negative then .sub else .add

namespace Literal

/-- The number that a literal with a sign is read as. -/
def signedNumber (negative : Bool) : Literal → ComplexNumber
  | .real n _ => .ofReal (applySign negative (n.decimal.nearest false))
  | .imaginary m _ => ⟨.zero, applySign negative (factor m)⟩

/-- The phrase that a literal with a sign is. -/
def signedPhrase (sign : Option Bool) (l : Literal) : Phrase .sum :=
  match sign with
  | none => .term (.single (.literal l))
  | some negative => .signed (.ofSign negative) (.single (.literal l))

end Literal

namespace ComplexLiteral

/-- The characters of a complex literal, without blanks. -/
def text : ComplexLiteral → List Char
  | .single sign l => (sign.map signChar).toList ++ l.text
  | .pair sign n _ negative m _ =>
    (sign.map signChar).toList ++ n.text ++
      signChar negative :: Literal.factorText m ++ [Alphabet.imaginaryUnit]

/-- The number that a complex literal is read as. -/
def number : ComplexLiteral → ComplexNumber
  | .single sign l => l.signedNumber (sign == some true)
  | .pair sign n _ negative m _ =>
    ⟨applySign (sign == some true) (n.decimal.nearest false),
      applySign negative (Literal.factor m)⟩

/-- The phrase that a complex literal is. -/
def phrase : ComplexLiteral → Phrase .sum
  | .single sign l => l.signedPhrase sign
  | .pair sign n hn negative m hm =>
    .plus ((Literal.real n hn).signedPhrase sign) (.ofSign negative)
      (.single (.literal (.imaginary m hm)))

end ComplexLiteral

/-! ## Phrases -/

theorem TermOperator.toList_ofSign (negative : Bool) :
    (ofSign negative).operation.symbol.toList = [signChar negative] := by
  cases negative <;> decide

theorem Literal.flatten_signedPhrase (sign : Option Bool) (l : Literal) :
    (l.signedPhrase sign).pieces.flatten = (sign.map signChar).toList ++ l.text := by
  cases sign with
  | none => simp [signedPhrase, Phrase.pieces]
  | some negative => simp [signedPhrase, Phrase.pieces, TermOperator.toList_ofSign]

/-- The phrase is written with the characters of the literal. -/
theorem ComplexLiteral.flatten_phrase (c : ComplexLiteral) : c.phrase.pieces.flatten = c.text := by
  cases c with
  | single sign l => exact l.flatten_signedPhrase sign
  | pair sign n hn negative m hm =>
      have hreal := (Literal.real n hn).flatten_signedPhrase sign
      simp [phrase, Phrase.pieces, hreal, TermOperator.toList_ofSign, text, Literal.text]

theorem Literal.closed_signedPhrase (sign : Option Bool) (l : Literal) :
    (l.signedPhrase sign).formula.tree.Closed := by
  cases sign with
  | none => trivial
  | some negative => exact ⟨trivial, trivial⟩

theorem ComplexLiteral.closed_phrase (c : ComplexLiteral) : c.phrase.formula.tree.Closed := by
  cases c with
  | single sign l => exact l.closed_signedPhrase sign
  | pair sign n hn negative m hm => exact ⟨(Literal.real n hn).closed_signedPhrase sign, trivial⟩

/-! ## Signs and zeros -/

/-- The difference or sum of two numbers, by the sign between them. -/
theorem TermOperator.apply_ofSign (negative : Bool) (z w : ComplexNumber) :
    (ofSign negative).operation.apply z w =
      ⟨if negative then z.re - w.re else z.re + w.re,
        if negative then z.im - w.im else z.im + w.im⟩ := by
  cases negative <;> rfl

namespace Binary64

variable (places : ℕ) (negative : Bool)

/-- Adding a number to zero, or subtracting it, is writing a sign in front of it. -/
theorem settled_zero_applySign {x y : Binary64} (h : settled places x = settled places y) :
    settled places (if negative then zero - x else zero + x) =
      settled places (applySign negative y) := by
  cases negative with
  | false => exact (settled_zero_add places x).trans h
  | true => exact (settled_zero_sub places x).trans (settled_neg_congr places h)

theorem settled_applySign_zero (x : Binary64) :
    settled places (if negative then x - zero else x + zero) = settled places x := by
  cases negative with
  | false => exact settled_add_zero places x
  | true => exact settled_sub_zero places x

theorem settled_zero_zero :
    settled places (if negative then zero - zero else zero + zero) = zero := by
  rw [settled_applySign_zero, settled_zero]

end Binary64

/-! ## Values -/

section

variable {f : ComplexFormat} (hsymbol : f.symbol = Alphabet.imaginaryUnit.toString)
  (hplaces : f.precision ≤ ComplexFormat.maxPlaces)

include hsymbol hplaces

theorem Literal.value_imaginary (m : Option Numeral) (hm : ∀ k ∈ m, k.Unsigned) :
    (imaginary m hm).value f =
      .ok ⟨.zero, (factor m).settled f.precision⟩ := by
  rw [value, ComplexFormat.rounded_eq_settled hsymbol hplaces, number, ComplexFormat.settled,
    Binary64.settled_zero]

/-- A real literal with a sign has a real value. -/
theorem Literal.exists_value_signedReal (v : Binary64) (sign : Option Bool) (n : Numeral)
    (hn : n.Unsigned) :
    ∃ u, ((real n hn).signedPhrase sign).value f v = .ok u ∧ u.im = .zero ∧
      u.re.settled f.precision =
        (applySign (sign == some true) (n.decimal.nearest false)).settled f.precision := by
  cases sign with
  | none => exact ⟨.ofReal (n.decimal.nearest false), rfl, rfl, rfl⟩
  | some negative =>
      refine ⟨f.settled ((TermOperator.ofSign negative).operation.apply .zero
        (.ofReal (n.decimal.nearest false))), ?_, ?_, ?_⟩
      · exact ComplexFormat.rounded_eq_settled hsymbol hplaces _
      · rw [TermOperator.apply_ofSign]
        exact Binary64.settled_zero_zero f.precision negative
      · have hsign : (some negative == some true) = negative := by cases negative <;> rfl
        rw [TermOperator.apply_ofSign, ComplexFormat.settled, Binary64.settled_settled, hsign]
        exact Binary64.settled_zero_applySign f.precision negative rfl

/-- An imaginary literal with a sign has an imaginary value. -/
theorem Literal.exists_value_signedImaginary (v : Binary64) (sign : Option Bool)
    (m : Option Numeral) (hm : ∀ k ∈ m, k.Unsigned) :
    ∃ u, ((imaginary m hm).signedPhrase sign).value f v = .ok u ∧
      f.settled u = f.settled ((imaginary m hm).signedNumber (sign == some true)) := by
  have hvalue := value_imaginary hsymbol hplaces m hm
  cases sign with
  | none =>
      refine ⟨_, hvalue, ?_⟩
      rw [ComplexFormat.settled, Binary64.settled_settled]
      rfl
  | some negative =>
      have hsign : (some negative == some true) = negative := by cases negative <;> rfl
      rw [signedPhrase, Phrase.value, Phrase.value, Phrase.value, hvalue, ok_bind,
        ComplexFormat.rounded_eq_settled hsymbol hplaces, hsign]
      refine ⟨_, rfl, ?_⟩
      rw [ComplexFormat.settled_settled, TermOperator.apply_ofSign, ComplexFormat.settled,
        ComplexFormat.settled, signedNumber]
      congr 1
      · exact (Binary64.settled_zero_zero f.precision negative).trans
          (Binary64.settled_zero f.precision).symm
      · exact Binary64.settled_zero_applySign f.precision negative
          (Binary64.settled_settled f.precision _)

/-- A complex literal is evaluated to a number that is written like the one that it is read
as. -/
theorem ComplexLiteral.exists_value_phrase (v : Binary64) (c : ComplexLiteral) :
    ∃ u, c.phrase.value f v = .ok u ∧ f.settled u = f.settled c.number := by
  cases c with
  | single sign l =>
      cases l with
      | real n hn =>
          obtain ⟨u, hu, him, hre⟩ :=
            Literal.exists_value_signedReal hsymbol hplaces v sign n hn
          refine ⟨u, hu, ?_⟩
          rw [ComplexFormat.settled, him, hre]
          rfl
      | imaginary m hm => exact Literal.exists_value_signedImaginary hsymbol hplaces v sign m hm
  | pair sign n hn negative m hm =>
      obtain ⟨u, hu, him, hre⟩ := Literal.exists_value_signedReal hsymbol hplaces v sign n hn
      have hvalue := Literal.value_imaginary hsymbol hplaces m hm
      rw [phrase, Phrase.value, hu, ok_bind, Phrase.value, Phrase.value, hvalue, ok_bind,
        ComplexFormat.rounded_eq_settled hsymbol hplaces]
      refine ⟨_, rfl, ?_⟩
      rw [ComplexFormat.settled_settled, TermOperator.apply_ofSign, him, ComplexFormat.settled,
        ComplexFormat.settled, number]
      congr 1
      · exact (Binary64.settled_applySign_zero f.precision negative u.re).trans hre
      · exact Binary64.settled_zero_applySign f.precision negative
          (Binary64.settled_settled f.precision _)

end

end ComplexCalculator
