import ComplexCalculator.Proofs.Expression.ComplexLiteral

/-!
# Texts that are read as complex numbers

A text without blanks that the reader accepts is a complex literal, unless it contains a
marker of a number that is not finite or an exponent with a sign.
-/

namespace ComplexCalculator

namespace ComplexFormat

/-! ## Parts of texts -/

/-- No marker of a number that is not finite stands in the text. -/
def Unmarked (text : List Char) : Prop := ∀ marker ∈ markers, ¬marker.1 <:+: text

/-- Without markers, the numbers of a text are numerals. -/
theorem Unmarked.exists_numeral {chars : List Char} {x : UnsignedReal} (h : Unmarked chars)
    (hx : x.text <:+: chars) : ∃ n : Numeral, x = .numeral n := by
  cases x with
  | numeral n => exact ⟨n, rfl⟩
  | nan => exact absurd hx (h (nanMarker, .nan) (by simp [markers]))
  | infinity negative =>
      have hmarker : (infinityMarker negative, Binary64.infinite negative) ∈ markers := by
        cases negative <;> simp [markers]
      exact absurd hx (h _ hmarker)

theorem Unmarked.exists_factor {chars : List Char} {y : Option UnsignedReal}
    (h : Unmarked chars) (hy : UnsignedReal.factorText y <:+: chars) :
    ∃ m : Option Numeral, y = m.map .numeral := by
  cases y with
  | none => exact ⟨none, rfl⟩
  | some x =>
      obtain ⟨n, rfl⟩ := h.exists_numeral hy
      exact ⟨some n, rfl⟩

theorem unmarked_of_not_bracket {text : List Char} (h : '(' ∉ text) : Unmarked text := by
  have hmarkers : ∀ marker ∈ markers, '(' ∈ marker.1 := by decide +kernel
  intro marker hmarker hinside
  exact h (hinside.subset (hmarkers marker hmarker))

end ComplexFormat

/-! ## Exponents -/

/-- Behind no letter of an exponent stands a sign. -/
def UnsignedExponents (text : List Char) : Prop :=
  ∀ before letter sign after, text = before ++ letter :: sign :: after →
    letter = 'e' ∨ letter = 'E' → sign ≠ '+' ∧ sign ≠ '-'

theorem unsignedExponents_of_not_letter {text : List Char} (h : ∀ c ∈ text, c ≠ 'e' ∧ c ≠ 'E') :
    UnsignedExponents text := by
  rintro before letter sign after rfl hletter
  have hne := h letter (by simp)
  exact absurd hletter (not_or.mpr hne)

theorem UnsignedExponents.unsigned {text : List Char} (h : UnsignedExponents text)
    (before after : List Char) {n : Numeral} (htext : text = before ++ n.text ++ after) :
    n.Unsigned := by
  intro e he
  by_contra hsign
  obtain ⟨negative, hnegative⟩ := Option.ne_none_iff_exists'.mp hsign
  have hsigned := h (before ++ n.whole ++ Numeral.fractionText n.fraction) e.letter
    (signChar negative) (e.digits ++ after)
    (by simp [htext, Numeral.text, Numeral.exponentText, Option.mem_def.mp he,
      NumeralExponent.text, hnegative])
    e.letter_eq
  cases negative with
  | false => exact hsigned.1 rfl
  | true => exact hsigned.2 rfl

theorem UnsignedExponents.unsigned_factor {text : List Char} (h : UnsignedExponents text)
    (before after : List Char) {m : Option Numeral}
    (htext : text = before ++ Literal.factorText m ++ after) : ∀ k ∈ m, k.Unsigned := by
  intro k hk
  rw [Option.mem_def.mp hk] at htext
  exact h.unsigned before after htext

/-! ## Whole texts -/

/-- What the reader accepts is a complex literal, and read as its number. -/
theorem exists_complexLiteral {text : List Char} {z : ComplexNumber}
    (h : ComplexFormat.readCompact? [Alphabet.imaginaryUnit] text = some z)
    (hplain : ComplexFormat.Unmarked text) (hexponents : UnsignedExponents text) :
    ∃ c : ComplexLiteral, c.text = text ∧ c.number = z := by
  obtain ⟨w, rfl, rfl⟩ := ComplexNumeral.exists_of_readCompact? h
  cases w with
  | real sign x =>
      obtain ⟨n, rfl⟩ := hplain.exists_numeral (List.suffix_append _ _).isInfix
      have hn : n.Unsigned :=
        hexponents.unsigned (sign.map signChar).toList [] (List.append_nil _).symm
      exact ⟨.single sign (.real n hn), rfl, rfl⟩
  | imaginary sign y =>
      obtain ⟨m, rfl⟩ := hplain.exists_factor ⟨_, _, rfl⟩
      have hm : ∀ k ∈ m, k.Unsigned := by
        apply hexponents.unsigned_factor (sign.map signChar).toList [Alphabet.imaginaryUnit]
        rw [ComplexNumeral.text, Literal.factorText_numeral]
      refine ⟨.single sign (.imaginary m hm), ?_, ?_⟩
      · rw [ComplexLiteral.text, Literal.text, ComplexNumeral.text, Literal.factorText_numeral,
          List.append_assoc]
      · rw [ComplexLiteral.number, Literal.signedNumber, ComplexNumeral.number,
          Literal.factor_numeral]
  | pair sign x negative y =>
      have hbehind : (ComplexNumeral.pair sign x negative y).text =
          ((sign.map signChar).toList ++ x.text ++ [signChar negative]) ++
            UnsignedReal.factorText y ++ [Alphabet.imaginaryUnit] := by
        simp [ComplexNumeral.text]
      obtain ⟨m, rfl⟩ := hplain.exists_factor ⟨_, _, hbehind.symm⟩
      obtain ⟨n, rfl⟩ := hplain.exists_numeral ⟨_, _, (List.append_assoc _ _ _).symm⟩
      rw [Literal.factorText_numeral] at hbehind
      have hn : n.Unsigned := hexponents.unsigned _ _ (List.append_assoc _ _ _)
      have hm : ∀ k ∈ m, k.Unsigned := hexponents.unsigned_factor _ _ hbehind
      refine ⟨.pair sign n hn negative m hm, ?_, ?_⟩
      · rw [ComplexLiteral.text, ComplexNumeral.text, Literal.factorText_numeral]
        rfl
      · rw [ComplexLiteral.number, ComplexNumeral.number, Literal.factor_numeral]
        rfl

end ComplexCalculator
