import ComplexCalculator.Proofs.Expression.AcceptedText
import ComplexCalculator.Proofs.Expression.Context
import ComplexCalculator.Proofs.Session.Evaluation

/-!
# Entering numbers as expressions

A text that is read as a complex number can be parsed as an expression instead.  Both ways
lead to the same text, provided that no blanks stand between two digits, where they separate
pieces of an expression, and that no sign stands in an exponent, where it is an operator.
What an evaluation gives can always be entered again.
-/

namespace ComplexCalculator

open Expression (Gapless Spaced closeGaps)

/-! ## Written numbers -/

/-- The text of two parts with blanks around the sign between them is the phrase in another
spacing. -/
theorem ComplexLiteral.spaced_pair (sign : Option Bool) (n : Numeral) (hn : n.Unsigned)
    (negative : Bool) (m : Option Numeral) (hm : ∀ k ∈ m, k.Unsigned) :
    Spaced (pair sign n hn negative m hm).phrase.pieces
      ((sign.map signChar).toList ++ n.text ++ ' ' :: signChar negative :: ' ' ::
        (Literal.factorText m ++ [Alphabet.imaginaryUnit])) := by
  have himaginary : Spaced [[signChar negative], (Literal.imaginary m hm).text]
      (' ' :: signChar negative :: ' ' :: (Literal.factorText m ++ [Alphabet.imaginaryUnit])) := by
    have h : Spaced [[signChar negative], (Literal.imaginary m hm).text]
        (' ' :: ([signChar negative] ++ ' ' :: ((Literal.imaginary m hm).text ++ []))) :=
      .space (.next (.space (.next .empty)))
    rwa [List.append_nil] at h
  have hpieces : (pair sign n hn negative m hm).phrase.pieces =
      ((Literal.real n hn).signedPhrase sign).pieces ++
        [[signChar negative], (Literal.imaginary m hm).text] := by
    rw [phrase, Phrase.pieces, TermOperator.toList_ofSign]
    rfl
  rw [hpieces]
  cases sign with
  | none => exact .next himaginary
  | some sign =>
      rw [Literal.signedPhrase, Phrase.pieces, TermOperator.toList_ofSign]
      exact .next (.next himaginary)

namespace ComplexFormat

variable {f : ComplexFormat}

/-- The sign of a written part, as a literal has it. -/
def writtenSign (f : ComplexFormat) (x : Binary64) : Option Bool :=
  if f.showsMinus x then some true else none

theorem writtenSign_eq (f : ComplexFormat) (x : Binary64) :
    (f.writtenSign x == some true) = f.showsMinus x := by
  rw [writtenSign]
  cases f.showsMinus x <;> rfl

theorem realText_finite_eq {negative : Bool} {x : Magnitude} {text : List Char}
    (h : f.realText (.finite negative x) = .ok text) :
    text = ((f.writtenSign (.finite negative x)).map signChar).toList ++
      (Numeral.fixed f.precision (x.roundedPlaces f.precision)).text := by
  rcases realText_cases h with ⟨_, hne, -⟩ | ⟨part, hpart, h⟩
  · contradiction
  · rw [h, partText_finite_eq hpart, Numeral.text_fixed, writtenSign]
    cases f.showsMinus (.finite negative x) <;> rfl

/-- A finite part is read from its digits and the sign that is shown. -/
theorem applySign_nearest_fixed (f : ComplexFormat) (negative : Bool) (x : Magnitude) :
    applySign (f.showsMinus (.finite negative x))
        ((Numeral.fixed f.precision (x.roundedPlaces f.precision)).decimal.nearest false) =
      (Binary64.finite negative x).settled f.precision := by
  rw [Numeral.decimal_fixed, ← Binary64.abs_settled_finite f.precision negative,
    applySign_abs_settled]

/-- A finite number is written as a complex literal with two parts. -/
theorem exists_pair_of_format (hsymbol : f.symbol = Alphabet.imaginaryUnit.toString)
    {z : ComplexNumber} {text : String} (hre : z.re.isFinite = true)
    (him : z.im.isFinite = true) (h : f.format z = .ok text) :
    ∃ c : ComplexLiteral, Spaced c.phrase.pieces text.toList ∧ c.number = f.settled z ∧
      c.phrase.IsOperation := by
  obtain ⟨re, im, hreText, himText, htext⟩ := format_eq_ok h
  obtain ⟨_ | _ | ⟨s, x⟩, _ | _ | ⟨t, y⟩⟩ := z <;> try contradiction
  have hfixed (n : ℕ) : (Numeral.fixed f.precision n).Unsigned :=
    Numeral.unsigned_of_exponent_eq_none rfl
  refine ⟨.pair (f.writtenSign (.finite s x))
    (Numeral.fixed f.precision (x.roundedPlaces f.precision)) (hfixed _)
    (f.showsMinus (.finite t y)) (some (Numeral.fixed f.precision (y.roundedPlaces f.precision)))
    (by simpa using hfixed _), ?_, ?_, by simp [ComplexLiteral.phrase, Phrase.IsOperation]⟩
  · rw [htext, realText_finite_eq hreText, partText_finite_eq himText, ← Numeral.text_fixed,
      hsymbol]
    have hspaced := ComplexLiteral.spaced_pair (f.writtenSign (.finite s x))
      (Numeral.fixed f.precision (x.roundedPlaces f.precision)) (hfixed _)
      (f.showsMinus (.finite t y)) (some (Numeral.fixed f.precision (y.roundedPlaces f.precision)))
      (by simpa using hfixed _)
    simpa [Literal.factorText] using hspaced
  · rw [ComplexLiteral.number, writtenSign_eq, applySign_nearest_fixed, settled]
    exact congrArg (ComplexNumber.mk _) (f.applySign_nearest_fixed t y)

theorem exists_complexLiteral_of_format
    (hsymbol : f.symbol = Alphabet.imaginaryUnit.toString) {z : ComplexNumber} {text : String}
    (hre : z.re.isFinite = true) (him : z.im.isFinite = true) (h : f.format z = .ok text) :
    ∃ c : ComplexLiteral, Spaced c.phrase.pieces text.toList ∧ c.number = f.settled z := by
  obtain ⟨c, hspaced, hnumber, -⟩ := exists_pair_of_format hsymbol hre him h
  exact ⟨c, hspaced, hnumber⟩

end ComplexFormat

namespace Session

variable {s : Session}

/-! ## Literals -/

theorem evaluate_absent (h : ∀ name ∈ s.stored, name ≠ Alphabet.variableName) (v : Binary64) :
    s.evaluate .absent = s.evaluate (.real v) := by
  rw [evaluate, evaluate, Rpn.evaluate_absent h v]

/-- A phrase without the variable needs no value of the variable. -/
theorem evaluate_absent_of_closed (hplaces : s.precision ≤ ComplexFormat.maxPlaces)
    {e : Phrase .sum} (he : e.formula.tree.Closed) {text : String}
    (h : closeGaps none false text.toList = e.pieces.flatten) :
    ∃ s', s.parse (.text text) = .ok s' ∧
      s'.evaluate .absent = e.value s.format .zero >>= s.format.format := by
  obtain ⟨entries, hentries, hparse⟩ := parse_phrase hplaces h
  refine ⟨_, hparse, ?_⟩
  have hclosed : ∀ name ∈ entries.reverse, name ≠ Alphabet.variableName := by
    intro name hname
    obtain ⟨token, htoken, hentry⟩ :=
      Rpn.exists_token_of_mem_entries hentries (List.mem_reverse.mp hname)
    exact Rpn.ne_variableName_of_closed (f := s.format) rfl hplaces e.genuine_formula he token
      htoken name hentry
  rw [evaluate_absent hclosed .zero, evaluate_entries hplaces hentries rfl]

/-- A complex literal is evaluated to the text of the number that it is read as. -/
theorem evaluate_complexLiteral (hplaces : s.precision ≤ ComplexFormat.maxPlaces)
    (c : ComplexLiteral) {text : String} (h : closeGaps none false text.toList = c.text) :
    ∃ s' out, s.parse (.text text) = .ok s' ∧ s.format.format c.number = .ok out ∧
      s'.evaluate .absent = .ok out := by
  rw [← c.flatten_phrase] at h
  obtain ⟨s', hparse, hvalue⟩ := evaluate_absent_of_closed hplaces c.closed_phrase h
  obtain ⟨u, hu, hsettled⟩ := c.exists_value_phrase (f := s.format) rfl hplaces .zero
  obtain ⟨out, hout⟩ := ComplexFormat.exists_format (f := s.format) hplaces c.number
  refine ⟨s', out, hparse, hout, ?_⟩
  rw [hvalue, hu, ok_bind, ← ComplexFormat.format_settled, hsettled, ComplexFormat.format_settled,
    hout]

theorem toList_symbol (s : Session) : s.format.symbol.toList = [Alphabet.imaginaryUnit] :=
  ComplexFormat.toList_symbol rfl

/-- What a session has written is read with both parts settled. -/
theorem read_of_format {z : ComplexNumber} {out : String} (h : s.format.format z = .ok out) :
    s.format.read out = .ok (s.format.settled z) :=
  ComplexFormat.read_format (f := s.format) Alphabet.isBlank_of_mem_imaginaryUnit h

/-- What an evaluation gives is empty, or the text of a number. -/
theorem evaluate_eq_ok {value : Quantity} {out : String} (h : s.evaluate value = .ok out) :
    out = "" ∨ ∃ z, s.format.format z = .ok out := by
  rw [evaluate] at h
  split at h
  · injection h with h
    exact Or.inl h.symm
  · obtain ⟨z, -, hz⟩ := bind_eq_ok_iff.mp h
    exact Or.inr ⟨z, hz⟩

theorem read_empty (s : Session) (z : ComplexNumber) : s.format.read "" ≠ .ok z := by
  have hempty : ComplexFormat.readCompact? [Alphabet.imaginaryUnit] [] = none := by decide +kernel
  rw [Ne, ComplexFormat.read_eq_ok, ComplexFormat.read?, toList_symbol]
  change ¬ComplexFormat.readCompact? [Alphabet.imaginaryUnit] [] = some z
  rw [hempty]
  simp

/-- A text that is read as a complex number is evaluated to the text of the number, and the
text of a finite result is evaluated to itself. -/
theorem evaluate_read (s : Session) (hplaces : s.precision ≤ 2147483647) :
    (∀ text z, s.format.read text = .ok z → Gapless text.toList →
      UnsignedExponents (Text.dropBlanks text.toList) →
      ComplexFormat.Unmarked (Text.dropBlanks text.toList) →
      ∃ s' out, s.parse (.text text) = .ok s' ∧ s.format.format z = .ok out ∧
        s'.evaluate .absent = .ok out) ∧
    (∀ value out z, s.evaluate value = .ok out → s.format.read out = .ok z →
      z.isFinite = true →
      ∃ s', s.parse (.text out) = .ok s' ∧ s'.evaluate .absent = .ok out) := by
  constructor
  · intro text z hread hgapless hexponents hunmarked
    rw [ComplexFormat.read_eq_ok, ComplexFormat.read?, toList_symbol] at hread
    obtain ⟨c, htext, rfl⟩ := exists_complexLiteral hread hunmarked hexponents
    apply evaluate_complexLiteral hplaces c
    rw [Expression.closeGaps_eq_dropBlanks hgapless, htext]
  · intro value out z hvalue hread hfinite
    rcases evaluate_eq_ok hvalue with rfl | ⟨w, hformat⟩
    · exact absurd hread (read_empty s z)
    · rw [read_of_format hformat] at hread
      injection hread with hz
      rw [← hz, ComplexNumber.isFinite, ComplexFormat.settled, Binary64.isFinite_settled,
        Binary64.isFinite_settled, Bool.and_eq_true] at hfinite
      obtain ⟨c, hspaced, hc⟩ :=
        ComplexFormat.exists_complexLiteral_of_format (f := s.format) rfl hfinite.1 hfinite.2
          hformat
      have hclose := Expression.closeGaps_spaced (Expression.separated_phrase c.phrase) hspaced
        none false (by simp)
      rw [c.flatten_phrase] at hclose
      obtain ⟨s', out', hparse, hout, hevaluate⟩ := evaluate_complexLiteral hplaces c hclose
      rw [hc, ComplexFormat.format_settled, hformat] at hout
      injection hout with hout
      exact ⟨s', hparse, hout ▸ hevaluate⟩

/-- Two ties at one place, both rounded to the even digit, and one eighth, a tie at two
places, entered again. -/
theorem evaluate_read_tie :
    (∃ s', (⟨1, []⟩ : Session).parse (.text "-.25-.75I") = .ok s' ∧
      s'.evaluate .absent = .ok "-0.2 - 0.8I") ∧
    ∃ s', (⟨2, ["/", "8", "1"]⟩ : Session).parse (.text "0.12 + 0.00I") = .ok s' ∧
      s'.evaluate .absent = .ok "0.12 + 0.00I" := by
  constructor
  · have hread : (⟨1, []⟩ : Session).format.read "-.25-.75I" =
        .ok ⟨Decimal.nearest true ⟨25, -2⟩, Decimal.nearest true ⟨75, -2⟩⟩ := by
      apply eq_ok_of_toOption
      decide +kernel
    have hformat : (⟨1, []⟩ : Session).format.format
        ⟨Decimal.nearest true ⟨25, -2⟩, Decimal.nearest true ⟨75, -2⟩⟩ = .ok "-0.2 - 0.8I" := by
      apply eq_ok_of_toOption
      decide +kernel
    obtain ⟨s', out, hparse, hout, hevaluate⟩ :=
      (evaluate_read ⟨1, []⟩ (by decide)).1 "-.25-.75I" _ hread
        (Expression.gapless_of_not_blank (by decide))
        (unsignedExponents_of_not_letter (by decide))
        (ComplexFormat.unmarked_of_not_bracket (by decide))
    have heq : Except.ok out = Except.ok "-0.2 - 0.8I" := hout.symm.trans hformat
    injection heq with heq
    exact ⟨s', hparse, heq ▸ hevaluate⟩
  · have hresult : (⟨2, ["/", "8", "1"]⟩ : Session).evaluate .absent = .ok "0.12 + 0.00I" := by
      apply eq_ok_of_toOption
      decide +kernel
    have hread : (⟨2, ["/", "8", "1"]⟩ : Session).format.read "0.12 + 0.00I" =
        .ok ⟨Decimal.nearest false ⟨12, -2⟩, .zero⟩ := by
      apply eq_ok_of_toOption
      decide +kernel
    exact (evaluate_read ⟨2, ["/", "8", "1"]⟩ (by decide)).2 .absent _ _ hresult hread
      (by decide +kernel)

end Session

end ComplexCalculator
