import ComplexCalculator.Proofs.Expression.Normal
import ComplexCalculator.Session.Basic

/-!
# Evaluation of phrases

A session that parses the text of a phrase remembers the listing of the formula that the
phrase stands for, and evaluates it to the value of the phrase.  Spacing makes no
difference, and neither parsing nor evaluation can fail.
-/

namespace ComplexCalculator

/-! ## Values -/

namespace Phrase

/-- Every phrase has a value. -/
theorem exists_value {f : ComplexFormat} (hsymbol : f.symbol = Alphabet.imaginaryUnit.toString)
    (hplaces : f.precision ≤ ComplexFormat.maxPlaces) (v : Binary64) {level : Level}
    (e : Phrase level) : ∃ z, e.value f v = .ok z := by
  rw [← value_formula hsymbol v e]
  exact Tree.exists_value hsymbol hplaces v e.genuine_formula

theorem pieces_ne_nil {level : Level} (e : Phrase level) : e.pieces ≠ [] := by
  induction e with
  | single body ih => exact ih
  | term body ih => exact ih
  | _ => simp [pieces]

end Phrase

namespace Session

open Expression (closeGaps)

variable {s : Session}

/-! ## Parsing -/

/-- A text is parsed if it is not blank and can be converted. -/
theorem parse_text_eq_ok {text : String} {next : Session} :
    s.parse (.text text) = .ok next ↔
      isBlankExpression (.text text) = false ∧
        ∃ rpn, Rpn.convertExpression s.format text = .ok rpn ∧ next = { s with stored := rpn } := by
  rw [parse, Expression.ofDatum, ok_bind]
  cases isBlankExpression (.text text) with
  | true => simp
  | false =>
      rw [if_neg Bool.false_ne_true]
      cases Rpn.convertExpression s.format text <;> simp [eq_comm]

/-- A phrase is more than blanks. -/
theorem isBlankExpression_phrase {e : Phrase .sum} {text : String}
    (h : closeGaps none false text.toList = e.pieces.flatten) :
    isBlankExpression (.text text) = false := by
  by_contra hall
  rw [Bool.not_eq_false, isBlankExpression, List.all_eq_true] at hall
  obtain ⟨blank, hclose⟩ := Expression.closeGaps_blanks hall none false []
  rw [List.append_nil, h] at hclose
  exact (Expression.separated_phrase e).flatten_ne_nil e.pieces_ne_nil hclose

/-- Parsing a phrase remembers the entries of its formula. -/
theorem parse_phrase (hplaces : s.precision ≤ ComplexFormat.maxPlaces) {e : Phrase .sum}
    {text : String} (h : closeGaps none false text.toList = e.pieces.flatten) :
    ∃ entries, e.formula.tree.listing.mapM (Rpn.entry s.format) = .ok entries ∧
      s.parse (.text text) = .ok { s with stored := entries.reverse } := by
  obtain ⟨entries, hentries⟩ := Rpn.exists_entries (f := s.format) rfl hplaces e.genuine_formula
  refine ⟨entries, hentries, ?_⟩
  have hconvert : Rpn.convertExpression s.format text = .ok entries.reverse := by
    rw [Rpn.convertExpression, Expression.tokens_phrase h]
    change Rpn.convert s.format e.formula.tokens = _
    rw [Rpn.convert_eq, hentries]
    rfl
  exact parse_text_eq_ok.mpr ⟨isBlankExpression_phrase h, _, hconvert, rfl⟩

/-! ## Evaluating -/

theorem evaluate_of_ne_nil (h : s.stored ≠ []) (value : Quantity) :
    s.evaluate value = Rpn.evaluate s.format s.stored value >>= s.format.format := by
  rw [evaluate, if_neg]
  simpa using h

/-- What was remembered is evaluated to the value of the phrase. -/
theorem evaluate_entries (hplaces : s.precision ≤ ComplexFormat.maxPlaces) {e : Phrase .sum}
    {entries : List String}
    (h : e.formula.tree.listing.mapM (Rpn.entry s.format) = .ok entries) {v : Binary64}
    (hv : v.isFinite = true) :
    evaluate { s with stored := entries.reverse } (.real v) =
      e.value s.format v >>= s.format.format := by
  have hne : entries.reverse ≠ [] := by
    intro hnil
    exact Rpn.entries_ne_nil h e.formula.tree.listing_ne_nil (List.reverse_eq_nil_iff.mp hnil)
  have hvalue := Rpn.evaluate_listing (f := s.format) rfl hplaces hv e.genuine_formula h
  rw [Phrase.value_formula rfl] at hvalue
  rw [evaluate_of_ne_nil hne, ← hvalue]
  rfl

/-- A text without gaps that is a phrase is parsed and evaluated to its value. -/
theorem evaluate_closed (hplaces : s.precision ≤ ComplexFormat.maxPlaces) {e : Phrase .sum}
    {text : String} (h : closeGaps none false text.toList = e.pieces.flatten) {v : Binary64}
    (hv : v.isFinite = true) :
    ∃ s', s.parse (.text text) = .ok s' ∧
      ∃ z out, e.value s.format v = .ok z ∧ s.format.format z = .ok out ∧
        s'.evaluate (.real v) = .ok out := by
  obtain ⟨entries, hentries, hparse⟩ := parse_phrase hplaces h
  obtain ⟨z, hz⟩ := e.exists_value (f := s.format) rfl hplaces v
  obtain ⟨out, hout⟩ := ComplexFormat.exists_format (f := s.format) hplaces z
  refine ⟨_, hparse, z, out, hz, hout, ?_⟩
  rw [evaluate_entries hplaces hentries hv, hz, ok_bind, hout]

/-- Every phrase, in any spacing, is parsed, and evaluated at every finite value of the
variable: the result is the text of the value of the phrase. -/
theorem evaluate_phrase (s : Session) (hplaces : s.precision ≤ 2147483647) (e : Phrase .sum)
    (text : String) (htext : Expression.Spaced e.pieces text.toList) (v : Binary64)
    (hv : v.isFinite = true) :
    ∃ s', s.parse (.text text) = .ok s' ∧
      ∃ z out, e.value s.format v = .ok z ∧ s.format.format z = .ok out ∧
        s'.evaluate (.real v) = .ok out := by
  have hclose := Expression.closeGaps_spaced (Expression.separated_phrase e) htext none false
    (by simp)
  exact evaluate_closed hplaces hclose hv

/-- The phrase `-var°+I`. -/
def degreesAndUnit : Phrase .sum :=
  .plus (.signed .sub (.degrees (.single .freeVariable))) .add
    (.single (.literal (.imaginary none (by simp))))

/-- One degree, negated, and the imaginary unit. -/
theorem evaluate_phrase_degree :
    ∃ s', (⟨3, []⟩ : Session).parse (.text " -var ° + I") = .ok s' ∧
      s'.evaluate (.real .one) = .ok "-0.017 + 1.000I" := by
  have hpieces : degreesAndUnit.pieces = [['-'], "var".toList, ['°'], ['+'], ['I']] := by decide
  have htext : Expression.Spaced degreesAndUnit.pieces " -var ° + I".toList := by
    rw [hpieces]
    exact .space (.next (.next (.space (.next (.space (.next (.space (.next .empty))))))))
  have hresult : (degreesAndUnit.value ⟨3, "I"⟩ .one >>= ComplexFormat.format ⟨3, "I"⟩) =
      .ok "-0.017 + 1.000I" := by
    apply eq_ok_of_toOption
    decide +kernel
  obtain ⟨s', hparse, z, out, hvalue, hout, hevaluate⟩ :=
    evaluate_phrase ⟨3, []⟩ (by decide) degreesAndUnit " -var ° + I" htext .one (by decide +kernel)
  refine ⟨s', hparse, ?_⟩
  rw [hevaluate, ← hout, ← hresult]
  exact (congrArg (· >>= ComplexFormat.format ⟨3, "I"⟩) hvalue).symm

end Session

end ComplexCalculator
