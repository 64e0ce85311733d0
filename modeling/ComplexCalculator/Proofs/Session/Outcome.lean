import ComplexCalculator.Proofs.Rpn.Failure
import ComplexCalculator.Proofs.Rpn.Listing
import ComplexCalculator.Proofs.Session.Evaluation

/-!
# Which expressions have a value

The grammar is not checked before an expression is evaluated: what counts is the order in
which its tokens are written.  An expression has a value exactly if this order is that of a
sentence of the grammar, made of the same operands in the same order and of the same
operations, even where the expression itself is no sentence.  An expression without operands and
operations has no number for a value.  All others are rejected with a parse error.
-/

namespace ComplexCalculator

/-- Whether a failure is a parse error. -/
def Failure.IsParse (failure : Failure) : Prop := ∃ error, failure = .parse error

namespace Rpn

variable {f : ComplexFormat}

/-- A row that a formula is converted to has the value of the formula. -/
theorem evaluate_of_convert (hsymbol : f.symbol = Alphabet.imaginaryUnit.toString)
    (hplaces : f.precision ≤ ComplexFormat.maxPlaces) {v : Binary64} (hv : v.isFinite = true)
    {e : Formula .sum} (he : e.tree.Genuine) {rpn : List String}
    (h : convert f e.tokens = .ok rpn) :
    evaluate f rpn (.real v) = e.tree.value f v := by
  rw [convert_eq] at h
  obtain ⟨entries, hentries, rfl⟩ := map_eq_ok_iff.mp h
  exact evaluate_listing hsymbol hplaces hv he hentries

end Rpn

namespace Session

variable {s : Session}

/-! ## Failures -/

section

variable (hplaces : s.precision ≤ ComplexFormat.maxPlaces)

include hplaces

/-- Within the limit on the precision no number fails to be written. -/
theorem failsOnly_format {p : Failure → Prop} (z : ComplexNumber) :
    FailsOnly p (s.format.format z) := by
  obtain ⟨out, hout⟩ := ComplexFormat.exists_format (f := s.format) hplaces z
  rw [hout]
  exact failsOnly_ok _ out

theorem failsOnly_parse (text : String) :
    FailsOnly Failure.IsParse (s.parse (.text text)) := by
  rw [parse]
  split_ifs
  · exact failsOnly_error ⟨_, rfl⟩
  · rw [Expression.ofDatum, ok_bind]
    have hconvert := Rpn.failsOnly_convertExpression (p := Failure.IsParse) (f := s.format)
      (fun _ => ⟨_, rfl⟩) (failsOnly_format hplaces) text
    cases hresult : Rpn.convertExpression s.format text with
    | ok rpn => exact failsOnly_ok _ _
    | error failure =>
        obtain ⟨error, rfl⟩ := hconvert failure hresult
        exact failsOnly_error ⟨_, rfl⟩

end

/-! ## Values -/

/-- What was arranged as the listing of a tree is converted like a sentence with the same
operands in the same order and the same operations. -/
theorem exists_formula_of_arrange {f : ComplexFormat} {tokens : List Token} {t : Tree}
    (h : Rpn.arrange tokens = .ok t.listing) :
    ∃ e : Formula .sum, e.tree = t ∧ Rpn.SameWords e.tokens tokens ∧
      Rpn.convert f e.tokens = Rpn.convert f tokens := by
  obtain ⟨e, rfl⟩ := t.exists_formula
  have hwords := (Rpn.sameWords_of_arrange (Rpn.arrange_formula e)).1
  refine ⟨e, rfl, hwords.symm.trans (Rpn.sameWords_of_arrange h).1, ?_⟩
  rw [Rpn.convert_eq, Rpn.convert_of_arrange h]

/-- A number is never written as the empty text. -/
theorem ne_empty_of_format {z : ComplexNumber} {out : String}
    (h : s.format.format z = .ok out) : out ≠ "" := by
  rintro rfl
  obtain ⟨re, im, -, -, htext⟩ := ComplexFormat.format_eq_ok h
  simp at htext

theorem words_eq_nil {tokens : List Token} (h : Rpn.arrange tokens = .ok []) :
    ∀ token ∈ tokens, Rpn.isOperand token = false ∧ Rpn.isOperation token = false := by
  have hwords := (Rpn.sameWords_of_arrange h).1.symm
  intro token htoken
  constructor <;> rw [← Bool.not_eq_true] <;> intro hkind
  · exact absurd (hwords.mem htoken (Or.inl hkind)) List.not_mem_nil
  · exact absurd (hwords.mem htoken (Or.inr hkind)) List.not_mem_nil

section

variable (hplaces : s.precision ≤ ComplexFormat.maxPlaces) {v : Binary64}
  (hv : v.isFinite = true)

include hplaces hv

/-- Tokens whose entries have a value are converted like a sentence with that value. -/
theorem exists_formula_of_evaluate {tokens row : List Token} {entries : List String}
    (harrange : Rpn.arrange tokens = .ok row)
    (hentries : row.mapM (Rpn.entry s.format) = .ok entries)
    (hrow : ∀ token ∈ row, token.Listed) {z : ComplexNumber}
    (h : Rpn.evaluate s.format entries.reverse (.real v) = .ok z) :
    ∃ e : Formula .sum, e.tree.Genuine ∧ Rpn.SameWords e.tokens tokens ∧
      Rpn.convert s.format e.tokens = .ok entries.reverse ∧ e.tree.value s.format v = .ok z := by
  obtain ⟨t, ht, rfl⟩ := Rpn.exists_tree_of_evaluate (f := s.format) rfl hplaces hv hrow hentries h
  obtain ⟨e, rfl, hwords, hsame⟩ := exists_formula_of_arrange (f := s.format) harrange
  rw [Rpn.convert_of_arrange harrange, hentries] at hsame
  refine ⟨e, ht, hwords, hsame, ?_⟩
  rw [← Rpn.evaluate_of_convert (f := s.format) rfl hplaces hv ht hsame, h]

/-- What has no value is converted like no sentence, since a sentence has one. -/
theorem convert_ne_of_evaluate_eq_error {rpn : List String} {failure : Failure}
    (h : Rpn.evaluate s.format rpn (.real v) = .error failure) {e : Formula .sum}
    (he : e.tree.Genuine) : Rpn.convert s.format e.tokens ≠ .ok rpn := by
  intro hsame
  have hvalue := Rpn.evaluate_of_convert (f := s.format) rfl hplaces hv he hsame
  obtain ⟨z, hz⟩ := Tree.exists_value (f := s.format) rfl hplaces v he
  rw [h, hz] at hvalue
  cases hvalue

end

/-- Every text is rejected by the parser, or has the value of a sentence, or has neither operands
and operations nor a number for a value, or is rejected by the evaluation, and then it is
converted like no sentence. -/
theorem evaluate_parsed (s : Session) (hplaces : s.precision ≤ 2147483647) (text : String)
    (v : Binary64) (hv : v.isFinite = true) :
    (∃ error, s.parse (.text text) = .error (.parse error)) ∨
    ∃ parsed tokens, s.parse (.text text) = .ok parsed ∧
      Expression.tokens text = List.map .ok tokens ∧
      ((∃ (e : Formula .sum) (z : ComplexNumber) (out : String), e.tree.Genuine ∧
          Rpn.SameWords e.tokens tokens ∧ Rpn.convert s.format e.tokens = .ok parsed.stored ∧
          e.tree.value s.format v = .ok z ∧ s.format.format z = .ok out ∧
          parsed.evaluate (.real v) = .ok out) ∨
        ((∀ token ∈ tokens, Rpn.isOperand token = false ∧ Rpn.isOperation token = false) ∧
          ∀ z out, s.format.format z = .ok out → parsed.evaluate (.real v) ≠ .ok out) ∨
        ((∀ e : Formula .sum, e.tree.Genuine →
            Rpn.convert s.format e.tokens ≠ .ok parsed.stored) ∧
          ∃ error, parsed.evaluate (.real v) = .error (.parse error))) := by
  cases hparse : s.parse (.text text) with
  | error failure =>
      obtain ⟨error, rfl⟩ := failsOnly_parse hplaces text failure hparse
      exact Or.inl ⟨error, rfl⟩
  | ok parsed =>
      right
      obtain ⟨-, rpn, hconvert, rfl⟩ := parse_text_eq_ok.mp hparse
      obtain ⟨tokens, row, htokens, harrange, hentries, hrow⟩ :=
        Rpn.exists_row_of_convertExpression (f := s.format) rfl hconvert
      refine ⟨_, tokens, rfl, htokens, ?_⟩
      by_cases hempty : rpn = []
      · subst hempty
        have hnil : row = [] := by
          by_contra hne
          exact Rpn.entries_ne_nil hentries hne rfl
        subst hnil
        refine Or.inr (Or.inl ⟨words_eq_nil harrange, ?_⟩)
        intro z out hout hvalue
        injection hvalue with hvalue
        exact ne_empty_of_format hout hvalue.symm
      · have hevaluate : evaluate { s with stored := rpn } (.real v) =
            Rpn.evaluate s.format rpn (.real v) >>= s.format.format :=
          evaluate_of_ne_nil hempty (.real v)
        cases hvalue : Rpn.evaluate s.format rpn (.real v) with
        | ok z =>
            left
            rw [← List.reverse_reverse rpn] at hvalue
            obtain ⟨e, he, hwords, hconvert, hz⟩ := exists_formula_of_evaluate hplaces hv harrange
              hentries (fun token htoken => (hrow token htoken).2) hvalue
            rw [List.reverse_reverse] at hvalue hconvert
            obtain ⟨out, hout⟩ := ComplexFormat.exists_format (f := s.format) hplaces z
            refine ⟨e, z, out, he, hwords, hconvert, hz, hout, ?_⟩
            rw [hevaluate, hvalue, ok_bind, hout]
        | error failure =>
            right; right
            have herror : evaluate { s with stored := rpn } (.real v) = .error failure := by
              rw [hevaluate, hvalue]
              rfl
            have hreal : FailsOnly Failure.IsParse (Quantity.real v).toReal := failsOnly_ok _ v
            obtain ⟨error, rfl⟩ := failsOnly_evaluate (s := { s with stored := rpn })
              (fun _ => ⟨_, rfl⟩) (failsOnly_format hplaces) hreal failure herror
            exact ⟨fun e he => convert_ne_of_evaluate_eq_error hplaces hv hvalue he, error, herror⟩

/-- Two numbers and a plus behind them are converted like a sum. -/
theorem evaluate_parsed_postfix :
    ∃ (parsed : Session) (e : Formula .sum),
      (⟨3, []⟩ : Session).parse (.text "2 3+") = .ok parsed ∧ e.tree.Genuine ∧
      Rpn.SameWords e.tokens [.number "2", .number "3", .binary .add] ∧
      Rpn.convert ⟨3, "I"⟩ e.tokens = .ok parsed.stored ∧
      parsed.evaluate (.real .one) = .ok "5.000 + 0.000I" := by
  have htokens : Expression.tokens "2 3+" =
      List.map .ok [.number "2", .number "3", .binary .add] := rfl
  have hresult : ((⟨3, []⟩ : Session).parse (.text "2 3+") >>= fun parsed =>
      parsed.evaluate (.real .one)) = .ok "5.000 + 0.000I" := by
    apply eq_ok_of_toOption
    decide +kernel
  obtain ⟨error, hparse⟩ | ⟨parsed, tokens, hparse, htokens', h⟩ :=
    evaluate_parsed ⟨3, []⟩ (by decide) "2 3+" .one (by decide +kernel)
  · rw [hparse] at hresult
    cases hresult
  · rw [hparse, ok_bind] at hresult
    rw [htokens] at htokens'
    obtain rfl := List.map_injective_iff.mpr (fun _ _ => Except.ok.inj) htokens'
    obtain ⟨e, z, out, he, hwords, hconvert, -, -, -⟩ | ⟨hnone, -⟩ | ⟨-, error, herror⟩ := h
    · exact ⟨parsed, e, hparse, he, hwords, hconvert, hresult⟩
    · exact absurd (hnone (.number "2") (by simp)).1 (by decide)
    · rw [herror] at hresult
      cases hresult

/-- A row of tokens with a closing bracket for every opening one that lacks it. -/
def closed (tokens : List Token) : List Token :=
  tokens ++ List.replicate
    (tokens.countP Rpn.Conversion.isOpen - tokens.countP (·.kind == some .closeBracket))
    .closeBracket

/-- A plus behind its operands is no sentence, and yet has a value. -/
theorem evaluate_no_formula :
    Expression.tokens "2 3+" = List.map .ok [.number "2", .number "3", .binary .add] ∧
      (∀ e : Formula .sum, e.tokens ≠ closed [.number "2", .number "3", .binary .add]) ∧
      ((⟨3, []⟩ : Session).parse (.text "2 3+") >>= fun parsed =>
        parsed.evaluate (.real .one)) = .ok "5.000 + 0.000I" := by
  refine ⟨rfl, ?_, ?_⟩
  · intro e h
    have hclosed : closed [.number "2", .number "3", .binary .add] =
        [.number "2", .number "3"] ++ [.binary .add] := rfl
    obtain ⟨front, last, htokens, hkind⟩ := e.exists_last
    rw [h, hclosed] at htokens
    rw [← (concat_inj htokens).2] at hkind
    exact absurd hkind (by decide)
  · apply eq_ok_of_toOption
    decide +kernel

end Session

end ComplexCalculator
