import ComplexCalculator.Proofs.Session.Outcome
import ComplexCalculator.Proofs.Session.Reentry

/-!
# What is left to evaluate

Brackets and separators are not written when an expression is converted, so that an
expression of brackets and separators alone leaves no entries, and is evaluated to the empty
text like a session in which nothing has been parsed.  An operand or an operation leaves an
entry, and then the empty text is never the result.
-/

namespace ComplexCalculator

namespace Rpn

/-- Whether a row of tokens has an operand or an operation, and not only brackets and
separators. -/
def HasWord (tokens : List Token) : Prop :=
  ∃ token ∈ tokens, isOperand token = true ∨ isOperation token = true

/-- A row is arranged as something if there is an operand or an operation to write. -/
theorem hasWord_iff_of_arrange {tokens row : List Token} (h : arrange tokens = .ok row) :
    HasWord tokens ↔ row ≠ [] := by
  obtain ⟨hwords, hkinds⟩ := sameWords_of_arrange h
  constructor
  · rintro ⟨token, htoken, hkind⟩
    exact List.ne_nil_of_mem (hwords.symm.mem htoken hkind)
  · intro hne
    obtain ⟨token, htoken⟩ := List.exists_mem_of_ne_nil row hne
    exact ⟨token, hwords.mem htoken (hkinds token htoken), hkinds token htoken⟩

/-- The entries of an expression are as empty as its arranged row. -/
theorem hasWord_iff_of_convertExpression {f : ComplexFormat}
    (hsymbol : f.symbol = Alphabet.imaginaryUnit.toString) {text : String} {rpn : List String}
    (h : convertExpression f text = .ok rpn) :
    ∃ tokens, Expression.tokens text = List.map .ok tokens ∧ (HasWord tokens ↔ rpn ≠ []) := by
  obtain ⟨tokens, row, htokens, harrange, hentries, -⟩ :=
    exists_row_of_convertExpression hsymbol h
  refine ⟨tokens, htokens, ?_⟩
  rw [hasWord_iff_of_arrange harrange]
  constructor
  · intro hne
    simpa using entries_ne_nil hentries hne
  · rintro hne rfl
    injection hentries with hnil
    exact hne (List.reverse_eq_nil_iff.mp hnil.symm)

end Rpn

/-- The failures of an evaluation that are not about the expression: the value of the variable
is no real number, or the precision is beyond what a finite part can be written with. -/
inductive Failure.OfArguments (s : Session) (value : Quantity) : Failure → Prop where
  | value {failure : Failure} : value ≠ .absent → value.toReal = .error failure →
      OfArguments s value failure
  | precisionTooBig : ComplexFormat.maxPlaces < s.precision →
      OfArguments s value .precisionTooBig
  | tooManyDigits : ComplexFormat.maxPlaces < s.precision →
      OfArguments s value .tooManyDigits

namespace Session

variable {s : Session}

theorem evaluate_eq_empty_iff (s : Session) (value : Quantity) :
    s.evaluate value = .ok "" ↔ s.stored = [] := by
  constructor
  · intro h
    by_contra hne
    rw [evaluate_of_ne_nil hne] at h
    obtain ⟨z, -, hz⟩ := bind_eq_ok_iff.mp h
    exact ne_empty_of_format hz rfl
  · intro h
    rw [evaluate, h]
    rfl

/-- Writing a number fails only if the precision is beyond the limit. -/
theorem failsOnly_format_ofArguments (s : Session) (value : Quantity) (z : ComplexNumber) :
    FailsOnly (fun failure => failure.IsParse ∨ failure.OfArguments s value)
      (s.format.format z) := by
  by_cases hplaces : s.precision ≤ ComplexFormat.maxPlaces
  · exact failsOnly_format hplaces z
  · rw [not_le] at hplaces
    exact ComplexFormat.failsOnly_format (Or.inr (.tooManyDigits hplaces))
      (Or.inr (.precisionTooBig hplaces)) s.format z

/-- Evaluation fails with a parse error, or because of its arguments. -/
theorem failsOnly_evaluate_ofArguments (s : Session) (value : Quantity) :
    FailsOnly (fun failure => failure.IsParse ∨ failure.OfArguments s value)
      (s.evaluate value) := by
  have hgiven {given : Quantity} (hvalue : ∀ failure, given.toReal = .error failure →
      failure.OfArguments s value) :
      FailsOnly (fun failure => failure.IsParse ∨ failure.OfArguments s value)
        (s.evaluate given) :=
    failsOnly_evaluate (fun _ => Or.inl ⟨_, rfl⟩) (failsOnly_format_ofArguments s value)
      fun failure hfailure => Or.inr (hvalue failure hfailure)
  by_cases habsent : value = .absent
  · subst habsent
    -- Without a value there is a variable to blame, or no need for a value.
    by_cases hvariable : Alphabet.variableName ∈ s.stored
    · rw [evaluate_of_ne_nil (List.ne_nil_of_mem hvariable),
        Rpn.evaluate_absent_of_mem s.format hvariable]
      exact failsOnly_error (Or.inl ⟨_, rfl⟩)
    · rw [evaluate_absent (fun name hname heq => hvariable (heq ▸ hname)) .zero]
      exact hgiven fun failure hfailure => by contradiction
  · exact hgiven fun failure hfailure => .value habsent hfailure

/-- A parsed expression is evaluated to the empty text exactly if it has neither operands nor
operations.  With one of them there are entries, and the result is the text of a number, a
parse error or the fault of the arguments of the evaluation. -/
theorem evaluate_ne_empty (s : Session) (text : String) (parsed : Session)
    (hparse : s.parse (.text text) = .ok parsed) :
    ∃ tokens, Expression.tokens text = List.map .ok tokens ∧
      (Rpn.HasWord tokens ↔ parsed.stored ≠ []) ∧
      ∀ value, (Rpn.HasWord tokens ↔ parsed.evaluate value ≠ .ok "") ∧
        (Rpn.HasWord tokens →
          (∃ z out, parsed.format.format z = .ok out ∧ parsed.evaluate value = .ok out) ∨
          (∃ error, parsed.evaluate value = .error (.parse error)) ∨
          ∃ failure : Failure, failure.OfArguments parsed value ∧
            parsed.evaluate value = .error failure) := by
  obtain ⟨-, rpn, hconvert, rfl⟩ := parse_text_eq_ok.mp hparse
  obtain ⟨tokens, htokens, hword⟩ :=
    Rpn.hasWord_iff_of_convertExpression (f := s.format) rfl hconvert
  refine ⟨tokens, htokens, hword, fun value => ⟨?_, ?_⟩⟩
  · rw [hword, Ne, Ne, evaluate_eq_empty_iff]
  · intro h
    cases hvalue : evaluate { s with stored := rpn } value with
    | ok out =>
        left
        rcases evaluate_eq_ok hvalue with rfl | ⟨z, hz⟩
        · exact absurd ((evaluate_eq_empty_iff _ value).mp hvalue) (hword.mp h)
        · exact ⟨z, out, hz, rfl⟩
    | error failure =>
        right
        rcases failsOnly_evaluate_ofArguments { s with stored := rpn } value failure hvalue with
          ⟨error, rfl⟩ | hfailure
        · exact Or.inl ⟨error, rfl⟩
        · exact Or.inr ⟨failure, hfailure, rfl⟩

/-- A variable behind brackets that are not closed, with nothing else, is left to evaluate. -/
theorem evaluate_ne_empty_openBrackets :
    ∃ parsed, (⟨3, ["1"]⟩ : Session).parse (.text "((,var") = .ok parsed ∧
      parsed.stored ≠ [] ∧ ∀ value, parsed.evaluate value ≠ .ok "" := by
  have hconvert : Rpn.convertExpression (⟨3, ["1"]⟩ : Session).format "((,var" = .ok ["var"] := by
    apply eq_ok_of_toOption
    decide +kernel
  have hparse : (⟨3, ["1"]⟩ : Session).parse (.text "((,var") = .ok ⟨3, ["var"]⟩ :=
    parse_text_eq_ok.mpr ⟨by decide, _, hconvert, rfl⟩
  obtain ⟨tokens, -, hstored, hvalue⟩ := evaluate_ne_empty _ _ _ hparse
  have hword : Rpn.HasWord tokens := hstored.mpr (by simp)
  exact ⟨_, hparse, hstored.mp hword, fun value => (hvalue value).1.mp hword⟩

/-- Brackets around nothing are parsed, and then there is nothing left to evaluate. -/
theorem evaluate_emptyBrackets :
    (⟨3, ["1"]⟩ : Session).parse (.text "()") = .ok ⟨3, []⟩ ∧
      (⟨3, []⟩ : Session).evaluate .absent = .ok "" := by
  have hconvert : Rpn.convertExpression (⟨3, ["1"]⟩ : Session).format "()" = .ok [] := by
    apply eq_ok_of_toOption
    decide +kernel
  exact ⟨parse_text_eq_ok.mpr ⟨by decide, _, hconvert, rfl⟩, rfl⟩

end Session

end ComplexCalculator
