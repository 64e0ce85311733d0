import ComplexCalculator.Proofs.Expression.Recognition
import ComplexCalculator.Proofs.Rpn.Schedule

/-!
# Texts that are converted

A text whose conversion succeeds consists of tokens, among which all numbers are literals.
The entries are those of its arranged row, and this row consists of literals, variables and
operations.
-/

namespace ComplexCalculator

/-- The tokens that a tree is listed with. -/
inductive Token.Listed : Token → Prop where
  | literal (l : Literal) : Listed (.number l.name)
  | freeVariable : Listed .freeVariable
  | unary (operation : UnaryOperation) : Listed (.unary operation)
  | binary (operation : BinaryOperation) : Listed (.binary operation)

namespace Rpn

variable {f : ComplexFormat}

/-- A text whose conversion succeeds consists of tokens. -/
theorem exists_tokens_of_convertExpression {text : String} {rpn : List String}
    (h : convertExpression f text = .ok rpn) :
    ∃ tokens : List Token, Expression.tokens text = tokens.map .ok ∧
      convert f tokens = .ok rpn := by
  have hall {outcomes : List (Except Failure Token)} {c c' : Conversion}
      (h : outcomes.foldlM (fun c token => token >>= c.step f) c = .ok c') :
      ∃ tokens : List Token, outcomes = tokens.map .ok := by
    induction outcomes generalizing c with
    | nil => exact ⟨[], rfl⟩
    | cons outcome outcomes ih =>
        rw [List.foldlM_cons] at h
        obtain ⟨middle, hfirst, hrest⟩ := bind_eq_ok_iff.mp h
        obtain ⟨token, rfl, -⟩ := bind_eq_ok_iff.mp hfirst
        obtain ⟨tokens, rfl⟩ := ih hrest
        exact ⟨token :: tokens, rfl⟩
  rw [convertExpression] at h
  obtain ⟨c, hfold, -⟩ := map_eq_ok_iff.mp h
  obtain ⟨tokens, htokens⟩ := hall hfold
  rw [htokens] at h
  exact ⟨tokens, htokens, h⟩

/-- What a text is converted to: the entries of its arranged tokens, which are literals,
variables and operations. -/
theorem exists_row_of_convertExpression (hsymbol : f.symbol = Alphabet.imaginaryUnit.toString)
    {text : String} {rpn : List String} (h : convertExpression f text = .ok rpn) :
    ∃ tokens row : List Token, Expression.tokens text = tokens.map .ok ∧
      arrange tokens = .ok row ∧ row.mapM (entry f) = .ok rpn.reverse ∧
      ∀ token ∈ row, token ∈ tokens ∧ token.Listed := by
  obtain ⟨tokens, htokens, hconvert⟩ := exists_tokens_of_convertExpression h
  obtain ⟨row, harrange, hentries⟩ := exists_arrange_of_convert hconvert
  refine ⟨tokens, row, htokens, harrange, hentries, ?_⟩
  intro token htoken
  obtain ⟨hwords, hkinds⟩ := sameWords_of_arrange harrange
  have hkind := hkinds token htoken
  have hmem := hwords.mem htoken hkind
  refine ⟨hmem, ?_⟩
  have hmemText : .ok token ∈ Expression.tokens text := by
    rw [htokens]
    exact List.mem_map_of_mem hmem
  have hrecognized := Expression.recognized_of_mem_tokens hmemText
  obtain ⟨text, hentry⟩ := exists_ok_of_mapM hentries token htoken
  cases hrecognized with
  | openBracket => simp [isOperand, isOperation] at hkind
  | closeBracket => simp [isOperand, isOperation] at hkind
  | separator => simp [isOperand, isOperation] at hkind
  | unary operation => exact .unary operation
  | binary operation => exact .binary operation
  | freeVariable => exact .freeVariable
  | @number name hname =>
      obtain ⟨l, rfl⟩ := Literal.exists_of_literalEntry hsymbol hname.1 hname.2 hentry
      exact .literal l

end Rpn

end ComplexCalculator
