import ComplexCalculator.Proofs.Session.Outcome
import ComplexCalculator.Proofs.Session.Precision

/-!
# Failures of the evaluation

The entries of a parsed expression are symbols of operations, the variable and texts that are
read as numbers at any precision, and every result is read back after it was rounded.  So the
only thing that can go wrong in an evaluation is the structure of the expression: an operation
has too few operands, operands are left over, or the variable has no value.
-/

namespace ComplexCalculator

namespace Rpn

variable {f : ComplexFormat}

/-! ## Entries that can be evaluated -/

/-- Whether an entry is the symbol of an operation or is read as a number. -/
def Executable (f : ComplexFormat) (name : String) : Prop :=
  (∃ operation : Operation, name = operation.symbol) ∨ ∃ z, f.read name = .ok z

/-- Whatever a token is written as at one precision is the variable or can be evaluated at
another one. -/
theorem executable_of_entry {g : ComplexFormat}
    (hf : f.symbol = Alphabet.imaginaryUnit.toString)
    (hg : g.symbol = Alphabet.imaginaryUnit.toString) {token : Token} (htoken : token.Listed)
    {name : String} (h : entry f token = .ok name) :
    name = Alphabet.variableName ∨ Executable g name := by
  cases htoken with
  | literal l =>
      right; right
      have hliteral : literalEntry f l.name = .ok name := h
      cases l with
      | real n hn =>
          rw [Literal.literalEntry_real] at hliteral
          injection hliteral with hliteral
          subst hliteral
          exact ⟨_, g.read_real none n⟩
      | imaginary n hn =>
          rw [Literal.literalEntry_imaginary hf] at hliteral
          refine ⟨f.settled (Literal.imaginary n hn).number, ?_⟩
          rw [← read_eq_of_symbol (hf.trans hg.symm)]
          exact ComplexFormat.read_format (hf ▸ Alphabet.isBlank_of_mem_imaginaryUnit) hliteral
  | freeVariable =>
      injection h with h
      exact Or.inl h.symm
  | unary operation =>
      injection h with h
      exact Or.inr (Or.inl ⟨.unary operation, h.symm⟩)
  | binary operation =>
      rw [entry_binary] at h
      injection h with h
      exact Or.inr (Or.inl ⟨.binary operation, h.symm⟩)

/-! ## Structural failures -/

/-- The causes of failure that lie in the structure of the entries and in the value that the
variable lacks. -/
inductive Structural (names : List String) (value : Quantity) : Cause → Prop where
  | missingOperand (operation : Operation) : operation.symbol ∈ names →
      Structural names value (.missingOperand operation.symbol)
  | missingOperator : Structural names value .missingOperator
  | nothingToEvaluate : names = [] → Structural names value .nothingToEvaluate
  | unboundVariable : value = .absent → Alphabet.variableName ∈ names →
      Structural names value (.unrecognizedToken Alphabet.variableName)

/-- Without a value no fewer causes are structural than with one. -/
theorem Structural.of_real {names : List String} {v : Binary64} {cause : Cause}
    (h : Structural names (.real v) cause) : Structural names .absent cause := by
  cases h with
  | missingOperand operation hmem => exact .missingOperand operation hmem
  | missingOperator => exact .missingOperator
  | nothingToEvaluate hnames => exact .nothingToEvaluate hnames
  | unboundVariable habsent hmem => contradiction

/-- Whether a failure has a structural cause. -/
def IsStructural (names : List String) (value : Quantity) (failure : Failure) : Prop :=
  ∃ cause, Structural names value cause ∧ failure = .ofCause cause

section

variable (hsymbol : f.symbol = Alphabet.imaginaryUnit.toString)
  (hplaces : f.precision ≤ ComplexFormat.maxPlaces)

include hsymbol hplaces

/-- An entry that can be evaluated fails only for want of operands. -/
theorem failsOnly_step_of_executable {name : String} (h : Executable f name)
    (stack : List ComplexNumber) :
    FailsOnly (fun failure => ∃ operation : Operation, name = operation.symbol ∧
      failure = .ofCause (.missingOperand operation.symbol)) (step f (.text name) stack) := by
  rw [step]
  cases hoperation : Operation.ofSymbol? name with
  | none =>
      rcases h with ⟨operation, rfl⟩ | ⟨z, hz⟩
      · rw [Operation.ofSymbol?_symbol] at hoperation
        contradiction
      · dsimp only
        rw [hz]
        exact failsOnly_ok _ _
  | some operation =>
      rw [Operation.ofSymbol?] at hoperation
      have hsame := List.find?_some hoperation
      rw [beq_iff_eq] at hsame
      dsimp only
      cases operation.reduce? stack with
      | none =>
          subst hsame
          exact failsOnly_error ⟨operation, rfl, rfl⟩
      | some found =>
          dsimp only
          rw [ComplexFormat.rounded_eq_settled hsymbol hplaces]
          exact failsOnly_ok _ _

/-- With a value for the variable, entries that can be evaluated fail for a structural cause
only. -/
theorem failsOnly_evaluate_real {names : List String}
    (hnames : ∀ name ∈ names, name = Alphabet.variableName ∨ Executable f name)
    {v : Binary64} (hv : v.isFinite = true) :
    FailsOnly (IsStructural names (.real v)) (evaluate f names (.real v)) := by
  rw [evaluate, evaluateData, bindVariable_real, ok_bind]
  refine (FailsOnly.foldrM ?_ []).bind fun stack hstack => ?_
  · intro stack entry hentry
    obtain ⟨name, hname, rfl⟩ := List.mem_map.mp hentry
    rw [bound]
    split_ifs with hvariable
    · obtain ⟨hread, hlike⟩ := read_shortestText f hv
      rw [step_numberLike hlike, hread]
      exact failsOnly_ok _ _
    · have hexecutable := (hnames name hname).resolve_left hvariable
      intro failure hfailure
      obtain ⟨operation, rfl, rfl⟩ :=
        failsOnly_step_of_executable hsymbol hplaces hexecutable stack failure hfailure
      exact ⟨_, .missingOperand operation hname, rfl⟩
  · rcases stack with _ | ⟨z, _ | ⟨w, stack⟩⟩
    · refine failsOnly_error ⟨_, .nothingToEvaluate ?_, rfl⟩
      by_contra hne
      exact foldrM_step_ne_nil (by simpa using hne) hstack rfl
    · exact failsOnly_ok _ z
    · exact failsOnly_error ⟨_, .missingOperator, rfl⟩

/-- Entries that are the variable or can be evaluated fail for a structural cause only. -/
theorem failsOnly_evaluate_of_executable {names : List String}
    (hnames : ∀ name ∈ names, name = Alphabet.variableName ∨ Executable f name)
    {value : Quantity}
    (hvalue : value = .absent ∨ ∃ v : Binary64, v.isFinite = true ∧ value = .real v) :
    FailsOnly (IsStructural names value) (evaluate f names value) := by
  rcases hvalue with rfl | ⟨v, hv, rfl⟩
  · by_cases hvariable : Alphabet.variableName ∈ names
    · rw [evaluate_absent_of_mem f hvariable]
      exact failsOnly_error ⟨_, .unboundVariable rfl hvariable, rfl⟩
    · rw [evaluate_absent (fun name hname heq => hvariable (heq ▸ hname)) .zero]
      intro failure hfailure
      obtain ⟨cause, hcause, rfl⟩ :=
        failsOnly_evaluate_real hsymbol hplaces hnames (v := .zero) rfl failure hfailure
      exact ⟨cause, hcause.of_real, rfl⟩
  · exact failsOnly_evaluate_real hsymbol hplaces hnames hv

end

end Rpn

namespace Session

/-- Every entry of a parsed expression is the variable or can be evaluated, at any
precision. -/
theorem executable_of_parse {s parsed : Session} {text : String}
    (h : s.parse (.text text) = .ok parsed) {g : ComplexFormat}
    (hg : g.symbol = Alphabet.imaginaryUnit.toString) :
    ∀ name ∈ parsed.stored, name = Alphabet.variableName ∨ Rpn.Executable g name := by
  obtain ⟨-, rpn, hconvert, rfl⟩ := parse_text_eq_ok.mp h
  obtain ⟨tokens, row, -, -, hentries, hrow⟩ :=
    Rpn.exists_row_of_convertExpression (f := s.format) rfl hconvert
  intro name hname
  obtain ⟨token, htoken, hentry⟩ :=
    Rpn.exists_token_of_mem_entries hentries (List.mem_reverse.mpr hname)
  exact Rpn.executable_of_entry (f := s.format) rfl hg (hrow token htoken).2 hentry

/-- Evaluating a parsed expression at any precision and any finite value of the variable, or
none, fails for a structural cause only. -/
theorem evaluate_structural (s : Session) (text : String) (parsed : Session)
    (hparse : s.parse (.text text) = .ok parsed) (places : ℕ) (hplaces : places ≤ 2147483647)
    (value : Quantity)
    (hvalue : value = .absent ∨ ∃ v : Binary64, v.isFinite = true ∧ value = .real v) :
    ∃ changed, parsed.setPrecision (.integer places) = .ok changed ∧
      changed.stored = parsed.stored ∧
      ((∃ z, Rpn.evaluate changed.format changed.stored value = .ok z) ∨
        ∃ failure, Rpn.IsStructural changed.stored value failure ∧
          Rpn.evaluate changed.format changed.stored value = .error failure) ∧
      ((∃ out, changed.evaluate value = .ok out) ∨
        ∃ failure, Rpn.IsStructural changed.stored value failure ∧
          changed.evaluate value = .error failure) := by
  let changed : Session := { parsed with precision := places }
  have hfails : FailsOnly (Rpn.IsStructural changed.stored value)
      (Rpn.evaluate changed.format changed.stored value) :=
    Rpn.failsOnly_evaluate_of_executable (f := changed.format) rfl hplaces
      (executable_of_parse hparse rfl) hvalue
  have hsession : FailsOnly (Rpn.IsStructural changed.stored value) (changed.evaluate value) := by
    rw [evaluate]
    split_ifs
    · exact failsOnly_ok _ _
    · exact hfails.bind fun z _ => failsOnly_format (s := changed) hplaces z
  exact ⟨changed, rfl, rfl, hfails.ok_or_error, hsession.ok_or_error⟩

/-- The entries of `(var/0-var/0)*2I+`. -/
def danglingPlus : List String := ["+", "*", "0 + 2I", "-", "/", "0", "var", "/", "0", "var"]

/-- A plus without a right operand is what fails, and not the NaN on its left. -/
theorem evaluate_structural_plus :
    (⟨0, []⟩ : Session).parse (.text "(var/0-var/0)*2I+") = .ok ⟨0, danglingPlus⟩ ∧
      ∃ changed failure, (⟨0, danglingPlus⟩ : Session).setPrecision (.integer (3 : ℕ)) =
          .ok changed ∧
        Rpn.IsStructural changed.stored (.real .one) failure ∧
        changed.evaluate (.real .one) = .error failure := by
  have hconvert : Rpn.convertExpression (⟨0, []⟩ : Session).format "(var/0-var/0)*2I+" =
      .ok danglingPlus := by
    apply eq_ok_of_toOption
    decide +kernel
  have hparse := parse_text_eq_ok.mpr ⟨by decide, _, hconvert, rfl⟩
  have hvalue : (.real .one : Quantity) = .absent ∨
      ∃ v : Binary64, v.isFinite = true ∧ (.real .one : Quantity) = .real v :=
    Or.inr ⟨.one, by decide +kernel, rfl⟩
  have hset : (⟨0, danglingPlus⟩ : Session).setPrecision (.integer (3 : ℕ)) =
      .ok ⟨3, danglingPlus⟩ := rfl
  have hfails : (evaluate ⟨3, danglingPlus⟩ (.real .one)).toOption = none := by decide +kernel
  obtain ⟨changed, hchanged, -, -, ⟨out, hout⟩ | ⟨failure, hfailure, herror⟩⟩ :=
    evaluate_structural ⟨0, []⟩ _ _ hparse 3 (by decide) (.real .one) hvalue
  · rw [hset] at hchanged
    injection hchanged with hchanged
    rw [hchanged, hout] at hfails
    exact absurd hfails (Option.some_ne_none out)
  · exact ⟨hparse, changed, failure, hchanged, hfailure, herror⟩

end Session

end ComplexCalculator
