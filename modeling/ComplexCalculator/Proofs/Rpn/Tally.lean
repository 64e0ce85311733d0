import ComplexCalculator.Proofs.Rpn.Evaluation

/-!
# Counting operands

Whether a list of entries has a value, and what its evaluation fails with otherwise, is found
by counting: the entries are taken from the last to the first, and only the number of operands
on the stack is kept.  Neither the values nor the precision matter, since every operation has
a result, and every result can be written and read back.
-/

namespace ComplexCalculator

namespace Rpn

open Alphabet (variableName)

/-! ## Counting -/

/-- Whether an entry is read as a number, at any precision. -/
def isReadable (name : String) : Bool :=
  (ComplexFormat.readCompact? [Alphabet.imaginaryUnit] (Text.dropBlanks name.toList)).isSome

/-- The number of operands after an entry, from the number before it.  An operation takes as
many as its arity and leaves one. -/
def countEntry (name : String) (count : ℕ) : Except Failure ℕ :=
  match Operation.ofSymbol? name with
  | some operation =>
    if count < operation.arity then .error (.ofCause (.missingOperand name))
    else .ok (count - operation.arity + 1)
  | none =>
    if name = variableName ∨ isReadable name = true then .ok (count + 1)
    else .error (.ofCause (.malformedNumber name))

/-- How the evaluation of a list of entries ends if the variable has a value. -/
def tally (rpn : List String) : Except Failure Unit := do
  let count ← rpn.foldrM countEntry 0
  if rpn = [] then .error (.ofCause .nothingToEvaluate)
  else if 1 < count then .error (.ofCause .missingOperator)
  else .ok ()

/-- The number of operands never returns to zero. -/
theorem countEntry_pos {name : String} {count count' : ℕ}
    (h : countEntry name count = .ok count') : 0 < count' := by
  unfold countEntry at h
  split at h <;> split_ifs at h
  all_goals
    injection h with h
    omega

theorem foldrM_countEntry_pos {rpn : List String} (hne : rpn ≠ []) {count : ℕ}
    (h : rpn.foldrM countEntry 0 = .ok count) : 0 < count := by
  obtain ⟨name, rest, rfl⟩ := List.exists_cons_of_ne_nil hne
  rw [List.foldrM_cons] at h
  obtain ⟨before, -, hcount⟩ := bind_eq_ok_iff.mp h
  exact countEntry_pos hcount

/-! ## Steps -/

/-- An operation that has too few operands does nothing. -/
theorem reduce?_eq_none {operation : Operation} {stack : List ComplexNumber}
    (h : stack.length < operation.arity) : operation.reduce? stack = none := by
  cases operation with
  | unary operation =>
      cases stack with
      | nil => rfl
      | cons z stack =>
          rw [List.length_cons, Operation.arity] at h
          omega
  | binary operation =>
      rcases stack with _ | ⟨w, _ | ⟨z, stack⟩⟩
      · rfl
      · rfl
      · rw [List.length_cons, List.length_cons, Operation.arity] at h
        omega

theorem exists_reduce? {operation : Operation} {stack : List ComplexNumber}
    (h : ¬stack.length < operation.arity) :
    ∃ rest result, operation.reduce? stack = some (rest, result) ∧
      rest.length = stack.length - operation.arity := by
  cases operation with
  | unary operation =>
      cases stack with
      | nil => exact absurd one_pos h
      | cons z stack => exact ⟨stack, _, rfl, rfl⟩
  | binary operation =>
      rcases stack with _ | ⟨w, _ | ⟨z, stack⟩⟩
      · exact absurd two_pos h
      · exact absurd one_lt_two h
      · exact ⟨stack, _, rfl, rfl⟩

variable {f : ComplexFormat} {v : Binary64}

section

variable (hsymbol : f.symbol = Alphabet.imaginaryUnit.toString)

include hsymbol

theorem isReadable_eq (name : String) : isReadable name = (f.read? name).isSome := by
  rw [isReadable, ComplexFormat.read?, ComplexFormat.toList_symbol hsymbol]

variable (hplaces : f.precision ≤ ComplexFormat.maxPlaces)

include hplaces

/-- The height of the stack after an entry depends only on the height before it. -/
theorem length_step (hv : v.isFinite = true) (name : String) (stack : List ComplexNumber) :
    (step f (bound v name) stack).map List.length = countEntry name stack.length := by
  by_cases hvariable : name = variableName
  · obtain ⟨hread, hlike⟩ := read_shortestText f hv
    have hnone : Operation.ofSymbol? variableName = none := by decide
    rw [hvariable, bound, if_pos rfl, step_numberLike hlike, hread, countEntry, hnone]
    rfl
  · rw [bound, if_neg hvariable, step, countEntry]
    cases Operation.ofSymbol? name with
    | none =>
        dsimp only
        rw [isReadable_eq hsymbol]
        cases hread : f.read? name with
        | none =>
            rw [ComplexFormat.read_eq_error hread, if_neg (by simp [hvariable])]
            rfl
        | some z =>
            rw [ComplexFormat.read_eq_ok.mpr hread, if_pos (Or.inr Option.isSome_some)]
            rfl
    | some operation =>
        dsimp only
        by_cases harity : stack.length < operation.arity
        · rw [reduce?_eq_none harity, if_pos harity]
          rfl
        -- The result is rounded, which never fails.
        · obtain ⟨rest, result, hreduce, hlength⟩ := exists_reduce? harity
          rw [hreduce, if_neg harity, ← hlength]
          dsimp only
          rw [ComplexFormat.rounded_eq_settled hsymbol hplaces]
          rfl

theorem length_foldrM (hv : v.isFinite = true) (rpn : List String) :
    ((rpn.map (bound v)).foldrM (step f) []).map List.length = rpn.foldrM countEntry 0 := by
  rw [List.foldrM_map]
  exact map_foldrM (length_step hsymbol hplaces hv) rpn []

/-- With a value for the variable the evaluation ends as the tally says. -/
theorem evaluate_real_eq_tally (hv : v.isFinite = true) (rpn : List String) :
    (evaluate f rpn (.real v)).map (fun _ => ()) = tally rpn := by
  have hlength := length_foldrM hsymbol hplaces hv rpn
  rw [evaluate, evaluateData, bindVariable_real, ok_bind, tally, ← hlength]
  cases hfold : (rpn.map (bound v)).foldrM (step f) [] with
  | error failure => rfl
  | ok stack =>
      rw [hfold] at hlength
      change (single stack).map _ = ite _ _ _
      by_cases hnil : rpn = []
      · subst hnil
        cases hfold
        rfl
      · have hpos := foldrM_countEntry_pos hnil hlength.symm
        rw [if_neg hnil]
        rcases stack with _ | ⟨z, _ | ⟨w, stack⟩⟩
        · contradiction
        · rfl
        · rw [if_pos (by simp)]
          rfl

end

/-- Whether a list of entries has a value, and what its evaluation fails with otherwise, is
found by counting operands.  Without a value for the variable there must be no variable, which
is found out first. -/
theorem evaluate_eq_tally (hsymbol : f.symbol = Alphabet.imaginaryUnit.toString)
    (hplaces : f.precision ≤ 2147483647) (rpn : List String) :
    (∀ v : Binary64, v.isFinite = true →
      (evaluate f rpn (.real v)).map (fun _ => ()) = tally rpn) ∧
    (evaluate f rpn .absent).map (fun _ => ()) =
      if variableName ∈ rpn then .error (.ofCause (.unrecognizedToken variableName))
      else tally rpn := by
  refine ⟨fun v hv => evaluate_real_eq_tally hsymbol hplaces hv rpn, ?_⟩
  by_cases hvariable : variableName ∈ rpn
  · rw [evaluate_absent_of_mem f hvariable, if_pos hvariable]
    rfl
  · have hnames : ∀ name ∈ rpn, name ≠ variableName :=
      fun name hname heq => hvariable (heq ▸ hname)
    rw [evaluate_absent hnames .zero, if_neg hvariable]
    exact evaluate_real_eq_tally hsymbol hplaces rfl rpn

/-- A sum that lacks an operand comes before an entry that is no number, whatever the quotient
below it is. -/
theorem evaluate_eq_tally_sum :
    Binary64.zero.isFinite = true ∧
      (evaluate ⟨3, "I"⟩ ["x", "+", "/", "var", "1"] (.real .zero)).map (fun _ => ()) =
        .error (.ofCause (.missingOperand "+")) ∧
      (evaluate ⟨3, "I"⟩ ["x", "+", "/", "var", "1"] .absent).map (fun _ => ()) =
        .error (.ofCause (.unrecognizedToken "var")) := by
  have htally : tally ["x", "+", "/", "var", "1"] = .error (.ofCause (.missingOperand "+")) := rfl
  obtain ⟨hreal, habsent⟩ := evaluate_eq_tally (f := ⟨3, "I"⟩) rfl (by decide)
    ["x", "+", "/", "var", "1"]
  refine ⟨rfl, ?_, ?_⟩
  · rw [hreal .zero rfl, htally]
  · rw [habsent, if_pos (by decide)]
    rfl

end Rpn

end ComplexCalculator
