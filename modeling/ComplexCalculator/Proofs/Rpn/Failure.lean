import ComplexCalculator.Proofs.Failure.Basic
import ComplexCalculator.Session.Basic
import Mathlib.Tactic.SplitIfs

/-!
# What conversion and evaluation fail with

Conversion and evaluation themselves fail with parse errors that carry no expression.  The
only other failures come from writing a number and from the value of the variable.  Hence a
property of failures that all such parse errors have is one of every failure, provided that
the failures of these two have it.
-/

namespace ComplexCalculator

variable {p : Failure → Prop}

/-- A number fails to be written only if there are too many places. -/
theorem ComplexFormat.failsOnly_format (hword : p .tooManyDigits) (hbig : p .precisionTooBig)
    (f : ComplexFormat) (z : ComplexNumber) : FailsOnly p (f.format z) := by
  have hplaces : FailsOnly p f.finitePlaces := by
    rw [finitePlaces]
    split_ifs
    · exact failsOnly_error hword
    · exact failsOnly_error hbig
    · exact failsOnly_ok p _
  have hpart (x : Binary64) : FailsOnly p (f.partText x) := by
    cases x with
    | nan => exact failsOnly_ok p _
    | infinite negative => exact failsOnly_ok p _
    | finite negative x => exact hplaces.map _
  have hreal (x : Binary64) : FailsOnly p (f.realText x) := by
    unfold realText
    split
    · exact failsOnly_ok p _
    · exact (hpart x).map _
  rw [format]
  exact (hpart z.im).bind fun _ _ => (hreal z.re).bind fun _ _ => failsOnly_ok p _

variable (hcause : ∀ cause, p (.ofCause cause))

include hcause

theorem ComplexFormat.failsOnly_read (f : ComplexFormat) (text : String) :
    FailsOnly p (f.read text) := by
  rw [read]
  split
  · exact failsOnly_ok p _
  · exact failsOnly_error (hcause _)

theorem Token.failsOnly_classify (text : String) : FailsOnly p (classify text) := by
  unfold classify
  split
  · exact failsOnly_ok p _
  · exact failsOnly_ok p _
  · split_ifs
    · exact failsOnly_ok p _
    · exact failsOnly_ok p _
    · exact failsOnly_error (hcause _)

namespace Rpn

variable {f : ComplexFormat} (hformat : ∀ z, FailsOnly p (f.format z))

theorem failsOnly_close (c : Conversion) : FailsOnly p c.close := by
  unfold Conversion.close
  dsimp only
  split
  · exact failsOnly_error (hcause _)
  · exact failsOnly_ok p _

theorem failsOnly_single (stack : List ComplexNumber) : FailsOnly p (single stack) := by
  unfold single
  split
  · exact failsOnly_ok p _
  · exact failsOnly_error (hcause _)
  · exact failsOnly_error (hcause _)

include hformat

/-! ## Conversion -/

theorem failsOnly_literalEntry (name : String) : FailsOnly p (literalEntry f name) := by
  rw [literalEntry]
  split_ifs
  · exact hformat _
  · exact (f.failsOnly_read hcause _).bind fun z _ => hformat z
  · exact failsOnly_ok p _

theorem failsOnly_conversionStep (c : Conversion) (token : Token) :
    FailsOnly p (c.step f token) := by
  unfold Conversion.step
  split
  · exact failsOnly_ok p _
  · exact failsOnly_ok p _
  · exact failsOnly_close hcause c
  · exact (failsOnly_literalEntry hcause hformat token.name).map _
  · exact failsOnly_ok p _
  · exact failsOnly_ok p _
  · exact failsOnly_ok p _
  · exact failsOnly_error (hcause _)

theorem failsOnly_convertExpression (expression : String) :
    FailsOnly p (convertExpression f expression) := by
  rw [convertExpression, convertAll]
  refine (FailsOnly.foldlM ?_ Conversion.start).map Conversion.finish
  intro c token htoken
  obtain ⟨piece, -, rfl⟩ := List.mem_map.mp htoken
  exact (Token.failsOnly_classify hcause piece).bind fun token _ =>
    failsOnly_conversionStep hcause hformat c token

/-! ## Evaluation -/

theorem failsOnly_step (name : String) (stack : List ComplexNumber) :
    FailsOnly p (step f (.text name) stack) := by
  rw [step]
  cases Operation.ofSymbol? name with
  | none => exact (f.failsOnly_read hcause name).map (· :: stack)
  | some operation =>
      dsimp only
      cases operation.reduce? stack with
      | none => exact failsOnly_error (hcause _)
      | some found => exact ((hformat _).bind fun text _ => f.failsOnly_read hcause text).map _

omit hformat in
theorem failsOnly_bindVariable {value : Quantity} (hvalue : FailsOnly p value.toReal)
    (entries : List Datum) : FailsOnly p (bindVariable entries value) := by
  unfold bindVariable
  split
  · split_ifs
    · exact failsOnly_error (hcause _)
    · exact failsOnly_ok p _
  · exact hvalue.map _

omit hcause hformat in
/-- In the place of the variable there is a text again. -/
theorem exists_text_of_bindVariable {names : List String} {value : Quantity}
    {entries : List Datum} (h : bindVariable (names.map .text) value = .ok entries) :
    ∀ entry ∈ entries, ∃ name, entry = .text name := by
  have hnames : ∀ entry ∈ names.map Datum.text, ∃ name, entry = .text name := by
    intro entry hentry
    obtain ⟨name, -, rfl⟩ := List.mem_map.mp hentry
    exact ⟨name, rfl⟩
  unfold bindVariable at h
  split at h
  · split_ifs at h
    injection h with h
    exact h ▸ hnames
  · obtain ⟨x, -, rfl⟩ := map_eq_ok_iff.mp h
    intro entry hentry
    obtain ⟨given, hgiven, rfl⟩ := List.mem_map.mp hentry
    split_ifs
    · exact ⟨_, rfl⟩
    · exact hnames given hgiven

theorem failsOnly_evaluate {value : Quantity} (hvalue : FailsOnly p value.toReal)
    (rpn : List String) : FailsOnly p (evaluate f rpn value) := by
  rw [evaluate, evaluateData]
  refine (failsOnly_bindVariable hcause hvalue _).bind fun entries hentries => ?_
  refine (FailsOnly.foldrM ?_ []).bind fun stack _ => failsOnly_single hcause stack
  intro stack entry hentry
  obtain ⟨name, rfl⟩ := exists_text_of_bindVariable hentries entry hentry
  exact failsOnly_step hcause hformat name stack

end Rpn

/-- A session fails to evaluate like the evaluation itself, or when it writes the value. -/
theorem Session.failsOnly_evaluate {s : Session}
    (hformat : ∀ z, FailsOnly p (s.format.format z)) {value : Quantity}
    (hvalue : FailsOnly p value.toReal) : FailsOnly p (s.evaluate value) := by
  rw [evaluate]
  split_ifs
  · exact failsOnly_ok p _
  · exact (Rpn.failsOnly_evaluate hcause hformat hvalue s.stored).bind fun z _ => hformat z

end ComplexCalculator
