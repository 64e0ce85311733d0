import ComplexCalculator.Proofs.Rpn.Evaluation
import ComplexCalculator.Session.Basic

/-!
# The value of the variable

The value of the variable is not put on the stack itself: its shortest text takes the place of
the variable and is read again.  For finite values this makes no difference.  The texts of NaN
and of the infinities are not the markers that these numbers are read from, so that every
occurrence of the variable fails.
-/

namespace ComplexCalculator

open Alphabet (variableName)

namespace Rpn

/-- The effect of one entry on the stack if the variable stands for an operand of its own. -/
def stepWith (f : ComplexFormat) (operand : Except Failure ComplexNumber) (name : String)
    (stack : List ComplexNumber) : Except Failure (List ComplexNumber) :=
  if name = variableName then operand.map (· :: stack) else step f (.text name) stack

/-- The value of a list of entries in which the variable stands for an operand. -/
def evaluateWith (f : ComplexFormat) (operand : Except Failure ComplexNumber)
    (rpn : List String) : Except Failure ComplexNumber :=
  rpn.foldrM (stepWith f operand) [] >>= single

variable {f : ComplexFormat}

/-- No text of a value is the symbol of an operation. -/
theorem step_shortestText (f : ComplexFormat) (v : Binary64) (stack : List ComplexNumber) :
    step f (.text v.shortestText) stack = (f.read v.shortestText).map (· :: stack) := by
  cases v with
  | nan => rfl
  | infinite negative => cases negative <;> rfl
  | finite negative x => exact step_numberLike (read_shortestText f rfl).2 stack

/-- The variable stands for what the text of its value is read as. -/
theorem evaluate_real (f : ComplexFormat) (rpn : List String) (v : Binary64) :
    evaluate f rpn (.real v) = evaluateWith f (f.read v.shortestText) rpn := by
  have hstep (name : String) (stack : List ComplexNumber) :
      step f (bound v name) stack = stepWith f (f.read v.shortestText) name stack := by
    by_cases hvariable : name = variableName
    · rw [bound, stepWith, if_pos hvariable, if_pos hvariable, step_shortestText]
    · rw [bound, stepWith, if_neg hvariable, if_neg hvariable]
  rw [evaluate, evaluateData, bindVariable_real, ok_bind, List.foldrM_map, evaluateWith]
  simp only [hstep]

/-- The text of a value that is not finite is not read. -/
theorem read_shortestText_of_not_finite (hsymbol : f.symbol = Alphabet.imaginaryUnit.toString)
    {v : Binary64} (hv : v.isFinite = false) :
    f.read v.shortestText = .error (.ofCause (.malformedNumber v.shortestText)) := by
  apply ComplexFormat.read_eq_error
  rw [ComplexFormat.read?, ComplexFormat.toList_symbol hsymbol]
  -- The three texts are `nan`, `inf` and `-inf`; the markers are longer words in brackets.
  cases v with
  | nan => decide +kernel
  | infinite negative => cases negative <;> decide +kernel
  | finite negative x => contradiction

end Rpn

namespace Session

/-- The text of the value of the parsed expression in which the variable stands for an
operand; empty if nothing has been parsed. -/
def evaluateWith (s : Session) (operand : Except Failure ComplexNumber) :
    Except Failure String :=
  if s.stored.isEmpty then .ok ""
  else Rpn.evaluateWith s.format operand s.stored >>= s.format.format

/-- With a finite value the variable stands for this value as a complex number.  With any
other value it fails wherever it is evaluated, since the text of the value is no number. -/
theorem evaluate_variableValue (s : Session) (v : Binary64) :
    (v.isFinite = true → s.evaluate (.real v) = s.evaluateWith (.ok (.ofReal v))) ∧
    (v.isFinite = false → s.evaluate (.real v) =
      s.evaluateWith (.error (.ofCause (.malformedNumber v.shortestText)))) := by
  constructor
  · intro hv
    rw [evaluate, evaluateWith, Rpn.evaluate_real, (Rpn.read_shortestText s.format hv).1]
  · intro hv
    rw [evaluate, evaluateWith, Rpn.evaluate_real,
      Rpn.read_shortestText_of_not_finite (f := s.format) rfl hv]

/-- The square of the variable at the negative number nearest to zero, and at NaN. -/
theorem evaluate_variableValue_square :
    (Decimal.nearest true ⟨5, -324⟩).isFinite = true ∧ Binary64.nan.isFinite = false ∧
      (⟨3, ["*", "var", "var"]⟩ : Session).evaluate (.real (Decimal.nearest true ⟨5, -324⟩)) =
        (⟨3, ["*", "var", "var"]⟩ : Session).evaluateWith
          (.ok (.ofReal (Decimal.nearest true ⟨5, -324⟩))) ∧
      (⟨3, ["*", "var", "var"]⟩ : Session).evaluate (.real .nan) =
        .error (.ofCause (.malformedNumber "nan")) := by
  have hfinite : (Decimal.nearest true ⟨5, -324⟩).isFinite = true := by decide +kernel
  have hnan := (evaluate_variableValue ⟨3, ["*", "var", "var"]⟩ .nan).2 rfl
  exact ⟨hfinite, rfl, (evaluate_variableValue ⟨3, ["*", "var", "var"]⟩ _).1 hfinite, hnan⟩

/-- The reciprocal of zero is infinite, and cannot be given to the variable although its own
reciprocal is zero. -/
theorem evaluate_reciprocal_infinite :
    (⟨3, ["/", "var", "1"]⟩ : Session).evaluateComplex (.real .zero) =
        .ok ⟨.infinite false, .nan⟩ ∧
      (⟨3, ["/", "var", "1"]⟩ : Session).evaluateWith (.ok (.ofReal (.infinite false))) =
        .ok "0.000 + 0.000I" ∧
      (⟨3, ["/", "var", "1"]⟩ : Session).evaluate (.real (.infinite false)) =
        .error (.ofCause (.malformedNumber "inf")) := by
  refine ⟨?_, ?_, rfl⟩
  · apply eq_ok_of_toOption
    decide +kernel
  · apply eq_ok_of_toOption
    decide +kernel

end Session

end ComplexCalculator
