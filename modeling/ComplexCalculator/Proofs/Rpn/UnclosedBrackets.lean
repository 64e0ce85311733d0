import ComplexCalculator.Proofs.Expression.Cutting
import ComplexCalculator.Proofs.Rpn.Offence

/-!
# Unclosed brackets

A text that leaves brackets open is converted as if they were closed at its end.  A closing
bracket behind a text is a piece of its own, whatever the text ends with, and reading it in the
end changes nothing about the result.  The brackets that a conversion has open are those of the
text, since bringing a text into its normal form and cutting it leaves its brackets alone.
-/

namespace ComplexCalculator

open Alphabet (closeBracket degreeSign isSign openBracket)
open Text (dropBlanks isBlank)

namespace Expression

/-! ## A bracket behind a text -/

/-- A closing bracket at the end of a text is its last piece. -/
theorem pieces_append_closeBracket (text : String) :
    pieces (normalize (text ++ closeBracket.toString)) =
      pieces (normalize text) ++ [closeBracket.toString] := by
  have htext : (text ++ closeBracket.toString).toList = text.toList ++ [closeBracket] := by simp
  have hnormal : normalChars (text.toList ++ [closeBracket]) =
      normalChars text.toList ++ [closeBracket] := by
    rw [normalChars, closeGaps_append_mark (by decide), expandDegrees, List.flatMap_append]
    exact fillZeros_append (by decide) true _ []
  rw [pieces, pieces, toList_normalize, toList_normalize, htext, hnormal,
    splitChars_append_delimiter (by decide), List.map_append]
  rfl

/-! ## Counting characters -/

variable {c : Char}

/-- Blanks are not counted. -/
theorem count_dropBlanks (hc : isBlank c = false) (text : List Char) :
    (dropBlanks text).count c = text.count c :=
  List.count_filter (by simp [hc])

theorem count_expandDegrees (hsign : c ≠ degreeSign) (hfactor : c ∉ degreeFactor)
    (text : List Char) : (expandDegrees text).count c = text.count c := by
  induction text with
  | nil => rfl
  | cons d rest ih =>
      rw [expandDegrees] at ih ⊢
      rw [List.flatMap_cons, List.count_append, ih]
      by_cases hd : d = degreeSign
      · rw [if_pos hd, List.count_eq_zero.mpr hfactor, Nat.zero_add, List.count_cons_of_ne]
        rintro rfl
        exact hsign hd
      · rw [if_neg hd, List.count_cons, List.count_cons, List.count_nil]
        omega

theorem count_fillZeros (hc : c ≠ '0') (atStart : Bool) (text : List Char) :
    (fillZeros atStart text).count c = text.count c := by
  induction text generalizing atStart with
  | nil => rfl
  | cons d rest ih =>
      have hzero : (if atStart && isSign d then ['0'] else []).count c = 0 := by
        split_ifs
        · simp [hc.symm]
        · rfl
      rw [fillZeros, List.count_append, hzero, Nat.zero_add, List.count_cons, ih, List.count_cons]

/-- The pieces of a text have the brackets of the text. -/
theorem count_pieces_normalize (hc : c = openBracket ∨ c = closeBracket) (text : String) :
    ((pieces (normalize text)).flatMap String.toList).count c = text.toList.count c := by
  have hblank : isBlank c = false := by
    rcases hc with rfl | rfl <;> decide
  have hsign : c ≠ degreeSign ∧ c ∉ degreeFactor ∧ c ≠ '0' := by
    rcases hc with rfl | rfl <;> decide
  have hpieces : (pieces (normalize text)).flatMap String.toList =
      dropBlanks (normalChars text.toList) := by
    rw [List.flatMap_def, (isCutInto_pieces (normalize text)).flatten_eq, toList_normalize]
  rw [hpieces, count_dropBlanks hblank, normalChars, count_fillZeros hsign.2.2,
    count_expandDegrees hsign.1 hsign.2.1, ← count_dropBlanks hblank, dropBlanks_closeGaps,
    count_dropBlanks hblank]

end Expression

namespace Rpn

variable {f : ComplexFormat} {text : String} {rpn : List String}

/-- A bracket that is open can be closed at the end. -/
theorem convertExpression_append_closeBracket (h : convertExpression f text = .ok rpn)
    (hopen : text.toList.count closeBracket < text.toList.count openBracket) :
    convertExpression f (text ++ closeBracket.toString) = .ok rpn := by
  rw [convertExpression_eq] at h
  obtain ⟨c, hfold, rfl⟩ := map_eq_ok_iff.mp h
  have hbalanced := balanced_of_foldlM (fun _ hpiece => isPiece_of_mem hpiece) hfold
  rw [Balanced, Expression.count_pieces_normalize (Or.inl rfl),
    Expression.count_pieces_normalize (Or.inr rfl)] at hbalanced
  have hopens : c.opens ≠ 0 := by omega
  obtain ⟨c', hclose, -⟩ := Conversion.exists_close hopens
  have hread : readPiece f c closeBracket.toString = .ok c' := hclose
  rw [convertExpression_eq, Expression.pieces_append_closeBracket, List.foldlM_append, hfold,
    ok_bind, List.foldlM_cons, hread]
  exact congrArg Except.ok (Conversion.finish_close hclose)

/-- Closing brackets at the end of a text that is converted, at most as many as it leaves open,
do not change what it is converted into. -/
theorem convertExpression_closed (f : ComplexFormat) (text : String) (rpn : List String)
    (h : convertExpression f text = .ok rpn) (k : ℕ)
    (hk : k + text.toList.count ')' ≤ text.toList.count '(') :
    convertExpression f (text ++ String.ofList (List.replicate k ')')) = .ok rpn := by
  induction k generalizing text with
  | zero => simpa using h
  | succ k ih =>
      have hopen : text.toList.count ')' < text.toList.count '(' := by omega
      have hclosed := convertExpression_append_closeBracket h hopen
      have hbracket : closeBracket.toString.toList = [')'] := rfl
      have hcount : k + (text ++ closeBracket.toString).toList.count ')' ≤
          (text ++ closeBracket.toString).toList.count '(' := by
        have hclose : [')'].count ')' = 1 ∧ [')'].count '(' = 0 := by decide
        rw [String.toList_append, hbracket, List.count_append, List.count_append]
        omega
      have htext : text ++ String.ofList (List.replicate (k + 1) ')') =
          text ++ closeBracket.toString ++ String.ofList (List.replicate k ')') := by
        rw [← String.toList_inj]
        simp only [String.toList_append, String.toList_ofList, hbracket, List.replicate_succ,
          List.append_assoc, List.singleton_append]
      rw [htext]
      exact ih (text ++ closeBracket.toString) hclosed hcount

/-- Two of three open brackets are closed behind a function without its argument. -/
theorem convertExpression_closed_twice :
    convertExpression ⟨3, "I"⟩ "(2+pow(sin(30°,cos " =
        .ok ["+", "pow", "sin", "cos", "/", "180", "*", "3.141592653589793", "30", "2"] ∧
      convertExpression ⟨3, "I"⟩
          ("(2+pow(sin(30°,cos " ++ String.ofList (List.replicate 2 ')')) =
        .ok ["+", "pow", "sin", "cos", "/", "180", "*", "3.141592653589793", "30", "2"] := by
  have hopen : convertExpression ⟨3, "I"⟩ "(2+pow(sin(30°,cos " =
      .ok ["+", "pow", "sin", "cos", "/", "180", "*", "3.141592653589793", "30", "2"] := by
    apply eq_ok_of_toOption
    decide +kernel
  exact ⟨hopen, convertExpression_closed _ _ _ hopen 2 (by decide)⟩

end Rpn

end ComplexCalculator
