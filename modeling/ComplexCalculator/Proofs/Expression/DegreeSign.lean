import ComplexCalculator.Proofs.Expression.Normal

/-!
# Degree signs

A degree sign stands for a product and a quotient, written out as text.  This text begins with
an operator, so that what stands in front of the sign is cut as if it stood alone.  It ends with
a number: what stands behind the sign is cut as if it stood alone only if a delimiter or another
degree sign comes first, and otherwise its first word becomes a part of the number.
-/

namespace ComplexCalculator.Expression

open Alphabet (degreeSign isDelimiter isSign)

/-! ## Normal forms -/

theorem rewritten_append_degreeSign (atStart : Bool) (text after : List Char) :
    rewritten atStart (text ++ degreeSign :: after) =
      rewritten atStart text ++ rewritten false (degreeSign :: after) := by
  obtain ⟨rest, hrest⟩ : ∃ rest, expandDegrees (degreeSign :: after) =
      FactorOperator.mul.sign :: rest := ⟨_, rfl⟩
  rw [rewritten, rewritten, rewritten, expandDegrees, List.flatMap_append]
  change fillZeros atStart (expandDegrees text ++ expandDegrees (degreeSign :: after)) = _
  rw [hrest, fillZeros_append (by decide)]

/-- The normal form of a text that continues an operand: a sign at its beginning is an
operator. -/
def normalTail (text : List Char) : List Char := rewritten false (closeGaps none false text)

theorem normalChars_append_degreeSign (before after : List Char) :
    normalChars (before ++ degreeSign :: after) =
      normalChars before ++ FactorOperator.mul.sign :: (Literal.halfTurn.text ++
        FactorOperator.div.sign :: (Literal.halfTurnDegrees.text ++ normalTail after)) := by
  rw [normalChars, closeGaps_append_mark (by decide)]
  change rewritten true _ = _
  rw [rewritten_append_degreeSign, rewritten_degreeSign]
  rfl

/-! ## Cutting -/

/-- The pieces in front of a degree sign, those that it stands for, and those behind it, of
which the first word is joined with the last number. -/
theorem splitChars_degreeSign (before after : List Char) :
    splitChars (normalChars (before ++ degreeSign :: after)) =
      splitChars (normalChars before) ++ ["*".toList, "3.141592653589793".toList, "/".toList,
        "180".toList ++ (splitWord (normalTail after)).1] ++ (splitWord (normalTail after)).2 := by
  have hhalfTurn : splitChars Literal.halfTurn.text = ["3.141592653589793".toList] := by decide
  have hdegrees : Literal.halfTurnDegrees.text = "180".toList := by decide
  rw [normalChars_append_degreeSign, splitChars_append_delimiter (by decide),
    splitChars_append_delimiter (by decide), hhalfTurn,
    splitChars_word (isWord_literal Literal.halfTurnDegrees), hdegrees]
  simp [FactorOperator.sign]

/-! ## What stands behind -/

/-- The pieces of a text that continues an operand. -/
def piecesBehind (text : String) : List String :=
  (splitChars (normalTail text.toList)).map String.ofList

theorem head?_closeGaps (blank : Bool) (text : List Char) :
    (closeGaps none blank text).head? = (Text.dropBlanks text).head? := by
  induction text generalizing blank with
  | nil => rfl
  | cons c rest ih =>
      rw [closeGaps, Text.dropBlanks]
      by_cases hc : Text.isBlank c = true
      · rw [if_pos hc, List.filter_cons_of_neg (by simp [hc]), ih]
        rfl
      · rw [if_neg hc, List.filter_cons_of_pos (by simp [hc]), gap_eq_nil (Or.inl rfl), ite_self]
        rfl

/-- A text that continues an operand begins with a word unless it has nothing or a mark at its
beginning. -/
theorem splitWord_normalTail (text : List Char) :
    (splitWord (normalTail text)).1 = [] ↔
      ∀ c ∈ (Text.dropBlanks text).head?, isMark c = true := by
  have hhead := head?_closeGaps false text
  rw [normalTail, ← hhead]
  cases hclosed : closeGaps none false text with
  | nil => simp [rewritten, expandDegrees, fillZeros, splitWord]
  | cons c rest =>
      have hkept : Text.isBlank c = false := by
        rw [hclosed] at hhead
        have hmem := List.mem_of_mem_head? hhead.symm
        simpa using (List.mem_filter.mp hmem).2
      by_cases hdegree : c = degreeSign
      · have hmark : isMark degreeSign = true := by decide
        rw [hdegree, rewritten_degreeSign, splitChars_mark (by decide)]
        simp [hmark]
      · rw [rewritten_cons hdegree false rfl, splitWord]
        cases hdelimiter : isDelimiter c with
        | true => simp [isMark, hdelimiter]
        | false => simp [isMark, hdelimiter, hkept, hdegree]

theorem rewritten_true (text : List Char) :
    rewritten true text =
      (if text.head?.any isSign then ['0'] else []) ++ rewritten false text := by
  cases text with
  | nil => rfl
  | cons c rest =>
      by_cases hdegree : c = degreeSign
      · rw [hdegree, rewritten_degreeSign, rewritten_degreeSign]
        rfl
      · rw [rewritten_cons_of_ne hdegree, rewritten_cons_of_ne hdegree, List.head?_cons,
          Option.any_some]
        rfl

/-- The pieces of the normal form of a text are those of its continuation, with a zero in front
of a sign. -/
theorem pieces_normalize (text : String) :
    pieces (normalize text) =
      (if (Text.dropBlanks text.toList).head?.any isSign then ["0"] else []) ++
        piecesBehind text := by
  have hnormal : normalChars text.toList =
      (if (Text.dropBlanks text.toList).head?.any isSign then ['0'] else []) ++
        normalTail text.toList := by
    rw [← head?_closeGaps false text.toList]
    exact rewritten_true (closeGaps none false text.toList)
  rw [pieces, toList_normalize, piecesBehind, hnormal]
  split_ifs with hsign
  · have hword : (splitWord (normalTail text.toList)).1 = [] := by
      rw [splitWord_normalTail]
      intro c hc
      rw [Option.mem_def.mp hc, Option.any_some, isSign, Bool.or_eq_true, beq_iff_eq,
        beq_iff_eq] at hsign
      rcases hsign with rfl | rfl <;> decide
    have hzero : IsWord ['0'] := isWord_literal Literal.zero
    rw [splitChars_word hzero, hword, splitChars_of_eq_nil hword]
    rfl
  · rfl

theorem pieces_append_degreeSign (before after : String) :
    pieces (normalize (before ++ degreeSign.toString ++ after)) =
      pieces (normalize before) ++ ["*", "3.141592653589793", "/",
        "180" ++ String.ofList (splitWord (normalTail after.toList)).1] ++
          (splitWord (normalTail after.toList)).2.map String.ofList := by
  have htext : (before ++ degreeSign.toString ++ after).toList =
      before.toList ++ degreeSign :: after.toList := by simp
  rw [pieces, toList_normalize, htext, splitChars_degreeSign, pieces, toList_normalize]
  simp only [List.map_append, List.map_cons, List.map_nil, String.ofList_append,
    String.ofList_toList]

/-- A degree sign stands for four pieces of its own if nothing, a delimiter or another degree
sign comes next.  Otherwise a word comes next, and it is joined with the last of the four. -/
theorem pieces_degreeSign (before after : String) :
    ((∀ c ∈ (Text.dropBlanks after.toList).head?, isMark c = true) →
      pieces (normalize (before ++ degreeSign.toString ++ after)) =
        pieces (normalize before) ++ ["*", "3.141592653589793", "/", "180"] ++
          piecesBehind after) ∧
    ((∃ c ∈ (Text.dropBlanks after.toList).head?, isMark c = false) →
      ∃ word rest, word ≠ "" ∧ piecesBehind after = word :: rest ∧
        pieces (normalize (before ++ degreeSign.toString ++ after)) =
          pieces (normalize before) ++ ["*", "3.141592653589793", "/", "180" ++ word] ++
            rest) := by
  rw [pieces_append_degreeSign, piecesBehind]
  constructor
  · intro hnext
    have hword := (splitWord_normalTail after.toList).mpr hnext
    rw [hword, splitChars_of_eq_nil hword]
    rfl
  · rintro ⟨c, hc, hmark⟩
    have hword : (splitWord (normalTail after.toList)).1 ≠ [] := by
      rw [ne_eq, splitWord_normalTail]
      intro hnext
      exact Bool.false_ne_true (hmark.symm.trans (hnext c hc))
    refine ⟨String.ofList (splitWord (normalTail after.toList)).1,
      (splitWord (normalTail after.toList)).2.map String.ofList, ?_, ?_, rfl⟩
    · simpa using hword
    · rw [splitChars_of_ne_nil hword, List.map_cons]

theorem pieces_degreeSign_call :
    pieces (normalize ("sin(30" ++ degreeSign.toString ++ ")")) =
        ["sin", "(", "30", "*", "3.141592653589793", "/", "180", ")"] ∧
      ∃ word rest, word ≠ "" ∧ piecesBehind " I)" = word :: rest ∧
        pieces (normalize ("sin(30" ++ degreeSign.toString ++ " I)")) =
          ["sin", "(", "30", "*", "3.141592653589793", "/", "180" ++ word] ++ rest := by
  have hin : pieces (normalize "sin(30") = ["sin", "(", "30"] := by decide +kernel
  have hbehind : piecesBehind ")" = [")"] := by decide +kernel
  have hnext : (Text.dropBlanks ")".toList).head? = some ')' := by decide +kernel
  have hmark : ∀ c ∈ (Text.dropBlanks ")".toList).head?, isMark c = true := by
    rw [hnext]
    rintro c ⟨⟩
    decide
  have hword : ∃ c ∈ (Text.dropBlanks " I)".toList).head?, isMark c = false :=
    ⟨'I', by decide +kernel, by decide⟩
  constructor
  · rw [(pieces_degreeSign "sin(30" ")").1 hmark, hin, hbehind]
    rfl
  · obtain ⟨word, rest, hne, hpieces, hcut⟩ := (pieces_degreeSign "sin(30" " I)").2 hword
    rw [hin] at hcut
    exact ⟨word, rest, hne, hpieces, hcut⟩

/-- A number behind a degree sign gives further digits to the last piece. -/
theorem pieces_degreeSign_number :
    pieces (normalize "30°5") = ["30", "*", "3.141592653589793", "/", "1805"] ∧
      ¬["*", "3.141592653589793", "/", "180"] <:+: pieces (normalize "30°5") := by
  decide +kernel

end ComplexCalculator.Expression
