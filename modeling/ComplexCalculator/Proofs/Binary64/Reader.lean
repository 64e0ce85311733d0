import ComplexCalculator.Binary64.Reader
import ComplexCalculator.Proofs.Decimal.Numeral

/-!
# Reading numerals as double-precision numbers

A numeral is neither a word for a number that is not finite nor has it blanks around it, so that
its text is read as the double-precision number nearest to it.
-/

namespace ComplexCalculator

namespace Binary64

theorem trimBlanks_of_not_blank {text : List Char} (h : ∀ c ∈ text, Text.isBlank c = false) :
    trimBlanks text = text := by
  have hkept {text : List Char} (h : ∀ c ∈ text, Text.isBlank c = false) :
      text.dropWhile Text.isBlank = text := by
    cases text with
    | nil => rfl
    | cons c rest => exact List.dropWhile_cons_of_neg (by simp [h c])
  rw [trimBlanks, hkept h, hkept (by simpa using h), List.reverse_reverse]

/-- A numeral is read as the number nearest to it. -/
theorem read?_numeral (n : Numeral) :
    read? (String.ofList n.text) = some (n.decimal.nearest false) := by
  obtain ⟨c, rest, htext, hc⟩ := n.exists_cons
  have hsign : Decimal.takeSign n.text = none := by
    rw [htext]
    rcases hc with hc | rfl
    · exact Decimal.takeSign_of_isDecimalDigit rest hc
    · rfl
  -- The first character of a numeral is none of the letters that a word begins with.
  have hword (word : String)
      (hletter : word.toList.head? = some 'n' ∨ word.toList.head? = some 'i') :
      String.ofList (n.text.map Char.toLower) ≠ word := by
    rintro rfl
    rw [String.toList_ofList, htext, List.map_cons, List.head?_cons, Option.some_inj,
      Option.some_inj] at hletter
    rcases hc with hc | rfl
    · rw [Text.toLower_of_isDecimalDigit hc] at hletter
      rcases hletter with rfl | rfl <;> revert hc <;> decide
    · exact absurd hletter (by decide)
  rw [read?, String.toList_ofList, trimBlanks_of_not_blank fun c => Numeral.isBlank_of_mem_text,
    hsign]
  change readUnsigned? false n.text = _
  rw [readUnsigned?, if_neg (hword "nan" (Or.inl rfl)), if_neg, Decimal.read?_text n (Or.inl rfl)]
  · rfl
  · rw [Bool.or_eq_true, decide_eq_true_eq, decide_eq_true_eq, not_or]
    exact ⟨hword "inf" (Or.inr rfl), hword "infinity" (Or.inr rfl)⟩

end Binary64

end ComplexCalculator
