import ComplexCalculator.Proofs.Expression.Blanks
import ComplexCalculator.Proofs.Expression.Recognition

/-!
# How a text is cut

Cutting loses nothing but blanks.  A piece is a delimiter or a word, no blank stands inside a
piece, and blanks separate two words that follow each other.  There is one row only that a text
can be cut into in this way, so that these properties say what the pieces of a text are.
-/

namespace ComplexCalculator.Expression

open Alphabet (isDelimiter)
open Text (dropBlanks isBlank)

/-- Whether a text is cut into a row of delimiters and words, each as long as possible. -/
structure IsCutInto (text : List Char) (row : List (List Char)) : Prop where
  flatten_eq : row.flatten = dropBlanks text
  delimiter_or_word : ∀ piece ∈ row,
    (∃ c, isDelimiter c = true ∧ piece = [c]) ∨ piece ≠ [] ∧ Undivided piece
  unbroken : ∀ front u v behind, row = front ++ (u ++ v) :: behind → u ≠ [] → v ≠ [] →
    ¬BlankBehind (front.flatten ++ u) text
  apart : ∀ front p q behind, row = front ++ p :: q :: behind → Undivided p → Undivided q →
    BlankBehind (front.flatten ++ p) text

variable {text : List Char} {row row' : List (List Char)}

/-! ## Uniqueness -/

theorem IsCutInto.ne_nil (h : IsCutInto text row) {piece : List Char} (hpiece : piece ∈ row) :
    piece ≠ [] := by
  rcases h.delimiter_or_word piece hpiece with ⟨c, -, rfl⟩ | ⟨hne, -⟩
  · simp
  · exact hne

/-- A piece of several characters is a word. -/
theorem IsCutInto.undivided (h : IsCutInto text row) {u v : List Char} (hpiece : u ++ v ∈ row)
    (hu : u ≠ []) (hv : v ≠ []) : Undivided (u ++ v) := by
  rcases h.delimiter_or_word _ hpiece with ⟨c, -, hc⟩ | ⟨-, hundivided⟩
  · rcases List.append_eq_singleton_iff.mp hc with ⟨hnil, -⟩ | ⟨-, hnil⟩ <;> contradiction
  · exact hundivided

/-- A piece that begins with a character of a word is a word. -/
theorem IsCutInto.undivided_of_head (h : IsCutInto text row) {c : Char} {rest : List Char}
    (hpiece : c :: rest ∈ row) (hc : isDelimiter c = false) : Undivided (c :: rest) := by
  rcases h.delimiter_or_word _ hpiece with ⟨d, hd, hpiece⟩ | ⟨-, hundivided⟩
  · obtain ⟨rfl, -⟩ := List.cons_eq_cons.mp hpiece
    rw [hc] at hd
    contradiction
  · exact hundivided

/-- Of two rows one cannot have a longer piece at the first place at which they differ: there would
be a blank inside this piece. -/
theorem IsCutInto.not_longer {front : List (List Char)} {p v : List Char}
    (h : IsCutInto text (front ++ p :: row)) (h' : IsCutInto text (front ++ (p ++ v) :: row'))
    (hv : v ≠ []) : False := by
  have hp : p ≠ [] := h.ne_nil (by simp)
  have hword := h'.undivided (by simp) hp hv
  have hrest : row.flatten = v ++ row'.flatten := by
    have hflatten := h.flatten_eq.trans h'.flatten_eq.symm
    simpa using hflatten
  cases row with
  | nil => exact hv (List.append_eq_nil_iff.mp hrest.symm).1
  | cons q row =>
      have hq : q ≠ [] := h.ne_nil (by simp)
      obtain ⟨c, q, rfl⟩ := List.exists_cons_of_ne_nil hq
      obtain ⟨d, v, rfl⟩ := List.exists_cons_of_ne_nil hv
      obtain ⟨rfl, -⟩ : c = d ∧ _ := by simpa using hrest
      have hq : Undivided (c :: q) :=
        h.undivided_of_head (by simp) (hword c (by simp)).1
      have hblank := h.apart front p (c :: q) row rfl (fun b hb => hword b (by simp [hb])) hq
      exact h'.unbroken front p (c :: v) row' rfl hp hv hblank

theorem IsCutInto.unique {front : List (List Char)} (h : IsCutInto text (front ++ row))
    (h' : IsCutInto text (front ++ row')) : row = row' := by
  have hflatten : row.flatten = row'.flatten := by
    simpa using h.flatten_eq.trans h'.flatten_eq.symm
  induction row generalizing front row' with
  | nil =>
      cases row' with
      | nil => rfl
      | cons p row' =>
          have hp : p ≠ [] := h'.ne_nil (by simp)
          simp [hp] at hflatten
  | cons p row ih =>
      cases row' with
      | nil =>
          have hp : p ≠ [] := h.ne_nil (by simp)
          simp [hp] at hflatten
      | cons p' row' =>
          rw [List.flatten_cons, List.flatten_cons] at hflatten
          obtain rfl : p = p' := by
            rcases List.append_eq_append_iff.mp hflatten with ⟨v, rfl, -⟩ | ⟨v, rfl, -⟩
            · by_contra hne
              exact h.not_longer h' (by simpa using hne)
            · by_contra hne
              exact h'.not_longer h (by simpa using hne)
          rw [List.append_cons] at h h'
          rw [ih h h' (List.append_cancel_left hflatten)]

/-! ## Existence -/

theorem not_blank_of_undivided {piece : List Char} (h : Undivided piece) :
    ∀ c ∈ piece, isBlank c = false := fun c hc => (h c hc).2

theorem not_blank_of_isDelimiter {c : Char} (h : isDelimiter c = true) : isBlank c = false :=
  (not_blank_of_isMark (by rw [isMark, h, Bool.true_or])).1

/-- Characters that are not blank have no blank behind them unless it comes later. -/
theorem blankBehind_append {piece : List Char} (hpiece : ∀ c ∈ piece, isBlank c = false)
    (kept text : List Char) :
    BlankBehind (piece ++ kept) (piece ++ text) ↔ BlankBehind kept text := by
  induction piece with
  | nil => rfl
  | cons c piece ih =>
      rw [List.cons_append, List.cons_append, blankBehind_cons (hpiece c (by simp)),
        ih fun d hd => hpiece d (by simp [hd])]

theorem isCutInto_nil : IsCutInto [] [] where
  flatten_eq := rfl
  delimiter_or_word := by simp
  unbroken := by simp
  apart := by simp

theorem IsCutInto.blank {c : Char} (hc : isBlank c = true) (h : IsCutInto text row) :
    IsCutInto (c :: text) row where
  flatten_eq := by rw [dropBlanks_cons_blank hc, h.flatten_eq]
  delimiter_or_word := h.delimiter_or_word
  unbroken := by
    intro front u v behind hrow hu hv
    rw [blankBehind_cons_blank hc, not_or]
    exact ⟨by simp [hu], h.unbroken front u v behind hrow hu hv⟩
  apart := by
    intro front p q behind hrow hp hq
    rw [blankBehind_cons_blank hc]
    exact Or.inr (h.apart front p q behind hrow hp hq)

/-- A piece in front of a text, which begins with a blank if both it and the piece begin with
words. -/
theorem IsCutInto.cons {piece : List Char} (h : IsCutInto text row)
    (hpiece : (∃ c, isDelimiter c = true ∧ piece = [c]) ∨ piece ≠ [] ∧ Undivided piece)
    (hnext : Undivided piece → ∀ q ∈ row.head?, Undivided q → BlankBehind [] text) :
    IsCutInto (piece ++ text) (piece :: row) := by
  have hkept : ∀ c ∈ piece, isBlank c = false := by
    rcases hpiece with ⟨c, hc, rfl⟩ | ⟨-, hundivided⟩
    · simpa using not_blank_of_isDelimiter hc
    · exact not_blank_of_undivided hundivided
  refine ⟨?_, ?_, ?_, ?_⟩
  · calc
      (piece :: row).flatten = piece ++ dropBlanks text := by rw [List.flatten_cons, h.flatten_eq]
      _ = dropBlanks piece ++ dropBlanks text := by
        rw [ComplexFormat.dropBlanks_of_not_blank hkept]
      _ = dropBlanks (piece ++ text) := (dropBlanks_append piece text).symm
  · rw [List.forall_mem_cons]
    exact ⟨hpiece, h.delimiter_or_word⟩
  · intro front u v behind hrow hu hv
    cases front with
    | nil =>
        obtain ⟨rfl, -⟩ := List.cons_eq_cons.mp hrow
        rw [List.forall_mem_append] at hkept
        obtain ⟨c, v, rfl⟩ := List.exists_cons_of_ne_nil hv
        have hinside := blankBehind_append hkept.1 [] (c :: v ++ text)
        rw [List.append_nil, ← List.append_assoc] at hinside
        rw [List.flatten_nil, List.nil_append, hinside]
        exact not_blankBehind_start (hkept.2 c (by simp))
    | cons p front =>
        obtain ⟨rfl, rfl⟩ := List.cons_eq_cons.mp hrow
        rw [List.flatten_cons, List.append_assoc, blankBehind_append hkept]
        exact h.unbroken front u v behind rfl hu hv
  · intro front p q behind hrow hp hq
    cases front with
    | nil =>
        obtain ⟨rfl, rfl⟩ := List.cons_eq_cons.mp hrow
        have hbehind := blankBehind_append hkept [] text
        rw [List.append_nil] at hbehind
        rw [List.flatten_nil, List.nil_append, hbehind]
        exact hnext hp q rfl hq
    | cons p' front =>
        obtain ⟨rfl, rfl⟩ := List.cons_eq_cons.mp hrow
        rw [List.flatten_cons, List.append_assoc, blankBehind_append hkept]
        exact h.apart front p q behind rfl hp hq

/-- A text that begins with a word begins with a blank or with the first character of the word. -/
theorem IsCutInto.head_cases (h : IsCutInto text row) {q : List Char} (hq : q ∈ row.head?)
    (hundivided : Undivided q) :
    BlankBehind [] text ∨ ∃ c ∈ text.head?, isDelimiter c = false ∧ isBlank c = false := by
  obtain ⟨row, rfl⟩ := List.head?_eq_some_iff.mp hq
  have hne : q ≠ [] := h.ne_nil (by simp)
  obtain ⟨c, q, rfl⟩ := List.exists_cons_of_ne_nil hne
  cases text with
  | nil => simpa [dropBlanks] using h.flatten_eq
  | cons d text =>
      by_cases hd : isBlank d = true
      · exact Or.inl ((blankBehind_cons_blank hd).mpr (Or.inl rfl))
      · have hfirst := h.flatten_eq
        rw [dropBlanks_cons (Bool.eq_false_iff.mpr hd)] at hfirst
        obtain ⟨rfl, -⟩ := List.cons_eq_cons.mp hfirst
        exact Or.inr ⟨c, rfl, hundivided c (by simp)⟩

/-- A word in front of a text that does not continue it. -/
theorem IsCutInto.word {word : List Char} (h : IsCutInto text row) (hword : Undivided word)
    (hend : ∀ c ∈ text.head?, isDelimiter c = true ∨ isBlank c = true) :
    IsCutInto (word ++ text) (consWord word row) := by
  unfold consWord
  split_ifs with hempty
  · rwa [List.isEmpty_iff.mp hempty]
  · have hne : word ≠ [] := fun hnil => hempty (List.isEmpty_iff.mpr hnil)
    refine h.cons (Or.inr ⟨hne, hword⟩) ?_
    intro _ q hq hundivided
    rcases h.head_cases hq hundivided with hblank | ⟨c, hc, hno⟩
    · exact hblank
    · rcases hend c hc with hdelimiter | hblank
      · rw [hno.1] at hdelimiter
        contradiction
      · rw [hno.2] at hblank
        contradiction

theorem splitWord_blank {c : Char} (hc : isBlank c = true) (text : List Char) :
    splitWord (c :: text) = ([], splitChars text) := by
  have hdelimiter : isDelimiter c = false := by
    by_contra hdelimiter
    rw [not_blank_of_isDelimiter (Bool.not_eq_false _ ▸ hdelimiter)] at hc
    contradiction
  rw [splitWord, splitChars]
  simp [hdelimiter, hc]

theorem splitWord_letter {c : Char} (hdelimiter : isDelimiter c = false)
    (hblank : isBlank c = false) (text : List Char) :
    splitWord (c :: text) = (c :: (splitWord text).1, (splitWord text).2) := by
  rw [splitWord]
  simp [hdelimiter, hblank]

/-- The word that a text begins with ends before a delimiter or a blank, and the pieces after it
are those of the rest. -/
theorem exists_rest_splitWord (text : List Char) :
    ∃ rest, text = (splitWord text).1 ++ rest ∧ IsCutInto rest (splitWord text).2 ∧
      ∀ c ∈ rest.head?, isDelimiter c = true ∨ isBlank c = true := by
  induction text with
  | nil => exact ⟨[], rfl, isCutInto_nil, by simp⟩
  | cons c text ih =>
      obtain ⟨rest, htext, hrest, hend⟩ := ih
      have hcut : IsCutInto text (splitChars text) := by
        have hword := hrest.word (undivided_splitWord text).1 hend
        rwa [← htext] at hword
      by_cases hdelimiter : isDelimiter c = true
      · have hnone : ¬Undivided [c] := by simp [Undivided, hdelimiter]
        rw [splitChars_mark hdelimiter]
        exact ⟨c :: text, rfl, hcut.cons (Or.inl ⟨c, hdelimiter, rfl⟩) fun h => absurd h hnone,
          by simp [hdelimiter]⟩
      · by_cases hblank : isBlank c = true
        · rw [splitWord_blank hblank]
          exact ⟨c :: text, rfl, hcut.blank hblank, by simp [hblank]⟩
        · rw [splitWord_letter (Bool.eq_false_iff.mpr hdelimiter) (Bool.eq_false_iff.mpr hblank)]
          exact ⟨rest, congrArg (c :: ·) htext, hrest, hend⟩

theorem isCutInto_splitChars (text : List Char) : IsCutInto text (splitChars text) := by
  obtain ⟨rest, htext, hrest, hend⟩ := exists_rest_splitWord text
  have hword := hrest.word (undivided_splitWord text).1 hend
  rwa [← htext] at hword

theorem isCutInto_pieces (text : String) :
    IsCutInto text.toList ((pieces text).map String.toList) := by
  have hpieces : (pieces text).map String.toList = splitChars text.toList := by
    simp [pieces, Function.comp_def]
  rw [hpieces]
  exact isCutInto_splitChars text.toList

/-- The pieces of a text are the only row of delimiters and words that it is cut into. -/
theorem pieces_eq_iff (text : String) (row : List String) :
    pieces text = row ↔ IsCutInto text.toList (row.map String.toList) := by
  constructor
  · rintro rfl
    exact isCutInto_pieces text
  · intro h
    have hcut : IsCutInto text.toList ([] ++ (pieces text).map String.toList) :=
      isCutInto_pieces text
    rw [← List.map_inj_right fun a b hab => String.toList_inj.mp hab]
    exact hcut.unique h

end ComplexCalculator.Expression
