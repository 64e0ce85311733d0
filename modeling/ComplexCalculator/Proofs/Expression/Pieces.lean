import ComplexCalculator.Expression.Pieces
import Mathlib.Data.List.Basic

/-!
# Rows of pieces

A row of pieces in which no two words are neighbours can be written without blanks and cut
again, and blanks between the pieces make no difference: one of two neighbours is a mark,
beside which blanks disappear.
-/

namespace ComplexCalculator.Expression

open Alphabet (degreeSign isDelimiter)
open Text (isBlank)

/-- Whether the character is a piece by itself: a delimiter or a degree sign. -/
def isMark (c : Char) : Bool := isDelimiter c || c == degreeSign

/-- A piece that is no mark: a number, a name or the variable. -/
structure IsWord (piece : List Char) : Prop where
  nonempty : piece ≠ []
  not_mark : ∀ c ∈ piece, isMark c = false
  not_blank : ∀ c ∈ piece, isBlank c = false

/-- A row of words and marks of some kind, where every word but the last has a mark behind
it. -/
inductive Separated (mark : Char → Bool) : List (List Char) → Prop where
  | nil : Separated mark []
  | mark {c : Char} {rest : List (List Char)} :
      mark c = true → Separated mark rest → Separated mark ([c] :: rest)
  | word {piece : List Char} {rest : List (List Char)} :
      IsWord piece → (∀ next ∈ rest.head?, ∃ c, mark c = true ∧ next = [c]) →
      Separated mark rest → Separated mark (piece :: rest)

/-- The text of a row of pieces, with any blanks around the pieces. -/
inductive Spaced : List (List Char) → List Char → Prop where
  | nil {blanks : List Char} : (∀ c ∈ blanks, isBlank c = true) → Spaced [] blanks
  | cons {blanks piece text : List Char} {rest : List (List Char)} :
      (∀ c ∈ blanks, isBlank c = true) → Spaced rest text →
      Spaced (piece :: rest) (blanks ++ (piece ++ text))

/-! ## Building rows -/

theorem separated_word {mark : Char → Bool} {piece : List Char} (h : IsWord piece) :
    Separated mark [piece] :=
  .word h (by simp) .nil

/-- Two rows with a mark between them are a row. -/
theorem Separated.append_mark {mark : Char → Bool} {a b : List (List Char)} {c : Char}
    (ha : Separated mark a) (hc : mark c = true) (hb : Separated mark b) :
    Separated mark (a ++ [c] :: b) := by
  induction ha with
  | nil => exact .mark hc hb
  | mark hd _ ih => exact .mark hd ih
  | @word piece rest hword hnext _ ih =>
      refine .word hword ?_ ih
      cases rest with
      | nil =>
          intro next h
          obtain rfl : [c] = next := by simpa using h
          exact ⟨c, hc, rfl⟩
      | cons next' rest => simpa using hnext

/-- Blanks in front of a row make no difference. -/
theorem Spaced.blanks {pieces : List (List Char)} {text blanks : List Char}
    (hblanks : ∀ c ∈ blanks, isBlank c = true) (h : Spaced pieces text) :
    Spaced pieces (blanks ++ text) := by
  have hboth {more : List Char} (hmore : ∀ c ∈ more, isBlank c = true) :
      ∀ c ∈ blanks ++ more, isBlank c = true := by
    rw [List.forall_mem_append]
    exact ⟨hblanks, hmore⟩
  cases h with
  | nil hmore => exact .nil (hboth hmore)
  | cons hmore hrest =>
      rw [← List.append_assoc]
      exact .cons (hboth hmore) hrest

theorem Spaced.append {a b : List (List Char)} {x y : List Char} (ha : Spaced a x)
    (hb : Spaced b y) : Spaced (a ++ b) (x ++ y) := by
  induction ha with
  | nil hblanks => exact hb.blanks hblanks
  | cons hblanks _ ih =>
      rw [List.append_assoc, List.append_assoc]
      exact .cons hblanks ih

theorem Spaced.empty : Spaced [] [] := .nil (by simp)

theorem Spaced.next {piece text : List Char} {rest : List (List Char)} (h : Spaced rest text) :
    Spaced (piece :: rest) (piece ++ text) := by
  have hnone : ∀ c ∈ ([] : List Char), isBlank c = true := by simp
  exact .cons hnone h

theorem Spaced.space {pieces : List (List Char)} {text : List Char} (h : Spaced pieces text) :
    Spaced pieces (' ' :: text) := by
  have hspace : ∀ c ∈ [' '], isBlank c = true := by decide
  exact h.blanks hspace

theorem Separated.flatten_ne_nil {mark : Char → Bool} {pieces : List (List Char)}
    (h : Separated mark pieces) (hne : pieces ≠ []) : pieces.flatten ≠ [] := by
  cases h with
  | nil => contradiction
  | mark _ _ => simp
  | word hword _ _ => simp [hword.nonempty]

/-! ## Cutting -/

theorem splitWord_word {piece : List Char} (h : IsWord piece) (text : List Char) :
    splitWord (piece ++ text) = (piece ++ (splitWord text).1, (splitWord text).2) := by
  have hkept := h.not_mark
  have hblank := h.not_blank
  clear h
  induction piece with
  | nil => rfl
  | cons c piece ih =>
      have hc : isDelimiter c = false := by
        have hmark := hkept c (by simp)
        rw [isMark, Bool.or_eq_false_iff] at hmark
        exact hmark.1
      have hrest := ih (fun d hd => hkept d (by simp [hd])) fun d hd => hblank d (by simp [hd])
      rw [List.cons_append, splitWord, hrest]
      simp [hc, hblank c (by simp)]

theorem splitChars_mark {c : Char} (h : isDelimiter c = true) (text : List Char) :
    splitWord (c :: text) = ([], [c] :: splitChars text) := by
  rw [splitWord, splitChars]
  simp [h]

theorem splitWord_append_delimiter {c : Char} (hc : isDelimiter c = true)
    (text after : List Char) :
    splitWord (text ++ c :: after) =
      ((splitWord text).1, (splitWord text).2 ++ [c] :: splitChars after) := by
  induction text with
  | nil => exact splitChars_mark hc after
  | cons d rest ih =>
      have hcons (word : List Char) (pieces more : List (List Char)) :
          consWord word (pieces ++ more) = consWord word pieces ++ more := by
        unfold consWord
        split_ifs <;> rfl
      rw [List.cons_append, splitWord, splitWord, ih]
      dsimp only
      rw [hcons]
      split_ifs <;> rfl

/-- A text is cut at a delimiter. -/
theorem splitChars_append_delimiter {c : Char} (hc : isDelimiter c = true)
    (text after : List Char) :
    splitChars (text ++ c :: after) = splitChars text ++ [c] :: splitChars after := by
  rw [splitChars, splitWord_append_delimiter hc, splitChars.eq_1 text]
  dsimp only
  unfold consWord
  split_ifs <;> rfl

theorem splitChars_of_eq_nil {text : List Char} (h : (splitWord text).1 = []) :
    splitChars text = (splitWord text).2 := by
  rw [splitChars]
  dsimp only
  rw [h]
  rfl

theorem splitChars_of_ne_nil {text : List Char} (h : (splitWord text).1 ≠ []) :
    splitChars text = (splitWord text).1 :: (splitWord text).2 := by
  have hne := List.isEmpty_eq_false_iff.mpr h
  rw [splitChars]
  dsimp only
  rw [consWord, hne, if_neg Bool.false_ne_true]

theorem splitChars_word {word : List Char} (h : IsWord word) (text : List Char) :
    splitChars (word ++ text) = (word ++ (splitWord text).1) :: (splitWord text).2 := by
  rw [splitChars_of_ne_nil, splitWord_word h]
  simp [splitWord_word h, h.nonempty]

/-- A row that was written without blanks is cut into its pieces. -/
theorem splitChars_flatten {pieces : List (List Char)} (h : Separated isDelimiter pieces) :
    splitChars pieces.flatten = pieces := by
  induction h with
  | nil => rfl
  | mark hc _ ih =>
      rw [List.flatten_cons, List.singleton_append, splitChars, splitChars_mark hc, ih]
      rfl
  | @word piece rest hword hnext _ ih =>
      have hrest : splitWord rest.flatten = ([], rest) := by
        cases rest with
        | nil => rfl
        | cons next rest =>
            obtain ⟨c, hc, rfl⟩ := hnext next (by simp)
            rw [List.flatten_cons, List.singleton_append, splitChars, splitChars_mark hc] at ih
            rw [List.flatten_cons, List.singleton_append, splitChars_mark hc]
            exact congrArg (Prod.mk []) ih
      rw [List.flatten_cons, splitChars_word hword, hrest, List.append_nil]

/-! ## Closing gaps -/

theorem closeGaps_blanks {blanks : List Char} (h : ∀ c ∈ blanks, isBlank c = true)
    (before : Option Char) (blank : Bool) (text : List Char) :
    ∃ blank', closeGaps before blank (blanks ++ text) = closeGaps before blank' text := by
  induction blanks generalizing blank with
  | nil => exact ⟨blank, rfl⟩
  | cons c blanks ih =>
      rw [List.cons_append, closeGaps, if_pos (h c (by simp))]
      exact ih (fun d hd => h d (by simp [hd])) true

theorem closeGaps_kept {piece : List Char} (hkept : ∀ c ∈ piece, isBlank c = false)
    (before : Char) (text : List Char) :
    closeGaps (some before) false (piece ++ text) =
      piece ++ closeGaps (some (piece.getLast?.getD before)) false text := by
  induction piece generalizing before with
  | nil => rfl
  | cons c piece ih =>
      have hc : ¬isBlank c = true := by simp [hkept c (by simp)]
      have hrest := ih (fun d hd => hkept d (by simp [hd])) c
      rw [List.cons_append, closeGaps, if_neg hc, hrest, List.getLast?_cons, Option.getD_some]
      rfl

/-- A piece is kept, and blanks in front of it are not, unless they stand between two
numeric characters. -/
theorem closeGaps_piece {before : Option Char} {blank : Bool} {piece : List Char}
    (hne : piece ≠ []) (hkept : ∀ c ∈ piece, isBlank c = false)
    (hgap : ∀ c ∈ piece.head?, gap before c = []) (text : List Char) :
    closeGaps before blank (piece ++ text) = piece ++ closeGaps piece.getLast? false text := by
  obtain ⟨c, piece, rfl⟩ := List.exists_cons_of_ne_nil hne
  have hc : ¬isBlank c = true := by simp [hkept c (by simp)]
  have hlead : (if blank then gap before c else []) = [] := by
    rw [hgap c (by simp), ite_self]
  rw [List.cons_append, closeGaps, if_neg hc, hlead,
    closeGaps_kept (fun d hd => hkept d (by simp [hd])), List.getLast?_cons]
  rfl

theorem gap_eq_nil {before : Option Char} {after : Char}
    (h : before.any isNumeric = false ∨ isNumeric after = false) : gap before after = [] := by
  rw [gap]
  rcases h with h | h <;> simp [h]

theorem not_blank_of_isMark {c : Char} (h : isMark c = true) :
    isBlank c = false ∧ isNumeric c = false := by
  simp only [isMark, isDelimiter, Alphabet.operators, Bool.or_eq_true, beq_iff_eq,
    List.contains_eq_mem, List.mem_cons, List.not_mem_nil, or_false, decide_eq_true_eq] at h
  rcases h with ((((h | h | h | h) | h) | h) | h) | h <;> subst h <;> decide

/-- Behind a character that is not numeric, gaps are closed as at the start of a text. -/
theorem closeGaps_of_not_numeric {before : Option Char} (h : before.any isNumeric = false)
    (blank blank' : Bool) (text : List Char) :
    closeGaps before blank text = closeGaps none blank' text := by
  induction text generalizing blank blank' with
  | nil => rfl
  | cons c rest ih =>
      rw [closeGaps, closeGaps]
      by_cases hc : Text.isBlank c = true
      · rw [if_pos hc, if_pos hc, ih]
      · rw [if_neg hc, if_neg hc, gap_eq_nil (Or.inl h), gap_eq_nil (Or.inl rfl), ite_self, ite_self]

/-- Gaps are closed on either side of a mark as if the other side were not there. -/
theorem closeGaps_append_mark {c : Char} (hc : isMark c = true) (before : Option Char)
    (blank : Bool) (text after : List Char) :
    closeGaps before blank (text ++ c :: after) =
      closeGaps before blank text ++ c :: closeGaps none false after := by
  obtain ⟨hkept, hnumeric⟩ := not_blank_of_isMark hc
  induction text generalizing before blank with
  | nil =>
      have hblank : ¬isBlank c = true := by simp [hkept]
      have hbefore : (some c).any isNumeric = false := hnumeric
      rw [List.nil_append, closeGaps.eq_2, if_neg hblank, gap_eq_nil (Or.inr hnumeric), ite_self,
        closeGaps_of_not_numeric hbefore false false after]
      rfl
  | cons d rest ih =>
      rw [List.cons_append, closeGaps, closeGaps]
      by_cases hd : isBlank d = true
      · rw [if_pos hd, if_pos hd, ih]
      · rw [if_neg hd, if_neg hd, ih, List.append_assoc, List.cons_append]

/-- Blanks around the pieces of a row disappear. -/
theorem closeGaps_spaced {pieces : List (List Char)} {text : List Char}
    (h : Separated isMark pieces) (hspaced : Spaced pieces text) (before : Option Char)
    (blank : Bool)
    (hbefore : before.any isNumeric = true →
      ∀ next ∈ pieces.head?, ∃ c, isMark c = true ∧ next = [c]) :
    closeGaps before blank text = pieces.flatten := by
  -- `hbefore` is what the walk keeps: behind a digit no word begins, so no gap is kept
  induction h generalizing text before blank with
  | nil =>
      cases hspaced with
      | nil hblanks =>
          obtain ⟨blank', hclose⟩ := closeGaps_blanks hblanks before blank []
          rw [List.append_nil] at hclose
          rw [hclose]
          rfl
  | @mark c rest hc _ ih =>
      cases hspaced with
      | @cons blanks _ text _ hblanks hrest =>
          obtain ⟨hkept, hnumeric⟩ := not_blank_of_isMark hc
          obtain ⟨blank', hclose⟩ := closeGaps_blanks hblanks before blank ([c] ++ text)
          rw [hclose, closeGaps_piece (by simp) (by simpa using hkept)
            (by simpa using gap_eq_nil (Or.inr hnumeric)), List.flatten_cons,
            ih hrest [c].getLast? false]
          intro h
          simp [hnumeric] at h
  | @word piece rest hword hnext _ ih =>
      cases hspaced with
      | @cons blanks _ text _ hblanks hrest =>
          obtain ⟨blank', hclose⟩ := closeGaps_blanks hblanks before blank (piece ++ text)
          have hgap : ∀ c ∈ piece.head?, gap before c = [] := by
            intro c hc
            apply gap_eq_nil
            by_contra hnot
            rw [not_or, Bool.not_eq_false, Bool.not_eq_false] at hnot
            obtain ⟨d, hd, rfl⟩ := hbefore hnot.1 piece (by simp)
            have hmark := hword.not_mark d (by simp)
            rw [hd] at hmark
            contradiction
          rw [hclose, closeGaps_piece hword.nonempty hword.not_blank hgap, List.flatten_cons,
            ih hrest piece.getLast? false fun _ => hnext]

/-! ## Texts without gaps -/

/-- No blanks stand between two characters that can both be part of a numeral. -/
def Gapless (text : List Char) : Prop :=
  ∀ before a blanks b after, text = before ++ a :: (blanks ++ b :: after) → blanks ≠ [] →
    (∀ c ∈ blanks, isBlank c = true) → ¬(isNumeric a = true ∧ isNumeric b = true)

theorem Gapless.of_append (before : List Char) {text : List Char}
    (h : Gapless (before ++ text)) : Gapless text := by
  rintro before' a blanks b after rfl
  exact h (before ++ before') a blanks b after (by simp)

theorem gapless_of_not_blank {text : List Char} (h : ∀ c ∈ text, isBlank c = false) :
    Gapless text := by
  intro before a blanks b after htext hne hblanks
  obtain ⟨c, rest, rfl⟩ := List.exists_cons_of_ne_nil hne
  have hc := h c (by rw [htext]; simp)
  rw [hblanks c (by simp)] at hc
  contradiction

/-- Behind a kept character nothing but blanks is lost; `blanks` are those already met. -/
theorem closeGaps_gapless {text : List Char} {a : Char} (blanks : List Char) {blank : Bool}
    (h : Gapless (a :: (blanks ++ text))) (hblanks : ∀ c ∈ blanks, isBlank c = true)
    (hblank : blank = true → blanks ≠ []) :
    closeGaps (some a) blank text = Text.dropBlanks text := by
  induction text generalizing a blanks blank with
  | nil => rfl
  | cons c rest ih =>
      rw [closeGaps, Text.dropBlanks]
      cases hc : isBlank c with
      | true =>
          rw [if_pos rfl, List.filter_cons_of_neg (by simp [hc])]
          apply ih (blanks ++ [c]) (by simpa using h)
          · intro d hd
            rcases List.mem_append.mp hd with hd | hd
            · exact hblanks d hd
            · rwa [List.mem_singleton.mp hd]
          · simp
      | false =>
          have hgap : (if blank then gap (some a) c else []) = [] := by
            split_ifs with hb
            · have hnot := h [] a blanks c rest rfl (hblank hb) hblanks
              rw [gap, if_neg (by simpa using hnot)]
            · rfl
          have hrest : Gapless (c :: rest) := Gapless.of_append (a :: blanks) h
          rw [if_neg (by simp), hgap, List.filter_cons_of_pos (by simp [hc]), List.nil_append,
            ih [] hrest (by simp) (by simp)]
          rfl

/-- A text without gaps loses its blanks and nothing else. -/
theorem closeGaps_eq_dropBlanks {text : List Char} (h : Gapless text) (blank : Bool) :
    closeGaps none blank text = Text.dropBlanks text := by
  induction text generalizing blank with
  | nil => rfl
  | cons c rest ih =>
      rw [closeGaps, Text.dropBlanks]
      cases hc : isBlank c with
      | true =>
          rw [if_pos rfl, List.filter_cons_of_neg (by simp [hc])]
          exact ih (Gapless.of_append [c] h) true
      | false =>
          have hgap : (if blank then gap none c else []) = [] := by
            cases blank <;> rfl
          rw [if_neg (by simp), hgap, List.filter_cons_of_pos (by simp [hc]), List.nil_append,
            closeGaps_gapless [] h (by simp) (by simp)]
          rfl

end ComplexCalculator.Expression
