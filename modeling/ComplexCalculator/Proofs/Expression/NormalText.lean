import ComplexCalculator.Proofs.Expression.Blanks

/-!
# Texts in normal form

A text is in normal form if it has no degree sign, if neither it nor an argument in it begins with
a sign, and if its blanks are plain spaces, each between two characters that can both be part of a
numeral.  Each stage of the normalization brings about one of these three properties, the stages
after it keep the property, and a stage does not change a text that has the property already.
Hence the texts in normal form are those that are their own normal form.
-/

namespace ComplexCalculator.Expression

open Alphabet (degreeSign isSign opensArgument)
open Text (dropBlanks isBlank)

/-- Whether a text is in normal form. -/
structure IsNormal (text : List Char) : Prop where
  no_degreeSign : degreeSign ∉ text
  no_leadingSign : ∀ c ∈ text.head?, isSign c = false
  no_argumentSign : ∀ front a b behind, text = front ++ a :: b :: behind →
    opensArgument a = true → isSign b = false
  gap : ∀ front c behind, text = front ++ c :: behind → isBlank c = true →
    c = ' ' ∧ (∃ a ∈ front.getLast?, isNumeric a = true) ∧ ∃ b ∈ behind.head?, isNumeric b = true

/-- Whether no sign begins an argument; `atStart` tells whether the text is the start of one. -/
def Filled (atStart : Bool) : List Char → Prop
  | [] => True
  | c :: rest => (atStart && isSign c) = false ∧ Filled (opensArgument c) rest

/-- Whether each blank is a plain space between two numeric characters; `before` stands in front
of the text. -/
def Tight (before : Option Char) : List Char → Prop
  | [] => before.any isBlank = false
  | c :: rest =>
    (before.any isBlank = true → isNumeric c = true) ∧
      (isBlank c = true → c = ' ' ∧ before.any isNumeric = true) ∧ Tight (some c) rest

variable {before : Option Char} {atStart : Bool} {text : List Char}

/-! ## Neighbours -/

theorem filled_iff (atStart : Bool) (text : List Char) :
    Filled atStart text ↔ (atStart = true → ∀ c ∈ text.head?, isSign c = false) ∧
      ∀ front a b behind, text = front ++ a :: b :: behind →
        opensArgument a = true → isSign b = false := by
  induction text generalizing atStart with
  | nil => simp [Filled]
  | cons c rest ih =>
      have hfirst : (atStart && isSign c) = false ↔
          (atStart = true → ∀ d ∈ (c :: rest).head?, isSign d = false) := by
        cases atStart <;> simp
      rw [Filled, ih, hfirst]
      refine and_congr_right fun _ => ?_
      constructor
      · rintro ⟨hnext, hlater⟩ front a b behind htext ha
        cases front with
        | nil =>
            obtain ⟨rfl, rfl⟩ := List.cons_eq_cons.mp htext
            exact hnext ha b rfl
        | cons d front =>
            obtain ⟨rfl, rfl⟩ := List.cons_eq_cons.mp htext
            exact hlater front a b behind rfl ha
      · intro h
        constructor
        · intro hopens d hd
          obtain ⟨behind, rfl⟩ := List.head?_eq_some_iff.mp hd
          exact h [] c d behind rfl hopens
        · rintro front a b behind rfl ha
          exact h (c :: front) a b behind rfl ha

theorem tight_iff (before : Option Char) (text : List Char) :
    Tight before text ↔ (before.any isBlank = true → text.head?.any isNumeric = true) ∧
      ∀ front c behind, text = front ++ c :: behind → isBlank c = true →
        c = ' ' ∧ (front.getLast?.or before).any isNumeric = true ∧
          behind.head?.any isNumeric = true := by
  induction text generalizing before with
  | nil => simp [Tight]
  | cons c rest ih =>
      rw [Tight, ih]
      refine and_congr_right fun _ => ?_
      constructor
      · rintro ⟨hblank, hnext, hlater⟩ front d behind htext hd
        cases front with
        | nil =>
            obtain ⟨rfl, rfl⟩ := List.cons_eq_cons.mp htext
            exact ⟨(hblank hd).1, (hblank hd).2, hnext hd⟩
        | cons e front =>
            obtain ⟨rfl, rfl⟩ := List.cons_eq_cons.mp htext
            rw [getLast?_cons_or]
            exact hlater front d behind rfl hd
      · intro h
        refine ⟨?_, ?_, ?_⟩
        · intro hc
          obtain ⟨hspace, hbefore, -⟩ := h [] c rest rfl hc
          exact ⟨hspace, hbefore⟩
        · exact fun hc => (h [] c rest rfl hc).2.2
        · rintro front d behind rfl hd
          have hlater := h (c :: front) d behind rfl hd
          rwa [getLast?_cons_or] at hlater

theorem isNormal_iff (text : List Char) :
    IsNormal text ↔ degreeSign ∉ text ∧ Filled true text ∧ Tight none text := by
  rw [filled_iff, tight_iff]
  constructor
  · intro h
    refine ⟨h.no_degreeSign, ⟨fun _ => h.no_leadingSign, h.no_argumentSign⟩, by simp, ?_⟩
    intro front c behind htext hc
    simpa [Option.any_eq_true] using h.gap front c behind htext hc
  · rintro ⟨hdegree, ⟨hfirst, hlater⟩, -, hgap⟩
    refine ⟨hdegree, hfirst rfl, hlater, ?_⟩
    intro front c behind htext hc
    simpa [Option.any_eq_true] using hgap front c behind htext hc

/-! ## Closing gaps -/

theorem tight_closeGaps (hbefore : before.any isBlank = false) (blank : Bool)
    (text : List Char) : Tight before (closeGaps before blank text) := by
  induction text generalizing before blank with
  | nil => exact hbefore
  | cons c rest ih =>
      rw [closeGaps]
      by_cases hc : isBlank c = true
      · rw [if_pos hc]
        exact ih hbefore true
      · have hrest : Tight (some c) (closeGaps (some c) false rest) := ih (by simpa using hc) false
        rw [if_neg hc]
        by_cases hgap : blank = true ∧ before.any isNumeric = true ∧ isNumeric c = true
        · obtain ⟨rfl, hnumeric, hnext⟩ := hgap
          rw [if_pos rfl, gap, if_pos (by simp [hnumeric, hnext])]
          exact ⟨by simp [hbefore], fun _ => ⟨rfl, hnumeric⟩, fun _ => hnext, by simp [hc], hrest⟩
        · have hnone : (if blank then gap before c else []) = [] := by
            unfold gap
            split_ifs with hblank hnumeric
            · exact absurd ⟨hblank, by simpa using hnumeric⟩ hgap
            · rfl
            · rfl
          rw [hnone]
          exact ⟨by simp [hbefore], by simp [hc], hrest⟩

theorem closeGaps_of_tight (h : Tight before text) : closeGaps before false text = text := by
  induction text generalizing before with
  | nil => rfl
  | cons c rest ih =>
      obtain ⟨-, hblank, hrest⟩ := h
      have hclosed := ih hrest
      rw [closeGaps]
      by_cases hc : isBlank c = true
      · -- The gap is written in front of the character behind the blank.
        obtain ⟨rfl, hnumeric⟩ := hblank hc
        cases rest with
        | nil => contradiction
        | cons d rest =>
            have hd : isNumeric d = true := hrest.1 rfl
            have hkept : ¬isBlank d = true := by simp [not_blank_of_isNumeric hd]
            rw [closeGaps, if_neg hkept] at hclosed ⊢
            rw [if_pos hc, if_pos rfl, gap, if_pos (by simp [hnumeric, hd])]
            exact congrArg (' ' :: ·) hclosed
      · rw [if_neg hc]
        exact congrArg (c :: ·) hclosed

/-! ## Degree signs -/

theorem degreeSign_not_mem_expandDegrees (text : List Char) :
    degreeSign ∉ expandDegrees text := by
  have hfactor : degreeSign ∉ degreeFactor := by decide
  intro h
  obtain ⟨c, -, hc⟩ := List.mem_flatMap.mp h
  by_cases hdegree : c = degreeSign
  · rw [if_pos hdegree] at hc
    exact hfactor hc
  · rw [if_neg hdegree] at hc
    exact hdegree (List.mem_singleton.mp hc).symm

theorem expandDegrees_of_not_mem (h : degreeSign ∉ text) : expandDegrees text = text := by
  have hkept : ∀ c ∈ text, (if c = degreeSign then degreeFactor else [c]) = [c] := by
    intro c hc
    apply if_neg
    rintro rfl
    exact h hc
  rw [expandDegrees, List.flatMap_congr hkept]
  exact List.flatMap_singleton' text

/-- Characters that are not blank can stand wherever no blank comes before. -/
theorem Tight.append_left {piece : List Char} (hpiece : ∀ c ∈ piece, isBlank c = false)
    (hbefore : before.any isBlank = false) (h : Tight (piece.getLast?.or before) text) :
    Tight before (piece ++ text) := by
  induction piece generalizing before with
  | nil => exact h
  | cons c piece ih =>
      have hc : isBlank c = false := hpiece c (by simp)
      rw [getLast?_cons_or] at h
      exact ⟨by simp [hbefore], by simp [hc], ih (fun d hd => hpiece d (by simp [hd])) hc h⟩

/-- Blanks have numeric neighbours, which are no degree signs, so that they keep them. -/
theorem Tight.expandDegrees {before' : Option Char} (h : Tight before text)
    (hblank : before'.any isBlank = before.any isBlank)
    (hnumeric : before.any isNumeric = true → before'.any isNumeric = true) :
    Tight before' (expandDegrees text) := by
  induction text generalizing before before' with
  | nil => exact hblank.trans h
  | cons c rest ih =>
      obtain ⟨hbefore, hc, hrest⟩ := h
      rw [Expression.expandDegrees, List.flatMap_cons]
      by_cases hdegree : c = degreeSign
      · subst hdegree
        have hfactor : ∀ d ∈ degreeFactor, isBlank d = false := by decide
        have hkept : before'.any isBlank = false := by
          rw [hblank, Bool.eq_false_iff]
          intro hb
          have hnone : isNumeric degreeSign = false := by decide
          rw [hbefore hb] at hnone
          contradiction
        have hlast : degreeFactor.getLast? = some '0' := by decide
        rw [if_pos rfl]
        apply Tight.append_left hfactor hkept
        rw [hlast, Option.some_or]
        exact ih hrest (by decide) (by decide)
      · rw [if_neg hdegree]
        refine ⟨?_, ?_, ih hrest rfl id⟩
        · rwa [hblank]
        · intro hb
          exact ⟨(hc hb).1, hnumeric (hc hb).2⟩

/-! ## Signs at the start of arguments -/

theorem filled_fillZeros (atStart : Bool) (text : List Char) :
    Filled atStart (fillZeros atStart text) := by
  have hzero : isSign '0' = false ∧ opensArgument '0' = false := by decide
  induction text generalizing atStart with
  | nil => trivial
  | cons c rest ih =>
      rw [fillZeros]
      by_cases hsign : (atStart && isSign c) = true
      · rw [if_pos hsign]
        exact ⟨by rw [hzero.1, Bool.and_false], by rw [hzero.2]; rfl, ih (opensArgument c)⟩
      · rw [if_neg hsign]
        exact ⟨Bool.eq_false_iff.mpr hsign, ih (opensArgument c)⟩

theorem fillZeros_of_filled (h : Filled atStart text) : fillZeros atStart text = text := by
  induction text generalizing atStart with
  | nil => rfl
  | cons c rest ih =>
      rw [fillZeros, h.1, ih h.2]
      rfl

theorem mem_fillZeros {c : Char} (h : c ∈ fillZeros atStart text) : c = '0' ∨ c ∈ text := by
  induction text generalizing atStart with
  | nil => exact Or.inr h
  | cons d rest ih =>
      rw [fillZeros, List.mem_append, List.mem_cons] at h
      rcases h with h | rfl | h
      · left
        split_ifs at h
        · exact List.mem_singleton.mp h
        · contradiction
      · exact Or.inr (by simp)
      · exact (ih h).imp_right (List.mem_cons_of_mem d)

theorem Tight.fillZeros (h : Tight before text) (atStart : Bool) :
    Tight before (fillZeros atStart text) := by
  have hzero : isNumeric '0' = true ∧ isBlank '0' = false := by decide
  induction text generalizing before atStart with
  | nil => exact h
  | cons c rest ih =>
      obtain ⟨hbefore, hc, hrest⟩ := h
      rw [Expression.fillZeros]
      by_cases hsign : (atStart && isSign c) = true
      · have hkept : isBlank c = false := by
          rw [Bool.and_eq_true, isSign, Bool.or_eq_true, beq_iff_eq, beq_iff_eq] at hsign
          rcases hsign.2 with rfl | rfl <;> decide
        rw [if_pos hsign]
        exact ⟨fun _ => hzero.1, by simp [hzero.2], by simp [hzero.2], by simp [hkept],
          ih hrest (opensArgument c)⟩
      · rw [if_neg hsign]
        exact ⟨hbefore, hc, ih hrest (opensArgument c)⟩

/-! ## Normal forms -/

theorem isNormal_normalChars (text : List Char) : IsNormal (normalChars text) := by
  rw [isNormal_iff, normalChars]
  refine ⟨?_, filled_fillZeros _ _, ?_⟩
  · intro h
    rcases mem_fillZeros h with h | h
    · contradiction
    · exact degreeSign_not_mem_expandDegrees _ h
  · have htight : Tight none (closeGaps none false text) := tight_closeGaps rfl false text
    exact (htight.expandDegrees rfl id).fillZeros true

/-- In a text in normal form a word with a blank behind it ends like a numeral. -/
theorem IsNormal.exists_numeric (h : IsNormal text) {front word : List Char} (hword : word ≠ [])
    (hblank : BlankBehind (front ++ word) text) : ∃ c ∈ word.getLast?, isNumeric c = true := by
  obtain ⟨before, b, after, htext, hb, hkept⟩ := hblank
  obtain ⟨-, ⟨c, hc, hnumeric⟩, -⟩ := h.gap before b after htext hb
  obtain ⟨before, rfl⟩ := List.getLast?_eq_some_iff.mp hc
  have hlast : (front ++ word).getLast? = some c := by
    rw [← hkept, dropBlanks_append, dropBlanks_cons (not_blank_of_isNumeric hnumeric)]
    simp [dropBlanks]
  rw [List.getLast?_append_of_ne_nil front hword] at hlast
  exact ⟨c, hlast, hnumeric⟩

theorem normalChars_of_isNormal (h : IsNormal text) : normalChars text = text := by
  obtain ⟨hdegree, hfilled, htight⟩ := (isNormal_iff text).mp h
  rw [normalChars, closeGaps_of_tight htight, expandDegrees_of_not_mem hdegree,
    fillZeros_of_filled hfilled]

theorem isNormal_toList_normalize (text : String) : IsNormal (normalize text).toList := by
  rw [toList_normalize]
  exact isNormal_normalChars text.toList

theorem normalize_eq_self_iff (text : String) : normalize text = text ↔ IsNormal text.toList := by
  constructor
  · intro h
    rw [← h]
    exact isNormal_toList_normalize text
  · intro h
    rw [normalize, normalChars_of_isNormal h, String.ofList_toList]

/-- What normalization gives is in normal form, and these are the texts that it does not
change; a second normalization therefore changes nothing. -/
theorem isNormal_normalize (text : String) :
    IsNormal (normalize text).toList ∧ normalize (normalize text) = normalize text ∧
      (normalize text = text ↔ IsNormal text.toList) := by
  have hnormal := isNormal_toList_normalize text
  exact ⟨hnormal, (normalize_eq_self_iff _).mpr hnormal, normalize_eq_self_iff text⟩

end ComplexCalculator.Expression
