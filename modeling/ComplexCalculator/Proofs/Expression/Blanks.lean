import ComplexCalculator.Proofs.Expression.Normal

/-!
# Blanks that matter

Of the blanks in a text its normal form keeps one thing only: whether there are some between two
neighbours that can both be part of a numeral.  Two texts with the same characters, blanks apart,
therefore have the same normal form exactly if they agree about these neighbours.
-/

namespace ComplexCalculator.Expression

open Alphabet (degreeSign isSign opensArgument)
open Text (dropBlanks isBlank)

/-- Whether a blank stands in the text directly behind the characters `kept`, where blanks in
front of it do not count. -/
def BlankBehind (kept text : List Char) : Prop :=
  ∃ before c after, text = before ++ c :: after ∧ isBlank c = true ∧ dropBlanks before = kept

/-! ## Positions of blanks -/

variable {c : Char} {kept text rest blanks : List Char}

theorem dropBlanks_cons_blank (hc : isBlank c = true) (text : List Char) :
    dropBlanks (c :: text) = dropBlanks text :=
  List.filter_cons_of_neg (by simp [hc])

theorem dropBlanks_cons (hc : isBlank c = false) (text : List Char) :
    dropBlanks (c :: text) = c :: dropBlanks text :=
  List.filter_cons_of_pos (by simp [hc])

theorem dropBlanks_append (front behind : List Char) :
    dropBlanks (front ++ behind) = dropBlanks front ++ dropBlanks behind :=
  List.filter_append front behind

/-- A text without its blanks begins with the first character that is none. -/
theorem dropBlanks_eq_cons (h : dropBlanks text = c :: kept) :
    ∃ blanks rest, text = blanks ++ c :: rest ∧ (∀ b ∈ blanks, isBlank b = true) ∧
      isBlank c = false ∧ dropBlanks rest = kept := by
  obtain ⟨blanks, rest, rfl, hblanks, hc, hrest⟩ := List.filter_eq_cons_iff.mp h
  exact ⟨blanks, rest, rfl, by simpa using hblanks, by simpa using hc, hrest⟩

theorem blankBehind_cons_blank (hc : isBlank c = true) :
    BlankBehind kept (c :: text) ↔ kept = [] ∨ BlankBehind kept text := by
  constructor
  · rintro ⟨before, d, after, h, hd, rfl⟩
    cases before with
    | nil => exact Or.inl rfl
    | cons b before =>
        obtain ⟨rfl, rfl⟩ := List.cons_eq_cons.mp h
        rw [dropBlanks_cons_blank hc]
        exact Or.inr ⟨before, d, after, rfl, hd, rfl⟩
  · rintro (rfl | ⟨before, d, after, rfl, hd, rfl⟩)
    · exact ⟨[], c, text, rfl, hc, rfl⟩
    · exact ⟨c :: before, d, after, rfl, hd, dropBlanks_cons_blank hc before⟩

theorem not_blankBehind_start (hc : isBlank c = false) : ¬BlankBehind [] (c :: text) := by
  rintro ⟨before, d, after, h, hd, hkept⟩
  cases before with
  | nil =>
      obtain ⟨rfl, rfl⟩ := List.cons_eq_cons.mp h
      rw [hc] at hd
      contradiction
  | cons b before =>
      obtain ⟨rfl, rfl⟩ := List.cons_eq_cons.mp h
      rw [dropBlanks_cons hc] at hkept
      contradiction

theorem blankBehind_cons (hc : isBlank c = false) :
    BlankBehind (c :: kept) (c :: text) ↔ BlankBehind kept text := by
  constructor
  · rintro ⟨before, d, after, h, hd, hkept⟩
    cases before with
    | nil => contradiction
    | cons b before =>
        obtain ⟨rfl, rfl⟩ := List.cons_eq_cons.mp h
        rw [dropBlanks_cons hc] at hkept
        exact ⟨before, d, after, rfl, hd, (List.cons_eq_cons.mp hkept).2⟩
  · rintro ⟨before, d, after, rfl, hd, rfl⟩
    exact ⟨c :: before, d, after, rfl, hd, dropBlanks_cons hc before⟩

/-- Blanks in front of the first other character. -/
theorem blankBehind_start (hblanks : ∀ b ∈ blanks, isBlank b = true) (hc : isBlank c = false) :
    BlankBehind [] (blanks ++ c :: rest) ↔ blanks ≠ [] := by
  cases blanks with
  | nil => simpa using not_blankBehind_start hc
  | cons b blanks => simp [blankBehind_cons_blank (hblanks b (by simp))]

theorem blankBehind_rest (hblanks : ∀ b ∈ blanks, isBlank b = true) (hc : isBlank c = false) :
    BlankBehind (c :: kept) (blanks ++ c :: rest) ↔ BlankBehind kept rest := by
  induction blanks with
  | nil => exact blankBehind_cons hc
  | cons b blanks ih =>
      rw [List.cons_append, blankBehind_cons_blank (hblanks b (by simp)),
        ih fun b hb => hblanks b (by simp [hb])]
      simp

/-! ## Normal forms -/

/-- Closing gaps keeps every other character. -/
theorem dropBlanks_closeGaps (before : Option Char) (blank : Bool) (text : List Char) :
    dropBlanks (closeGaps before blank text) = dropBlanks text := by
  induction text generalizing before blank with
  | nil => rfl
  | cons c rest ih =>
      rw [closeGaps]
      by_cases hc : isBlank c = true
      · rw [if_pos hc, ih, dropBlanks_cons_blank hc]
      · have hgap : dropBlanks (if blank then gap before c else []) = [] := by
          unfold gap
          split_ifs <;> decide
        have hkept : isBlank c = false := Bool.eq_false_iff.mpr hc
        rw [if_neg hc, dropBlanks_append, hgap, List.nil_append, dropBlanks_cons hkept, ih,
          dropBlanks_cons hkept]

/-- Blanks in front of a character leave a gap at most. -/
theorem closeGaps_blanks_cons (hblanks : ∀ b ∈ blanks, isBlank b = true) (hc : isBlank c = false)
    (before : Option Char) (blank : Bool) (rest : List Char) :
    closeGaps before blank (blanks ++ c :: rest) =
      (if blank = true ∨ blanks ≠ [] then gap before c else []) ++
        c :: closeGaps (some c) false rest := by
  induction blanks generalizing blank with
  | nil => simp [closeGaps, hc]
  | cons b blanks ih =>
      rw [List.cons_append, closeGaps, if_pos (hblanks b (by simp)),
        ih fun b hb => hblanks b (by simp [hb])]
      simp

/-- What a character becomes in the normal form does not depend on what comes behind it. -/
theorem exists_rewritten_cons (atStart : Bool) (c : Char) :
    ∃ block next, ∀ text, rewritten atStart (c :: text) = block ++ rewritten next text := by
  by_cases hdegree : c = degreeSign
  · subst hdegree
    refine ⟨FactorOperator.mul.sign :: (Literal.halfTurn.text ++
      FactorOperator.div.sign :: Literal.halfTurnDegrees.text), false, fun text => ?_⟩
    rw [rewritten_degreeSign, List.cons_append, List.append_assoc, List.cons_append]
  · refine ⟨(if atStart && isSign c then ['0'] else []) ++ [c], opensArgument c, fun text => ?_⟩
    rw [rewritten_cons_of_ne hdegree, List.append_assoc, List.singleton_append]

theorem not_blank_of_isNumeric (h : isNumeric c = true) : isBlank c = false := by
  rw [isNumeric, Bool.or_eq_true, beq_iff_eq] at h
  rcases h with h | rfl
  · exact Text.isBlank_of_isDecimalDigit h
  · decide

theorem isMark_of_isNumeric (h : isNumeric c = true) : isMark c = false := by
  by_contra hmark
  rw [Bool.not_eq_false] at hmark
  rw [(not_blank_of_isMark hmark).2] at h
  contradiction

theorem rewritten_numeric (h : isNumeric c = true) (atStart : Bool) (text : List Char) :
    rewritten atStart (c :: text) = c :: rewritten false text := by
  obtain ⟨hdegree, hsign, hopens⟩ := plain_of_not_mark (isMark_of_isNumeric h)
  rw [rewritten_cons hdegree atStart (by rw [hsign, Bool.and_false]), hopens]

theorem rewritten_space (atStart : Bool) (text : List Char) :
    rewritten atStart (' ' :: text) = ' ' :: rewritten false text :=
  rewritten_cons (by decide) atStart (by cases atStart <;> decide) text

/-- Blanks in front of a character change the normal form exactly if they are a gap between two
numeric characters. -/
theorem rewritten_closeGaps_blanks_cons {blanks' : List Char}
    (hblanks : ∀ b ∈ blanks, isBlank b = true) (hblanks' : ∀ b ∈ blanks', isBlank b = true)
    (hc : isBlank c = false) (before : Option Char) (atStart : Bool) (rest rest' : List Char) :
    ∃ next,
      rewritten atStart (closeGaps before false (blanks ++ c :: rest)) =
          rewritten atStart (closeGaps before false (blanks' ++ c :: rest')) ↔
        (before.any isNumeric = true → isNumeric c = true → (blanks ≠ [] ↔ blanks' ≠ [])) ∧
          rewritten next (closeGaps (some c) false rest) =
            rewritten next (closeGaps (some c) false rest') := by
  rw [closeGaps_blanks_cons hblanks hc, closeGaps_blanks_cons hblanks' hc]
  by_cases hnumeric : before.any isNumeric = true ∧ isNumeric c = true
  · have hgap : gap before c = [' '] := if_pos (by simp [hnumeric])
    have hspace : ' ' ≠ c := by
      rintro rfl
      contradiction
    refine ⟨false, ?_⟩
    by_cases hb : blanks = [] <;> by_cases hb' : blanks' = [] <;>
      simp [hb, hb', hgap, hnumeric, rewritten_space, rewritten_numeric hnumeric.2, hspace,
        hspace.symm]
  · have hgap : gap before c = [] := if_neg (by simpa using hnumeric)
    obtain ⟨block, next, hblock⟩ := exists_rewritten_cons atStart c
    refine ⟨next, ?_⟩
    rw [hgap, ite_self, ite_self, List.nil_append, List.nil_append, hblock, hblock,
      List.append_cancel_left_eq]
    tauto

/-- The last character that was read. -/
theorem getLast?_cons_or (c : Char) (front : List Char) (before : Option Char) :
    (c :: front).getLast?.or before = front.getLast?.or (some c) := by
  cases front <;> simp [List.getLast?_cons]

/-- Two texts agree about the gaps behind `before`. -/
def SameGaps (before : Option Char) (kept text text' : List Char) : Prop :=
  ∀ front c behind, kept = front ++ c :: behind → (front.getLast?.or before).any isNumeric = true →
    isNumeric c = true → (BlankBehind front text ↔ BlankBehind front text')

theorem sameGaps_cons {blanks' rest' : List Char} {before : Option Char}
    (hblanks : ∀ b ∈ blanks, isBlank b = true) (hblanks' : ∀ b ∈ blanks', isBlank b = true)
    (hc : isBlank c = false) :
    SameGaps before (c :: kept) (blanks ++ c :: rest) (blanks' ++ c :: rest') ↔
      (before.any isNumeric = true → isNumeric c = true → (blanks ≠ [] ↔ blanks' ≠ [])) ∧
        SameGaps (some c) kept rest rest' := by
  constructor
  · intro h
    constructor
    · have hfirst := h [] c kept rfl
      rwa [blankBehind_start hblanks hc, blankBehind_start hblanks' hc] at hfirst
    · rintro front d behind rfl hbefore hd
      have hlater := h (c :: front) d behind rfl (by rwa [getLast?_cons_or]) hd
      rwa [blankBehind_rest hblanks hc, blankBehind_rest hblanks' hc] at hlater
  · rintro ⟨hfirst, hrest⟩ front d behind hkept hbefore hd
    cases front with
    | nil =>
        obtain ⟨rfl, rfl⟩ := List.cons_eq_cons.mp hkept
        rw [blankBehind_start hblanks hc, blankBehind_start hblanks' hc]
        exact hfirst hbefore hd
    | cons e front =>
        obtain ⟨rfl, rfl⟩ := List.cons_eq_cons.mp hkept
        rw [blankBehind_rest hblanks hc, blankBehind_rest hblanks' hc]
        exact hrest front d behind rfl (by rwa [← getLast?_cons_or]) hd

/-- Texts with the same characters, blanks apart, have the same normal form exactly if they agree
about the gaps. -/
theorem rewritten_closeGaps_eq_iff {text text' : List Char} (h : dropBlanks text = kept)
    (h' : dropBlanks text' = kept) (before : Option Char) (atStart : Bool) :
    rewritten atStart (closeGaps before false text) =
        rewritten atStart (closeGaps before false text') ↔
      SameGaps before kept text text' := by
  induction kept generalizing text text' before atStart with
  | nil =>
      have hnone {text : List Char} (h : dropBlanks text = []) :
          closeGaps before false text = [] := by
        have hblanks : ∀ b ∈ text, isBlank b = true := by simpa [dropBlanks] using h
        obtain ⟨blank, hclose⟩ := closeGaps_blanks hblanks before false []
        rwa [List.append_nil] at hclose
      rw [hnone h, hnone h']
      simp [SameGaps]
  | cons c kept ih =>
      obtain ⟨blanks, rest, rfl, hblanks, hc, hrest⟩ := dropBlanks_eq_cons h
      obtain ⟨blanks', rest', rfl, hblanks', -, hrest'⟩ := dropBlanks_eq_cons h'
      obtain ⟨next, hnext⟩ :=
        rewritten_closeGaps_blanks_cons hblanks hblanks' hc before atStart rest rest'
      rw [hnext, sameGaps_cons hblanks hblanks' hc, ih hrest hrest']

/-- Two texts with the same characters, blanks apart, have the same normal form exactly if blanks
separate the same pairs of neighbours that can both be part of a numeral. -/
theorem normalize_eq_iff (a b : String) (h : dropBlanks a.toList = dropBlanks b.toList) :
    normalize a = normalize b ↔
      ∀ front c d behind, dropBlanks a.toList = front ++ c :: d :: behind →
        isNumeric c = true → isNumeric d = true →
        (BlankBehind (front ++ [c]) a.toList ↔ BlankBehind (front ++ [c]) b.toList) := by
  have hnormal : normalize a = normalize b ↔
      SameGaps none (dropBlanks a.toList) a.toList b.toList := by
    rw [← rewritten_closeGaps_eq_iff rfl h.symm none true, normalize, normalize,
      String.ofList_inj]
    rfl
  rw [hnormal]
  constructor
  · intro hsame front c d behind hkept hc hd
    apply hsame (front ++ [c]) d behind
    · rw [hkept, List.append_assoc, List.singleton_append]
    · simpa using hc
    · exact hd
  · intro hpairs front d behind hkept hbefore hd
    rcases List.eq_nil_or_concat' front with rfl | ⟨front, c, rfl⟩
    · contradiction
    · rw [List.append_assoc, List.singleton_append] at hkept
      exact hpairs front c d behind hkept (by simpa using hbefore) hd

/-- Of these blanks only those between the two digits matter, and not which they are. -/
theorem normalize_eq_iff_wide :
    dropBlanks " 1 2 I\t".toList = dropBlanks "1\u3000\n2I".toList ∧
      normalize " 1 2 I\t" = normalize "1\u3000\n2I" := by
  have hkept : dropBlanks " 1 2 I\t".toList = ['1', '2', 'I'] := by decide +kernel
  have hsame : dropBlanks " 1 2 I\t".toList = dropBlanks "1\u3000\n2I".toList := by
    decide +kernel
  refine ⟨hsame, (normalize_eq_iff _ _ hsame).mpr ?_⟩
  intro front c d behind hpair hc hd
  rw [hkept] at hpair
  rcases front with _ | ⟨_, _ | ⟨_, front⟩⟩
  · obtain ⟨rfl, -⟩ := List.cons_eq_cons.mp hpair
    have hleft : BlankBehind ['1'] " 1 2 I\t".toList :=
      ⟨[' ', '1'], ' ', ['2', ' ', 'I', '\t'], by decide +kernel⟩
    have hright : BlankBehind ['1'] "1\u3000\n2I".toList :=
      ⟨['1'], '\u3000', ['\n', '2', 'I'], by decide +kernel⟩
    exact iff_of_true hleft hright
  · obtain ⟨-, -, rfl, -⟩ : '1' = _ ∧ '2' = c ∧ 'I' = d ∧ [] = behind := by simpa using hpair
    contradiction
  · have hlength := congrArg List.length hpair
    simp only [List.length_cons, List.length_append, List.length_nil] at hlength
    omega

end ComplexCalculator.Expression
