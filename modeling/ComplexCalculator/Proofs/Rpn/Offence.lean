import ComplexCalculator.Proofs.Expression.Normal
import ComplexCalculator.Proofs.Expression.Recognition
import ComplexCalculator.Proofs.Rpn.Brackets

/-!
# What is wrong with a text

A piece of a text offends if it is no token, if it contains the imaginary unit and is no
imaginary number, or if it closes a bracket that is not open.  The main statement is that the
conversion of a text fails exactly if a piece offends, and that the first such piece alone
decides the failure.
-/

namespace ComplexCalculator

open Alphabet (closeBracket imaginaryUnit isDelimiter openBracket variableName)
open Expression (NumberLike Undivided)

/-! ## Pieces that are tokens -/

namespace Token

/-- Whether a piece is a delimiter, a function, the variable or a real literal, or contains
the imaginary unit. -/
def Known (piece : String) : Prop :=
  (∃ c, isDelimiter c = true ∧ piece = String.ofList [c]) ∨ piece ∈ functionNames ∨
    piece = variableName ∨ (∃ n hn, (Literal.real n hn).name = piece) ∨
    imaginaryUnit ∈ piece.toList

theorem isImaginary_iff {piece : String} :
    isImaginary piece = true ↔ imaginaryUnit ∈ piece.toList := by
  rw [isImaginary, List.contains_iff_mem]

theorem numberLike_of_mem {piece : String} (h : imaginaryUnit ∈ piece.toList) :
    NumberLike piece :=
  ⟨_, h, by decide⟩

/-- A text with the imaginary unit counts as a number. -/
theorem classify_imaginary {piece : String} (h : imaginaryUnit ∈ piece.toList) :
    classify piece = .ok (number piece) := by
  have hlike := numberLike_of_mem h
  rw [classify, hlike.bracketKind?_eq_none, hlike.ofSymbol?_eq_none]
  simp only
  rw [if_neg hlike.ne_variableName, isNumber, isImaginary_iff.mpr h, Bool.or_true]
  rfl

theorem exists_classify {piece : String} (h : Known piece) :
    ∃ token, classify piece = .ok token := by
  rcases h with ⟨c, hc, rfl⟩ | h | rfl | ⟨n, hn, rfl⟩ | h
  · simp only [isDelimiter, Alphabet.operators, Bool.or_eq_true, beq_iff_eq,
      List.contains_eq_mem, List.mem_cons, List.not_mem_nil, or_false, decide_eq_true_eq] at hc
    rcases hc with (((hc | hc | hc | hc) | hc) | hc) | hc <;> subst hc <;> exact ⟨_, rfl⟩
  · rw [functionNames, definitions, List.filter_map, List.map_map] at h
    obtain ⟨operation, -, rfl⟩ := List.mem_map.mp h
    exact ⟨_, Expression.classify_symbol operation⟩
  · exact ⟨_, rfl⟩
  · exact ⟨_, Literal.classify_name _⟩
  · exact ⟨_, classify_imaginary h⟩

theorem name_of_classify {piece : String} {token : Token} (h : classify piece = .ok token) :
    token.name = piece := by
  unfold classify at h
  split at h
  · injection h with h
    rw [← h, plain]
  · rename_i operation _ hsymbol
    injection h with h
    rw [Operation.ofSymbol?] at hsymbol
    have hfound := List.find?_some hsymbol
    rw [← h]
    exact beq_iff_eq.mp hfound
  · split_ifs at h <;> injection h with h <;> rw [← h, plain]

theorem known_of_classify {piece : String} {token : Token} (h : classify piece = .ok token) :
    Known piece := by
  have hname := name_of_classify h
  have hdelimiter {c : Char} (hc : isDelimiter c = true) (hpiece : c.toString = piece) :
      Known piece :=
    Or.inl ⟨c, hc, hpiece.symm⟩
  cases classify_eq_ok h with
  | openBracket => exact hdelimiter (by decide) hname
  | closeBracket => exact hdelimiter (by decide) hname
  | separator => exact hdelimiter (by decide) hname
  | unary operation =>
      right; left
      rw [← hname]
      cases operation <;> decide
  | binary operation =>
      cases operation with
      | mul => exact hdelimiter (c := '*') (by decide) hname
      | add => exact hdelimiter (c := '+') (by decide) hname
      | sub => exact hdelimiter (c := '-') (by decide) hname
      | div => exact hdelimiter (c := '/') (by decide) hname
      | pow =>
          right; left
          rw [← hname]
          decide
  | freeVariable => exact Or.inr (Or.inr (Or.inl hname.symm))
  | number hnumber =>
      obtain ⟨rfl, hnumber⟩ := hnumber
      rw [isNumber, Bool.or_eq_true, isImaginary_iff] at hnumber
      exact Or.inr (Or.inr (Or.inr (hnumber.imp_left Literal.exists_real)))

theorem classify_unknown {piece : String} (h : ¬Known piece) :
    classify piece = .error (.ofCause (.unrecognizedToken piece)) := by
  cases hclassify : classify piece with
  | ok token => exact absurd (known_of_classify hclassify) h
  | error failure =>
      unfold classify at hclassify
      split at hclassify
      · contradiction
      · contradiction
      · split_ifs at hclassify
        exact hclassify.symm

end Token

/-! ## Brackets of pieces -/

namespace Rpn

/-- A delimiter, or a piece without delimiters and blanks. -/
def IsPiece (piece : String) : Prop :=
  (∃ c, isDelimiter c = true ∧ piece = String.ofList [c]) ∨ Undivided piece.toList

theorem isPiece_of_mem {text piece : String} (h : piece ∈ Expression.pieces text) :
    IsPiece piece := by
  obtain ⟨chars, hchars, rfl⟩ := List.mem_map.mp h
  rcases Expression.delimiter_or_undivided hchars with ⟨c, hc, rfl⟩ | h
  · exact Or.inl ⟨c, hc, rfl⟩
  · right
    rwa [String.toList_ofList]

/-- A number has no brackets. -/
theorem undivided_of_isNumber {piece : String} (hpiece : IsPiece piece)
    (h : Token.isNumber piece = true) : Undivided piece.toList := by
  rcases hpiece with ⟨c, hc, rfl⟩ | hpiece
  · exact absurd h (Bool.eq_false_iff.mp (Token.isNumber_delimiter hc))
  · exact hpiece

/-- The brackets of a piece are those that its token opens or closes. -/
theorem count_bracket {piece : String} {token : Token} (hpiece : IsPiece piece)
    (h : Token.classify piece = .ok token) :
    piece.toList.count openBracket = Conversion.opening token ∧
      piece.toList.count closeBracket = Conversion.closing token := by
  rw [← Token.name_of_classify h]
  cases Token.classify_eq_ok h with
  | openBracket => decide
  | closeBracket => decide
  | separator => decide
  | unary operation => cases operation <;> decide
  | binary operation => cases operation <;> decide
  | freeVariable => decide
  | @number name hnumber =>
      rw [← hnumber.1] at hpiece
      have hundivided := undivided_of_isNumber hpiece hnumber.2
      have hnone {c : Char} (hc : isDelimiter c = true) : name.toList.count c = 0 := by
        rw [List.count_eq_zero]
        intro hmem
        rw [(hundivided c hmem).1] at hc
        contradiction
      exact ⟨hnone (by decide), hnone (by decide)⟩

/-! ## Offences -/

/-- Why a piece behind others makes a conversion fail. -/
inductive Offends (before : List String) (piece : String) : Cause → Prop where
  /-- It is no token. -/
  | unrecognized : ¬Token.Known piece → Offends before piece (.unrecognizedToken piece)
  /-- It contains the imaginary unit, and is neither the unit alone nor an unsigned number in
  front of it. -/
  | malformed : imaginaryUnit ∈ piece.toList →
      (∀ n hn, (Literal.imaginary n hn).name ≠ piece) →
      Offends before piece (.malformedNumber ("0+" ++ piece))
  /-- It closes a bracket, and as many have been closed as have been opened. -/
  | mismatched : piece = closeBracket.toString →
      (before.flatMap String.toList).count closeBracket =
        (before.flatMap String.toList).count openBracket →
      Offends before piece .mismatchedBracket

/-- Whether no piece of a row offends. -/
def IsClean (pieces : List String) : Prop :=
  ∀ before piece after, pieces = before ++ piece :: after → ∀ cause, ¬Offends before piece cause

/-- Whether the first piece of a row that offends does so for the given cause. -/
def FirstOffence (pieces : List String) (cause : Cause) : Prop :=
  ∃ before piece after, pieces = before ++ piece :: after ∧ IsClean before ∧
    Offends before piece cause

theorem isClean_nil : IsClean [] := by
  intro before piece after h
  simp at h

theorem isClean_concat {pieces : List String} {last : String} :
    IsClean (pieces ++ [last]) ↔ IsClean pieces ∧ ∀ cause, ¬Offends pieces last cause := by
  constructor
  · intro h
    refine ⟨?_, h pieces last [] rfl⟩
    rintro before piece after rfl
    exact h before piece (after ++ [last]) (by simp)
  · rintro ⟨hpieces, hlast⟩ before piece after h
    rcases List.eq_nil_or_concat' after with rfl | ⟨after, other, rfl⟩
    · obtain ⟨rfl, hpiece⟩ := List.append_inj' h rfl
      obtain rfl := List.singleton_inj.mp hpiece
      exact hlast
    · rw [← List.cons_append, ← List.append_assoc] at h
      exact hpieces before piece after (List.append_inj' h rfl).1

/-- A row is clean, or has a first offence. -/
theorem isClean_or_firstOffence (pieces : List String) :
    IsClean pieces ∨ ∃ cause, FirstOffence pieces cause := by
  induction pieces using List.reverseRecOn with
  | nil => exact Or.inl isClean_nil
  | append_singleton pieces last ih =>
      rcases ih with hclean | ⟨cause, before, piece, after, rfl, hclean, hoffends⟩
      · by_cases hlast : ∃ cause, Offends pieces last cause
        · obtain ⟨cause, hoffends⟩ := hlast
          exact Or.inr ⟨cause, pieces, last, [], rfl, hclean, hoffends⟩
        · rw [not_exists] at hlast
          exact Or.inl (isClean_concat.mpr ⟨hclean, hlast⟩)
      · exact Or.inr ⟨cause, before, piece, after ++ [last], by simp, hclean, hoffends⟩

/-! ## Reading one piece -/

variable {f : ComplexFormat}

/-- Classifies a piece and reads its token. -/
def readPiece (f : ComplexFormat) (c : Conversion) (piece : String) : Except Failure Conversion :=
  Token.classify piece >>= c.step f

theorem convertExpression_eq (f : ComplexFormat) (text : String) :
    convertExpression f text =
      ((Expression.pieces (Expression.normalize text)).foldlM (readPiece f)
        Conversion.start).map Conversion.finish := by
  rw [convertExpression, convertAll, Expression.tokens, List.foldlM_map]
  rfl

/-- Whether the open brackets of a conversion are those that a row of pieces leaves open. -/
def Balanced (pieces : List String) (c : Conversion) : Prop :=
  c.opens + (pieces.flatMap String.toList).count closeBracket =
    (pieces.flatMap String.toList).count openBracket

theorem balanced_nil : Balanced [] Conversion.start := rfl

theorem Balanced.concat {before : List String} {piece : String} {c c' : Conversion}
    (h : Balanced before c) (hpiece : IsPiece piece) (hread : readPiece f c piece = .ok c') :
    Balanced (before ++ [piece]) c' := by
  obtain ⟨token, hclassify, hstep⟩ := bind_eq_ok_iff.mp hread
  obtain ⟨hopening, hclosing⟩ := count_bracket hpiece hclassify
  have hopens := Conversion.opens_step hstep
  rw [Balanced] at h ⊢
  simp only [List.flatMap_append, List.flatMap_singleton, List.count_append, hopening, hclosing]
  omega

/-- A row that has been read leaves open the brackets that it opens and does not close. -/
theorem balanced_of_foldlM {pieces : List String} {c : Conversion}
    (hpieces : ∀ piece ∈ pieces, IsPiece piece)
    (h : pieces.foldlM (readPiece f) Conversion.start = .ok c) : Balanced pieces c := by
  induction pieces using List.reverseRecOn generalizing c with
  | nil =>
      cases h
      exact balanced_nil
  | append_singleton pieces last ih =>
      rw [List.forall_mem_append, List.forall_mem_singleton] at hpieces
      rw [List.foldlM_append] at h
      obtain ⟨c', hfold, hlast⟩ := bind_eq_ok_iff.mp h
      rw [List.foldlM_cons] at hlast
      obtain ⟨c'', hread, hlast⟩ := bind_eq_ok_iff.mp hlast
      cases hlast
      exact (ih hpieces.1 hfold).concat hpieces.2 hread

section

variable (hsymbol : f.symbol = imaginaryUnit.toString)

include hsymbol

/-- A text with the imaginary unit that is no literal cannot be read behind a zero and a
plus. -/
theorem literalEntry_malformed {piece : String} (hpiece : IsPiece piece)
    (hunit : imaginaryUnit ∈ piece.toList)
    (hliteral : ∀ n hn, (Literal.imaginary n hn).name ≠ piece) :
    literalEntry f piece = .error (.ofCause (.malformedNumber ("0+" ++ piece))) := by
  have hnumber : Token.isNumber piece = true := by
    rw [Token.isNumber, Token.isImaginary_iff.mpr hunit, Bool.or_true]
  have hread : f.read? ("0+" ++ piece) = none := by
    rw [Option.eq_none_iff_forall_ne_some]
    intro z hz
    obtain ⟨n, hn, hname⟩ := Literal.exists_imaginary_of_read hsymbol
      (undivided_of_isNumber hpiece hnumber) (ComplexFormat.read_eq_ok.mpr hz)
    exact hliteral n hn hname
  have halone : piece ≠ imaginaryUnit.toString := by
    rintro rfl
    exact hliteral none (by simp) rfl
  rw [literalEntry, if_neg halone, if_pos (Token.isImaginary_iff.mpr hunit),
    ComplexFormat.read_eq_error hread]
  rfl

/-- An offending piece fails for the reason that it offends for. -/
theorem readPiece_of_offends {before : List String} {piece : String} {cause : Cause}
    {c : Conversion} (hbalanced : Balanced before c) (hpiece : IsPiece piece)
    (h : Offends before piece cause) : readPiece f c piece = .error (.ofCause cause) := by
  cases h with
  | unrecognized hunknown =>
      rw [readPiece, Token.classify_unknown hunknown]
      rfl
  | malformed hunit hliteral =>
      rw [readPiece, Token.classify_imaginary hunit, ok_bind]
      change (literalEntry f piece).map c.write = _
      rw [literalEntry_malformed hsymbol hpiece hunit hliteral]
      rfl
  | mismatched hclose hcount =>
      rw [Balanced, hcount] at hbalanced
      rw [hclose]
      exact Conversion.close_eq_error (by omega)

variable (hplaces : f.precision ≤ ComplexFormat.maxPlaces)

include hplaces

/-- A number that does not offend is a literal. -/
theorem exists_literalEntry {before : List String} {piece : String}
    (hnumber : Token.isNumber piece = true) (h : ∀ cause, ¬Offends before piece cause) :
    ∃ entry, literalEntry f piece = .ok entry := by
  have hliteral : ∃ l : Literal, l.name = piece := by
    by_cases hunit : imaginaryUnit ∈ piece.toList
    · by_contra hnone
      apply h _ (.malformed hunit _)
      intro n hn hname
      exact hnone ⟨_, hname⟩
    · rw [Token.isNumber, Bool.or_eq_true, Token.isImaginary_iff] at hnumber
      obtain ⟨n, hn, hname⟩ := Literal.exists_real (hnumber.resolve_right hunit)
      exact ⟨_, hname⟩
  obtain ⟨l, rfl⟩ := hliteral
  obtain ⟨entry, hentry, -⟩ := l.exists_entry hsymbol hplaces
  exact ⟨entry, hentry⟩

/-- A piece that does not offend is read. -/
theorem exists_readPiece {before : List String} {piece : String} {c : Conversion}
    (hbalanced : Balanced before c) (h : ∀ cause, ¬Offends before piece cause) :
    ∃ c', readPiece f c piece = .ok c' := by
  have hknown : Token.Known piece := by
    by_contra hunknown
    exact h _ (.unrecognized hunknown)
  obtain ⟨token, hclassify⟩ := Token.exists_classify hknown
  have hname := Token.name_of_classify hclassify
  rw [readPiece, hclassify, ok_bind]
  cases Token.classify_eq_ok hclassify with
  | openBracket => exact ⟨_, rfl⟩
  | closeBracket =>
      have hopens : c.opens ≠ 0 := by
        intro hzero
        rw [Balanced, hzero, Nat.zero_add] at hbalanced
        exact h _ (.mismatched hname.symm hbalanced)
      obtain ⟨c', hclose, -⟩ := Conversion.exists_close hopens
      exact ⟨c', hclose⟩
  | separator => exact ⟨_, rfl⟩
  | unary operation => exact ⟨_, rfl⟩
  | binary operation => cases operation <;> exact ⟨_, rfl⟩
  | freeVariable => exact ⟨_, rfl⟩
  | number hnumber =>
      obtain ⟨rfl, hnumber⟩ := hnumber
      obtain ⟨entry, hentry⟩ := exists_literalEntry hsymbol hplaces hnumber h
      exact ⟨c.write entry, congrArg (Except.map c.write) hentry⟩

/-! ## Reading a row of pieces -/

/-- A clean row is read. -/
theorem exists_foldlM_readPiece {pieces : List String} (hpieces : ∀ piece ∈ pieces, IsPiece piece)
    (h : IsClean pieces) : ∃ c, pieces.foldlM (readPiece f) Conversion.start = .ok c := by
  -- From the end, since whether a piece offends depends on all pieces before it.
  induction pieces using List.reverseRecOn with
  | nil => exact ⟨_, rfl⟩
  | append_singleton pieces last ih =>
      rw [List.forall_mem_append, List.forall_mem_singleton] at hpieces
      obtain ⟨hclean, hlast⟩ := isClean_concat.mp h
      obtain ⟨c, hfold⟩ := ih hpieces.1 hclean
      obtain ⟨c', hread⟩ :=
        exists_readPiece hsymbol hplaces (balanced_of_foldlM hpieces.1 hfold) hlast
      refine ⟨c', ?_⟩
      rw [List.foldlM_append, hfold, ok_bind, List.foldlM_cons, hread]
      rfl

/-- A row is read up to its first offence. -/
theorem foldlM_readPiece_of_firstOffence {pieces : List String}
    (hpieces : ∀ piece ∈ pieces, IsPiece piece) {cause : Cause} (h : FirstOffence pieces cause) :
    pieces.foldlM (readPiece f) Conversion.start = .error (.ofCause cause) := by
  obtain ⟨before, piece, after, rfl, hclean, hoffends⟩ := h
  rw [List.forall_mem_append, List.forall_mem_cons] at hpieces
  obtain ⟨c, hfold⟩ := exists_foldlM_readPiece hsymbol hplaces hpieces.1 hclean
  have hbalanced := balanced_of_foldlM hpieces.1 hfold
  rw [List.foldlM_append, hfold, ok_bind, List.foldlM_cons,
    readPiece_of_offends hsymbol hbalanced hpieces.2.1 hoffends]
  rfl

/-! ## Texts -/

theorem exists_convertExpression {text : String}
    (h : IsClean (Expression.pieces (Expression.normalize text))) :
    ∃ rpn, convertExpression f text = .ok rpn := by
  obtain ⟨c, hfold⟩ :=
    exists_foldlM_readPiece hsymbol hplaces (fun _ hpiece => isPiece_of_mem hpiece) h
  rw [convertExpression_eq f, hfold]
  exact ⟨_, rfl⟩

theorem convertExpression_of_firstOffence {text : String} {cause : Cause}
    (h : FirstOffence (Expression.pieces (Expression.normalize text)) cause) :
    convertExpression f text = .error (.ofCause cause) := by
  rw [convertExpression_eq, foldlM_readPiece_of_firstOffence hsymbol hplaces
    (fun _ hpiece => isPiece_of_mem hpiece) h]
  rfl

end

/-- A text fails to be converted exactly if one of the pieces of its normal form offends, and
the first one that does decides the failure. -/
theorem convertExpression_eq_error_iff {f : ComplexFormat}
    (hsymbol : f.symbol = imaginaryUnit.toString) (hplaces : f.precision ≤ 2147483647)
    (text : String) :
    ((∃ failure, convertExpression f text = .error failure) ↔
      ∃ before piece after cause,
        Expression.pieces (Expression.normalize text) = before ++ piece :: after ∧
          Offends before piece cause) ∧
    ∀ failure, convertExpression f text = .error failure ↔
      ∃ cause, FirstOffence (Expression.pieces (Expression.normalize text)) cause ∧
        failure = .ofCause cause := by
  have hfirst (failure : Failure) : convertExpression f text = .error failure ↔
      ∃ cause, FirstOffence (Expression.pieces (Expression.normalize text)) cause ∧
        failure = .ofCause cause := by
    constructor
    · intro h
      rcases isClean_or_firstOffence (Expression.pieces (Expression.normalize text)) with
        hclean | ⟨cause, hcause⟩
      · obtain ⟨rpn, hrpn⟩ := exists_convertExpression hsymbol hplaces hclean
        rw [hrpn] at h
        contradiction
      · rw [convertExpression_of_firstOffence hsymbol hplaces hcause] at h
        injection h with h
        exact ⟨cause, hcause, h.symm⟩
    · rintro ⟨cause, hcause, rfl⟩
      exact convertExpression_of_firstOffence hsymbol hplaces hcause
  refine ⟨⟨?_, ?_⟩, hfirst⟩
  · rintro ⟨failure, h⟩
    obtain ⟨cause, ⟨before, piece, after, hpieces, -, hoffends⟩, -⟩ := (hfirst failure).mp h
    exact ⟨before, piece, after, cause, hpieces, hoffends⟩
  · rintro ⟨before, piece, after, cause, hpieces, hoffends⟩
    rcases isClean_or_firstOffence (Expression.pieces (Expression.normalize text)) with
      hclean | ⟨cause, hcause⟩
    · exact absurd hoffends (hclean before piece after hpieces cause)
    · exact ⟨_, convertExpression_of_firstOffence hsymbol hplaces hcause⟩

/-- A bracket too many comes before a malformed number and a piece that is no token. -/
theorem convertExpression_eq_error_bracket :
    convertExpression ⟨3, "I"⟩ "(1)) + 2I3 + x" = .error (.ofCause .mismatchedBracket) ∧
      FirstOffence ["(", "1", ")", ")", "+", "2I3", "+", "x"] .mismatchedBracket := by
  have hpieces : Expression.pieces (Expression.normalize "(1)) + 2I3 + x") =
      ["(", "1", ")", ")", "+", "2I3", "+", "x"] := by
    decide +kernel
  have hfails : convertExpression ⟨3, "I"⟩ "(1)) + 2I3 + x" =
      .error (.ofCause .mismatchedBracket) := rfl
  obtain ⟨cause, hfirst, heq⟩ :=
    ((convertExpression_eq_error_iff rfl (by decide) "(1)) + 2I3 + x").2 _).mp hfails
  obtain rfl : Cause.mismatchedBracket = cause := by simpa [Failure.ofCause] using heq
  rw [hpieces] at hfirst
  exact ⟨hfails, hfirst⟩

end Rpn

end ComplexCalculator
