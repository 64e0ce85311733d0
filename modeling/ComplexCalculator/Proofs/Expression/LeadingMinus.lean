import ComplexCalculator.Proofs.Expression.Context
import ComplexCalculator.Proofs.Expression.Normal
import Mathlib.Data.List.Basic

/-!
# Minus signs in front of terms

A minus at the beginning of a phrase, behind an opening bracket or behind a separator is the
sign of the first term of a sum: everything else in the phrase is the context of this sum.  The
term is as long as it can be, since what follows it is the next term of the sum, or ends the sum.
-/

namespace ComplexCalculator

open Alphabet (opensArgument)
open Expression (IsWord isMark)

namespace Phrase

variable {level : Level} {front back : List (List Char)}

/-- Whether a sum begins behind a row of pieces: at the start, behind an opening bracket or
behind a separator. -/
def OpensSum (front : List (List Char)) : Prop :=
  ∀ piece ∈ front.getLast?, ∃ c, opensArgument c = true ∧ piece = [c]

theorem OpensSum.of_append {a b : List (List Char)} (h : OpensSum (a ++ b)) : OpensSum b := by
  intro piece hpiece
  apply h
  rw [List.getLast?_append, Option.mem_def.mp hpiece]
  rfl

theorem OpensSum.of_append_cons {a b : List (List Char)} {piece : List Char}
    (h : OpensSum (a ++ piece :: b)) : OpensSum b := by
  rw [List.append_cons] at h
  exact h.of_append

/-! ## Ends of phrases -/

/-- A phrase ends with a word, a closing bracket or a degree sign. -/
theorem exists_last (e : Phrase level) :
    ∃ front last, e.pieces = front ++ [last] ∧
      (IsWord last ∨ last = [Alphabet.closeBracket] ∨ last = [Alphabet.degreeSign]) := by
  have hbehind {a b front : List (List Char)} {last : List Char} (h : b = front ++ [last]) :
      a ++ b = (a ++ front) ++ [last] := by
    rw [h, List.append_assoc]
  induction e with
  | literal l => exact ⟨[], l.text, rfl, Or.inl (Expression.isWord_literal l)⟩
  | freeVariable => exact ⟨[], _, rfl, Or.inl Expression.isWord_variableName⟩
  | bracketed body => exact ⟨_, _, hbehind (a := [_]) rfl, Or.inr (Or.inl rfl)⟩
  | call function argument => exact ⟨_, _, hbehind (a := [_, _]) rfl, Or.inr (Or.inl rfl)⟩
  | power base exponent =>
      exact ⟨_, _, hbehind (a := [_, _]) (hbehind (hbehind (a := [_]) rfl)), Or.inr (Or.inl rfl)⟩
  | single body ih => exact ih
  | term body ih => exact ih
  | degrees angle => exact ⟨angle.pieces, _, rfl, Or.inr (Or.inr rfl)⟩
  | times left operator right _ ih =>
      obtain ⟨front, last, hright, hlast⟩ := ih
      exact ⟨_, last, hbehind (hbehind (a := [_]) hright), hlast⟩
  | signed operator body ih =>
      obtain ⟨front, last, hbody, hlast⟩ := ih
      exact ⟨_, last, hbehind (a := [_]) hbody, hlast⟩
  | plus left operator right _ ih =>
      obtain ⟨front, last, hright, hlast⟩ := ih
      exact ⟨_, last, hbehind (hbehind (a := [_]) hright), hlast⟩

/-- No sum begins behind a phrase. -/
theorem not_opensSum_pieces (e : Phrase level) : ¬OpensSum e.pieces := by
  intro h
  obtain ⟨front, last, hpieces, hlast⟩ := e.exists_last
  obtain ⟨c, hopens, rfl⟩ := h last (by simp [hpieces])
  rcases hlast with hword | hclose | hdegree
  · have hmark := hword.not_mark c (by simp)
    rw [(Expression.plain_of_not_mark hmark).2.2] at hopens
    contradiction
  · rw [List.singleton_inj.mp hclose] at hopens
    contradiction
  · rw [List.singleton_inj.mp hdegree] at hopens
    contradiction

/-! ## Where a minus stands -/

/-- A piece of two rows with another piece between them lies in the first row, between them or
in the second row. -/
theorem append_cons_eq_append_cons {a b : List (List Char)} {between piece : List Char}
    (h : a ++ between :: b = front ++ piece :: back) :
    (∃ rest, a = front ++ piece :: rest ∧ back = rest ++ between :: b) ∨
      (a = front ∧ between = piece ∧ b = back) ∨
      ∃ rest, front = a ++ between :: rest ∧ b = rest ++ piece :: back := by
  rcases List.append_eq_append_iff.mp h with ⟨rest, hfront, hb⟩ | ⟨rest, ha, hback⟩
  · cases rest with
    | nil =>
        injection hb with hpiece hb
        exact Or.inr (Or.inl ⟨by simp [hfront], hpiece, hb⟩)
    | cons first rest =>
        injection hb with hfirst hb
        exact Or.inr (Or.inr ⟨rest, by rw [hfront, hfirst], hb⟩)
  · cases rest with
    | nil =>
        injection hback with hpiece hb
        exact Or.inr (Or.inl ⟨by simp [ha], hpiece.symm, hb.symm⟩)
    | cons first rest =>
        injection hback with hfirst hback
        exact Or.inl ⟨rest, by rw [ha, hfirst], hback⟩

/-- A minus in a row in brackets, with other pieces in front of the row. -/
theorem exists_of_bracketed {lead inner : List (List Char)} (hlead : ['-'] ∉ lead)
    (h : lead ++ (inner ++ [[Alphabet.closeBracket]]) = front ++ ['-'] :: back) :
    ∃ before behind, front = lead ++ before ∧ inner = before ++ ['-'] :: behind ∧
      back = behind ++ [[Alphabet.closeBracket]] := by
  induction lead generalizing front with
  | nil =>
      rcases append_cons_eq_append_cons h with ⟨behind, hinner, hback⟩ | ⟨-, hclose, -⟩ |
        ⟨behind, -, hnil⟩
      · exact ⟨front, behind, rfl, hinner, hback⟩
      · exact absurd hclose (by decide)
      · simp at hnil
  | cons piece lead ih =>
      rw [List.mem_cons, not_or] at hlead
      cases front with
      | nil =>
          injection h with hpiece _
          exact absurd hpiece.symm hlead.1
      | cons first front =>
          injection h with hpiece h
          obtain ⟨before, behind, rfl, hinner, hback⟩ := ih hlead.2 h
          exact ⟨before, behind, by rw [hpiece, List.cons_append], hinner, hback⟩

/-- A phrase with a minus in front of a term: the pieces around both are those of a context. -/
def IsNegatedIn (e : Phrase level) (front back : List (List Char)) : Prop :=
  ∃ (c : Context level) (t : Phrase .product), e = c.fill (.signed .sub t) ∧ c.before = front ∧
    back = t.pieces ++ c.behind

/-- A minus that begins a sum is the sign of a term, wherever it stands in a phrase. -/
theorem isNegatedIn_of_pieces (e : Phrase level) (hfront : OpensSum front)
    (h : e.pieces = front ++ ['-'] :: back) : e.IsNegatedIn front back := by
  induction e generalizing front back with
  | literal l =>
      have hminus : ['-'] ∈ [l.text] := by
        rw [← pieces, h]
        simp
      have hmark := (Expression.isWord_literal l).not_mark '-'
      rw [← List.mem_singleton.mp hminus] at hmark
      exact absurd (hmark (by simp)) (by decide)
  | freeVariable =>
      have hminus : ['-'] ∈ [Alphabet.variableName.toList] := by
        rw [← pieces, h]
        simp
      exact absurd hminus (by decide)
  | bracketed body ih =>
      have hopen : ['-'] ∉ [[Alphabet.openBracket]] := by decide
      obtain ⟨before, behind, rfl, hbody, rfl⟩ := exists_of_bracketed hopen h
      obtain ⟨c, t, rfl, rfl, rfl⟩ := ih hfront.of_append hbody
      exact ⟨.bracketed c, t, rfl, rfl, by simp [Context.behind]⟩
  | call function argument ih =>
      have hname : ['-'] ∉ [function.name.toList, [Alphabet.openBracket]] := by
        cases function <;> decide
      obtain ⟨before, behind, rfl, hargument, rfl⟩ := exists_of_bracketed hname h
      obtain ⟨c, t, rfl, rfl, rfl⟩ := ih hfront.of_append hargument
      exact ⟨.call function c, t, rfl, rfl, by simp [Context.behind]⟩
  | power base exponent ihBase ihExponent =>
      have hname : ['-'] ∉ [BinaryOperation.pow.symbol.toList, [Alphabet.openBracket]] := by
        decide
      have hrow : [BinaryOperation.pow.symbol.toList, [Alphabet.openBracket]] ++
          (base.pieces ++ [Alphabet.separator] :: exponent.pieces ++ [[Alphabet.closeBracket]]) =
            front ++ ['-'] :: back := by
        rw [← h]
        simp [pieces]
      obtain ⟨before, behind, rfl, harguments, rfl⟩ := exists_of_bracketed hname hrow
      rcases append_cons_eq_append_cons harguments with ⟨rest, hbase, rfl⟩ | ⟨-, hseparator, -⟩ |
        ⟨rest, rfl, hexponent⟩
      · obtain ⟨c, t, rfl, rfl, rfl⟩ := ihBase hfront.of_append hbase
        exact ⟨.powerBase c exponent, t, rfl, rfl, by simp [Context.behind]⟩
      · exact absurd hseparator (by decide)
      · obtain ⟨c, t, rfl, rfl, rfl⟩ := ihExponent hfront.of_append.of_append_cons hexponent
        exact ⟨.powerExponent base c, t, rfl, by simp [Context.before], by simp [Context.behind]⟩
  | single body ih =>
      obtain ⟨c, t, rfl, rfl, rfl⟩ := ih hfront h
      exact ⟨.single c, t, rfl, rfl, rfl⟩
  | times left operator right ihLeft ihRight =>
      rcases append_cons_eq_append_cons h with ⟨rest, hleft, rfl⟩ | ⟨-, hoperator, -⟩ |
        ⟨rest, rfl, hright⟩
      · obtain ⟨c, t, rfl, rfl, rfl⟩ := ihLeft hfront hleft
        exact ⟨.timesLeft c operator right, t, rfl, rfl, by simp [Context.behind]⟩
      · cases operator <;> exact absurd hoperator (by decide)
      · obtain ⟨c, t, rfl, rfl, rfl⟩ := ihRight hfront.of_append_cons hright
        exact ⟨.timesRight left operator c, t, rfl, rfl, rfl⟩
  | degrees angle ih =>
      rcases append_cons_eq_append_cons h with ⟨rest, hangle, rfl⟩ | ⟨-, hdegree, -⟩ |
        ⟨rest, -, hnil⟩
      · obtain ⟨c, t, rfl, rfl, rfl⟩ := ih hfront hangle
        exact ⟨.degrees c, t, rfl, rfl, by simp [Context.behind]⟩
      · exact absurd hdegree (by decide)
      · simp at hnil
  | term body ih =>
      obtain ⟨c, t, rfl, rfl, rfl⟩ := ih hfront h
      exact ⟨.term c, t, rfl, rfl, rfl⟩
  | signed operator body ih =>
      cases front with
      | nil =>
          injection h with hoperator hbody
          cases operator with
          | add => exact absurd hoperator (by decide)
          | sub => exact ⟨.hole, body, rfl, rfl, by simp [Context.behind, hbody]⟩
      | cons first front =>
          injection h with hfirst hbody
          obtain ⟨c, t, rfl, rfl, rfl⟩ := ih (OpensSum.of_append (a := [first]) hfront) hbody
          exact ⟨.signed operator c, t, rfl, by rw [Context.before, hfirst], rfl⟩
  | plus left operator right ihLeft ihRight =>
      rcases append_cons_eq_append_cons h with ⟨rest, hleft, rfl⟩ | ⟨rfl, -, -⟩ |
        ⟨rest, rfl, hright⟩
      · obtain ⟨c, t, rfl, rfl, rfl⟩ := ihLeft hfront hleft
        exact ⟨.plusLeft c operator right, t, rfl, rfl, by simp [Context.behind]⟩
      · -- a minus between two terms is an operator, and no sum begins with it
        exact absurd hfront left.not_opensSum_pieces
      · obtain ⟨c, t, rfl, rfl, rfl⟩ := ihRight hfront.of_append_cons hright
        exact ⟨.plusRight left operator c, t, rfl, rfl, rfl⟩

/-! ## Where a term ends -/

/-- Whether a row of pieces starts with an operator between terms or ends an argument. -/
def EndsTerm (row : List (List Char)) : Prop :=
  ∃ sign ∈ ['+', '-', ')', ','], ∃ rest, row = [sign] :: rest

theorem EndsTerm.append {row : List (List Char)} (h : EndsTerm row) (more : List (List Char)) :
    EndsTerm (row ++ more) := by
  obtain ⟨sign, hsign, rest, rfl⟩ := h
  exact ⟨sign, hsign, rest ++ more, rfl⟩

theorem endsTerm_operator (operator : TermOperator) (row : List (List Char)) :
    EndsTerm (operator.operation.symbol.toList :: row) := by
  cases operator with
  | add => exact ⟨'+', by decide, row, rfl⟩
  | sub => exact ⟨'-', by decide, row, rfl⟩

/-- What follows a sum in a phrase ends its last term, or is nothing if the phrase is a sum
itself. -/
theorem Context.behind_cases (c : Context level) :
    EndsTerm c.behind ∨ (level = .sum ∧ c.behind = []) := by
  have hsum {row more : List (List Char)} {inner : Level} (hmore : EndsTerm more)
      (h : EndsTerm row ∨ (inner = .sum ∧ row = [])) : EndsTerm (row ++ more) := by
    rcases h with hrow | ⟨-, rfl⟩
    · exact hrow.append more
    · exact hmore
  have hterm {row : List (List Char)} {inner : Level} (hinner : inner ≠ .sum)
      (h : EndsTerm row ∨ (inner = .sum ∧ row = [])) : EndsTerm row := by
    rcases h with hrow | ⟨hlevel, -⟩
    · exact hrow
    · contradiction
  have hclose : EndsTerm [[Alphabet.closeBracket]] := ⟨')', by decide, [], rfl⟩
  induction c with
  | hole => exact Or.inr ⟨rfl, rfl⟩
  | bracketed body ih => exact Or.inl (hsum hclose ih)
  | call function argument ih => exact Or.inl (hsum hclose ih)
  | powerBase base exponent ih => exact Or.inl (hsum ⟨',', by decide, _, rfl⟩ ih)
  | powerExponent base exponent ih => exact Or.inl (hsum hclose ih)
  | single body ih => exact Or.inl (hterm (by decide) ih)
  | timesLeft left operator right ih => exact Or.inl ((hterm (by decide) ih).append _)
  | timesRight left operator right ih => exact Or.inl (hterm (by decide) ih)
  | degrees angle ih => exact Or.inl ((hterm (by decide) ih).append _)
  | term body ih => exact Or.inl (hterm (by decide) ih)
  | signed operator body ih => exact Or.inl (hterm (by decide) ih)
  | plusLeft left operator right ih => exact Or.inl (hsum (endsTerm_operator operator _) ih)
  | plusRight left operator right ih => exact Or.inl (hterm (by decide) ih)

/-- The pieces up to the one that ends the term at their beginning, in so many brackets. -/
def leadingTerm : ℕ → List (List Char) → List (List Char)
  | _, [] => []
  | depth, piece :: row =>
    if piece = [Alphabet.openBracket] then piece :: leadingTerm (depth + 1) row
    else if depth = 0 ∧ piece ∈ [['+'], ['-'], [')'], [',']] then []
    else if piece = [Alphabet.closeBracket] then piece :: leadingTerm (depth - 1) row
    else piece :: leadingTerm depth row

theorem leadingTerm_of_ends {row : List (List Char)} (h : row = [] ∨ EndsTerm row) :
    leadingTerm 0 row = [] := by
  rcases h with rfl | ⟨sign, hsign, rest, rfl⟩
  · rfl
  · have hopen : [sign] ≠ [Alphabet.openBracket] := by
      rintro hsign'
      rw [List.singleton_inj.mp hsign'] at hsign
      exact absurd hsign (by decide)
    rw [leadingTerm, if_neg hopen, if_pos]
    exact ⟨rfl, by simpa using hsign⟩

theorem leadingTerm_open (depth : ℕ) (row : List (List Char)) :
    leadingTerm depth ([Alphabet.openBracket] :: row) =
      [Alphabet.openBracket] :: leadingTerm (depth + 1) row := by
  rw [leadingTerm, if_pos rfl]

theorem leadingTerm_close (depth : ℕ) (row : List (List Char)) :
    leadingTerm (depth + 1) ([Alphabet.closeBracket] :: row) =
      [Alphabet.closeBracket] :: leadingTerm depth row := by
  rw [leadingTerm, if_neg (by decide), if_neg (fun h => Nat.succ_ne_zero depth h.1), if_pos rfl,
    Nat.add_sub_cancel]

/-- A piece that is no bracket is passed unless it ends the term. -/
theorem leadingTerm_pass {depth : ℕ} {piece : List Char} (hopen : piece ≠ [Alphabet.openBracket])
    (hclose : piece ≠ [Alphabet.closeBracket])
    (hends : 0 < depth ∨ piece ∉ [['+'], ['-'], [')'], [',']]) (row : List (List Char)) :
    leadingTerm depth (piece :: row) = piece :: leadingTerm depth row := by
  rw [leadingTerm, if_neg hopen, if_neg, if_neg hclose]
  rintro ⟨rfl, hmem⟩
  exact hends.elim (Nat.lt_irrefl 0) (· hmem)

theorem leadingTerm_word {piece : List Char} (h : IsWord piece) (depth : ℕ)
    (row : List (List Char)) :
    leadingTerm depth (piece :: row) = piece :: leadingTerm depth row := by
  have hne {c : Char} (hc : isMark c = true) : piece ≠ [c] := by
    rintro rfl
    rw [h.not_mark c (by simp)] at hc
    contradiction
  refine leadingTerm_pass (hne (by decide)) (hne (by decide)) (Or.inr fun hmem => ?_) row
  simp only [List.mem_cons, List.not_mem_nil, or_false] at hmem
  rcases hmem with hpiece | hpiece | hpiece | hpiece
  all_goals exact hne (by decide) hpiece

theorem leadingTerm_termOperator {depth : ℕ} (hdepth : 0 < depth) (operator : TermOperator)
    (row : List (List Char)) :
    leadingTerm depth (operator.operation.symbol.toList :: row) =
      operator.operation.symbol.toList :: leadingTerm depth row := by
  cases operator <;> exact leadingTerm_pass (by decide) (by decide) (Or.inl hdepth) row

theorem leadingTerm_factorOperator (depth : ℕ) (operator : FactorOperator)
    (row : List (List Char)) :
    leadingTerm depth (operator.operation.symbol.toList :: row) =
      operator.operation.symbol.toList :: leadingTerm depth row := by
  cases operator <;> exact leadingTerm_pass (by decide) (by decide) (Or.inr (by decide)) row

/-- A term is passed as a whole, and in brackets a sum too. -/
theorem leadingTerm_pieces (e : Phrase level) {depth : ℕ} (h : level = .sum → 0 < depth)
    (row : List (List Char)) :
    leadingTerm depth (e.pieces ++ row) = e.pieces ++ leadingTerm depth row := by
  induction e generalizing depth row with
  | literal l => exact leadingTerm_word (Expression.isWord_literal l) depth row
  | freeVariable => exact leadingTerm_word Expression.isWord_variableName depth row
  | bracketed body ih =>
      simp only [pieces, List.cons_append, List.append_assoc, List.nil_append, leadingTerm_open,
        ih fun _ => depth.succ_pos, leadingTerm_close]
  | call function argument ih =>
      simp only [pieces, List.cons_append, List.append_assoc, List.nil_append, leadingTerm_open,
        leadingTerm_word (Expression.isWord_unary function), ih fun _ => depth.succ_pos,
        leadingTerm_close]
  | power base exponent ihBase ihExponent =>
      have hseparator (row : List (List Char)) :
          leadingTerm (depth + 1) ([Alphabet.separator] :: row) =
            [Alphabet.separator] :: leadingTerm (depth + 1) row :=
        leadingTerm_pass (by decide) (by decide) (Or.inl depth.succ_pos) row
      simp only [pieces, List.cons_append, List.append_assoc, List.nil_append, leadingTerm_open,
        leadingTerm_word Expression.isWord_pow, ihBase fun _ => depth.succ_pos, hseparator,
        ihExponent fun _ => depth.succ_pos, leadingTerm_close]
  | single body ih => exact ih (fun hlevel => by contradiction) row
  | times left operator right ihLeft ihRight =>
      simp only [pieces, List.cons_append, List.append_assoc]
      rw [ihLeft (fun hlevel => by contradiction), leadingTerm_factorOperator,
        ihRight (fun hlevel => by contradiction)]
  | degrees angle ih =>
      simp only [pieces, List.cons_append, List.append_assoc, List.nil_append]
      rw [ih (fun hlevel => by contradiction),
        leadingTerm_pass (by decide) (by decide) (Or.inr (by decide))]
  | term body ih => exact ih (fun _ => h rfl) row
  | signed operator body ih =>
      rw [pieces, List.cons_append, leadingTerm_termOperator (h rfl), ih fun _ => h rfl,
        List.cons_append]
  | plus left operator right ihLeft ihRight =>
      simp only [pieces, List.cons_append, List.append_assoc]
      rw [ihLeft h, leadingTerm_termOperator (h rfl), ihRight fun _ => h rfl]

/-- The term at the beginning of a row, and with it what ends the term, is determined. -/
theorem append_pieces_inj {t t' : Phrase .product} {rest rest' : List (List Char)}
    (hrest : rest = [] ∨ EndsTerm rest) (hrest' : rest' = [] ∨ EndsTerm rest')
    (h : t.pieces ++ rest = t'.pieces ++ rest') : t.pieces = t'.pieces ∧ rest = rest' := by
  have hleading {t : Phrase .product} {rest : List (List Char)}
      (hrest : rest = [] ∨ EndsTerm rest) : leadingTerm 0 (t.pieces ++ rest) = t.pieces := by
    rw [leadingTerm_pieces t (fun hlevel => by contradiction), leadingTerm_of_ends hrest,
      List.append_nil]
  have ht : t.pieces = t'.pieces := by
    rw [← hleading hrest, h, hleading hrest']
  rw [ht, List.append_cancel_left_eq] at h
  exact ⟨ht, h⟩

end Phrase

end ComplexCalculator
