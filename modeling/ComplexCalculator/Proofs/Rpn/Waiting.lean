import ComplexCalculator.Proofs.Rpn.Brackets
import ComplexCalculator.Proofs.Rpn.Schedule
import Mathlib.Data.List.Chain

/-!
# What waits

Operators wait in sorted runs.  Before an operator joins those that wait, the ones on top that bind
at least as tightly are written; hence of two operators directly on top of each other the upper one
binds more tightly.  Brackets and functions, with or without a bracket behind them, lie between such
runs.  Tokens are only taken off the top, so that two runs never become one.  The brackets that
wait are those that have been opened and not been closed.

None of this needs the tokens of a formula, or the precedences that the operations have.
-/

namespace ComplexCalculator.Rpn

variable {f : ComplexFormat} {pending written next : List Token} {token : Token}

/-! ## Runs of operators -/

/-- Whether of two operators, one directly on top of the other, the upper one always binds more
tightly. -/
def OperatorsRise (pending : List Token) : Prop :=
  pending.IsChain fun upper lower =>
    upper.kind = some .operator → lower.kind = some .operator →
      lower.precedence < upper.precedence

/-- If all tokens are operators, any two of them compare as neighbours do. -/
theorem OperatorsRise.pairwise {run : List Token} (h : OperatorsRise run)
    (hoperators : ∀ t ∈ run, t.kind = some .operator) :
    (run.reverse.map (·.precedence)).Pairwise (· < ·) := by
  have hneighbours : run.IsChain fun upper lower => lower.precedence < upper.precedence :=
    h.imp_of_mem_imp fun upper lower hupper hlower hrise =>
      hrise (hoperators upper hupper) (hoperators lower hlower)
  rw [← List.isChain_iff_pairwise, List.isChain_map, List.isChain_reverse]
  exact hneighbours

theorem Advance.operatorsRise (h : Advance pending token written next)
    (hpending : OperatorsRise pending) : OperatorsRise next := by
  cases h with
  | operand _ => exact hpending
  | wait hkind =>
      refine List.isChain_cons.mpr ⟨?_, hpending⟩
      intro t _ hoperator
      rcases hkind with hkind | hkind <;> rw [hkind] at hoperator <;> contradiction
  | operator _ _ hrest =>
      refine List.isChain_cons.mpr ⟨?_, hpending.right_of_append⟩
      intro t ht _ hoperator
      -- Writing has stopped at this operator, so it binds less tightly.
      have hstop := hrest t ht
      simpa [bindsAs, hoperator] using hstop
  | separator _ _ _ => exact hpending.right_of_append
  | @closeBracket front below bracket _ _ _ _ =>
      have hbelow : OperatorsRise below := hpending.right_of_append.tail
      rw [← splitFunction_append below] at hbelow
      exact hbelow.right_of_append

/-! ## The stack of a conversion -/

/-- What waits, the latest first, when a row of tokens has been read. -/
structure Stacked (read pending : List Token) : Prop where
  /-- In every run of operators the precedences strictly increase from bottom to top. -/
  increasing : ∀ run, run <:+: pending → (∀ t ∈ run, t.kind = some .operator) →
    (run.reverse.map (·.precedence)).Pairwise (· < ·)
  /-- The brackets that wait are those that have been opened less those that have been closed. -/
  countP_isOpen : (pending.countP Conversion.isOpen : ℤ) =
    read.countP Conversion.isOpen - read.countP (·.kind == some .closeBracket)

theorem OperatorsRise.stacked {read : List Token} (h : OperatorsRise pending)
    (hopens : pending.countP Conversion.isOpen + read.countP (·.kind == some .closeBracket) =
      read.countP Conversion.isOpen) : Stacked read pending where
  increasing run hrun hoperators := by
    have hrise : OperatorsRise run := List.IsChain.infix h hrun
    exact hrise.pairwise hoperators
  countP_isOpen := by omega

/-- Tokens that are no open brackets can be taken off the top. -/
theorem Stacked.below {read taken left : List Token} (h : Stacked read (taken ++ left))
    (htaken : ∀ t ∈ taken, Conversion.isOpen t = false) : Stacked read left where
  increasing run hrun hoperators :=
    h.increasing run (hrun.trans (List.suffix_append taken left).isInfix) hoperators
  countP_isOpen := by
    have hnone : taken.countP Conversion.isOpen = 0 :=
      List.countP_eq_zero.mpr (by simpa using htaken)
    rw [← h.countP_isOpen, List.countP_append, hnone, Nat.zero_add]

/-- A conversion goes on from where the tokens that have been read have brought it. -/
theorem convertAll_of_foldlM {read : List Token} {c : Conversion}
    (h : read.foldlM (Conversion.step f) Conversion.start = .ok c)
    (behind : List (Except Failure Token)) :
    convertAll f (read.map .ok ++ behind) =
      (behind.foldlM (fun c token => token >>= c.step f) c).map Conversion.finish := by
  have hread : (read.map Except.ok).foldlM
      (fun c (token : Except Failure Token) => token >>= c.step f) Conversion.start = .ok c := by
    rw [List.foldlM_map]
    exact h
  rw [convertAll, List.foldlM_append, hread, ok_bind]

/-- Let the tokens of any row be read without a failure up to some place, whatever comes behind it
and whether or not it fails.  Then the operators that wait directly on top of one another strictly
increase in precedence from bottom to top, and as many open brackets wait as have been opened less
those that have been closed.  The same holds while the next token is read, after some of the tokens
above the latest open bracket have been taken off. -/
theorem stacked_of_foldlM (f : ComplexFormat) (read : List Token) (c : Conversion)
    (h : read.foldlM (Conversion.step f) Conversion.start = .ok c) :
    (∀ behind, convertAll f (read.map .ok ++ behind) =
      (behind.foldlM (fun c token => token >>= c.step f) c).map Conversion.finish) ∧
    Stacked read c.pending ∧
    ∀ taken left, c.pending = taken ++ left → (∀ t ∈ taken, Conversion.isOpen t = false) →
      Stacked read left := by
  have hstacked : Stacked read c.pending := by
    obtain ⟨written, hschedule⟩ := exists_schedule_of_start h
    have hrise : OperatorsRise c.pending :=
      invariant_of_schedule Advance.operatorsRise List.isChain_nil hschedule
    have hopens := Conversion.opens_foldlM h
    have hnone : Conversion.start.opens = 0 := rfl
    rw [hnone, Nat.zero_add] at hopens
    exact hrise.stacked hopens
  refine ⟨convertAll_of_foldlM h, hstacked, ?_⟩
  intro taken left hpending htaken
  rw [hpending] at hstacked
  exact hstacked.below htaken

/-- An operator that is none of the operations. -/
def foreignOperator (name : String) (precedence : Int) : Token :=
  ⟨some .operator, name, 2, precedence⟩

/-- The row `(a,b c sin d(e)f(g` with operators `a` to `g`. -/
def foreignRow : List Token :=
  [.plain .openBracket "(", foreignOperator "a" 6, .plain .separator ",",
    foreignOperator "b" (-5), foreignOperator "c" 0, (Operation.unary .sin).token,
    foreignOperator "d" (-9), .plain .openBracket "(", foreignOperator "e" 3,
    .plain .closeBracket ")", foreignOperator "f" (-9), .plain .openBracket "(",
    foreignOperator "g" 7]

/-- What waits when the row has been read: `c` on top of `b`, and above the function `f` alone, which
has had `d` written. -/
def foreignPending : List Token :=
  [foreignOperator "g" 7, .plain .openBracket "(", foreignOperator "f" (-9),
    (Operation.unary .sin).token, foreignOperator "c" 0, foreignOperator "b" (-5),
    .plain .openBracket "("]

/-- Two brackets are open behind the row, so that the last of three closing brackets fails. -/
theorem stacked_of_foldlM_foreignRow :
    foreignRow.foldlM (Conversion.step ⟨3, "I"⟩) Conversion.start =
      .ok ⟨foreignPending, ["d", "e", "a"]⟩ ∧
    convertAll ⟨3, "I"⟩ (foreignRow.map .ok ++ List.replicate 3 (.ok (.plain .closeBracket ")"))) =
      .error (.ofCause .mismatchedBracket) ∧
    Stacked foreignRow foreignPending ∧
    Stacked foreignRow foreignPending.tail := by
  have hread : foreignRow.foldlM (Conversion.step ⟨3, "I"⟩) Conversion.start =
      .ok ⟨foreignPending, ["d", "e", "a"]⟩ := rfl
  obtain ⟨hbehind, hstacked, hbelow⟩ := stacked_of_foldlM ⟨3, "I"⟩ foreignRow _ hread
  refine ⟨hread, ?_, hstacked, hbelow [foreignOperator "g" 7] _ rfl (by decide)⟩
  rw [hbehind]
  rfl

end ComplexCalculator.Rpn
