import ComplexCalculator.Proofs.Failure.Basic
import ComplexCalculator.Rpn.Conversion
import Mathlib.Data.List.TakeWhile
import Mathlib.Tactic.SplitIfs

/-!
# Open brackets

The brackets that wait during a conversion are those that have been opened and not been
closed.  Operators, functions and separators move other tokens around them, and never touch
them.  Hence a closing bracket fails exactly if no bracket is open.
-/

namespace ComplexCalculator.Rpn

theorem countP_dropWhile {α : Type} {p q : α → Bool} (h : ∀ a, p a = true → q a = false)
    (l : List α) : (l.dropWhile p).countP q = l.countP q := by
  have htake : (l.takeWhile p).countP q = 0 := by
    rw [List.countP_eq_zero]
    intro a ha
    rw [h a (List.mem_takeWhile_imp ha)]
    exact Bool.false_ne_true
  rw [← congrArg (List.countP q) (List.takeWhile_append_dropWhile (p := p) (l := l)),
    List.countP_append, htake, Nat.zero_add]

namespace Conversion

variable {f : ComplexFormat} {c c' : Conversion} {token : Token}

/-- The number of brackets that are open. -/
def opens (c : Conversion) : ℕ := c.pending.countP isOpen

/-- How many brackets a token opens. -/
def opening (token : Token) : ℕ := if isOpen token then 1 else 0

/-- How many brackets a token closes. -/
def closing (token : Token) : ℕ := if token.kind = some .closeBracket then 1 else 0

theorem isOpen_of_kind {kind : TokenKind} (h : token.kind = some kind)
    (hkind : kind ≠ .openBracket) : isOpen token = false := by
  rw [isOpen, h]
  simpa using hkind

theorem opening_of_kind {kind : TokenKind} (h : token.kind = some kind)
    (hkind : kind ≠ .openBracket) : opening token = 0 := by
  rw [opening, isOpen_of_kind h hkind]
  rfl

theorem closing_of_kind {kind : TokenKind} (h : token.kind = some kind)
    (hkind : kind ≠ .closeBracket) : closing token = 0 := by
  rw [closing, h, if_neg]
  simpa using hkind

/-! ## Moves -/

theorem opens_write (c : Conversion) (entry : String) : (c.write entry).opens = c.opens := rfl

theorem opens_push (c : Conversion) (token : Token) :
    (c.push token).opens = c.opens + opening token :=
  List.countP_cons

theorem opens_releaseWhile {condition : Token → Bool}
    (h : ∀ t, condition t = true → isOpen t = false) (c : Conversion) :
    (c.releaseWhile condition).opens = c.opens :=
  countP_dropWhile h c.pending

theorem opens_releaseArgument (c : Conversion) : c.releaseArgument.opens = c.opens :=
  opens_releaseWhile (by simp) c

theorem opens_releaseFunction (c : Conversion) : c.releaseFunction.opens = c.opens := by
  unfold releaseFunction
  split
  · rename_i waiting rest hpending
    split_ifs with hfunction
    · rw [opens, opens, hpending, List.countP_cons,
        isOpen_of_kind hfunction (by decide)]
      rfl
    · rfl
  · rfl

theorem opens_pushOperator (c : Conversion) (token : Token) :
    (c.pushOperator token).opens = c.opens + opening token := by
  rw [pushOperator, opens_push]
  congr 1
  apply opens_releaseWhile
  intro t ht
  rw [Bool.and_eq_true, beq_iff_eq] at ht
  exact isOpen_of_kind ht.1 (by decide)

/-! ## Closing brackets -/

theorem close_eq_error (h : c.opens = 0) : c.close = .error (.ofCause .mismatchedBracket) := by
  have hpending : c.releaseArgument.pending = [] := by
    rw [opens, List.countP_eq_zero] at h
    apply List.dropWhile_eq_nil_iff.mpr
    intro t ht
    simpa using h t ht
  rw [close, hpending]

/-- A closing bracket has everything above the latest open bracket written, takes this bracket
away, and has a function below it written. -/
theorem close_cases (h : c.close = .ok c') :
    ∃ bracket rest, isOpen bracket = true ∧ c.releaseArgument.pending = bracket :: rest ∧
      c' = ({ c.releaseArgument with pending := rest }).releaseFunction := by
  have hhead := List.head?_dropWhile_not (!isOpen ·) c.pending
  rw [close] at h
  cases hpending : c.releaseArgument.pending with
  | nil =>
      rw [hpending] at h
      contradiction
  | cons bracket rest =>
      -- What is left begins with the bracket, for the release stops at the first one.
      have hdrop : c.pending.dropWhile (!isOpen ·) = bracket :: rest := hpending
      rw [hdrop, List.head?_cons] at hhead
      rw [hpending] at h
      injection h with h
      exact ⟨bracket, rest, by simpa using hhead, rfl, h.symm⟩

theorem opens_close (h : c.close = .ok c') : c'.opens + 1 = c.opens := by
  obtain ⟨bracket, rest, hopen, hpending, rfl⟩ := close_cases h
  rw [opens_releaseFunction, ← opens_releaseArgument c, opens, opens, hpending, List.countP_cons,
    hopen]
  rfl

theorem exists_close (h : c.opens ≠ 0) : ∃ c', c.close = .ok c' ∧ c'.opens + 1 = c.opens := by
  obtain ⟨c', hclose⟩ : ∃ c', c.close = .ok c' := by
    rw [← opens_releaseArgument, opens] at h
    rw [close]
    cases hpending : c.releaseArgument.pending with
    | nil =>
        rw [hpending] at h
        contradiction
    | cons bracket rest => exact ⟨_, rfl⟩
  exact ⟨c', hclose, opens_close hclose⟩

/-! ## Steps -/

/-- A step opens and closes the brackets of its token, and no others. -/
theorem opens_step (h : c.step f token = .ok c') :
    c'.opens + closing token = c.opens + opening token := by
  unfold step at h
  split at h <;> rename_i hkind
  · injection h with h
    rw [← h, opens_releaseArgument, closing_of_kind hkind (by decide),
      opening_of_kind hkind (by decide)]
  · injection h with h
    rw [← h, opens_push, closing_of_kind hkind (by decide), Nat.add_zero]
  · rw [opening_of_kind hkind (by decide), closing, if_pos hkind, opens_close h, Nat.add_zero]
  · obtain ⟨entry, -, rfl⟩ := map_eq_ok_iff.mp h
    rw [opens_write, closing_of_kind hkind (by decide), opening_of_kind hkind (by decide)]
  · injection h with h
    rw [← h, opens_write, closing_of_kind hkind (by decide), opening_of_kind hkind (by decide)]
  · injection h with h
    rw [← h, opens_pushOperator, closing_of_kind hkind (by decide), Nat.add_zero]
  · injection h with h
    rw [← h, opens_push, closing_of_kind hkind (by decide), Nat.add_zero]
  · contradiction

/-- A row that is read leaves open the brackets that it opens and does not close. -/
theorem opens_foldlM {tokens : List Token} (h : tokens.foldlM (step f) c = .ok c') :
    c'.opens + tokens.countP (·.kind == some .closeBracket) = c.opens + tokens.countP isOpen := by
  induction tokens generalizing c with
  | nil =>
      cases h
      rfl
  | cons token tokens ih =>
      obtain ⟨next, hstep, hrest⟩ := bind_eq_ok_iff.mp h
      have hfirst := opens_step hstep
      have hlater := ih hrest
      rw [List.countP_cons, List.countP_cons]
      simp only [opening, closing, beq_iff_eq] at hfirst ⊢
      omega

/-! ## The end -/

theorem finish_releaseWhile {condition : Token → Bool}
    (h : ∀ t, condition t = true → isOpen t = false) (c : Conversion) :
    (c.releaseWhile condition).finish = c.finish := by
  have htake : (c.pending.takeWhile condition).filter (!isOpen ·) =
      c.pending.takeWhile condition := by
    rw [List.filter_eq_self]
    intro t ht
    rw [h t (List.mem_takeWhile_imp ht)]
    rfl
  have hpending := congrArg (List.filter (!isOpen ·))
    (List.takeWhile_append_dropWhile (p := condition) (l := c.pending))
  rw [List.filter_append, htake] at hpending
  rw [finish, finish, ← hpending, releaseWhile, List.map_append, List.reverse_append,
    List.append_assoc]

theorem finish_releaseFunction (c : Conversion) : c.releaseFunction.finish = c.finish := by
  unfold releaseFunction
  split
  · rename_i waiting rest hpending
    split_ifs with hfunction
    · have hopen := isOpen_of_kind hfunction (by decide)
      simp [finish, hpending, hopen]
    · rfl
  · rfl

/-- A bracket that is closed at the end is dropped, as it is when it stays open. -/
theorem finish_close (h : c.close = .ok c') : c'.finish = c.finish := by
  have hargument : c.releaseArgument.finish = c.finish := finish_releaseWhile (by simp) c
  obtain ⟨bracket, rest, hopen, hpending, rfl⟩ := close_cases h
  rw [finish_releaseFunction, ← hargument]
  simp [finish, hpending, hopen]

end Conversion

end ComplexCalculator.Rpn
