import ComplexCalculator.Proofs.Failure.Basic
import ComplexCalculator.Rpn.Conversion
import Mathlib.Data.List.TakeWhile
import Mathlib.Tactic.SplitIfs

/-!
# The order of entries

Which tokens a conversion writes, and when, does not depend on how numbers are written.
`advance` reads one token: it gives the tokens that are written and those that wait
afterwards.  A whole row of tokens is arranged in this way, and its conversion consists of
the entries of the arranged row.
-/

namespace ComplexCalculator.Rpn

variable {f : ComplexFormat} {pending : List Token} {output : List String}

/-! ## Entries -/

def entry (f : ComplexFormat) (token : Token) : Except Failure String :=
  if token.kind = some .number then literalEntry f token.name else .ok token.name

/-- The entries of a row of tokens, written in front of earlier ones. -/
def writeAll (f : ComplexFormat) (output : List String) (tokens : List Token) :
    Except Failure (List String) :=
  tokens.foldlM (fun output token => (entry f token).map (· :: output)) output

theorem writeAll_append (a b : List Token) :
    writeAll f output (a ++ b) = writeAll f output a >>= fun output => writeAll f output b :=
  List.foldlM_append

/-- Tokens that are no numbers are written by their names. -/
theorem writeAll_names {tokens : List Token} (output : List String)
    (h : ∀ token ∈ tokens, token.kind ≠ some .number) :
    writeAll f output tokens = .ok ((tokens.map (·.name)).reverse ++ output) := by
  induction tokens generalizing output with
  | nil => rfl
  | cons token tokens ih =>
      have hentry : entry f token = .ok token.name := if_neg (h token (by simp))
      have hrest := ih (token.name :: output) fun t ht => h t (by simp [ht])
      rw [writeAll] at hrest ⊢
      rw [List.foldlM_cons, hentry]
      refine Eq.trans hrest ?_
      simp

theorem writeAll_eq_mapM (output : List String) (tokens : List Token) :
    writeAll f output tokens = (tokens.mapM (entry f)).map (·.reverse ++ output) := by
  induction tokens generalizing output with
  | nil => rfl
  | cons token tokens ih =>
      rw [writeAll, List.foldlM_cons, List.mapM_cons]
      cases entry f token with
      | error failure => rfl
      | ok first =>
          have hrest := ih (first :: output)
          rw [writeAll] at hrest
          refine Eq.trans hrest ?_
          cases tokens.mapM (entry f) with
          | error failure => rfl
          | ok rest => simp [Except.map, Bind.bind, Except.bind, Pure.pure, Except.pure]

/-- A conversion that has written the entries of some tokens, with others waiting. -/
def after (f : ComplexFormat) (pending : List Token) (output : List String)
    (tokens : List Token) : Except Failure Conversion :=
  (writeAll f output tokens).map (Conversion.mk pending)

theorem after_names {tokens : List Token} (h : ∀ token ∈ tokens, token.kind ≠ some .number) :
    after f pending output tokens =
      .ok ⟨pending, (tokens.map (·.name)).reverse ++ output⟩ := by
  rw [after, writeAll_names output h]
  rfl

/-! ## Reading one token -/

/-- The function that waits on top, and what waits below it. -/
def splitFunction : List Token → List Token × List Token
  | [] => ([], [])
  | token :: rest => if token.kind = some .function then ([token], rest) else ([], token :: rest)

/-- Whether a waiting token is an operator that binds at least as tightly as another one. -/
def bindsAs (token waiting : Token) : Bool :=
  waiting.kind == some .operator && token.precedence ≤ waiting.precedence

/-- The tokens that are written when a token is read, and those that wait afterwards. -/
def advance (pending : List Token) (token : Token) : Except Failure (List Token × List Token) :=
  match token.kind with
  | some .separator =>
    .ok (pending.takeWhile (!Conversion.isOpen ·), pending.dropWhile (!Conversion.isOpen ·))
  | some .openBracket => .ok ([], token :: pending)
  | some .closeBracket =>
    match pending.dropWhile (!Conversion.isOpen ·) with
    | [] => .error (.ofCause .mismatchedBracket)
    | _ :: below =>
      .ok (pending.takeWhile (!Conversion.isOpen ·) ++ (splitFunction below).1,
        (splitFunction below).2)
  | some .number => .ok ([token], pending)
  | some .freeVariable => .ok ([token], pending)
  | some .operator =>
    .ok (pending.takeWhile (bindsAs token), token :: pending.dropWhile (bindsAs token))
  | some .function => .ok ([], token :: pending)
  | none => .error (.ofCause (.unrecognizedToken token.name))

/-- The tokens that are written while a row of tokens is read, and those that wait
afterwards. -/
def schedule (pending : List Token) : List Token → Except Failure (List Token × List Token)
  | [] => .ok ([], pending)
  | token :: tokens => do
    let (first, next) ← advance pending token
    let (rest, last) ← schedule next tokens
    return (first ++ rest, last)

/-- A row of tokens in the order in which it is written; brackets and separators are not. -/
def arrange (tokens : List Token) : Except Failure (List Token) :=
  (schedule [] tokens).map fun (written, pending) =>
    written ++ pending.filter (!Conversion.isOpen ·)

theorem splitFunction_append (tokens : List Token) :
    (splitFunction tokens).1 ++ (splitFunction tokens).2 = tokens := by
  unfold splitFunction
  split
  · rfl
  · split_ifs <;> rfl

theorem kind_of_mem_splitFunction {tokens : List Token} :
    ∀ token ∈ (splitFunction tokens).1, token.kind = some .function := by
  unfold splitFunction
  split
  · simp
  · split_ifs with h
    · simpa using h
    · simp

/-- What reading a token can do. -/
inductive Advance : List Token → Token → List Token → List Token → Prop where
  | operand {pending : List Token} {token : Token} :
      token.kind = some .number ∨ token.kind = some .freeVariable →
      Advance pending token [token] pending
  | wait {pending : List Token} {token : Token} :
      token.kind = some .openBracket ∨ token.kind = some .function →
      Advance pending token [] (token :: pending)
  | operator {front rest : List Token} {token : Token} :
      token.kind = some .operator → (∀ t ∈ front, bindsAs token t = true) →
      (∀ t ∈ rest.head?, bindsAs token t = false) →
      Advance (front ++ rest) token front (token :: rest)
  | separator {front rest : List Token} {token : Token} :
      token.kind = some .separator → (∀ t ∈ front, Conversion.isOpen t = false) →
      (∀ t ∈ rest.head?, Conversion.isOpen t = true) →
      Advance (front ++ rest) token front rest
  | closeBracket {front below : List Token} {bracket token : Token} :
      token.kind = some .closeBracket → (∀ t ∈ front, Conversion.isOpen t = false) →
      Conversion.isOpen bracket = true →
      Advance (front ++ bracket :: below) token (front ++ (splitFunction below).1)
        (splitFunction below).2

/-- A row is cut at the first token that does not satisfy a condition. -/
theorem takeWhile_dropWhile_append (condition : Token → Bool) {front rest : List Token}
    (hfront : ∀ t ∈ front, condition t = true) (hrest : ∀ t ∈ rest.head?, condition t = false) :
    (front ++ rest).takeWhile condition = front ∧
      (front ++ rest).dropWhile condition = rest := by
  have hstop : rest.takeWhile condition = [] ∧ rest.dropWhile condition = rest := by
    cases rest with
    | nil => simp
    | cons t rest =>
        have ht := hrest t (by simp)
        simp [ht]
  rw [List.takeWhile_append_of_pos hfront, List.dropWhile_append_of_pos hfront, hstop.1, hstop.2,
    List.append_nil]
  exact ⟨rfl, rfl⟩

theorem exists_takeWhile_dropWhile (condition : Token → Bool) (pending : List Token) :
    ∃ front rest, pending = front ++ rest ∧ pending.takeWhile condition = front ∧
      pending.dropWhile condition = rest ∧ (∀ t ∈ front, condition t = true) ∧
      ∀ t ∈ rest.head?, condition t = false := by
  refine ⟨_, _, List.takeWhile_append_dropWhile.symm, rfl, rfl, ?_, ?_⟩
  · exact fun t ht => List.mem_takeWhile_imp ht
  · intro t ht
    have h := List.head?_dropWhile_not condition pending
    rw [Option.mem_def.mp ht] at h
    exact h

theorem advance_eq_ok_iff {token : Token} {written next : List Token} :
    advance pending token = .ok (written, next) ↔ Advance pending token written next := by
  constructor
  · intro h
    obtain ⟨front, rest, hpending, htake, hdrop, hfront, hrest⟩ :=
      exists_takeWhile_dropWhile (!Conversion.isOpen ·) pending
    unfold advance at h
    split at h <;> rename_i hkind
    · rw [htake, hdrop] at h
      cases h
      rw [hpending]
      exact .separator hkind (by simpa using hfront) (by simpa using hrest)
    · cases h
      exact .wait (Or.inl hkind)
    · rw [htake, hdrop] at h
      cases rest with
      | nil => cases h
      | cons bracket below =>
          cases h
          rw [hpending]
          exact .closeBracket hkind (by simpa using hfront) (by simpa using hrest)
    · cases h
      exact .operand (Or.inl hkind)
    · cases h
      exact .operand (Or.inr hkind)
    · obtain ⟨front, rest, hpending, htake, hdrop, hfront, hrest⟩ :=
        exists_takeWhile_dropWhile (bindsAs token) pending
      rw [htake, hdrop] at h
      cases h
      rw [hpending]
      exact .operator hkind hfront hrest
    · cases h
      exact .wait (Or.inr hkind)
    · cases h
  · intro h
    cases h with
    | operand h => rcases h with h | h <;> rw [advance, h]
    | wait h => rcases h with h | h <;> rw [advance, h]
    | operator h hfront hrest =>
        obtain ⟨htake, hdrop⟩ := takeWhile_dropWhile_append (bindsAs _) hfront hrest
        rw [advance, h]
        dsimp only
        rw [htake, hdrop]
    | separator h hfront hrest =>
        obtain ⟨htake, hdrop⟩ := takeWhile_dropWhile_append (!Conversion.isOpen ·)
          (by simpa using hfront) (by simpa using hrest)
        rw [advance, h]
        dsimp only
        rw [htake, hdrop]
    | @closeBracket front below bracket _ h hfront hbracket =>
        have hhead : ∀ t ∈ (bracket :: below).head?, (!Conversion.isOpen t) = false := by
          simpa using hbracket
        obtain ⟨htake, hdrop⟩ := takeWhile_dropWhile_append (!Conversion.isOpen ·)
          (by simpa using hfront) hhead
        rw [advance, h]
        dsimp only
        rw [htake, hdrop]

/-! ## Operands and operations -/

/-- Whether a token is a number or the variable. -/
def isOperand (token : Token) : Bool :=
  token.kind == some .number || token.kind == some .freeVariable

/-- Whether a token is an operator or a function. -/
def isOperation (token : Token) : Bool :=
  token.kind == some .operator || token.kind == some .function

/-- Only opening brackets and operations wait. -/
def Waits (token : Token) : Prop := Conversion.isOpen token = true ∨ isOperation token = true

theorem Waits.isOperand_eq_false {token : Token} (h : Waits token) : isOperand token = false := by
  simp only [Waits, Conversion.isOpen, isOperation, Bool.or_eq_true, beq_iff_eq] at h
  rcases h with h | h | h <;> rw [isOperand, h] <;> decide

theorem Waits.ne_number {token : Token} (h : Waits token) : token.kind ≠ some .number := by
  intro hkind
  have hoperand := h.isOperand_eq_false
  rw [isOperand, hkind] at hoperand
  contradiction

theorem Waits.isOperation_eq_true {token : Token} (h : Waits token)
    (hopen : Conversion.isOpen token = false) : isOperation token = true := by
  rcases h with h | h
  · rw [hopen] at h
    contradiction
  · exact h

theorem filter_isOperand_eq_nil {tokens : List Token} (h : ∀ t ∈ tokens, Waits t) :
    tokens.filter isOperand = [] := by
  rw [List.filter_eq_nil_iff]
  intro t ht
  rw [(h t ht).isOperand_eq_false]
  decide

theorem isOperation_of_bindsAs {token waiting : Token} (h : bindsAs token waiting = true) :
    isOperation waiting = true := by
  rw [bindsAs, Bool.and_eq_true] at h
  rw [isOperation, h.1, Bool.true_or]

/-- Two rows with the same operands in the same order, and the same operations, each as
often. -/
structure SameWords (a b : List Token) : Prop where
  operands : a.filter isOperand = b.filter isOperand
  operations : (a.filter isOperation).Perm (b.filter isOperation)

theorem SameWords.symm {a b : List Token} (h : SameWords a b) : SameWords b a :=
  ⟨h.operands.symm, h.operations.symm⟩

theorem SameWords.trans {a b c : List Token} (hab : SameWords a b) (hbc : SameWords b c) :
    SameWords a c :=
  ⟨hab.operands.trans hbc.operands, hab.operations.trans hbc.operations⟩

theorem SameWords.mem {a b : List Token} (h : SameWords a b) {token : Token} (htoken : token ∈ a)
    (hkind : isOperand token = true ∨ isOperation token = true) : token ∈ b := by
  rcases hkind with hkind | hkind
  · have hfilter : token ∈ b.filter isOperand := by
      rw [← h.operands]
      exact List.mem_filter.mpr ⟨htoken, hkind⟩
    exact (List.mem_filter.mp hfilter).1
  · have hfilter := h.operations.subset (List.mem_filter.mpr ⟨htoken, hkind⟩)
    exact (List.mem_filter.mp hfilter).1

namespace Advance

variable {token : Token} {written next : List Token}

theorem waits (h : Advance pending token written next) (hpending : ∀ t ∈ pending, Waits t) :
    ∀ t ∈ next, Waits t := by
  cases h with
  | operand _ => exact hpending
  | wait hkind =>
      rw [List.forall_mem_cons]
      refine ⟨?_, hpending⟩
      rcases hkind with hkind | hkind <;> simp [Waits, Conversion.isOpen, isOperation, hkind]
  | operator hkind _ _ =>
      rw [List.forall_mem_append] at hpending
      rw [List.forall_mem_cons]
      exact ⟨Or.inr (by simp [isOperation, hkind]), hpending.2⟩
  | separator _ _ _ =>
      rw [List.forall_mem_append] at hpending
      exact hpending.2
  | @closeBracket front below bracket _ _ _ _ =>
      rw [List.forall_mem_append, List.forall_mem_cons] at hpending
      have hbelow := hpending.2.2
      rw [← splitFunction_append below, List.forall_mem_append] at hbelow
      exact hbelow.2

/-- What is written is an operand or an operation. -/
theorem of_mem_written (h : Advance pending token written next)
    (hpending : ∀ t ∈ pending, Waits t) :
    ∀ t ∈ written, isOperand t = true ∨ isOperation t = true := by
  cases h with
  | operand hkind =>
      rw [List.forall_mem_singleton]
      left
      rcases hkind with hkind | hkind <;> simp [isOperand, hkind]
  | wait _ => simp
  | operator _ hfront _ =>
      intro t ht
      exact Or.inr (isOperation_of_bindsAs (hfront t ht))
  | separator _ hfront _ =>
      rw [List.forall_mem_append] at hpending
      intro t ht
      exact Or.inr ((hpending.1 t ht).isOperation_eq_true (hfront t ht))
  | @closeBracket front below bracket _ _ hfront _ =>
      rw [List.forall_mem_append] at hpending
      intro t ht
      rcases List.mem_append.mp ht with ht | ht
      · exact Or.inr ((hpending.1 t ht).isOperation_eq_true (hfront t ht))
      · right
        simp [isOperation, kind_of_mem_splitFunction t ht]

/-- Nothing is written and nothing waits afterwards except the token and what waited before. -/
theorem subset (h : Advance pending token written next) : written ++ next ⊆ token :: pending := by
  cases h with
  | operand _ => exact List.Subset.refl _
  | wait _ => exact List.Subset.refl _
  | operator _ _ _ => simp
  | separator _ _ _ => simp
  | @closeBracket front below bracket _ _ _ _ =>
      rw [List.append_assoc, splitFunction_append]
      have hbelow : below.Sublist (bracket :: below) := List.sublist_cons_self bracket below
      exact ((hbelow.append_left front).cons token).subset

/-- What is written and what waits afterwards is what waited before and the token, except for
brackets and separators; operands are written at once. -/
theorem sameWords (h : Advance pending token written next) (hpending : ∀ t ∈ pending, Waits t) :
    written.filter isOperand = [token].filter isOperand ∧
      ((written ++ next).filter isOperation).Perm ((pending ++ [token]).filter isOperation) := by
  cases h with
  | operand _ => exact ⟨rfl, List.perm_append_comm.filter _⟩
  | wait hkind =>
      have htoken : isOperand token = false := by
        rcases hkind with hkind | hkind <;> simp [isOperand, hkind]
      refine ⟨by simp [htoken], ?_⟩
      exact (List.perm_append_singleton token pending).symm.filter _
  | @operator _ rest _ hkind _ _ =>
      rw [List.forall_mem_append] at hpending
      refine ⟨by simp [filter_isOperand_eq_nil hpending.1, isOperand, hkind], ?_⟩
      rw [List.append_assoc]
      exact ((List.perm_append_singleton token rest).symm.append_left written).filter _
  | @separator front rest _ hkind _ _ =>
      rw [List.forall_mem_append] at hpending
      refine ⟨by simp [filter_isOperand_eq_nil hpending.1, isOperand, hkind], ?_⟩
      simp [isOperation, hkind]
  | @closeBracket front below bracket _ hkind _ hbracket =>
      rw [List.forall_mem_append, List.forall_mem_cons] at hpending
      have hbelow := hpending.2.2
      rw [← splitFunction_append below, List.forall_mem_append] at hbelow
      have hnone := filter_isOperand_eq_nil hpending.1
      refine ⟨by simp [hnone, filter_isOperand_eq_nil hbelow.1, isOperand, hkind], ?_⟩
      -- Both brackets vanish, and neither is an operation.
      have hopen : bracket.kind = some .openBracket := by simpa [Conversion.isOpen] using hbracket
      rw [List.append_assoc, splitFunction_append]
      simp [isOperation, hkind, hopen]

end Advance

/-! ## Steps of a conversion -/

theorem releaseFunction_eq (below : List Token) (output : List String) :
    Conversion.releaseFunction ⟨below, output⟩ =
      ⟨(splitFunction below).2, ((splitFunction below).1.map (·.name)).reverse ++ output⟩ := by
  unfold Conversion.releaseFunction splitFunction
  cases below with
  | nil => rfl
  | cons token rest =>
      dsimp only
      split_ifs <;> rfl

/-- A step of a conversion writes the entries of what `advance` says. -/
theorem step_eq (h : ∀ t ∈ pending, Waits t) (output : List String) (token : Token) :
    Conversion.step f ⟨pending, output⟩ token =
      advance pending token >>= fun r => after f r.2 output r.1 := by
  have htake (condition : Token → Bool) :
      ∀ t ∈ pending.takeWhile condition, t.kind ≠ some .number := by
    intro t ht
    exact (h t (List.takeWhile_subset condition ht)).ne_number
  unfold Conversion.step advance
  cases hkind : token.kind with
  | none => rfl
  | some kind =>
      cases kind with
      | openBracket => rfl
      | function => rfl
      | separator =>
          dsimp only
          rw [ok_bind, after_names (htake _)]
          rfl
      | operator =>
          dsimp only
          rw [ok_bind, after_names (htake _)]
          rfl
      | freeVariable =>
          dsimp only
          rw [ok_bind, after_names (by simp [hkind])]
          rfl
      | number =>
          have hentry : entry f token = literalEntry f token.name := if_pos hkind
          dsimp only
          rw [ok_bind, after, writeAll, List.foldlM_cons, hentry]
          cases literalEntry f token.name <;> rfl
      | closeBracket =>
          -- No number waits, so that all that is released is written by its name.
          dsimp only
          rw [Conversion.close, Conversion.releaseArgument, Conversion.releaseWhile]
          dsimp only
          cases pending.dropWhile (!Conversion.isOpen ·) with
          | nil => rfl
          | cons bracket below =>
              dsimp only
              rw [ok_bind, releaseFunction_eq, after_names]
              · simp
              · intro t ht
                rcases List.mem_append.mp ht with ht | ht
                · exact htake _ t ht
                · rw [kind_of_mem_splitFunction t ht]
                  decide

/-! ## Rows of tokens -/

theorem schedule_cons_eq_ok {token : Token} {tokens : List Token} {r : List Token × List Token} :
    schedule pending (token :: tokens) = .ok r ↔
      ∃ first next rest, advance pending token = .ok (first, next) ∧
        schedule next tokens = .ok (rest, r.2) ∧ r.1 = first ++ rest := by
  rw [schedule, bind_eq_ok_iff]
  constructor
  · rintro ⟨⟨first, next⟩, hfirst, h⟩
    obtain ⟨⟨rest, last⟩, hrest, h⟩ := bind_eq_ok_iff.mp h
    cases h
    exact ⟨first, next, rest, hfirst, hrest, rfl⟩
  · rintro ⟨first, next, rest, hfirst, hrest, hr⟩
    refine ⟨(first, next), hfirst, bind_eq_ok_iff.mpr ⟨(rest, r.2), hrest, ?_⟩⟩
    exact congrArg (fun written => Except.ok (written, r.2)) hr.symm

/-- Two rows are scheduled one after the other. -/
theorem schedule_append_eq_ok {a b : List Token} {r : List Token × List Token} :
    schedule pending (a ++ b) = .ok r ↔
      ∃ first next rest, schedule pending a = .ok (first, next) ∧
        schedule next b = .ok (rest, r.2) ∧ r.1 = first ++ rest := by
  induction a generalizing pending r with
  | nil =>
      constructor
      · intro h
        exact ⟨[], pending, r.1, rfl, h, rfl⟩
      · rintro ⟨first, next, rest, hfirst, hrest, hr⟩
        cases hfirst
        rw [List.nil_append] at hr
        subst hr
        exact hrest
  | cons token a ih =>
      rw [List.cons_append, schedule_cons_eq_ok]
      constructor
      · rintro ⟨written, middle, _, hadvance, h, hr⟩
        obtain ⟨first, next, rest, hfirst, hrest, rfl⟩ := ih.mp h
        refine ⟨written ++ first, next, rest, ?_, hrest, ?_⟩
        · exact schedule_cons_eq_ok.mpr ⟨written, middle, first, hadvance, hfirst, rfl⟩
        · rw [hr, List.append_assoc]
      · rintro ⟨_, next, rest, h, hrest, hr⟩
        obtain ⟨written, middle, first, hadvance, hfirst, rfl⟩ := schedule_cons_eq_ok.mp h
        refine ⟨written, middle, first ++ rest, hadvance, ?_, ?_⟩
        · exact ih.mpr ⟨first, next, rest, hfirst, hrest, rfl⟩
        · rw [hr, List.append_assoc]

/-- What every step keeps of the tokens that wait is kept by a whole row. -/
theorem invariant_of_schedule {p : List Token → Prop} {tokens written next : List Token}
    (hstep : ∀ {pending token written next}, Advance pending token written next →
      p pending → p next)
    (h : p pending) (hschedule : schedule pending tokens = .ok (written, next)) : p next := by
  induction tokens generalizing pending written with
  | nil =>
      cases hschedule
      exact h
  | cons token tokens ih =>
      obtain ⟨_, _, _, hadvance, hrest, -⟩ := schedule_cons_eq_ok.mp hschedule
      exact ih (hstep (advance_eq_ok_iff.mp hadvance) h) hrest

theorem waits_of_schedule {tokens written next : List Token} (h : ∀ t ∈ pending, Waits t)
    (hschedule : schedule pending tokens = .ok (written, next)) : ∀ t ∈ next, Waits t :=
  invariant_of_schedule (p := fun pending => ∀ t ∈ pending, Waits t) Advance.waits h hschedule

/-- A conversion writes the entries of the scheduled row. -/
theorem foldlM_step_of_schedule {tokens written next : List Token} (h : ∀ t ∈ pending, Waits t)
    (hschedule : schedule pending tokens = .ok (written, next)) (output : List String) :
    tokens.foldlM (Conversion.step f) ⟨pending, output⟩ = after f next output written := by
  induction tokens generalizing pending written output with
  | nil =>
      cases hschedule
      rfl
  | cons token tokens ih =>
      obtain ⟨first, middle, rest, hadvance, hrest, rfl⟩ := schedule_cons_eq_ok.mp hschedule
      rw [List.foldlM_cons, step_eq h, hadvance, ok_bind, after, after, writeAll_append]
      cases writeAll f output first with
      | error failure => rfl
      | ok output => exact ih ((advance_eq_ok_iff.mp hadvance).waits h) hrest output

/-- A conversion that does not fail is scheduled. -/
theorem exists_schedule_of_foldlM {tokens : List Token} {c c' : Conversion}
    (h : ∀ t ∈ c.pending, Waits t) (hfold : tokens.foldlM (Conversion.step f) c = .ok c') :
    ∃ written, schedule c.pending tokens = .ok (written, c'.pending) := by
  induction tokens generalizing c with
  | nil =>
      cases hfold
      exact ⟨[], rfl⟩
  | cons token tokens ih =>
      rw [List.foldlM_cons, step_eq h] at hfold
      obtain ⟨middle, hstep, hfold⟩ := bind_eq_ok_iff.mp hfold
      obtain ⟨⟨first, next⟩, hadvance, hafter⟩ := bind_eq_ok_iff.mp hstep
      obtain ⟨output, -, rfl⟩ := map_eq_ok_iff.mp hafter
      obtain ⟨rest, hrest⟩ := ih ((advance_eq_ok_iff.mp hadvance).waits h) hfold
      exact ⟨first ++ rest, schedule_cons_eq_ok.mpr ⟨first, next, rest, hadvance, hrest, rfl⟩⟩

/-! ## Whole conversions -/

theorem waits_nil : ∀ t ∈ ([] : List Token), Waits t := by
  simp

/-- What waits behind the tokens of a row, if they are read from the beginning. -/
theorem exists_schedule_of_start {tokens : List Token} {c : Conversion}
    (h : tokens.foldlM (Conversion.step f) Conversion.start = .ok c) :
    ∃ written, schedule [] tokens = .ok (written, c.pending) :=
  exists_schedule_of_foldlM (c := Conversion.start) waits_nil h

/-- In the end the entries of what still waits are written. -/
theorem writeAll_pending (h : ∀ t ∈ pending, Waits t) (output : List String) :
    writeAll f output (pending.filter (!Conversion.isOpen ·)) =
      .ok (Conversion.finish ⟨pending, output⟩) :=
  writeAll_names output fun t ht => (h t (List.mem_filter.mp ht).1).ne_number

theorem convert_eq_foldlM (f : ComplexFormat) (tokens : List Token) :
    convert f tokens =
      (tokens.foldlM (Conversion.step f) Conversion.start).map Conversion.finish := by
  rw [convert, convertAll, List.foldlM_map]
  rfl

/-- The conversion of a row that can be arranged consists of the entries of the arranged
row. -/
theorem convert_of_arrange {tokens row : List Token} (h : arrange tokens = .ok row) :
    convert f tokens = (row.mapM (entry f)).map List.reverse := by
  obtain ⟨⟨written, pending⟩, hschedule, rfl⟩ := map_eq_ok_iff.mp h
  have hrow : writeAll f [] (written ++ pending.filter (!Conversion.isOpen ·)) =
      ((written ++ pending.filter (!Conversion.isOpen ·)).mapM (entry f)).map List.reverse := by
    simp [writeAll_eq_mapM]
  rw [← hrow, writeAll_append, convert_eq_foldlM, Conversion.start,
    foldlM_step_of_schedule waits_nil hschedule, after]
  cases writeAll f [] written with
  | error failure => rfl
  | ok output => exact (writeAll_pending (waits_of_schedule waits_nil hschedule) output).symm

/-- What a conversion gives are the entries of an arranged row. -/
theorem exists_arrange_of_convert {tokens : List Token} {rpn : List String}
    (h : convert f tokens = .ok rpn) :
    ∃ row, arrange tokens = .ok row ∧ row.mapM (entry f) = .ok rpn.reverse := by
  have hfold := h
  rw [convert_eq_foldlM] at hfold
  obtain ⟨c, hfold, -⟩ := map_eq_ok_iff.mp hfold
  obtain ⟨written, hschedule⟩ := exists_schedule_of_start hfold
  have harrange : arrange tokens =
      .ok (written ++ c.pending.filter (!Conversion.isOpen ·)) := by
    rw [arrange, hschedule]
    rfl
  rw [convert_of_arrange harrange] at h
  obtain ⟨entries, hentries, rfl⟩ := map_eq_ok_iff.mp h
  exact ⟨_, harrange, by rw [hentries, List.reverse_reverse]⟩

theorem sameWords_of_schedule {tokens written next : List Token} (h : ∀ t ∈ pending, Waits t)
    (hschedule : schedule pending tokens = .ok (written, next)) :
    written.filter isOperand = tokens.filter isOperand ∧
      ((written ++ next).filter isOperation).Perm ((pending ++ tokens).filter isOperation) ∧
      ∀ t ∈ written, isOperand t = true ∨ isOperation t = true := by
  induction tokens generalizing pending written with
  | nil =>
      cases hschedule
      refine ⟨rfl, ?_, by simp⟩
      rw [List.nil_append, List.append_nil]
  | cons token tokens ih =>
      obtain ⟨first, middle, rest, hadvance, hrest, rfl⟩ := schedule_cons_eq_ok.mp hschedule
      have hfirst := advance_eq_ok_iff.mp hadvance
      obtain ⟨hoperands, hoperations⟩ := hfirst.sameWords h
      obtain ⟨hoperands', hoperations', hmem⟩ := ih (hfirst.waits h) hrest
      refine ⟨?_, ?_, ?_⟩
      · rw [List.filter_append, hoperands, hoperands', ← List.filter_append,
          List.singleton_append]
      · have hright := hoperations'.append_left (first.filter isOperation)
        have hleft := hoperations.append_right (tokens.filter isOperation)
        rw [← List.filter_append, ← List.filter_append, ← List.append_assoc,
          ← List.append_assoc] at hright
        rw [← List.filter_append, ← List.filter_append, List.append_assoc pending] at hleft
        exact hright.trans hleft
      · rw [List.forall_mem_append]
        exact ⟨hfirst.of_mem_written h, hmem⟩

/-- Arranging a row keeps the order of the operands, loses no operation, and leaves neither
brackets nor separators. -/
theorem sameWords_of_arrange {tokens row : List Token} (h : arrange tokens = .ok row) :
    SameWords row tokens ∧ ∀ t ∈ row, isOperand t = true ∨ isOperation t = true := by
  obtain ⟨⟨written, pending⟩, hschedule, rfl⟩ := map_eq_ok_iff.mp h
  obtain ⟨hoperands, hoperations, hmem⟩ := sameWords_of_schedule waits_nil hschedule
  have hwaits := waits_of_schedule waits_nil hschedule
  have hnone : (pending.filter (!Conversion.isOpen ·)).filter isOperand = [] :=
    filter_isOperand_eq_nil fun t ht => hwaits t (List.mem_filter.mp ht).1
  have hkept : (pending.filter (!Conversion.isOpen ·)).filter isOperation =
      pending.filter isOperation := by
    rw [List.filter_filter]
    apply List.filter_congr
    intro t _
    cases hoperation : isOperation t with
    | false => rfl
    | true =>
        simp only [isOperation, Bool.or_eq_true, beq_iff_eq] at hoperation
        rcases hoperation with hkind | hkind <;> rw [Conversion.isOpen, hkind] <;> decide
  refine ⟨⟨?_, ?_⟩, ?_⟩
  · rw [List.filter_append, hoperands, hnone, List.append_nil]
  · rw [List.filter_append, hkept, ← List.filter_append]
    exact hoperations
  · rw [List.forall_mem_append]
    refine ⟨hmem, ?_⟩
    intro t ht
    obtain ⟨ht, hopen⟩ := List.mem_filter.mp ht
    exact Or.inr ((hwaits t ht).isOperation_eq_true (by simpa using hopen))

end ComplexCalculator.Rpn
