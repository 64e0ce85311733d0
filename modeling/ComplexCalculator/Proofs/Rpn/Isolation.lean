import ComplexCalculator.Proofs.Expression.Cutting
import ComplexCalculator.Proofs.Expression.NormalText
import ComplexCalculator.Proofs.Rpn.Offence
import ComplexCalculator.Proofs.Rpn.Schedule

/-!
# What brackets isolate

Between an opening bracket and its closing bracket a conversion goes on as if it had just begun:
the bracket hides what waits below it.  When the bracket is closed, the entries of what it
encloses have been written, and so is the function in front of the bracket, if there is one.
Hence a bracketed row is converted like a number in its place.

A function that waits is written by the closing bracket above it, wherever the bracket was opened.
It therefore matters that functions wait on top only while no other token has been read.  This
holds where a function has neither an operand nor another function directly behind it, as in the
tokens of every text.
-/

namespace ComplexCalculator.Rpn

variable {f : ComplexFormat}

namespace Conversion

variable {c c' : Conversion} {token : Token} {below : List Token} {earlier : List String}

/-! ## Conversions on top of others -/

/-- The same conversion above what waits and what has been written before it. -/
def above (below : List Token) (earlier : List String) (c : Conversion) : Conversion :=
  ⟨c.pending ++ below, c.output ++ earlier⟩

theorem finish_above (c : Conversion) (earlier : List String) :
    (c.above [] earlier).finish = c.finish ++ earlier := by
  simp [finish, above]

theorem releaseWhile_above {condition : Token → Bool}
    (hbelow : ∀ t ∈ below.head?, condition t = false) (earlier : List String) (c : Conversion) :
    (c.above below earlier).releaseWhile condition =
      (c.releaseWhile condition).above below earlier := by
  obtain ⟨front, rest, hpending, htake, hdrop, hfront, hrest⟩ :=
    exists_takeWhile_dropWhile condition c.pending
  have hstop : ∀ t ∈ (rest ++ below).head?, condition t = false := by
    cases rest with
    | nil => exact hbelow
    | cons t rest => exact hrest
  obtain ⟨htake', hdrop'⟩ := takeWhile_dropWhile_append condition hfront hstop
  rw [releaseWhile, releaseWhile, htake, hdrop, above, above, hpending]
  simp only [List.append_assoc, htake', hdrop']

section

variable (hbelow : ∀ t ∈ below.head?, isOpen t = true)

include hbelow

theorem kind_of_mem_head? : ∀ t ∈ below.head?, t.kind = some .openBracket := by
  intro t ht
  simpa [isOpen] using hbelow t ht

theorem releaseArgument_above (earlier : List String) (c : Conversion) :
    (c.above below earlier).releaseArgument = c.releaseArgument.above below earlier :=
  releaseWhile_above (by simpa using hbelow) earlier c

theorem pushOperator_above (earlier : List String) (c : Conversion) (token : Token) :
    (c.above below earlier).pushOperator token = (c.pushOperator token).above below earlier := by
  rw [pushOperator, releaseWhile_above]
  · rfl
  · intro t ht
    simp [kind_of_mem_head? hbelow t ht]

theorem releaseFunction_above (earlier : List String) (c : Conversion) :
    (c.above below earlier).releaseFunction = c.releaseFunction.above below earlier := by
  obtain ⟨pending, output⟩ := c
  cases pending with
  | cons token rest =>
      by_cases hfunction : token.kind = some .function <;>
        simp [above, releaseFunction, hfunction]
  | nil =>
      cases below with
      | nil => rfl
      | cons bracket below =>
          have hkind := kind_of_mem_head? hbelow bracket rfl
          simp [above, releaseFunction, hkind]

/-- A closing bracket does not reach below a conversion in which a bracket is open. -/
theorem close_above (hopen : c.opens ≠ 0 ∨ below = []) :
    (c.above below earlier).close = c.close.map (above below earlier) := by
  rw [close, close, releaseArgument_above hbelow]
  cases hpending : c.releaseArgument.pending with
  | cons bracket rest =>
      have habove : (c.releaseArgument.above below earlier).pending =
          bracket :: (rest ++ below) := by
        rw [above, hpending]
        rfl
      rw [habove]
      exact congrArg Except.ok
        (releaseFunction_above hbelow earlier { c.releaseArgument with pending := rest })
  | nil =>
      rcases hopen with hopen | rfl
      · rw [← opens_releaseArgument, opens, hpending] at hopen
        contradiction
      · rw [above, hpending]
        rfl

/-- A step on top of an open bracket does what it does by itself. -/
theorem step_above (hclose : token.kind = some .closeBracket → c.opens ≠ 0 ∨ below = []) :
    (c.above below earlier).step f token = (c.step f token).map (above below earlier) := by
  unfold step
  split <;> rename_i hkind
  · exact congrArg Except.ok (releaseArgument_above hbelow earlier c)
  · rfl
  · exact close_above hbelow (hclose hkind)
  · cases literalEntry f token.name <;> rfl
  · rfl
  · exact congrArg Except.ok (pushOperator_above hbelow earlier c token)
  · rfl
  · rfl

/-- A run on top of an open bracket that succeeds by itself, or any run on top of nothing, does
what it does by itself. -/
theorem foldlM_step_above {tokens : List Token}
    (h : (∃ c', tokens.foldlM (step f) c = .ok c') ∨ below = []) :
    tokens.foldlM (step f) (c.above below earlier) =
      (tokens.foldlM (step f) c).map (above below earlier) := by
  induction tokens generalizing c with
  | nil => rfl
  | cons token tokens ih =>
      have hclose : token.kind = some .closeBracket → c.opens ≠ 0 ∨ below = [] := by
        intro hkind
        refine h.imp_left ?_
        rintro ⟨c', hrun⟩ hzero
        have herror : c.step f token = .error (.ofCause .mismatchedBracket) := by
          rw [step, hkind]
          exact close_eq_error hzero
        rw [List.foldlM_cons, herror] at hrun
        contradiction
      rw [List.foldlM_cons, List.foldlM_cons, step_above hbelow hclose]
      cases hstep : c.step f token with
      | error failure => rfl
      | ok next =>
          rw [List.foldlM_cons, hstep] at h
          exact ih h

end

/-- When a bracket is closed, the entries of a finished conversion in it are written. -/
theorem close_above_bracket {bracket : Token} (hbracket : isOpen bracket = true)
    (hopens : c.opens = 0) :
    (c.above (bracket :: below) earlier).close =
      .ok (releaseFunction ⟨below, c.finish ++ earlier⟩) := by
  have hnone : ∀ t ∈ c.pending, (!isOpen t) = true := by
    rw [opens, List.countP_eq_zero] at hopens
    simpa using hopens
  have hhead : ∀ t ∈ (bracket :: below).head?, (!isOpen t) = false := by simpa using hbracket
  obtain ⟨htake, hdrop⟩ := takeWhile_dropWhile_append (!isOpen ·) hnone hhead
  rw [close, releaseArgument, releaseWhile, above]
  dsimp only
  rw [htake, hdrop, finish, List.filter_eq_self.mpr hnone, List.append_assoc]

end Conversion

/-! ## Bracketed rows -/

variable {a : List Token} {rpn : List String}

/-- A bracketed row that leaves no bracket open writes its entries, and then a function that waits
in front of the bracket is written. -/
theorem foldlM_step_bracketed (h : convert f a = .ok rpn)
    (hbalanced : a.countP Conversion.isOpen = a.countP (·.kind == some .closeBracket))
    (pending : List Token) (output : List String) :
    (.openBracket :: (a ++ [.closeBracket])).foldlM (Conversion.step f) ⟨pending, output⟩ =
      .ok (Conversion.releaseFunction ⟨pending, rpn ++ output⟩) := by
  rw [convert_eq_foldlM] at h
  obtain ⟨c, hrun, rfl⟩ := map_eq_ok_iff.mp h
  have hopens : c.opens = 0 := by
    have hcount := Conversion.opens_foldlM hrun
    rw [hbalanced, Nat.add_right_cancel_iff] at hcount
    exact hcount
  have hbracket : ∀ t ∈ (Token.openBracket :: pending).head?, Conversion.isOpen t = true := by
    rintro t ⟨⟩
    rfl
  have hopen : Conversion.step f ⟨pending, output⟩ .openBracket =
      .ok (Conversion.start.above (.openBracket :: pending) output) := rfl
  have hinside : a.foldlM (Conversion.step f)
      (Conversion.start.above (.openBracket :: pending) output) =
        .ok (c.above (.openBracket :: pending) output) := by
    rw [Conversion.foldlM_step_above hbracket (Or.inl ⟨c, hrun⟩)]
    exact congrArg (Except.map _) hrun
  have hclose : Conversion.step f (c.above (.openBracket :: pending) output) .closeBracket =
      .ok (Conversion.releaseFunction ⟨pending, c.finish ++ output⟩) :=
    Conversion.close_above_bracket rfl hopens
  rw [List.foldlM_cons, hopen, ok_bind, List.foldlM_append, hinside, ok_bind, List.foldlM_cons,
    hclose]
  rfl

/-- What is converted behind other rows is written behind their entries. -/
theorem foldlM_step_behind (tokens pending : List Token) (output : List String) :
    (tokens.foldlM (Conversion.step f) ⟨pending, output⟩).map Conversion.finish =
      ((tokens.foldlM (Conversion.step f) ⟨pending, []⟩).map Conversion.finish).map
        (· ++ output) := by
  have hnone : ∀ t ∈ ([] : List Token).head?, Conversion.isOpen t = true := by simp
  have habove : (⟨pending, output⟩ : Conversion) = Conversion.above [] output ⟨pending, []⟩ := by
    simp [Conversion.above]
  rw [habove, Conversion.foldlM_step_above hnone (Or.inr rfl)]
  cases tokens.foldlM (Conversion.step f) ⟨pending, []⟩ with
  | error failure => rfl
  | ok c => exact congrArg Except.ok (c.finish_above output)

/-! ## Functions that wait -/

/-- Whether no function of a row has an operand or another function directly behind it. -/
def FunctionsApart (tokens : List Token) : Prop :=
  tokens.IsChain fun a b =>
    a.kind = some .function → isOperand b = false ∧ b.kind ≠ some .function

instance : DecidablePred FunctionsApart := fun tokens =>
  inferInstanceAs (Decidable (tokens.IsChain _))

/-- Whether no function waits directly on top of another one. -/
def FunctionsSingle (pending : List Token) : Prop :=
  pending.IsChain fun a b => a.kind = some .function → b.kind ≠ some .function

variable {pending written next : List Token} {token : Token}

/-- A step leaves a function on top only if it has read one. -/
theorem Advance.functionsSingle (h : Advance pending token written next)
    (hpending : FunctionsSingle pending)
    (htop : ∀ t ∈ pending.head?, t.kind = some .function →
      isOperand token = false ∧ token.kind ≠ some .function) :
    FunctionsSingle next ∧
      ∀ t ∈ next.head?, t.kind = some .function → token.kind = some .function := by
  cases h with
  | operand hkind =>
      refine ⟨hpending, ?_⟩
      intro t ht hfunction
      have hoperand := (htop t ht hfunction).1
      rcases hkind with hkind | hkind <;> simp [isOperand, hkind] at hoperand
  | wait _ =>
      refine ⟨List.isChain_cons.mpr ⟨?_, hpending⟩, by simp⟩
      intro t ht hfunction htop'
      exact (htop t ht htop').2 hfunction
  | operator hkind _ _ =>
      refine ⟨List.isChain_cons.mpr ⟨?_, hpending.right_of_append⟩, by simp⟩
      intro t _ hfunction
      rw [hkind] at hfunction
      contradiction
  | separator _ _ hrest =>
      refine ⟨hpending.right_of_append, ?_⟩
      intro t ht hfunction
      have hopen := hrest t ht
      rw [Conversion.isOpen, hfunction] at hopen
      contradiction
  | @closeBracket front below bracket _ _ _ _ =>
      have hbelow : FunctionsSingle below := hpending.right_of_append.tail
      cases below with
      | nil => exact ⟨hbelow, by simp [splitFunction]⟩
      | cons t below =>
          by_cases hfunction : t.kind = some .function
          · rw [splitFunction, if_pos hfunction]
            refine ⟨hbelow.tail, ?_⟩
            intro t' ht' hfunction'
            exact absurd hfunction' ((List.isChain_cons.mp hbelow).1 t' ht' hfunction)
          · rw [splitFunction, if_neg hfunction]
            refine ⟨hbelow, ?_⟩
            rintro t' ⟨⟩ hfunction'
            contradiction

/-- Where functions are apart, one is on top only directly behind its own token. -/
theorem functionsSingle_of_schedule {tokens : List Token}
    (h : schedule [] tokens = .ok (written, next)) (hapart : FunctionsApart tokens) :
    FunctionsSingle next ∧ ∀ t ∈ next.head?, t.kind = some .function →
      ∃ last ∈ tokens.getLast?, last.kind = some .function := by
  induction tokens using List.reverseRecOn generalizing written next with
  | nil =>
      cases h
      exact ⟨List.isChain_nil, by simp⟩
  | append_singleton tokens token ih =>
      obtain ⟨first, middle, rest, hfirst, hlast, -⟩ := schedule_append_eq_ok.mp h
      obtain ⟨_, _, _, hadvance, hnil, -⟩ := schedule_cons_eq_ok.mp hlast
      cases hnil
      obtain ⟨htokens, -, hbehind⟩ := List.isChain_append.mp hapart
      obtain ⟨hsingle, htop⟩ := ih hfirst htokens
      obtain ⟨hnext, htop'⟩ := (advance_eq_ok_iff.mp hadvance).functionsSingle hsingle (by
        intro t ht hfunction
        obtain ⟨last, hmem, hkind⟩ := htop t ht hfunction
        exact hbehind last hmem token rfl hkind)
      refine ⟨hnext, ?_⟩
      intro t ht hfunction
      exact ⟨token, by simp, htop' t ht hfunction⟩

/-- No function is on top behind a row that does not end in one. -/
theorem releaseFunction_of_foldlM {tokens : List Token} {c : Conversion}
    (h : tokens.foldlM (Conversion.step f) Conversion.start = .ok c)
    (hapart : FunctionsApart tokens)
    (hlast : ∀ t ∈ tokens.getLast?, t.kind ≠ some .function) (output : List String) :
    Conversion.releaseFunction ⟨c.pending, output⟩ = ⟨c.pending, output⟩ := by
  obtain ⟨written, hschedule⟩ := exists_schedule_of_start h
  have htop := (functionsSingle_of_schedule hschedule hapart).2
  rw [releaseFunction_eq]
  cases hpending : c.pending with
  | nil => rfl
  | cons t rest =>
      have hkind : t.kind ≠ some .function := by
        intro hfunction
        obtain ⟨last, hmem, hlast'⟩ := htop t (by rw [hpending]; rfl) hfunction
        exact hlast last hmem hlast'
      rw [splitFunction, if_neg hkind]
      rfl

/-! ## Functions in texts -/

theorem undivided_of_isWord {piece : List Char} (h : Expression.IsWord piece) :
    Expression.Undivided piece := by
  intro c hc
  have hmark := h.not_mark c hc
  rw [Expression.isMark, Bool.or_eq_false_iff] at hmark
  exact ⟨hmark.1, h.not_blank c hc⟩

/-- The name of an operand or a function is a word. -/
theorem undivided_of_classify {piece : String} (hpiece : IsPiece piece)
    (h : Token.classify piece = .ok token)
    (hkind : isOperand token = true ∨ token.kind = some .function) :
    Expression.Undivided piece.toList := by
  rw [← Token.name_of_classify h]
  cases Token.classify_eq_ok h with
  | openBracket => exact absurd hkind (by decide)
  | closeBracket => exact absurd hkind (by decide)
  | separator => exact absurd hkind (by decide)
  | unary operation => exact undivided_of_isWord (Expression.isWord_unary operation)
  | binary operation =>
      cases operation with
      | pow => exact undivided_of_isWord Expression.isWord_pow
      | _ => exact absurd hkind (by decide)
  | freeVariable => exact undivided_of_isWord Expression.isWord_variableName
  | number hnumber =>
      obtain ⟨rfl, hnumber⟩ := hnumber
      exact undivided_of_isNumber hpiece hnumber

/-- The name of a function does not end like a numeral. -/
theorem not_numeric_of_classify {piece : String} (h : Token.classify piece = .ok token)
    (hkind : token.kind = some .function) :
    piece.toList.getLast?.any Expression.isNumeric = false := by
  rw [← Token.name_of_classify h]
  cases Token.classify_eq_ok h with
  | unary operation => cases operation <;> decide
  | binary operation =>
      cases operation with
      | pow => decide
      | _ => exact absurd hkind (by decide)
  | number _ => simp at hkind
  | _ => contradiction

/-- Behind the name of a function a text in normal form has no word, since no blank stands
there. -/
theorem isChain_pieces (text : String) :
    (Expression.pieces (Expression.normalize text)).IsChain fun p q =>
      ∀ a b, Token.classify p = .ok a → Token.classify q = .ok b →
        a.kind = some .function → isOperand b = false ∧ b.kind ≠ some .function := by
  rw [List.isChain_iff_forall_rel_of_append_cons_cons]
  intro p q front behind hrow a b ha hb hfunction
  by_contra hnot
  have hword : isOperand b = true ∨ b.kind = some .function := by
    by_contra hnone
    rw [not_or, Bool.not_eq_true] at hnone
    exact hnot hnone
  have hpiece : ∀ piece ∈ front ++ p :: q :: behind, IsPiece piece := by
    rw [← hrow]
    exact fun piece => isPiece_of_mem
  have hp := undivided_of_classify (hpiece p (by simp)) ha (Or.inr hfunction)
  have hq := undivided_of_classify (hpiece q (by simp)) hb hword
  have hcut := Expression.isCutInto_pieces (Expression.normalize text)
  rw [hrow, List.map_append, List.map_cons, List.map_cons] at hcut
  have hblank := hcut.apart (front.map String.toList) p.toList q.toList
    (behind.map String.toList) rfl hp hq
  have hne : p.toList ≠ [] := hcut.ne_nil (by simp)
  have hnormal := Expression.isNormal_toList_normalize text
  obtain ⟨c, hc, hnumeric⟩ := hnormal.exists_numeric hne hblank
  have hnone := not_numeric_of_classify ha hfunction
  rw [Option.mem_def.mp hc, Option.any_some, hnumeric] at hnone
  exact Bool.noConfusion hnone

/-- Tokens of neighbours are neighbours, as long as no piece fails. -/
theorem isChain_untilFailure {R : Token → Token → Prop} {pieces : List String}
    (h : pieces.IsChain fun p q => ∀ a b, Token.classify p = .ok a → Token.classify q = .ok b →
      R a b) :
    (Expression.untilFailure (pieces.map Token.classify)).1.IsChain R := by
  induction pieces with
  | nil => exact List.isChain_nil
  | cons p pieces ih =>
      rw [List.isChain_cons] at h
      rw [List.map_cons]
      cases ha : Token.classify p with
      | error failure => exact List.isChain_nil
      | ok a =>
          refine List.isChain_cons.mpr ⟨?_, ih h.2⟩
          intro b hb
          cases pieces with
          | nil => contradiction
          | cons q pieces =>
              rw [List.map_cons] at hb
              cases hq : Token.classify q with
              | error failure =>
                  rw [hq] at hb
                  contradiction
              | ok b' =>
                  rw [hq] at hb
                  obtain rfl : b' = b := Option.some_inj.mp hb
                  exact h.1 q rfl a b' ha hq

/-- In the tokens of a text functions are apart. -/
theorem functionsApart_tokens (text : String) :
    FunctionsApart (Expression.untilFailure (Expression.tokens text)).1 :=
  isChain_untilFailure (isChain_pieces text)

/-! ## Isolation -/

/-- The entries of what comes behind a place in a row and of what comes in front of it, if what
waits is the same on both sides of the place. -/
def around (f : ComplexFormat) (pre post : List Token) :
    Except Failure (List String × List String) := do
  let c ← pre.foldlM (Conversion.step f) Conversion.start
  let behind ← (post.foldlM (Conversion.step f) ⟨c.pending, []⟩).map Conversion.finish
  return (behind, c.output)

theorem convert_around (pre middle post : List Token) (entries : List String)
    (h : ∀ c, pre.foldlM (Conversion.step f) Conversion.start = .ok c →
      middle.foldlM (Conversion.step f) c = .ok ⟨c.pending, entries ++ c.output⟩) :
    convert f (pre ++ (middle ++ post)) =
      (around f pre post).map fun r => r.1 ++ (entries ++ r.2) := by
  rw [convert_eq_foldlM, around, List.foldlM_append]
  cases hpre : pre.foldlM (Conversion.step f) Conversion.start with
  | error failure => rfl
  | ok c =>
      rw [ok_bind, ok_bind, List.foldlM_append, h c hpre, ok_bind, foldlM_step_behind]
      cases (post.foldlM (Conversion.step f) ⟨c.pending, []⟩).map Conversion.finish <;> rfl

theorem literalEntry_of_not_imaginary {name : String} (h : Token.isImaginary name = false) :
    literalEntry f name = .ok name := by
  have halone : name ≠ Alphabet.imaginaryUnit.toString := by
    rintro rfl
    contradiction
  rw [literalEntry, if_neg halone, h]
  rfl

/-- The tokens of a text have no operand and no function directly behind a function.  In a row of
this kind a bracketed row is converted like a number in its place, and with a function in front of
it like a number in the place of both, except that the entry of the number is replaced by those of
the bracketed row, followed by that of the function; if one conversion fails, the others fail with
the same failure. -/
theorem convert_bracketed (f : ComplexFormat) :
    (∀ text, FunctionsApart (Expression.untilFailure (Expression.tokens text)).1) ∧
    ∀ pre a post rpn, FunctionsApart pre →
      (∀ last ∈ pre.getLast?, last.kind ≠ some .function) →
      a.countP Conversion.isOpen = a.countP (·.kind == some .closeBracket) →
      convert f a = .ok rpn →
      ∃ outcome : Except Failure (List String × List String),
        (∀ x : Token, x.kind = some .number → Token.isImaginary x.name = false →
          convert f (pre ++ x :: post) = outcome.map fun r => r.1 ++ x.name :: r.2) ∧
        convert f (pre ++ .openBracket :: (a ++ .closeBracket :: post)) =
          outcome.map (fun r => r.1 ++ (rpn ++ r.2)) ∧
        ∀ function : Token, function.kind = some .function →
          convert f (pre ++ function :: .openBracket :: (a ++ .closeBracket :: post)) =
            outcome.map fun r => r.1 ++ (function.name :: rpn ++ r.2) := by
  refine ⟨functionsApart_tokens, ?_⟩
  intro pre a post rpn hapart hlast hbalanced ha
  refine ⟨around f pre post, ?_, ?_, ?_⟩
  · intro x hkind hreal
    apply convert_around pre [x] post [x.name]
    intro c _
    have hstep : c.step f x = .ok ⟨c.pending, x.name :: c.output⟩ := by
      rw [Conversion.step, hkind]
      dsimp only
      rw [literalEntry_of_not_imaginary hreal]
      rfl
    rw [List.foldlM_cons, hstep]
    rfl
  · have hbracketed := convert_around pre (.openBracket :: (a ++ [.closeBracket])) post rpn
      fun c hpre => by
        rw [foldlM_step_bracketed ha hbalanced, releaseFunction_of_foldlM hpre hapart hlast]
    simpa using hbracketed
  · intro function hkind
    have hcall := convert_around pre (function :: .openBracket :: (a ++ [.closeBracket])) post
      (function.name :: rpn) fun c _ => by
        have hstep : c.step f function = .ok ⟨function :: c.pending, c.output⟩ := by
          rw [Conversion.step, hkind]
          rfl
        rw [List.foldlM_cons, hstep, ok_bind, foldlM_step_bracketed ha hbalanced]
        simp [Conversion.releaseFunction, hkind]
    simpa using hcall

/-- The row `sin(2)*`. -/
def productStart : List Token :=
  [(Operation.unary .sin).token, .openBracket, .plain .number "2", .closeBracket,
    (Operation.binary .mul).token]

/-- The row `1+`, whose operator lacks an operand. -/
def unfinishedSum : List Token :=
  [.plain .number "1", (Operation.binary .add).token]

/-- The row `1+` in brackets behind `sin(2)*`, in front of any row. -/
theorem convert_bracketed_unfinishedSum :
    FunctionsApart productStart ∧
    (∀ last ∈ productStart.getLast?, last.kind ≠ some .function) ∧
    unfinishedSum.countP Conversion.isOpen =
      unfinishedSum.countP (·.kind == some .closeBracket) ∧
    convert ⟨3, "I"⟩ unfinishedSum = .ok ["+", "1"] ∧
    ∀ post, ∃ outcome : Except Failure (List String × List String),
      convert ⟨3, "I"⟩ (productStart ++ .plain .number "7" :: post) =
        outcome.map (fun r => r.1 ++ "7" :: r.2) ∧
      convert ⟨3, "I"⟩ (productStart ++ .openBracket :: (unfinishedSum ++ .closeBracket :: post)) =
        outcome.map (fun r => r.1 ++ (["+", "1"] ++ r.2)) ∧
      convert ⟨3, "I"⟩ (productStart ++ (Operation.unary .cos).token ::
          .openBracket :: (unfinishedSum ++ .closeBracket :: post)) =
        outcome.map fun r => r.1 ++ ("cos" :: ["+", "1"] ++ r.2) := by
  have hapart : FunctionsApart productStart := by decide
  have hlast : ∀ last ∈ productStart.getLast?, last.kind ≠ some .function := by decide
  have hconvert : convert ⟨3, "I"⟩ unfinishedSum = .ok ["+", "1"] := by
    apply eq_ok_of_toOption
    decide +kernel
  refine ⟨hapart, hlast, rfl, hconvert, ?_⟩
  intro post
  obtain ⟨outcome, hnumber, hbracketed, hcall⟩ :=
    (convert_bracketed ⟨3, "I"⟩).2 productStart unfinishedSum post _ hapart hlast rfl hconvert
  exact ⟨outcome, hnumber (.plain .number "7") rfl (by decide), hbracketed,
    hcall (Operation.unary .cos).token rfl⟩

end ComplexCalculator.Rpn
