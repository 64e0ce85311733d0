import ComplexCalculator.Proofs.Binary64.Reader
import ComplexCalculator.Proofs.Session.Precision

/-!
# Literals in the place of the variable

An expression may be given the value of its variable in two ways: as a literal in its text, or
as a number when it is evaluated.  The conversion writes the same entries in both cases, except
that the literal stands in the place of the variable's name, and the text that evaluation puts
there is read as the same number.  No structure of the expression is assumed, so that the two
ways also fail alike.
-/

namespace ComplexCalculator

open Expression (NumberLike)

namespace Token

/-- What tokens of a text are; imaginary numbers need not be literals. -/
abbrev Lexed (token : Token) : Prop := token.Recognized fun name => isNumber name = true

/-- The token with a literal in the place of the variable. -/
def replaceVariable (literal : String) (token : Token) : Token :=
  if token.kind = some .freeVariable then .number literal else token

end Token

namespace Rpn

/-- The entry with a text in the place of the variable. -/
def replaceEntry (text name : String) : String :=
  if name = Alphabet.variableName then text else name

variable {f : ComplexFormat} {literal : String}

/-! ## Entries -/

section

variable (hsymbol : f.symbol = Alphabet.imaginaryUnit.toString)

include hsymbol

/-- Numbers are written as texts that contain a digit or the imaginary unit. -/
theorem numberLike_of_literalEntry {name text : String} (hname : Token.isNumber name = true)
    (h : literalEntry f name = .ok text) : NumberLike text := by
  rw [literalEntry] at h
  split_ifs at h with hunit himaginary
  · exact ComplexFormat.numberLike_of_format hsymbol h
  · obtain ⟨z, -, hformat⟩ := bind_eq_ok_iff.mp h
    exact ComplexFormat.numberLike_of_format hsymbol hformat
  · injection h with h
    subst h
    rw [Token.isNumber, Bool.or_eq_true] at hname
    obtain ⟨n, hn, rfl⟩ := Literal.exists_real (hname.resolve_right himaginary)
    exact Literal.numberLike_name _

variable (hliteral : Token.isRealLiteral literal = true)

include hliteral

theorem entry_replaceVariable {token : Token} (h : token.Lexed) :
    entry f (token.replaceVariable literal) = (entry f token).map (replaceEntry literal) := by
  have hkept {name : String} (hne : name ≠ Alphabet.variableName) :
      replaceEntry literal name = name := if_neg hne
  have hoperation (operation : Operation) := hkept (symbol_ne_variableName operation)
  cases h with
  | openBracket => rfl
  | closeBracket => rfl
  | separator => rfl
  | unary operation => exact congrArg Except.ok (hoperation (.unary operation)).symm
  | binary operation =>
      have hfixed : (Token.binary operation).replaceVariable literal = .binary operation := by
        cases operation <;> rfl
      rw [hfixed, entry_binary]
      exact congrArg Except.ok (hoperation (.binary operation)).symm
  | freeVariable =>
      obtain ⟨n, hn, rfl⟩ := Literal.exists_real hliteral
      exact Literal.literalEntry_real f n hn
  | @number name hname =>
      change literalEntry f name = (literalEntry f name).map _
      cases hentry : literalEntry f name with
      | error failure => rfl
      | ok text =>
          have hlike := numberLike_of_literalEntry hsymbol hname hentry
          exact congrArg Except.ok (hkept hlike.ne_variableName).symm

theorem writeAll_replaceVariable {tokens : List Token}
    (h : ∀ token ∈ tokens, token.Lexed) (output : List String) :
    writeAll f (output.map (replaceEntry literal)) (tokens.map (Token.replaceVariable literal)) =
      (writeAll f output tokens).map (List.map (replaceEntry literal)) := by
  induction tokens generalizing output with
  | nil => rfl
  | cons token tokens ih =>
      rw [List.forall_mem_cons] at h
      rw [List.map_cons, writeAll, writeAll, List.foldlM_cons, List.foldlM_cons,
        entry_replaceVariable hsymbol hliteral h.1]
      cases entry f token with
      | error failure => rfl
      | ok text => exact ih h.2 (text :: output)

end

/-! ## Steps -/

theorem Waits.replaceVariable_eq {token : Token} (h : Waits token) :
    token.replaceVariable literal = token := by
  rw [Token.replaceVariable, if_neg]
  intro hkind
  have hoperand := h.isOperand_eq_false
  rw [isOperand, hkind] at hoperand
  contradiction

/-- The order in which tokens are written does not depend on the variable. -/
theorem advance_replaceVariable {pending : List Token} (hpending : ∀ t ∈ pending, Waits t)
    (token : Token) :
    advance pending (token.replaceVariable literal) =
      (advance pending token).map fun r => (r.1.map (Token.replaceVariable literal), r.2) := by
  by_cases hkind : token.kind = some .freeVariable
  · rw [Token.replaceVariable, if_pos hkind, advance, advance, hkind]
    simp [Except.map, Token.replaceVariable, hkind]
  · rw [Token.replaceVariable, if_neg hkind]
    cases hadvance : advance pending token with
    | error failure => rfl
    | ok r =>
        have hoperands := ((advance_eq_ok_iff.mp hadvance).sameWords hpending).1
        -- A variable that is written is the token that was read.
        have hwritten : ∀ t ∈ r.1, t.replaceVariable literal = t := by
          intro t ht
          rw [Token.replaceVariable, if_neg]
          intro hvariable
          have hoperand : isOperand t = true := by simp [isOperand, hvariable]
          have hmem : t ∈ [token].filter isOperand := by
            rw [← hoperands]
            exact List.mem_filter.mpr ⟨ht, hoperand⟩
          obtain rfl := List.mem_singleton.mp (List.mem_filter.mp hmem).1
          exact hkind hvariable
        have hmap : r.1.map (Token.replaceVariable literal) = r.1 :=
          (List.map_congr_left hwritten).trans (List.map_id r.1)
        exact congrArg Except.ok (Prod.ext hmap.symm rfl)

/-- The conversion with a text in the place of the variable among its entries. -/
def Conversion.replaceEntries (text : String) (c : Conversion) : Conversion :=
  { c with output := c.output.map (replaceEntry text) }

/-- What waits in the conversion of a text: opening brackets and operations. -/
def AwaitsLexed (c : Conversion) : Prop :=
  ∀ t ∈ c.pending, Waits t ∧ t.Lexed

theorem awaitsLexed_step {c c' : Conversion} (hc : AwaitsLexed c) {token : Token}
    (htoken : token.Lexed) (h : c.step f token = .ok c') : AwaitsLexed c' := by
  rw [step_eq fun t ht => (hc t ht).1] at h
  obtain ⟨⟨written, next⟩, hadvance, hafter⟩ := bind_eq_ok_iff.mp h
  obtain ⟨output, -, rfl⟩ := map_eq_ok_iff.mp hafter
  have hadvance := advance_eq_ok_iff.mp hadvance
  intro t ht
  refine ⟨hadvance.waits (fun t ht => (hc t ht).1) t ht, ?_⟩
  rcases List.mem_cons.mp (hadvance.subset (List.mem_append_right written ht)) with rfl | ht
  · exact htoken
  · exact (hc t ht).2

section

variable (hsymbol : f.symbol = Alphabet.imaginaryUnit.toString)
  (hliteral : Token.isRealLiteral literal = true)

include hsymbol hliteral

theorem step_replaceVariable {c : Conversion} (hc : AwaitsLexed c) {token : Token}
    (htoken : token.Lexed) :
    (c.replaceEntries literal).step f (token.replaceVariable literal) =
      (c.step f token).map (Conversion.replaceEntries literal) := by
  have hwaits : ∀ t ∈ c.pending, Waits t := fun t ht => (hc t ht).1
  rw [Conversion.replaceEntries, step_eq hwaits, step_eq hwaits, advance_replaceVariable hwaits]
  cases hadvance : advance c.pending token with
  | error failure => rfl
  | ok r =>
      have hwritten : ∀ t ∈ r.1, t.Lexed := by
        intro t ht
        have hsubset := (advance_eq_ok_iff.mp hadvance).subset
        rcases List.mem_cons.mp (hsubset (List.mem_append_left r.2 ht)) with rfl | ht
        · exact htoken
        · exact (hc t ht).2
      change after f r.2 _ _ = (after f r.2 c.output r.1).map _
      rw [after, after, writeAll_replaceVariable hsymbol hliteral hwritten]
      cases writeAll f c.output r.1 <;> rfl

/-! ## Conversions -/

theorem finish_replaceEntries {c : Conversion} (hc : AwaitsLexed c) :
    (c.replaceEntries literal).finish = c.finish.map (replaceEntry literal) := by
  have hwaits : ∀ t ∈ c.pending, Waits t := fun t ht => (hc t ht).1
  have hkept : (c.pending.filter (!Conversion.isOpen ·)).map (Token.replaceVariable literal) =
      c.pending.filter (!Conversion.isOpen ·) := by
    refine (List.map_congr_left fun t ht => ?_).trans (List.map_id _)
    exact (hwaits t (List.mem_filter.mp ht).1).replaceVariable_eq
  have hlexed : ∀ t ∈ c.pending.filter (!Conversion.isOpen ·), t.Lexed :=
    fun t ht => (hc t (List.mem_filter.mp ht).1).2
  have hentries := writeAll_replaceVariable hsymbol hliteral hlexed c.output
  rw [hkept, writeAll_pending hwaits, writeAll_pending hwaits] at hentries
  injection hentries

/-- The rest of a conversion, whatever has been read before. -/
theorem foldlM_replaceVariable {outcomes : List (Except Failure Token)}
    (h : ∀ token, .ok token ∈ outcomes → token.Lexed) {c : Conversion} (hc : AwaitsLexed c) :
    ((outcomes.map (Except.map (Token.replaceVariable literal))).foldlM
        (fun (c : Conversion) token => token >>= c.step f) (c.replaceEntries literal)).map
          Conversion.finish =
      ((outcomes.foldlM (fun (c : Conversion) token => token >>= c.step f) c).map
        Conversion.finish).map (List.map (replaceEntry literal)) := by
  induction outcomes generalizing c with
  | nil => exact congrArg Except.ok (finish_replaceEntries hsymbol hliteral hc)
  | cons outcome outcomes ih =>
      rw [List.map_cons, List.foldlM_cons, List.foldlM_cons]
      cases outcome with
      | error failure => rfl
      | ok token =>
          have htoken := h token (by simp)
          change ((c.replaceEntries literal).step f (token.replaceVariable literal) >>= _).map _ =
            ((c.step f token >>= _).map _).map _
          rw [step_replaceVariable hsymbol hliteral hc htoken]
          cases hstep : c.step f token with
          | error failure => rfl
          | ok next =>
              exact ih (fun token htoken => h token (by simp [htoken]))
                (awaitsLexed_step hc htoken hstep)

/-- An expression with a literal in the place of the variable is converted to the same entries
with the literal in the place of the variable's name, or fails in the same way. -/
theorem convertAll_replaceVariable (text : String) :
    convertAll f ((Expression.tokens text).map (Except.map (Token.replaceVariable literal))) =
      (convertExpression f text).map (List.map (replaceEntry literal)) := by
  have hlexed : ∀ token, .ok token ∈ Expression.tokens text → token.Lexed := by
    intro token htoken
    exact (Expression.recognized_of_mem_tokens htoken).mono fun _ hname => hname.1
  have hstart : AwaitsLexed Conversion.start := by simp [AwaitsLexed, Conversion.start]
  have hfold := foldlM_replaceVariable hsymbol hliteral hlexed hstart
  rw [show Conversion.start.replaceEntries literal = .start from rfl] at hfold
  rw [convertExpression, convertAll, convertAll, hfold]

end

/-! ## Evaluation -/

/-- A text that is read as the value of the variable may stand in its place. -/
theorem evaluate_replaceEntry {text : String} (htext : NumberLike text) {v : Binary64}
    (hv : v.isFinite = true) (hread : f.read text = .ok (.ofReal v)) (rpn : List String) :
    evaluate f (rpn.map (replaceEntry text)) .absent = evaluate f rpn (.real v) := by
  obtain ⟨hreadShortest, hshortest⟩ := read_shortestText f hv
  have halike : List.Forall₂ (Alike f) (rpn.map (replaceEntry text))
      (rpn.map (replaceEntry v.shortestText)) := by
    rw [List.forall₂_map_left_iff, List.forall₂_map_right_iff, List.forall₂_same]
    intro name _
    rw [replaceEntry, replaceEntry]
    split_ifs
    · exact Or.inr ⟨htext, hshortest, hread.trans hreadShortest.symm⟩
    · exact Or.inl rfl
  have hbound : ∀ name ∈ rpn.map (replaceEntry v.shortestText), name ≠ Alphabet.variableName := by
    intro name hname
    obtain ⟨name, -, rfl⟩ := List.mem_map.mp hname
    rw [replaceEntry]
    split_ifs with hvariable
    · exact hshortest.ne_variableName
    · exact hvariable
  have hsame : (rpn.map (replaceEntry v.shortestText)).map (bound v) = rpn.map (bound v) := by
    rw [List.map_map]
    apply List.map_congr_left
    intro name _
    rw [Function.comp_apply, replaceEntry]
    split_ifs with hvariable
    · rw [bound, bound, if_neg hshortest.ne_variableName, if_pos hvariable]
    · rfl
  rw [evaluate_of_alike halike, evaluate_absent hbound v, evaluate, evaluate, evaluateData,
    evaluateData, bindVariable_real, bindVariable_real, hsame]

/-- A literal in the place of the variable has the effect of its value given for the variable,
whether the expression is well formed or not. -/
theorem evaluate_replaceVariable (places : ℕ) (text literal : String)
    (hliteral : Token.isRealLiteral literal = true) :
    ∃ v, Binary64.read? literal = some v ∧ (v.isFinite = true →
      let f : ComplexFormat := ⟨places, Alphabet.imaginaryUnit.toString⟩
      (convertAll f ((Expression.tokens text).map (Except.map (Token.replaceVariable literal))) >>=
          fun rpn => evaluate f rpn .absent) =
        (convertExpression f text >>= fun rpn => evaluate f rpn (.real v))) := by
  obtain ⟨n, hn, rfl⟩ := Literal.exists_real hliteral
  refine ⟨n.decimal.nearest false, Binary64.read?_numeral n, ?_⟩
  intro hfinite f
  have hlike : NumberLike (Literal.real n hn).name := Literal.numberLike_name _
  have hread : f.read (Literal.real n hn).name = .ok (.ofReal (n.decimal.nearest false)) :=
    f.read_real none n
  rw [convertAll_replaceVariable rfl hliteral]
  cases convertExpression f text with
  | error failure => rfl
  | ok rpn => exact evaluate_replaceEntry hlike hfinite hread rpn

/-- Evaluation writes `1e+16` where the literal is `1e16`; the operator stands behind its
operands, and the bracket is not closed. -/
theorem evaluate_replaceVariable_unclosed :
    Token.isRealLiteral "1e16" = true ∧
      ∃ v : Binary64, Binary64.read? "1e16" = some v ∧ v.isFinite = true ∧
        (convertAll ⟨3, "I"⟩
            ((Expression.tokens "((var)(var)-").map (Except.map (Token.replaceVariable "1e16"))) >>=
          fun rpn => evaluate ⟨3, "I"⟩ rpn .absent) =
        (convertExpression ⟨3, "I"⟩ "((var)(var)-" >>=
          fun rpn => evaluate ⟨3, "I"⟩ rpn (.real v)) := by
  have hliteral : Token.isRealLiteral "1e16" = true := by decide +kernel
  have hfinite : (Binary64.read? "1e16").map Binary64.isFinite = some true := by decide +kernel
  obtain ⟨v, hread, h⟩ := evaluate_replaceVariable 3 "((var)(var)-" "1e16" hliteral
  rw [hread] at hfinite
  have hv : v.isFinite = true := Option.some.inj hfinite
  exact ⟨hliteral, v, hread, hv, h hv⟩

end Rpn

end ComplexCalculator
