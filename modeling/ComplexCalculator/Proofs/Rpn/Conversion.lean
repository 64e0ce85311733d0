import ComplexCalculator.Proofs.Expression.Literal
import ComplexCalculator.Proofs.Rpn.Formula
import ComplexCalculator.Proofs.Rpn.Schedule

/-!
# Correctness of the conversion

The entries of a formula are those of its tree, every operation behind its operands.  While
the tokens of a formula are read, some entries of its tree are written and some operators
still wait: the two rows `written` and `waiting` make up the listing of the tree.  What
waited before the formula is neither written nor covered with anything else, because it
either is an opening bracket or binds too loosely.
-/

namespace ComplexCalculator

namespace Formula

variable {level : Level}

/-- The part of the listing that is written when the formula has been read. -/
def written : {level : Level} → Formula level → List Token
  | _, .single body => body.written
  | _, .times left _ right => left.tree.listing ++ right.written
  | _, .term body => body.written
  | _, .plus left _ right => left.tree.listing ++ right.written
  | _, e => e.tree.listing

/-- The operators that still wait when the formula has been read, the latest first. -/
def waiting : {level : Level} → Formula level → List Token
  | _, .single body => body.waiting
  | _, .times _ operator right => right.waiting ++ [.binary operator.operation]
  | _, .term body => body.waiting
  | _, .plus _ operator right => right.waiting ++ [.binary operator.operation]
  | _, _ => []

theorem written_append_waiting (e : Formula level) : e.written ++ e.waiting = e.tree.listing := by
  induction e with
  | single body ih => exact ih
  | term body ih => exact ih
  | times left operator right ihLeft ihRight =>
      rw [written, waiting, tree, Tree.listing, List.append_assoc, ← List.append_assoc _ _ [_],
        ihRight, List.append_assoc]
  | plus left operator right ihLeft ihRight =>
      rw [written, waiting, tree, Tree.listing, List.append_assoc, ← List.append_assoc _ _ [_],
        ihRight, List.append_assoc]
  | _ => simp [written, waiting]

/-- Only operators wait, and they bind at least as tightly as the level says. -/
theorem of_mem_waiting (e : Formula level) :
    ∀ token ∈ e.waiting, token.kind = some .operator ∧ level.precedence ≤ token.precedence := by
  have hmono {a b : Level} {tokens : List Token} (hle : a.precedence ≤ b.precedence)
      (h : ∀ token ∈ tokens, token.kind = some .operator ∧ b.precedence ≤ token.precedence) :
      ∀ token ∈ tokens, token.kind = some .operator ∧ a.precedence ≤ token.precedence :=
    fun token htoken => ⟨(h token htoken).1, Int.le_trans hle (h token htoken).2⟩
  induction e with
  | single body ih => exact hmono (by decide) ih
  | term body ih => exact hmono (by decide) ih
  | times left operator right ihLeft ihRight =>
      intro token htoken
      rcases List.mem_append.mp htoken with htoken | htoken
      · exact hmono (by decide) ihRight token htoken
      · obtain rfl := List.mem_singleton.mp htoken
        simp
  | plus left operator right ihLeft ihRight =>
      intro token htoken
      rcases List.mem_append.mp htoken with htoken | htoken
      · exact hmono (by decide) ihRight token htoken
      · obtain rfl := List.mem_singleton.mp htoken
        simp
  | _ => simp [waiting]

end Formula

/-- Whether every number of the tree is a literal of expressions. -/
def Tree.Genuine : Tree → Prop
  | .literal name => ∃ l : Literal, l.name = name
  | .freeVariable => True
  | .unary _ argument => argument.Genuine
  | .binary _ left right => left.Genuine ∧ right.Genuine

namespace Rpn

variable {f : ComplexFormat} {pending : List Token}

/-! ## Rows of tokens -/

/-- While a row of tokens is read, `listing` is written; `pending` waits before and
`pending'` afterwards. -/
def Reads (tokens pending pending' listing : List Token) : Prop :=
  schedule pending tokens = .ok (listing, pending')

/-- Two rows are read one after the other. -/
theorem Reads.append {a b pending pending' pending'' x y : List Token}
    (ha : Reads a pending pending' x) (hb : Reads b pending' pending'' y) :
    Reads (a ++ b) pending pending'' (x ++ y) :=
  schedule_append_eq_ok.mpr ⟨x, pending', y, ha, hb, rfl⟩

theorem Reads.cons {token : Token} {rest pending pending' pending'' x y : List Token}
    (hfirst : Reads [token] pending pending' x) (hrest : Reads rest pending' pending'' y) :
    Reads (token :: rest) pending pending'' (x ++ y) :=
  hfirst.append hrest

theorem reads_singleton {token : Token} {pending' listing : List Token} :
    Reads [token] pending pending' listing ↔ Advance pending token listing pending' := by
  rw [Reads, schedule_cons_eq_ok, ← advance_eq_ok_iff]
  constructor
  · rintro ⟨first, next, rest, hadvance, hrest, hlisting⟩
    cases hrest
    rw [List.append_nil] at hlisting
    subst hlisting
    exact hadvance
  · intro h
    exact ⟨listing, pending', [], h, rfl, (List.append_nil listing).symm⟩

theorem reads_number (name : String) : Reads [.number name] pending pending [.number name] :=
  reads_singleton.mpr (.operand (Or.inl rfl))

theorem reads_freeVariable : Reads [.freeVariable] pending pending [.freeVariable] :=
  reads_singleton.mpr (.operand (Or.inr rfl))

theorem reads_openBracket : Reads [.openBracket] pending (.openBracket :: pending) [] :=
  reads_singleton.mpr (.wait (Or.inl rfl))

theorem reads_function {token : Token} (h : token.kind = some .function) :
    Reads [token] pending (token :: pending) [] :=
  reads_singleton.mpr (.wait (Or.inr h))

theorem isOpen_of_operator {tokens : List Token}
    (h : ∀ token ∈ tokens, token.kind = some .operator) :
    ∀ token ∈ tokens, Conversion.isOpen token = false := by
  intro token htoken
  rw [Conversion.isOpen, h token htoken]
  decide

/-- A closing bracket writes the operators in the bracket. -/
theorem reads_closeBracket {front : List Token}
    (hfront : ∀ token ∈ front, token.kind = some .operator)
    (hpending : ∀ token ∈ pending.head?, token.kind ≠ some .function) :
    Reads [.closeBracket] (front ++ .openBracket :: pending) pending front := by
  have hsplit : splitFunction pending = ([], pending) := by
    cases pending with
    | nil => rfl
    | cons token rest => exact if_neg (hpending token (by simp))
  have hclose : Advance (front ++ .openBracket :: pending) .closeBracket
      (front ++ (splitFunction pending).1) (splitFunction pending).2 :=
    .closeBracket rfl (isOpen_of_operator hfront) rfl
  rw [hsplit, List.append_nil] at hclose
  exact reads_singleton.mpr hclose

/-- The closing bracket of a function writes the operators in it and the function. -/
theorem reads_closeFunction {front : List Token} {token : Token}
    (hfront : ∀ token ∈ front, token.kind = some .operator)
    (htoken : token.kind = some .function) :
    Reads [.closeBracket] (front ++ .openBracket :: token :: pending) pending
      (front ++ [token]) := by
  have hsplit : splitFunction (token :: pending) = ([token], pending) := if_pos htoken
  have hclose : Advance (front ++ .openBracket :: token :: pending) .closeBracket
      (front ++ (splitFunction (token :: pending)).1) (splitFunction (token :: pending)).2 :=
    .closeBracket rfl (isOpen_of_operator hfront) rfl
  rw [hsplit] at hclose
  exact reads_singleton.mpr hclose

/-- The sign between two arguments writes the operators of the first. -/
theorem reads_separator {front : List Token}
    (hfront : ∀ token ∈ front, token.kind = some .operator) :
    Reads [.separator] (front ++ .openBracket :: pending) (.openBracket :: pending) front :=
  reads_singleton.mpr (.separator rfl (isOpen_of_operator hfront) (by simp [Conversion.isOpen]))

/-- An operator writes the operators before it that bind as tightly, and waits. -/
theorem reads_operator {level : Level} {front : List Token} {token : Token}
    (hkind : token.kind = some .operator) (hlevel : token.precedence = level.precedence)
    (hfront : ∀ t ∈ front, t.kind = some .operator ∧ level.precedence ≤ t.precedence)
    (hpending : ∀ t ∈ pending.head?, t.Admits level) :
    Reads [token] (front ++ pending) (token :: pending) front := by
  refine reads_singleton.mpr (.operator hkind ?_ ?_)
  · intro t ht
    obtain ⟨hoperator, hle⟩ := hfront t ht
    simp [bindsAs, hoperator, hlevel, hle]
  · intro t ht
    by_cases hoperator : t.kind = some .operator
    · have hlt := (hpending t ht).2 hoperator
      simp [bindsAs, hoperator, hlevel, hlt]
    · simp [bindsAs, hoperator]

/-! ## Formulas -/

/-- What waits when a formula of a level begins. -/
def Ready (level : Level) (pending : List Token) : Prop :=
  ∀ token ∈ pending.head?, token.Admits level

theorem Ready.mono {level level' : Level} (h : Ready level pending)
    (hle : level.precedence ≤ level'.precedence) : Ready level' pending := by
  intro token htoken
  exact (h token htoken).mono hle

theorem ready_cons {level : Level} {token : Token} (h : token.Admits level)
    (pending : List Token) : Ready level (token :: pending) := by
  intro t ht
  obtain rfl : token = t := by simpa using ht
  exact h

/-- What a formula does while it is read: a part of its listing is written, and the rest
waits on top of what waited before. -/
def Converts {level : Level} (e : Formula level) : Prop :=
  ∀ {pending}, Ready level pending → Reads e.tokens pending (e.waiting ++ pending) e.written

namespace Converts

variable {level level' : Level}

/-- A sum up to its closing bracket. -/
theorem bracketed {body : Formula .sum} (hbody : Converts body) :
    Converts (.bracketed body) := by
  intro pending h
  have hinner := hbody (ready_cons Token.admits_openBracket pending)
  have hclose : Reads [.closeBracket] (body.waiting ++ .openBracket :: pending) pending
      body.waiting :=
    reads_closeBracket (fun token htoken => (body.of_mem_waiting token htoken).1)
      fun token htoken => (h token htoken).1
  have hall := reads_openBracket.cons (hinner.append hclose)
  rwa [body.written_append_waiting] at hall

/-- The last argument of a function, with the closing bracket, writes the function. -/
theorem lastArgument {argument : Formula .sum} (hargument : Converts argument)
    {function : Token} (hkind : function.kind = some .function) :
    Reads (argument.tokens ++ [.closeBracket]) (.openBracket :: function :: pending) pending
      (argument.tree.listing ++ [function]) := by
  have hinner := hargument (ready_cons Token.admits_openBracket (function :: pending))
  have hclose : Reads [.closeBracket]
      (argument.waiting ++ .openBracket :: function :: pending) pending
      (argument.waiting ++ [function]) :=
    reads_closeFunction (fun token htoken => (argument.of_mem_waiting token htoken).1) hkind
  have hall := hinner.append hclose
  rwa [← List.append_assoc, argument.written_append_waiting] at hall

theorem call {argument : Formula .sum} (hargument : Converts argument)
    (function : UnaryOperation) : Converts (.call function argument) := by
  intro pending _
  exact (reads_function rfl).cons (reads_openBracket.cons (hargument.lastArgument rfl))

theorem power {base exponent : Formula .sum} (hbase : Converts base)
    (hexponent : Converts exponent) : Converts (.power base exponent) := by
  intro pending _
  have hfirst := hbase (ready_cons Token.admits_openBracket (.binary .pow :: pending))
  have hseparator : Reads [.separator]
      (base.waiting ++ .openBracket :: .binary .pow :: pending)
      (.openBracket :: .binary .pow :: pending) base.waiting :=
    reads_separator fun token htoken => (base.of_mem_waiting token htoken).1
  have hlast : Reads (exponent.tokens ++ [.closeBracket])
      (.openBracket :: .binary .pow :: pending) pending
      (exponent.tree.listing ++ [.binary .pow]) :=
    hexponent.lastArgument rfl
  have hall := (reads_function rfl).cons (reads_openBracket.cons
    (hfirst.append (hseparator.cons hlast)))
  rwa [← List.append_assoc base.written, base.written_append_waiting,
    ← List.append_assoc base.tree.listing] at hall

/-- An operator between two formulas lets those of the left one be written that bind as
tightly, and waits itself below those of the right one. -/
theorem operation {left : Formula level} {right : Formula level'} (hleft : Converts left)
    {token : Token} (hright : Converts right) (hkind : token.kind = some .operator)
    (hlevel : token.precedence = level.precedence) (hadmits : token.Admits level')
    (h : Ready level pending) :
    Reads (left.tokens ++ token :: right.tokens) pending
      (right.waiting ++ [token] ++ pending) (left.tree.listing ++ right.written) := by
  have hoperator : Reads [token] (left.waiting ++ pending) (token :: pending) left.waiting :=
    reads_operator hkind hlevel left.of_mem_waiting h
  have hall := (hleft h).append (hoperator.cons (hright (ready_cons hadmits pending)))
  rwa [← List.append_assoc, left.written_append_waiting, List.append_cons right.waiting] at hall

end Converts

/-- Every formula is read in this way, by induction on the formula. -/
theorem converts_formula {level : Level} (e : Formula level) : Converts e := by
  induction e with
  | literal name => exact fun _ => reads_number name
  | freeVariable => exact fun _ => reads_freeVariable
  | bracketed body ih => exact ih.bracketed
  | call function argument ih => exact ih.call function
  | power base exponent ihBase ihExponent => exact ihBase.power ihExponent
  | single body ih => exact fun h => ih (h.mono (by decide))
  | term body ih => exact fun h => ih (h.mono (by decide))
  | times left operator right ihLeft ihRight =>
      intro pending h
      exact ihLeft.operation ihRight (Token.kind_factorOperator operator)
        (Token.precedence_factorOperator operator) (Token.admits_factorOperator operator) h
  | plus left operator right ihLeft ihRight =>
      intro pending h
      exact ihLeft.operation ihRight (Token.kind_termOperator operator)
        (Token.precedence_termOperator operator) (Token.admits_termOperator operator) h

/-- A formula is arranged as the listing of its tree. -/
theorem arrange_formula (e : Formula .sum) : arrange e.tokens = .ok e.tree.listing := by
  have hreads : schedule [] e.tokens = .ok (e.written, e.waiting) := by
    have hready : Ready .sum [] := by simp [Ready]
    have h := converts_formula e hready
    rwa [List.append_nil] at h
  have hkept : e.waiting.filter (!Conversion.isOpen ·) = e.waiting := by
    rw [List.filter_eq_self]
    intro token htoken
    rw [isOpen_of_operator (fun t ht => (e.of_mem_waiting t ht).1) token htoken]
    rfl
  have hrow : arrange e.tokens =
      .ok (e.written ++ e.waiting.filter (!Conversion.isOpen ·)) := by
    rw [arrange, hreads]
    rfl
  rw [hrow, hkept, e.written_append_waiting]

/-- The finished conversion of a formula is the listing of its tree. -/
theorem convert_eq (f : ComplexFormat) (e : Formula .sum) :
    convert f e.tokens = (e.tree.listing.mapM (entry f)).map List.reverse :=
  convert_of_arrange (arrange_formula e)

/-! ## Totality -/

theorem exists_mapM_entry {tokens : List Token}
    (h : ∀ token ∈ tokens, ∃ text, entry f token = .ok text) :
    ∃ entries, tokens.mapM (entry f) = .ok entries := by
  induction tokens with
  | nil => exact ⟨[], rfl⟩
  | cons token tokens ih =>
      obtain ⟨text, htext⟩ := h token (by simp)
      obtain ⟨entries, hentries⟩ := ih fun t ht => h t (by simp [ht])
      refine ⟨text :: entries, ?_⟩
      rw [List.mapM_cons, htext, hentries]
      rfl

/-- Every token of a tree of literals has an entry. -/
theorem exists_entry_of_genuine (hsymbol : f.symbol = Alphabet.imaginaryUnit.toString)
    (hplaces : f.precision ≤ ComplexFormat.maxPlaces) {t : Tree} (h : t.Genuine) :
    ∀ token ∈ t.listing, ∃ text, entry f token = .ok text := by
  induction t with
  | literal name =>
      obtain ⟨l, rfl⟩ := h
      intro token htoken
      obtain rfl := List.mem_singleton.mp htoken
      obtain ⟨text, htext, -⟩ := l.exists_entry hsymbol hplaces
      exact ⟨text, htext⟩
  | freeVariable =>
      intro token htoken
      obtain rfl := List.mem_singleton.mp htoken
      exact ⟨_, rfl⟩
  | unary operation argument ih =>
      intro token htoken
      rcases List.mem_append.mp htoken with htoken | htoken
      · exact ih h token htoken
      · obtain rfl := List.mem_singleton.mp htoken
        exact ⟨_, rfl⟩
  | binary operation left right ihLeft ihRight =>
      intro token htoken
      rcases List.mem_append.mp htoken with htoken | htoken
      · rcases List.mem_append.mp htoken with htoken | htoken
        · exact ihLeft h.1 token htoken
        · exact ihRight h.2 token htoken
      · obtain rfl := List.mem_singleton.mp htoken
        refine ⟨_, if_neg ?_⟩
        cases operation <;> decide

theorem exists_entries (hsymbol : f.symbol = Alphabet.imaginaryUnit.toString)
    (hplaces : f.precision ≤ ComplexFormat.maxPlaces) {t : Tree} (h : t.Genuine) :
    ∃ entries, t.listing.mapM (entry f) = .ok entries :=
  exists_mapM_entry (exists_entry_of_genuine hsymbol hplaces h)

/-- A row of tokens that a formula is written with is converted into the listing of the
tree, kept in reverse, or fails with the first number that has no entry.  No other formula
is written with these tokens, formulas with one tree are converted alike, and where all
numbers are literals nothing fails. -/
theorem convert_formula (f : ComplexFormat) (e : Formula .sum) :
    (∀ e' : Formula .sum, e'.tokens = e.tokens → e' = e) ∧
    convert f e.tokens = (e.tree.listing.mapM (entry f)).map List.reverse ∧
    (∀ e' : Formula .sum, e'.tree = e.tree → convert f e'.tokens = convert f e.tokens) ∧
    (f.symbol = Alphabet.imaginaryUnit.toString → f.precision ≤ ComplexFormat.maxPlaces →
      e.tree.Genuine → ∃ entries, convert f e.tokens = .ok entries) := by
  refine ⟨?_, convert_eq f e, ?_, ?_⟩
  · intro e' h
    exact Formula.tokens_injective h
  · intro e' h
    rw [convert_eq, convert_eq, h]
  · intro hsymbol hplaces h
    obtain ⟨entries, hentries⟩ := exists_entries hsymbol hplaces h
    exact ⟨entries.reverse, by rw [convert_eq, hentries, Except.map]⟩

/-- The formula of `2-var*3-1`, where `product` is that of `var*3`. -/
def difference (product : Formula .product) : Formula .sum :=
  .plus (.plus (.term (.single (.literal "2"))) .sub product) .sub (.single (.literal "1"))

/-- The formula of `var*3`. -/
def triple : Formula .product := .times (.single .freeVariable) .mul (.literal "3")

/-- A bracket that changes nothing leaves no trace. -/
theorem convert_formula_difference :
    convert ⟨3, "I"⟩ [.number "2", .binary .sub, .openBracket, .freeVariable, .binary .mul,
      .number "3", .closeBracket, .binary .sub, .number "1"] =
        .ok ["-", "1", "-", "*", "3", "var", "2"] ∧
    convert ⟨3, "I"⟩ (difference triple).tokens =
      convert ⟨3, "I"⟩ (difference (.single (.bracketed (.term triple)))).tokens ∧
    ∃ entries, convert ⟨3, "I"⟩ (difference (.single (.bracketed (.term triple)))).tokens =
      .ok entries := by
  have hdigit (c : Char) (h : ∀ d ∈ [c], Text.isDecimalDigit d = true) :
      ∃ l : Literal, l.name = String.ofList [c] :=
    ⟨.real ⟨[c], none, none, h, by simp⟩ (Numeral.unsigned_of_exponent_eq_none rfl), rfl⟩
  obtain ⟨-, hconvert, hsame, htotal⟩ :=
    convert_formula ⟨3, "I"⟩ (difference (.single (.bracketed (.term triple))))
  refine ⟨hconvert, hsame (difference triple) rfl, htotal rfl (by decide) ?_⟩
  exact ⟨⟨hdigit '2' (by decide), trivial, hdigit '3' (by decide)⟩, hdigit '1' (by decide)⟩

end Rpn

end ComplexCalculator
