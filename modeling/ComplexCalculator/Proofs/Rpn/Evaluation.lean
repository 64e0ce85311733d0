import ComplexCalculator.Proofs.Binary64.Shortest
import ComplexCalculator.Proofs.Rpn.Conversion
import ComplexCalculator.Rpn.Evaluation

/-!
# Correctness of the evaluation

The value of a tree is defined by recursion, and every operation rounds its result to the
places of the format.  Running the listing of a tree puts this value on the stack and
touches nothing below it.
-/

namespace ComplexCalculator

/-- The value of a tree at a value of the variable. -/
def Tree.value (f : ComplexFormat) (v : Binary64) : Tree → Except Failure ComplexNumber
  | .literal name => Rpn.literalEntry f name >>= f.read
  | .freeVariable => .ok (.ofReal v)
  | .unary operation argument => do
    let z ← argument.value f v
    f.rounded (operation.apply z)
  | .binary operation left right => do
    let z ← left.value f v
    let w ← right.value f v
    f.rounded (operation.apply z w)

/-- Whether the variable does not occur in the tree. -/
def Tree.Closed : Tree → Prop
  | .literal _ => True
  | .freeVariable => False
  | .unary _ argument => argument.Closed
  | .binary _ left right => left.Closed ∧ right.Closed

theorem Tree.listing_ne_nil (t : Tree) : t.listing ≠ [] := by
  cases t <;> simp [listing]

/-- Every tree of literals has a value. -/
theorem Tree.exists_value {f : ComplexFormat} (hsymbol : f.symbol = Alphabet.imaginaryUnit.toString)
    (hplaces : f.precision ≤ ComplexFormat.maxPlaces) (v : Binary64) {t : Tree} (h : t.Genuine) :
    ∃ z, t.value f v = .ok z := by
  have hrounded (z : ComplexNumber) : ∃ w, f.rounded z = .ok w :=
    ⟨_, ComplexFormat.rounded_eq_settled hsymbol hplaces z⟩
  induction t with
  | literal name =>
      obtain ⟨l, rfl⟩ := h
      rw [Tree.value, l.literalEntry_read hsymbol]
      cases l with
      | real n hn => exact ⟨_, rfl⟩
      | imaginary n hn => exact hrounded _
  | freeVariable => exact ⟨_, rfl⟩
  | unary operation argument ih => exact exists_bind_eq_ok (ih h) fun z => hrounded _
  | binary operation left right ihLeft ihRight =>
      exact exists_bind_eq_ok (ihLeft h.1) fun z =>
        exists_bind_eq_ok (ihRight h.2) fun w => hrounded _

namespace Rpn

open Expression (NumberLike)

variable {f : ComplexFormat} {v : Binary64}

/-! ## The text of the variable -/

/-- The text in the place of the variable is read as its value. -/
theorem read_shortestText (f : ComplexFormat) (hv : v.isFinite = true) :
    f.read v.shortestText = .ok (.ofReal v) ∧ NumberLike v.shortestText := by
  cases v with
  | nan => contradiction
  | infinite negative => contradiction
  | finite negative x =>
      obtain ⟨n, htext, hread⟩ := Binary64.exists_numeral_shortestText negative x
      constructor
      · have hvalue := f.read_real (if negative then some true else none) n
        rw [← String.ofList_toList (s := (Binary64.finite negative x).shortestText), htext]
        rw [hread] at hvalue
        cases negative <;> exact hvalue
      · obtain ⟨c, hc, hmark⟩ := n.exists_marksNumber
        refine ⟨c, ?_, hmark⟩
        rw [htext]
        exact List.mem_append_right _ hc

/-! ## Steps -/

/-- What a step does to the stack: a literal is put on it, or an operation takes its operands
from it and puts its rounded result there. -/
theorem step_cases {entry : Datum} {stack stack' : List ComplexNumber}
    (h : step f entry stack = .ok stack') :
    (∃ z, f.readDatum entry = .ok z ∧ stack' = z :: stack) ∨
      ∃ (operation : Operation) (rest : List ComplexNumber) (result z : ComplexNumber),
        operation.reduce? stack = some (rest, result) ∧ f.rounded result = .ok z ∧
          stack' = z :: rest := by
  unfold step at h
  split at h
  · split at h
    · obtain ⟨z, hz, rfl⟩ := map_eq_ok_iff.mp h
      exact Or.inl ⟨z, hz, rfl⟩
    · rename_i operation _
      split at h
      · contradiction
      · rename_i rest result hreduce
        obtain ⟨z, hz, rfl⟩ := map_eq_ok_iff.mp h
        exact Or.inr ⟨operation, rest, result, z, hreduce, hz, rfl⟩
  · split_ifs at h
    obtain ⟨z, hz, rfl⟩ := map_eq_ok_iff.mp h
    exact Or.inl ⟨z, hz, rfl⟩

/-- Every step leaves something on the stack. -/
theorem step_ne_nil {entry : Datum} {stack stack' : List ComplexNumber}
    (h : step f entry stack = .ok stack') : stack' ≠ [] := by
  rcases step_cases h with ⟨z, -, rfl⟩ | ⟨-, rest, -, z, -, -, rfl⟩
  · exact List.cons_ne_nil z stack
  · exact List.cons_ne_nil z rest

theorem foldrM_step_ne_nil {entries : List Datum} (hne : entries ≠ [])
    {stack : List ComplexNumber} (h : entries.foldrM (step f) [] = .ok stack) : stack ≠ [] := by
  obtain ⟨entry, rest, rfl⟩ := List.exists_cons_of_ne_nil hne
  rw [List.foldrM_cons] at h
  obtain ⟨below, -, hstep⟩ := bind_eq_ok_iff.mp h
  exact step_ne_nil hstep

theorem eq_of_single {stack : List ComplexNumber} {z : ComplexNumber}
    (h : single stack = .ok z) : stack = [z] := by
  unfold single at h
  split at h
  · injection h with h
    rw [h]
  · contradiction
  · contradiction

/-- The entry that takes the place of a name. -/
def bound (v : Binary64) (name : String) : Datum :=
  if name = Alphabet.variableName then .text v.shortestText else .text name

/-- The effect of a token whose entry is written and evaluated. -/
def run (f : ComplexFormat) (v : Binary64) (stack : List ComplexNumber) (token : Token) :
    Except Failure (List ComplexNumber) :=
  entry f token >>= fun name => step f (bound v name) stack

theorem step_numberLike {name : String} (h : NumberLike name) (stack : List ComplexNumber) :
    step f (.text name) stack = (f.read name).map (· :: stack) := by
  rw [step, h.ofSymbol?_eq_none]

theorem symbol_ne_variableName (operation : Operation) :
    operation.symbol ≠ Alphabet.variableName := by
  rcases operation with operation | operation <;> cases operation <;> decide

theorem bound_symbol (v : Binary64) (operation : Operation) :
    bound v operation.symbol = .text operation.symbol := by
  rw [bound, if_neg (symbol_ne_variableName operation)]

theorem entry_binary (operation : BinaryOperation) :
    entry f (.binary operation) = .ok (Operation.binary operation).symbol := by
  cases operation <;> rfl

theorem run_number (hsymbol : f.symbol = Alphabet.imaginaryUnit.toString)
    (hplaces : f.precision ≤ ComplexFormat.maxPlaces) (l : Literal)
    (stack : List ComplexNumber) :
    run f v stack (.number l.name) =
      (literalEntry f l.name >>= f.read).map (· :: stack) := by
  obtain ⟨text, htext, hlike⟩ := l.exists_entry hsymbol hplaces
  have hentry : entry f (.number l.name) = literalEntry f l.name := if_pos rfl
  rw [run, hentry, htext]
  change step f (bound v text) stack = (f.read text).map _
  rw [bound, if_neg hlike.ne_variableName, step_numberLike hlike]

theorem run_freeVariable (hv : v.isFinite = true) (stack : List ComplexNumber) :
    run f v stack .freeVariable = .ok (.ofReal v :: stack) := by
  obtain ⟨hread, hlike⟩ := read_shortestText f hv
  change step f (.text v.shortestText) stack = _
  rw [step_numberLike hlike, hread]
  rfl

theorem run_unary (operation : UnaryOperation) (z : ComplexNumber)
    (stack : List ComplexNumber) :
    run f v (z :: stack) (.unary operation) = (f.rounded (operation.apply z)).map (· :: stack) := by
  change step f (bound v (Operation.unary operation).symbol) (z :: stack) = _
  rw [bound_symbol, step, Operation.ofSymbol?_symbol]
  rfl

theorem run_binary (operation : BinaryOperation) (z w : ComplexNumber)
    (stack : List ComplexNumber) :
    run f v (w :: z :: stack) (.binary operation) =
      (f.rounded (operation.apply z w)).map (· :: stack) := by
  rw [run, entry_binary]
  change step f (bound v (Operation.binary operation).symbol) (w :: z :: stack) = _
  rw [bound_symbol, step, Operation.ofSymbol?_symbol]
  rfl

/-! ## Listings -/

/-- Running the listing of a tree puts its value on the stack. -/
theorem foldlM_run_listing (hsymbol : f.symbol = Alphabet.imaginaryUnit.toString)
    (hplaces : f.precision ≤ ComplexFormat.maxPlaces) (hv : v.isFinite = true) {t : Tree}
    (h : t.Genuine) (stack : List ComplexNumber) :
    t.listing.foldlM (run f v) stack = (t.value f v).map (· :: stack) := by
  induction t generalizing stack with
  | literal name =>
      obtain ⟨l, rfl⟩ := h
      have hrun := run_number (v := v) hsymbol hplaces l stack
      rw [Tree.listing, List.foldlM_cons, hrun, Tree.value]
      cases literalEntry f l.name >>= f.read <;> rfl
  | freeVariable =>
      rw [Tree.listing, List.foldlM_cons, run_freeVariable hv]
      rfl
  | unary operation argument ih =>
      rw [Tree.listing, List.foldlM_append, ih h, Tree.value]
      cases argument.value f v with
      | error failure => rfl
      | ok z =>
          have hrun := run_unary (f := f) (v := v) operation z stack
          change [Token.unary operation].foldlM (run f v) (z :: stack) =
            (f.rounded (operation.apply z)).map _
          rw [List.foldlM_cons, hrun]
          cases f.rounded (operation.apply z) <;> rfl
  | binary operation left right ihLeft ihRight =>
      rw [Tree.listing, List.foldlM_append, List.foldlM_append, ihLeft h.1, Tree.value]
      cases left.value f v with
      | error failure => rfl
      | ok z =>
          change (right.listing.foldlM (run f v) (z :: stack) >>= _) = _
          rw [ihRight h.2]
          cases right.value f v with
          | error failure => rfl
          | ok w =>
              have hrun := run_binary (f := f) (v := v) operation z w stack
              change [Token.binary operation].foldlM (run f v) (w :: z :: stack) =
                (f.rounded (operation.apply z w)).map _
              rw [List.foldlM_cons, hrun]
              cases f.rounded (operation.apply z w) <;> rfl

/-- Entries that were written from tokens have the same effect as the tokens. -/
theorem foldlM_entries {tokens : List Token} {entries : List String}
    (h : tokens.mapM (entry f) = .ok entries) (stack : List ComplexNumber) :
    entries.foldlM (fun stack name => step f (bound v name) stack) stack =
      tokens.foldlM (run f v) stack := by
  induction tokens generalizing entries stack with
  | nil =>
      injection h with h
      subst h
      rfl
  | cons token tokens ih =>
      rw [List.mapM_cons, bind_eq_ok_iff] at h
      obtain ⟨name, hname, h⟩ := h
      rw [bind_eq_ok_iff] at h
      obtain ⟨rest, hrest, h⟩ := h
      injection h with h
      subst h
      rw [List.foldlM_cons, List.foldlM_cons, run, hname]
      change _ = step f (bound v name) stack >>= _
      cases step f (bound v name) stack with
      | error failure => rfl
      | ok stack => exact ih hrest stack

/-! ## Evaluation -/

theorem bindVariable_real (v : Binary64) (names : List String) :
    bindVariable (names.map .text) (.real v) = .ok (names.map (bound v)) := by
  have hbound : (fun name => if isVariable (.text name) then .text v.shortestText else .text name) =
      bound v := by
    funext name
    simp [isVariable, bound]
  rw [← hbound]
  exact congrArg Except.ok List.map_map

theorem evaluate_reverse (f : ComplexFormat) (v : Binary64) (entries : List String) :
    evaluate f entries.reverse (.real v) =
      entries.foldlM (fun stack name => step f (bound v name) stack) [] >>= single := by
  have hrun : (entries.reverse.map (bound v)).foldrM (step f) [] =
      entries.foldlM (fun stack name => step f (bound v name) stack) [] := by
    rw [List.map_reverse, List.foldrM_reverse, List.foldlM_map]
  rw [evaluate, evaluateData, bindVariable_real, ← hrun]
  rfl

/-- The entries of a tree are evaluated to its value. -/
theorem evaluate_listing (hsymbol : f.symbol = Alphabet.imaginaryUnit.toString)
    (hplaces : f.precision ≤ ComplexFormat.maxPlaces) (hv : v.isFinite = true) {t : Tree}
    (h : t.Genuine) {entries : List String} (hentries : t.listing.mapM (entry f) = .ok entries) :
    evaluate f entries.reverse (.real v) = t.value f v := by
  rw [evaluate_reverse, foldlM_entries hentries, foldlM_run_listing hsymbol hplaces hv h]
  cases t.value f v <;> rfl

/-! ## Entries -/

theorem entries_ne_nil {tokens : List Token} {entries : List String}
    (h : tokens.mapM (entry f) = .ok entries) (hne : tokens ≠ []) : entries ≠ [] := by
  obtain ⟨token, rest, rfl⟩ := List.exists_cons_of_ne_nil hne
  rw [List.mapM_cons, bind_eq_ok_iff] at h
  obtain ⟨name, -, h⟩ := h
  rw [bind_eq_ok_iff] at h
  obtain ⟨names, -, h⟩ := h
  injection h with h
  rw [← h]
  exact List.cons_ne_nil name names

theorem exists_token_of_mem_entries {tokens : List Token} {entries : List String}
    (h : tokens.mapM (entry f) = .ok entries) {name : String} (hname : name ∈ entries) :
    ∃ token ∈ tokens, entry f token = .ok name := by
  induction tokens generalizing entries with
  | nil =>
      injection h with h
      simp [← h] at hname
  | cons token tokens ih =>
      rw [List.mapM_cons, bind_eq_ok_iff] at h
      obtain ⟨first, hfirst, h⟩ := h
      rw [bind_eq_ok_iff] at h
      obtain ⟨rest, hrest, h⟩ := h
      injection h with h
      rw [← h, List.mem_cons] at hname
      rcases hname with rfl | hname
      · exact ⟨token, by simp, hfirst⟩
      · obtain ⟨t, ht, hentry⟩ := ih hrest hname
        exact ⟨t, by simp [ht], hentry⟩

/-- No token of a closed tree has the name of the variable for its entry. -/
theorem ne_variableName_of_closed (hsymbol : f.symbol = Alphabet.imaginaryUnit.toString)
    (hplaces : f.precision ≤ ComplexFormat.maxPlaces) {t : Tree} (h : t.Genuine)
    (hclosed : t.Closed) :
    ∀ token ∈ t.listing, ∀ name, entry f token = .ok name → name ≠ Alphabet.variableName := by
  induction t with
  | literal name =>
      obtain ⟨l, rfl⟩ := h
      obtain ⟨text, htext, hlike⟩ := l.exists_entry hsymbol hplaces
      intro token htoken name hname
      obtain rfl := List.mem_singleton.mp htoken
      have heq : Except.ok text = Except.ok name := htext.symm.trans hname
      injection heq with heq
      exact heq ▸ hlike.ne_variableName
  | freeVariable => exact hclosed.elim
  | unary operation argument ih =>
      intro token htoken name hname
      rcases List.mem_append.mp htoken with htoken | htoken
      · exact ih h hclosed token htoken name hname
      · obtain rfl := List.mem_singleton.mp htoken
        injection hname with hname
        exact hname ▸ symbol_ne_variableName (.unary operation)
  | binary operation left right ihLeft ihRight =>
      intro token htoken name hname
      rcases List.mem_append.mp htoken with htoken | htoken
      · rcases List.mem_append.mp htoken with htoken | htoken
        · exact ihLeft h.1 hclosed.1 token htoken name hname
        · exact ihRight h.2 hclosed.2 token htoken name hname
      · obtain rfl := List.mem_singleton.mp htoken
        rw [entry_binary] at hname
        injection hname with hname
        exact hname ▸ symbol_ne_variableName (.binary operation)

/-- With the variable among the entries a value is needed, before anything else. -/
theorem evaluate_absent_of_mem (f : ComplexFormat) {names : List String}
    (h : Alphabet.variableName ∈ names) :
    evaluate f names .absent = .error (.ofCause (.unrecognizedToken Alphabet.variableName)) := by
  have hany : (names.map Datum.text).any isVariable = true := by
    rw [List.any_map, List.any_eq_true]
    exact ⟨_, h, beq_self_eq_true Alphabet.variableName⟩
  rw [evaluate, evaluateData, bindVariable, if_pos hany]
  rfl

/-- Without the variable among the entries no value is needed. -/
theorem evaluate_absent {names : List String}
    (h : ∀ name ∈ names, name ≠ Alphabet.variableName) (v : Binary64) :
    evaluate f names .absent = evaluate f names (.real v) := by
  have habsent : bindVariable (names.map .text) .absent = .ok (names.map .text) := by
    rw [bindVariable, if_neg]
    rw [Bool.not_eq_true, List.any_eq_false]
    intro entry hentry
    obtain ⟨name, hname, rfl⟩ := List.mem_map.mp hentry
    simpa [isVariable] using h name hname
  have hreal : names.map (bound v) = names.map .text := by
    apply List.map_congr_left
    intro name hname
    rw [bound, if_neg (h name hname)]
  rw [evaluate, evaluate, evaluateData, evaluateData, habsent, bindVariable_real, hreal]

end Rpn

end ComplexCalculator
