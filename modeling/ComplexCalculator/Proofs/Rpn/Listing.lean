import ComplexCalculator.Proofs.Expression.Acceptance
import ComplexCalculator.Proofs.Rpn.Evaluation

/-!
# Rows that have a value

A row of literals, variables and operations that leaves one value is the listing of a tree.
While the row is read, every value on the stack belongs to a tree, and the listings of these
trees, the lowest first, make up what has been read.
-/

namespace ComplexCalculator

/-- Every tree is what a formula means: brackets around each operation keep it together. -/
theorem Tree.exists_factor (t : Tree) : ∃ e : Formula .factor, e.tree = t := by
  induction t with
  | literal name => exact ⟨.literal name, rfl⟩
  | freeVariable => exact ⟨.freeVariable, rfl⟩
  | unary operation argument ih =>
      obtain ⟨e, rfl⟩ := ih
      exact ⟨.call operation (.term (.single e)), rfl⟩
  | binary operation left right ihLeft ihRight =>
      obtain ⟨a, rfl⟩ := ihLeft
      obtain ⟨b, rfl⟩ := ihRight
      cases operation with
      | mul => exact ⟨.bracketed (.term (.times (.single a) .mul b)), rfl⟩
      | div => exact ⟨.bracketed (.term (.times (.single a) .div b)), rfl⟩
      | add => exact ⟨.bracketed (.plus (.term (.single a)) .add (.single b)), rfl⟩
      | sub => exact ⟨.bracketed (.plus (.term (.single a)) .sub (.single b)), rfl⟩
      | pow => exact ⟨.power (.term (.single a)) (.term (.single b)), rfl⟩

theorem Tree.exists_formula (t : Tree) : ∃ e : Formula .sum, e.tree = t := by
  obtain ⟨e, he⟩ := t.exists_factor
  exact ⟨.term (.single e), he⟩

namespace Rpn

variable {f : ComplexFormat} {v : Binary64}

/-- An operation that does not fail finds its operands on the stack. -/
theorem exists_reduce?_of_run (operation : Operation) {stack stack' : List ComplexNumber}
    (h : run f v stack operation.token = .ok stack') :
    ∃ rest result w, operation.reduce? stack = some (rest, result) ∧ stack' = w :: rest := by
  have hentry : entry f operation.token = .ok operation.symbol := by
    rw [entry, if_neg]
    · rfl
    · rcases operation with operation | operation <;> cases operation <;> decide
  rw [run, hentry, ok_bind, bound_symbol, step, Operation.ofSymbol?_symbol] at h
  cases hreduce : operation.reduce? stack with
  | none =>
      simp only [hreduce] at h
      cases h
  | some found =>
      simp only [hreduce] at h
      obtain ⟨w, -, rfl⟩ := map_eq_ok_iff.mp h
      exact ⟨_, _, w, rfl, rfl⟩

/-- Trees whose values lie on a stack, the uppermost first. -/
structure Forest (stack : List ComplexNumber) (row : List Token) (trees : List Tree) : Prop where
  length_eq : stack.length = trees.length
  genuine : ∀ t ∈ trees, t.Genuine
  listing_eq : trees.reverse.flatMap Tree.listing = row

theorem Forest.cons {stack : List ComplexNumber} {row : List Token} {trees : List Tree}
    (h : Forest stack row trees) (z : ComplexNumber) {t : Tree} (ht : t.Genuine) :
    Forest (z :: stack) (row ++ t.listing) (t :: trees) where
  length_eq := by simp [h.length_eq]
  genuine := by
    rw [List.forall_mem_cons]
    exact ⟨ht, h.genuine⟩
  listing_eq := by simp [h.listing_eq]

theorem Forest.uncons {z : ComplexNumber} {stack : List ComplexNumber} {row : List Token}
    {trees : List Tree} (h : Forest (z :: stack) row trees) :
    ∃ (t : Tree) (rest : List Tree) (before : List Token), t.Genuine ∧
      row = before ++ t.listing ∧ Forest stack before rest := by
  cases trees with
  | nil =>
      have hlength := h.length_eq
      simp at hlength
  | cons t rest =>
      have hgenuine := h.genuine
      rw [List.forall_mem_cons] at hgenuine
      refine ⟨t, rest, _, hgenuine.1, ?_, ⟨?_, hgenuine.2, rfl⟩⟩
      · simp [← h.listing_eq]
      · simpa using h.length_eq

variable (hsymbol : f.symbol = Alphabet.imaginaryUnit.toString)
  (hplaces : f.precision ≤ ComplexFormat.maxPlaces) (hv : v.isFinite = true)

include hsymbol hplaces hv

/-- One more token is either a tree of its own or joins the uppermost trees. -/
theorem Forest.run {stack stack' : List ComplexNumber} {row : List Token} {trees : List Tree}
    (h : Forest stack row trees) {token : Token} (htoken : token.Listed)
    (hrun : run f v stack token = .ok stack') :
    ∃ trees', Forest stack' (row ++ [token]) trees' := by
  cases htoken with
  | literal l =>
      rw [run_number hsymbol hplaces] at hrun
      obtain ⟨z, -, rfl⟩ := map_eq_ok_iff.mp hrun
      exact ⟨_, h.cons z (t := .literal l.name) ⟨l, rfl⟩⟩
  | freeVariable =>
      rw [run_freeVariable hv] at hrun
      injection hrun with hrun
      subst hrun
      exact ⟨_, h.cons _ (t := .freeVariable) trivial⟩
  | unary operation =>
      obtain ⟨_, _, w, hreduce, rfl⟩ := exists_reduce?_of_run (.unary operation) hrun
      cases stack with
      | nil => cases hreduce
      | cons z stack =>
          cases hreduce
          obtain ⟨t, rest, before, ht, rfl, hrest⟩ := h.uncons
          have hjoined := hrest.cons w (t := .unary operation t) ht
          rw [Tree.listing, ← List.append_assoc] at hjoined
          exact ⟨_, hjoined⟩
  | binary operation =>
      obtain ⟨_, _, w, hreduce, rfl⟩ := exists_reduce?_of_run (.binary operation) hrun
      rcases stack with _ | ⟨_, _ | ⟨_, stack⟩⟩
      · cases hreduce
      · cases hreduce
      · cases hreduce
        -- The uppermost value was computed last, so it belongs to the right operand.
        obtain ⟨right, _, _, hright, rfl, hupper⟩ := h.uncons
        obtain ⟨left, rest, before, hleft, rfl, hrest⟩ := hupper.uncons
        have hjoined := hrest.cons w (t := .binary operation left right) ⟨hleft, hright⟩
        rw [Tree.listing, ← List.append_assoc, ← List.append_assoc] at hjoined
        exact ⟨_, hjoined⟩

/-- A whole row, by induction on its tokens. -/
theorem Forest.foldlM_run {stack stack' : List ComplexNumber} {before row : List Token}
    {trees : List Tree} (h : Forest stack before trees) (hrow : ∀ token ∈ row, token.Listed)
    (hrun : row.foldlM (Rpn.run f v) stack = .ok stack') :
    ∃ trees', Forest stack' (before ++ row) trees' := by
  induction row generalizing stack before trees with
  | nil =>
      injection hrun with hrun
      subst hrun
      rw [List.append_nil]
      exact ⟨trees, h⟩
  | cons token row ih =>
      rw [List.forall_mem_cons] at hrow
      rw [List.foldlM_cons] at hrun
      obtain ⟨middle, hfirst, hrest⟩ := bind_eq_ok_iff.mp hrun
      obtain ⟨trees', h'⟩ := h.run hsymbol hplaces hv hrow.1 hfirst
      rw [List.append_cons]
      exact ih h' hrow.2 hrest

/-- A row that has a value is the listing of a tree. -/
theorem exists_tree_of_evaluate {row : List Token} (hrow : ∀ token ∈ row, token.Listed)
    {entries : List String} (hentries : row.mapM (entry f) = .ok entries) {z : ComplexNumber}
    (h : evaluate f entries.reverse (.real v) = .ok z) :
    ∃ t : Tree, t.Genuine ∧ row = t.listing := by
  rw [evaluate_reverse, foldlM_entries hentries] at h
  obtain ⟨stack, hrun, hsingle⟩ := bind_eq_ok_iff.mp h
  have hempty : Forest [] [] [] := ⟨rfl, by simp, rfl⟩
  obtain ⟨trees, hforest⟩ := hempty.foldlM_run hsymbol hplaces hv hrow hrun
  rcases stack with _ | ⟨_, _ | ⟨_, _⟩⟩
  · cases hsingle
  · obtain ⟨t, rest, before, ht, hrow, hrest⟩ := hforest.uncons
    have hnil : rest = [] := List.eq_nil_of_length_eq_zero hrest.length_eq.symm
    have hbefore := hrest.listing_eq
    rw [hnil] at hbefore
    rw [← hbefore] at hrow
    exact ⟨t, ht, hrow⟩
  · cases hsingle

end Rpn

end ComplexCalculator
