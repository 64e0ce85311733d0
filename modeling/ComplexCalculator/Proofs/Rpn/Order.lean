import ComplexCalculator.Proofs.Rpn.Schedule
import Mathlib.Data.List.Sort

/-!
# Where tokens go

A conversion writes one entry for every token that is neither a bracket nor a separator.  Each
token is followed here with its place in the row that is read: it is written at once or waits,
and what waits is written later or dropped.  Since operands are written at once, and operations
not before they are read, operands keep their order and no operation overtakes one.
-/

namespace ComplexCalculator.Rpn

variable {f : ComplexFormat} {tokens pending written next : List Token} {token : Token}

/-- Whether a token is a bracket or a separator, which has no entry. -/
def isPunctuation (token : Token) : Bool :=
  token.kind == some .openBracket || token.kind == some .closeBracket ||
    token.kind == some .separator

theorem isPunctuation_of_isOpen (h : Conversion.isOpen token = true) :
    isPunctuation token = true := by
  rw [Conversion.isOpen] at h
  rw [isPunctuation, h]
  rfl

theorem isPunctuation_of_closeBracket (h : token.kind = some .closeBracket) :
    isPunctuation token = true := by
  rw [isPunctuation, h]
  decide

theorem isPunctuation_of_separator (h : token.kind = some .separator) :
    isPunctuation token = true := by
  rw [isPunctuation, h]
  decide

theorem isPunctuation_eq_false (h : isOperand token = true ∨ isOperation token = true) :
    isPunctuation token = false := by
  simp only [isOperand, isOperation, Bool.or_eq_true, beq_iff_eq] at h
  rcases h with (hkind | hkind) | (hkind | hkind) <;> rw [isPunctuation, hkind] <;> decide

/-! ## Places -/

/-- A token with its place in the row that is read. -/
abbrev Placed := Token × ℕ

/-- Two rows with the same tokens at the same places, brackets and separators apart. -/
def SameEntries (a b : List Placed) : Prop :=
  ∀ t : Placed, isPunctuation t.1 = false → a.count t = b.count t

theorem count_cons_punctuation {t bracket : Placed} (ht : isPunctuation t.1 = false)
    (hbracket : isPunctuation bracket.1 = true) (row : List Placed) :
    (bracket :: row).count t = row.count t := by
  apply List.count_cons_of_ne
  rintro rfl
  rw [ht] at hbracket
  contradiction

theorem SameEntries.mem {a b : List Placed} (h : SameEntries a b) {t : Placed} (ht : t ∈ a)
    (hentry : isPunctuation t.1 = false) : t ∈ b := by
  rw [← List.count_pos_iff, h t hentry] at ht
  exact List.count_pos_iff.mp ht

theorem SameEntries.perm {a b : List Placed} (h : SameEntries a b)
    (ha : ∀ t ∈ a, isPunctuation t.1 = false) :
    a.Perm (b.filter fun t => !isPunctuation t.1) := by
  rw [List.perm_iff_count]
  intro t
  by_cases ht : isPunctuation t.1 = true
  · have hmem : t ∉ a := by
      intro hmem
      rw [ha t hmem] at ht
      contradiction
    rw [List.count_eq_zero_of_not_mem hmem, List.count_eq_zero_of_not_mem]
    simp [ht]
  · rw [Bool.not_eq_true] at ht
    rw [h t ht, List.count_filter]
    simp [ht]

/-- What becomes of the waiting tokens when a token is read. -/
structure Moves (waiting : List Placed) (t : Placed) (written next : List Placed) : Prop where
  sameEntries : SameEntries (written ++ next) (t :: waiting)
  written : written = [t] ∨ written ⊆ waiting
  next : next ⊆ t :: waiting

/-- Tokens keep their places in a step. -/
theorem Advance.exists_moves (h : Advance pending token written next) {waiting : List Placed}
    (hwaiting : waiting.map Prod.fst = pending) (place : ℕ) :
    ∃ written' next', written'.map Prod.fst = written ∧ next'.map Prod.fst = next ∧
      Moves waiting (token, place) written' next' := by
  cases h with
  | operand _ =>
      refine ⟨[(token, place)], waiting, rfl, hwaiting, ?_, Or.inl rfl, ?_⟩
      · exact fun t _ => rfl
      · exact List.subset_cons_self _ _
  | wait _ =>
      refine ⟨[], (token, place) :: waiting, rfl, congrArg _ hwaiting, ?_, Or.inr ?_, ?_⟩
      · exact fun t _ => rfl
      · exact List.nil_subset _
      · exact List.Subset.refl _
  | operator _ _ _ =>
      obtain ⟨front, rest, rfl, hfront, hrest⟩ := List.map_eq_append_iff.mp hwaiting
      refine ⟨front, (token, place) :: rest, hfront, congrArg _ hrest, ?_, Or.inr ?_, ?_⟩
      · intro t _
        exact List.perm_middle.count_eq t
      · exact List.subset_append_left _ _
      · exact List.cons_subset_cons _ (List.subset_append_right _ _)
  | separator hkind _ _ =>
      obtain ⟨front, rest, rfl, hfront, hrest⟩ := List.map_eq_append_iff.mp hwaiting
      refine ⟨front, rest, hfront, hrest, ?_, Or.inr ?_, ?_⟩
      · intro t ht
        exact (count_cons_punctuation ht (isPunctuation_of_separator hkind) _).symm
      · exact List.subset_append_left _ _
      · exact List.subset_cons_of_subset _ (List.subset_append_right _ _)
  | @closeBracket front below bracket _ hkind _ hbracket =>
      obtain ⟨front', others, rfl, hfront, hothers⟩ := List.map_eq_append_iff.mp hwaiting
      obtain ⟨bracket', below', rfl, rfl, hbelow⟩ := List.map_eq_cons_iff.mp hothers
      rw [← splitFunction_append below] at hbelow
      obtain ⟨function, rest, rfl, hfunction, hrest⟩ := List.map_eq_append_iff.mp hbelow
      refine ⟨front' ++ function, rest, ?_, hrest, ?_, Or.inr ?_, ?_⟩
      · rw [List.map_append, hfront, hfunction]
      · -- both brackets are dropped
        intro t ht
        have hopen := count_cons_punctuation ht (isPunctuation_of_isOpen hbracket)
        rw [count_cons_punctuation ht (isPunctuation_of_closeBracket hkind)]
        simp only [hopen, List.append_assoc, List.count_append]
      · intro t ht
        rcases List.mem_append.mp ht with ht | ht <;> simp [ht]
      · intro t ht
        simp [ht]

/-! ## Order -/

/-- Every operand of a row stands at a later place than all tokens before it. -/
def Late (row : List Placed) : Prop := row.Pairwise fun a b => isOperand b.1 = true → a.2 < b.2

/-- Tokens that are no operands can be written at any later time. -/
theorem Late.append {row waiting : List Placed} (h : Late row)
    (hwaiting : ∀ t ∈ waiting, isOperand t.1 = false) : Late (row ++ waiting) := by
  refine List.pairwise_append.mpr ⟨h, ?_, ?_⟩
  · apply List.pairwise_of_forall_mem_list
    intro a _ b hb hoperand
    rw [hwaiting b hb] at hoperand
    contradiction
  · intro a _ b hb hoperand
    rw [hwaiting b hb] at hoperand
    contradiction

theorem Moves.written_subset {waiting : List Placed} {t : Placed} {written next : List Placed}
    (h : Moves waiting t written next) : written ⊆ t :: waiting := by
  rcases h.written with rfl | hsubset
  · simp
  · exact List.subset_cons_of_subset t hsubset

theorem Moves.late {waiting : List Placed} {t : Placed} {written next : List Placed}
    (h : Moves waiting t written next) (hwaiting : ∀ t ∈ waiting, isOperand t.1 = false) :
    Late written := by
  rcases h.written with rfl | hsubset
  · exact List.pairwise_singleton _ _
  · rw [← List.nil_append written]
    exact Late.append List.Pairwise.nil fun t ht => hwaiting t (hsubset ht)

/-- Tokens keep their places, and an operand is written behind tokens of earlier places only. -/
theorem exists_late_of_schedule (hpending : ∀ t ∈ pending, Waits t)
    (h : schedule pending tokens = .ok (written, next)) {waiting : List Placed}
    (hwaiting : waiting.map Prod.fst = pending) {place : ℕ} (hplace : ∀ t ∈ waiting, t.2 < place) :
    ∃ written' next', written'.map Prod.fst = written ∧ next'.map Prod.fst = next ∧
      SameEntries (written' ++ next') (waiting ++ tokens.zipIdx place) ∧ Late written' := by
  induction tokens generalizing pending written waiting place with
  | nil =>
      cases h
      exact ⟨[], waiting, rfl, hwaiting, by simp [SameEntries], List.Pairwise.nil⟩
  | cons token tokens ih =>
      obtain ⟨first, middle, rest, hadvance, hrest, rfl⟩ := schedule_cons_eq_ok.mp h
      have hfirst := advance_eq_ok_iff.mp hadvance
      obtain ⟨first', middle', rfl, rfl, hmoves⟩ := hfirst.exists_moves hwaiting place
      have hread : ∀ t ∈ (token, place) :: waiting, t.2 < place + 1 := by
        rw [List.forall_mem_cons]
        exact ⟨place.lt_succ_self, fun t ht => Nat.lt_succ_of_lt (hplace t ht)⟩
      obtain ⟨rest', next', rfl, rfl, hsame, hlate⟩ :=
        ih (hfirst.waits hpending) hrest rfl fun t ht => hread t (hmoves.next ht)
      refine ⟨first' ++ rest', next', List.map_append, rfl, ?_, ?_⟩
      · intro t ht
        have hstep := hmoves.sameEntries t ht
        have hrun := hsame t ht
        simp only [List.zipIdx_cons, List.count_append, List.count_cons] at hstep hrun ⊢
        omega
      · refine List.pairwise_append.mpr ⟨hmoves.late ?_, hlate, ?_⟩
        · intro t ht
          exact (hpending t.1 (hwaiting ▸ List.mem_map_of_mem ht)).isOperand_eq_false
        · -- An operand that is written afterwards is read afterwards, since none has waited.
          intro a ha b hb hoperand
          have hb := hsame.mem (List.mem_append_left _ hb) (isPunctuation_eq_false (Or.inl hoperand))
          rcases List.mem_append.mp hb with hb | hb
          · have hwaits := hfirst.waits hpending b.1 (List.mem_map_of_mem hb)
            rw [hwaits.isOperand_eq_false] at hoperand
            contradiction
          · exact Nat.lt_of_lt_of_le (hread a (hmoves.written_subset ha))
              (List.le_snd_of_mem_zipIdx hb)

theorem pairwise_zipIdx (tokens : List Token) : tokens.zipIdx.Pairwise (·.2 < ·.2) := by
  apply List.pairwise_map.mp
  rw [List.zipIdx_map_snd]
  exact List.pairwise_lt_range'

/-- Operands at later and later places stand in the order of their places. -/
theorem Late.operands {row : List Placed} (h : Late row)
    (hperm : row.Perm (tokens.zipIdx.filter fun t => !isPunctuation t.1)) :
    row.filter (isOperand ·.1) = tokens.zipIdx.filter (isOperand ·.1) := by
  have hsame : (row.filter (isOperand ·.1)).Perm (tokens.zipIdx.filter (isOperand ·.1)) := by
    refine (hperm.filter _).trans (List.Perm.of_eq ?_)
    rw [List.filter_filter]
    apply List.filter_congr
    intro t _
    by_cases hoperand : isOperand t.1 = true
    · simp [hoperand, isPunctuation_eq_false (Or.inl hoperand)]
    · simp [hoperand]
  have hrow : (row.filter (isOperand ·.1)).Pairwise (·.2 < ·.2) := by
    rw [List.pairwise_filter]
    exact h.imp fun hab _ hb => hab hb
  refine hsame.eq_of_pairwise ?_ hrow ((pairwise_zipIdx tokens).filter _)
  intro a b _ _ hab hba
  exact absurd hab (Nat.lt_asymm hba)

/-- An arranged row consists of tokens of the row that was read, each at its place. -/
theorem exists_late_of_arrange {row : List Token} (h : arrange tokens = .ok row) :
    ∃ order : List Placed, order.map Prod.fst = row ∧ SameEntries order tokens.zipIdx ∧
      Late order := by
  obtain ⟨⟨_, _⟩, hschedule, rfl⟩ := map_eq_ok_iff.mp h
  have hwaits := waits_of_schedule waits_nil hschedule
  have hstart : ∀ t ∈ ([] : List Placed), t.2 < 0 := by simp
  obtain ⟨written, waiting, rfl, rfl, hsame, hlate⟩ :=
    exists_late_of_schedule waits_nil hschedule rfl hstart
  refine ⟨written ++ waiting.filter (!Conversion.isOpen ·.1), ?_, ?_, hlate.append ?_⟩
  · dsimp only
    rw [List.map_append, List.filter_map]
    rfl
  · intro t ht
    have hopen : (!Conversion.isOpen t.1) = true := by
      by_contra hopen
      rw [isPunctuation_of_isOpen (by simpa using hopen)] at ht
      contradiction
    have hcount := hsame t ht
    rw [List.nil_append, List.count_append] at hcount
    rw [← hcount, List.count_append]
    exact congrArg _ (List.count_filter hopen)
  · intro t ht
    have hmem := (List.mem_filter.mp ht).1
    exact (hwaits t.1 (List.mem_map_of_mem hmem)).isOperand_eq_false

/-- A conversion that succeeds writes one entry for every token of the row, brackets and
separators apart, in an order that keeps the operands in theirs and puts no operation in front
of an operand that has been read before it. -/
theorem convert_order (f : ComplexFormat) (tokens : List Token) (rpn : List String)
    (h : convert f tokens = .ok rpn) :
    ∃ order : List (Token × ℕ),
      order.Perm (tokens.zipIdx.filter fun t => !isPunctuation t.1) ∧
      order.mapM (fun t => entry f t.1) = .ok rpn.reverse ∧
      order.filter (isOperand ·.1) = tokens.zipIdx.filter (isOperand ·.1) ∧
      order.Pairwise fun a b => isOperation a.1 = true → isOperand b.1 = true → a.2 < b.2 := by
  obtain ⟨row, harrange, hentries⟩ := exists_arrange_of_convert h
  obtain ⟨order, rfl, hsame, hlate⟩ := exists_late_of_arrange harrange
  have hentry : ∀ t ∈ order, isPunctuation t.1 = false := by
    intro t ht
    exact isPunctuation_eq_false ((sameWords_of_arrange harrange).2 t.1 (List.mem_map_of_mem ht))
  have hperm := hsame.perm hentry
  refine ⟨order, hperm, ?_, hlate.operands hperm, hlate.imp fun hab _ hb => hab hb⟩
  rwa [List.mapM_map] at hentries

/-- The row `2+(sin 3I,*var`, in which a bracket stays open and an operator lacks an operand. -/
def brokenRow : List Token :=
  [.plain .number "2", (Operation.binary .add).token, .plain .openBracket "(",
    (Operation.unary .sin).token, .plain .number "3I", .plain .separator ",",
    (Operation.binary .mul).token, .plain .freeVariable "var"]

/-- Six of the eight tokens have an entry, and the operands stay in order. -/
theorem convert_order_brokenRow :
    convert ⟨3, "I"⟩ brokenRow = .ok ["+", "*", "var", "sin", "0.000 + 3.000I", "2"] ∧
    ∃ order : List (Token × ℕ),
      order.Perm (brokenRow.zipIdx.filter fun t => !isPunctuation t.1) ∧
      order.mapM (fun t => entry ⟨3, "I"⟩ t.1) =
        .ok ["2", "0.000 + 3.000I", "sin", "var", "*", "+"] ∧
      (order.filter (isOperand ·.1)).map Prod.snd = [0, 4, 7] ∧
      order.Pairwise fun a b => isOperation a.1 = true → isOperand b.1 = true → a.2 < b.2 := by
  have hconvert : convert ⟨3, "I"⟩ brokenRow =
      .ok ["+", "*", "var", "sin", "0.000 + 3.000I", "2"] := by
    apply eq_ok_of_toOption
    decide +kernel
  obtain ⟨order, hperm, hentries, hoperands, hlate⟩ := convert_order ⟨3, "I"⟩ brokenRow _ hconvert
  refine ⟨hconvert, order, hperm, hentries, ?_, hlate⟩
  rw [hoperands]
  decide

end ComplexCalculator.Rpn
