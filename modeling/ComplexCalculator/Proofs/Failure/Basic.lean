import ComplexCalculator.Failure.Basic

/-!
# Outcomes that may fail

A composed operation gives a value exactly if each of its steps does, and fails with the
first failure.  What a composed operation fails with has a property if this holds of its
steps.
-/

namespace ComplexCalculator

variable {ε α β : Type}

theorem ok_bind (a : α) (g : α → Except ε β) : Except.ok a >>= g = g a := rfl

theorem bind_eq_ok_iff {x : Except ε α} {g : α → Except ε β} {b : β} :
    x >>= g = .ok b ↔ ∃ a, x = .ok a ∧ g a = .ok b := by
  cases x with
  | error e =>
      constructor
      · intro h
        contradiction
      · rintro ⟨a, h, -⟩
        contradiction
  | ok a =>
      constructor
      · intro h
        exact ⟨a, rfl, h⟩
      · rintro ⟨a', h, hg⟩
        injection h with h
        exact h ▸ hg

theorem map_eq_ok_iff {x : Except ε α} {g : α → β} {b : β} :
    x.map g = .ok b ↔ ∃ a, x = .ok a ∧ g a = b := by
  cases x with
  | error e =>
      constructor
      · intro h
        contradiction
      · rintro ⟨a, h, -⟩
        contradiction
  | ok a =>
      constructor
      · intro h
        injection h with h
        exact ⟨a, rfl, h⟩
      · rintro ⟨a', h, rfl⟩
        injection h with h
        rw [h]
        rfl

theorem map_eq_error_iff {x : Except ε α} {g : α → β} {e : ε} :
    x.map g = .error e ↔ x = .error e := by
  cases x <;> simp [Except.map]

theorem exists_bind_eq_ok {x : Except ε α} {g : α → Except ε β} (hx : ∃ a, x = .ok a)
    (hg : ∀ a, ∃ b, g a = .ok b) : ∃ b, x >>= g = .ok b := by
  obtain ⟨a, rfl⟩ := hx
  exact hg a

/-- If a row of operations has values, so does each of them. -/
theorem exists_ok_of_mapM {g : α → Except ε β} {l : List α} {r : List β}
    (h : l.mapM g = .ok r) : ∀ a ∈ l, ∃ b, g a = .ok b := by
  induction l generalizing r with
  | nil => simp
  | cons a l ih =>
      rw [List.mapM_cons] at h
      obtain ⟨b, hb, h⟩ := bind_eq_ok_iff.mp h
      obtain ⟨rest, hrest, -⟩ := bind_eq_ok_iff.mp h
      rw [List.forall_mem_cons]
      exact ⟨⟨b, hb⟩, ih hrest⟩

/-- What can be seen of the result of a loop is found without the rest of its states, if each
step depends only on what can be seen. -/
theorem map_foldrM {γ : Type} {view : β → γ} {g : α → β → Except ε β}
    {seen : α → γ → Except ε γ}
    (h : ∀ a b, (g a b).map view = seen a (view b)) (l : List α) (b : β) :
    (l.foldrM g b).map view = l.foldrM seen (view b) := by
  induction l with
  | nil => rfl
  | cons a l ih =>
      rw [List.foldrM_cons, List.foldrM_cons, ← ih]
      cases l.foldrM g b with
      | error e => rfl
      | ok b' => exact h a b'

/-- A value that an outcome has can be found by evaluating it. -/
theorem eq_ok_of_toOption {x : Except ε α} {a : α} (h : x.toOption = some a) : x = .ok a := by
  cases x with
  | error e => contradiction
  | ok a' =>
      injection h with h
      rw [h]

/-! ## What an outcome fails with -/

/-- Whether every failure of an outcome has a property. -/
def FailsOnly (p : ε → Prop) (x : Except ε α) : Prop := ∀ e, x = .error e → p e

theorem failsOnly_ok (p : ε → Prop) (a : α) : FailsOnly p (.ok a : Except ε α) := by
  intro e h
  contradiction

theorem failsOnly_error {p : ε → Prop} {e : ε} (h : p e) :
    FailsOnly p (.error e : Except ε α) := by
  intro e' he
  injection he with he
  exact he ▸ h

namespace FailsOnly

variable {p : ε → Prop} {x : Except ε α}

/-- An outcome is a value, or a failure with the property. -/
theorem ok_or_error (h : FailsOnly p x) : (∃ a, x = .ok a) ∨ ∃ e, p e ∧ x = .error e := by
  cases x with
  | error e => exact Or.inr ⟨e, h e rfl, rfl⟩
  | ok a => exact Or.inl ⟨a, rfl⟩

theorem bind (hx : FailsOnly p x) {g : α → Except ε β}
    (hg : ∀ a, x = .ok a → FailsOnly p (g a)) : FailsOnly p (x >>= g) := by
  cases x with
  | error e => exact failsOnly_error (hx e rfl)
  | ok a => exact hg a rfl

theorem map (hx : FailsOnly p x) (g : α → β) : FailsOnly p (x.map g) := by
  cases x with
  | error e => exact failsOnly_error (hx e rfl)
  | ok a => exact failsOnly_ok p (g a)

theorem foldlM {l : List α} {g : β → α → Except ε β} (h : ∀ b, ∀ a ∈ l, FailsOnly p (g b a))
    (b : β) : FailsOnly p (l.foldlM g b) := by
  induction l generalizing b with
  | nil => exact failsOnly_ok p b
  | cons a l ih =>
      rw [List.foldlM_cons]
      exact (h b a (by simp)).bind fun b _ => ih (fun b a ha => h b a (by simp [ha])) b

theorem foldrM {l : List α} {g : α → β → Except ε β} (h : ∀ b, ∀ a ∈ l, FailsOnly p (g a b))
    (b : β) : FailsOnly p (l.foldrM g b) := by
  rw [← List.foldlM_reverse]
  exact foldlM (fun b a ha => h b a (List.mem_reverse.mp ha)) b

end FailsOnly

end ComplexCalculator
