import ComplexCalculator.Proofs.Session.Emptiness

/-!
# Results as numbers

A session gives the value of its expression as a text, or as the number that this text is read
as.  Both are there for the same expressions, and the number is written as the text.  The number
is the value itself unless the expression is a single entry: every other value comes out of an
operation, which has rounded it already, so that writing it does not round it a second time.
-/

namespace ComplexCalculator

namespace Rpn

variable {f : ComplexFormat} {value : Quantity}

theorem length_of_bindVariable {entries bound : List Datum}
    (h : bindVariable entries value = .ok bound) : bound.length = entries.length := by
  unfold bindVariable at h
  split at h
  · split_ifs at h
    injection h with h
    rw [h]
  · obtain ⟨x, -, rfl⟩ := map_eq_ok_iff.mp h
    exact List.length_map _

/-- The value of more than one entry is the rounded result of an operation. -/
theorem settled_of_evaluate (hsymbol : f.symbol = Alphabet.imaginaryUnit.toString)
    {rpn : List String} (hlength : 1 < rpn.length) {z : ComplexNumber}
    (h : evaluate f rpn value = .ok z) : f.settled z = z := by
  obtain ⟨entries, hbind, h⟩ := bind_eq_ok_iff.mp h
  obtain ⟨stack, hfold, hsingle⟩ := bind_eq_ok_iff.mp h
  have hcount : 1 < entries.length := by
    rw [length_of_bindVariable hbind, List.length_map]
    exact hlength
  obtain ⟨last, rest, rfl⟩ := List.exists_cons_of_length_pos (Nat.zero_lt_of_lt hcount)
  rw [List.foldrM_cons] at hfold
  obtain ⟨below, hbelow, hstep⟩ := bind_eq_ok_iff.mp hfold
  have hne : below ≠ [] := by
    refine foldrM_step_ne_nil ?_ hbelow
    intro hnil
    simp [hnil] at hcount
  rw [eq_of_single hsingle] at hstep
  -- A literal would lie on what the entries before it have left.
  rcases step_cases hstep with ⟨w, -, hstack⟩ | ⟨-, rest', result, w, -, hrounded, hstack⟩
  · injection hstack with _ hnil
    exact absurd hnil.symm hne
  · injection hstack with hz _
    subst hz
    exact ComplexFormat.settled_of_rounded (hsymbol ▸ Alphabet.isBlank_of_mem_imaginaryUnit)
      hrounded

end Rpn

namespace Session

variable {s : Session} {value : Quantity}

/-- The number is the settled value of the entries, with the same failures. -/
theorem evaluateComplex_of_ne_nil (hplaces : s.precision ≤ ComplexFormat.maxPlaces)
    (h : s.stored ≠ []) (value : Quantity) :
    s.evaluateComplex value =
      (Rpn.evaluate s.format s.stored value).map s.format.settled := by
  rw [evaluateComplex, evaluate_of_ne_nil h]
  cases Rpn.evaluate s.format s.stored value with
  | error failure => rfl
  | ok z =>
      obtain ⟨out, hout⟩ := ComplexFormat.exists_format (f := s.format) hplaces z
      rw [ok_bind, hout, ok_bind, read_of_format hout]
      rfl

theorem evaluateComplex_of_eq_nil (h : s.stored = []) (value : Quantity) :
    s.evaluateComplex value = .error (.ofCause (.malformedNumber "")) := by
  rw [evaluateComplex, (evaluate_eq_empty_iff s value).mpr h, ok_bind]
  apply ComplexFormat.read_eq_error
  rw [Option.eq_none_iff_forall_ne_some]
  intro z hz
  exact s.read_empty z (ComplexFormat.read_eq_ok.mpr hz)

/-! ## Texts and numbers -/

/-- The text that a number was read from is the one that it is written as. -/
theorem exists_text_of_evaluateComplex {w : ComplexNumber}
    (h : s.evaluateComplex value = .ok w) :
    ∃ out, out ≠ "" ∧ s.evaluate value = .ok out ∧ s.format.format w = .ok out := by
  obtain ⟨out, hout, hread⟩ := bind_eq_ok_iff.mp h
  have hne : out ≠ "" := by
    intro hempty
    rw [hempty] at hread
    exact s.read_empty w hread
  obtain hempty | ⟨z, hz⟩ := evaluate_eq_ok hout
  · exact absurd hempty hne
  · have hw : s.format.settled z = w := by
      rw [read_of_format hz] at hread
      injection hread
    refine ⟨out, hne, hout, ?_⟩
    rw [← hw, ComplexFormat.format_settled]
    exact hz

theorem exists_evaluateComplex {out : String} (hne : out ≠ "")
    (h : s.evaluate value = .ok out) : ∃ w, s.evaluateComplex value = .ok w := by
  obtain hempty | ⟨z, hz⟩ := evaluate_eq_ok h
  · exact absurd hempty hne
  · refine ⟨s.format.settled z, ?_⟩
    rw [evaluateComplex, h]
    exact read_of_format hz

/-- Writing the value does not fail, so that all failures are those of the evaluation. -/
theorem evaluate_eq_error_iff (hplaces : s.precision ≤ ComplexFormat.maxPlaces)
    (h : s.stored ≠ []) (failure : Failure) :
    s.evaluate value = .error failure ↔
      Rpn.evaluate s.format s.stored value = .error failure := by
  rw [evaluate_of_ne_nil h]
  cases Rpn.evaluate s.format s.stored value with
  | error failure' =>
      change Except.error failure' = Except.error failure ↔ _
      simp
  | ok z =>
      obtain ⟨out, hout⟩ := ComplexFormat.exists_format (f := s.format) hplaces z
      rw [ok_bind, hout]
      simp

/-- A session gives its value as a number exactly if it gives it as a text that is not empty,
and the number is written as this text.  Both fail like the evaluation of the entries; where
there are no entries, the text is empty and cannot be read.  Of more than one entry the number
is the value itself, which is not rounded a second time. -/
theorem evaluateComplex_agrees (s : Session) (hplaces : s.precision ≤ 2147483647)
    (value : Quantity) :
    ((∃ w, s.evaluateComplex value = .ok w) ↔ ∃ out, out ≠ "" ∧ s.evaluate value = .ok out) ∧
    (∀ w, s.evaluateComplex value = .ok w →
      ∃ out, s.evaluate value = .ok out ∧ s.format.format w = .ok out) ∧
    (s.stored ≠ [] → ∀ failure,
      (s.evaluate value = .error failure ↔
        Rpn.evaluate s.format s.stored value = .error failure) ∧
      (s.evaluateComplex value = .error failure ↔
        Rpn.evaluate s.format s.stored value = .error failure)) ∧
    (s.stored = [] → s.evaluate value = .ok "" ∧
      s.evaluateComplex value = .error (.ofCause (.malformedNumber ""))) ∧
    (1 < s.stored.length →
      s.evaluateComplex value = Rpn.evaluate s.format s.stored value) := by
  refine ⟨⟨?_, ?_⟩, ?_, ?_, ?_, ?_⟩
  · rintro ⟨w, hw⟩
    obtain ⟨out, hne, hout, -⟩ := exists_text_of_evaluateComplex hw
    exact ⟨out, hne, hout⟩
  · rintro ⟨out, hne, hout⟩
    exact exists_evaluateComplex hne hout
  · intro w hw
    obtain ⟨out, -, hout, hformat⟩ := exists_text_of_evaluateComplex hw
    exact ⟨out, hout, hformat⟩
  · intro hstored failure
    refine ⟨evaluate_eq_error_iff hplaces hstored failure, ?_⟩
    rw [evaluateComplex_of_ne_nil hplaces hstored, map_eq_error_iff]
  · intro hstored
    exact ⟨(evaluate_eq_empty_iff s value).mpr hstored, evaluateComplex_of_eq_nil hstored value⟩
  · intro hlength
    have hstored : s.stored ≠ [] := List.ne_nil_of_length_pos (Nat.zero_lt_of_lt hlength)
    rw [evaluateComplex_of_ne_nil hplaces hstored]
    cases hvalue : Rpn.evaluate s.format s.stored value with
    | error failure => rfl
    | ok z => exact congrArg Except.ok (Rpn.settled_of_evaluate rfl hlength hvalue)

/-- One eighth, a tie at two places, as a single entry and as a quotient: only the quotient is
rounded before it is written. -/
theorem evaluateComplex_agrees_eighth :
    (⟨2, ["/", "8", "1"]⟩ : Session).evaluateComplex .absent =
        Rpn.evaluate ⟨2, "I"⟩ ["/", "8", "1"] .absent ∧
      (⟨2, ["/", "8", "1"]⟩ : Session).evaluateComplex .absent =
        .ok (.ofReal (Decimal.nearest false ⟨12, -2⟩)) ∧
      (∃ out, (⟨2, ["0.125"]⟩ : Session).evaluate .absent = .ok out ∧
        (⟨2, "I"⟩ : ComplexFormat).format (.ofReal (Decimal.nearest false ⟨12, -2⟩)) = .ok out) ∧
      Rpn.evaluate ⟨2, "I"⟩ ["0.125"] .absent =
        .ok (.ofReal (Decimal.nearest false ⟨125, -3⟩)) := by
  have hquotient : Rpn.evaluate ⟨2, "I"⟩ ["/", "8", "1"] .absent =
      .ok (.ofReal (Decimal.nearest false ⟨12, -2⟩)) := by
    apply eq_ok_of_toOption
    decide +kernel
  have hsingle : (⟨2, ["0.125"]⟩ : Session).evaluateComplex .absent =
      .ok (.ofReal (Decimal.nearest false ⟨12, -2⟩)) := by
    apply eq_ok_of_toOption
    decide +kernel
  have hentry : Rpn.evaluate ⟨2, "I"⟩ ["0.125"] .absent =
      .ok (.ofReal (Decimal.nearest false ⟨125, -3⟩)) := by
    apply eq_ok_of_toOption
    decide +kernel
  obtain ⟨-, -, -, -, hsame⟩ := evaluateComplex_agrees ⟨2, ["/", "8", "1"]⟩ (by decide) .absent
  obtain ⟨-, htext, -⟩ := evaluateComplex_agrees ⟨2, ["0.125"]⟩ (by decide) .absent
  exact ⟨hsame (by decide), (hsame (by decide)).trans hquotient, htext _ hsingle, hentry⟩

end Session

end ComplexCalculator
