import ComplexCalculator.Proofs.Session.Reentry

/-!
# Evaluation step by step

A sum inside a phrase can be evaluated first, and the result entered in its place: the value
of the whole phrase stays the same.  Rounding the value of the sum once more does not change
it, provided that the sum ends with an operation, and its text means the value that it was
written for.
-/

namespace ComplexCalculator

open Expression (Spaced)

namespace Session

variable {s : Session}

/-- A phrase keeps its result when a sum in it is replaced by one of equal value. -/
theorem evaluate_fill_congr (hplaces : s.precision ≤ ComplexFormat.maxPlaces) {v : Binary64}
    (hv : v.isFinite = true) (c : Phrase.Context .sum) {e e' : Phrase .sum}
    (hvalue : e'.value s.format v = e.value s.format v) {text text' : String}
    (htext : Spaced (c.fill e).pieces text.toList)
    (htext' : Spaced (c.fill e').pieces text'.toList) :
    ∃ whole whole' out,
      s.parse (.text text) = .ok whole ∧ whole.evaluate (.real v) = .ok out ∧
        s.parse (.text text') = .ok whole' ∧ whole'.evaluate (.real v) = .ok out := by
  obtain ⟨whole, hwhole, u, out, hu, hout, hfirst⟩ :=
    evaluate_phrase s hplaces (c.fill e) text htext v hv
  obtain ⟨whole', hwhole', u', out', hu', hout', hsecond⟩ :=
    evaluate_phrase s hplaces (c.fill e') text' htext' v hv
  rw [c.value_fill hvalue, hu] at hu'
  injection hu' with hu'
  rw [← hu', hout] at hout'
  injection hout' with hout'
  rw [← hout'] at hsecond
  exact ⟨whole, whole', out, hwhole, hfirst, hwhole', hsecond⟩

/-- What the evaluation of a sum gives is a phrase with the value of the sum. -/
theorem exists_phrase_of_format (hplaces : s.precision ≤ ComplexFormat.maxPlaces) {v : Binary64}
    {e : Phrase .sum} (he : e.IsOperation) {z : ComplexNumber} (hz : e.value s.format v = .ok z)
    (hfinite : z.isFinite = true) {out : String} (hout : s.format.format z = .ok out) :
    ∃ e' : Phrase .sum, Spaced e'.pieces out.toList ∧
      e'.value s.format v = e.value s.format v := by
  rw [ComplexNumber.isFinite, Bool.and_eq_true] at hfinite
  obtain ⟨c, hspaced, hnumber, hc⟩ :=
    ComplexFormat.exists_pair_of_format (f := s.format) rfl hfinite.1 hfinite.2 hout
  refine ⟨c.phrase, hspaced, ?_⟩
  rw [ComplexLiteral.value_phrase rfl hplaces hc, hnumber, ComplexFormat.settled_settled, hz,
    Phrase.settled_value (f := s.format) rfl he hz]

/-- A sum in a phrase can be replaced by the text that it is evaluated to, in any spacing. -/
theorem evaluate_fill (s : Session) (hplaces : s.precision ≤ 2147483647) (v : Binary64)
    (hv : v.isFinite = true) (c : Phrase.Context .sum) (e : Phrase .sum) (he : e.IsOperation)
    (z : ComplexNumber) (hz : e.value s.format v = .ok z) (hfinite : z.isFinite = true)
    (front middle back : String) (hfront : Spaced c.before front.toList)
    (hmiddle : Spaced e.pieces middle.toList) (hback : Spaced c.behind back.toList) :
    ∃ part out, s.parse (.text middle) = .ok part ∧ part.evaluate (.real v) = .ok out ∧
      ∃ whole whole' result,
        s.parse (.text (front ++ middle ++ back)) = .ok whole ∧
        whole.evaluate (.real v) = .ok result ∧
        s.parse (.text (front ++ out ++ back)) = .ok whole' ∧
        whole'.evaluate (.real v) = .ok result := by
  have hfill {e : Phrase .sum} {middle : String} (hmiddle : Spaced e.pieces middle.toList) :
      Spaced (c.fill e).pieces (front ++ middle ++ back).toList := by
    rw [c.pieces_fill, String.toList_append, String.toList_append, List.append_assoc]
    exact hfront.append (hmiddle.append hback)
  obtain ⟨part, hpart, w, out, hw, hout, hevaluate⟩ :=
    evaluate_phrase s hplaces e middle hmiddle v hv
  obtain rfl : z = w := by
    rw [hz] at hw
    injection hw
  obtain ⟨e', hspaced, hvalue⟩ := exists_phrase_of_format hplaces he hz hfinite hout
  obtain ⟨whole, whole', result, hwhole, hfirst, hwhole', hsecond⟩ :=
    evaluate_fill_congr hplaces hv c hvalue (hfill hmiddle) (hfill hspaced)
  exact ⟨part, out, hpart, hevaluate, whole, whole', result, hwhole, hfirst, hwhole', hsecond⟩

/-- The phrase `-var/3`. -/
def negatedThird : Phrase .sum :=
  .signed .sub (.times (.single .freeVariable) .div
    (.literal (.real ⟨['3'], none, none, by decide, by decide⟩
      (Numeral.unsigned_of_exponent_eq_none rfl))))

/-- The context `2*(…)`. -/
def doubled : Phrase.Context .sum :=
  .term (.timesRight (.single (.literal (.real ⟨['2'], none, none, by decide, by decide⟩
    (Numeral.unsigned_of_exponent_eq_none rfl)))) .mul (.bracketed .hole))

/-- A third is rounded before it is doubled, whether or not it is entered by its digits. -/
theorem evaluate_fill_third :
    negatedThird.IsOperation ∧
    ∃ part, (⟨2, []⟩ : Session).parse (.text " -var / 3") = .ok part ∧
      part.evaluate (.real .one) = .ok "-0.33 + 0.00I" ∧
      ∃ whole whole',
        (⟨2, []⟩ : Session).parse (.text ("2*(" ++ " -var / 3" ++ " )")) = .ok whole ∧
        whole.evaluate (.real .one) = .ok "-0.66 + 0.00I" ∧
        (⟨2, []⟩ : Session).parse (.text ("2*(" ++ "-0.33 + 0.00I" ++ " )")) = .ok whole' ∧
        whole'.evaluate (.real .one) = .ok "-0.66 + 0.00I" := by
  have hoperation : negatedThird.IsOperation := by simp [negatedThird, Phrase.IsOperation]
  have hvalue : negatedThird.value (⟨2, []⟩ : Session).format .one =
      .ok ⟨Decimal.nearest true ⟨33, -2⟩, .zero⟩ := by
    apply eq_ok_of_toOption
    decide +kernel
  have hfront : Spaced doubled.before "2*(".toList :=
    .next (.next (.next .empty))
  have hmiddle : Spaced negatedThird.pieces " -var / 3".toList :=
    .space (.next (.next (.space (.next (.space (.next .empty))))))
  have hback : Spaced doubled.behind " )".toList := .space (.next .empty)
  have hpartResult : ((⟨2, []⟩ : Session).parse (.text " -var / 3") >>=
      (·.evaluate (.real .one))) = .ok "-0.33 + 0.00I" := by
    apply eq_ok_of_toOption
    decide +kernel
  have hwholeResult : ((⟨2, []⟩ : Session).parse (.text ("2*(" ++ " -var / 3" ++ " )")) >>=
      (·.evaluate (.real .one))) = .ok "-0.66 + 0.00I" := by
    apply eq_ok_of_toOption
    decide +kernel
  obtain ⟨part, out, hpart, hout, whole, whole', result, hwhole, hresult, hwhole', hresult'⟩ :=
    evaluate_fill ⟨2, []⟩ (by decide) .one (by decide +kernel) doubled negatedThird hoperation _
      hvalue (by decide +kernel) "2*(" " -var / 3" " )" hfront hmiddle hback
  rw [hpart, ok_bind, hout] at hpartResult
  rw [hwhole, ok_bind, hresult] at hwholeResult
  injection hpartResult with hpartResult
  injection hwholeResult with hwholeResult
  subst hpartResult hwholeResult
  exact ⟨hoperation, part, hpart, hout, whole, whole', hwhole, hresult, hwhole', hresult'⟩

end Session

end ComplexCalculator
