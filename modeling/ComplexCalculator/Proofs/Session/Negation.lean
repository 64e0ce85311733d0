import ComplexCalculator.Proofs.Expression.LeadingMinus
import ComplexCalculator.Proofs.Session.Substitution

/-!
# Signs as functions

A sign in front of a term is the function that changes the sign, applied to the term: a phrase
keeps its result when one is written for the other.  The sign is the difference from zero, which
may have other signs of zero in its parts, but these are gone when it has been rounded.
-/

namespace ComplexCalculator

open Expression (Spaced)

theorem ComplexFormat.settled_zero_sub (f : ComplexFormat) (z : ComplexNumber) :
    f.settled (ComplexNumber.zero.sub z) = f.settled z.neg := by
  rw [settled, settled, ComplexNumber.mk.injEq]
  exact ⟨Binary64.settled_zero_sub _ z.re, Binary64.settled_zero_sub _ z.im⟩

namespace Phrase

/-- A term in brackets behind `neg`. -/
def negated (t : Phrase .product) : Phrase .sum := .term (.single (.call .neg (.term t)))

theorem value_negated {f : ComplexFormat} (hsymbol : f.symbol = Alphabet.imaginaryUnit.toString)
    (hplaces : f.precision ≤ ComplexFormat.maxPlaces) (v : Binary64) (t : Phrase .product) :
    t.negated.value f v = (signed .sub t).value f v := by
  have hrounded (z : ComplexNumber) :
      f.rounded (UnaryOperation.neg.apply z) =
        f.rounded (TermOperator.sub.operation.apply .zero z) := by
    rw [ComplexFormat.rounded_eq_settled hsymbol hplaces,
      ComplexFormat.rounded_eq_settled hsymbol hplaces]
    exact congrArg Except.ok (f.settled_zero_sub z).symm
  simp only [negated, value, hrounded]

end Phrase

namespace Session

/-- A minus that begins a sum in a phrase is followed by a term.  The phrase keeps its result
when `neg` is written for the minus and brackets around the term, as long as it can be. -/
theorem evaluate_negated (s : Session) (hplaces : s.precision ≤ 2147483647) (v : Binary64)
    (hv : v.isFinite = true) (e : Phrase .sum) (front back : List (List Char))
    (hfront : Phrase.OpensSum front) (he : e.pieces = front ++ ['-'] :: back) :
    (∃ (t : Phrase .product) (rest : List (List Char)),
      back = t.pieces ++ rest ∧ (rest = [] ∨ Phrase.EndsTerm rest)) ∧
    ∀ (t : Phrase .product) (rest : List (List Char)),
      back = t.pieces ++ rest → (rest = [] ∨ Phrase.EndsTerm rest) →
      ∀ before term after : String, Spaced front before.toList → Spaced t.pieces term.toList →
        Spaced rest after.toList →
        ∃ whole whole' out,
          s.parse (.text (before ++ "-" ++ term ++ after)) = .ok whole ∧
          whole.evaluate (.real v) = .ok out ∧
          s.parse (.text (before ++ "neg(" ++ term ++ ")" ++ after)) = .ok whole' ∧
          whole'.evaluate (.real v) = .ok out := by
  obtain ⟨c, t, rfl, rfl, rfl⟩ := Phrase.isNegatedIn_of_pieces e hfront he
  have hends : c.behind = [] ∨ Phrase.EndsTerm c.behind := by
    rcases c.behind_cases with hends | ⟨-, hnil⟩
    · exact Or.inr hends
    · exact Or.inl hnil
  refine ⟨⟨t, c.behind, rfl, hends⟩, ?_⟩
  intro t' rest hback hrest before term after hbefore hterm hafter
  obtain ⟨hpieces, rfl⟩ := Phrase.append_pieces_inj hends hrest hback
  rw [← hpieces] at hterm
  have hminus : Spaced [['-']] "-".toList := .next .empty
  have hneg : Spaced ["neg".toList, ['(']] "neg(".toList := .next (.next .empty)
  have hclose : Spaced [[')']] ")".toList := .next .empty
  have htext : Spaced (c.fill (.signed .sub t)).pieces (before ++ "-" ++ term ++ after).toList := by
    rw [c.pieces_fill]
    simp only [String.toList_append, List.append_assoc]
    exact hbefore.append (hminus.append (hterm.append hafter))
  have htext' : Spaced (c.fill t.negated).pieces
      (before ++ "neg(" ++ term ++ ")" ++ after).toList := by
    have hnegated : t.negated.pieces = ["neg".toList, ['(']] ++ (t.pieces ++ [[')']]) := rfl
    rw [c.pieces_fill, hnegated]
    simp only [String.toList_append, List.append_assoc]
    exact hbefore.append (hneg.append (hterm.append (hclose.append hafter)))
  exact evaluate_fill_congr hplaces hv c (Phrase.value_negated rfl hplaces v t) htext htext'

/-- The term `var*0°`. -/
def zeroAngle : Phrase .product :=
  .degrees (.times (.single .freeVariable) .mul (.literal .zero))

/-- The phrase `1/(-var*0°+0)`. -/
def inverseOfZeroAngle : Phrase .sum :=
  .term (.times
    (.single (.literal (.real ⟨['1'], none, none, by decide, by decide⟩
      (Numeral.unsigned_of_exponent_eq_none rfl))))
    .div
    (.bracketed (.plus (.signed .sub zeroAngle) .add (.single (.literal .zero)))))

/-- An angle of zero degrees with a minus, behind a bracket and between blanks. -/
theorem evaluate_negated_zero :
    ∃ whole whole' out,
      (⟨2, []⟩ : Session).parse (.text ("1/( " ++ "-" ++ " var * 0 °" ++ " +0)")) = .ok whole ∧
      whole.evaluate (.real .one) = .ok out ∧
      (⟨2, []⟩ : Session).parse (.text ("1/( " ++ "neg(" ++ " var * 0 °" ++ ")" ++ " +0)")) =
        .ok whole' ∧
      whole'.evaluate (.real .one) = .ok out := by
  have hfront : Phrase.OpensSum [['1'], ['/'], ['(']] := by
    intro piece hpiece
    exact ⟨'(', by decide, (Option.some.inj hpiece).symm⟩
  have hends : Phrase.EndsTerm [['+'], ['0'], [')']] := ⟨'+', by decide, _, rfl⟩
  have hbefore : Spaced [['1'], ['/'], ['(']] "1/( ".toList :=
    .next (.next (.next (.space .empty)))
  have hterm : Spaced zeroAngle.pieces " var * 0 °".toList :=
    .space (.next (.space (.next (.space (.next (.space (.next .empty)))))))
  have hafter : Spaced [['+'], ['0'], [')']] " +0)".toList :=
    .space (.next (.next (.next .empty)))
  obtain ⟨-, hnegated⟩ := evaluate_negated ⟨2, []⟩ (by decide) .one (by decide +kernel)
    inverseOfZeroAngle [['1'], ['/'], ['(']] _ hfront rfl
  exact hnegated zeroAngle [['+'], ['0'], [')']] rfl (Or.inr hends) _ _ _ hbefore hterm hafter

end Session

end ComplexCalculator
