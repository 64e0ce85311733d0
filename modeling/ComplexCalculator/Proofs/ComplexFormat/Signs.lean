import ComplexCalculator.Binary64.Arithmetic
import ComplexCalculator.Proofs.ComplexFormat.Places

/-!
# Zeros and signs

Adding or subtracting zero does not change how a number is written, and neither does writing
and reading it before its sign is changed.  The sign of a zero is lost in both cases, which
is why the statements are about what is written and not about the numbers themselves.
-/

namespace ComplexCalculator

/-- Zero is read as zero, whatever its exponent. -/
theorem Decimal.nearest_zero (negative : Bool) (exponent : ℤ) :
    Decimal.nearest negative ⟨0, exponent⟩ = Binary64.signedZero negative := by
  obtain ⟨num, den, hden, hratio⟩ := Decimal.exists_ratio ⟨0, exponent⟩
  have hnum : num = 0 := Decimal.num_eq_zero_of_value hden hratio rfl
  rw [Decimal.nearest_eq_ofRatio negative hden hratio, hnum, Binary64.ofRatio_zero negative hden]

theorem Magnitude.roundedPlaces_of_units_eq_zero {x : Magnitude} (places : ℕ)
    (h : x.units = 0) : x.roundedPlaces places = 0 := by
  rw [roundedPlaces, h, Nat.zero_mul]
  simp [roundHalfEven]

namespace Binary64

variable (places : ℕ)

/-! ## Sums with zero -/

theorem add_comm (x y : Binary64) : x.add y = y.add x := by
  cases x with
  | nan => cases y <;> rfl
  | infinite s =>
      cases y with
      | nan => rfl
      | infinite t =>
          rw [add, add]
          by_cases h : s = t
          · rw [h]
          · rw [if_neg h, if_neg (Ne.symm h)]
      | finite t y => rfl
  | finite s x =>
      cases y with
      | nan => rfl
      | infinite t => rfl
      | finite t y => simp only [add, Int.add_comm, Bool.and_comm]

/-- A sum with zero is the other number, except that the sign of a zero may be lost. -/
theorem add_signedZero (s t : Bool) (x : Magnitude) :
    (finite s x).add (signedZero t) = if x.units = 0 then signedZero (s && t) else finite s x := by
  have hzero : signedUnits t 0 = 0 := by cases t <;> rfl
  have hsum : (finite s x).add (signedZero t) =
      if signedUnits s x.units = 0 then signedZero (s && t)
      else ofRatio (signedUnits s x.units < 0) (signedUnits s x.units).natAbs 1 := by
    rw [signedZero, add]
    dsimp only
    rw [hzero, Int.add_zero]
  rw [hsum]
  rcases Nat.eq_zero_or_pos x.units with h | h
  · have hunits : signedUnits s x.units = 0 := by
      rw [h]
      cases s <;> rfl
    rw [if_pos hunits, if_pos h]
  · have hunits : signedUnits s x.units ≠ 0 := by
      cases s <;> simp only [signedUnits] <;> omega
    have hsign : decide (signedUnits s x.units < 0) = s := by
      cases s with
      | false => simp [signedUnits]
      | true => simpa [signedUnits] using h
    have habs : (signedUnits s x.units).natAbs = x.units := by
      cases s <;> simp [signedUnits]
    rw [if_neg hunits, if_neg h.ne', hsign, habs]
    exact ofRatio_units s x Nat.one_pos (by simp)

theorem settled_of_units_eq_zero (negative : Bool) {x : Magnitude} (h : x.units = 0) :
    settled places (.finite negative x) = zero := by
  rw [settled, x.roundedPlaces_of_units_eq_zero places h, Decimal.ofPlaces, Decimal.nearest_zero]
  rw [bne_self_eq_false, Bool.and_false, zero]

theorem settled_zero : settled places zero = zero :=
  settled_of_units_eq_zero places false rfl

theorem settled_add_signedZero (x : Binary64) (t : Bool) :
    settled places (x.add (signedZero t)) = settled places x := by
  cases x with
  | nan => rfl
  | infinite s => rfl
  | finite s x =>
      rw [add_signedZero]
      split_ifs with h
      · rw [settled_of_units_eq_zero places s h]
        exact settled_of_units_eq_zero places (s && t) rfl
      · rfl

theorem settled_add_zero (x : Binary64) : settled places (x + zero) = settled places x :=
  settled_add_signedZero places x false

theorem settled_sub_zero (x : Binary64) : settled places (x - zero) = settled places x :=
  settled_add_signedZero places x true

theorem settled_zero_add (x : Binary64) : settled places (zero + x) = settled places x := by
  have h := settled_add_zero places x
  rwa [show x + zero = zero + x from add_comm x zero] at h

theorem settled_zero_sub (x : Binary64) : settled places (zero - x) = settled places (-x) :=
  settled_zero_add places (-x)

/-! ## Changes of sign -/

theorem settled_neg_settled (x : Binary64) :
    settled places (-settled places x) = settled places (-x) := by
  cases x with
  | nan => rfl
  | infinite s => rfl
  | finite s x =>
      obtain ⟨y, hy, hplaces⟩ := settled_finite places s x
      have hneg (s : Bool) (x : Magnitude) : -finite s x = finite (!s) x := rfl
      have hsign (b : Bool) : (!(s && b) && b) = (!s && b) := by
        cases s <;> cases b <;> rfl
      rw [hy, hneg, hneg, settled, settled, hplaces, hsign]

/-- Numbers that are written alike are written alike with the opposite sign. -/
theorem settled_neg_congr {x y : Binary64} (h : settled places x = settled places y) :
    settled places (-x) = settled places (-y) := by
  rw [← settled_neg_settled, h, settled_neg_settled]

end Binary64

end ComplexCalculator
