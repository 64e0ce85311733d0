import ComplexCalculator.Binary64.Arithmetic
import ComplexCalculator.Proofs.Decimal.Nearest

/-!
# Rounding errors

A rounded result differs from the exact one by at most half a unit in the last of 53
significant bits, or by half of the smallest number where that is more.  A bound on the exact
result ensures that the rounded one is finite.
-/

namespace ComplexCalculator

open Binary64 (rangeBits unitBits)

/-- The rational number with the given sign and absolute value. -/
def signedRational (negative : Bool) (q : ℚ) : ℚ := if negative then -q else q

theorem abs_signedRational_sub (negative : Bool) (p q : ℚ) :
    |signedRational negative p - signedRational negative q| = |p - q| := by
  cases negative with
  | false => rfl
  | true =>
      rw [signedRational, signedRational, if_pos rfl, if_pos rfl, neg_sub_neg, abs_sub_comm]

theorem abs_signedRational (negative : Bool) (q : ℚ) : |signedRational negative q| = |q| := by
  cases negative with
  | false => rfl
  | true => exact abs_neg q

theorem signedRational_mul (negative : Bool) (p q : ℚ) :
    signedRational negative p * q = signedRational negative (p * q) := by
  cases negative with
  | false => rfl
  | true => exact neg_mul p q

theorem signedRational_abs (q : ℚ) : signedRational (q < 0) |q| = q := by
  rw [signedRational]
  split_ifs with hneg
  · rw [decide_eq_true_eq] at hneg
    rw [abs_of_neg hneg, neg_neg]
  · rw [decide_eq_true_eq, not_lt] at hneg
    exact abs_of_nonneg hneg

namespace Binary64

/-- The exact value of a finite number. -/
def value : Binary64 → ℚ
  | .finite negative x => signedRational negative x.value
  | _ => 0

/-- How far the rounding of a rational number may lie from it. -/
def roundingError (q : ℚ) : ℚ := |q| / 2 ^ significantBits + 1 / 2 ^ (unitBits + 1)

/-- Whether a number is finite and lies within the rounding error of a rational one. -/
structure Approximates (q : ℚ) (x : Binary64) : Prop where
  finite : x.isFinite = true
  close : |x.value - q| ≤ roundingError q

/-! ## Quotients -/

/-- The grid of a binade is as fine as 53 significant bits allow. -/
theorem two_pow_gridExponent_le (num : ℕ) {den : ℕ} (hden : 0 < den) :
    (2 : ℚ) ^ gridExponent (num / den) ≤ num / den / 2 ^ 52 + 1 := by
  have hq : (0 : ℚ) ≤ num / den / 2 ^ 52 := by positivity
  rcases Nat.eq_zero_or_pos (gridExponent (num / den)) with hzero | hpos
  · rw [hzero, pow_zero]
    linarith
  · have hfine : gridExponent 0 < gridExponent (num / den) := hpos
    have hwhole := (below_binade hfine).2
    have hle : ((2 ^ 52 * 2 ^ gridExponent (num / den) : ℕ) : ℚ) ≤ num / den :=
      le_trans (by exact_mod_cast hwhole) (natCast_div_le num hden)
    push_cast at hle
    rw [← sub_le_iff_le_add, le_div_iff₀ (by positivity)]
    linarith

theorem nearestUnits_error (num : ℕ) {den : ℕ} (hden : 0 < den) :
    |(nearestUnits num den : ℚ) - num / den| ≤ num / den / 2 ^ 53 + 1 / 2 := by
  have hclose := (roundHalfEven_isNearestEven num
    (show 0 < den * 2 ^ gridExponent (num / den) by positivity)).close
  rw [nearestUnits_eq, dist_grid _ num _ hden]
  calc _ ≤ 1 / 2 * (2 : ℚ) ^ gridExponent (num / den) :=
        mul_le_mul_of_nonneg_right hclose (by positivity)
    _ ≤ 1 / 2 * (num / den / 2 ^ 52 + 1) :=
        mul_le_mul_of_nonneg_left (two_pow_gridExponent_le num hden) (by norm_num)
    _ = num / den / 2 ^ 53 + 1 / 2 := by ring

/-- Rounding does not double a quotient, unless it is small. -/
theorem nearestUnits_lt {num den k : ℕ} (hden : 0 < den) (hk : k ≠ 0)
    (h : (num / den : ℚ) ≤ 2 ^ k) : nearestUnits num den < 2 ^ (k + 1) := by
  have herror := (abs_le.mp (nearestUnits_error num hden)).2
  have hone : (1 : ℚ) < 2 ^ k := one_lt_pow₀ (by norm_num) hk
  have hhalf : (num / den : ℚ) / 2 ^ 53 ≤ num / den / 2 := by
    apply div_le_div_of_nonneg_left (by positivity) (by norm_num)
    norm_num
  have hlt : (nearestUnits num den : ℚ) < 2 ^ (k + 1) := by
    rw [pow_succ]
    linarith
  exact_mod_cast hlt

/-- Up to half of the range a quotient is rounded to a finite number. -/
theorem approximates_ofRatio {num den k : ℕ} (negative : Bool) {q : ℚ} (hden : 0 < den)
    (hq : (num / den : ℚ) = q * 2 ^ unitBits) (hk : k + unitBits < rangeBits) (hrange : q ≤ 2 ^ k) :
    Approximates (signedRational negative q) (ofRatio negative num den) := by
  have hratio : (0 : ℚ) ≤ num / den := by positivity
  have hpos : (0 : ℚ) < 2 ^ unitBits := by positivity
  have hnonneg : 0 ≤ q := by
    rw [hq] at hratio
    exact (mul_nonneg_iff_of_pos_right hpos).mp hratio
  have hlt : nearestUnits num den < power 2 rangeBits := by
    have hscaled : (num / den : ℚ) ≤ 2 ^ (k + unitBits) := by
      rw [hq, pow_add]
      exact mul_le_mul_of_nonneg_right hrange hpos.le
    have hbits : k + unitBits ≠ 0 := by simp [unitBits]
    rw [power_eq_pow]
    exact (nearestUnits_lt hden hbits hscaled).trans_le (Nat.pow_le_pow_right (by norm_num) hk)
  rw [ofRatio, dif_pos hlt]
  refine ⟨rfl, ?_⟩
  rw [value, abs_signedRational_sub, Magnitude.dist_value, roundingError, abs_signedRational,
    abs_of_nonneg hnonneg, div_le_iff₀ hpos, ← hq]
  refine (nearestUnits_error num hden).trans_eq ?_
  have hunit : 1 / (2 : ℚ) ^ (unitBits + 1) * 2 ^ unitBits = 1 / 2 := by
    rw [pow_succ]
    field_simp
  rw [add_mul, hunit, hq, significantBits]
  ring

/-! ## Numbers -/

theorem value_neg (x : Binary64) : (-x).value = -x.value := by
  cases x with
  | nan => exact neg_zero.symm
  | infinite negative => exact neg_zero.symm
  | finite negative x =>
      cases negative with
      | false => rfl
      | true => exact (neg_neg x.value).symm

theorem isFinite_neg (x : Binary64) : (-x).isFinite = x.isFinite := by
  cases x <;> rfl

/-- The exact value of a finite number, counted in units. -/
theorem value_mul (negative : Bool) (x : Magnitude) :
    (finite negative x).value * 2 ^ unitBits = signedUnits negative x.units := by
  cases negative with
  | false => exact x.value_mul
  | true =>
      have hneg : (finite true x).value = -x.value := rfl
      rw [hneg, neg_mul, x.value_mul, signedUnits, if_pos rfl]
      push_cast
      rfl

/-- Numbers are compared as their exact values are. -/
theorem le_iff_value_le {x y : Binary64} (hx : x.isFinite = true) (hy : y.isFinite = true) :
    x.le y = true ↔ x.value ≤ y.value := by
  obtain _ | _ | ⟨s, x⟩ := x <;> try contradiction
  obtain _ | _ | ⟨t, y⟩ := y <;> try contradiction
  have hpos : (0 : ℚ) < 2 ^ unitBits := by positivity
  rw [← mul_le_mul_iff_left₀ hpos, value_mul, value_mul, Int.cast_le, le, decide_eq_true_eq]

theorem value_signedZero (negative : Bool) : (signedZero negative).value = 0 := by
  cases negative <;> simp [value, signedZero, signedRational, Magnitude.value]

theorem roundingError_nonneg (q : ℚ) : 0 ≤ roundingError q := by
  rw [roundingError]
  positivity

/-- A sum is zero, or the absolute value of the exact sum rounded once, with its sign. -/
theorem add_eq_signedZero_or_ofRatio {x y : Binary64} (hx : x.isFinite = true)
    (hy : y.isFinite = true) :
    (x.value + y.value = 0 ∧ ∃ negative, x + y = signedZero negative) ∨
      ∃ num : ℕ, ((num / (1 : ℕ) : ℚ) = |x.value + y.value| * 2 ^ unitBits) ∧
        x + y = ofRatio (x.value + y.value < 0) num 1 := by
  obtain _ | _ | ⟨s, x⟩ := x <;> try contradiction
  obtain _ | _ | ⟨t, y⟩ := y <;> try contradiction
  generalize hsum : signedUnits s x.units + signedUnits t y.units = sum
  have hvalue : ((finite s x).value + (finite t y).value) * 2 ^ unitBits = sum := by
    rw [add_mul, value_mul, value_mul, ← hsum]
    push_cast
    rfl
  have hadd : finite s x + finite t y =
      if sum = 0 then signedZero (s && t) else ofRatio (sum < 0) sum.natAbs 1 := by
    rw [← hsum]
    rfl
  have hpos : (0 : ℚ) < 2 ^ unitBits := by positivity
  generalize (finite s x).value + (finite t y).value = q at hvalue ⊢
  rw [hadd]
  split_ifs with hzero
  · rw [hzero, Int.cast_zero, mul_eq_zero_iff_right hpos.ne'] at hvalue
    exact Or.inl ⟨hvalue, s && t, rfl⟩
  · refine Or.inr ⟨sum.natAbs, ?_, ?_⟩
    · rw [Nat.cast_one, div_one, Nat.cast_natAbs, ← abs_of_pos hpos, ← abs_mul, hvalue]
      push_cast
      rfl
    · have hsign : decide (sum < 0) = decide (q < 0) := by
        rw [decide_eq_decide, ← Int.cast_lt_zero (R := ℚ), ← hvalue, ← not_le, ← not_le,
          mul_nonneg_iff_of_pos_right hpos]
      rw [hsign]

/-- A sum is the exact sum, rounded once. -/
theorem approximates_add {x y : Binary64} (hx : x.isFinite = true) (hy : y.isFinite = true)
    {k : ℕ} (hk : k + unitBits < rangeBits) (hrange : |x.value + y.value| ≤ 2 ^ k) :
    Approximates (x.value + y.value) (x + y) := by
  rcases add_eq_signedZero_or_ofRatio hx hy with ⟨hzero, negative, hadd⟩ | ⟨num, hratio, hadd⟩
  · rw [hadd, hzero]
    refine ⟨rfl, ?_⟩
    rw [value_signedZero, sub_self, abs_zero]
    exact roundingError_nonneg 0
  · have hrounded := approximates_ofRatio (x.value + y.value < 0) one_pos hratio hk hrange
    rwa [signedRational_abs, ← hadd] at hrounded

end Binary64

/-- A decimal number is read as its value, rounded once. -/
theorem Decimal.approximates_nearest {d : Decimal} {k : ℕ} (negative : Bool)
    (hk : k + unitBits < rangeBits) (hrange : d.value ≤ 2 ^ k) :
    Binary64.Approximates (signedRational negative d.value) (d.nearest negative) := by
  obtain ⟨num, den, hden, hratio⟩ := Decimal.exists_ratio d
  rw [nearest_eq_ofRatio negative hden hratio]
  exact Binary64.approximates_ofRatio negative hden hratio hk hrange

end ComplexCalculator
