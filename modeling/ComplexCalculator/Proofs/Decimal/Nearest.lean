import ComplexCalculator.Decimal.Basic
import ComplexCalculator.Proofs.Binary64.Nearest
import Mathlib.Algebra.Order.Field.Power
import Mathlib.Tactic.Positivity

/-!
# The number that a decimal is read as

The exact values of magnitudes and decimals are rational numbers.  `Decimal.nearest`
rounds the value of a decimal once, also where it takes a shortcut for large or small
exponents: what it gives depends on the value alone, and no magnitude is nearer.
-/

namespace ComplexCalculator

open Binary64 (OnGrid largestUnits nearestUnits ofRatio significand significantBits signedZero
  unitBits rangeBits)

/-- The exact value of a magnitude. -/
def Magnitude.value (x : Magnitude) : ℚ := x.units / 2 ^ unitBits

/-- The exact value of a decimal number. -/
def Decimal.value (d : Decimal) : ℚ := d.significand * 10 ^ d.exponent

/-- The magnitude that a rational number is rounded to, ties going to the even
significand. -/
structure IsNearestMagnitude (q : ℚ) (x : Magnitude) : Prop where
  close : ∀ y : Magnitude, |x.value - q| ≤ |y.value - q|
  /-- Of two equally near magnitudes it is the one with the even significand. -/
  even_of_tie : ∀ y : Magnitude, y ≠ x → |x.value - q| = |y.value - q| →
    Even (significand x.units)

/-! ## Magnitudes -/

theorem Magnitude.value_nonneg (x : Magnitude) : 0 ≤ x.value := by
  rw [value]
  positivity

theorem Magnitude.value_mul (x : Magnitude) : x.value * 2 ^ unitBits = x.units := by
  rw [Magnitude.value]
  field_simp

theorem Magnitude.ext_units {x y : Magnitude} (h : x.units = y.units) : x = y := by
  cases x
  cases y
  simp only at h
  simp only [h]

/-- Distances between values are distances between units, scaled. -/
theorem Magnitude.dist_value (x : Magnitude) (q : ℚ) :
    |x.value - q| = |(x.units : ℚ) - q * 2 ^ unitBits| / 2 ^ unitBits := by
  have hpos : (0 : ℚ) < 2 ^ unitBits := by positivity
  have hscaled : x.value - q = ((x.units : ℚ) - q * 2 ^ unitBits) / 2 ^ unitBits := by
    rw [Magnitude.value]
    field_simp
  rw [hscaled, abs_div, abs_of_pos hpos]

/-- A finite result of rounding is the nearest magnitude. -/
theorem Binary64.isNearestMagnitude_of_ofRatio {num den : ℕ} {negative sign : Bool} {q : ℚ}
    {x : Magnitude} (hden : 0 < den) (hq : (num / den : ℚ) = q * 2 ^ unitBits)
    (h : ofRatio negative num den = .finite sign x) : IsNearestMagnitude q x := by
  rw [ofRatio] at h
  split_ifs at h with hrange
  injection h with hsign hx
  have hunits : x.units = nearestUnits num den := by rw [← hx]
  constructor
  · intro y
    rw [Magnitude.dist_value, Magnitude.dist_value, hunits, ← hq]
    apply div_le_div_of_nonneg_right _ (by positivity)
    exact nearestUnits_le_dist num hden y.representable.2
  · intro y hne htie
    rw [Magnitude.dist_value, Magnitude.dist_value, hunits, ← hq,
      div_left_inj' (by positivity)] at htie
    rw [hunits]
    apply significand_nearestUnits_even hden y.representable.2 _ htie
    intro hsame
    exact hne (Magnitude.ext_units (hsame.trans hunits.symm))

/-! ## Decimals -/

namespace Decimal

theorem value_ofNat (n scale : ℕ) :
    (⟨n, .ofNat scale⟩ : Decimal).value = ((n * 10 ^ scale : ℕ) : ℚ) := by
  rw [Decimal.value]
  push_cast
  rfl

theorem value_negSucc (n scale : ℕ) :
    (⟨n, .negSucc scale⟩ : Decimal).value = (n : ℚ) / (10 ^ (scale + 1) : ℕ) := by
  rw [Decimal.value, zpow_negSucc]
  push_cast
  rfl

theorem num_eq_zero_of_value {d : Decimal} {num den : ℕ} (hden : 0 < den)
    (h : (num / den : ℚ) = d.value * 2 ^ unitBits) (hzero : d.significand = 0) : num = 0 := by
  rw [Decimal.value, hzero, Nat.cast_zero, zero_mul, zero_mul,
    div_eq_zero_iff] at h
  rcases h with h | h
  · exact_mod_cast h
  · exact absurd h (by positivity)

theorem two_pow_le_ten_pow (k : ℕ) : 2 ^ (3 * k) ≤ 10 ^ k := by
  rw [pow_mul]
  exact Nat.pow_le_pow_left (by norm_num) k

/-- A positive exponent of 400 leads beyond the range. -/
theorem overflow_of_value {n scale num den : ℕ} (hden : 0 < den)
    (h : (num / den : ℚ) = (⟨n, .ofNat scale⟩ : Decimal).value * 2 ^ unitBits)
    (hn : n ≠ 0) (hscale : 400 ≤ scale) : 2 ^ rangeBits * den ≤ num := by
  have hpos : (den : ℚ) ≠ 0 := by positivity
  have hnum : num = n * 10 ^ scale * 2 ^ unitBits * den := by
    rw [value_ofNat, div_eq_iff hpos] at h
    exact_mod_cast h
  rw [hnum]
  apply Nat.mul_le_mul_right
  calc 2 ^ rangeBits ≤ 2 ^ (3 * scale) * 2 ^ unitBits := by
        rw [← pow_add]
        apply Nat.pow_le_pow_right (by norm_num)
        simp only [rangeBits, unitBits]
        omega
    _ ≤ 10 ^ scale * 2 ^ unitBits := Nat.mul_le_mul_right _ (two_pow_le_ten_pow scale)
    _ ≤ n * 10 ^ scale * 2 ^ unitBits := by
        apply Nat.mul_le_mul_right
        exact Nat.le_mul_of_pos_left _ (Nat.pos_of_ne_zero hn)

/-- Where the significand is short against the exponent, the value is below half the
smallest number. -/
theorem underflow_of_value {n scale num den : ℕ} (hden : 0 < den)
    (h : (num / den : ℚ) = (⟨n, .negSucc scale⟩ : Decimal).value * 2 ^ unitBits)
    (hshort : n.log2 + unitBits + 3 ≤ 3 * (scale + 1)) : 2 * num < den := by
  have hpos : (den : ℚ) ≠ 0 := by positivity
  have hten : ((10 ^ (scale + 1) : ℕ) : ℚ) ≠ 0 := by positivity
  have hcross : num * 10 ^ (scale + 1) = n * 2 ^ unitBits * den := by
    rw [value_negSucc, div_mul_eq_mul_div, div_eq_div_iff hpos hten] at h
    exact_mod_cast h
  have hlog : n < 2 ^ (n.log2 + 1) := Nat.lt_log2_self
  have hsmall : 2 * (n * 2 ^ unitBits) < 10 ^ (scale + 1) := by
    calc 2 * (n * 2 ^ unitBits) < 2 * (2 ^ (n.log2 + 1) * 2 ^ unitBits) := by
          apply Nat.mul_lt_mul_of_pos_left _ (by norm_num)
          exact Nat.mul_lt_mul_of_pos_right hlog (by positivity)
      _ = 2 ^ (n.log2 + unitBits + 2) := by ring
      _ ≤ 2 ^ (3 * (scale + 1)) := Nat.pow_le_pow_right (by norm_num) (by omega)
      _ ≤ 10 ^ (scale + 1) := two_pow_le_ten_pow (scale + 1)
  have hscaled : 2 * num * 10 ^ (scale + 1) < den * 10 ^ (scale + 1) := by
    calc 2 * num * 10 ^ (scale + 1) = 2 * (n * 2 ^ unitBits) * den := by
          rw [mul_assoc, hcross]
          ring
      _ < 10 ^ (scale + 1) * den := Nat.mul_lt_mul_of_pos_right hsmall hden
      _ = den * 10 ^ (scale + 1) := mul_comm _ _
  exact Nat.lt_of_mul_lt_mul_right hscaled

/-- A decimal is read as its value, rounded once, whatever its exponent. -/
theorem nearest_eq_ofRatio {d : Decimal} {num den : ℕ} (negative : Bool) (hden : 0 < den)
    (h : (num / den : ℚ) = d.value * 2 ^ unitBits) :
    d.nearest negative = ofRatio negative num den := by
  obtain ⟨n, exponent⟩ := d
  rw [nearest]
  cases exponent with
  | ofNat scale =>
      dsimp only
      split_ifs with hzero hlarge
      · rw [num_eq_zero_of_value hden h hzero, Binary64.ofRatio_zero negative hden]
      · have hover := overflow_of_value hden h hzero hlarge
        exact (Binary64.ofRatio_eq_infinite negative hden hover).symm
      · apply Binary64.ofRatio_congr negative one_pos hden
        rw [h, value_ofNat, power_eq_pow, power_eq_pow]
        push_cast
        ring
  | negSucc scale =>
      dsimp only
      split_ifs with hshort
      · exact (Binary64.ofRatio_eq_zero negative (underflow_of_value hden h hshort)).symm
      · apply Binary64.ofRatio_congr negative (power_pos (by norm_num) _) hden
        rw [h, value_negSucc, power_eq_pow, power_eq_pow]
        push_cast
        ring

/-- Every decimal has a value that is a quotient of natural numbers. -/
theorem exists_ratio (d : Decimal) :
    ∃ num den : ℕ, 0 < den ∧ (num / den : ℚ) = d.value * 2 ^ unitBits := by
  obtain ⟨n, exponent⟩ := d
  cases exponent with
  | ofNat scale =>
      refine ⟨n * 10 ^ scale * 2 ^ unitBits, 1, one_pos, ?_⟩
      rw [value_ofNat]
      push_cast
      ring
  | negSucc scale =>
      refine ⟨n * 2 ^ unitBits, 10 ^ (scale + 1), by positivity, ?_⟩
      rw [value_negSucc]
      push_cast
      ring

/-- Decimals with the same value are read as the same number. -/
theorem nearest_congr {d e : Decimal} (negative : Bool) (h : d.value = e.value) :
    d.nearest negative = e.nearest negative := by
  obtain ⟨num, den, hden, hratio⟩ := exists_ratio d
  rw [nearest_eq_ofRatio negative hden hratio, nearest_eq_ofRatio negative hden (h ▸ hratio)]

/-- A decimal that is read as a finite number is read as the nearest one. -/
theorem isNearestMagnitude_of_nearest {d : Decimal} {negative sign : Bool} {x : Magnitude}
    (h : d.nearest negative = .finite sign x) : IsNearestMagnitude d.value x := by
  obtain ⟨num, den, hden, hratio⟩ := exists_ratio d
  rw [nearest_eq_ofRatio negative hden hratio] at h
  exact Binary64.isNearestMagnitude_of_ofRatio hden hratio h

/-- Reading keeps the order. -/
theorem nearest_mono {d e : Decimal} {x y : Magnitude} (hd : d.nearest false = .finite false x)
    (he : e.nearest false = .finite false y) (h : d.value ≤ e.value) : x.value ≤ y.value := by
  have hx := isNearestMagnitude_of_nearest hd
  have hy := isNearestMagnitude_of_nearest he
  by_contra hlt
  have hsame := eq_of_nearest_crossing h (lt_of_not_ge hlt) (hx.close y) (hy.close x)
  rw [nearest_congr false hsame, he] at hd
  injection hd with _ hxy
  rw [hxy] at hlt
  exact hlt le_rfl

/-- The exact value of a magnitude is read as the magnitude. -/
theorem nearest_of_value_eq {d : Decimal} (negative : Bool) {x : Magnitude}
    (h : d.value = x.value) : d.nearest negative = .finite negative x := by
  have hratio : ((x.units : ℕ) / (1 : ℕ) : ℚ) = d.value * 2 ^ unitBits := by
    rw [h, Magnitude.value_mul]
    simp
  rw [nearest_eq_ofRatio negative one_pos hratio]
  exact Binary64.ofRatio_units negative x one_pos (by simp)

end Decimal

/-! ## Overflow -/

namespace Binary64

/-- What is not less than this is rounded to an infinity: the number half a step above the
largest finite one. -/
def overflowBound : ℚ := 2 ^ 1024 - 2 ^ 970

theorem overflowBound_mul :
    overflowBound * 2 ^ unitBits = largestUnits + 2 ^ (rangeBits - significantBits - 1) := by
  have htop := two_pow_rangeBits
  have hbound : overflowBound * 2 ^ unitBits =
      ((2 ^ rangeBits : ℕ) : ℚ) - 2 ^ (rangeBits - significantBits - 1) := by
    rw [overflowBound, sub_mul, ← pow_add, ← pow_add]
    push_cast
    rfl
  linarith

/-- The number that a rational number, not negative, is rounded to: the nearest magnitude, or
infinity beyond the range. -/
def IsNearest (q : ℚ) : Binary64 → Prop
  | .nan => False
  | .infinite negative => negative = false ∧ overflowBound ≤ q
  | .finite negative x => negative = false ∧ q < overflowBound ∧ IsNearestMagnitude q x

end Binary64

theorem Decimal.isNearest_nearest (d : Decimal) : (d.nearest false).IsNearest d.value := by
  obtain ⟨num, den, hden, hratio⟩ := exists_ratio d
  have hpos : (0 : ℚ) < 2 ^ unitBits := by positivity
  have hover : power 2 rangeBits ≤ nearestUnits num den ↔ Binary64.overflowBound ≤ d.value := by
    rw [power_eq_pow, Binary64.two_pow_le_nearestUnits_iff hden, ← Binary64.overflowBound_mul,
      hratio]
    exact mul_le_mul_iff_left₀ hpos
  rw [nearest_eq_ofRatio false hden hratio]
  cases Nat.lt_or_ge (nearestUnits num den) (power 2 rangeBits) with
  | inl hrange =>
      have hfinite : ofRatio false num den =
          .finite false ⟨nearestUnits num den, hrange, Binary64.grid_dvd_nearestUnits num den⟩ :=
        Binary64.ofRatio_eq_finite false _ rfl
      rw [hfinite]
      exact ⟨rfl, lt_of_not_ge (mt hover.mpr (Nat.not_le.mpr hrange)),
        Binary64.isNearestMagnitude_of_ofRatio hden hratio hfinite⟩
  | inr hrange =>
      rw [ofRatio, dif_neg (Nat.not_lt.mpr hrange)]
      exact ⟨rfl, hover.mp hrange⟩

end ComplexCalculator
