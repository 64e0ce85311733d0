import ComplexCalculator.Binary64.Basic
import ComplexCalculator.Proofs.Natural.NearestEven
import Mathlib.Algebra.Order.Floor.Semifield

/-!
# Nearest double-precision numbers

`Binary64.nearestUnits` rounds a quotient to the grid of its own binade.  The main
statements say that no number with at most 53 significant bits is nearer to the quotient,
whatever its size, and that on a tie the significand is even.  Hence the result depends
on the quotient alone, and a number is rounded to itself.  What is rounded beyond the range
of finite numbers lies at least half a step above the largest one.
-/

namespace ComplexCalculator

theorem power_eq_pow (base exponent : ℕ) : power base exponent = base ^ exponent := rfl

namespace Binary64

/-- The numbers of units with at most 53 significant bits, of whatever size. -/
def OnGrid (units : ℕ) : Prop := 2 ^ gridExponent units ∣ units

/-! ## The grid of a binade -/

theorem nearestUnits_eq (num den : ℕ) :
    nearestUnits num den =
      roundHalfEven num (den * 2 ^ gridExponent (num / den)) * 2 ^ gridExponent (num / den) :=
  rfl

/-- Distances on a grid are distances between natural numbers, scaled. -/
theorem dist_grid (k num : ℕ) {den : ℕ} (grid : ℕ) (hden : 0 < den) :
    |((k * 2 ^ grid : ℕ) : ℚ) - num / den| =
      |(k : ℚ) - num / (den * 2 ^ grid : ℕ)| * 2 ^ grid := by
  have hne : (den : ℚ) ≠ 0 := by positivity
  have hpos : (0 : ℚ) < 2 ^ grid := by positivity
  have hscaled : ((k * 2 ^ grid : ℕ) : ℚ) - num / den =
      ((k : ℚ) - num / (den * 2 ^ grid : ℕ)) * 2 ^ grid := by
    push_cast
    field_simp
  rw [hscaled, abs_mul, abs_of_pos hpos]

/-- The rounded quotient is the nearest point of its own grid. -/
theorem nearestUnits_le_dist_grid (num : ℕ) {den : ℕ} (hden : 0 < den) (k : ℕ) :
    |(nearestUnits num den : ℚ) - num / den| ≤
      |((k * 2 ^ gridExponent (num / den) : ℕ) : ℚ) - num / den| := by
  have hgrid : 0 < den * 2 ^ gridExponent (num / den) := by positivity
  rw [nearestUnits_eq, dist_grid _ num _ hden, dist_grid _ num _ hden]
  apply mul_le_mul_of_nonneg_right _ (by positivity)
  exact (roundHalfEven_isNearestEven num hgrid).le_dist k

theorem natCast_div_le (num : ℕ) {den : ℕ} (hden : 0 < den) :
    ((num / den : ℕ) : ℚ) ≤ num / den := by
  rw [natCast_div_eq num hden]
  have hrem : (0 : ℚ) ≤ (num % den : ℕ) / (den : ℚ) := by positivity
  linarith

/-- A number from a finer grid than that of a quotient lies below the binade of the
quotient, whose first number is a point of both grids. -/
theorem below_binade {whole m : ℕ} (hfine : gridExponent m < gridExponent whole) :
    m < 2 ^ 52 * 2 ^ gridExponent whole ∧ 2 ^ 52 * 2 ^ gridExponent whole ≤ whole := by
  simp only [gridExponent, significantBits] at hfine ⊢
  have hwhole : whole ≠ 0 := by
    rintro rfl
    simp at hfine
  have hlog : 52 + (whole.log2 - (53 - 1)) = whole.log2 := by omega
  rw [← pow_add, hlog]
  constructor
  · rcases Nat.eq_zero_or_pos m with rfl | hm
    · positivity
    · rw [← Nat.log2_lt hm.ne']
      omega
  · exact Nat.log2_self_le hwhole

/-! ## No number is nearer -/

theorem nearestUnits_lt_dist_below {num den m : ℕ} (hden : 0 < den)
    (hfine : gridExponent m < gridExponent (num / den)) :
    |(nearestUnits num den : ℚ) - num / den| < |(m : ℚ) - num / den| := by
  obtain ⟨hbelow, habove⟩ := below_binade hfine
  have hfloor := natCast_div_le num hden
  have hm : (m : ℚ) < (2 ^ 52 * 2 ^ gridExponent (num / den) : ℕ) := by exact_mod_cast hbelow
  have hstart : ((2 ^ 52 * 2 ^ gridExponent (num / den) : ℕ) : ℚ) ≤ (num / den : ℕ) := by
    exact_mod_cast habove
  calc |(nearestUnits num den : ℚ) - num / den|
      ≤ |((2 ^ 52 * 2 ^ gridExponent (num / den) : ℕ) : ℚ) - num / den| :=
        nearestUnits_le_dist_grid num hden (2 ^ 52)
    _ = num / den - ((2 ^ 52 * 2 ^ gridExponent (num / den) : ℕ) : ℚ) := by
        rw [abs_sub_comm, abs_of_nonneg]
        linarith
    _ < num / den - m := by linarith
    _ = |(m : ℚ) - num / den| := by
        rw [abs_sub_comm, abs_of_nonneg]
        linarith

/-- No number with at most 53 significant bits is nearer than the rounded quotient. -/
theorem nearestUnits_le_dist (num : ℕ) {den m : ℕ} (hden : 0 < den) (hm : OnGrid m) :
    |(nearestUnits num den : ℚ) - num / den| ≤ |(m : ℚ) - num / den| := by
  rcases Nat.lt_or_ge (gridExponent m) (gridExponent (num / den)) with hfine | hcoarse
  · exact (nearestUnits_lt_dist_below hden hfine).le
  · obtain ⟨k, hk⟩ := (pow_dvd_pow 2 hcoarse).trans hm
    rw [mul_comm] at hk
    have hdist := nearestUnits_le_dist_grid num hden k
    rwa [← hk] at hdist

/-- The significand of a number of units, at most 53 bits long. -/
def significand (units : ℕ) : ℕ := units / 2 ^ gridExponent units

/-- A point of the grid has an even significand if it is an even number of steps from
zero, also where it is the first number of the next binade. -/
theorem significand_even {k grid : ℕ} (heven : Even k) (hgrid : gridExponent (k * 2 ^ grid) ≥ grid)
    (hk : k ≤ 2 ^ 53) : Even (significand (k * 2 ^ grid)) := by
  rcases Nat.lt_or_eq_of_le hk with hlt | rfl
  · have hsame : k = 0 ∨ gridExponent (k * 2 ^ grid) = grid := by
      rcases Nat.eq_zero_or_pos k with hzero | hpos
      · exact Or.inl hzero
      · right
        have hbits : k * 2 ^ grid < 2 ^ (53 + grid) := by
          rw [pow_add]
          exact Nat.mul_lt_mul_of_pos_right hlt (by positivity)
        have hne : k * 2 ^ grid ≠ 0 := by positivity
        rw [← Nat.log2_lt hne] at hbits
        simp only [gridExponent, significantBits] at hgrid ⊢
        omega
    rcases hsame with rfl | hsame
    · simp [significand]
    · rw [significand, hsame, Nat.mul_div_cancel _ (by positivity)]
      exact heven
  · have hnext : gridExponent (2 ^ 53 * 2 ^ grid) = grid + 1 := by
      rw [← pow_add, gridExponent, Nat.log2_two_pow, significantBits]
      omega
    have hsplit : 2 ^ 53 * 2 ^ grid = 2 ^ 52 * 2 ^ (grid + 1) := by ring
    rw [significand, hnext, hsplit, Nat.mul_div_cancel _ (by positivity)]
    exact ⟨2 ^ 51, by norm_num⟩

/-- The number of steps of a rounded quotient fits into 53 bits, or is the first one that
does not. -/
theorem grid_steps_le (num den : ℕ) :
    roundHalfEven num (den * 2 ^ gridExponent (num / den)) ≤ 2 ^ 53 := by
  refine (roundHalfEven_le _ _).trans ?_
  rw [← Nat.div_div_eq_div_mul, Nat.succ_le_iff, Nat.div_lt_iff_lt_mul (by positivity), ← pow_add]
  rcases Nat.eq_zero_or_pos (num / den) with hzero | hpos
  · rw [hzero]
    positivity
  · rw [← Nat.log2_lt hpos.ne', gridExponent, significantBits]
    omega

/-- The rounded quotient lies on a grid at least as coarse as that of the quotient. -/
theorem le_gridExponent_nearestUnits (num den : ℕ) :
    gridExponent (num / den) ≤ gridExponent (nearestUnits num den) := by
  rw [nearestUnits_eq]
  simp only [gridExponent, significantBits]
  rcases Nat.lt_or_ge (num / den).log2 53 with hsmall | hlarge
  · omega
  · have hfloor := div_le_roundHalfEven num (den * 2 ^ gridExponent (num / den))
    rw [← Nat.div_div_eq_div_mul] at hfloor
    have hne : num / den ≠ 0 := by
      intro hzero
      rw [hzero] at hlarge
      simp at hlarge
    have hstart : 2 ^ (num / den).log2 ≤
        roundHalfEven num (den * 2 ^ gridExponent (num / den)) * 2 ^ gridExponent (num / den) := by
      calc 2 ^ (num / den).log2
          = 2 ^ 52 * 2 ^ gridExponent (num / den) := by
            rw [← pow_add, gridExponent, significantBits]
            congr 1
            omega
        _ ≤ num / den / 2 ^ gridExponent (num / den) * 2 ^ gridExponent (num / den) := by
            apply Nat.mul_le_mul_right
            rw [Nat.le_div_iff_mul_le (by positivity), ← pow_add, gridExponent, significantBits]
            refine le_trans (Nat.pow_le_pow_right (by norm_num) ?_) (Nat.log2_self_le hne)
            omega
        _ ≤ _ := Nat.mul_le_mul_right _ hfloor
    have hlog := (Nat.le_log2 (lt_of_lt_of_le (by positivity) hstart).ne').mpr hstart
    simp only [gridExponent, significantBits] at hlog ⊢
    omega

/-- On a tie with another number the rounded quotient has the even significand. -/
theorem significand_nearestUnits_even {num den m : ℕ} (hden : 0 < den) (hm : OnGrid m)
    (hne : m ≠ nearestUnits num den)
    (htie : |(nearestUnits num den : ℚ) - num / den| = |(m : ℚ) - num / den|) :
    Even (significand (nearestUnits num den)) := by
  rcases Nat.lt_or_ge (gridExponent m) (gridExponent (num / den)) with hfine | hcoarse
  · exact absurd htie (nearestUnits_lt_dist_below hden hfine).ne
  · obtain ⟨k, hk⟩ := (pow_dvd_pow 2 hcoarse).trans hm
    rw [mul_comm] at hk
    have hround := roundHalfEven_isNearestEven num
      (show 0 < den * 2 ^ gridExponent (num / den) by positivity)
    have hsteps : |(roundHalfEven num (den * 2 ^ gridExponent (num / den)) : ℚ) -
        num / (den * 2 ^ gridExponent (num / den) : ℕ)| =
        |(k : ℚ) - num / (den * 2 ^ gridExponent (num / den) : ℕ)| := by
      rw [hk, nearestUnits_eq, dist_grid _ num _ hden, dist_grid _ num _ hden] at htie
      exact mul_right_cancel₀ (by positivity) htie
    have heven := hround.even_of_dist_eq hsteps (by
      rintro rfl
      exact hne hk)
    exact significand_even heven (le_gridExponent_nearestUnits num den) (grid_steps_le num den)

/-! ## Numbers that need no rounding -/

/-- A number with at most 53 significant bits is rounded to itself. -/
theorem nearestUnits_eq_self {num den m : ℕ} (hden : 0 < den) (hm : OnGrid m)
    (h : (num / den : ℚ) = m) : nearestUnits num den = m := by
  have hdist := nearestUnits_le_dist num hden hm
  rw [h, sub_self, abs_zero, abs_nonpos_iff, sub_eq_zero] at hdist
  exact_mod_cast hdist

/-- The result depends on the quotient alone. -/
theorem nearestUnits_congr {num den num' den' : ℕ} (hden : 0 < den) (hden' : 0 < den')
    (h : (num / den : ℚ) = num' / den') : nearestUnits num den = nearestUnits num' den' := by
  have hfloor : num / den = num' / den' := by
    rw [← Nat.floor_div_eq_div (K := ℚ), ← Nat.floor_div_eq_div (K := ℚ), h]
  rw [nearestUnits_eq, nearestUnits_eq, hfloor]
  congr 1
  apply roundHalfEven_congr (by positivity) (by positivity)
  push_cast
  rw [← div_div, h, div_div]

theorem ofRatio_congr {num den num' den' : ℕ} (negative : Bool) (hden : 0 < den)
    (hden' : 0 < den') (h : (num / den : ℚ) = num' / den') :
    ofRatio negative num den = ofRatio negative num' den' := by
  simp only [ofRatio, nearestUnits_congr hden hden' h]

theorem ofRatio_eq_finite {num den : ℕ} (negative : Bool) (x : Magnitude)
    (h : nearestUnits num den = x.units) : ofRatio negative num den = .finite negative x := by
  have hrange : nearestUnits num den < power 2 rangeBits := h ▸ x.representable.1
  rw [ofRatio, dif_pos hrange]
  congr 1
  cases x
  simp only at h
  simp only [h]

/-- A number of units divided by one is the number itself. -/
theorem ofRatio_units (negative : Bool) (x : Magnitude) {num den : ℕ} (hden : 0 < den)
    (h : (num / den : ℚ) = x.units) : ofRatio negative num den = .finite negative x :=
  ofRatio_eq_finite negative x (nearestUnits_eq_self hden x.representable.2 h)

theorem ofRatio_zero (negative : Bool) {den : ℕ} (hden : 0 < den) :
    ofRatio negative 0 den = signedZero negative := by
  apply ofRatio_units negative _ hden
  simp

/-! ## Overflow -/

theorem pow_two_onGrid (k : ℕ) : OnGrid (2 ^ k) := by
  rw [OnGrid, gridExponent, Nat.log2_two_pow]
  exact pow_dvd_pow 2 (by omega)

/-- A quotient beyond a power of two is not rounded below it. -/
theorem two_pow_le_nearestUnits {num den k : ℕ} (hden : 0 < den)
    (h : 2 ^ k * den ≤ num) : 2 ^ k ≤ nearestUnits num den := by
  have hpos : (0 : ℚ) < den := by exact_mod_cast hden
  have hq : ((2 ^ k : ℕ) : ℚ) ≤ num / den := by
    rw [le_div_iff₀ hpos]
    exact_mod_cast h
  have hdist := nearestUnits_le_dist num hden (pow_two_onGrid k)
  rw [abs_of_nonpos (by linarith : ((2 ^ k : ℕ) : ℚ) - num / den ≤ 0)] at hdist
  have hlower := (abs_le.mp hdist).1
  have hresult : ((2 ^ k : ℕ) : ℚ) ≤ nearestUnits num den := by linarith
  exact_mod_cast hresult

theorem ofRatio_eq_infinite {num den : ℕ} (negative : Bool) (hden : 0 < den)
    (h : 2 ^ rangeBits * den ≤ num) : ofRatio negative num den = .infinite negative := by
  have hrange : ¬nearestUnits num den < power 2 rangeBits := by
    rw [power_eq_pow]
    exact Nat.not_lt.mpr (two_pow_le_nearestUnits hden h)
  rw [ofRatio, dif_neg hrange]

/-- The largest number lies a whole step of its grid below the end of the range. -/
theorem OnGrid.add_le {units : ℕ} (hgrid : OnGrid units) (hrange : units < 2 ^ rangeBits) :
    units + 2 ^ (rangeBits - significantBits) ≤ 2 ^ rangeBits := by
  rcases Nat.lt_or_ge units (2 ^ (rangeBits - 1)) with hlow | hhigh
  · have hstep : 2 ^ (rangeBits - significantBits) ≤ 2 ^ (rangeBits - 1) :=
      Nat.pow_le_pow_right (by norm_num) (by decide)
    have hdouble := pow_sub_one_mul (show rangeBits ≠ 0 by decide) 2
    omega
  · have hne : units ≠ 0 := (lt_of_lt_of_le (by positivity) hhigh).ne'
    have hlog : units.log2 = rangeBits - 1 := by
      have hupper := (Nat.log2_lt hne).mpr hrange
      have hlower := (Nat.le_log2 hne).mpr hhigh
      omega
    have hexponent : gridExponent units = rangeBits - significantBits := by
      rw [gridExponent, hlog]
      rfl
    rw [OnGrid, hexponent] at hgrid
    obtain ⟨k, hk⟩ := hgrid
    have hbits : rangeBits - significantBits + significantBits = rangeBits := rfl
    have htop : 2 ^ rangeBits = 2 ^ (rangeBits - significantBits) * 2 ^ significantBits := by
      rw [← pow_add, hbits]
    rw [hk, htop] at hrange ⊢
    have hlt := Nat.lt_of_mul_lt_mul_left hrange
    calc 2 ^ (rangeBits - significantBits) * k + 2 ^ (rangeBits - significantBits)
        = 2 ^ (rangeBits - significantBits) * (k + 1) := by ring
      _ ≤ 2 ^ (rangeBits - significantBits) * 2 ^ significantBits := Nat.mul_le_mul_left _ hlt

/-- The largest number of units that a finite number can hold. -/
def largestUnits : ℕ := 2 ^ rangeBits - 2 ^ (rangeBits - significantBits)

theorem largestUnits_onGrid : OnGrid largestUnits := by
  rw [OnGrid]
  decide +kernel

theorem significand_largestUnits : significand largestUnits = 2 ^ significantBits - 1 := by
  decide +kernel

theorem two_pow_rangeBits :
    ((2 ^ rangeBits : ℕ) : ℚ) = largestUnits + 2 * 2 ^ (rangeBits - significantBits - 1) := by
  have h : 2 ^ rangeBits = largestUnits + 2 * 2 ^ (rangeBits - significantBits - 1) := by
    decide +kernel
  exact_mod_cast h

/-- A quotient is rounded beyond the range exactly if it lies half a step or more above the
largest number; on the tie the significand of that number would be odd. -/
theorem two_pow_le_nearestUnits_iff {num den : ℕ} (hden : 0 < den) :
    2 ^ rangeBits ≤ nearestUnits num den ↔
      (largestUnits : ℚ) + 2 ^ (rangeBits - significantBits - 1) ≤ num / den := by
  have htop := two_pow_rangeBits
  have hhalf : (0 : ℚ) < 2 ^ (rangeBits - significantBits - 1) := by positivity
  constructor
  · intro hover
    by_contra hbelow
    have hresult : ((2 ^ rangeBits : ℕ) : ℚ) ≤ nearestUnits num den := by exact_mod_cast hover
    have hdist := nearestUnits_le_dist num hden largestUnits_onGrid
    rw [abs_of_nonneg (by linarith : (0 : ℚ) ≤ nearestUnits num den - num / den), le_abs] at hdist
    rcases hdist with h | h <;> linarith
  · intro hq
    by_contra hunder
    have hrange := Nat.lt_of_not_ge hunder
    have hgrid : OnGrid (nearestUnits num den) := grid_dvd_nearestUnits num den
    have hlargest : (nearestUnits num den : ℚ) ≤ largestUnits := by
      exact_mod_cast Nat.le_sub_of_add_le (hgrid.add_le hrange)
    have hdist := nearestUnits_le_dist num hden (pow_two_onGrid rangeBits)
    have hresult : |(nearestUnits num den : ℚ) - num / den| = num / den - nearestUnits num den := by
      rw [abs_sub_comm, abs_of_nonneg (by linarith)]
    rw [hresult, le_abs] at hdist
    have htie : num / den - (nearestUnits num den : ℚ) = ((2 ^ rangeBits : ℕ) : ℚ) - num / den := by
      rcases hdist with h | h <;> linarith
    have hsame : nearestUnits num den = largestUnits := by
      have h : (nearestUnits num den : ℚ) = largestUnits := by linarith
      exact_mod_cast h
    have heven := significand_nearestUnits_even hden (pow_two_onGrid rangeBits) hrange.ne' (by
      rw [hresult, htie, abs_of_nonneg (by linarith)])
    rw [hsame, significand_largestUnits] at heven
    revert heven
    decide

/-- What is less than half the smallest number is rounded to zero. -/
theorem ofRatio_eq_zero {num den : ℕ} (negative : Bool) (h : 2 * num < den) :
    ofRatio negative num den = signedZero negative := by
  have hdiv : num / den = 0 := Nat.div_eq_of_lt (by omega)
  have hmod : num % den = num := Nat.mod_eq_of_lt (by omega)
  have hzero : nearestUnits num den = 0 := by
    rw [nearestUnits_eq, hdiv]
    simp [gridExponent, roundHalfEven, hdiv, hmod, h]
  exact ofRatio_eq_finite negative ⟨0, power_pos (by decide) _, Nat.dvd_zero _⟩ hzero

end Binary64

end ComplexCalculator
