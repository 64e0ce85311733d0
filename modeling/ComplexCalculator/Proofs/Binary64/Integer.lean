import ComplexCalculator.Proofs.ComplexFormat.Exact

/-!
# Integers in double precision

A natural number up to `2 ^ 53` has at most 53 significant bits.  Hence sums, differences and
products of integers are exact as long as they stay within this bound, and writing an integer
with decimal places and reading it back loses nothing but the sign of a zero.
-/

namespace ComplexCalculator

open Binary64 (rangeBits unitBits)

/-- The magnitude that is a natural number. -/
def Magnitude.ofNat (n : ℕ) (h : n ≤ 2 ^ 53) : Magnitude where
  units := n * power 2 unitBits
  representable := by
    refine ⟨?_, Binary64.grid_dvd_mul h⟩
    have hbits : 2 ^ 53 * power 2 unitBits < power 2 rangeBits := by
      rw [power_eq_pow, power_eq_pow, ← pow_add]
      exact Nat.pow_lt_pow_right one_lt_two (by decide)
    exact (Nat.mul_le_mul_right _ h).trans_lt hbits

theorem Magnitude.value_ofNat (n : ℕ) (h : n ≤ 2 ^ 53) : (Magnitude.ofNat n h).value = n := by
  have hpos : (2 : ℚ) ^ unitBits ≠ 0 := by positivity
  have hunits : ((Magnitude.ofNat n h).units : ℚ) = n * 2 ^ unitBits := by
    rw [ofNat]
    push_cast [power_eq_pow]
    rfl
  rw [value, hunits, mul_div_cancel_right₀ _ hpos]

namespace Binary64

/-- Whether a number is an integer; zero may have either sign. -/
structure IsInteger (n : ℤ) (x : Binary64) : Prop where
  finite : x.isFinite = true
  value_eq : x.value = n

variable {m n : ℤ} {x y : Binary64}

theorem isInteger_zero : IsInteger 0 zero :=
  ⟨rfl, (value_signedZero false).trans Int.cast_zero.symm⟩

/-! ## Rounding -/

/-- A quotient that is a small integer is not changed by rounding. -/
theorem isInteger_ofRatio {negative : Bool} {num den : ℕ} (hden : 0 < den) (hn : |n| ≤ 2 ^ 53)
    (hratio : (num / den : ℚ) = |(n : ℚ)| * 2 ^ unitBits)
    (hsign : signedRational negative |(n : ℚ)| = n) : IsInteger n (ofRatio negative num den) := by
  have hbound : n.natAbs ≤ 2 ^ 53 := by
    rw [Int.abs_eq_natAbs] at hn
    exact_mod_cast hn
  have hunits : (num / den : ℚ) = (Magnitude.ofNat n.natAbs hbound).units := by
    rw [← Magnitude.value_mul, Magnitude.value_ofNat, hratio, Nat.cast_natAbs, Int.cast_abs]
  rw [ofRatio_units negative _ hden hunits]
  refine ⟨rfl, ?_⟩
  rw [value, Magnitude.value_ofNat, Nat.cast_natAbs, Int.cast_abs, hsign]

/-- A decimal number that is a small integer is read exactly. -/
theorem isInteger_nearest {negative : Bool} {d : Decimal} (hn : |n| ≤ 2 ^ 53)
    (hvalue : d.value = |(n : ℚ)|) (hsign : signedRational negative |(n : ℚ)| = n) :
    IsInteger n (d.nearest negative) := by
  obtain ⟨num, den, hden, hratio⟩ := Decimal.exists_ratio d
  rw [Decimal.nearest_eq_ofRatio negative hden hratio]
  rw [hvalue] at hratio
  exact isInteger_ofRatio hden hn hratio hsign

theorem isInteger_one : IsInteger 1 one := by
  rw [← ofPlaces_one 0, ofPlaces_natCast]
  apply isInteger_nearest (by norm_num)
  · rw [Decimal.value_ofPlaces]
    norm_num
  · norm_num [signedRational]

/-! ## Arithmetic -/

/-- The product of two numbers is the absolute value of the exact product, rounded once, with
its sign. -/
theorem exists_ofRatio_mul (hx : x.isFinite = true) (hy : y.isFinite = true) :
    ∃ negative num den, 0 < den ∧
      ((num : ℕ) / (den : ℕ) : ℚ) = |x.value * y.value| * 2 ^ unitBits ∧
      signedRational negative |x.value * y.value| = x.value * y.value ∧
      x * y = ofRatio negative num den := by
  obtain _ | _ | ⟨s, x⟩ := x <;> try contradiction
  obtain _ | _ | ⟨t, y⟩ := y <;> try contradiction
  have hnonneg : 0 ≤ x.value * y.value := by
    rw [Magnitude.value, Magnitude.value]
    positivity
  have habs : |(finite s x).value * (finite t y).value| = x.value * y.value := by
    rw [abs_mul, value, value, abs_signedRational, abs_signedRational, ← abs_mul,
      abs_of_nonneg hnonneg]
  have hmul : finite s x * finite t y =
      ofRatio (s != t) (x.units * y.units) (power 2 unitBits) := by
    change mul _ _ = _
    rw [mul]
  refine ⟨s != t, x.units * y.units, power 2 unitBits, power_pos two_pos _, ?_, ?_, hmul⟩
  · rw [habs, Magnitude.value, Magnitude.value, power_eq_pow]
    push_cast
    field_simp
  · rw [habs]
    cases s <;> cases t <;> simp [value, signedRational]

theorem IsInteger.neg (hx : IsInteger n x) : IsInteger (-n) (-x) := by
  refine ⟨(isFinite_neg x).trans hx.finite, ?_⟩
  rw [value_neg, hx.value_eq, Int.cast_neg]

theorem IsInteger.add (hx : IsInteger m x) (hy : IsInteger n y) (h : |m + n| ≤ 2 ^ 53) :
    IsInteger (m + n) (x + y) := by
  have hvalue : x.value + y.value = (m + n : ℤ) := by
    rw [hx.value_eq, hy.value_eq, Int.cast_add]
  rcases add_eq_signedZero_or_ofRatio hx.finite hy.finite with
    ⟨hzero, negative, hadd⟩ | ⟨num, hratio, hadd⟩
  · rw [hadd]
    refine ⟨rfl, ?_⟩
    rw [value_signedZero, ← hvalue, hzero]
  · rw [hvalue] at hratio hadd
    rw [hadd]
    exact isInteger_ofRatio one_pos h hratio (signedRational_abs _)

theorem IsInteger.sub (hx : IsInteger m x) (hy : IsInteger n y) (h : |m - n| ≤ 2 ^ 53) :
    IsInteger (m - n) (x - y) := by
  rw [sub_eq_add_neg] at h ⊢
  exact hx.add hy.neg h

theorem IsInteger.mul (hx : IsInteger m x) (hy : IsInteger n y) (h : |m * n| ≤ 2 ^ 53) :
    IsInteger (m * n) (x * y) := by
  have hvalue : x.value * y.value = (m * n : ℤ) := by
    rw [hx.value_eq, hy.value_eq, Int.cast_mul]
  obtain ⟨negative, num, den, hden, hratio, hsign, hmul⟩ :=
    exists_ofRatio_mul hx.finite hy.finite
  rw [hvalue] at hratio hsign
  rw [hmul]
  exact isInteger_ofRatio hden h hratio hsign

/-! ## Writing -/

/-- An integer is a whole number of units of every decimal place. -/
theorem IsInteger.near (h : IsInteger n x) (places : ℕ) :
    Near places 0 (n * 10 ^ places) x := by
  refine ⟨h.finite, ?_⟩
  rw [h.value_eq]
  push_cast
  rw [sub_self, abs_zero]

/-- Rounding to decimal places does not change an integer. -/
theorem IsInteger.settled (h : IsInteger n x) (hn : |n| ≤ 2 ^ 53) (places : ℕ) :
    IsInteger n (x.settled places) := by
  have hpos : (0 : ℚ) < 10 ^ places := by positivity
  have hexact : ((n * 10 ^ places : ℤ) : ℚ) / 10 ^ places = n := by
    push_cast
    exact mul_div_cancel_right₀ _ hpos.ne'
  have hvalue : (Decimal.ofPlaces places (n * 10 ^ places).natAbs).value = |(n : ℚ)| := by
    rw [← hexact, ← signedRational_ofPlaces, abs_signedRational, Decimal.value_ofPlaces,
      abs_of_nonneg (by positivity)]
  have hsign := signedRational_ofPlaces places (n * 10 ^ places)
  rw [hvalue, hexact] at hsign
  rw [(h.near places).settled_eq (by norm_num), ofPlaces]
  exact isInteger_nearest hn hvalue hsign

end Binary64

end ComplexCalculator
