import ComplexCalculator.ComplexFormat.Basic
import ComplexCalculator.Proofs.Decimal.Nearest

/-!
# Rounding to decimal places

A part of a complex number is written as a whole number of units of the last decimal
place and read back as the nearest number.  `Binary64.settled` is the result.  Although
the two roundings are in different bases, the second one never leaves the range of the
first: the number that is read lies no farther from the written decimal than the number
that was written, so that writing it again gives the same digits.
-/

namespace ComplexCalculator

open Binary64 (OnGrid gridExponent nearestUnits ofRatio rangeBits signedZero significantBits
  unitBits)

/-- A whole number of units of the last of `places` decimal places. -/
def Decimal.ofPlaces (places n : ℕ) : Decimal := ⟨n, -(places : ℤ)⟩

theorem Decimal.value_ofPlaces (places n : ℕ) :
    (Decimal.ofPlaces places n).value = n / 10 ^ places := by
  rw [Decimal.value, Decimal.ofPlaces, zpow_neg, zpow_natCast, div_eq_mul_inv]

/-! ## Signs -/

theorem Binary64.withSign_ofRatio (negative sign : Bool) (num den : ℕ) :
    (ofRatio negative num den).withSign sign = ofRatio sign num den := by
  unfold ofRatio
  split_ifs <;> rfl

/-- The sign and the magnitude of a decimal are read independently. -/
theorem Decimal.withSign_nearest (d : Decimal) (negative sign : Bool) :
    (d.nearest negative).withSign sign = d.nearest sign := by
  obtain ⟨num, den, hden, hratio⟩ := Decimal.exists_ratio d
  rw [nearest_eq_ofRatio negative hden hratio, nearest_eq_ofRatio sign hden hratio,
    Binary64.withSign_ofRatio]

/-! ## Writing what was read -/

namespace Magnitude

theorem roundedPlaces_isNearestEven (x : Magnitude) (places : ℕ) :
    IsNearestEven (x.value * 10 ^ places) (x.roundedPlaces places) := by
  have hvalue : x.value * 10 ^ places =
      ((x.units * 10 ^ places : ℕ) : ℚ) / (2 ^ unitBits : ℕ) := by
    rw [value]
    push_cast
    ring
  rw [hvalue, roundedPlaces, power_eq_pow, power_eq_pow]
  exact roundHalfEven_isNearestEven _ (by positivity)

/-- A magnitude that lies no farther from the written decimal is written in the same
way. -/
theorem roundedPlaces_eq_of_dist_le {x y : Magnitude} {places : ℕ}
    (h : |y.value - (x.roundedPlaces places : ℚ) / 10 ^ places| ≤
      |x.value - (x.roundedPlaces places : ℚ) / 10 ^ places|) :
    y.roundedPlaces places = x.roundedPlaces places := by
  have hpos : (0 : ℚ) < 10 ^ places := by positivity
  have hscaled (v : ℚ) : |v * 10 ^ places - x.roundedPlaces places| =
      |v - (x.roundedPlaces places : ℚ) / 10 ^ places| * 10 ^ places := by
    have hfactor : v * 10 ^ places - x.roundedPlaces places =
        (v - (x.roundedPlaces places : ℚ) / 10 ^ places) * 10 ^ places := by
      rw [sub_mul, div_mul_cancel₀ _ hpos.ne']
    rw [hfactor, abs_mul, abs_of_pos hpos]
  have hx := x.roundedPlaces_isNearestEven places
  have hy : IsNearestEven (y.value * 10 ^ places) (x.roundedPlaces places) := by
    apply hx.of_dist_le
    rw [hscaled, hscaled]
    exact mul_le_mul_of_nonneg_right h hpos.le
  exact (y.roundedPlaces_isNearestEven places).unique hy

/-- The written decimal is at most half a unit of the last place away. -/
theorem dist_roundedPlaces_le (x : Magnitude) (places : ℕ) :
    |x.value - (x.roundedPlaces places : ℚ) / 10 ^ places| ≤ 1 / 2 / 10 ^ places := by
  have hpos : (0 : ℚ) < 10 ^ places := by positivity
  have hclose := (x.roundedPlaces_isNearestEven places).close
  have hfactor : (x.roundedPlaces places : ℚ) - x.value * 10 ^ places =
      -((x.value - (x.roundedPlaces places : ℚ) / 10 ^ places) * 10 ^ places) := by
    field_simp
    ring
  rw [hfactor, abs_neg, abs_mul, abs_of_pos hpos] at hclose
  rwa [le_div_iff₀ hpos]

/-- The number that is read is finite, and is written with the same digits. -/
theorem exists_nearest_roundedPlaces (x : Magnitude) (places : ℕ) (negative : Bool) :
    ∃ y : Magnitude,
      (Decimal.ofPlaces places (x.roundedPlaces places)).nearest negative = .finite negative y ∧
      y.roundedPlaces places = x.roundedPlaces places := by
  obtain ⟨num, den, hden, hratio⟩ :=
    Decimal.exists_ratio (Decimal.ofPlaces places (x.roundedPlaces places))
  rw [Decimal.nearest_eq_ofRatio negative hden hratio]
  rw [Decimal.value_ofPlaces] at hratio
  have hdouble := pow_sub_one_mul (show unitBits ≠ 0 by decide) (2 : ℚ)
  have hnear := Binary64.nearestUnits_le_dist num hden x.representable.2
  have hunits : |(x.units : ℚ) - num / den| ≤ 2 ^ (unitBits - 1) := by
    have hone : (1 : ℚ) ≤ 10 ^ places := one_le_pow₀ (by norm_num)
    have hdist := (x.dist_roundedPlaces_le places).trans (div_le_self (by norm_num) hone)
    rw [x.dist_value, ← hratio, div_le_iff₀ (by positivity)] at hdist
    rw [← hdouble] at hdist
    linarith
  have hrange : nearestUnits num den < power 2 rangeBits := by
    have hupper : (nearestUnits num den : ℚ) ≤ x.units + 2 ^ unitBits := by
      have h1 := abs_le.mp (hnear.trans hunits)
      have h2 := abs_le.mp hunits
      linarith
    have hbound : nearestUnits num den ≤ x.units + 2 ^ unitBits := by exact_mod_cast hupper
    have hstep : 2 ^ unitBits < 2 ^ (rangeBits - significantBits) :=
      Nat.pow_lt_pow_right (by norm_num) (by decide)
    have hfinite := x.representable.1
    rw [power_eq_pow] at hfinite ⊢
    have htop := OnGrid.add_le x.representable.2 hfinite
    omega
  refine ⟨⟨nearestUnits num den, hrange, Binary64.grid_dvd_nearestUnits num den⟩, ?_, ?_⟩
  · exact Binary64.ofRatio_eq_finite negative _ rfl
  · apply roundedPlaces_eq_of_dist_le
    rw [dist_value, dist_value, ← hratio]
    exact div_le_div_of_nonneg_right hnear (by positivity)

end Magnitude

/-! ## Parts of complex numbers -/

namespace Binary64

/-- The number that is read back after a number was written with so many decimal places.
What is written as zero is read without a sign. -/
def settled (places : ℕ) : Binary64 → Binary64
  | .nan => .nan
  | .infinite negative => .infinite negative
  | .finite negative x =>
    (Decimal.ofPlaces places (x.roundedPlaces places)).nearest
      (negative && x.roundedPlaces places != 0)

/-- What writing and reading does to a number, without an algorithm: the exact value is
rounded half to even to a whole number of units of the last decimal place, and the nearest
number to that decimal is read. -/
def ReadBack (places : ℕ) : Binary64 → Binary64 → Prop
  | .nan, y => y = .nan
  | .infinite negative, y => y = .infinite negative
  | .finite negative x, y => ∃ (n : ℕ) (z : Magnitude),
      IsNearestEven (x.value * 10 ^ places) n ∧ IsNearestMagnitude (n / 10 ^ places) z ∧
      y = .finite (negative && n != 0) z

theorem settled_finite (places : ℕ) (negative : Bool) (x : Magnitude) :
    ∃ y : Magnitude,
      settled places (.finite negative x) =
        .finite (negative && x.roundedPlaces places != 0) y ∧
      y.roundedPlaces places = x.roundedPlaces places :=
  x.exists_nearest_roundedPlaces places _

theorem readBack_settled (places : ℕ) (x : Binary64) : ReadBack places x (settled places x) := by
  cases x with
  | nan => rfl
  | infinite negative => rfl
  | finite negative x =>
      obtain ⟨y, hy, -⟩ := settled_finite places negative x
      refine ⟨x.roundedPlaces places, y, x.roundedPlaces_isNearestEven places, ?_, hy⟩
      rw [← Decimal.value_ofPlaces]
      exact Decimal.isNearestMagnitude_of_nearest hy

theorem isFinite_settled (places : ℕ) (x : Binary64) :
    (settled places x).isFinite = x.isFinite := by
  cases x with
  | nan => rfl
  | infinite negative => rfl
  | finite negative x =>
      obtain ⟨y, hy, -⟩ := settled_finite places negative x
      rw [hy]
      rfl

/-- Writing and reading a second time changes nothing. -/
theorem settled_settled (places : ℕ) (x : Binary64) :
    settled places (settled places x) = settled places x := by
  cases x with
  | nan => rfl
  | infinite negative => rfl
  | finite negative x =>
      obtain ⟨y, hy, hplaces⟩ := settled_finite places negative x
      rw [hy, settled, hplaces, Bool.and_assoc, Bool.and_self]
      exact hy

end Binary64

namespace ComplexFormat

/-- A finite part has as many places as the precision says, if it can be written. -/
theorem partText_finite (f : ComplexFormat) (negative : Bool) (x : Magnitude) :
    f.partText (.finite negative x) =
      f.finitePlaces.map fun _ => fixedText f.precision (x.roundedPlaces f.precision) := by
  rw [partText, finitePlaces]
  split
  · simp only [Except.map]
  · split <;> simp only [Except.map]

theorem partText_settled (f : ComplexFormat) (x : Binary64) :
    f.partText (x.settled f.precision) = f.partText x := by
  cases x with
  | nan => rfl
  | infinite negative => rfl
  | finite negative x =>
      obtain ⟨y, hy, hplaces⟩ := Binary64.settled_finite f.precision negative x
      rw [hy, partText_finite, partText_finite, hplaces]

theorem showsMinus_settled (f : ComplexFormat) (x : Binary64) :
    f.showsMinus (x.settled f.precision) = f.showsMinus x := by
  cases x with
  | nan => rfl
  | infinite negative => rfl
  | finite negative x =>
      obtain ⟨y, hy, hplaces⟩ := Binary64.settled_finite f.precision negative x
      rw [hy, showsMinus, showsMinus, hplaces, Bool.and_assoc, Bool.and_self]

theorem realText_settled (f : ComplexFormat) (x : Binary64) :
    f.realText (x.settled f.precision) = f.realText x := by
  have htext := f.partText_settled x
  have hminus := f.showsMinus_settled x
  cases x with
  | nan => rfl
  | infinite negative => rfl
  | finite negative x =>
      obtain ⟨y, hy, -⟩ := Binary64.settled_finite f.precision negative x
      rw [hy] at htext hminus ⊢
      rw [realText, realText, htext, hminus] <;> intro negative h <;> contradiction

/-- A complex number whose two parts were written and read back. -/
def settled (f : ComplexFormat) (z : ComplexNumber) : ComplexNumber :=
  ⟨z.re.settled f.precision, z.im.settled f.precision⟩

theorem format_settled (f : ComplexFormat) (z : ComplexNumber) :
    f.format (f.settled z) = f.format z := by
  simp only [format, settled, partText_settled, realText_settled, showsMinus_settled]

theorem settled_settled (f : ComplexFormat) (z : ComplexNumber) :
    f.settled (f.settled z) = f.settled z := by
  simp only [settled, Binary64.settled_settled]

end ComplexFormat

end ComplexCalculator
