import ComplexCalculator.Proofs.Binary64.Error
import ComplexCalculator.Proofs.ComplexFormat.RoundTrip
import ComplexCalculator.Proofs.ComplexFormat.Signs

/-!
# Accuracy and order of rounded parts

A part that was written and read back differs from the original by at most one unit of the last
decimal place: by half a unit when it is written, and by no more when the nearest number is
read, since the original is a candidate.  Both roundings keep the order of absolute values, and
the sign is treated apart from them.
-/

namespace ComplexCalculator

namespace Magnitude

/-- The exact value of a magnitude that was written with so many places and read back. -/
def settledValue (places : ℕ) (x : Magnitude) : ℚ :=
  ((Decimal.ofPlaces places (x.roundedPlaces places)).nearest false).value

theorem exists_settledValue (places : ℕ) (x : Magnitude) :
    ∃ y : Magnitude, (Decimal.ofPlaces places (x.roundedPlaces places)).nearest false =
      .finite false y ∧ x.settledValue places = y.value := by
  obtain ⟨y, hy, -⟩ := x.exists_nearest_roundedPlaces places false
  refine ⟨y, hy, ?_⟩
  rw [settledValue, hy]
  rfl

theorem settledValue_nonneg (places : ℕ) (x : Magnitude) : 0 ≤ x.settledValue places := by
  obtain ⟨y, -, hvalue⟩ := x.exists_settledValue places
  rw [hvalue]
  exact y.value_nonneg

theorem settledValue_of_roundedPlaces_eq_zero {places : ℕ} {x : Magnitude}
    (h : x.roundedPlaces places = 0) : x.settledValue places = 0 := by
  rw [settledValue, h, Decimal.ofPlaces, Decimal.nearest_zero, Binary64.value_signedZero]

theorem settledValue_of_value_eq_zero (places : ℕ) {x : Magnitude} (h : x.value = 0) :
    x.settledValue places = 0 := by
  have hunits : x.units = 0 := by
    have hmul := x.value_mul
    rw [h, zero_mul] at hmul
    exact_mod_cast hmul.symm
  exact settledValue_of_roundedPlaces_eq_zero (x.roundedPlaces_of_units_eq_zero places hunits)

/-- The two roundings together miss by at most a unit of the last place. -/
theorem dist_settledValue_le (places : ℕ) (x : Magnitude) :
    |x.settledValue places - x.value| ≤ 1 / 10 ^ places := by
  obtain ⟨y, hy, hvalue⟩ := x.exists_settledValue places
  have hwritten := x.dist_roundedPlaces_le places
  have hread := (Decimal.isNearestMagnitude_of_nearest hy).close x
  rw [Decimal.value_ofPlaces] at hread
  rw [hvalue]
  calc |y.value - x.value|
      ≤ |y.value - x.roundedPlaces places / 10 ^ places| +
          |x.roundedPlaces places / 10 ^ places - x.value| := abs_sub_le _ _ _
    _ ≤ 1 / 2 / 10 ^ places + 1 / 2 / 10 ^ places := by
        rw [abs_sub_comm _ x.value]
        exact add_le_add (hread.trans hwritten) hwritten
    _ = 1 / 10 ^ places := by ring

theorem settledValue_mono (places : ℕ) {x y : Magnitude} (h : x.value ≤ y.value) :
    x.settledValue places ≤ y.settledValue places := by
  obtain ⟨x', hx', hx⟩ := x.exists_settledValue places
  obtain ⟨y', hy', hy⟩ := y.exists_settledValue places
  have hplaces : x.roundedPlaces places ≤ y.roundedPlaces places :=
    (x.roundedPlaces_isNearestEven places).mono (y.roundedPlaces_isNearestEven places)
      (mul_le_mul_of_nonneg_right h (by positivity))
  rw [hx, hy]
  apply Decimal.nearest_mono hx' hy'
  rw [Decimal.value_ofPlaces, Decimal.value_ofPlaces]
  exact div_le_div_of_nonneg_right (by exact_mod_cast hplaces) (by positivity)

end Magnitude

namespace Binary64

/-- The sign makes no difference to the absolute value; it is lost only with a zero. -/
theorem value_settled_finite (places : ℕ) (negative : Bool) (x : Magnitude) :
    (settled places (.finite negative x)).value =
      signedRational negative (x.settledValue places) := by
  by_cases hzero : x.roundedPlaces places = 0
  · have hsigned : signedRational negative 0 = 0 := by cases negative <;> simp [signedRational]
    rw [Magnitude.settledValue_of_roundedPlaces_eq_zero hzero, hsigned, settled, hzero,
      Decimal.ofPlaces, Decimal.nearest_zero, value_signedZero]
  · obtain ⟨y, hy, hvalue⟩ := x.exists_settledValue places
    have hshown : (negative && x.roundedPlaces places != 0) = negative := by simp [hzero]
    rw [settled, hshown, ← Decimal.withSign_nearest _ false, hy, hvalue]
    rfl

theorem value_settled_neg (places : ℕ) {x : Binary64} (hx : x.isFinite = true) :
    (settled places (-x)).value = -(settled places x).value := by
  obtain _ | _ | ⟨s, x⟩ := x <;> try contradiction
  have hneg : -finite s x = finite (!s) x := rfl
  rw [hneg, value_settled_finite, value_settled_finite]
  cases s <;> simp [signedRational]

theorem dist_settled_le (places : ℕ) {x : Binary64} (hx : x.isFinite = true) :
    |(settled places x).value - x.value| ≤ 1 / 10 ^ places := by
  obtain _ | _ | ⟨s, x⟩ := x <;> try contradiction
  rw [value_settled_finite, value, abs_signedRational_sub]
  exact x.dist_settledValue_le places

theorem value_settled_mono (places : ℕ) {x y : Binary64} (hx : x.isFinite = true)
    (hy : y.isFinite = true) (h : x.value ≤ y.value) :
    (settled places x).value ≤ (settled places y).value := by
  obtain _ | _ | ⟨s, x⟩ := x <;> try contradiction
  obtain _ | _ | ⟨t, y⟩ := y <;> try contradiction
  have hxSettled := x.settledValue_nonneg places
  have hySettled := y.settledValue_nonneg places
  have hxValue := x.value_nonneg
  have hyValue := y.value_nonneg
  rw [value_settled_finite, value_settled_finite]
  rw [value, value] at h
  cases s with
  | false =>
      cases t with
      | false => exact Magnitude.settledValue_mono places h
      | true =>
          -- only zeros of different signs are in this order
          have hle : x.value ≤ -y.value := h
          have hxZero : x.settledValue places = 0 :=
            Magnitude.settledValue_of_value_eq_zero places (by linarith)
          have hyZero : y.settledValue places = 0 :=
            Magnitude.settledValue_of_value_eq_zero places (by linarith)
          simp [signedRational, hxZero, hyZero]
  | true =>
      cases t with
      | false => exact (neg_nonpos.mpr hxSettled).trans hySettled
      | true => exact neg_le_neg (Magnitude.settledValue_mono places (neg_le_neg_iff.mp h))

end Binary64

namespace ComplexFormat

/-- Rounding to decimal places treats the two parts alike and separately.  A finite part stays
finite, differs from the original by at most a unit of the last place, has the opposite value
for the opposite number, and keeps its place in the order. -/
theorem rounded_accurate {f : ComplexFormat}
    (hsymbol : ∀ c ∈ f.symbol.toList, Text.isBlank c = false) (hplaces : f.precision ≤ 2147483647) :
    ∃ r : Binary64 → Binary64, (∀ z, f.rounded z = .ok ⟨r z.re, r z.im⟩) ∧
      ∀ x, x.isFinite = true →
        (r x).isFinite = true ∧
        |(r x).value - x.value| ≤ 1 / 10 ^ f.precision ∧
        (r (-x)).value = -(r x).value ∧
        ∀ y, y.isFinite = true → x.le y = true → (r x).le (r y) = true := by
  refine ⟨Binary64.settled f.precision, ?_, ?_⟩
  · exact rounded_eq hsymbol (hplaces.trans (by decide))
  · intro x hx
    have hfinite {x : Binary64} (hx : x.isFinite = true) :
        (x.settled f.precision).isFinite = true :=
      (Binary64.isFinite_settled f.precision x).trans hx
    refine ⟨hfinite hx, Binary64.dist_settled_le f.precision hx,
      Binary64.value_settled_neg f.precision hx, ?_⟩
    intro y hy hle
    rw [Binary64.le_iff_value_le hx hy] at hle
    rw [Binary64.le_iff_value_le (hfinite hx) (hfinite hy)]
    exact Binary64.value_settled_mono f.precision hx hy hle

/-- At one place a quarter is a tie, and less than what follows it. -/
theorem rounded_accurate_quarter :
    (∀ c ∈ (⟨1, "I"⟩ : ComplexFormat).symbol.toList, Text.isBlank c = false) ∧
    (⟨1, "I"⟩ : ComplexFormat).precision ≤ 2147483647 ∧
    ∃ r : Binary64 → Binary64,
      (∀ z, (⟨1, "I"⟩ : ComplexFormat).rounded z = .ok ⟨r z.re, r z.im⟩) ∧
      |(r (Decimal.nearest false ⟨25, -2⟩)).value - (Decimal.nearest false ⟨25, -2⟩).value| ≤
        1 / 10 ^ 1 ∧
      (r (Decimal.nearest false ⟨25, -2⟩)).le (r (Decimal.nearest false ⟨251, -3⟩)) = true := by
  have hsymbol : ∀ c ∈ (⟨1, "I"⟩ : ComplexFormat).symbol.toList, Text.isBlank c = false := by decide
  have hplaces : (⟨1, "I"⟩ : ComplexFormat).precision ≤ 2147483647 := by decide
  have hquarter : (Decimal.nearest false ⟨25, -2⟩).isFinite = true := by decide +kernel
  have hmore : (Decimal.nearest false ⟨251, -3⟩).isFinite = true := by decide +kernel
  have hle : (Decimal.nearest false ⟨25, -2⟩).le (Decimal.nearest false ⟨251, -3⟩) = true := by
    decide +kernel
  obtain ⟨r, hrounded, haccurate⟩ := rounded_accurate hsymbol hplaces
  obtain ⟨-, hclose, -, horder⟩ := haccurate _ hquarter
  exact ⟨hsymbol, hplaces, r, hrounded, hclose, horder _ hmore hle⟩

end ComplexFormat

end ComplexCalculator
