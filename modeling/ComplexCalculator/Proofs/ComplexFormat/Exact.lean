import ComplexCalculator.Alphabet
import ComplexCalculator.Proofs.Binary64.Error
import ComplexCalculator.Proofs.ComplexFormat.RoundTrip
import ComplexCalculator.Proofs.ComplexFormat.Signs

/-!
# Decimals that survive rounding

A decimal with at most 15 significant digits is recovered from the number nearest to it: the
rounding error is less than one ninth of a unit of its last place.  A sum of two such numbers
is less than one half of a unit away from the exact sum, so that writing it with as many
places gives the exact sum.
-/

namespace ComplexCalculator

namespace Binary64

variable {places : ℕ}

/-- The number nearest to a whole number of units of the last of `places` decimal places. -/
def ofPlaces (places : ℕ) (n : ℤ) : Binary64 :=
  (Decimal.ofPlaces places n.natAbs).nearest (n < 0)

theorem ofPlaces_zero (places : ℕ) : ofPlaces places 0 = .zero :=
  Decimal.nearest_zero false _

theorem ofPlaces_natCast (places k : ℕ) :
    ofPlaces places k = (Decimal.ofPlaces places k).nearest false := by
  have hsign : decide ((k : ℤ) < 0) = false := by simp
  rw [ofPlaces, Int.natAbs_natCast, hsign]

/-- One is a whole number of units. -/
theorem ofPlaces_one (places : ℕ) : ofPlaces places (10 ^ places : ℕ) = .one := by
  have hpos : (10 : ℚ) ^ places ≠ 0 := by positivity
  have hratio : ((1 * 2 ^ unitBits : ℕ) / (1 : ℕ) : ℚ) =
      (Decimal.ofPlaces places (10 ^ places)).value * 2 ^ unitBits := by
    rw [Decimal.value_ofPlaces]
    push_cast
    rw [div_self hpos, div_one]
  have hsign : decide ((1 : ℤ) < 0) = false := rfl
  rw [ofPlaces_natCast, Decimal.nearest_eq_ofRatio false one_pos hratio, one, ofInt, hsign,
    power_eq_pow, Int.natAbs_one]

/-- A decimal is read as the number nearest to its units. -/
theorem ofPlaces_of_value {d : Decimal} {k : ℕ} (h : d.value = k / 10 ^ places) :
    d.nearest false = ofPlaces places k := by
  rw [ofPlaces_natCast]
  exact Decimal.nearest_congr false (h.trans (Decimal.value_ofPlaces places k).symm)

/-- The exact value of so many units. -/
theorem signedRational_ofPlaces (places : ℕ) (n : ℤ) :
    signedRational (n < 0) (Decimal.ofPlaces places n.natAbs).value = (n : ℚ) / 10 ^ places := by
  have hpos : (0 : ℚ) < 10 ^ places := by positivity
  have hsign : decide (n < 0) = decide ((n : ℚ) / 10 ^ places < 0) := by
    rw [decide_eq_decide, div_lt_iff₀ hpos, zero_mul, Int.cast_lt_zero]
  have habs : (Decimal.ofPlaces places n.natAbs).value = |(n : ℚ) / 10 ^ places| := by
    rw [Decimal.value_ofPlaces, Nat.cast_natAbs, Int.cast_abs, abs_div, abs_of_pos hpos]
  rw [habs, hsign, signedRational_abs]

/-- Whether a number is finite and lies within a distance of a whole number of units of the
last decimal place, in these units. -/
structure Near (places : ℕ) (distance : ℚ) (n : ℤ) (x : Binary64) : Prop where
  finite : x.isFinite = true
  close : |x.value * 10 ^ places - n| ≤ distance

/-! ## Writing -/

/-- The sign and the absolute value of a number near to an integer, rounded. -/
theorem isNearestEven_of_signedRational {s : Bool} {q : ℚ} {n : ℤ} (hq : 0 ≤ q)
    (h : |signedRational s q - n| < 1 / 2) :
    IsNearestEven q n.natAbs ∧ (s && n.natAbs != 0) = decide (n < 0) := by
  obtain ⟨hlow, hhigh⟩ := abs_lt.mp h
  cases s with
  | false =>
      change -(1 / 2) < q - n at hlow
      change q - n < 1 / 2 at hhigh
      have hn : 0 ≤ n := by
        have hlt : (-1 : ℚ) < n := by linarith
        have hlt : -1 < n := by exact_mod_cast hlt
        omega
      lift n to ℕ using hn
      rw [Int.cast_natCast] at hlow hhigh
      refine ⟨?_, by simp⟩
      apply IsNearestEven.of_lt
      rw [Int.natAbs_natCast, abs_lt]
      constructor <;> linarith
  | true =>
      change -(1 / 2) < -q - n at hlow
      change -q - n < 1 / 2 at hhigh
      have hn : n ≤ 0 := by
        have hlt : (n : ℚ) < 1 := by linarith
        have hlt : n < 1 := by exact_mod_cast hlt
        omega
      obtain ⟨m, rfl⟩ := Int.exists_eq_neg_ofNat hn
      rw [Int.cast_neg, Int.cast_natCast] at hlow hhigh
      refine ⟨?_, ?_⟩
      · apply IsNearestEven.of_lt
        rw [Int.natAbs_neg, Int.natAbs_natCast, abs_lt]
        constructor <;> linarith
      · rw [Bool.true_and, Int.natAbs_neg, Int.natAbs_natCast, Bool.eq_iff_iff]
        simp [Nat.pos_iff_ne_zero]

namespace Near

variable {distance : ℚ} {n : ℤ} {x : Binary64}

/-- What is less than half a unit away is written as that many units, with their sign. -/
theorem exists_finite (h : Near places distance n x) (hhalf : distance < 1 / 2) :
    ∃ s m, x = .finite s m ∧ m.roundedPlaces places = n.natAbs ∧
      (s && n.natAbs != 0) = decide (n < 0) := by
  cases x with
  | nan => exact absurd h.finite Bool.false_ne_true
  | infinite s => exact absurd h.finite Bool.false_ne_true
  | finite s m =>
      refine ⟨s, m, rfl, ?_⟩
      have hrounded := m.roundedPlaces_isNearestEven places
      have hnonneg : 0 ≤ m.value * 10 ^ places := by
        rw [Magnitude.value]
        positivity
      have hvalue : (Binary64.finite s m).value * 10 ^ places =
          signedRational s (m.value * 10 ^ places) := signedRational_mul s m.value (10 ^ places)
      have hlt := h.close.trans_lt hhalf
      rw [hvalue] at hlt
      obtain ⟨hnearest, hsign⟩ := isNearestEven_of_signedRational hnonneg hlt
      exact ⟨hrounded.unique hnearest, hsign⟩

theorem settled_eq (h : Near places distance n x) (hhalf : distance < 1 / 2) :
    x.settled places = ofPlaces places n := by
  obtain ⟨s, m, rfl, hplaces, hsign⟩ := h.exists_finite hhalf
  rw [settled, hplaces, hsign, ofPlaces]

theorem neg (h : Near places distance n x) : Near places distance (-n) (-x) := by
  refine ⟨(isFinite_neg x).trans h.finite, ?_⟩
  have hneg : -x.value * 10 ^ places - ((-n : ℤ) : ℚ) = -(x.value * 10 ^ places - n) := by
    push_cast
    ring
  rw [value_neg, hneg, abs_neg]
  exact h.close

end Near

/-! ## Rounding errors -/

/-- The rounding error is small against the last place, if there are few digits. -/
theorem Approximates.near {q distance : ℚ} {n : ℤ} {x : Binary64} (h : Approximates q x)
    (hplaces : places ≤ 15) (hrange : |q * 10 ^ places| ≤ 10 ^ 15 + 1)
    (hclose : |q * 10 ^ places - n| ≤ distance) : Near places (distance + 1 / 9) n x := by
  refine ⟨h.finite, ?_⟩
  have hpos : (0 : ℚ) < 10 ^ places := by positivity
  have hten : (10 : ℚ) ^ places ≤ 10 ^ 15 := pow_le_pow_right₀ (by norm_num) hplaces
  have hunit : 1 / (2 : ℚ) ^ (unitBits + 1) ≤ 1 / 2 ^ 100 := by
    apply one_div_le_one_div_of_le (by positivity)
    exact pow_le_pow_right₀ (by norm_num) (by decide)
  have herror : |x.value - q| * 10 ^ places ≤ 1 / 9 := by
    calc |x.value - q| * 10 ^ places
        ≤ roundingError q * 10 ^ places := mul_le_mul_of_nonneg_right h.close hpos.le
      _ = |q * 10 ^ places| / 2 ^ 53 + 1 / 2 ^ (unitBits + 1) * 10 ^ places := by
          rw [roundingError, abs_mul, abs_of_pos hpos, significantBits]
          ring
      _ ≤ (10 ^ 15 + 1) / 2 ^ 53 + 1 / 2 ^ 100 * 10 ^ 15 := by gcongr
      _ ≤ 1 / 9 := by norm_num
  calc |x.value * 10 ^ places - n|
      = |(x.value - q) * 10 ^ places + (q * 10 ^ places - n)| := by ring_nf
    _ ≤ |(x.value - q) * 10 ^ places| + |q * 10 ^ places - n| := abs_add_le _ _
    _ ≤ distance + 1 / 9 := by
        rw [abs_mul, abs_of_pos hpos]
        linarith

section

variable {m n : ℤ} (hplaces : places ≤ 15)

include hplaces

/-- A decimal with few digits is recovered from the number nearest to it. -/
theorem near_ofPlaces (hn : |n| ≤ 10 ^ 15) : Near places (1 / 9) n (ofPlaces places n) := by
  have hpos : (0 : ℚ) < 10 ^ places := by positivity
  have hone : (1 : ℚ) ≤ 10 ^ places := one_le_pow₀ (by norm_num)
  have hrange : |(n : ℚ)| ≤ 10 ^ 15 := by exact_mod_cast hn
  have hle : (Decimal.ofPlaces places n.natAbs).value ≤ 2 ^ 64 := by
    calc (Decimal.ofPlaces places n.natAbs).value
        = |(n : ℚ)| / 10 ^ places := by
          rw [Decimal.value_ofPlaces, Nat.cast_natAbs, Int.cast_abs]
      _ ≤ |(n : ℚ)| := div_le_self (abs_nonneg _) hone
      _ ≤ 2 ^ 64 := hrange.trans (by norm_num)
  have happrox := Decimal.approximates_nearest (n < 0) (by decide) hle
  rw [signedRational_ofPlaces] at happrox
  have hcancel : (n : ℚ) / 10 ^ places * 10 ^ places = n := div_mul_cancel₀ _ hpos.ne'
  have hexact : |(n : ℚ) / 10 ^ places * 10 ^ places - n| ≤ 0 := by
    rw [hcancel, sub_self, abs_zero]
  have hnear := happrox.near hplaces (by rw [hcancel]; linarith) hexact
  rwa [zero_add] at hnear

/-- The sum of two decimals is less than half a unit away from the sum of the numbers. -/
theorem Near.add {x y : Binary64} (hx : Near places (1 / 9) m x) (hy : Near places (1 / 9) n y)
    (hsum : |m + n| ≤ 10 ^ 15) : Near places (1 / 3) (m + n) (x + y) := by
  have hone : (1 : ℚ) ≤ 10 ^ places := one_le_pow₀ (by norm_num)
  have hbound : |((m + n : ℤ) : ℚ)| ≤ 10 ^ 15 := by exact_mod_cast hsum
  have hclose : |(x.value + y.value) * 10 ^ places - (m + n : ℤ)| ≤ 2 / 9 := by
    calc |(x.value + y.value) * 10 ^ places - (m + n : ℤ)|
        = |(x.value * 10 ^ places - m) + (y.value * 10 ^ places - n)| := by
          push_cast
          ring_nf
      _ ≤ |x.value * 10 ^ places - m| + |y.value * 10 ^ places - n| := abs_add_le _ _
      _ ≤ 2 / 9 := by linarith [hx.close, hy.close]
  have hrange : |(x.value + y.value) * 10 ^ places| ≤ 10 ^ 15 + 1 := by
    have hdist := abs_sub_abs_le_abs_sub ((x.value + y.value) * 10 ^ places) ((m + n : ℤ) : ℚ)
    linarith
  have hfinite : |x.value + y.value| ≤ 2 ^ 64 := by
    calc |x.value + y.value| ≤ |x.value + y.value| * 10 ^ places :=
          le_mul_of_one_le_right (abs_nonneg _) hone
      _ = |(x.value + y.value) * 10 ^ places| := by
          rw [abs_mul, abs_of_nonneg (zero_le_one.trans hone)]
      _ ≤ 2 ^ 64 := hrange.trans (by norm_num)
  have happrox := approximates_add hx.finite hy.finite (by decide) hfinite
  have hnear := happrox.near hplaces hrange hclose
  have hthird : (2 / 9 + 1 / 9 : ℚ) = 1 / 3 := by norm_num
  rwa [hthird] at hnear

/-! ## Operations on decimals -/

theorem settled_ofPlaces (hn : |n| ≤ 10 ^ 15) :
    (ofPlaces places n).settled places = ofPlaces places n :=
  (near_ofPlaces hplaces hn).settled_eq (by norm_num)

theorem settled_neg_ofPlaces (hn : |n| ≤ 10 ^ 15) :
    (-ofPlaces places n).settled places = ofPlaces places (-n) :=
  (near_ofPlaces hplaces hn).neg.settled_eq (by norm_num)

theorem settled_add_ofPlaces (hm : |m| ≤ 10 ^ 15) (hn : |n| ≤ 10 ^ 15)
    (hsum : |m + n| ≤ 10 ^ 15) :
    (ofPlaces places m + ofPlaces places n).settled places = ofPlaces places (m + n) :=
  ((near_ofPlaces hplaces hm).add hplaces (near_ofPlaces hplaces hn) hsum).settled_eq (by norm_num)

theorem settled_sub_ofPlaces (hm : |m| ≤ 10 ^ 15) (hn : |n| ≤ 10 ^ 15)
    (hdifference : |m - n| ≤ 10 ^ 15) :
    (ofPlaces places m - ofPlaces places n).settled places = ofPlaces places (m - n) := by
  rw [sub_eq_add_neg] at hdifference ⊢
  exact ((near_ofPlaces hplaces hm).add hplaces (near_ofPlaces hplaces hn).neg
    hdifference).settled_eq (by norm_num)

end

end Binary64

/-! ## Texts -/

/-- The text of a complex number whose parts are whole numbers of units of the last of
`places` decimal places. -/
def exactText (places : ℕ) (re im : ℤ) : String :=
  String.ofList ((if re < 0 then ['-'] else []) ++ fixedText places re.natAbs ++
    ' ' :: signChar (im < 0) :: ' ' :: fixedText places im.natAbs ++ [Alphabet.imaginaryUnit])

/-- A number near to a decimal is written as this decimal. -/
theorem ComplexFormat.format_of_near {f : ComplexFormat}
    (hsymbol : f.symbol = Alphabet.imaginaryUnit.toString) (hplaces : f.precision ≤ maxPlaces)
    {z : ComplexNumber} {re im : ℤ} {distance : ℚ} (hhalf : distance < 1 / 2)
    (hre : z.re.Near f.precision distance re) (him : z.im.Near f.precision distance im) :
    f.format z = .ok (exactText f.precision re im) := by
  obtain ⟨s, x, hx, hrePlaces, hreSign⟩ := hre.exists_finite hhalf
  obtain ⟨t, y, hy, himPlaces, himSign⟩ := him.exists_finite hhalf
  have hpart (negative : Bool) (x : Magnitude) : f.partText (.finite negative x) =
      .ok (fixedText f.precision (x.roundedPlaces f.precision)) := by
    rw [partText_finite, finitePlaces_eq_ok hplaces]
    rfl
  have hreal : f.realText (.finite s x) =
      .ok ((if re < 0 then ['-'] else []) ++ fixedText f.precision re.natAbs) := by
    have hminus : f.showsMinus (.finite s x) = decide (re < 0) := by
      rw [showsMinus, hrePlaces, hreSign]
    rw [realText, hpart, hminus, hrePlaces]
    · by_cases hneg : re < 0 <;> simp [Except.map, hneg]
    · intro negative h
      cases h
  have hminus : f.showsMinus (.finite t y) = decide (im < 0) := by
    rw [showsMinus, himPlaces, himSign]
  rw [format, hx, hy, hpart, himPlaces, hreal, hminus, toList_symbol hsymbol]
  rfl

end ComplexCalculator
