import ComplexCalculator.Natural.Arithmetic

/-!
# Double-precision numbers

A finite number in binary64 is a whole number of units of `2 ^ (-1074)`, the
smallest positive one.  The numbers of units that occur are those below
`2 ^ 2098` with at most 53 significant bits.  Every result is the exact one
rounded once: `Binary64.ofRatio` takes a quotient of naturals, counted in units,
to the nearest number, ties going to the even significand and too large quotients
to infinity.

All NaNs are one value.
-/

namespace ComplexCalculator

namespace Binary64

/-- The binary digits behind the point of the unit. -/
def unitBits : Nat := 1074

/-- The significant bits of a number. -/
def significantBits : Nat := 53

/-- One more than the number of bits of the largest finite number in units. -/
def rangeBits : Nat := 2098

/-- Numbers with the whole part `whole`, in units, lie on the grid of multiples of
two to this power. -/
def gridExponent (whole : Nat) : Nat := whole.log2 - (significantBits - 1)

/-- The numbers of units that a finite number can hold. -/
def Representable (units : Nat) : Prop :=
  units < power 2 rangeBits ∧ power 2 (gridExponent units) ∣ units

instance (units : Nat) : Decidable (Representable units) :=
  inferInstanceAs (Decidable (_ ∧ _))

/-- The number of units nearest to a quotient among those with at most 53 significant
bits, of whatever size. -/
def nearestUnits (num den : Nat) : Nat :=
  let grid := gridExponent (num / den)
  roundHalfEven num (den * power 2 grid) * power 2 grid

private theorem div_grid_lt (whole : Nat) :
    whole / power 2 (gridExponent whole) < power 2 significantBits := by
  rw [Nat.div_lt_iff_lt_mul (power_pos (by decide) _), ← power_add]
  rcases Nat.eq_zero_or_pos whole with h | h
  · subst h
    exact power_pos (by decide) _
  · rw [← log2_lt_iff (by omega)]
    simp only [gridExponent, significantBits]
    omega

/-- A multiple of a power of two by a factor of at most 53 bits has at most 53 significant
bits. -/
theorem grid_dvd_mul {k grid : Nat} (h : k ≤ power 2 significantBits) :
    power 2 (gridExponent (k * power 2 grid)) ∣ k * power 2 grid := by
  rcases Nat.lt_or_eq_of_le h with hlt | heq
  · refine Nat.dvd_mul_left_of_dvd (power_dvd_power 2 ?_) k
    by_cases hz : k * power 2 grid = 0
    · rw [hz]
      simp [gridExponent]
    · have hbits : k * power 2 grid < power 2 (significantBits + grid) := by
        rw [power_add]
        exact Nat.mul_lt_mul_of_pos_right hlt (power_pos (by decide) _)
      rw [← log2_lt_iff hz] at hbits
      simp only [gridExponent, significantBits] at *
      omega
  · subst heq
    rw [← power_add]
    refine power_dvd_power 2 ?_
    simp only [gridExponent, log2_power_two]
    omega

/-- A rounded quotient has at most 53 significant bits. -/
theorem grid_dvd_nearestUnits (num den : Nat) :
    power 2 (gridExponent (nearestUnits num den)) ∣ nearestUnits num den := by
  refine grid_dvd_mul (Nat.le_trans (roundHalfEven_le _ _) ?_)
  rw [← Nat.div_div_eq_div_mul]
  exact div_grid_lt _

end Binary64

/-- The absolute value of a finite double-precision number. -/
structure Magnitude where
  /-- How many units of `2 ^ (-1074)` it holds. -/
  units : Nat
  /-- It has at most 53 significant bits and does not overflow. -/
  representable : Binary64.Representable units
  deriving DecidableEq

/-- A double-precision number. -/
inductive Binary64 where
  /-- The result of an operation without one. -/
  | nan
  /-- What is too large for a finite number. -/
  | infinite (negative : Bool)
  /-- A finite number; zero has both signs. -/
  | finite (negative : Bool) (magnitude : Magnitude)
  deriving DecidableEq

namespace Binary64

/-- The number nearest to a quotient of naturals, counted in units. -/
def ofRatio (negative : Bool) (num den : Nat) : Binary64 :=
  if h : nearestUnits num den < power 2 rangeBits then
    .finite negative ⟨nearestUnits num den, h, grid_dvd_nearestUnits num den⟩
  else
    .infinite negative

/-- The number nearest to an integer. -/
def ofInt (n : Int) : Binary64 :=
  ofRatio (n < 0) (n.natAbs * power 2 unitBits) 1

def signedZero (negative : Bool) : Binary64 :=
  .finite negative ⟨0, power_pos (by decide) _, Nat.dvd_zero _⟩

def zero : Binary64 := signedZero false

def one : Binary64 := ofInt 1

instance : Inhabited Binary64 := ⟨zero⟩

/-- The sign of the number; NaN counts as positive. -/
def isNegative : Binary64 → Bool
  | .nan => false
  | .infinite negative => negative
  | .finite negative _ => negative

def withSign (negative : Bool) : Binary64 → Binary64
  | .nan => .nan
  | .infinite _ => .infinite negative
  | .finite _ magnitude => .finite negative magnitude

/-- The number with the opposite sign. -/
def neg (x : Binary64) : Binary64 := x.withSign (!x.isNegative)

def abs (x : Binary64) : Binary64 := x.withSign false

instance : Neg Binary64 := ⟨neg⟩

def isNaN (x : Binary64) : Bool := x matches .nan

/-- Whether the number is an infinity. -/
def isInfinite (x : Binary64) : Bool := x matches .infinite _

/-- Whether the number is neither NaN nor an infinity. -/
def isFinite (x : Binary64) : Bool := x matches .finite ..

/-- Whether the number is zero, of either sign. -/
def isZero : Binary64 → Bool
  | .finite _ magnitude => magnitude.units == 0
  | _ => false

end Binary64

end ComplexCalculator
