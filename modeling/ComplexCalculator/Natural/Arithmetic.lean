/-!
# Arithmetic of natural numbers

What binary grids and their finer steps need of the natural numbers: powers, quotients rounded
to the nearest number, and the whole parts of square roots.
-/

namespace ComplexCalculator

/-! ## Powers -/

/-- The product of `exponent` factors `base`. -/
def power (base exponent : Nat) : Nat := Nat.pow base exponent

theorem power_pos {base : Nat} (h : 0 < base) (n : Nat) : 0 < power base n :=
  Nat.pow_pos h

theorem power_add (base m n : Nat) : power base (m + n) = power base m * power base n :=
  Nat.pow_add base m n

theorem power_dvd_power (base : Nat) {m n : Nat} (h : m ≤ n) : power base m ∣ power base n :=
  Nat.pow_dvd_pow base h

/-- A positive number has at most `n` binary digits exactly if it is below `2 ^ n`. -/
theorem log2_lt_iff {m n : Nat} (h : m ≠ 0) : m.log2 < n ↔ m < power 2 n :=
  Nat.log2_lt h

theorem log2_power_two (n : Nat) : (power 2 n).log2 = n :=
  Nat.log2_two_pow

/-! ## Rounded quotients -/

/-- The quotient of two naturals, rounded to the nearest natural; a tie goes to the
even neighbour. -/
def roundHalfEven (num den : Nat) : Nat :=
  let quotient := num / den
  let twice := 2 * (num % den)
  if twice < den then quotient
  else if den < twice then quotient + 1
  else quotient + quotient % 2

/-- Rounding moves a quotient up by at most one. -/
theorem roundHalfEven_le (num den : Nat) : roundHalfEven num den ≤ num / den + 1 := by
  unfold roundHalfEven
  dsimp only
  split
  · omega
  · split <;> omega

/-- Rounding never falls below the whole part of the quotient. -/
theorem div_le_roundHalfEven (num den : Nat) : num / den ≤ roundHalfEven num den := by
  unfold roundHalfEven
  dsimp only
  split
  · omega
  · split <;> omega

/-! ## Square roots -/

/-- Newton's iteration for a square root, from a guess that is not below it. -/
def improveRoot (n guess : Nat) : Nat :=
  let next := (guess + n / guess) / 2
  if next < guess then improveRoot n next else guess
termination_by guess

/-- The whole part of the square root of a natural number. -/
def rootFloor (n : Nat) : Nat :=
  if n = 0 then 0 else improveRoot n (power 2 (n.log2 / 2 + 1))

end ComplexCalculator
