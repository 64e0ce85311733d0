import ComplexCalculator.Natural.Arithmetic
import Mathlib.Data.Rat.Floor
import Mathlib.Tactic.FieldSimp
import Mathlib.Tactic.Linarith
import Mathlib.Tactic.Ring

/-!
# Nearest natural numbers

`IsNearestEven q n` says, without an algorithm, that `n` is what a rational number is
rounded to: it is at most one half away, and even if it is exactly one half away.  There
is one such number, and `roundHalfEven` computes it.  A number that lies no farther from
`n` than another one rounded to `n` is rounded to `n` too.
-/

namespace ComplexCalculator

/-- The natural number that a rational one is rounded to, ties going to the even
neighbour. -/
structure IsNearestEven (q : ℚ) (n : ℕ) : Prop where
  close : |(n : ℚ) - q| ≤ 1 / 2
  /-- Of two equally near natural numbers it is the even one. -/
  even_of_tie : |(n : ℚ) - q| = 1 / 2 → Even n

theorem IsNearestEven.of_lt {q : ℚ} {n : ℕ} (h : |(n : ℚ) - q| < 1 / 2) : IsNearestEven q n :=
  ⟨h.le, fun htie => absurd htie h.ne⟩

/-! ## The rounded quotient -/

/-- A quotient in terms of its whole part and its remainder. -/
theorem natCast_div_eq (num : ℕ) {den : ℕ} (hden : 0 < den) :
    (num / den : ℚ) = (num / den : ℕ) + (num % den : ℕ) / (den : ℚ) := by
  have hne : (den : ℚ) ≠ 0 := by positivity
  have hsplit : (num : ℚ) = den * (num / den : ℕ) + (num % den : ℕ) := by
    exact_mod_cast (Nat.div_add_mod num den).symm
  rw [hsplit]
  field_simp

theorem roundHalfEven_isNearestEven (num : ℕ) {den : ℕ} (hden : 0 < den) :
    IsNearestEven (num / den) (roundHalfEven num den) := by
  have hpos : (0 : ℚ) < den := by exact_mod_cast hden
  have hq := natCast_div_eq num hden
  have hlo : (0 : ℚ) ≤ (num % den : ℕ) / (den : ℚ) := by positivity
  have hhi : ((num % den : ℕ) : ℚ) / den < 1 := by
    rw [div_lt_one hpos]
    exact_mod_cast Nat.mod_lt num hden
  have htwice (k : ℕ) : 2 * ((k : ℚ) / den) = ((2 * k : ℕ) : ℚ) / den := by
    push_cast
    ring
  -- which side of one half the remainder is on decides the direction
  unfold roundHalfEven
  dsimp only
  split_ifs with hbelow habove
  · have hhalf : 2 * (((num % den : ℕ) : ℚ) / den) < 1 := by
      rw [htwice, div_lt_one hpos]
      exact_mod_cast hbelow
    apply IsNearestEven.of_lt
    rw [hq, abs_lt]
    constructor <;> linarith
  · have hhalf : 1 < 2 * (((num % den : ℕ) : ℚ) / den) := by
      rw [htwice, one_lt_div hpos]
      exact_mod_cast habove
    apply IsNearestEven.of_lt
    rw [hq, abs_lt]
    push_cast
    constructor <;> linarith
  · have hhalf : 2 * (((num % den : ℕ) : ℚ) / den) = 1 := by
      rw [htwice, div_eq_one_iff_eq hpos.ne']
      exact_mod_cast (show 2 * (num % den) = den by omega)
    constructor
    · rw [hq, abs_le]
      rcases Nat.mod_two_eq_zero_or_one (num / den) with h | h <;> rw [h] <;> push_cast <;>
        constructor <;> linarith
    · intro _
      rw [Nat.even_iff]
      omega

/-! ## Uniqueness -/

theorem IsNearestEven.unique {q : ℚ} {m n : ℕ} (hm : IsNearestEven q m)
    (hn : IsNearestEven q n) : m = n := by
  wlog hlt : m < n generalizing m n
  · rcases Nat.lt_trichotomy m n with h | h | h
    · exact absurd h hlt
    · exact h
    · exact (this hn hm h).symm
  -- two different ones are neighbours, both at the tie, and then both even
  have hstep : (m : ℚ) + 1 ≤ n := by exact_mod_cast hlt
  have hmq := abs_le.mp hm.close
  have hnq := abs_le.mp hn.close
  have htieM : |(m : ℚ) - q| = 1 / 2 := by
    rw [abs_eq (by norm_num)]
    right
    linarith
  have htieN : |(n : ℚ) - q| = 1 / 2 := by
    rw [abs_eq (by norm_num)]
    left
    linarith
  have hnext : n = m + 1 := by
    have h : (n : ℚ) = m + 1 := by linarith
    exact_mod_cast h
  have hevenM := Nat.even_iff.mp (hm.even_of_tie htieM)
  have hevenN := Nat.even_iff.mp (hn.even_of_tie htieN)
  omega

theorem roundHalfEven_eq_iff {num den n : ℕ} (hden : 0 < den) :
    roundHalfEven num den = n ↔ IsNearestEven (num / den) n := by
  constructor
  · rintro rfl
    exact roundHalfEven_isNearestEven num hden
  · intro h
    exact (roundHalfEven_isNearestEven num hden).unique h

/-- Only the quotient counts, not the two numbers that it is made of. -/
theorem roundHalfEven_congr {num den num' den' : ℕ} (hden : 0 < den) (hden' : 0 < den')
    (h : (num / den : ℚ) = num' / den') :
    roundHalfEven num den = roundHalfEven num' den' := by
  rw [roundHalfEven_eq_iff hden, h]
  exact roundHalfEven_isNearestEven num' hden'

/-! ## Distances -/

/-- No natural number is nearer than the rounded one. -/
theorem IsNearestEven.le_dist {q : ℚ} {n : ℕ} (h : IsNearestEven q n) (m : ℕ) :
    |(n : ℚ) - q| ≤ |(m : ℚ) - q| := by
  rcases eq_or_ne m n with rfl | hne
  · exact le_rfl
  · have hapart : (1 : ℚ) ≤ |(m : ℚ) - n| := by
      have hint : (1 : ℤ) ≤ |(m : ℤ) - n| := by
        apply Int.one_le_abs
        omega
      exact_mod_cast hint
    have htriangle := abs_sub_le (m : ℚ) q n
    have hclose := h.close
    rw [abs_sub_comm] at hclose
    rw [abs_sub_comm (n : ℚ)]
    linarith

/-- If the larger of two numbers is nearest to the smaller of two points, and the smaller
number to the larger point, then the points are the same. -/
theorem eq_of_nearest_crossing {q r u v : ℚ} (hpoints : q ≤ r) (hnumbers : v < u)
    (hu : |u - q| ≤ |v - q|) (hv : |v - r| ≤ |u - r|) : q = r := by
  have hgap : 0 < u - v := sub_pos.mpr hnumbers
  have hbelow : (u - v) * (u + v - 2 * q) ≤ 0 := by
    have h := sq_le_sq.mpr hu
    linarith
  have habove : (u - v) * (2 * r - (u + v)) ≤ 0 := by
    have h := sq_le_sq.mpr hv
    linarith
  have hq := nonpos_of_mul_nonpos_right hbelow hgap
  have hr := nonpos_of_mul_nonpos_right habove hgap
  linarith

/-- Rounding keeps the order. -/
theorem IsNearestEven.mono {q r : ℚ} {m n : ℕ} (hm : IsNearestEven q m) (hn : IsNearestEven r n)
    (h : q ≤ r) : m ≤ n := by
  by_contra hlt
  have hcast : (n : ℚ) < m := by exact_mod_cast Nat.lt_of_not_ge hlt
  obtain rfl := eq_of_nearest_crossing h hcast (hm.le_dist n) (hn.le_dist m)
  exact hlt (hm.unique hn).le

/-- What is at least as near to `n` as a number that is rounded to `n` is rounded to `n`
as well.  On a tie `n` is even, so that the side does not matter. -/
theorem IsNearestEven.of_dist_le {q r : ℚ} {n : ℕ} (h : IsNearestEven q n)
    (hle : |r - n| ≤ |q - n|) : IsNearestEven r n := by
  rw [abs_sub_comm r, abs_sub_comm q] at hle
  constructor
  · exact hle.trans h.close
  · intro htie
    apply h.even_of_tie
    exact le_antisymm h.close (htie ▸ hle)

/-- Two natural numbers at the same distance are the two sides of a tie. -/
theorem IsNearestEven.even_of_dist_eq {q : ℚ} {m n : ℕ} (h : IsNearestEven q n)
    (heq : |(n : ℚ) - q| = |(m : ℚ) - q|) (hne : m ≠ n) : Even n := by
  apply h.even_of_tie
  apply le_antisymm h.close
  have hapart : (1 : ℚ) ≤ |(n : ℚ) - m| := by
    have hint : (1 : ℤ) ≤ |(n : ℤ) - m| := by
      apply Int.one_le_abs
      omega
    exact_mod_cast hint
  have htriangle := abs_sub_le (n : ℚ) q m
  rw [abs_sub_comm q, ← heq] at htriangle
  linarith

end ComplexCalculator
