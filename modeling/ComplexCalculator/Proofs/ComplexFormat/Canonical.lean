import ComplexCalculator.Proofs.Binary64.Reader
import ComplexCalculator.Proofs.ComplexFormat.RoundTrip
import ComplexCalculator.Proofs.ComplexFormat.Signs

/-!
# Canonical texts

A finite part is written with all its decimal places and without a superfluous zero in front.
Its sign is shown exactly if one of the digits is not zero.  The same decision is reached by
reading the digits back as a double-precision number and comparing it with zero: what is written
with a digit other than zero is never so small that it is read as zero.
-/

namespace ComplexCalculator

/-! ## Canonical forms -/

/-- A number with a fixed number of decimal places in canonical form. -/
structure FixedDecimal (places : ℕ) where
  whole : List Char
  fraction : List Char
  isDigit : ∀ c ∈ whole ++ fraction, c.isDigit = true
  nonempty : whole ≠ []
  no_leading_zero : whole.head? = some '0' → whole = ['0']
  length_fraction : fraction.length = places

namespace FixedDecimal

variable {places : ℕ}

def digits (t : FixedDecimal places) : List Char := t.whole ++ t.fraction

/-- The characters; without decimal places there is no point. -/
def text (t : FixedDecimal places) : List Char :=
  t.whole ++ if places = 0 then [] else '.' :: t.fraction

/-- The number of units of the last decimal place. -/
def units (t : FixedDecimal places) : ℕ := Text.digitsValue t.digits

def HasNonzeroDigit (t : FixedDecimal places) : Prop := ∃ c ∈ t.digits, c ≠ '0'

/-- The form that a number of units of the last decimal place has. -/
def ofUnits (places n : ℕ) : FixedDecimal places where
  whole := (Text.numeral 10 (places + 1) n).take
    ((Text.numeral 10 (places + 1) n).length - places)
  fraction := (Text.numeral 10 (places + 1) n).drop
    ((Text.numeral 10 (places + 1) n).length - places)
  isDigit := by
    intro c hc
    rw [List.take_append_drop] at hc
    exact Text.isDigit_of_mem_numeral hc
  nonempty := by
    have hlength := Text.length_numeral_ge (places + 1) n
    apply List.ne_nil_of_length_pos
    rw [List.length_take]
    omega
  no_leading_zero := Text.take_numeral_eq_zero
  length_fraction := by
    have hlength := Text.length_numeral_ge (places + 1) n
    rw [List.length_drop]
    omega

theorem text_ofUnits (places n : ℕ) : (ofUnits places n).text = fixedText places n := rfl

theorem units_ofUnits (places n : ℕ) : (ofUnits places n).units = n := by
  rw [units, digits, ofUnits, List.take_append_drop, Text.digitsValue_numeral]

/-- No digit is a minus sign. -/
theorem minus_notMem_text (t : FixedDecimal places) : '-' ∉ t.text := by
  have hdigit {c : Char} (hc : c ∈ t.whole ∨ c ∈ t.fraction) : c ≠ '-' := by
    rintro rfl
    exact absurd (t.isDigit '-' (List.mem_append.mpr hc)) (by decide)
  rw [text, List.mem_append]
  rintro (h | h)
  · exact hdigit (Or.inl h) rfl
  · split_ifs at h
    · simp at h
    · rcases List.mem_cons.mp h with h | h
      · contradiction
      · exact hdigit (Or.inr h) rfl

theorem units_ne_zero_iff (t : FixedDecimal places) : t.units ≠ 0 ↔ t.HasNonzeroDigit := by
  have hzero := Text.digitsValue_eq_zero_iff t.isDigit
  rw [units, ne_eq, digits, hzero, HasNonzeroDigit, digits]
  simp only [not_forall, exists_prop, ne_eq]

end FixedDecimal

/-! ## Parts -/

/-- What is written with a digit other than zero is not read as zero, and only that. -/
theorem Binary64.isZero_nearest_roundedPlaces (x : Magnitude) (places : ℕ) :
    ((Decimal.ofPlaces places (x.roundedPlaces places)).nearest false).isZero = false ↔
      x.roundedPlaces places ≠ 0 := by
  obtain ⟨y, hy, hplaces⟩ := x.exists_nearest_roundedPlaces places false
  constructor
  · intro hnonzero hzero
    rw [hzero, Decimal.ofPlaces, Decimal.nearest_zero, signedZero, isZero,
      beq_self_eq_true] at hnonzero
    exact Bool.false_ne_true hnonzero.symm
  · intro hnonzero
    rw [hy, isZero, beq_eq_false_iff_ne]
    intro hzero
    rw [y.roundedPlaces_of_units_eq_zero places hzero] at hplaces
    exact hnonzero hplaces.symm

namespace ComplexFormat

/-- The text of the absolute value of a number, and whether a minus sign belongs to it.  The
digits of a finite number denote the nearest number of units of the last place, ties going to
the even one.  The sign of a negative one is shown if a digit is not zero, which is the same as
whether the digits are read back as a number other than zero. -/
def Shows (places : ℕ) : Binary64 → Bool → List Char → Prop
  | .nan, minus, text => minus = false ∧ text = "(NaN)".toList
  | .infinite negative, minus, text => minus = negative ∧ text = "(Infinity)".toList
  | .finite negative x, minus, text => ∃ t : FixedDecimal places,
      text = t.text ∧ IsNearestEven (x.value * 10 ^ places) t.units ∧
      (minus = true ↔ negative = true ∧ t.HasNonzeroDigit) ∧
      ∃ y, Binary64.read? (String.ofList text) = some y ∧ (y.isZero = false ↔ t.HasNonzeroDigit)

variable {f : ComplexFormat} {x : Binary64} {text : List Char}

theorem shows_partText (h : f.partText x = .ok text) :
    Shows f.precision x (f.showsMinus x) text := by
  cases x with
  | nan =>
      injection h with h
      exact ⟨rfl, h.symm⟩
  | infinite negative =>
      injection h with h
      exact ⟨rfl, h.symm⟩
  | finite negative x =>
      have htext := partText_finite_eq h
      have hnonzero := (FixedDecimal.ofUnits f.precision
        (x.roundedPlaces f.precision)).units_ne_zero_iff
      rw [FixedDecimal.units_ofUnits] at hnonzero
      refine ⟨.ofUnits f.precision (x.roundedPlaces f.precision), ?_, ?_, ?_, ?_⟩
      · rw [FixedDecimal.text_ofUnits, htext]
      · rw [FixedDecimal.units_ofUnits]
        exact x.roundedPlaces_isNearestEven f.precision
      · rw [← hnonzero, showsMinus, Bool.and_eq_true, bne_iff_ne]
      · have hread := Binary64.read?_numeral
          (Numeral.fixed f.precision (x.roundedPlaces f.precision))
        rw [Numeral.text_fixed, Numeral.decimal_fixed, ← htext] at hread
        refine ⟨_, hread, ?_⟩
        rw [← hnonzero]
        exact Binary64.isZero_nearest_roundedPlaces x f.precision

theorem Shows.minus_notMem {places : ℕ} {minus : Bool} (h : Shows places x minus text) :
    '-' ∉ text := by
  cases x with
  | nan =>
      rw [h.2]
      decide
  | infinite negative =>
      rw [h.2]
      decide
  | finite negative x =>
      obtain ⟨t, rfl, -⟩ := h
      exact t.minus_notMem_text

/-! ## Whole numbers -/

/-- Every number is written as its real part, a sign between blanks, the absolute value of its
imaginary part and the symbol.  A real part has its minus in front, only that of an infinity is
inside the brackets. -/
theorem format_shows (f : ComplexFormat) (hplaces : f.precision ≤ 2147483647)
    (z : ComplexNumber) :
    ∃ (re im : List Char) (minus : Bool),
      f.format z = .ok (String.ofList
        (re ++ ' ' :: signChar minus :: ' ' :: im ++ f.symbol.toList)) ∧
      (Shows f.precision z.im minus im ∧ '-' ∉ im) ∧
      ((z.re = .infinite true ∧ re = "(-Infinity)".toList) ∨
        (z.re ≠ .infinite true ∧ ∃ reMinus part, Shows f.precision z.re reMinus part ∧
          '-' ∉ part ∧ re = if reMinus then '-' :: part else part)) := by
  obtain ⟨text, hformat⟩ := exists_format (hplaces.trans (by decide)) z
  obtain ⟨re, im, hre, him, htext⟩ := format_eq_ok hformat
  have hshows := shows_partText him
  refine ⟨re, im, f.showsMinus z.im, ?_, ⟨hshows, hshows.minus_notMem⟩, ?_⟩
  · rw [hformat, ← htext, String.ofList_toList]
  · by_cases hinfinite : z.re = .infinite true
    · rw [hinfinite] at hre
      injection hre with hre
      exact Or.inl ⟨hinfinite, hre.symm⟩
    · right
      rcases realText_cases hre with ⟨negative, hnegative, rfl⟩ | ⟨part, hpart, rfl⟩
      · obtain rfl : negative = false := by
          rw [hnegative] at hinfinite
          simpa using hinfinite
        rw [hnegative]
        exact ⟨hnegative ▸ hinfinite, false, "(Infinity)".toList, ⟨rfl, rfl⟩, by decide, rfl⟩
      · have hreal := shows_partText hpart
        exact ⟨hinfinite, f.showsMinus z.re, part, hreal, hreal.minus_notMem, rfl⟩

/-- A negative number that is written as zero has no sign, and a tie goes to the even digit. -/
theorem format_shows_tie :
    (⟨2, "j"⟩ : ComplexFormat).precision ≤ 2147483647 ∧
    ∃ (re im : List Char) (minus : Bool),
      String.ofList (re ++ ' ' :: signChar minus :: ' ' :: im ++ "j".toList) = "0.00 - 0.12j" ∧
      Shows 2 (Decimal.nearest true ⟨125, -3⟩) minus im ∧
      ∃ reMinus part, Shows 2 (Decimal.nearest true ⟨1, -3⟩) reMinus part ∧
        re = if reMinus then '-' :: part else part := by
  have hplaces : (⟨2, "j"⟩ : ComplexFormat).precision ≤ 2147483647 := by decide
  have hformat : (⟨2, "j"⟩ : ComplexFormat).format
      ⟨Decimal.nearest true ⟨1, -3⟩, Decimal.nearest true ⟨125, -3⟩⟩ = .ok "0.00 - 0.12j" := by
    apply eq_ok_of_toOption
    decide +kernel
  have hfinite : Decimal.nearest true ⟨1, -3⟩ ≠ .infinite true := by decide +kernel
  generalize Decimal.nearest true ⟨1, -3⟩ = x at hformat hfinite ⊢
  generalize Decimal.nearest true ⟨125, -3⟩ = y at hformat ⊢
  obtain ⟨re, im, minus, htext, ⟨him, -⟩, hre⟩ := format_shows ⟨2, "j"⟩ hplaces ⟨x, y⟩
  rw [hformat] at htext
  injection htext with htext
  obtain ⟨-, reMinus, part, hpart, -, hre⟩ := hre.resolve_left fun h => hfinite h.1
  exact ⟨hplaces, re, im, minus, htext.symm, him, reMinus, part, hpart, hre⟩

end ComplexFormat

end ComplexCalculator
