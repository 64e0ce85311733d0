import ComplexCalculator.Binary64.Shortest
import ComplexCalculator.Proofs.Decimal.Nearest
import ComplexCalculator.Proofs.Decimal.Numeral

/-!
# Shortest texts are numerals

The shortest text of a finite number is a numeral, perhaps behind a minus sign, and the
number is nearest to the decimal that the numeral denotes.  Zeros at the end of the digits
can be dropped because the place of the first digit is kept.
-/

namespace ComplexCalculator

open Binary64 (unitBits)
open Text (digitsValue isDecimalDigit)

/-! ## The shortest decimal -/

namespace Magnitude

theorem value_toDecimal (x : Magnitude) : x.toDecimal.value = x.value := by
  have hten : (10 : ℚ) ^ unitBits = 2 ^ unitBits * 5 ^ unitBits := by
    rw [← mul_pow]
    norm_num
  rw [Decimal.value, toDecimal, value, power_eq_pow, zpow_neg, zpow_natCast, hten]
  push_cast
  field_simp

/-- The shortest decimal is read as the number. -/
theorem nearest_shortest (x : Magnitude) : x.shortest.nearest false = .finite false x := by
  rw [shortest]
  rcases hfound : (List.range 17).findSome? _ with - | d
  · exact Decimal.nearest_of_value_eq false x.value_toDecimal
  · obtain ⟨n, -, hhead⟩ := List.exists_of_findSome?_eq_some hfound
    have hreads := (List.mem_filter.mp (List.mem_of_mem_head? hhead)).2
    exact of_decide_eq_true hreads

end Magnitude

/-! ## Significant digits -/

/-- The power of ten of the first digit, where zero counts as written without an exponent. -/
def Decimal.leading (d : Decimal) : ℤ := if d.significand = 0 then 0 else d.leadingExponent

theorem Text.append_zeros (digits : List Char) :
    ∃ k, (digits.reverse.dropWhile (· == '0')).reverse ++ List.replicate k '0' = digits := by
  have hsplit := congrArg List.reverse
    (List.takeWhile_append_dropWhile (p := (· == '0')) (l := digits.reverse))
  rw [List.reverse_append, List.reverse_reverse] at hsplit
  refine ⟨(digits.reverse.takeWhile (· == '0')).length, ?_⟩
  nth_rewrite 3 [← hsplit]
  rw [List.append_cancel_left_eq, ← List.reverse_replicate, List.reverse_inj]
  symm
  rw [List.eq_replicate_iff]
  refine ⟨rfl, ?_⟩
  intro c hc
  have hc := List.mem_takeWhile_imp (p := (· == '0')) hc
  exact beq_iff_eq.mp hc

/-- Of the digits of a positive number only zeros at the end are dropped. -/
theorem Text.significantDigits_append_zeros {n : ℕ} (hpos : 0 < n) :
    ∃ k, Binary64.significantDigits (Nat.toDigits 10 n) ++ List.replicate k '0' =
      Nat.toDigits 10 n := by
  obtain ⟨k, hk⟩ := append_zeros (Nat.toDigits 10 n)
  refine ⟨k, ?_⟩
  rw [Binary64.significantDigits]
  split
  · rename_i hnil
    have hvalue := congrArg digitsValue hk
    rw [hnil, List.nil_append, digitsValue_toDigits, ← List.append_nil (List.replicate k '0'),
      digitsValue_zeros_append] at hvalue
    exact absurd hvalue hpos.ne
  · exact hk

/-- The digits of a decimal without the zeros at their end determine it together with the
place of the first one. -/
theorem Decimal.value_significantDigits (d : Decimal) :
    let digits := Binary64.significantDigits (Nat.toDigits 10 d.significand)
    digits ≠ [] ∧ (∀ c ∈ digits, isDecimalDigit c = true) ∧
      d.value = digitsValue digits * 10 ^ (d.leading + 1 - digits.length) := by
  intro digits
  rcases Nat.eq_zero_or_pos d.significand with hzero | hpos
  · have hdigits : digits = ['0'] := by
      simp only [digits, hzero]
      rfl
    rw [hdigits]
    refine ⟨by decide, by decide, ?_⟩
    have hvalue : digitsValue ['0'] = 0 := rfl
    rw [value, hzero, hvalue, Nat.cast_zero, zero_mul, zero_mul]
  · obtain ⟨k, hk⟩ := Text.significantDigits_append_zeros hpos
    change digits ++ _ = _ at hk
    have hvalue := congrArg digitsValue hk
    rw [Text.digitsValue_append, Text.digitsValue_zeros, Text.digitsValue_toDigits,
      List.length_replicate, Nat.add_zero] at hvalue
    have hlength := congrArg List.length hk
    rw [List.length_append, List.length_replicate] at hlength
    refine ⟨?_, ?_, ?_⟩
    · intro hnil
      rw [hnil] at hvalue
      simp [digitsValue] at hvalue
      omega
    · intro c hc
      apply Text.isDecimalDigit_of_isDigit
      apply Nat.isDigit_of_mem_toDigits (b := 10) (n := d.significand) (by norm_num) (by norm_num)
      rw [← hk]
      exact List.mem_append_left _ hc
    · have hplace : d.leading + 1 - digits.length = k + d.exponent := by
        rw [leading, if_neg hpos.ne', leadingExponent]
        omega
      rw [value, hplace, zpow_add₀ (by norm_num), zpow_natCast, ← hvalue]
      push_cast
      ring

/-! ## Notations -/

namespace Binary64

variable {digits : List Char}

/-- Digits with a point and an exponent among them are a numeral. -/
theorem exists_numeral (whole : List Char) (fraction : Option (List Char))
    (exponent : Option NumeralExponent) {q : ℚ}
    (hdigits : ∀ c ∈ whole ++ fraction.getD [], isDecimalDigit c = true)
    (hne : whole ++ fraction.getD [] ≠ [])
    (hvalue : digitsValue (whole ++ fraction.getD []) *
      10 ^ ((exponent.map NumeralExponent.value).getD 0 - (fraction.getD []).length) = q) :
    ∃ n : Numeral, n.text = whole ++ Numeral.fractionText fraction ++
        (exponent.map NumeralExponent.text).getD [] ∧ n.decimal.value = q :=
  ⟨⟨whole, fraction, exponent, hdigits, hne⟩, rfl, hvalue⟩

/-- Below one, zeros stand behind the point. -/
theorem exists_numeral_small (hdigits : ∀ c ∈ digits, isDecimalDigit c = true) {leading : ℤ}
    (hnegative : leading < 0) :
    ∃ n : Numeral, n.text = positionalText digits leading ∧
      n.decimal.value = digitsValue digits * 10 ^ (leading + 1 - digits.length) := by
  have hzeros : ['0'] ++ (List.replicate (-leading - 1).toNat '0' ++ digits) =
      List.replicate ((-leading - 1).toNat + 1) '0' ++ digits := by
    simp [List.replicate_succ]
  have hplace : (0 : ℤ) - (List.replicate (-leading - 1).toNat '0' ++ digits).length =
      leading + 1 - digits.length := by
    rw [List.length_append, List.length_replicate]
    omega
  obtain ⟨n, htext, hvalue⟩ := exists_numeral ['0']
    (some (List.replicate (-leading - 1).toNat '0' ++ digits)) none
    (by
      intro c hc
      rw [Option.getD_some, hzeros] at hc
      exact (List.mem_append.mp hc).elim Text.isDecimalDigit_of_mem_zeros (hdigits c))
    (by simp)
    (by rw [Option.getD_some, hzeros, Text.digitsValue_zeros_append, Option.map_none,
      Option.getD_none, hplace])
  refine ⟨n, ?_, hvalue⟩
  rw [htext, positionalText, if_pos hnegative]
  simp [Numeral.fractionText]

/-- Where digits are missing in front of the point, zeros stand there. -/
theorem exists_numeral_padded (hdigits : ∀ c ∈ digits, isDecimalDigit c = true) {leading : ℤ}
    (hnegative : ¬leading < 0) (hlength : digits.length ≤ leading.toNat + 1) :
    ∃ n : Numeral, n.text = positionalText digits leading ∧
      n.decimal.value = digitsValue digits * 10 ^ (leading + 1 - digits.length) := by
  have hvalue : digitsValue (digits ++
      List.replicate (leading.toNat + 1 - digits.length) '0' ++ ['0']) =
        digitsValue digits * 10 ^ (leading.toNat + 1 - digits.length) * 10 := by
    rw [Text.digitsValue_append, Text.digitsValue_append, Text.digitsValue_zeros,
      List.length_replicate]
    rfl
  have hplace : leading + 1 - digits.length =
      ((leading.toNat + 1 - digits.length : ℕ) : ℤ) := by omega
  obtain ⟨n, htext, hn⟩ := exists_numeral
    (digits ++ List.replicate (leading.toNat + 1 - digits.length) '0') (some ['0']) none
    (by
      intro c hc
      rw [Option.getD_some, List.append_assoc, List.mem_append, List.mem_append] at hc
      rcases hc with hc | hc | hc
      · exact hdigits c hc
      · exact Text.isDecimalDigit_of_mem_zeros hc
      · exact Text.isDecimalDigit_of_mem_zeros (k := 1) hc)
    (by simp)
    rfl
  refine ⟨n, ?_, ?_⟩
  · rw [htext, positionalText, if_neg hnegative]
    dsimp only
    rw [if_pos hlength, List.take_of_length_le hlength]
    simp [Numeral.fractionText]
  · rw [hn, Option.getD_some, hvalue, hplace, zpow_natCast]
    simp

/-- Where there are more digits than places in front of the point, it stands among them. -/
theorem exists_numeral_split (hdigits : ∀ c ∈ digits, isDecimalDigit c = true)
    (hne : digits ≠ []) {leading : ℤ} (hnegative : ¬leading < 0)
    (hlength : ¬digits.length ≤ leading.toNat + 1) :
    ∃ n : Numeral, n.text = positionalText digits leading ∧
      n.decimal.value = digitsValue digits * 10 ^ (leading + 1 - digits.length) := by
  have hzeros : leading.toNat + 1 - digits.length = 0 := by omega
  have hplace : (0 : ℤ) - (digits.drop (leading.toNat + 1)).length =
      leading + 1 - digits.length := by
    rw [List.length_drop]
    omega
  obtain ⟨n, htext, hn⟩ := exists_numeral (digits.take (leading.toNat + 1))
    (some (digits.drop (leading.toNat + 1))) none
    (by rwa [Option.getD_some, List.take_append_drop])
    (by rwa [Option.getD_some, List.take_append_drop])
    (by rw [Option.getD_some, List.take_append_drop, Option.map_none, Option.getD_none, hplace])
  refine ⟨n, ?_, hn⟩
  rw [htext, positionalText, if_neg hnegative]
  dsimp only
  rw [if_neg hlength, hzeros]
  simp [Numeral.fractionText]

theorem exists_numeral_positional (hdigits : ∀ c ∈ digits, isDecimalDigit c = true)
    (hne : digits ≠ []) (leading : ℤ) :
    ∃ n : Numeral, n.text = positionalText digits leading ∧
      n.decimal.value = digitsValue digits * 10 ^ (leading + 1 - digits.length) := by
  by_cases hnegative : leading < 0
  · exact exists_numeral_small hdigits hnegative
  · by_cases hlength : digits.length ≤ leading.toNat + 1
    · exact exists_numeral_padded hdigits hnegative hlength
    · exact exists_numeral_split hdigits hne hnegative hlength

/-- The exponent that a number is written with. -/
def numeralExponent (exponent : ℤ) : NumeralExponent where
  letter := 'e'
  sign := some (decide (exponent < 0))
  digits := Text.numeral 10 2 exponent.natAbs
  letter_eq := Or.inl rfl
  isDigit := fun _ hc => Text.isDecimalDigit_of_isDigit (Text.isDigit_of_mem_numeral hc)
  nonempty := by
    have hlength := Text.length_numeral_ge 2 exponent.natAbs
    intro hnil
    rw [hnil, List.length_nil] at hlength
    omega

theorem text_numeralExponent (exponent : ℤ) :
    (numeralExponent exponent).text = exponentText exponent := by
  rw [NumeralExponent.text, numeralExponent, exponentText]
  by_cases hnegative : exponent < 0 <;> simp [hnegative, signChar]

theorem value_numeralExponent (exponent : ℤ) : (numeralExponent exponent).value = exponent := by
  rw [NumeralExponent.value, numeralExponent, Text.digitsValue_numeral]
  by_cases hnegative : exponent < 0
  · rw [decide_eq_true hnegative, if_pos rfl]
    omega
  · rw [decide_eq_false hnegative, if_neg (by simp)]
    omega

theorem exists_numeral_scientific (hdigits : ∀ c ∈ digits, isDecimalDigit c = true)
    (hne : digits ≠ []) (leading : ℤ) :
    ∃ n : Numeral, n.text = pointAfterFirst digits ++ exponentText leading ∧
      n.decimal.value = digitsValue digits * 10 ^ (leading + 1 - digits.length) := by
  obtain ⟨first, rest, rfl⟩ := List.exists_cons_of_ne_nil hne
  cases rest with
  | nil =>
      obtain ⟨n, htext, hn⟩ := exists_numeral [first] none (some (numeralExponent leading))
        (by simpa using hdigits) (by simp) rfl
      refine ⟨n, ?_, ?_⟩
      · simp [htext, Numeral.fractionText, text_numeralExponent, pointAfterFirst]
      · simp [hn, value_numeralExponent]
  | cons second rest =>
      obtain ⟨n, htext, hn⟩ := exists_numeral [first] (some (second :: rest))
        (some (numeralExponent leading)) (by simpa using hdigits) (by simp) rfl
      refine ⟨n, ?_, ?_⟩
      · simp [htext, Numeral.fractionText, text_numeralExponent, pointAfterFirst]
      · have hplace : leading - (second :: rest).length =
            leading + 1 - (first :: second :: rest).length := by
          simp only [List.length_cons]
          omega
        rw [hn, Option.map_some, Option.getD_some, Option.getD_some, value_numeralExponent, hplace]
        rfl

theorem decimalText_eq (d : Decimal) :
    decimalText d =
      if -4 ≤ d.leading && d.leading < 16 then
        positionalText (significantDigits (Nat.toDigits 10 d.significand)) d.leading
      else
        pointAfterFirst (significantDigits (Nat.toDigits 10 d.significand)) ++
          exponentText d.leading :=
  rfl

/-- A decimal is written as a numeral that denotes it. -/
theorem exists_numeral_decimalText (d : Decimal) :
    ∃ n : Numeral, n.text = decimalText d ∧ n.decimal.value = d.value := by
  obtain ⟨hne, hdigits, hvalue⟩ := d.value_significantDigits
  rw [hvalue, decimalText_eq]
  split
  · exact exists_numeral_positional hdigits hne d.leading
  · exact exists_numeral_scientific hdigits hne d.leading

/-- A finite number is written as a numeral, which is read as the number. -/
theorem exists_numeral_shortestText (negative : Bool) (x : Magnitude) :
    ∃ n : Numeral, (shortestText (.finite negative x)).toList = signText negative ++ n.text ∧
      n.decimal.nearest false = .finite false x := by
  obtain ⟨n, htext, hvalue⟩ := exists_numeral_decimalText x.shortest
  refine ⟨n, ?_, ?_⟩
  · rw [shortestText, String.toList_ofList, htext]
  · rw [Decimal.nearest_congr false hvalue, x.nearest_shortest]

end Binary64

end ComplexCalculator
