import ComplexCalculator.Text.Digits
import Mathlib.Data.List.Basic
import Mathlib.Tactic.Ring

/-!
# Rows of digits

The digits that numbers are written with are read back as the same number, also with
zeros in front.  Two rows behind each other denote the first one, moved to the left by
the length of the second, plus the second.
-/

namespace ComplexCalculator.Text

/-- What is said of the characters of a text is decided by going through the text, not
through all characters. -/
instance decidableForallMem {p : Char → Prop} [DecidablePred p] (text : List Char) :
    Decidable (∀ c ∈ text, p c) :=
  List.decidableBAll p text

/-! ## Single digits -/

theorem decimalDigit?_of_isDigit {c : Char} (h : c.isDigit = true) :
    decimalDigit? c = some (c.toNat - 48) := by
  have hrange : 48 ≤ c.toNat ∧ c.toNat ≤ 57 := Char.isDigit_iff_toNat.mp h
  have hfirst : (decide (0x30 ≤ c.toNat) && decide (c.toNat < 0x30 + 10)) = true := by
    rw [Bool.and_eq_true, decide_eq_true_eq, decide_eq_true_eq]
    omega
  rw [decimalDigit?, zeros, List.find?_cons, hfirst]
  rfl

theorem isDecimalDigit_of_isDigit {c : Char} (h : c.isDigit = true) : isDecimalDigit c = true := by
  rw [isDecimalDigit, decimalDigit?_of_isDigit h]
  rfl

theorem exists_zero_of_isDecimalDigit {c : Char} (h : isDecimalDigit c = true) :
    ∃ start ∈ zeros, start ≤ c.toNat ∧ c.toNat < start + 10 := by
  rw [isDecimalDigit, Option.isSome_iff_exists] at h
  obtain ⟨digit, h⟩ := h
  obtain ⟨start, hfind, -⟩ := Option.map_eq_some_iff.mp h
  have hrun := List.find?_some hfind
  rw [Bool.and_eq_true, decide_eq_true_eq, decide_eq_true_eq] at hrun
  exact ⟨start, List.mem_of_find?_eq_some hfind, hrun⟩

/-- No run of digits overlaps a run of blanks. -/
theorem isBlank_of_isDecimalDigit {c : Char} (h : isDecimalDigit c = true) : isBlank c = false := by
  have hapart : ∀ start ∈ zeros, ∀ run ∈ blankRuns, run.2 < start ∨ start + 10 ≤ run.1 := by decide
  obtain ⟨start, hstart, hlow, hhigh⟩ := exists_zero_of_isDecimalDigit h
  rw [isBlank, List.any_eq_false]
  intro run hrun
  rw [Bool.and_eq_true, decide_eq_true_eq, decide_eq_true_eq]
  rcases hapart start hstart run hrun with hrun | hrun <;> omega

/-- No digit is a capital letter. -/
theorem toLower_of_isDecimalDigit {c : Char} (h : isDecimalDigit c = true) :
    c.toLower = c := by
  have hapart : ∀ start ∈ zeros, start + 10 ≤ 'A'.toNat ∨ 'Z'.toNat < start := by decide
  obtain ⟨start, hstart, hlow, hhigh⟩ := exists_zero_of_isDecimalDigit h
  refine dif_neg ?_
  rintro ⟨hfirst, hlast⟩
  have hfirst : 'A'.toNat ≤ c.toNat := UInt32.le_iff_toNat_le.mp hfirst
  have hlast : c.toNat ≤ 'Z'.toNat := UInt32.le_iff_toNat_le.mp hlast
  rcases hapart start hstart with hstart | hstart <;> omega

/-! ## Rows -/

theorem foldl_digits (digits : List Char) (start : ℕ) :
    digits.foldl (fun value c => 10 * value + (decimalDigit? c).getD 0) start =
      start * 10 ^ digits.length + digitsValue digits := by
  induction digits generalizing start with
  | nil => simp [digitsValue]
  | cons c digits ih =>
      rw [digitsValue, List.foldl_cons, List.foldl_cons, ih, ih (10 * 0 + _), List.length_cons]
      ring

theorem digitsValue_append (a b : List Char) :
    digitsValue (a ++ b) = digitsValue a * 10 ^ b.length + digitsValue b := by
  rw [digitsValue, List.foldl_append, foldl_digits b]
  rfl

theorem digitsValue_zeros (k : ℕ) : digitsValue (List.replicate k '0') = 0 := by
  induction k with
  | zero => rfl
  | succ k ih =>
      rw [List.replicate_succ', digitsValue_append, ih]
      rfl

theorem digitsValue_zeros_append (k : ℕ) (digits : List Char) :
    digitsValue (List.replicate k '0' ++ digits) = digitsValue digits := by
  rw [digitsValue_append, digitsValue_zeros, Nat.zero_mul, Nat.zero_add]

theorem isDecimalDigit_of_mem_zeros {k : ℕ} {c : Char} (h : c ∈ List.replicate k '0') :
    isDecimalDigit c = true := by
  rw [List.eq_of_mem_replicate h]
  decide

/-- On plain digits this is the value that the digits of a number are made from. -/
theorem digitsValue_eq_ofDigitChars {digits : List Char} (h : ∀ c ∈ digits, c.isDigit = true) :
    digitsValue digits = Nat.ofDigitChars 10 digits 0 := by
  rw [digitsValue, Nat.ofDigitChars_eq_foldl]
  apply List.foldl_ext
  intro value c hc
  rw [decimalDigit?_of_isDigit (h c hc)]
  rfl

theorem isDigit_of_mem_numeral {width n : ℕ} {c : Char} (h : c ∈ numeral 10 width n) :
    c.isDigit = true := by
  rw [numeral, List.mem_append] at h
  rcases h with h | h
  · rw [List.eq_of_mem_replicate h]
    rfl
  · exact Nat.isDigit_of_mem_toDigits (by norm_num) (by norm_num) h

theorem digitsValue_toDigits (n : ℕ) : digitsValue (Nat.toDigits 10 n) = n := by
  rw [digitsValue_eq_ofDigitChars fun c hc =>
    Nat.isDigit_of_mem_toDigits (by norm_num) (by norm_num) hc]
  exact Nat.ofDigitChars_ten_toDigits

theorem digitsValue_numeral (width n : ℕ) : digitsValue (numeral 10 width n) = n := by
  rw [numeral, digitsValue_zeros_append, digitsValue_toDigits]

theorem length_numeral_ge (width n : ℕ) : width ≤ (numeral 10 width n).length := by
  rw [numeral, List.length_append, List.length_replicate]
  omega

/-! ## Leading zeros -/

theorem head?_toDigits {n : ℕ} (hn : n ≠ 0) : (Nat.toDigits 10 n).head? ≠ some '0' := by
  induction n using Nat.strongRecOn with
  | ind n ih =>
      have hdigit : ∀ k < 10, k ≠ 0 → some (Nat.digitChar k) ≠ some '0' := by decide
      rcases Nat.lt_or_ge n 10 with hsmall | hlarge
      · rw [Nat.toDigits_of_lt_base hsmall]
        exact hdigit n hsmall hn
      · have hhead := ih (n / 10) (Nat.div_lt_self (Nat.pos_of_ne_zero hn) (by norm_num))
          (Nat.div_pos hlarge (by norm_num)).ne'
        have hne : Nat.toDigits 10 (n / 10) ≠ [] :=
          List.ne_nil_of_length_pos Nat.length_toDigits_pos
        rwa [Nat.toDigits_of_base_le (by norm_num) hlarge, List.head?_append_of_ne_nil _ hne]

theorem digitsValue_eq_zero_iff {digits : List Char} (h : ∀ c ∈ digits, c.isDigit = true) :
    digitsValue digits = 0 ↔ ∀ c ∈ digits, c = '0' := by
  induction digits with
  | nil => simp [digitsValue]
  | cons c rest ih =>
      have hc := h c (by simp)
      have hfirst : digitsValue [c] = 0 ↔ c = '0' := by
        have hrange := Char.isDigit_iff_toNat.mp hc
        have hvalue : digitsValue [c] = c.toNat - 48 := by
          simp [digitsValue, decimalDigit?_of_isDigit hc]
        have hzero : '0'.toNat = 48 := rfl
        rw [hvalue, ← Char.toNat_inj, hzero]
        omega
      have hpos : 10 ^ rest.length ≠ 0 := (Nat.pow_pos (by norm_num)).ne'
      rw [← List.singleton_append, digitsValue_append, Nat.add_eq_zero_iff, Nat.mul_eq_zero,
        or_iff_left hpos, hfirst, ih fun d hd => h d (by simp [hd])]
      simp

/-- The digits in front of the point begin with a zero only if there is a single one. -/
theorem take_numeral_eq_zero {places n : ℕ}
    (h : ((numeral 10 (places + 1) n).take ((numeral 10 (places + 1) n).length - places)).head? =
      some '0') :
    (numeral 10 (places + 1) n).take ((numeral 10 (places + 1) n).length - places) = ['0'] := by
  rcases Nat.lt_or_ge places (Nat.toDigits 10 n).length with hlong | hshort
  · have hplain : numeral 10 (places + 1) n = Nat.toDigits 10 n := by
      rw [numeral, Nat.sub_eq_zero_of_le hlong, List.replicate_zero, List.nil_append]
    rw [hplain] at h ⊢
    have hn : n = 0 := by
      by_contra hn
      rw [List.head?_take, if_neg (Nat.sub_ne_zero_of_lt hlong)] at h
      exact head?_toDigits hn h
    subst hn
    rw [Nat.toDigits_zero, List.length_singleton, Nat.lt_one_iff] at hlong
    subst hlong
    rfl
  · have hpadded : numeral 10 (places + 1) n =
        '0' :: (List.replicate (places - (Nat.toDigits 10 n).length) '0' ++ Nat.toDigits 10 n) := by
      rw [numeral, Nat.succ_sub hshort, List.replicate_succ, List.cons_append]
    have hlength : (numeral 10 (places + 1) n).length - places = 1 := by
      rw [hpadded, List.length_cons, List.length_append, List.length_replicate]
      omega
    rw [hlength, hpadded]
    rfl

end ComplexCalculator.Text
