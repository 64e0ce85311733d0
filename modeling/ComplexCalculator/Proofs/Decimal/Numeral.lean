import ComplexCalculator.Binary64.Reader
import ComplexCalculator.Proofs.Text.Digits
import Mathlib.Data.List.TakeWhile

/-!
# Decimal numerals

`Numeral` is the concrete form of an unsigned decimal number: digits with at most one
point and perhaps an exponent.  The reader takes a numeral from the front of a text
exactly if one stands there, and what it takes is the whole numeral unless more digits, a
point or an exponent follow.
-/

namespace ComplexCalculator

open Text (isDecimalDigit digitsValue)

/-- The sign that stands before a number. -/
def signChar (negative : Bool) : Char := if negative then '-' else '+'

/-- The exponent of a numeral. -/
@[ext] structure NumeralExponent where
  letter : Char
  /-- The sign, if there is one; true stands for minus. -/
  sign : Option Bool
  digits : List Char
  letter_eq : letter = 'e' ∨ letter = 'E'
  isDigit : ∀ c ∈ digits, isDecimalDigit c = true
  nonempty : digits ≠ []

/-- An unsigned decimal numeral. -/
@[ext] structure Numeral where
  whole : List Char
  /-- The digits behind the point, if there is a point. -/
  fraction : Option (List Char)
  exponent : Option NumeralExponent
  isDigit : ∀ c ∈ whole ++ fraction.getD [], isDecimalDigit c = true
  nonempty : whole ++ fraction.getD [] ≠ []

namespace NumeralExponent

def text (e : NumeralExponent) : List Char :=
  e.letter :: ((e.sign.map signChar).toList ++ e.digits)

/-- The integer that an exponent denotes. -/
def value (e : NumeralExponent) : ℤ :=
  if e.sign = some true then -(digitsValue e.digits : ℤ) else digitsValue e.digits

end NumeralExponent

namespace Numeral

/-- The point and the digits behind it. -/
def fractionText : Option (List Char) → List Char
  | none => []
  | some digits => '.' :: digits

/-- The characters of the exponent, if there is one. -/
def exponentText (n : Numeral) : List Char := (n.exponent.map NumeralExponent.text).getD []

def text (n : Numeral) : List Char := n.whole ++ fractionText n.fraction ++ n.exponentText

/-- The decimal number that a numeral denotes. -/
def decimal (n : Numeral) : Decimal where
  significand := digitsValue (n.whole ++ n.fraction.getD [])
  exponent := (n.exponent.map NumeralExponent.value).getD 0 - (n.fraction.getD []).length

/-- The exponent, if there is one, has no sign. -/
def Unsigned (n : Numeral) : Prop := ∀ e ∈ n.exponent, e.sign = none

theorem unsigned_of_exponent_eq_none {n : Numeral} (h : n.exponent = none) : n.Unsigned := by
  simp [Unsigned, h]

/-- What follows a numeral does not continue it. -/
def Ends (rest : List Char) : Prop :=
  ∀ c ∈ rest.head?, isDecimalDigit c = false ∧ c ≠ '.' ∧ c ≠ 'e' ∧ c ≠ 'E'

end Numeral

/-! ## Characters -/

theorem signChar_injective : Function.Injective signChar := by
  intro a b h
  cases a <;> cases b <;> simp_all [signChar]

theorem isDecimalDigit_sign (negative : Bool) : isDecimalDigit (signChar negative) = false := by
  cases negative <;> decide

theorem isDecimalDigit_point : isDecimalDigit '.' = false := by decide

theorem NumeralExponent.isDecimalDigit_letter (e : NumeralExponent) :
    isDecimalDigit e.letter = false := by
  rcases e.letter_eq with h | h <;> rw [h] <;> decide

theorem NumeralExponent.letter_ne_point (e : NumeralExponent) : e.letter ≠ '.' := by
  rcases e.letter_eq with h | h <;> rw [h] <;> decide

theorem Numeral.ends_nil : Numeral.Ends [] := by
  intro c hc
  simp at hc

theorem Numeral.ends_sign (negative : Bool) (rest : List Char) :
    Numeral.Ends (signChar negative :: rest) := by
  intro c hc
  obtain rfl : signChar negative = c := by simpa using hc
  refine ⟨isDecimalDigit_sign negative, ?_, ?_, ?_⟩ <;> cases negative <;> decide

theorem Numeral.mem_text {n : Numeral} {c : Char} (h : c ∈ n.text) :
    isDecimalDigit c = true ∨ c ∈ ['.', 'e', 'E'] ∨ (¬n.Unsigned ∧ c ∈ ['+', '-']) := by
  rw [text, List.mem_append, List.mem_append] at h
  rcases h with (h | h) | h
  · exact Or.inl (n.isDigit c (List.mem_append_left _ h))
  · cases hfraction : n.fraction with
    | none => simp [hfraction, fractionText] at h
    | some fraction =>
        rw [hfraction, fractionText, List.mem_cons] at h
        rcases h with rfl | h
        · simp
        · exact Or.inl (n.isDigit c (by simp [hfraction, h]))
  · cases hexponent : n.exponent with
    | none => simp [exponentText, hexponent] at h
    | some e =>
        rw [exponentText, hexponent, Option.map_some, Option.getD_some, NumeralExponent.text,
          List.mem_cons, List.mem_append] at h
        rcases h with rfl | h | h
        · rcases e.letter_eq with h | h <;> simp [h]
        · obtain ⟨negative, hsign, rfl⟩ : ∃ negative, e.sign = some negative ∧
              signChar negative = c := by simpa using h
          have hsigned : ¬n.Unsigned := by
            intro hn
            rw [hn e hexponent] at hsign
            contradiction
          right; right
          exact ⟨hsigned, by cases negative <;> simp [signChar]⟩
        · exact Or.inl (e.isDigit c h)

theorem Numeral.mem_text_of_unsigned {n : Numeral} (hn : n.Unsigned) {c : Char}
    (h : c ∈ n.text) : isDecimalDigit c = true ∨ c ∈ ['.', 'e', 'E'] := by
  rcases mem_text h with h | h | h
  · exact Or.inl h
  · exact Or.inr h
  · exact absurd hn h.1

theorem Numeral.isBlank_of_mem_text {n : Numeral} {c : Char} (h : c ∈ n.text) :
    Text.isBlank c = false := by
  have hsigns : ∀ c ∈ ['.', 'e', 'E', '+', '-'], Text.isBlank c = false := by decide
  rcases mem_text h with h | h | h
  · exact Text.isBlank_of_isDecimalDigit h
  · exact hsigns c (List.mem_append_left ['+', '-'] h)
  · exact hsigns c (List.mem_append_right ['.', 'e', 'E'] h.2)

/-- A numeral begins with a digit or a point. -/
theorem Numeral.exists_cons (n : Numeral) :
    ∃ c rest, n.text = c :: rest ∧ (isDecimalDigit c = true ∨ c = '.') := by
  have hne := n.nonempty
  cases hwhole : n.whole with
  | cons c whole =>
      exact ⟨c, whole ++ fractionText n.fraction ++ n.exponentText, by simp [text, hwhole],
        Or.inl (n.isDigit c (by simp [hwhole]))⟩
  | nil =>
      cases hfraction : n.fraction with
      | none => simp [hwhole, hfraction] at hne
      | some fraction =>
          exact ⟨'.', fraction ++ n.exponentText, by simp [text, hwhole, hfraction, fractionText],
            Or.inr rfl⟩

namespace Decimal

/-! ## Reading a numeral -/

theorem spanDigits_append {digits rest : List Char}
    (hdigits : ∀ c ∈ digits, isDecimalDigit c = true)
    (hrest : ∀ c ∈ rest.head?, isDecimalDigit c = false) :
    spanDigits (digits ++ rest) = (digits, rest) := by
  have hstop : rest.takeWhile isDecimalDigit = [] ∧ rest.dropWhile isDecimalDigit = rest := by
    cases rest with
    | nil => simp
    | cons c rest =>
        have hc := hrest c (by simp)
        simp [hc]
  rw [spanDigits, List.takeWhile_append_of_pos hdigits, List.dropWhile_append_of_pos hdigits,
    hstop.1, hstop.2, List.append_nil]

theorem takeSign_signChar (negative : Bool) (rest : List Char) :
    takeSign (signChar negative :: rest) = some (negative, rest) := by
  cases negative <;> rfl

theorem takeSign_of_ne {c : Char} (rest : List Char) (hplus : c ≠ '+') (hminus : c ≠ '-') :
    takeSign (c :: rest) = none := by
  rw [takeSign]
  · intro rest' h
    injection h with h
    exact hplus h
  · intro rest' h
    injection h with h
    exact hminus h

theorem takeSign_of_isDecimalDigit {c : Char} (rest : List Char) (h : isDecimalDigit c = true) :
    takeSign (c :: rest) = none := by
  apply takeSign_of_ne <;> rintro rfl <;> revert h <;> decide

theorem takeSign_digits (e : NumeralExponent) (rest : List Char) :
    takeSign (e.digits ++ rest) = none := by
  obtain ⟨d, digits, hcons⟩ := List.exists_cons_of_ne_nil e.nonempty
  rw [hcons]
  exact takeSign_of_isDecimalDigit _ (e.isDigit d (by simp [hcons]))

theorem takeExponentDigits_of_span (negative : Bool) {signed : Bool}
    {text body digits rest : List Char}
    (hsign : (if signed then (takeSign text).getD (false, text) else (false, text)) =
      (negative, body))
    (hspan : spanDigits body = (digits, rest)) (hne : digits ≠ []) :
    takeExponentDigits signed text =
      some (if negative then -(digitsValue digits : ℤ) else digitsValue digits, rest) := by
  rw [takeExponentDigits, hsign]
  obtain ⟨d, digits, rfl⟩ := List.exists_cons_of_ne_nil hne
  simp only [hspan]

theorem takeExponentDigits_text (e : NumeralExponent) {signed : Bool} {rest : List Char}
    (hsigned : signed = true ∨ e.sign = none)
    (hrest : ∀ c ∈ rest.head?, isDecimalDigit c = false) :
    takeExponentDigits signed ((e.sign.map signChar).toList ++ e.digits ++ rest) =
      some (e.value, rest) := by
  have hspan := spanDigits_append e.isDigit hrest
  have hfirst := takeSign_digits e rest
  cases hsign : e.sign with
  | none =>
      rw [takeExponentDigits_of_span false _ hspan e.nonempty]
      · simp [NumeralExponent.value, hsign]
      · cases signed <;> simp [hfirst]
  | some negative =>
      have hallowed : signed = true := by simpa [hsign] using hsigned
      rw [takeExponentDigits_of_span negative _ hspan e.nonempty]
      · simp [NumeralExponent.value, hsign]
      · simp [hallowed, takeSign_signChar]

theorem takeExponent_text (e : NumeralExponent) {signed : Bool} {rest : List Char}
    (hsigned : signed = true ∨ e.sign = none)
    (hrest : ∀ c ∈ rest.head?, isDecimalDigit c = false) :
    takeExponent signed (e.text ++ rest) = (e.value, rest) := by
  rw [NumeralExponent.text, List.cons_append, takeExponent, if_pos (by simpa using e.letter_eq),
    takeExponentDigits_text e hsigned hrest]
  rfl

theorem takeExponent_of_ends {signed : Bool} {rest : List Char} (hrest : Numeral.Ends rest) :
    takeExponent signed rest = (0, rest) := by
  cases rest with
  | nil => rfl
  | cons c rest =>
      obtain ⟨-, -, he, hE⟩ := hrest c (by simp)
      rw [takeExponent, if_neg (by simp [he, hE])]

/-- The text behind the mantissa of a numeral begins with neither a digit nor a point. -/
theorem head_exponentText (n : Numeral) {rest : List Char} (hrest : Numeral.Ends rest) :
    ∀ c ∈ (n.exponentText ++ rest).head?, isDecimalDigit c = false ∧ c ≠ '.' := by
  intro c hc
  rw [Numeral.exponentText] at hc
  cases hexponent : n.exponent with
  | none =>
      have hend := hrest c (by simpa [hexponent] using hc)
      exact ⟨hend.1, hend.2.1⟩
  | some e =>
      obtain rfl : e.letter = c := by simpa [hexponent, NumeralExponent.text] using hc
      exact ⟨e.isDecimalDigit_letter, e.letter_ne_point⟩

theorem takeMantissa_text (n : Numeral) {rest : List Char}
    (hrest : ∀ c ∈ rest.head?, isDecimalDigit c = false ∧ c ≠ '.') :
    takeMantissa (n.whole ++ Numeral.fractionText n.fraction ++ rest) =
      some (n.whole, n.fraction.getD [], rest) := by
  have hwhole : ∀ c ∈ n.whole, isDecimalDigit c = true := fun c hc =>
    n.isDigit c (List.mem_append_left _ hc)
  have hdigit : ∀ c ∈ rest.head?, isDecimalDigit c = false := fun c hc => (hrest c hc).1
  have hne := n.nonempty
  rw [takeMantissa]
  cases hfraction : n.fraction with
  | none =>
      rw [Numeral.fractionText, List.append_nil, spanDigits_append hwhole hdigit]
      have hwholeNe : n.whole.isEmpty = false := by simpa [hfraction] using hne
      split
      · rename_i whole tail heq
        injection heq with hw ht
        exact absurd rfl (hrest '.' (by simp [ht])).2
      · rename_i whole tail hnot heq
        injection heq with hw ht
        simp [← hw, ← ht, hwholeNe]
  | some fraction =>
      have hfractionDigits : ∀ c ∈ fraction, isDecimalDigit c = true := fun c hc =>
        n.isDigit c (by simp [hfraction, hc])
      have hempty : (n.whole.isEmpty && fraction.isEmpty) = false := by
        simpa [hfraction, List.isEmpty_iff] using hne
      rw [Numeral.fractionText, List.append_assoc, List.cons_append,
        spanDigits_append hwhole (by simp [isDecimalDigit_point])]
      simp [spanDigits_append hfractionDigits hdigit, hempty]

/-- A numeral is read as the number that it denotes. -/
theorem take_text (n : Numeral) {signed : Bool} {rest : List Char}
    (hsigned : signed = true ∨ n.Unsigned) (hrest : Numeral.Ends rest) :
    take signed (n.text ++ rest) = some (n.decimal, rest) := by
  have hexponent : takeExponent signed (n.exponentText ++ rest) =
      ((n.exponent.map NumeralExponent.value).getD 0, rest) := by
    rw [Numeral.exponentText]
    cases he : n.exponent with
    | none => exact takeExponent_of_ends hrest
    | some e =>
        have hallowed : signed = true ∨ e.sign = none := hsigned.imp_right fun h => h e he
        exact takeExponent_text e hallowed fun c hc => (hrest c hc).1
  rw [take, Numeral.text, List.append_assoc, takeMantissa_text n (head_exponentText n hrest),
    Option.map_some]
  simp only [hexponent, Numeral.decimal]

theorem read?_text (n : Numeral) {signed : Bool} (hsigned : signed = true ∨ n.Unsigned) :
    read? signed n.text = some n.decimal := by
  have htake := take_text n hsigned Numeral.ends_nil
  rw [List.append_nil] at htake
  rw [read?, htake]

/-! ## What was read is a numeral -/

theorem spanDigits_eq {text digits rest : List Char} (h : spanDigits text = (digits, rest)) :
    digits ++ rest = text ∧ ∀ c ∈ digits, isDecimalDigit c = true := by
  rw [spanDigits, Prod.mk.injEq] at h
  obtain ⟨rfl, rfl⟩ := h
  exact ⟨List.takeWhile_append_dropWhile, fun c hc => List.mem_takeWhile_imp hc⟩

theorem takeSign_eq {text rest : List Char} {negative : Bool}
    (h : takeSign text = some (negative, rest)) : text = signChar negative :: rest := by
  unfold takeSign at h
  split at h
  · simp only [Option.some.injEq, Prod.mk.injEq] at h
    obtain ⟨rfl, rfl⟩ := h
    rfl
  · simp only [Option.some.injEq, Prod.mk.injEq] at h
    obtain ⟨rfl, rfl⟩ := h
    rfl
  · contradiction

theorem exists_sign_of_takeSign (signed : Bool) (text : List Char) :
    ∃ sign : Option Bool, ∃ body, text = (sign.map signChar).toList ++ body ∧
      (if signed then (takeSign text).getD (false, text) else (false, text)) =
        (sign == some true, body) ∧
      (signed = true ∨ sign = none) := by
  cases signed with
  | false => exact ⟨none, text, rfl, rfl, Or.inr rfl⟩
  | true =>
      cases hsign : takeSign text with
      | none => exact ⟨none, text, rfl, rfl, Or.inl rfl⟩
      | some found =>
          obtain ⟨negative, body⟩ := found
          refine ⟨some negative, body, takeSign_eq hsign, ?_, Or.inl rfl⟩
          cases negative <;> rfl

theorem exists_exponent_of_takeExponentDigits {signed : Bool} {text rest : List Char}
    {letter : Char} {x : ℤ} (hletter : letter = 'e' ∨ letter = 'E')
    (h : takeExponentDigits signed text = some (x, rest)) :
    ∃ e : NumeralExponent, e.text ++ rest = letter :: text ∧ e.value = x ∧
      (signed = true ∨ e.sign = none) := by
  obtain ⟨sign, body, htext, hsign, hallowed⟩ := exists_sign_of_takeSign signed text
  rw [takeExponentDigits, hsign] at h
  dsimp only at h
  split at h
  · contradiction
  · rename_i digits rest' hne hspan
    obtain ⟨hbody, hdigits⟩ := spanDigits_eq hspan
    simp only [Option.some.injEq, Prod.mk.injEq] at h
    obtain ⟨hx, rfl⟩ := h
    refine ⟨⟨letter, sign, digits, hletter, hdigits, hne⟩, ?_, ?_, hallowed⟩
    · simp [NumeralExponent.text, htext, hbody]
    · simpa [NumeralExponent.value] using hx

theorem exists_exponent_of_takeExponent {signed : Bool} {text rest : List Char} {x : ℤ}
    (h : takeExponent signed text = (x, rest)) :
    ∃ exponent : Option NumeralExponent,
      (exponent.map NumeralExponent.text).getD [] ++ rest = text ∧
      (exponent.map NumeralExponent.value).getD 0 = x ∧
      (signed = true ∨ ∀ e ∈ exponent, e.sign = none) := by
  have hnone : (0, text) = (x, rest) → ∃ exponent : Option NumeralExponent,
      (exponent.map NumeralExponent.text).getD [] ++ rest = text ∧
      (exponent.map NumeralExponent.value).getD 0 = x ∧
      (signed = true ∨ ∀ e ∈ exponent, e.sign = none) := by
    rintro heq
    injection heq with hx hrest
    subst hx hrest
    exact ⟨none, rfl, rfl, Or.inr (by simp)⟩
  cases text with
  | nil => exact hnone h
  | cons c text =>
      rw [takeExponent] at h
      split_ifs at h with hletter
      · cases hdigits : takeExponentDigits signed text with
        | none => exact hnone (by simpa [hdigits] using h)
        | some found =>
            obtain ⟨x', rest'⟩ := found
            rw [hdigits, Option.getD_some] at h
            injection h with hx hrest
            subst hx hrest
            obtain ⟨e, htext, hvalue, hallowed⟩ :=
              exists_exponent_of_takeExponentDigits (by simpa using hletter) hdigits
            exact ⟨some e, htext, hvalue, hallowed.imp_right fun h e' he' => by
              obtain rfl : e = e' := by simpa using he'
              exact h⟩
      · exact hnone h

theorem exists_fraction_of_takeMantissa {text whole digits rest : List Char}
    (h : takeMantissa text = some (whole, digits, rest)) :
    ∃ fraction : Option (List Char), whole ++ Numeral.fractionText fraction ++ rest = text ∧
      fraction.getD [] = digits ∧ (∀ c ∈ whole ++ digits, isDecimalDigit c = true) ∧
      whole ++ digits ≠ [] := by
  unfold takeMantissa at h
  split at h
  · rename_i whole' tail hspan
    obtain ⟨htext, hwhole⟩ := spanDigits_eq hspan
    rcases hspanTail : spanDigits tail with ⟨fraction, behind⟩
    obtain ⟨htail, hfraction⟩ := spanDigits_eq hspanTail
    rw [hspanTail] at h
    dsimp only at h
    split_ifs at h with hempty
    simp only [Option.some.injEq, Prod.mk.injEq] at h
    obtain ⟨rfl, rfl, rfl⟩ := h
    refine ⟨some fraction, ?_, rfl, ?_, ?_⟩
    · simp [Numeral.fractionText, htail, htext]
    · intro c hc
      exact (List.mem_append.mp hc).elim (hwhole c) (hfraction c)
    · simpa [List.isEmpty_iff] using hempty
  · rename_i whole' rest' hnot hspan
    obtain ⟨htext, hwhole⟩ := spanDigits_eq hspan
    split_ifs at h with hempty
    simp only [Option.some.injEq, Prod.mk.injEq] at h
    obtain ⟨rfl, rfl, rfl⟩ := h
    refine ⟨none, ?_, rfl, ?_, ?_⟩
    · simp [Numeral.fractionText, htext]
    · simpa using hwhole
    · simpa [List.isEmpty_iff] using hempty

/-- What is read from the front of a text is a numeral, and the rest is left. -/
theorem exists_numeral_of_take {signed : Bool} {text rest : List Char} {d : Decimal}
    (h : take signed text = some (d, rest)) :
    ∃ n : Numeral, n.text ++ rest = text ∧ n.decimal = d ∧ (signed = true ∨ n.Unsigned) := by
  rw [take, Option.map_eq_some_iff] at h
  obtain ⟨⟨whole, digits, behind⟩, hmantissa, heq⟩ := h
  obtain ⟨fraction, htext, rfl, hdigits, hne⟩ := exists_fraction_of_takeMantissa hmantissa
  rcases htake : takeExponent signed behind with ⟨x, tail⟩
  obtain ⟨exponent, hexponentText, hvalue, hallowed⟩ := exists_exponent_of_takeExponent htake
  dsimp only at heq
  rw [htake] at heq
  injection heq with hd hrest
  refine ⟨⟨whole, fraction, exponent, hdigits, hne⟩, ?_, ?_, hallowed⟩
  · rw [← htext, ← hexponentText, ← hrest]
    simp [Numeral.text, Numeral.exponentText]
  · rw [← hd, Numeral.decimal, hvalue]

/-- Nothing but numerals is read. -/
theorem exists_numeral_of_read? {signed : Bool} {text : List Char} {d : Decimal}
    (h : read? signed text = some d) :
    ∃ n : Numeral, n.text = text ∧ n.decimal = d ∧ (signed = true ∨ n.Unsigned) := by
  unfold read? at h
  split at h
  · rename_i d' htake
    injection h with h
    subst h
    obtain ⟨n, htext, hvalue, hallowed⟩ := exists_numeral_of_take htake
    exact ⟨n, by simpa using htext, hvalue, hallowed⟩
  · contradiction

end Decimal

/-! ## Unique reading -/

open Decimal (spanDigits spanDigits_append takeMantissa takeMantissa_text takeSign
  takeSign_digits takeSign_signChar)

/-- A sign in front of a text that begins with none is determined. -/
theorem sign_append_inj {s t : Option Bool} {a b : List Char} (ha : takeSign a = none)
    (hb : takeSign b = none)
    (h : (s.map signChar).toList ++ a = (t.map signChar).toList ++ b) : s = t ∧ a = b := by
  have hread (s : Option Bool) {a : List Char} (ha : takeSign a = none) :
      takeSign ((s.map signChar).toList ++ a) = s.map (·, a) := by
    cases s with
    | none => exact ha
    | some negative => exact takeSign_signChar negative a
  have heq := congrArg takeSign h
  rw [hread s ha, hread t hb] at heq
  cases s with
  | none =>
      obtain rfl : none = t := (Option.map_eq_none_iff.mp heq.symm).symm
      exact ⟨rfl, h⟩
  | some negative =>
      obtain ⟨negative', rfl, hpair⟩ := Option.map_eq_some_iff.mp heq.symm
      injection hpair with hsign hbody
      exact ⟨congrArg some hsign.symm, hbody.symm⟩

theorem digits_append_inj {a b rest rest' : List Char} (ha : ∀ c ∈ a, isDecimalDigit c = true)
    (hb : ∀ c ∈ b, isDecimalDigit c = true) (hrest : ∀ c ∈ rest.head?, isDecimalDigit c = false)
    (hrest' : ∀ c ∈ rest'.head?, isDecimalDigit c = false) (h : a ++ rest = b ++ rest') :
    a = b ∧ rest = rest' := by
  have hspan := congrArg spanDigits h
  rw [spanDigits_append ha hrest, spanDigits_append hb hrest'] at hspan
  exact Prod.mk.inj hspan

theorem NumeralExponent.append_inj {e e' : NumeralExponent} {rest rest' : List Char}
    (hrest : ∀ c ∈ rest.head?, isDecimalDigit c = false)
    (hrest' : ∀ c ∈ rest'.head?, isDecimalDigit c = false)
    (h : e.text ++ rest = e'.text ++ rest') : e = e' ∧ rest = rest' := by
  rw [text, text, List.cons_append, List.cons_append, List.append_assoc, List.append_assoc] at h
  injection h with hletter h
  obtain ⟨hsign, hbody⟩ := sign_append_inj (takeSign_digits e rest) (takeSign_digits e' rest') h
  obtain ⟨hdigits, htail⟩ := digits_append_inj e.isDigit e'.isDigit hrest hrest' hbody
  exact ⟨NumeralExponent.ext hletter hsign hdigits, htail⟩

theorem Numeral.fractionText_injective : Function.Injective fractionText := by
  intro a b h
  cases a <;> cases b <;> simp_all [fractionText]

theorem Numeral.exponent_append_inj {m n : Numeral} {rest rest' : List Char} (hrest : Ends rest)
    (hrest' : Ends rest') (h : m.exponentText ++ rest = n.exponentText ++ rest') :
    m.exponent = n.exponent ∧ rest = rest' := by
  have hletter {e : NumeralExponent} {tail rest : List Char} (hrest : Ends rest) :
      e.text ++ tail ≠ rest := by
    rintro rfl
    obtain ⟨-, -, he, hE⟩ := hrest e.letter (by simp [NumeralExponent.text])
    exact e.letter_eq.elim he hE
  rw [exponentText, exponentText] at h
  cases hm : m.exponent with
  | none =>
      cases hn : n.exponent with
      | none => exact ⟨rfl, by simpa [hm, hn] using h⟩
      | some e => exact absurd (by simpa [hm, hn] using h.symm) (hletter hrest)
  | some e =>
      cases hn : n.exponent with
      | none => exact absurd (by simpa [hm, hn] using h) (hletter hrest')
      | some e' =>
          obtain ⟨rfl, hrests⟩ := NumeralExponent.append_inj (fun c hc => (hrest c hc).1)
            (fun c hc => (hrest' c hc).1) (by simpa [hm, hn] using h)
          exact ⟨rfl, hrests⟩

/-- A numeral at the front of a text is determined, if what follows does not continue it. -/
theorem Numeral.append_inj {m n : Numeral} {rest rest' : List Char} (hrest : Ends rest)
    (hrest' : Ends rest') (h : m.text ++ rest = n.text ++ rest') : m = n ∧ rest = rest' := by
  rw [text, text, List.append_assoc, List.append_assoc _ n.exponentText] at h
  have hmantissa := congrArg takeMantissa h
  rw [takeMantissa_text m (Decimal.head_exponentText m hrest),
    takeMantissa_text n (Decimal.head_exponentText n hrest')] at hmantissa
  simp only [Option.some.injEq, Prod.mk.injEq] at hmantissa
  obtain ⟨hwhole, -, htail⟩ := hmantissa
  rw [htail, hwhole, List.append_cancel_right_eq, List.append_cancel_left_eq] at h
  obtain ⟨hexponent, hrests⟩ := exponent_append_inj hrest hrest' htail
  exact ⟨Numeral.ext hwhole (fractionText_injective h) hexponent, hrests⟩

end ComplexCalculator
