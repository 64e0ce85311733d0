import ComplexCalculator.Proofs.ComplexFormat.RoundTrip

/-!
# The texts of complex numbers

`ComplexNumeral` is the concrete form of a complex number: a real number, a real and an
imaginary one with a sign between them, or an imaginary one alone.  A text has at most one
such form, because what follows a number begins with a sign or with the imaginary unit and so
does not continue it.  The reader accepts a text exactly if it has one, and reads it as the
number of this form.
-/

namespace ComplexCalculator

open Alphabet (imaginaryUnit)
open ComplexFormat (applySign infinityMarker nanMarker readBeforeSymbol? readCompact? readFactor?
  readReal? takeMarker takeSign_sign takeSigned takeSigned_sign takeUnsigned)

/-- A real number without a sign in front, as texts have it. -/
inductive UnsignedReal where
  | numeral (n : Numeral)
  | nan
  | infinity (negative : Bool)

namespace UnsignedReal

def text : UnsignedReal → List Char
  | numeral n => n.text
  | nan => nanMarker
  | infinity negative => infinityMarker negative

/-- The double-precision number that is read. -/
def value : UnsignedReal → Binary64
  | numeral n => n.decimal.nearest false
  | nan => .nan
  | infinity negative => .infinite negative

/-- The characters in front of an imaginary unit, if there are any. -/
def factorText (x : Option UnsignedReal) : List Char := (x.map text).getD []

/-- The number in front of an imaginary unit, which is one if nothing is written. -/
def factor (x : Option UnsignedReal) : Binary64 := (x.map value).getD .one

theorem factorText_none : factorText none = [] := rfl

theorem factorText_some (x : UnsignedReal) : factorText (some x) = x.text := rfl

theorem factor_some (x : UnsignedReal) : factor (some x) = x.value := rfl

theorem factor_none : factor none = .one := by
  rw [factor, Option.map_none, Option.getD_none]

end UnsignedReal

/-- A complex number as texts without blanks have it; the signs are true for minus. -/
inductive ComplexNumeral where
  | real (sign : Option Bool) (x : UnsignedReal)
  | pair (sign : Option Bool) (x : UnsignedReal) (negative : Bool) (y : Option UnsignedReal)
  | imaginary (sign : Option Bool) (y : Option UnsignedReal)

namespace ComplexNumeral

open UnsignedReal (factor factorText)

def text : ComplexNumeral → List Char
  | real sign x => (sign.map signChar).toList ++ x.text
  | pair sign x negative y =>
    (sign.map signChar).toList ++ x.text ++ signChar negative :: factorText y ++ [imaginaryUnit]
  | imaginary sign y => (sign.map signChar).toList ++ factorText y ++ [imaginaryUnit]

/-- The complex number that is read: a part that is not written is zero. -/
def number : ComplexNumeral → ComplexNumber
  | real sign x => .ofReal (applySign (sign == some true) x.value)
  | pair sign x negative y =>
    ⟨applySign (sign == some true) x.value, applySign negative (factor y)⟩
  | imaginary sign y => ⟨.zero, applySign (sign == some true) (factor y)⟩

end ComplexNumeral

/-! ## Ends of a number -/

/-- What can stand behind a number: nothing, a sign or the imaginary unit. -/
def Stops (rest : List Char) : Prop := ∀ c ∈ rest.head?, c ∈ ['+', '-', imaginaryUnit]

theorem Stops.ends {rest : List Char} (h : Stops rest) : Numeral.Ends rest := by
  have hends : ∀ c ∈ ['+', '-', imaginaryUnit],
      Text.isDecimalDigit c = false ∧ c ≠ '.' ∧ c ≠ 'e' ∧ c ≠ 'E' := by decide
  intro c hc
  exact hends c (h c hc)

theorem stops_nil : Stops [] := by
  intro c hc
  simp at hc

theorem stops_sign (negative : Bool) (rest : List Char) : Stops (signChar negative :: rest) := by
  rintro c ⟨⟩
  cases negative <;> decide

theorem stops_imaginaryUnit : Stops [imaginaryUnit] := by
  rintro c ⟨⟩
  decide

namespace UnsignedReal

/-- A number begins with a digit, a point or the bracket of a marker. -/
theorem exists_cons (x : UnsignedReal) :
    ∃ c tail, x.text = c :: tail ∧ (Text.isDecimalDigit c = true ∨ c = '.' ∨ c = '(') := by
  cases x with
  | numeral n =>
      obtain ⟨c, tail, htext, hc⟩ := n.exists_cons
      exact ⟨c, tail, htext, hc.imp_right Or.inl⟩
  | nan => exact ⟨'(', _, rfl, Or.inr (Or.inr rfl)⟩
  | infinity negative => cases negative <;> exact ⟨'(', _, rfl, Or.inr (Or.inr rfl)⟩

theorem not_stops_text (x : UnsignedReal) (rest : List Char) : ¬Stops (x.text ++ rest) := by
  have hstops : ∀ c ∈ ['+', '-', imaginaryUnit],
      Text.isDecimalDigit c = false ∧ c ≠ '.' ∧ c ≠ '(' := by decide
  obtain ⟨c, tail, htext, hc⟩ := x.exists_cons
  intro h
  obtain ⟨hdigit, hpoint, hbracket⟩ := hstops c (h c (by simp [htext]))
  rcases hc with hc | hc | hc
  · rw [hc] at hdigit
    contradiction
  · exact hpoint hc
  · exact hbracket hc

/-- A number begins with no sign. -/
theorem takeSign_text (x : UnsignedReal) (rest : List Char) :
    Decimal.takeSign (x.text ++ rest) = none := by
  obtain ⟨c, tail, htext, hc⟩ := x.exists_cons
  rw [htext, List.cons_append]
  rcases hc with hc | rfl | rfl
  · exact Decimal.takeSign_of_isDecimalDigit _ hc
  · rfl
  · rfl

/-! ## Parts of a text -/

theorem takeUnsigned_text (x : UnsignedReal) {rest : List Char} (hrest : Numeral.Ends rest) :
    takeUnsigned (x.text ++ rest) = some (x.value, rest) := by
  cases x with
  | numeral n => rw [text, takeUnsigned, Decimal.take_text n (Or.inl rfl) hrest, value]
  | nan => rfl
  | infinity negative => cases negative <;> rfl

theorem exists_of_takeMarker {chars rest : List Char} {v : Binary64}
    (h : takeMarker chars = some (v, rest)) :
    ∃ x : UnsignedReal, x.text ++ rest = chars ∧ x.value = v := by
  rw [takeMarker, Option.map_eq_some_iff] at h
  obtain ⟨⟨marker, y⟩, hfind, heq⟩ := h
  injection heq with hv hrest
  have hfront := List.find?_some hfind
  rw [List.isPrefixOf_iff_prefix] at hfront
  have hchars : marker ++ rest = chars := by
    rw [← hrest]
    exact List.prefix_iff_eq_append.mp hfront
  have hmarker : (marker, y) = (nanMarker, .nan) ∨
      (marker, y) = (infinityMarker false, .infinite false) ∨
      (marker, y) = (infinityMarker true, .infinite true) := by
    simpa only [ComplexFormat.markers, List.mem_cons, List.not_mem_nil, or_false] using
      List.mem_of_find?_eq_some hfind
  rw [← hv, ← hchars]
  rcases hmarker with hmarker | hmarker | hmarker <;> injection hmarker with htext hy <;>
    rw [htext, hy]
  · exact ⟨.nan, rfl, rfl⟩
  · exact ⟨.infinity false, rfl, rfl⟩
  · exact ⟨.infinity true, rfl, rfl⟩

theorem exists_of_takeUnsigned {chars rest : List Char} {v : Binary64}
    (h : takeUnsigned chars = some (v, rest)) :
    ∃ x : UnsignedReal, x.text ++ rest = chars ∧ x.value = v := by
  rw [takeUnsigned] at h
  split at h
  · rename_i d rest' htake
    injection h with h
    injection h with hv hrest
    obtain ⟨n, htext, hvalue, -⟩ := Decimal.exists_numeral_of_take htake
    exact ⟨.numeral n, by rw [← hrest, text, htext], by rw [value, hvalue, hv]⟩
  · exact exists_of_takeMarker h

theorem takeSigned_text (sign : Option Bool) (x : UnsignedReal) {rest : List Char}
    (hrest : Numeral.Ends rest) :
    takeSigned ((sign.map signChar).toList ++ x.text ++ rest) =
      some (applySign (sign == some true) x.value, rest) := by
  rw [List.append_assoc, takeSigned_sign sign (x.takeSign_text rest), x.takeUnsigned_text hrest,
    Option.map_some]

theorem exists_of_takeSigned {chars rest : List Char} {v : Binary64}
    (h : takeSigned chars = some (v, rest)) :
    ∃ (sign : Option Bool) (x : UnsignedReal),
      (sign.map signChar).toList ++ x.text ++ rest = chars ∧
      applySign (sign == some true) x.value = v := by
  obtain ⟨sign, body, hchars, hsign, -⟩ := Decimal.exists_sign_of_takeSign true chars
  rw [if_pos rfl] at hsign
  rw [takeSigned, hsign] at h
  obtain ⟨⟨y, rest'⟩, htake, heq⟩ := Option.map_eq_some_iff.mp h
  injection heq with hv hrest
  obtain ⟨x, hx, hy⟩ := exists_of_takeUnsigned htake
  refine ⟨sign, x, ?_, ?_⟩
  · rw [hchars, ← hx, hrest, List.append_assoc]
  · rw [← hv, hy]

theorem readFactor?_factorText (y : Option UnsignedReal) :
    readFactor? (factorText y) = some (factor y) := by
  cases y with
  | none => rw [factor_none, factorText_none, readFactor?]
  | some x =>
      have hread := x.takeUnsigned_text Numeral.ends_nil
      rw [List.append_nil] at hread
      rw [factorText_some, readFactor?, hread]
      · rfl
      · rintro hnil
        rw [hnil] at hread
        contradiction

theorem exists_of_readFactor? {chars : List Char} {v : Binary64}
    (h : readFactor? chars = some v) :
    ∃ y : Option UnsignedReal, factorText y = chars ∧ factor y = v := by
  unfold readFactor? at h
  split at h
  · injection h with h
    exact ⟨none, rfl, by rw [factor_none, h]⟩
  · split at h
    · rename_i v' htake
      injection h with h
      obtain ⟨x, htext, hvalue⟩ := exists_of_takeUnsigned htake
      rw [List.append_nil] at htext
      exact ⟨some x, htext, hvalue.trans h⟩
    · contradiction

end UnsignedReal

/-! ## Reading -/

namespace ComplexNumeral

open UnsignedReal

/-- A text with a form is read as the number of the form. -/
theorem readCompact?_text (w : ComplexNumeral) :
    readCompact? [imaginaryUnit] w.text = some w.number := by
  cases w with
  | real sign x =>
      have hread := x.takeSigned_text sign Numeral.ends_nil
      rw [List.append_nil] at hread
      rw [text, readCompact?, readReal?, hread]
      rfl
  | pair sign x negative y =>
      exact ComplexFormat.readCompact?_parts [imaginaryUnit]
        (fun rest => x.takeSigned_text sign (Numeral.ends_sign negative rest))
        (readFactor?_factorText y)
  | imaginary sign y =>
      have hbefore := ComplexFormat.beforeSymbol?_append [imaginaryUnit]
        ((sign.map signChar).toList ++ factorText y)
      have hsplit : readBeforeSymbol? ((sign.map signChar).toList ++ factorText y) =
          some (imaginary sign y).number := by
        cases y with
        | none =>
            rw [factorText_none, readBeforeSymbol?, takeSigned_sign sign rfl, takeSign_sign sign rfl,
              number, factor_none]
            rfl
        | some x =>
            have hread := x.takeSigned_text sign Numeral.ends_nil
            rw [List.append_nil] at hread
            rw [factorText_some, readBeforeSymbol?, hread]
            rfl
      have hnotReal : readReal? (imaginary sign y).text = none := by
        cases y with
        | none =>
            rw [text, factorText_none, readReal?, List.append_nil, takeSigned_sign sign rfl]
            rfl
        | some x =>
            rw [text, factorText_some, readReal?, x.takeSigned_text sign stops_imaginaryUnit.ends]
      rw [readCompact?, hnotReal, text, hbefore]
      exact hsplit

/-- A text that is read as a real number has a form. -/
theorem exists_of_readReal? {chars : List Char} {z : ComplexNumber}
    (h : readReal? chars = some z) : ∃ w : ComplexNumeral, w.text = chars ∧ w.number = z := by
  unfold readReal? at h
  split at h
  · rename_i v htake
    injection h with h
    obtain ⟨sign, x, htext, hv⟩ := exists_of_takeSigned htake
    rw [List.append_nil] at htext
    exact ⟨real sign x, htext, by rw [number, hv, h]⟩
  · contradiction

theorem exists_of_readBeforeSymbol? {chars : List Char} {z : ComplexNumber}
    (h : readBeforeSymbol? chars = some z) :
    ∃ w : ComplexNumeral, w.text = chars ++ [imaginaryUnit] ∧ w.number = z := by
  unfold readBeforeSymbol? at h
  split at h
  · rename_i v htake
    injection h with h
    obtain ⟨sign, x, htext, hv⟩ := exists_of_takeSigned htake
    rw [List.append_nil] at htext
    refine ⟨imaginary sign (some x), ?_, ?_⟩
    · rw [text, factorText_some, htext]
    · rw [number, factor_some, hv, h]
  · rename_i v rest _ htake
    obtain ⟨sign, x, htext, hv⟩ := exists_of_takeSigned htake
    rw [Option.bind_eq_bind, Option.bind_eq_some_iff] at h
    obtain ⟨⟨negative, body⟩, hsign, h⟩ := h
    rw [Option.bind_eq_bind, Option.bind_eq_some_iff] at h
    obtain ⟨im, hfactor, h⟩ := h
    injection h with h
    obtain ⟨y, hy, him⟩ := exists_of_readFactor? hfactor
    refine ⟨pair sign x negative y, ?_, ?_⟩
    · rw [text, hy, ← htext, Decimal.takeSign_eq hsign]
    · rw [number, hv, him, h]
  · obtain ⟨sign, body, htext, hsign, -⟩ := Decimal.exists_sign_of_takeSign true chars
    rw [if_pos rfl] at hsign
    rw [hsign, Option.bind_eq_bind, Option.bind_eq_some_iff] at h
    obtain ⟨im, hfactor, h⟩ := h
    injection h with h
    obtain ⟨y, hy, him⟩ := exists_of_readFactor? hfactor
    refine ⟨imaginary sign y, ?_, ?_⟩
    · rw [text, hy, ← htext]
    · rw [number, him, h]

/-- A text that is read has a form. -/
theorem exists_of_readCompact? {chars : List Char} {z : ComplexNumber}
    (h : readCompact? [imaginaryUnit] chars = some z) :
    ∃ w : ComplexNumeral, w.text = chars ∧ w.number = z := by
  rw [readCompact?] at h
  split at h
  · rename_i z' hreal
    injection h with h
    rw [← h]
    exact exists_of_readReal? hreal
  · obtain ⟨body, hbefore, h⟩ := Option.bind_eq_some_iff.mp h
    rw [ComplexFormat.eq_append_of_beforeSymbol? hbefore]
    exact exists_of_readBeforeSymbol? h

end ComplexNumeral

/-! ## Uniqueness -/

namespace UnsignedReal

theorem numeral_ne_bracket (n : Numeral) (rest tail : List Char) :
    n.text ++ rest ≠ '(' :: tail := by
  obtain ⟨c, body, htext, hc⟩ := n.exists_cons
  rw [htext, List.cons_append]
  intro h
  injection h with hhead
  rw [hhead] at hc
  revert hc
  decide

theorem infinity_append_inj {negative negative' : Bool} {rest rest' : List Char}
    (h : infinityMarker negative ++ rest = infinityMarker negative' ++ rest') :
    negative = negative' ∧ rest = rest' := by
  cases negative <;> cases negative' <;> simp_all [infinityMarker]

/-- A number at the front of a text is determined, if what follows does not continue it. -/
theorem append_inj {x y : UnsignedReal} {rest rest' : List Char} (hrest : Numeral.Ends rest)
    (hrest' : Numeral.Ends rest') (h : x.text ++ rest = y.text ++ rest') :
    x = y ∧ rest = rest' := by
  cases x with
  | numeral m =>
      cases y with
      | numeral n =>
          obtain ⟨rfl, hrests⟩ := Numeral.append_inj hrest hrest' h
          exact ⟨rfl, hrests⟩
      | nan => exact absurd h (numeral_ne_bracket m rest _)
      | infinity negative => cases negative <;> exact absurd h (numeral_ne_bracket m rest _)
  | nan =>
      cases y with
      | numeral n => exact absurd h.symm (numeral_ne_bracket n rest' _)
      | nan => exact ⟨rfl, List.append_cancel_left h⟩
      | infinity negative => cases negative <;> simp [text, nanMarker, infinityMarker] at h
  | infinity negative =>
      cases y with
      | numeral n => cases negative <;> exact absurd h.symm (numeral_ne_bracket n rest' _)
      | nan => cases negative <;> simp [text, nanMarker, infinityMarker] at h
      | infinity negative' =>
          obtain ⟨rfl, hrests⟩ := infinity_append_inj h
          exact ⟨rfl, hrests⟩

theorem factor_append_inj {x y : Option UnsignedReal} {rest rest' : List Char}
    (hrest : Stops rest) (hrest' : Stops rest')
    (h : factorText x ++ rest = factorText y ++ rest') : x = y ∧ rest = rest' := by
  cases x with
  | none =>
      cases y with
      | none => exact ⟨rfl, h⟩
      | some y =>
          rw [factorText_none, List.nil_append] at h
          exact absurd (h ▸ hrest) (y.not_stops_text rest')
  | some x =>
      cases y with
      | none =>
          rw [factorText_none, List.nil_append] at h
          exact absurd (h ▸ hrest') (x.not_stops_text rest)
      | some y =>
          obtain ⟨rfl, hrests⟩ := append_inj hrest.ends hrest'.ends h
          exact ⟨rfl, hrests⟩

end UnsignedReal

namespace ComplexNumeral

open UnsignedReal (factorText factor_append_inj)

/-- The sign in front of a number, if there is one. -/
def sign : ComplexNumeral → Option Bool
  | real sign _ => sign
  | pair sign _ _ _ => sign
  | imaginary sign _ => sign

/-- The first of the numbers, if there are any. -/
def first : ComplexNumeral → Option UnsignedReal
  | real _ x => some x
  | pair _ x _ _ => some x
  | imaginary _ y => y

/-- What stands behind the first of the numbers. -/
def behind : ComplexNumeral → List Char
  | real _ _ => []
  | pair _ _ negative y => signChar negative :: factorText y ++ [imaginaryUnit]
  | imaginary _ _ => [imaginaryUnit]

theorem text_eq (w : ComplexNumeral) :
    w.text = (w.sign.map signChar).toList ++ (factorText w.first ++ w.behind) := by
  cases w with
  | real sign x =>
      rw [text, ComplexNumeral.sign, first, behind, List.append_nil, UnsignedReal.factorText_some]
  | pair sign x negative y =>
      rw [text, ComplexNumeral.sign, first, behind, UnsignedReal.factorText_some]
      simp
  | imaginary sign y => rw [text, ComplexNumeral.sign, first, behind, List.append_assoc]

theorem stops_behind (w : ComplexNumeral) : Stops w.behind := by
  cases w with
  | real sign x => exact stops_nil
  | pair sign x negative y => exact stops_sign negative _
  | imaginary sign y => exact stops_imaginaryUnit

theorem takeSign_first (w : ComplexNumeral) :
    Decimal.takeSign (factorText w.first ++ w.behind) = none := by
  cases w with
  | real sign x => exact x.takeSign_text _
  | pair sign x negative y => exact x.takeSign_text _
  | imaginary sign y =>
      cases y with
      | none => rfl
      | some x => exact x.takeSign_text _

/-- What stands behind the first number tells which form a text has. -/
theorem ext_parts {w w' : ComplexNumeral} (hsign : w.sign = w'.sign) (hfirst : w.first = w'.first)
    (hbehind : w.behind = w'.behind) : w = w' := by
  have hpair {negative : Bool} {tail : List Char} : signChar negative :: tail ≠ [imaginaryUnit] := by
    cases negative <;> simp [signChar, imaginaryUnit]
  cases w with
  | real sign x =>
      cases w' with
      | real sign' x' =>
          injection hfirst with hx
          exact congrArg₂ real hsign hx
      | pair sign' x' negative' y' => exact absurd hbehind.symm (List.cons_ne_nil _ _)
      | imaginary sign' y' => exact absurd hbehind.symm (List.cons_ne_nil _ _)
  | pair sign x negative y =>
      cases w' with
      | real sign' x' => exact absurd hbehind (List.cons_ne_nil _ _)
      | pair sign' x' negative' y' =>
          injection hfirst with hx
          injection hbehind with hnegative htail
          obtain ⟨rfl, -⟩ := factor_append_inj stops_imaginaryUnit stops_imaginaryUnit htail
          obtain rfl := signChar_injective hnegative
          rw [hx, show sign = sign' from hsign]
      | imaginary sign' y' => exact absurd hbehind hpair
  | imaginary sign y =>
      cases w' with
      | real sign' x' => exact absurd hbehind (List.cons_ne_nil _ _)
      | pair sign' x' negative' y' => exact absurd hbehind.symm hpair
      | imaginary sign' y' => exact congrArg₂ imaginary hsign hfirst

/-- A text has at most one form. -/
theorem text_injective : Function.Injective text := by
  intro w w' h
  rw [text_eq, text_eq] at h
  obtain ⟨hsign, hbody⟩ := sign_append_inj w.takeSign_first w'.takeSign_first h
  obtain ⟨hfirst, hbehind⟩ := factor_append_inj w.stops_behind w'.stops_behind hbody
  exact ext_parts hsign hfirst hbehind

end ComplexNumeral

/-! ## Whole texts -/

namespace ComplexFormat

theorem readCompact?_eq_some_iff {chars : List Char} {z : ComplexNumber} :
    readCompact? [imaginaryUnit] chars = some z ↔
      ∃ w : ComplexNumeral, w.text = chars ∧ w.number = z := by
  constructor
  · exact ComplexNumeral.exists_of_readCompact?
  · rintro ⟨w, rfl, rfl⟩
    exact w.readCompact?_text

/-- With the symbol of expressions, a text is read exactly if it has a form without its blanks.
It has no other form then, and is read as the number of the form, in which numerals stand for
the nearest double-precision numbers.  Any other text is a malformed number. -/
theorem read_text {f : ComplexFormat} (hsymbol : f.symbol = imaginaryUnit.toString)
    (text : String) :
    ((∃ z, f.read text = .ok z) ↔
      ∃ w : ComplexNumeral, w.text = Text.dropBlanks text.toList) ∧
    (∀ w : ComplexNumeral, w.text = Text.dropBlanks text.toList →
      f.read text = .ok w.number ∧
      ∀ w' : ComplexNumeral, w'.text = Text.dropBlanks text.toList → w' = w) ∧
    ((¬∃ w : ComplexNumeral, w.text = Text.dropBlanks text.toList) →
      f.read text = .error (.ofCause (.malformedNumber text))) ∧
    ∀ n : Numeral, (UnsignedReal.numeral n).value.IsNearest n.decimal.value := by
  have hread (z : ComplexNumber) : f.read? text = some z ↔
      ∃ w : ComplexNumeral, w.text = Text.dropBlanks text.toList ∧ w.number = z := by
    rw [read?, toList_symbol hsymbol, readCompact?_eq_some_iff]
  refine ⟨⟨?_, ?_⟩, ?_, ?_, ?_⟩
  · rintro ⟨z, h⟩
    obtain ⟨w, hw, -⟩ := (hread z).mp (read_eq_ok.mp h)
    exact ⟨w, hw⟩
  · rintro ⟨w, hw⟩
    exact ⟨w.number, read_eq_ok.mpr ((hread _).mpr ⟨w, hw, rfl⟩)⟩
  · intro w hw
    refine ⟨read_eq_ok.mpr ((hread _).mpr ⟨w, hw, rfl⟩), ?_⟩
    intro w' hw'
    exact ComplexNumeral.text_injective (hw'.trans hw.symm)
  · intro hnone
    apply read_eq_error
    rw [Option.eq_none_iff_forall_ne_some]
    intro z hz
    obtain ⟨w, hw, -⟩ := (hread z).mp hz
    exact hnone ⟨w, hw⟩
  · intro n
    exact n.decimal.isNearest_nearest

/-- The minus in front of a marker is a sign of the text, the one inside is not. -/
theorem read_text_markers :
    (⟨3, "I"⟩ : ComplexFormat).symbol = imaginaryUnit.toString ∧
    (⟨3, "I"⟩ : ComplexFormat).read "(NaN) - (-Infinity) I" = .ok ⟨.nan, .infinite false⟩ ∧
    ∀ w : ComplexNumeral, w.text = Text.dropBlanks "(NaN) - (-Infinity) I".toList →
      w = .pair none .nan true (some (.infinity true)) := by
  have hsymbol : (⟨3, "I"⟩ : ComplexFormat).symbol = imaginaryUnit.toString := by decide
  have hform : (ComplexNumeral.pair none .nan true (some (.infinity true))).text =
      Text.dropBlanks "(NaN) - (-Infinity) I".toList := by decide +kernel
  obtain ⟨-, hread, -⟩ := read_text hsymbol "(NaN) - (-Infinity) I"
  obtain ⟨hnumber, hunique⟩ := hread _ hform
  exact ⟨hsymbol, hnumber, hunique⟩

end ComplexFormat

end ComplexCalculator
