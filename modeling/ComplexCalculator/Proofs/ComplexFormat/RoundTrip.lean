import ComplexCalculator.Alphabet
import ComplexCalculator.ComplexFormat.Reader
import ComplexCalculator.Proofs.ComplexFormat.Places
import ComplexCalculator.Proofs.Decimal.Numeral
import ComplexCalculator.Proofs.Failure.Basic

/-!
# Reading what was written

The text of a complex number is read as the number whose parts are settled, for every
symbol of the imaginary unit without blanks.  The main statement is that writing is a
fixed point of reading: what is read from a written text is written as the same text.
-/

namespace ComplexCalculator

open Text (isBlank isDecimalDigit)

/-! ## Written parts -/

/-- The numeral that a part with a fixed number of decimal places is written as. -/
def Numeral.fixed (places n : ℕ) : Numeral where
  whole := (Text.numeral 10 (places + 1) n).take
    ((Text.numeral 10 (places + 1) n).length - places)
  fraction :=
    if places = 0 then none
    else some ((Text.numeral 10 (places + 1) n).drop
      ((Text.numeral 10 (places + 1) n).length - places))
  exponent := none
  isDigit := by
    intro c hc
    have hmem : c ∈ Text.numeral 10 (places + 1) n := by
      split_ifs at hc with hzero
      · rw [Option.getD_none, List.append_nil] at hc
        exact List.mem_of_mem_take hc
      · rw [Option.getD_some, List.take_append_drop] at hc
        exact hc
    exact Text.isDecimalDigit_of_isDigit (Text.isDigit_of_mem_numeral hmem)
  nonempty := by
    have hlength := Text.length_numeral_ge (places + 1) n
    intro h
    have hnil := (List.append_eq_nil_iff.mp h).1
    rw [List.take_eq_nil_iff] at hnil
    rcases hnil with hnil | hnil
    · omega
    · rw [hnil, List.length_nil] at hlength
      omega

namespace Numeral

theorem text_fixed (places n : ℕ) : (fixed places n).text = fixedText places n := by
  rw [text, fixed, fixedText, exponentText]
  dsimp only
  split_ifs <;> simp [fractionText]

theorem decimal_fixed (places n : ℕ) : (fixed places n).decimal = Decimal.ofPlaces places n := by
  have hlength := Text.length_numeral_ge (places + 1) n
  rw [decimal, fixed, Decimal.ofPlaces]
  dsimp only
  split_ifs with hzero
  · subst hzero
    simp [Text.digitsValue_numeral]
  · rw [Option.getD_some, List.take_append_drop, Text.digitsValue_numeral, List.length_drop]
    congr 1
    simp only [Option.map_none, Option.getD_none]
    omega

end Numeral

namespace Binary64

theorem abs_settled_finite (places : ℕ) (negative : Bool) (x : Magnitude) :
    (settled places (.finite negative x)).abs =
      (Decimal.ofPlaces places (x.roundedPlaces places)).nearest false := by
  rw [settled, abs, Decimal.withSign_nearest]

end Binary64

namespace ComplexFormat

theorem partText_finite_eq {f : ComplexFormat} {negative : Bool} {x : Magnitude}
    {text : List Char} (h : f.partText (.finite negative x) = .ok text) :
    text = fixedText f.precision (x.roundedPlaces f.precision) := by
  rw [partText_finite, map_eq_ok_iff] at h
  obtain ⟨places, -, h⟩ := h
  exact h.symm

/-- A number without its sign is read from its text. -/
theorem takeUnsigned_partText {f : ComplexFormat} {x : Binary64} {text rest : List Char}
    (h : f.partText x = .ok text) (hrest : Numeral.Ends rest) :
    takeUnsigned (text ++ rest) = some ((x.settled f.precision).abs, rest) := by
  cases x with
  | nan =>
      injection h with h
      subst h
      rfl
  | infinite negative =>
      injection h with h
      subst h
      rfl
  | finite negative x =>
      rw [partText_finite_eq h, ← Numeral.text_fixed, takeUnsigned,
        Decimal.take_text _ (Or.inl rfl) hrest, Numeral.decimal_fixed,
        Binary64.abs_settled_finite]

theorem partText_ne_nil {f : ComplexFormat} {x : Binary64} {text : List Char}
    (h : f.partText x = .ok text) : text ≠ [] := by
  rintro rfl
  have hread := takeUnsigned_partText h Numeral.ends_nil
  contradiction

theorem isBlank_of_mem_partText {f : ComplexFormat} {x : Binary64} {text : List Char}
    (h : f.partText x = .ok text) : ∀ c ∈ text, isBlank c = false := by
  cases x with
  | nan =>
      injection h with h
      subst h
      decide
  | infinite negative =>
      injection h with h
      subst h
      decide
  | finite negative x =>
      rw [partText_finite_eq h, ← Numeral.text_fixed]
      intro c hc
      exact Numeral.isBlank_of_mem_text hc

/-! ## Signs -/

/-- A text that is read as an unsigned number does not begin with a sign. -/
theorem takeSign_of_takeUnsigned {text rest : List Char} {x : Binary64}
    (h : takeUnsigned text = some (x, rest)) : Decimal.takeSign text = none := by
  cases hsign : Decimal.takeSign text with
  | none => rfl
  | some found =>
      obtain ⟨negative, body⟩ := found
      rw [Decimal.takeSign_eq hsign] at h
      cases negative <;> contradiction

/-- The sign in front of a text that begins with none is taken off. -/
theorem takeSign_sign (sign : Option Bool) {body : List Char}
    (h : Decimal.takeSign body = none) :
    (Decimal.takeSign ((sign.map signChar).toList ++ body)).getD
      (false, (sign.map signChar).toList ++ body) = (sign == some true, body) := by
  cases sign with
  | none => simp [h]
  | some negative => cases negative <;> simp [Decimal.takeSign_signChar]

theorem takeSigned_sign (sign : Option Bool) {body : List Char}
    (h : Decimal.takeSign body = none) :
    takeSigned ((sign.map signChar).toList ++ body) =
      (takeUnsigned body).map fun (x, rest) => (applySign (sign == some true) x, rest) := by
  rw [takeSigned, takeSign_sign sign h]

/-- The sign that is shown is that of the number that is read back. -/
theorem applySign_abs_settled (f : ComplexFormat) (x : Binary64) :
    applySign (f.showsMinus x) (x.settled f.precision).abs = x.settled f.precision := by
  cases x with
  | nan => rfl
  | infinite negative => cases negative <;> rfl
  | finite negative x =>
      obtain ⟨y, hy, -⟩ := Binary64.settled_finite f.precision negative x
      rw [hy, showsMinus]
      cases (negative && x.roundedPlaces f.precision != 0) <;> rfl

/-- A real part is written as the part without its sign, perhaps behind a minus; only an
infinity has its minus inside the brackets. -/
theorem realText_cases {f : ComplexFormat} {x : Binary64} {text : List Char}
    (h : f.realText x = .ok text) :
    (∃ negative, x = .infinite negative ∧ text = infinityMarker negative) ∨
      ∃ part, f.partText x = .ok part ∧
        text = if f.showsMinus x then '-' :: part else part := by
  cases x with
  | nan =>
      injection h with h
      exact Or.inr ⟨nanMarker, rfl, h.symm⟩
  | infinite negative =>
      injection h with h
      exact Or.inl ⟨negative, rfl, h.symm⟩
  | finite negative x =>
      right
      rw [realText, map_eq_ok_iff] at h
      · obtain ⟨part, hpart, h⟩ := h
        exact ⟨part, hpart, h.symm⟩
      · intro negative h
        contradiction

/-- A real part is read from its text. -/
theorem takeSigned_realText {f : ComplexFormat} {x : Binary64} {text rest : List Char}
    (h : f.realText x = .ok text) (hrest : Numeral.Ends rest) :
    takeSigned (text ++ rest) = some (x.settled f.precision, rest) := by
  rcases realText_cases h with ⟨negative, rfl, rfl⟩ | ⟨part, hpart, rfl⟩
  · cases negative <;> rfl
  · have hread := takeUnsigned_partText hpart hrest
    have hfirst := takeSign_of_takeUnsigned hread
    have hsign := f.applySign_abs_settled x
    have hsigned (sign : Option Bool) :
        takeSigned ((sign.map signChar).toList ++ (part ++ rest)) =
          some (applySign (sign == some true) (x.settled f.precision).abs, rest) := by
      rw [takeSigned_sign sign hfirst, hread]
      rfl
    rw [← hsign]
    cases f.showsMinus x with
    | true => exact hsigned (some true)
    | false => exact hsigned none

theorem isBlank_of_mem_realText {f : ComplexFormat} {x : Binary64} {text : List Char}
    (h : f.realText x = .ok text) : ∀ c ∈ text, isBlank c = false := by
  rcases realText_cases h with ⟨negative, -, rfl⟩ | ⟨part, hpart, rfl⟩
  · cases negative <;> decide
  · have hblank := isBlank_of_mem_partText hpart
    split_ifs
    · intro c hc
      rcases List.mem_cons.mp hc with rfl | hc
      · decide
      · exact hblank c hc
    · exact hblank

/-! ## Whole numbers -/

/-- The symbol that numbers of expressions are written with is a single character. -/
theorem toList_symbol {f : ComplexFormat} (hsymbol : f.symbol = Alphabet.imaginaryUnit.toString) :
    f.symbol.toList = [Alphabet.imaginaryUnit] := by
  rw [hsymbol]
  decide

/-- The parts that a written text is made of. -/
theorem format_eq_ok {f : ComplexFormat} {z : ComplexNumber} {text : String}
    (h : f.format z = .ok text) :
    ∃ re im, f.realText z.re = .ok re ∧ f.partText z.im = .ok im ∧
      text.toList = re ++ ' ' :: signChar (f.showsMinus z.im) :: ' ' :: im ++ f.symbol.toList := by
  rw [format, bind_eq_ok_iff] at h
  obtain ⟨im, him, h⟩ := h
  rw [bind_eq_ok_iff] at h
  obtain ⟨re, hre, h⟩ := h
  injection h with h
  refine ⟨re, im, hre, him, ?_⟩
  rw [← h, String.toList_ofList]
  rfl

theorem dropBlanks_of_not_blank {text : List Char} (h : ∀ c ∈ text, isBlank c = false) :
    Text.dropBlanks text = text := by
  rw [Text.dropBlanks, List.filter_eq_self]
  intro c hc
  rw [h c hc]
  rfl

/-- Without its blanks, a written text is the two parts with a sign between them, and the
symbol. -/
theorem dropBlanks_format {f : ComplexFormat} {z : ComplexNumber} {re im : List Char}
    (hsymbol : ∀ c ∈ f.symbol.toList, isBlank c = false)
    (hre : f.realText z.re = .ok re) (him : f.partText z.im = .ok im) :
    Text.dropBlanks
        (re ++ ' ' :: signChar (f.showsMinus z.im) :: ' ' :: im ++ f.symbol.toList) =
      re ++ signChar (f.showsMinus z.im) :: im ++ f.symbol.toList := by
  have hsign : isBlank (signChar (f.showsMinus z.im)) = false := by
    cases f.showsMinus z.im <;> decide
  have hspace : isBlank ' ' = true := by decide
  have hreKept := dropBlanks_of_not_blank (isBlank_of_mem_realText hre)
  have himKept := dropBlanks_of_not_blank (isBlank_of_mem_partText him)
  have hsymbolKept := dropBlanks_of_not_blank hsymbol
  simp only [Text.dropBlanks, List.filter_append, List.filter_cons, hsign, hspace] at *
  simp [hreKept, himKept, hsymbolKept]

theorem readFactor?_partText {f : ComplexFormat} {x : Binary64} {text : List Char}
    (h : f.partText x = .ok text) :
    readFactor? text = some (x.settled f.precision).abs := by
  have hread := takeUnsigned_partText h Numeral.ends_nil
  rw [List.append_nil] at hread
  rw [readFactor?]
  · rw [hread]
  · exact partText_ne_nil h

theorem beforeSymbol?_append (symbol text : List Char) :
    beforeSymbol? symbol (text ++ symbol) = some text := by
  have hsuffix : symbol.isSuffixOf (text ++ symbol) = true := by
    rw [List.isSuffixOf_iff_suffix]
    exact List.suffix_append text symbol
  rw [beforeSymbol?, if_pos hsuffix, List.length_append, Nat.add_sub_cancel, List.take_left]

theorem eq_append_of_beforeSymbol? {symbol chars body : List Char}
    (h : beforeSymbol? symbol chars = some body) : chars = body ++ symbol := by
  unfold beforeSymbol? at h
  split_ifs at h with hsuffix
  rw [List.isSuffixOf_iff_suffix] at hsuffix
  obtain ⟨front, rfl⟩ := hsuffix
  injection h with h
  rw [List.length_append, Nat.add_sub_cancel, List.take_left] at h
  rw [h]

/-- Whatever the symbol, a text with two parts is not taken for a real number, and what
stands before the symbol is split at the sign between the parts. -/
theorem readCompact?_parts (symbol : List Char) {re im : List Char} {x y : Binary64}
    {negative : Bool}
    (hre : ∀ rest, takeSigned (re ++ signChar negative :: rest) =
      some (x, signChar negative :: rest))
    (him : readFactor? im = some y) :
    readCompact? symbol (re ++ signChar negative :: im ++ symbol) =
      some ⟨x, applySign negative y⟩ := by
  have hnotReal : readReal? (re ++ signChar negative :: im ++ symbol) = none := by
    rw [readReal?, List.append_assoc, List.cons_append, hre]
  have hsplit : readBeforeSymbol? (re ++ signChar negative :: im) =
      some ⟨x, applySign negative y⟩ := by
    rw [readBeforeSymbol?, hre]
    simp only [Decimal.takeSign_signChar, him, Option.bind_eq_bind, Option.bind_some]
    rfl
  rw [readCompact?, hnotReal, beforeSymbol?_append]
  exact hsplit

theorem readCompact?_format {f : ComplexFormat} {z : ComplexNumber} {re im : List Char}
    (hre : f.realText z.re = .ok re) (him : f.partText z.im = .ok im) :
    readCompact? f.symbol.toList (re ++ signChar (f.showsMinus z.im) :: im ++ f.symbol.toList) =
      some (f.settled z) := by
  have hreal (rest : List Char) :
      takeSigned (re ++ signChar (f.showsMinus z.im) :: rest) =
        some (z.re.settled f.precision, signChar (f.showsMinus z.im) :: rest) :=
    takeSigned_realText hre (Numeral.ends_sign _ rest)
  rw [readCompact?_parts f.symbol.toList hreal (readFactor?_partText him), applySign_abs_settled]
  rfl

theorem read_eq_ok {f : ComplexFormat} {text : String} {z : ComplexNumber} :
    f.read text = .ok z ↔ f.read? text = some z := by
  rw [read]
  cases f.read? text <;> simp

theorem read_eq_error {f : ComplexFormat} {text : String} (h : f.read? text = none) :
    f.read text = .error (.ofCause (.malformedNumber text)) := by
  rw [read, h]

/-- Reading a written text gives the number with settled parts. -/
theorem read_format {f : ComplexFormat} {z : ComplexNumber} {text : String}
    (hsymbol : ∀ c ∈ f.symbol.toList, isBlank c = false) (h : f.format z = .ok text) :
    f.read text = .ok (f.settled z) := by
  obtain ⟨re, im, hre, him, htext⟩ := format_eq_ok h
  rw [read_eq_ok, read?, htext, dropBlanks_format hsymbol hre him]
  exact readCompact?_format hre him

theorem rounded_eq_ok {f : ComplexFormat} {z : ComplexNumber} {text : String}
    (hsymbol : ∀ c ∈ f.symbol.toList, isBlank c = false) (h : f.format z = .ok text) :
    f.rounded z = .ok (f.settled z) := by
  rw [rounded, h]
  exact read_format hsymbol h

/-- What was rounded is not changed when it is written and read once more. -/
theorem settled_of_rounded {f : ComplexFormat} {z w : ComplexNumber}
    (hsymbol : ∀ c ∈ f.symbol.toList, isBlank c = false) (h : f.rounded z = .ok w) :
    f.settled w = w := by
  obtain ⟨text, htext, hread⟩ := bind_eq_ok_iff.mp h
  have hw : f.settled z = w := by
    rw [read_format hsymbol htext] at hread
    injection hread
  rw [← hw, settled_settled]

/-! ## Totality -/

theorem finitePlaces_eq_ok {f : ComplexFormat} (h : f.precision ≤ maxPlaces) :
    f.finitePlaces = .ok f.precision := by
  have hword : maxPlaces ≤ maxWord := by decide
  rw [finitePlaces, if_neg (Nat.not_lt.mpr (h.trans hword)), if_neg (Nat.not_lt.mpr h)]

/-- Up to the largest number of places every number can be written. -/
theorem exists_format {f : ComplexFormat} (h : f.precision ≤ maxPlaces) (z : ComplexNumber) :
    ∃ text, f.format z = .ok text := by
  have hplaces := finitePlaces_eq_ok h
  have hpart (x : Binary64) : ∃ text, f.partText x = .ok text := by
    cases x with
    | nan => exact ⟨_, rfl⟩
    | infinite negative => exact ⟨_, rfl⟩
    | finite negative x => exact ⟨_, by rw [partText, hplaces, Except.map]⟩
  have hreal : ∃ text, f.realText z.re = .ok text := by
    obtain ⟨text, htext⟩ := hpart z.re
    rw [realText.eq_def]
    split
    · exact ⟨_, rfl⟩
    · exact ⟨_, by rw [htext, Except.map]⟩
  obtain ⟨im, him⟩ := hpart z.im
  obtain ⟨re, hre⟩ := hreal
  rw [format, him, hre]
  exact ⟨_, rfl⟩

theorem rounded_eq {f : ComplexFormat} (hsymbol : ∀ c ∈ f.symbol.toList, isBlank c = false)
    (h : f.precision ≤ maxPlaces) (z : ComplexNumber) : f.rounded z = .ok (f.settled z) := by
  obtain ⟨text, htext⟩ := exists_format h z
  exact rounded_eq_ok hsymbol htext

/-- Writing is a fixed point of reading: a written text is read, as the number nearest to
the decimals in it, and what was read is written as the same text.  Hence rounding a
second time changes nothing, and neither does a second pass over any text. -/
theorem format_read_format (f : ComplexFormat)
    (hsymbol : ∀ c ∈ f.symbol.toList, isBlank c = false) :
    (∀ z text, f.format z = .ok text →
      ∃ w, f.read text = .ok w ∧ f.format w = .ok text ∧
        z.re.ReadBack f.precision w.re ∧ z.im.ReadBack f.precision w.im) ∧
    (∀ z w, f.rounded z = .ok w → f.rounded w = .ok w) ∧
    (∀ text first, (f.read text >>= f.format) = .ok first →
      (f.read first >>= f.format) = .ok first) := by
  refine ⟨?_, ?_, ?_⟩
  · intro z text h
    refine ⟨f.settled z, read_format hsymbol h, ?_, ?_, ?_⟩
    · rw [format_settled]
      exact h
    · exact Binary64.readBack_settled f.precision z.re
    · exact Binary64.readBack_settled f.precision z.im
  · intro z w h
    obtain ⟨text, htext, -⟩ := bind_eq_ok_iff.mp h
    rw [rounded_eq_ok hsymbol htext] at h
    injection h with h
    subst h
    rw [← f.format_settled] at htext
    rw [rounded_eq_ok hsymbol htext, settled_settled]
  · intro text first h
    obtain ⟨z, -, hz⟩ := bind_eq_ok_iff.mp h
    rw [bind_eq_ok_iff]
    refine ⟨f.settled z, read_format hsymbol hz, ?_⟩
    rw [format_settled]
    exact hz

/-- One eighth is a tie at two places; the symbol looks like an exponent. -/
theorem format_read_format_eighth :
    (∀ c ∈ "e5".toList, isBlank c = false) ∧
    (⟨2, "e5"⟩ : ComplexFormat).format
        ⟨Decimal.nearest false ⟨125, -3⟩, Decimal.nearest true ⟨25, -1⟩⟩ = .ok "0.12 - 2.50e5" ∧
    (∃ w, (⟨2, "e5"⟩ : ComplexFormat).read "0.12 - 2.50e5" = .ok w ∧
      (⟨2, "e5"⟩ : ComplexFormat).format w = .ok "0.12 - 2.50e5" ∧
      (⟨2, "e5"⟩ : ComplexFormat).rounded w = .ok w) ∧
    ((⟨2, "e5"⟩ : ComplexFormat).read "0.12 - 2.50e5" >>= ComplexFormat.format ⟨2, "e5"⟩) =
      .ok "0.12 - 2.50e5" := by
  have hsymbol : ∀ c ∈ "e5".toList, isBlank c = false := by decide
  have hformat : (⟨2, "e5"⟩ : ComplexFormat).format
      ⟨Decimal.nearest false ⟨125, -3⟩, Decimal.nearest true ⟨25, -1⟩⟩ = .ok "0.12 - 2.50e5" := by
    apply eq_ok_of_toOption
    decide +kernel
  have hfirst : ((⟨2, "e5"⟩ : ComplexFormat).read "0.125-2.5e5" >>=
      ComplexFormat.format ⟨2, "e5"⟩) = .ok "0.12 - 2.50e5" := by
    apply eq_ok_of_toOption
    decide +kernel
  obtain ⟨hwritten, hrounded, hpass⟩ := format_read_format ⟨2, "e5"⟩ hsymbol
  obtain ⟨w, hread, hwrite, -⟩ := hwritten _ _ hformat
  have hw : (⟨2, "e5"⟩ : ComplexFormat).rounded
      ⟨Decimal.nearest false ⟨125, -3⟩, Decimal.nearest true ⟨25, -1⟩⟩ = .ok w := by
    rw [rounded, hformat]
    exact hread
  exact ⟨hsymbol, hformat, ⟨w, hread, hwrite, hrounded _ w hw⟩, hpass _ _ hfirst⟩

end ComplexFormat

end ComplexCalculator
