import ComplexCalculator.Proofs.ComplexFormat.Grammar
import ComplexCalculator.Rpn.Conversion
import ComplexCalculator.Token.Basic

/-!
# Literals of expressions

A literal is a numeral whose exponent has no sign, perhaps with the imaginary unit behind
it, or the imaginary unit alone.  Every literal is a token of its own, and the entry that
stands for it is read as its value.
-/

namespace ComplexCalculator

open Text (isBlank isDecimalDigit)

/-- A number as expressions have it. -/
inductive Literal where
  | real (n : Numeral) (unsigned : n.Unsigned)
  /-- An imaginary number, which is the unit if nothing stands before it. -/
  | imaginary (n : Option Numeral) (unsigned : ∀ m ∈ n, m.Unsigned)

namespace Literal

/-- The characters in front of an imaginary unit. -/
def factorText (n : Option Numeral) : List Char := (n.map Numeral.text).getD []

/-- The number in front of an imaginary unit, which is one if nothing is written. -/
def factor (n : Option Numeral) : Binary64 := (n.map (·.decimal.nearest false)).getD .one

def text : Literal → List Char
  | .real n _ => n.text
  | .imaginary n _ => factorText n ++ [Alphabet.imaginaryUnit]

/-- The piece of an expression that a literal is. -/
def name (l : Literal) : String := String.ofList l.text

/-- The number that a literal is written for. -/
def number : Literal → ComplexNumber
  | .real n _ => .ofReal (n.decimal.nearest false)
  | .imaginary n _ => ⟨.zero, factor n⟩

/-- What a literal denotes: an imaginary number is rounded to the places of the format. -/
def value (f : ComplexFormat) (l : Literal) : Except Failure ComplexNumber :=
  match l with
  | .real .. => .ok l.number
  | .imaginary .. => f.rounded l.number

theorem factor_none : factor none = .one := by
  rw [factor, Option.map_none, Option.getD_none]

@[simp] theorem toList_name (l : Literal) : l.name.toList = l.text := String.toList_ofList

end Literal

/-! ## Texts of numbers -/

namespace Expression

/-- Whether the character is one that only numbers contain. -/
def marksNumber (c : Char) : Bool := isNumeric c || c == Alphabet.imaginaryUnit

/-- Whether a text contains a character that only numbers contain. -/
def NumberLike (name : String) : Prop := ∃ c ∈ name.toList, marksNumber c = true

theorem marksNumber_symbol (operation : Operation) :
    ∀ c ∈ operation.symbol.toList, marksNumber c = false := by
  rcases operation with operation | operation <;> cases operation <;> decide

theorem NumberLike.ne {name word : String} (h : NumberLike name)
    (hword : ∀ c ∈ word.toList, marksNumber c = false) : name ≠ word := by
  rintro rfl
  obtain ⟨c, hc, hmark⟩ := h
  rw [hword c hc] at hmark
  contradiction

theorem NumberLike.ofSymbol?_eq_none {name : String} (h : NumberLike name) :
    Operation.ofSymbol? name = none := by
  rw [Operation.ofSymbol?, List.find?_eq_none]
  intro operation _ heq
  exact h.ne (marksNumber_symbol operation) (beq_iff_eq.mp heq).symm

theorem NumberLike.ne_variableName {name : String} (h : NumberLike name) :
    name ≠ Alphabet.variableName :=
  h.ne (by decide)

theorem NumberLike.bracketKind?_eq_none {name : String} (h : NumberLike name) :
    Token.bracketKind? name = none := by
  rw [Token.bracketKind?, if_neg (h.ne (by decide)), if_neg (h.ne (by decide)),
    if_neg (h.ne (by decide))]

end Expression

open Expression (NumberLike marksNumber)

theorem Numeral.exists_marksNumber (n : Numeral) : ∃ c ∈ n.text, marksNumber c = true := by
  obtain ⟨c, rest, htext, hc⟩ := n.exists_cons
  refine ⟨c, by simp [htext], ?_⟩
  rcases hc with hc | rfl
  · simp [marksNumber, Expression.isNumeric, hc]
  · decide

theorem Alphabet.isBlank_of_mem_imaginaryUnit :
    ∀ c ∈ Alphabet.imaginaryUnit.toString.toList, isBlank c = false := by
  decide

/-- With the symbol of expressions every number can be rounded. -/
theorem ComplexFormat.rounded_eq_settled {f : ComplexFormat}
    (hsymbol : f.symbol = Alphabet.imaginaryUnit.toString) (hplaces : f.precision ≤ maxPlaces)
    (z : ComplexNumber) : f.rounded z = .ok (f.settled z) :=
  rounded_eq (hsymbol ▸ Alphabet.isBlank_of_mem_imaginaryUnit) hplaces z

theorem ComplexFormat.numberLike_of_format {f : ComplexFormat}
    (hsymbol : f.symbol = Alphabet.imaginaryUnit.toString) {z : ComplexNumber} {text : String}
    (h : f.format z = .ok text) : NumberLike text := by
  obtain ⟨re, im, -, -, htext⟩ := format_eq_ok h
  refine ⟨Alphabet.imaginaryUnit, ?_, by decide⟩
  rw [htext, hsymbol]
  simp

/-! ## Literals as tokens -/

namespace Literal

theorem numberLike_name (l : Literal) : NumberLike l.name := by
  rw [NumberLike, toList_name]
  cases l with
  | real n _ => exact n.exists_marksNumber
  | imaginary n _ => exact ⟨Alphabet.imaginaryUnit, by simp [text], by decide⟩

theorem mem_text {l : Literal} {c : Char} (h : c ∈ l.text) :
    isDecimalDigit c = true ∨ c ∈ ['.', 'e', 'E', 'I'] := by
  have hnumeral {n : Numeral} (hn : n.Unsigned) (h : c ∈ n.text) :
      isDecimalDigit c = true ∨ c ∈ ['.', 'e', 'E', 'I'] :=
    (Numeral.mem_text_of_unsigned hn h).imp_right fun h => List.mem_append_left ['I'] h
  cases l with
  | real n hn => exact hnumeral hn h
  | imaginary n hn =>
      rw [text, List.mem_append, List.mem_singleton] at h
      rcases h with h | rfl
      · cases n with
        | none => simp [factorText] at h
        | some n => exact hnumeral (hn n rfl) h
      · right
        decide

theorem isNumber_name (l : Literal) : Token.isNumber l.name = true := by
  rw [Token.isNumber, Bool.or_eq_true]
  cases l with
  | real n hn =>
      left
      rw [Token.isRealLiteral, toList_name, text, Decimal.read?_text n (Or.inr hn)]
      rfl
  | imaginary n _ =>
      right
      simp [Token.isImaginary, text]

/-- A literal is a token. -/
theorem classify_name (l : Literal) :
    Token.classify l.name = .ok (Token.plain .number l.name) := by
  have hlike := l.numberLike_name
  rw [Token.classify, hlike.bracketKind?_eq_none, hlike.ofSymbol?_eq_none]
  simp only
  rw [if_neg hlike.ne_variableName, if_pos l.isNumber_name]

end Literal

/-! ## Reading -/

def Numeral.zero : Numeral := ⟨['0'], none, none, by decide, by decide⟩

theorem Numeral.nearest_zero : zero.decimal.nearest false = .zero := by
  have hdecimal : zero.decimal = ⟨0, 0⟩ := by decide
  rw [hdecimal, Decimal.nearest]
  rfl

namespace ComplexFormat

theorem read_real (f : ComplexFormat) (sign : Option Bool) (n : Numeral) :
    f.read (String.ofList ((sign.map signChar).toList ++ n.text)) =
      .ok (.ofReal (applySign (sign == some true) (n.decimal.nearest false))) := by
  have hkept : Text.dropBlanks ((sign.map signChar).toList ++ n.text) =
      (sign.map signChar).toList ++ n.text := by
    apply dropBlanks_of_not_blank
    intro c hc
    rcases List.mem_append.mp hc with hc | hc
    · rcases sign with - | negative
      · simp at hc
      · obtain rfl : c = signChar negative := by simpa using hc
        cases negative <;> decide
    · exact Numeral.isBlank_of_mem_text hc
  have htake := (UnsignedReal.numeral n).takeSigned_text sign Numeral.ends_nil
  rw [List.append_nil] at htake
  change takeSigned ((sign.map signChar).toList ++ n.text) = _ at htake
  rw [read_eq_ok, read?, String.toList_ofList, hkept, readCompact?, readReal?, htake]
  rfl

end ComplexFormat

namespace Literal

theorem isBlank_of_mem_text {l : Literal} {c : Char} (h : c ∈ l.text) : isBlank c = false := by
  have hmarks : ∀ c ∈ ['.', 'e', 'E', 'I'], isBlank c = false := by decide
  rcases mem_text h with h | h
  · exact Text.isBlank_of_isDecimalDigit h
  · exact hmarks c h

theorem factorText_numeral (n : Option Numeral) :
    UnsignedReal.factorText (n.map .numeral) = factorText n := by
  cases n <;> rfl

theorem factor_numeral (n : Option Numeral) :
    UnsignedReal.factor (n.map .numeral) = factor n := by
  cases n with
  | none => rw [Option.map_none, UnsignedReal.factor_none, factor_none]
  | some n => rfl

theorem read_imaginary {f : ComplexFormat}
    (hsymbol : f.symbol = Alphabet.imaginaryUnit.toString) (n : Option Numeral)
    (hn : ∀ m ∈ n, m.Unsigned) :
    f.read ("0+" ++ (imaginary n hn).name) = .ok (imaginary n hn).number := by
  have htext : ("0+" ++ (imaginary n hn).name).toList =
      (ComplexNumeral.pair none (.numeral Numeral.zero) false (n.map .numeral)).text := by
    rw [String.toList_append, toList_name, ComplexNumeral.text, factorText_numeral]
    rfl
  have hkept : Text.dropBlanks ("0+" ++ (imaginary n hn).name).toList =
      ("0+" ++ (imaginary n hn).name).toList := by
    apply ComplexFormat.dropBlanks_of_not_blank
    have hlead : ∀ c ∈ "0+".toList, isBlank c = false := by decide
    rw [String.toList_append, toList_name]
    intro c hc
    rcases List.mem_append.mp hc with hc | hc
    · exact hlead c hc
    · exact isBlank_of_mem_text hc
  rw [ComplexFormat.read_eq_ok, ComplexFormat.read?, hkept, htext,
    ComplexFormat.toList_symbol hsymbol, ComplexNumeral.readCompact?_text, ComplexNumeral.number,
    factor_numeral, UnsignedReal.value, Numeral.nearest_zero]
  rfl

/-! ## Entries -/

theorem literalEntry_real (f : ComplexFormat) (n : Numeral) (hn : n.Unsigned) :
    Rpn.literalEntry f (real n hn).name = .ok (real n hn).name := by
  have hnotImaginary : Token.isImaginary (real n hn).name = false := by
    rw [Token.isImaginary, toList_name, List.contains_eq_any_beq, List.any_eq_false]
    intro c hc heq
    have hunit : Alphabet.imaginaryUnit ∈ (real n hn).text := by
      rwa [beq_iff_eq.mp heq]
    rcases Numeral.mem_text_of_unsigned hn hunit with h | h <;> revert h <;> decide
  have hne : (real n hn).name ≠ Alphabet.imaginaryUnit.toString := by
    intro heq
    rw [heq] at hnotImaginary
    contradiction
  rw [Rpn.literalEntry, if_neg hne, hnotImaginary]
  rfl

theorem literalEntry_imaginary {f : ComplexFormat}
    (hsymbol : f.symbol = Alphabet.imaginaryUnit.toString) (n : Option Numeral)
    (hn : ∀ m ∈ n, m.Unsigned) :
    Rpn.literalEntry f (imaginary n hn).name = f.format (imaginary n hn).number := by
  rw [Rpn.literalEntry]
  split_ifs with hunit himaginary
  · cases n with
    | none =>
        rw [number, ComplexNumber.imaginaryUnit]
        rw [factor_none]
    | some n =>
        obtain ⟨c, rest, htext, -⟩ := n.exists_cons
        have hlength := congrArg (List.length ∘ String.toList) hunit
        simp [text, factorText, htext, Alphabet.imaginaryUnit] at hlength
  · rw [read_imaginary hsymbol]
    rfl
  · simp [Token.isImaginary, text] at himaginary

/-- The entry of a literal is read as its value. -/
theorem literalEntry_read {f : ComplexFormat}
    (hsymbol : f.symbol = Alphabet.imaginaryUnit.toString) (l : Literal) :
    (Rpn.literalEntry f l.name >>= f.read) = l.value f := by
  cases l with
  | real n hn =>
      rw [literalEntry_real]
      exact f.read_real none n
  | imaginary n hn =>
      rw [literalEntry_imaginary hsymbol]
      rfl

/-- The entry of a literal is neither the symbol of an operation nor the variable. -/
theorem exists_entry {f : ComplexFormat}
    (hsymbol : f.symbol = Alphabet.imaginaryUnit.toString)
    (hplaces : f.precision ≤ ComplexFormat.maxPlaces) (l : Literal) :
    ∃ entry, Rpn.literalEntry f l.name = .ok entry ∧ NumberLike entry := by
  cases l with
  | real n hn => exact ⟨_, literalEntry_real f n hn, numberLike_name _⟩
  | imaginary n hn =>
      obtain ⟨entry, hentry⟩ := ComplexFormat.exists_format hplaces (imaginary n hn).number
      refine ⟨entry, ?_, ComplexFormat.numberLike_of_format hsymbol hentry⟩
      rw [literalEntry_imaginary hsymbol, hentry]

end Literal

end ComplexCalculator
