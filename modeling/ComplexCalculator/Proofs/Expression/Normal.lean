import ComplexCalculator.Proofs.Expression.Phrase

/-!
# Normal forms of texts

The text of a phrase, in any spacing, has the text of the formula for its normal form, and
this is cut into the tokens of the formula.
-/

namespace ComplexCalculator

open Alphabet (degreeSign isDelimiter isSign opensArgument)
open Text (isBlank)

/-! ## Pieces of formulas -/

/-- The sign of an operator between terms. -/
def TermOperator.sign : TermOperator → Char
  | .add => '+'
  | .sub => '-'

/-- The sign of an operator between factors. -/
def FactorOperator.sign : FactorOperator → Char
  | .mul => '*'
  | .div => '/'

theorem TermOperator.toList_symbol (operator : TermOperator) :
    operator.operation.symbol.toList = [operator.sign] := by
  cases operator <;> decide

theorem FactorOperator.toList_symbol (operator : FactorOperator) :
    operator.operation.symbol.toList = [operator.sign] := by
  cases operator <;> decide

/-- The pieces that a formula is written with. -/
def Formula.pieces {level : Level} (e : Formula level) : List (List Char) :=
  e.tokens.map (·.name.toList)

namespace Formula

theorem pieces_literal (l : Literal) : (literal l.name).pieces = [l.text] := by
  simp [pieces, tokens, Token.number, Token.plain]

theorem pieces_bracketed (body : Formula .sum) :
    (bracketed body).pieces =
      [Alphabet.openBracket] :: (body.pieces ++ [[Alphabet.closeBracket]]) := by
  simp [pieces, tokens, Token.openBracket, Token.closeBracket, Token.plain]

theorem pieces_call (function : UnaryOperation) (argument : Formula .sum) :
    (call function argument).pieces =
      function.name.toList :: [Alphabet.openBracket] ::
        (argument.pieces ++ [[Alphabet.closeBracket]]) := by
  simp [pieces, tokens, Token.openBracket, Token.closeBracket, Token.plain, Token.unary,
    Operation.token, Operation.symbol]

theorem pieces_power (base exponent : Formula .sum) :
    (power base exponent).pieces =
      BinaryOperation.pow.symbol.toList :: [Alphabet.openBracket] ::
        (base.pieces ++ [Alphabet.separator] ::
          (exponent.pieces ++ [[Alphabet.closeBracket]])) := by
  simp [pieces, tokens, Token.openBracket, Token.closeBracket, Token.separator, Token.plain,
    Token.binary, Operation.token, Operation.symbol]

theorem pieces_times (left : Formula .product) (operator : FactorOperator)
    (right : Formula .factor) :
    (times left operator right).pieces = left.pieces ++ [operator.sign] :: right.pieces := by
  rw [← operator.toList_symbol]
  simp [pieces, tokens, Token.binary, Operation.token, Operation.symbol]

theorem pieces_plus (left : Formula .sum) (operator : TermOperator) (right : Formula .product) :
    (plus left operator right).pieces = left.pieces ++ [operator.sign] :: right.pieces := by
  rw [← operator.toList_symbol]
  simp [pieces, tokens, Token.binary, Operation.token, Operation.symbol]

end Formula

namespace Expression

theorem isWord_literal (l : Literal) : IsWord l.text where
  nonempty := by
    obtain ⟨c, hc, -⟩ := l.numberLike_name
    rw [l.toList_name] at hc
    exact List.ne_nil_of_mem hc
  not_mark := by
    have hmarks : ∀ c ∈ ['.', 'e', 'E', 'I'], isMark c = false := by decide
    intro c hc
    rcases Literal.mem_text hc with h | h
    · by_contra hmark
      have hnumeric := (not_blank_of_isMark (Bool.not_eq_false _ ▸ hmark)).2
      rw [isNumeric, h] at hnumeric
      contradiction
    · exact hmarks c h
  not_blank := fun _ hc => Literal.isBlank_of_mem_text hc

theorem isWord_variableName : IsWord Alphabet.variableName.toList := by
  constructor <;> decide

theorem isWord_unary (operation : UnaryOperation) : IsWord operation.name.toList := by
  cases operation <;> constructor <;> decide

theorem isWord_pow : IsWord BinaryOperation.pow.symbol.toList := by
  constructor <;> decide

section

variable {mark : Char → Bool} {level : Level}

/-- A row in brackets. -/
theorem separated_bracketed (hopen : mark Alphabet.openBracket = true)
    (hclose : mark Alphabet.closeBracket = true) {a : List (List Char)} (ha : Separated mark a) :
    Separated mark ([Alphabet.openBracket] :: (a ++ [[Alphabet.closeBracket]])) :=
  .mark hopen (ha.append_mark hclose .nil)

/-- A word in front of a row in brackets. -/
theorem separated_call (hopen : mark Alphabet.openBracket = true)
    (hclose : mark Alphabet.closeBracket = true) {word : List Char} (hword : IsWord word)
    {a : List (List Char)} (ha : Separated mark a) :
    Separated mark (word :: [Alphabet.openBracket] :: (a ++ [[Alphabet.closeBracket]])) :=
  .word hword (by simpa using hopen) (separated_bracketed hopen hclose ha)

end

theorem separated_phrase {level : Level} (e : Phrase level) : Separated isMark e.pieces := by
  induction e with
  | literal l => exact separated_word (isWord_literal l)
  | freeVariable => exact separated_word isWord_variableName
  | bracketed body ih => exact separated_bracketed rfl rfl ih
  | call function argument ih => exact separated_call rfl rfl (isWord_unary function) ih
  | power base exponent ihBase ihExponent =>
      have harguments := ihBase.append_mark (c := Alphabet.separator) rfl ihExponent
      have hcall := separated_call rfl rfl isWord_pow harguments
      rwa [List.append_assoc, List.cons_append] at hcall
  | single body ih => exact ih
  | times left operator right ihLeft ihRight =>
      rw [Phrase.pieces, operator.toList_symbol]
      exact ihLeft.append_mark (by cases operator <;> rfl) ihRight
  | degrees angle ih => exact ih.append_mark rfl .nil
  | term body ih => exact ih
  | signed operator body ih =>
      rw [Phrase.pieces, operator.toList_symbol]
      exact .mark (by cases operator <;> rfl) ih
  | plus left operator right ihLeft ihRight =>
      rw [Phrase.pieces, operator.toList_symbol]
      exact ihLeft.append_mark (by cases operator <;> rfl) ihRight

theorem separated_formula {level : Level} {e : Formula level} (h : e.tree.Genuine) :
    Separated isDelimiter e.pieces := by
  induction e with
  | literal name =>
      obtain ⟨l, rfl⟩ := h
      rw [Formula.pieces_literal]
      exact separated_word (isWord_literal l)
  | freeVariable => exact separated_word isWord_variableName
  | bracketed body ih =>
      rw [Formula.pieces_bracketed]
      exact separated_bracketed rfl rfl (ih h)
  | call function argument ih =>
      rw [Formula.pieces_call]
      exact separated_call rfl rfl (isWord_unary function) (ih h)
  | power base exponent ihBase ihExponent =>
      have harguments := (ihBase h.1).append_mark (c := Alphabet.separator) rfl (ihExponent h.2)
      have hcall := separated_call rfl rfl isWord_pow harguments
      rwa [List.append_assoc, List.cons_append, ← Formula.pieces_power] at hcall
  | single body ih => exact ih h
  | times left operator right ihLeft ihRight =>
      rw [Formula.pieces_times]
      exact (ihLeft h.1).append_mark (by cases operator <;> rfl) (ihRight h.2)
  | term body ih => exact ih h
  | plus left operator right ihLeft ihRight =>
      rw [Formula.pieces_plus]
      exact (ihLeft h.1).append_mark (by cases operator <;> rfl) (ihRight h.2)

/-! ## Rewriting -/

theorem toList_normalize (text : String) :
    (normalize text).toList = normalChars text.toList :=
  String.toList_ofList

/-- What is in front of a character does not decide whether it gets a zero, unless it is a
sign. -/
theorem fillZeros_append {c : Char} (hc : isSign c = false) (atStart : Bool)
    (text after : List Char) :
    fillZeros atStart (text ++ c :: after) =
      fillZeros atStart text ++ fillZeros false (c :: after) := by
  induction text generalizing atStart with
  | nil => simp [fillZeros, hc]
  | cons d rest ih => simp [fillZeros, ih]

/-- The normal form of a text without gaps; `atStart` tells whether it begins an argument. -/
def rewritten (atStart : Bool) (text : List Char) : List Char :=
  fillZeros atStart (expandDegrees text)

theorem rewritten_cons_of_ne {c : Char} (hdegree : c ≠ degreeSign) (atStart : Bool)
    (text : List Char) :
    rewritten atStart (c :: text) =
      (if atStart && isSign c then ['0'] else []) ++ c :: rewritten (opensArgument c) text := by
  rw [rewritten, rewritten, expandDegrees, List.flatMap_cons, if_neg hdegree,
    List.singleton_append, fillZeros]
  rfl

theorem rewritten_cons {c : Char} (hdegree : c ≠ degreeSign) (atStart : Bool)
    (hsign : (atStart && isSign c) = false) (text : List Char) :
    rewritten atStart (c :: text) = c :: rewritten (opensArgument c) text := by
  rw [rewritten_cons_of_ne hdegree, hsign]
  rfl

theorem plain_of_not_mark {c : Char} (h : isMark c = false) :
    c ≠ degreeSign ∧ isSign c = false ∧ opensArgument c = false := by
  refine ⟨?_, ?_, ?_⟩
  · rintro rfl
    contradiction
  · by_contra hsign
    simp only [isSign, Bool.not_eq_false, Bool.or_eq_true, beq_iff_eq] at hsign
    rcases hsign with rfl | rfl <;> contradiction
  · by_contra hopens
    simp only [opensArgument, Bool.not_eq_false, Bool.or_eq_true, beq_iff_eq] at hopens
    rcases hopens with rfl | rfl <;> contradiction

theorem rewritten_word {piece : List Char} (h : IsWord piece) (atStart : Bool)
    (text : List Char) :
    rewritten atStart (piece ++ text) = piece ++ rewritten false text := by
  have hstep (atStart : Bool) {c : Char} (hc : c ∈ piece) (text : List Char) :
      rewritten atStart (c :: text) = c :: rewritten false text := by
    obtain ⟨hdegree, hsign, hopens⟩ := plain_of_not_mark (h.not_mark c hc)
    rw [rewritten_cons hdegree atStart (by rw [hsign, Bool.and_false]), hopens]
  have hrest {rest : List Char} (hrest : ∀ c ∈ rest, c ∈ piece) :
      rewritten false (rest ++ text) = rest ++ rewritten false text := by
    induction rest with
    | nil => rfl
    | cons c rest ih =>
        rw [List.cons_append, hstep false (hrest c (by simp)),
          ih fun d hd => hrest d (by simp [hd])]
        rfl
  obtain ⟨c, rest, rfl⟩ := List.exists_cons_of_ne_nil h.nonempty
  rw [List.cons_append, hstep atStart (by simp), hrest fun d hd => by simp [hd]]
  rfl

theorem rewritten_openBracket (atStart : Bool) (text : List Char) :
    rewritten atStart (Alphabet.openBracket :: text) =
      Alphabet.openBracket :: rewritten true text :=
  rewritten_cons (by decide) atStart (by cases atStart <;> rfl) text

theorem rewritten_closeBracket (atStart : Bool) (text : List Char) :
    rewritten atStart (Alphabet.closeBracket :: text) =
      Alphabet.closeBracket :: rewritten false text :=
  rewritten_cons (by decide) atStart (by cases atStart <;> rfl) text

theorem rewritten_separator (atStart : Bool) (text : List Char) :
    rewritten atStart (Alphabet.separator :: text) =
      Alphabet.separator :: rewritten true text :=
  rewritten_cons (by decide) atStart (by cases atStart <;> rfl) text

theorem rewritten_factorOperator (operator : FactorOperator) (atStart : Bool)
    (text : List Char) :
    rewritten atStart (operator.sign :: text) = operator.sign :: rewritten false text := by
  cases operator <;> exact rewritten_cons (by decide) atStart (by cases atStart <;> rfl) text

theorem rewritten_termOperator (operator : TermOperator) (text : List Char) :
    rewritten false (operator.sign :: text) = operator.sign :: rewritten false text := by
  cases operator <;> exact rewritten_cons (by decide) false rfl text

/-- A sign at the start gets a zero in front. -/
theorem rewritten_leadingSign (operator : TermOperator) (text : List Char) :
    rewritten true (operator.sign :: text) = '0' :: operator.sign :: rewritten false text := by
  cases operator <;> rfl

/-- A degree sign becomes a product and a quotient. -/
theorem rewritten_degreeSign (atStart : Bool) (text : List Char) :
    rewritten atStart (degreeSign :: text) =
      FactorOperator.mul.sign :: (Literal.halfTurn.text ++
        FactorOperator.div.sign :: (Literal.halfTurnDegrees.text ++ rewritten false text)) := by
  have hfactor : degreeFactor = FactorOperator.mul.sign :: (Literal.halfTurn.text ++
      FactorOperator.div.sign :: Literal.halfTurnDegrees.text) := by decide
  have hkept : expandDegrees degreeFactor = degreeFactor := by decide
  have hexpand : expandDegrees (degreeSign :: text) = expandDegrees (degreeFactor ++ text) := by
    rw [expandDegrees, expandDegrees, List.flatMap_append, List.flatMap_cons, if_pos rfl]
    exact congrArg (· ++ _) hkept.symm
  rw [rewritten, hexpand, hfactor]
  change rewritten atStart _ = _
  rw [List.cons_append, rewritten_factorOperator, List.append_assoc, List.cons_append,
    rewritten_word (isWord_literal Literal.halfTurn), rewritten_factorOperator,
    rewritten_word (isWord_literal Literal.halfTurnDegrees)]

/-- The text of a phrase has the text of its formula for its normal form. -/
theorem rewritten_phrase {level : Level} (e : Phrase level) (atStart : Bool)
    (hstart : level = .sum → atStart = true) (text : List Char) :
    rewritten atStart (e.pieces.flatten ++ text) =
      e.formula.pieces.flatten ++ rewritten false text := by
  -- what stands behind a phrase is arbitrary, so that its parts can be taken one by one
  induction e generalizing atStart text with
  | literal l =>
      rw [Phrase.pieces, List.flatten_singleton, rewritten_word (isWord_literal l),
        Phrase.formula, Formula.pieces_literal, List.flatten_singleton]
  | freeVariable =>
      rw [Phrase.pieces, List.flatten_singleton, rewritten_word isWord_variableName]
      simp [Phrase.formula, Formula.pieces, Formula.tokens, Token.freeVariable, Token.plain]
  | bracketed body ih =>
      have hbody := ih true (fun _ => rfl) (Alphabet.closeBracket :: text)
      rw [rewritten_closeBracket] at hbody
      simp [Phrase.pieces, Phrase.formula, Formula.pieces_bracketed, rewritten_openBracket, hbody]
  | call function argument ih =>
      have hargument := ih true (fun _ => rfl) (Alphabet.closeBracket :: text)
      rw [rewritten_closeBracket] at hargument
      simp [Phrase.pieces, Phrase.formula, Formula.pieces_call,
        rewritten_word (isWord_unary function), rewritten_openBracket, hargument]
  | power base exponent ihBase ihExponent =>
      have hexponent := ihExponent true (fun _ => rfl) (Alphabet.closeBracket :: text)
      rw [rewritten_closeBracket] at hexponent
      have hbase := ihBase true (fun _ => rfl) (Alphabet.separator ::
        (exponent.pieces.flatten ++ Alphabet.closeBracket :: text))
      rw [rewritten_separator, hexponent] at hbase
      simp [Phrase.pieces, Phrase.formula, Formula.pieces_power, rewritten_word isWord_pow,
        rewritten_openBracket, hbase]
  | single body ih => exact ih atStart (by simp) text
  | times left operator right ihLeft ihRight =>
      have hright := ihRight false (by simp) text
      have hleft := ihLeft atStart (by simp)
        (operator.sign :: (right.pieces.flatten ++ text))
      rw [rewritten_factorOperator, hright] at hleft
      simp [Phrase.pieces, Phrase.formula, Formula.pieces_times, operator.toList_symbol, hleft]
  | degrees angle ih =>
      have hangle := ih atStart (by simp) (degreeSign :: text)
      rw [rewritten_degreeSign] at hangle
      simp [Phrase.pieces, Phrase.formula, Formula.pieces_times, Formula.pieces_literal, hangle]
  | term body ih => exact ih atStart (by simp) text
  | signed operator body ih =>
      obtain rfl := hstart rfl
      have hbody := ih false (by simp) text
      have hzero : (Formula.term (.single (.literal Literal.zero.name))).pieces = [['0']] :=
        Formula.pieces_literal Literal.zero
      simp [Phrase.pieces, Phrase.formula, Formula.pieces_plus, operator.toList_symbol,
        rewritten_leadingSign, hbody, hzero]
  | plus left operator right ihLeft ihRight =>
      have hright := ihRight false (by simp) text
      have hleft := ihLeft atStart hstart (operator.sign :: (right.pieces.flatten ++ text))
      rw [rewritten_termOperator, hright] at hleft
      simp [Phrase.pieces, Phrase.formula, Formula.pieces_plus, operator.toList_symbol, hleft]

/-! ## Tokens -/

theorem classify_symbol (operation : Operation) :
    Token.classify operation.symbol = .ok operation.token := by
  have hbracket : Token.bracketKind? operation.symbol = none := by
    rcases operation with operation | operation <;> cases operation <;> decide
  rw [Token.classify, hbracket, Operation.ofSymbol?_symbol]

/-- Every token of a formula of literals is classified as itself. -/
theorem classify_formula {level : Level} {e : Formula level} (h : e.tree.Genuine) :
    ∀ token ∈ e.tokens, Token.classify token.name = .ok token := by
  have hopen : Token.classify Token.openBracket.name = .ok .openBracket := rfl
  have hclose : Token.classify Token.closeBracket.name = .ok .closeBracket := rfl
  have hseparator : Token.classify Token.separator.name = .ok .separator := rfl
  have hunary (operation : UnaryOperation) :
      Token.classify (Token.unary operation).name = .ok (.unary operation) :=
    classify_symbol (.unary operation)
  have hbinary (operation : BinaryOperation) :
      Token.classify (Token.binary operation).name = .ok (.binary operation) :=
    classify_symbol (.binary operation)
  induction e with
  | literal name =>
      obtain ⟨l, rfl⟩ := h
      intro token htoken
      obtain rfl := List.mem_singleton.mp htoken
      exact l.classify_name
  | freeVariable =>
      intro token htoken
      obtain rfl := List.mem_singleton.mp htoken
      rfl
  | bracketed body ih =>
      have hbody := ih h
      simp only [Formula.tokens, List.forall_mem_cons, List.forall_mem_append]
      exact ⟨hopen, hbody, hclose, by simp⟩
  | call function argument ih =>
      have hargument := ih h
      simp only [Formula.tokens, List.forall_mem_cons, List.forall_mem_append]
      exact ⟨hunary function, hopen, hargument, hclose, by simp⟩
  | power base exponent ihBase ihExponent =>
      have hbase := ihBase h.1
      have hexponent := ihExponent h.2
      simp only [Formula.tokens, List.forall_mem_cons, List.forall_mem_append]
      exact ⟨hbinary .pow, hopen, hbase, hseparator, hexponent, hclose, by simp⟩
  | single body ih => exact ih h
  | times left operator right ihLeft ihRight =>
      have hleft := ihLeft h.1
      have hright := ihRight h.2
      simp only [Formula.tokens, List.forall_mem_cons, List.forall_mem_append]
      exact ⟨hleft, hbinary _, hright⟩
  | term body ih => exact ih h
  | plus left operator right ihLeft ihRight =>
      have hleft := ihLeft h.1
      have hright := ihRight h.2
      simp only [Formula.tokens, List.forall_mem_cons, List.forall_mem_append]
      exact ⟨hleft, hbinary _, hright⟩

/-- A text that is a phrase without its gaps has the tokens of the formula that the phrase
stands for. -/
theorem tokens_phrase {e : Phrase .sum} {text : String}
    (h : closeGaps none false text.toList = e.pieces.flatten) :
    tokens text = e.formula.tokens.map .ok := by
  have hnormal : normalChars text.toList = e.formula.pieces.flatten := by
    have hphrase := rewritten_phrase e true (fun _ => rfl) []
    rw [List.append_nil] at hphrase
    rw [normalChars, h]
    exact hphrase.trans (List.append_nil _)
  have hpieces : pieces (normalize text) = e.formula.tokens.map (·.name) := by
    rw [pieces, toList_normalize, hnormal,
      splitChars_flatten (separated_formula e.genuine_formula), Formula.pieces, List.map_map]
    exact List.map_congr_left fun token _ => String.ofList_toList
  rw [tokens, hpieces, List.map_map]
  exact List.map_congr_left fun token htoken =>
    classify_formula e.genuine_formula token htoken

end Expression

end ComplexCalculator
