import ComplexCalculator.Alphabet
import ComplexCalculator.Token.Basic
import Mathlib.Data.List.Basic

/-!
# Formulas

A formula is a sentence of the grammar of expressions: sums of products of factors, where
a factor is a literal, the variable, a bracketed sum or a function of sums.  Operators of
one level associate to the left, which the constructors express by nesting on the left.
A formula is written as a row of tokens and means a tree of operations, in which brackets
leave no trace.  The main statement is that the grammar is unambiguous: a row of tokens is
written by one formula at most.
-/

namespace ComplexCalculator

/-- The levels of the grammar, from the loosest to the tightest: sums join products, and
products join factors. -/
inductive Level where
  | sum
  | product
  | factor
  deriving DecidableEq

/-- The operators that join terms. -/
inductive TermOperator where
  | add
  | sub

/-- The operators that join factors. -/
inductive FactorOperator where
  | mul
  | div

def TermOperator.operation : TermOperator → BinaryOperation
  | .add => .add
  | .sub => .sub

def FactorOperator.operation : FactorOperator → BinaryOperation
  | .mul => .mul
  | .div => .div

/-- A sentence of the grammar of expressions, at one of its levels.  A literal is known by
its name. -/
inductive Formula : Level → Type where
  | literal (name : String) : Formula .factor
  | freeVariable : Formula .factor
  | bracketed (body : Formula .sum) : Formula .factor
  | call (function : UnaryOperation) (argument : Formula .sum) : Formula .factor
  | power (base exponent : Formula .sum) : Formula .factor
  | single (body : Formula .factor) : Formula .product
  | times (left : Formula .product) (operator : FactorOperator) (right : Formula .factor) :
      Formula .product
  | term (body : Formula .product) : Formula .sum
  | plus (left : Formula .sum) (operator : TermOperator) (right : Formula .product) :
      Formula .sum

/-- A tree of operations. -/
inductive Tree where
  | literal (name : String)
  | freeVariable
  | unary (operation : UnaryOperation) (argument : Tree)
  | binary (operation : BinaryOperation) (left right : Tree)

namespace Token

def number (name : String) : Token := plain .number name

def freeVariable : Token := plain .freeVariable Alphabet.variableName

def openBracket : Token := plain .openBracket Alphabet.openBracket.toString

def closeBracket : Token := plain .closeBracket Alphabet.closeBracket.toString

def separator : Token := plain .separator Alphabet.separator.toString

def unary (operation : UnaryOperation) : Token := (Operation.unary operation).token

/-- The token of an operator or of the function of two arguments. -/
def binary (operation : BinaryOperation) : Token := (Operation.binary operation).token

end Token

namespace Formula

variable {level : Level}

/-- The tokens that a formula is written with. -/
def tokens : {level : Level} → Formula level → List Token
  | _, .literal name => [.number name]
  | _, .freeVariable => [.freeVariable]
  | _, .bracketed body => .openBracket :: (body.tokens ++ [.closeBracket])
  | _, .call function argument =>
    .unary function :: .openBracket :: (argument.tokens ++ [.closeBracket])
  | _, .power base exponent =>
    .binary .pow :: .openBracket ::
      (base.tokens ++ .separator :: (exponent.tokens ++ [.closeBracket]))
  | _, .single body => body.tokens
  | _, .times left operator right => left.tokens ++ .binary operator.operation :: right.tokens
  | _, .term body => body.tokens
  | _, .plus left operator right => left.tokens ++ .binary operator.operation :: right.tokens

/-- The tree that a formula means; brackets leave no trace. -/
def tree : {level : Level} → Formula level → Tree
  | _, .literal name => .literal name
  | _, .freeVariable => .freeVariable
  | _, .bracketed body => body.tree
  | _, .call function argument => .unary function argument.tree
  | _, .power base exponent => .binary .pow base.tree exponent.tree
  | _, .single body => body.tree
  | _, .times left operator right => .binary operator.operation left.tree right.tree
  | _, .term body => body.tree
  | _, .plus left operator right => .binary operator.operation left.tree right.tree

end Formula

/-- The tokens of a tree, every operation behind its operands in order. -/
def Tree.listing : Tree → List Token
  | .literal name => [.number name]
  | .freeVariable => [.freeVariable]
  | .unary operation argument => argument.listing ++ [.unary operation]
  | .binary operation left right => left.listing ++ right.listing ++ [.binary operation]

/-! ## Kinds and precedences -/

@[simp] theorem Token.kind_number (name : String) : (number name).kind = some .number := rfl

@[simp] theorem Token.kind_freeVariable : freeVariable.kind = some .freeVariable := rfl

@[simp] theorem Token.kind_openBracket : openBracket.kind = some .openBracket := rfl

@[simp] theorem Token.kind_closeBracket : closeBracket.kind = some .closeBracket := rfl

@[simp] theorem Token.kind_separator : separator.kind = some .separator := rfl

@[simp] theorem Token.kind_unary (operation : UnaryOperation) :
    (unary operation).kind = some .function := rfl

@[simp] theorem Token.kind_pow : (binary .pow).kind = some .function := rfl

@[simp] theorem Token.kind_termOperator (operator : TermOperator) :
    (binary operator.operation).kind = some .operator := by
  cases operator <;> rfl

@[simp] theorem Token.kind_factorOperator (operator : FactorOperator) :
    (binary operator.operation).kind = some .operator := by
  cases operator <;> rfl

/-- How tightly the operators of a level bind; factors bind tighter than any operator. -/
def Level.precedence : Level → Int
  | .sum => 1
  | .product => 2
  | .factor => 3

@[simp] theorem Token.precedence_termOperator (operator : TermOperator) :
    (binary operator.operation).precedence = Level.sum.precedence := by
  cases operator <;> rfl

@[simp] theorem Token.precedence_factorOperator (operator : FactorOperator) :
    (binary operator.operation).precedence = Level.product.precedence := by
  cases operator <;> rfl

theorem Token.unary_injective {a b : UnaryOperation} (h : unary a = unary b) : a = b := by
  have hoperation := Operation.token_injective h
  injection hoperation

theorem Token.binary_injective {a b : BinaryOperation} (h : binary a = binary b) : a = b := by
  have hoperation := Operation.token_injective h
  injection hoperation

theorem TermOperator.operation_injective {a b : TermOperator}
    (h : a.operation = b.operation) : a = b := by
  cases a <;> cases b <;> first | rfl | contradiction

theorem FactorOperator.operation_injective {a b : FactorOperator}
    (h : a.operation = b.operation) : a = b := by
  cases a <;> cases b <;> first | rfl | contradiction

/-! ## What stands before a formula -/

/-- Whether a formula of a level may stand behind a token: behind no function, and behind no
operator that binds as tightly as those of the level. -/
def Token.Admits (token : Token) (level : Level) : Prop :=
  token.kind ≠ some .function ∧
    (token.kind = some .operator → token.precedence < level.precedence)

namespace Token

theorem Admits.mono {token : Token} {level level' : Level} (h : token.Admits level)
    (hle : level.precedence ≤ level'.precedence) : token.Admits level' :=
  ⟨h.1, fun hkind => Int.lt_of_lt_of_le (h.2 hkind) hle⟩

theorem not_admits_function {token : Token} (level : Level)
    (hkind : token.kind = some .function) : ¬token.Admits level := by
  intro h
  exact h.1 hkind

theorem not_admits_operator {token : Token} {level : Level}
    (hkind : token.kind = some .operator) (hle : level.precedence ≤ token.precedence) :
    ¬token.Admits level := by
  intro h
  exact absurd (h.2 hkind) (Int.not_lt.mpr hle)

theorem admits_openBracket : openBracket.Admits .sum := by
  simp [Admits]

theorem admits_separator : separator.Admits .sum := by
  simp [Admits]

theorem admits_termOperator (operator : TermOperator) :
    (binary operator.operation).Admits .product := by
  simp [Admits, Level.precedence]

theorem admits_factorOperator (operator : FactorOperator) :
    (binary operator.operation).Admits .factor := by
  simp [Admits, Level.precedence]

end Token

/-! ## Unambiguity -/

theorem concat_inj {xs ys : List Token} {a b : Token} (h : xs ++ [a] = ys ++ [b]) :
    xs = ys ∧ a = b := by
  have h' := List.append_inj' h rfl
  simpa using h'

namespace Formula

/-- What may stand before a formula of a level. -/
def Follows (level : Level) (before : List Token) : Prop :=
  ∀ token ∈ before.getLast?, token.Admits level

theorem follows_nil (level : Level) : Follows level [] := by
  simp [Follows]

theorem follows_concat {level : Level} {before : List Token} {token : Token} :
    Follows level (before ++ [token]) ↔ token.Admits level := by
  simp [Follows]

theorem Follows.mono {level level' : Level} {before : List Token} (h : Follows level before)
    (hle : level.precedence ≤ level'.precedence) : Follows level' before := by
  intro token htoken
  exact (h token htoken).mono hle

theorem not_follows_operator {level : Level} {before : List Token} {token : Token}
    (hkind : token.kind = some .operator) (hle : level.precedence ≤ token.precedence) :
    ¬Follows level (before ++ [token]) := by
  rw [follows_concat]
  exact Token.not_admits_operator hkind hle

theorem not_follows_function {level : Level} {before : List Token} {token : Token}
    (hkind : token.kind = some .function) : ¬Follows level (before ++ [token]) := by
  rw [follows_concat]
  exact Token.not_admits_function level hkind

theorem follows_openBracket (before : List Token) : Follows .sum (before ++ [.openBracket]) :=
  follows_concat.mpr Token.admits_openBracket

theorem follows_separator (before : List Token) : Follows .sum (before ++ [.separator]) :=
  follows_concat.mpr Token.admits_separator

theorem follows_termOperator (before : List Token) (operator : TermOperator) :
    Follows .product (before ++ [.binary operator.operation]) :=
  follows_concat.mpr (Token.admits_termOperator operator)

theorem follows_factorOperator (before : List Token) (operator : FactorOperator) :
    Follows .factor (before ++ [.binary operator.operation]) :=
  follows_concat.mpr (Token.admits_factorOperator operator)

/-- Whether a formula can be read from the end of a row of tokens in one way only. -/
def Determined (e : Formula level) : Prop :=
  ∀ (e' : Formula level) {before before' : List Token},
    Follows level before → Follows level before' →
    before ++ e.tokens = before' ++ e'.tokens → e = e' ∧ before = before'

/-! ### Factors -/

/-- The last sum of a factor that ends with a bracket, behind the tokens that lead to it. -/
def inner? : Formula .factor → Option (List Token × Formula .sum)
  | .literal _ => none
  | .freeVariable => none
  | .bracketed body => some ([.openBracket], body)
  | .call function argument => some ([.unary function, .openBracket], argument)
  | .power base exponent =>
    some (.binary .pow :: .openBracket :: (base.tokens ++ [.separator]), exponent)

theorem tokens_of_inner?_eq_none {e : Formula .factor} (h : e.inner? = none) :
    ∃ token : Token, e.tokens = [token] ∧ token.kind ≠ some .closeBracket := by
  cases e with
  | literal name => exact ⟨.number name, rfl, by simp⟩
  | freeVariable => exact ⟨.freeVariable, rfl, by simp⟩
  | _ => simp [inner?] at h

theorem tokens_of_inner?_eq_some {e : Formula .factor} {lead : List Token} {body : Formula .sum}
    (h : e.inner? = some (lead, body)) :
    e.tokens = lead ++ body.tokens ++ [.closeBracket] := by
  cases e <;> simp only [inner?, Option.some.injEq, Prod.mk.injEq, reduceCtorEq] at h
  all_goals
    obtain ⟨rfl, rfl⟩ := h
    simp [tokens]

/-- A sum may begin where the last sum of a factor does. -/
theorem follows_lead {e : Formula .factor} {lead : List Token} {body : Formula .sum}
    (h : e.inner? = some (lead, body)) (before : List Token) :
    Follows .sum (before ++ lead) := by
  cases e <;> simp only [inner?, Option.some.injEq, Prod.mk.injEq, reduceCtorEq] at h
  case bracketed =>
    obtain ⟨rfl, rfl⟩ := h
    exact follows_openBracket before
  case call function argument =>
    obtain ⟨rfl, rfl⟩ := h
    have hfollows := follows_openBracket (before ++ [.unary function])
    rwa [List.append_assoc] at hfollows
  case power base exponent =>
    obtain ⟨rfl, rfl⟩ := h
    have hfollows := follows_separator (before ++ .binary .pow :: .openBracket :: base.tokens)
    rwa [List.append_assoc] at hfollows

/-- Every formula ends with an operand or a closing bracket. -/
theorem exists_last (e : Formula level) :
    ∃ front last, e.tokens = front ++ [last] ∧
      last.kind ∈ [some .number, some .freeVariable, some .closeBracket] := by
  induction e with
  | literal name => exact ⟨[], .number name, rfl, by simp⟩
  | freeVariable => exact ⟨[], .freeVariable, rfl, by simp⟩
  | bracketed body => exact ⟨.openBracket :: body.tokens, .closeBracket, rfl, by simp⟩
  | call function argument =>
      exact ⟨.unary function :: .openBracket :: argument.tokens, .closeBracket, rfl, by simp⟩
  | power base exponent =>
      refine ⟨.binary .pow :: .openBracket :: (base.tokens ++ .separator :: exponent.tokens),
        .closeBracket, ?_, by simp⟩
      simp [tokens]
  | single body ih => exact ih
  | term body ih => exact ih
  | times left operator right _ ih =>
      obtain ⟨front, last, hright, hlast⟩ := ih
      exact ⟨left.tokens ++ .binary operator.operation :: front, last, by simp [tokens, hright],
        hlast⟩
  | plus left operator right _ ih =>
      obtain ⟨front, last, hright, hlast⟩ := ih
      exact ⟨left.tokens ++ .binary operator.operation :: front, last, by simp [tokens, hright],
        hlast⟩

/-- A factor of one token is told from the others by this token. -/
theorem tokens_eq_singleton {e e' : Formula .factor} {token : Token}
    {before before' : List Token} (htokens : e.tokens = [token])
    (hkind : token.kind ≠ some .closeBracket)
    (h : before ++ e.tokens = before' ++ e'.tokens) :
    e'.tokens = [token] ∧ before = before' := by
  cases hinner : e'.inner? with
  | none =>
      obtain ⟨token', htokens', -⟩ := tokens_of_inner?_eq_none hinner
      rw [htokens, htokens'] at h
      obtain ⟨hbefore, rfl⟩ := concat_inj h
      exact ⟨htokens', hbefore⟩
  | some inner =>
      rw [htokens, tokens_of_inner?_eq_some hinner, ← List.append_assoc] at h
      rw [(concat_inj h).2] at hkind
      exact absurd Token.kind_closeBracket hkind

/-- Where the last sum of a factor is determined, every other factor in its place has the
same last sum. -/
theorem Determined.exists_inner? {e e' : Formula .factor} {lead : List Token}
    {body : Formula .sum} {before before' : List Token} (hbody : body.Determined)
    (hinner : e.inner? = some (lead, body)) (h : before ++ e.tokens = before' ++ e'.tokens) :
    ∃ lead', e'.inner? = some (lead', body) ∧ before ++ lead = before' ++ lead' := by
  rw [tokens_of_inner?_eq_some hinner, ← List.append_assoc] at h
  cases hinner' : e'.inner? with
  | none =>
      obtain ⟨token, htokens, hkind⟩ := tokens_of_inner?_eq_none hinner'
      rw [htokens] at h
      rw [← (concat_inj h).2] at hkind
      exact absurd Token.kind_closeBracket hkind
  | some inner =>
      obtain ⟨lead', body'⟩ := inner
      rw [tokens_of_inner?_eq_some hinner', ← List.append_assoc before'] at h
      have hcut : before ++ lead ++ body.tokens = before' ++ lead' ++ body'.tokens := by
        rw [List.append_assoc, List.append_assoc]
        exact (concat_inj h).1
      obtain ⟨rfl, hlead⟩ :=
        hbody body' (follows_lead hinner before) (follows_lead hinner' before') hcut
      exact ⟨lead', rfl, hlead⟩

theorem determined_literal (name : String) : (literal name).Determined := by
  intro e' before before' _ _ heq
  obtain ⟨htokens, hbefore⟩ := tokens_eq_singleton rfl (by simp) heq
  refine ⟨?_, hbefore⟩
  cases e' with
  | literal name' =>
      have hname := congrArg Token.name (List.singleton_inj.mp htokens)
      exact congrArg literal hname.symm
  | freeVariable =>
      have hkind := congrArg Token.kind (List.singleton_inj.mp htokens)
      simp at hkind
  | _ => simp [tokens] at htokens

theorem determined_freeVariable : freeVariable.Determined := by
  intro e' before before' _ _ heq
  obtain ⟨htokens, hbefore⟩ := tokens_eq_singleton rfl (by simp) heq
  refine ⟨?_, hbefore⟩
  cases e' with
  | literal name =>
      have hkind := congrArg Token.kind (List.singleton_inj.mp htokens)
      simp at hkind
  | freeVariable => rfl
  | _ => simp [tokens] at htokens

theorem Determined.bracketed {body : Formula .sum} (hbody : body.Determined) :
    (bracketed body).Determined := by
  intro e' before before' h h' heq
  obtain ⟨lead, hinner, hlead⟩ := hbody.exists_inner? rfl heq
  cases e' <;> simp only [inner?, Option.some.injEq, Prod.mk.injEq, reduceCtorEq] at hinner
  case bracketed =>
    obtain ⟨rfl, rfl⟩ := hinner
    exact ⟨rfl, (concat_inj hlead).1⟩
  case call function argument =>
    obtain ⟨rfl, rfl⟩ := hinner
    -- the bracket would stand behind the name of the function
    rw [List.append_cons before'] at hlead
    rw [(concat_inj hlead).1] at h
    exact absurd h (not_follows_function rfl)
  case power base exponent =>
    obtain ⟨rfl, rfl⟩ := hinner
    rw [← List.cons_append, ← List.cons_append, ← List.append_assoc] at hlead
    have hkind := congrArg Token.kind (concat_inj hlead).2
    simp at hkind

theorem Determined.call {argument : Formula .sum} (hargument : argument.Determined)
    (function : UnaryOperation) : (call function argument).Determined := by
  intro e' before before' h h' heq
  obtain ⟨lead, hinner, hlead⟩ := hargument.exists_inner? rfl heq
  rw [List.append_cons before] at hlead
  cases e' <;> simp only [inner?, Option.some.injEq, Prod.mk.injEq, reduceCtorEq] at hinner
  case bracketed =>
    obtain ⟨rfl, rfl⟩ := hinner
    rw [← (concat_inj hlead).1] at h'
    exact absurd h' (not_follows_function rfl)
  case call function' argument' =>
    obtain ⟨rfl, rfl⟩ := hinner
    rw [List.append_cons before'] at hlead
    obtain ⟨hbefore, hname⟩ := concat_inj (concat_inj hlead).1
    rw [Token.unary_injective hname]
    exact ⟨rfl, hbefore⟩
  case power base exponent =>
    obtain ⟨rfl, rfl⟩ := hinner
    rw [← List.cons_append, ← List.cons_append, ← List.append_assoc] at hlead
    have hkind := congrArg Token.kind (concat_inj hlead).2
    simp at hkind

theorem Determined.power {base exponent : Formula .sum} (hbase : base.Determined)
    (hexponent : exponent.Determined) : (power base exponent).Determined := by
  intro e' before before' h h' heq
  obtain ⟨lead, hinner, hlead⟩ := hexponent.exists_inner? rfl heq
  rw [← List.cons_append, ← List.cons_append, ← List.append_assoc] at hlead
  cases e' <;> simp only [inner?, Option.some.injEq, Prod.mk.injEq, reduceCtorEq] at hinner
  case bracketed =>
    obtain ⟨rfl, rfl⟩ := hinner
    have hkind := congrArg Token.kind (concat_inj hlead).2
    simp at hkind
  case call function argument =>
    obtain ⟨rfl, rfl⟩ := hinner
    rw [List.append_cons before'] at hlead
    have hkind := congrArg Token.kind (concat_inj hlead).2
    simp at hkind
  case power base' exponent' =>
    obtain ⟨rfl, rfl⟩ := hinner
    rw [← List.cons_append, ← List.cons_append, ← List.append_assoc] at hlead
    have hcut := (concat_inj hlead).1
    rw [List.append_cons before, List.append_cons (before ++ _), List.append_cons before',
      List.append_cons (before' ++ _)] at hcut
    obtain ⟨rfl, hopen⟩ := hbase base' (follows_openBracket _) (follows_openBracket _) hcut
    exact ⟨rfl, (concat_inj (concat_inj hopen).1).1⟩

/-! ### Products and sums -/

/-- Behind the last operator a determined formula can be cut off. -/
theorem Determined.cut {right right' : Formula level} {token token' : Token}
    {front front' before before' : List Token} (hright : right.Determined)
    (htoken : token.Admits level) (htoken' : token'.Admits level)
    (h : before ++ (front ++ token :: right.tokens) =
      before' ++ (front' ++ token' :: right'.tokens)) :
    right = right' ∧ before ++ front = before' ++ front' ∧ token = token' := by
  rw [List.append_cons front, List.append_cons front', ← List.append_assoc,
    ← List.append_assoc before', ← List.append_assoc before, ← List.append_assoc before'] at h
  obtain ⟨heq, hcut⟩ :=
    hright right' (follows_concat.mpr htoken) (follows_concat.mpr htoken') h
  exact ⟨heq, concat_inj hcut⟩

theorem Determined.single {body : Formula .factor} (hbody : body.Determined) :
    (single body).Determined := by
  intro e' before before' h h' heq
  cases e' with
  | single body' =>
      obtain ⟨rfl, rfl⟩ := hbody body' (h.mono (by decide)) (h'.mono (by decide)) heq
      exact ⟨rfl, rfl⟩
  | times left operator right =>
      obtain ⟨-, rfl⟩ := hbody right (h.mono (by decide))
        (follows_factorOperator (before' ++ left.tokens) operator)
        (by simpa [tokens] using heq)
      exact absurd h (not_follows_operator (by simp) (by simp))

theorem Determined.times {left : Formula .product} {right : Formula .factor}
    (hleft : left.Determined) (operator : FactorOperator) (hright : right.Determined) :
    (times left operator right).Determined := by
  intro e' before before' h h' heq
  cases e' with
  | single body =>
      obtain ⟨-, rfl⟩ := hright body
        (follows_factorOperator (before ++ left.tokens) operator) (h'.mono (by decide))
        (by simpa [tokens] using heq)
      exact absurd h' (not_follows_operator (by simp) (by simp))
  | times left' operator' right' =>
      obtain ⟨rfl, hcut, htoken⟩ := hright.cut (Token.admits_factorOperator operator)
        (Token.admits_factorOperator operator') heq
      obtain ⟨rfl, rfl⟩ := hleft left' h h' hcut
      rw [FactorOperator.operation_injective (Token.binary_injective htoken)]
      exact ⟨rfl, rfl⟩

theorem Determined.term {body : Formula .product} (hbody : body.Determined) :
    (term body).Determined := by
  intro e' before before' h h' heq
  cases e' with
  | term body' =>
      obtain ⟨rfl, rfl⟩ := hbody body' (h.mono (by decide)) (h'.mono (by decide)) heq
      exact ⟨rfl, rfl⟩
  | plus left operator right =>
      obtain ⟨-, rfl⟩ := hbody right (h.mono (by decide))
        (follows_termOperator (before' ++ left.tokens) operator)
        (by simpa [tokens] using heq)
      exact absurd h (not_follows_operator (by simp) (by simp))

theorem Determined.plus {left : Formula .sum} {right : Formula .product}
    (hleft : left.Determined) (operator : TermOperator) (hright : right.Determined) :
    (plus left operator right).Determined := by
  intro e' before before' h h' heq
  cases e' with
  | term body =>
      obtain ⟨-, rfl⟩ := hright body
        (follows_termOperator (before ++ left.tokens) operator) (h'.mono (by decide))
        (by simpa [tokens] using heq)
      exact absurd h' (not_follows_operator (by simp) (by simp))
  | plus left' operator' right' =>
      obtain ⟨rfl, hcut, htoken⟩ := hright.cut (Token.admits_termOperator operator)
        (Token.admits_termOperator operator') heq
      obtain ⟨rfl, rfl⟩ := hleft left' h h' hcut
      rw [TermOperator.operation_injective (Token.binary_injective htoken)]
      exact ⟨rfl, rfl⟩

/-- Every formula can be read from the end of a row of tokens in one way only. -/
theorem determined (e : Formula level) : e.Determined := by
  induction e with
  | literal name => exact determined_literal name
  | freeVariable => exact determined_freeVariable
  | bracketed body ih => exact ih.bracketed
  | call function argument ih => exact ih.call function
  | power base exponent ihBase ihExponent => exact ihBase.power ihExponent
  | single body ih => exact ih.single
  | times left operator right ihLeft ihRight => exact ihLeft.times operator ihRight
  | term body ih => exact ih.term
  | plus left operator right ihLeft ihRight => exact ihLeft.plus operator ihRight

/-- The grammar is unambiguous. -/
theorem tokens_injective {e e' : Formula .sum} (h : e.tokens = e'.tokens) : e = e' :=
  (e.determined e' (follows_nil .sum) (follows_nil .sum) h).1

end Formula

end ComplexCalculator
