import ComplexCalculator.Proofs.Expression.Acceptance
import ComplexCalculator.Proofs.Session.Reentry
import Mathlib.Data.List.Forall2

/-!
# Changes of the precision

A parsed expression keeps its entries when the precision changes.  Real literals are kept as
they were written, but imaginary ones have been rounded to the places in force when they were
parsed, and digits that were lost then do not come back.  Where the two precisions round every
imaginary literal to the same number, evaluation gives what it would give if the expression
were parsed again.
-/

namespace ComplexCalculator

open Expression (NumberLike)

namespace Rpn

variable {f : ComplexFormat}

/-! ## Entries that are read alike -/

/-- Entries that evaluation cannot tell apart. -/
def Alike (f : ComplexFormat) (a b : String) : Prop :=
  a = b ∨ NumberLike a ∧ NumberLike b ∧ f.read a = f.read b

theorem isVariable_of_numberLike {name : String} (h : NumberLike name) :
    isVariable (.text name) = false :=
  beq_eq_false_iff_ne.mpr h.ne_variableName

theorem any_isVariable_of_alike {as bs : List String} (h : List.Forall₂ (Alike f) as bs) :
    (as.map Datum.text).any isVariable = (bs.map Datum.text).any isVariable := by
  induction h with
  | nil => rfl
  | cons hfirst _ ih =>
      simp only [List.map_cons, List.any_cons, ih]
      rcases hfirst with rfl | ⟨ha, hb, -⟩
      · rfl
      · rw [isVariable_of_numberLike ha, isVariable_of_numberLike hb]

/-- Rows of entries that are read alike have the same effect, whatever replaces the
variable. -/
theorem foldrM_step_of_alike {as bs : List String} (h : List.Forall₂ (Alike f) as bs)
    (replace : Datum → Datum)
    (hreplace : ∀ entry, isVariable entry = false → replace entry = entry)
    (stack : List ComplexNumber) :
    ((as.map Datum.text).map replace).foldrM (step f) stack =
      ((bs.map Datum.text).map replace).foldrM (step f) stack := by
  induction h with
  | nil => rfl
  | cons hfirst _ ih =>
      simp only [List.map_cons, List.foldrM_cons, ih]
      congr 1
      funext stack
      rcases hfirst with rfl | ⟨ha, hb, hread⟩
      · rfl
      · rw [hreplace _ (isVariable_of_numberLike ha), hreplace _ (isVariable_of_numberLike hb),
          step_numberLike ha, step_numberLike hb, hread]

theorem evaluate_of_alike {as bs : List String} (h : List.Forall₂ (Alike f) as bs)
    (value : Quantity) : evaluate f as value = evaluate f bs value := by
  have hsubstitute : (substitute (as.map .text) value >>= fun entries =>
        entries.foldrM (step f) [] >>= single) =
      (substitute (bs.map .text) value >>= fun entries =>
        entries.foldrM (step f) [] >>= single) := by
    rw [substitute, substitute]
    cases value.toReal with
    | error failure => rfl
    | ok x =>
        refine congrArg (· >>= single) (foldrM_step_of_alike h _ ?_ [])
        intro entry hentry
        rw [hentry]
        rfl
  cases value with
  | absent =>
      rw [evaluate, evaluate, evaluateData, evaluateData, bindVariable, bindVariable,
        any_isVariable_of_alike h]
      split_ifs
      · rfl
      · have hsame := foldrM_step_of_alike h id (fun _ _ => rfl) []
        rw [List.map_id, List.map_id] at hsame
        exact congrArg (· >>= single) hsame
  | real x => exact hsubstitute
  | integer n => exact hsubstitute
  | boolean b => exact hsubstitute
  | complex z => exact hsubstitute

/-! ## Entries at two precisions -/

variable {g : ComplexFormat}

/-- The reader does not depend on the precision. -/
theorem read_eq_of_symbol (h : f.symbol = g.symbol) (text : String) :
    f.read text = g.read text := by
  rw [ComplexFormat.read, ComplexFormat.read, ComplexFormat.read?, ComplexFormat.read?, h]

/-- Every entry is read alike at two precisions that round all imaginary literals to the same
numbers. -/
theorem exists_alike_entry (hf : f.symbol = Alphabet.imaginaryUnit.toString)
    (hg : g.symbol = Alphabet.imaginaryUnit.toString)
    (hplaces : g.precision ≤ ComplexFormat.maxPlaces) {token : Token} (htoken : token.Listed)
    (hsame : ∀ n hn, token = .number (Literal.imaginary n hn).name →
      (Literal.factor n).settled f.precision = (Literal.factor n).settled g.precision)
    {a : String} (ha : entry f token = .ok a) : ∃ b, entry g token = .ok b ∧ Alike g a b := by
  have hname {token : Token} (hkind : token.kind ≠ some .number) (ha : entry f token = .ok a) :
      ∃ b, entry g token = .ok b ∧ Alike g a b := by
    rw [entry, if_neg hkind] at ha
    exact ⟨a, by rw [entry, if_neg hkind, ha], Or.inl rfl⟩
  cases htoken with
  | literal l =>
      have hentry (f : ComplexFormat) : entry f (.number l.name) = literalEntry f l.name :=
        if_pos rfl
      rw [hentry] at ha
      rw [hentry]
      cases l with
      | real n hn =>
          rw [Literal.literalEntry_real] at ha
          exact ⟨a, by rw [Literal.literalEntry_real, ha], Or.inl rfl⟩
      | imaginary n hn =>
          rw [Literal.literalEntry_imaginary hf] at ha
          obtain ⟨b, hb⟩ := ComplexFormat.exists_format hplaces (Literal.imaginary n hn).number
          -- Both texts are read back as the rounded number, which is the same one.
          have hsettled : f.settled (Literal.imaginary n hn).number =
              g.settled (Literal.imaginary n hn).number := by
            rw [ComplexFormat.settled, ComplexFormat.settled, Literal.number,
              hsame n hn rfl, Binary64.settled_zero, Binary64.settled_zero]
          refine ⟨b, by rw [Literal.literalEntry_imaginary hg, hb], Or.inr ⟨?_, ?_, ?_⟩⟩
          · exact ComplexFormat.numberLike_of_format hf ha
          · exact ComplexFormat.numberLike_of_format hg hb
          · rw [← read_eq_of_symbol (hf.trans hg.symm),
              ComplexFormat.read_format (hf ▸ Alphabet.isBlank_of_mem_imaginaryUnit) ha,
              ComplexFormat.read_format (hg ▸ Alphabet.isBlank_of_mem_imaginaryUnit) hb, hsettled]
  | freeVariable => exact hname (by simp) ha
  | unary operation => exact hname (by simp) ha
  | binary operation =>
      refine hname ?_ ha
      cases operation <;> decide

/-- The entries of a row at two precisions are read alike if those of each token are. -/
theorem exists_alike_entries {row : List Token}
    (h : ∀ token ∈ row, ∀ a, entry f token = .ok a → ∃ b, entry g token = .ok b ∧ Alike g a b)
    {as : List String} (has : row.mapM (entry f) = .ok as) :
    ∃ bs, row.mapM (entry g) = .ok bs ∧ List.Forall₂ (Alike g) as bs := by
  induction row generalizing as with
  | nil =>
      injection has with has
      subst has
      exact ⟨[], rfl, .nil⟩
  | cons token row ih =>
      rw [List.forall_mem_cons] at h
      rw [List.mapM_cons] at has
      obtain ⟨a, ha, has⟩ := bind_eq_ok_iff.mp has
      obtain ⟨as, hrow, has⟩ := bind_eq_ok_iff.mp has
      injection has with has
      subst has
      obtain ⟨b, hb, hab⟩ := h.1 a ha
      obtain ⟨bs, hbs, halike⟩ := ih h.2 hrow
      exact ⟨b :: bs, by rw [List.mapM_cons, hb, ok_bind, hbs]; rfl, .cons hab halike⟩

end Rpn

namespace Session

/-- Evaluation after a change of the precision is evaluation of the expression parsed again,
provided that both precisions round every imaginary literal to the same number. -/
theorem evaluate_setPrecision (s : Session) (places : ℕ) (hplaces : places ≤ 2147483647)
    (text : String) (parsed : Session)
    (hparse : s.parse (.text text) = .ok parsed)
    (hsame : ∀ n hn, .ok (Token.number (Literal.imaginary n hn).name) ∈ Expression.tokens text →
      (Literal.factor n).settled s.precision = (Literal.factor n).settled places)
    (value : Quantity) :
    ∃ reparsed, parse { s with precision := places } (.text text) = .ok reparsed ∧
      (parsed.setPrecision (.integer places) >>= fun changed => changed.evaluate value) =
        reparsed.evaluate value := by
  obtain ⟨hblank, rpn, hconvert, rfl⟩ := parse_text_eq_ok.mp hparse
  let changed : Session := { s with precision := places }
  obtain ⟨tokens, row, htokens, harrange, hentries, hrow⟩ :=
    Rpn.exists_row_of_convertExpression (f := s.format) rfl hconvert
  have halike : ∀ token ∈ row, ∀ a, Rpn.entry s.format token = .ok a →
      ∃ b, Rpn.entry changed.format token = .ok b ∧ Rpn.Alike changed.format a b := by
    intro token htoken a ha
    obtain ⟨hmem, hlisted⟩ := hrow token htoken
    refine Rpn.exists_alike_entry rfl rfl hplaces hlisted ?_ ha
    rintro n hn rfl
    apply hsame n hn
    rw [htokens]
    exact List.mem_map_of_mem hmem
  obtain ⟨entries, hentries', hforall⟩ := Rpn.exists_alike_entries halike hentries
  have hconvert' : Rpn.convertExpression changed.format text = .ok entries.reverse := by
    rw [Rpn.convertExpression, htokens]
    change Rpn.convert changed.format tokens = _
    rw [Rpn.convert_of_arrange harrange, hentries']
    rfl
  refine ⟨{ changed with stored := entries.reverse }, ?_, ?_⟩
  · exact parse_text_eq_ok.mpr ⟨hblank, _, hconvert', rfl⟩
  · have hsame : List.Forall₂ (Rpn.Alike changed.format) rpn entries.reverse := by
      rw [← List.forall₂_reverse_iff, List.reverse_reverse]
      exact hforall
    have hempty {as bs : List String} (h : List.Forall₂ (Rpn.Alike changed.format) as bs) :
        as.isEmpty = bs.isEmpty := by
      cases h <;> rfl
    change evaluate { changed with stored := rpn } value = _
    rw [evaluate, evaluate]
    dsimp only
    rw [hempty hsame]
    exact congrArg (fun outcome => if entries.reverse.isEmpty then _ else outcome >>= _)
      (Rpn.evaluate_of_alike hsame value)

/-- No digit of `2I` is lost when it is parsed without decimal places. -/
theorem evaluate_setPrecision_double :
    ∃ parsed reparsed, (⟨0, []⟩ : Session).parse (.text "2I*var") = .ok parsed ∧
      (⟨3, []⟩ : Session).parse (.text "2I*var") = .ok reparsed ∧
      (parsed.setPrecision (.integer (3 : ℕ)) >>= fun changed => changed.evaluate (.real .one)) =
        .ok "0.000 + 2.000I" ∧
      reparsed.evaluate (.real .one) = .ok "0.000 + 2.000I" := by
  have htokens : Expression.tokens "2I*var" =
      [.ok (.number "2I"), .ok (.binary .mul), .ok .freeVariable] := by
    rfl
  have hread : (⟨0, "I"⟩ : ComplexFormat).read ("0+" ++ "2I") =
      .ok ⟨.zero, Decimal.nearest false ⟨2, 0⟩⟩ := by
    apply eq_ok_of_toOption
    decide +kernel
  have hsettled : (Decimal.nearest false ⟨2, 0⟩).settled 0 =
      (Decimal.nearest false ⟨2, 0⟩).settled 3 := by
    decide +kernel
  have hconvert : Rpn.convertExpression (⟨0, []⟩ : Session).format "2I*var" =
      .ok ["*", "var", "0 + 2I"] := by
    apply eq_ok_of_toOption
    decide +kernel
  have hparse : (⟨0, []⟩ : Session).parse (.text "2I*var") = .ok ⟨0, ["*", "var", "0 + 2I"]⟩ :=
    parse_text_eq_ok.mpr ⟨by decide, _, hconvert, rfl⟩
  have hchanged : (⟨0, ["*", "var", "0 + 2I"]⟩ : Session).setPrecision (.integer (3 : ℕ)) =
      .ok ⟨3, ["*", "var", "0 + 2I"]⟩ := rfl
  have hresult : (⟨3, ["*", "var", "0 + 2I"]⟩ : Session).evaluate (.real .one) =
      .ok "0.000 + 2.000I" := by
    apply eq_ok_of_toOption
    decide +kernel
  have hfactor : ∀ n hn, .ok (Token.number (Literal.imaginary n hn).name) ∈
      Expression.tokens "2I*var" → (Literal.factor n).settled 0 = (Literal.factor n).settled 3 := by
    intro n hn hmem
    simp only [htokens, List.mem_cons, List.not_mem_nil, or_false, Except.ok.injEq] at hmem
    rcases hmem with hmem | hmem | hmem
    · have hname : (Literal.imaginary n hn).name = "2I" := congrArg Token.name hmem
      have hnumber := Literal.read_imaginary (f := ⟨0, "I"⟩) rfl n hn
      rw [hname, Literal.number, hread, Except.ok.injEq, ComplexNumber.mk.injEq] at hnumber
      rwa [hnumber.2] at hsettled
    · have hkind : some TokenKind.number = some .operator := congrArg Token.kind hmem
      exact absurd hkind (by decide)
    · have hkind : some TokenKind.number = some .freeVariable := congrArg Token.kind hmem
      exact absurd hkind (by decide)
  obtain ⟨reparsed, hreparse, hsame⟩ :=
    evaluate_setPrecision ⟨0, []⟩ 3 (by decide) "2I*var" _ hparse hfactor (.real .one)
  rw [hchanged, ok_bind, hresult] at hsame
  refine ⟨_, reparsed, hparse, hreparse, ?_, hsame.symm⟩
  rw [hchanged, ok_bind, hresult]

/-- One half is rounded away when it is parsed without decimal places. -/
theorem evaluate_setPrecision_half :
    ((⟨0, []⟩ : Session).parse (.text "0.5I") >>= fun parsed =>
      parsed.setPrecision (.integer 1) >>= fun changed => changed.evaluate .absent) =
        .ok "0.0 + 0.0I" ∧
    ((⟨1, []⟩ : Session).parse (.text "0.5I") >>= fun reparsed => reparsed.evaluate .absent) =
        .ok "0.0 + 0.5I" := by
  constructor <;>
    · apply eq_ok_of_toOption
      decide +kernel

end Session

end ComplexCalculator
