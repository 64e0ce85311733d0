import ComplexCalculator.Proofs.Expression.AcceptedText

/-!
# What is recognized as a token

A piece of an expression is a delimiter or contains none, so that the only tokens are
brackets, separators, operations, the variable and numbers.  A number whose entry can be
written is a literal: a text around the imaginary unit that the reader of complex numbers
accepts behind `0+` has no other form.
-/

namespace ComplexCalculator

open Alphabet (isDelimiter)
open Text (isBlank)

/-! ## Pieces -/

namespace Expression

/-- A piece without delimiters and blanks. -/
def Undivided (piece : List Char) : Prop :=
  ∀ c ∈ piece, isDelimiter c = false ∧ isBlank c = false

theorem mem_consWord {word piece : List Char} {pieces : List (List Char)}
    (h : piece ∈ consWord word pieces) : piece = word ∨ piece ∈ pieces := by
  unfold consWord at h
  split_ifs at h
  · exact Or.inr h
  · exact List.mem_cons.mp h

theorem undivided_splitWord (text : List Char) :
    Undivided (splitWord text).1 ∧
      ∀ piece ∈ (splitWord text).2,
        (∃ c, isDelimiter c = true ∧ piece = [c]) ∨ Undivided piece := by
  induction text with
  | nil => simp [splitWord, Undivided]
  | cons c rest ih =>
      obtain ⟨hword, hpieces⟩ := ih
      have hcons : ∀ piece ∈ consWord (splitWord rest).1 (splitWord rest).2,
          (∃ c, isDelimiter c = true ∧ piece = [c]) ∨ Undivided piece := by
        intro piece hpiece
        rcases mem_consWord hpiece with rfl | hpiece
        · exact Or.inr hword
        · exact hpieces piece hpiece
      rw [splitWord]
      dsimp only
      split_ifs with hdelimiter hblank
      · refine ⟨by simp [Undivided], ?_⟩
        rw [List.forall_mem_cons]
        exact ⟨Or.inl ⟨c, hdelimiter, rfl⟩, hcons⟩
      · exact ⟨by simp [Undivided], hcons⟩
      · refine ⟨?_, hpieces⟩
        rw [Undivided, List.forall_mem_cons]
        exact ⟨⟨Bool.eq_false_iff.mpr hdelimiter, Bool.eq_false_iff.mpr hblank⟩, hword⟩

/-- A piece is a delimiter or contains none. -/
theorem delimiter_or_undivided {text piece : List Char} (h : piece ∈ splitChars text) :
    (∃ c, isDelimiter c = true ∧ piece = [c]) ∨ Undivided piece := by
  obtain ⟨hword, hpieces⟩ := undivided_splitWord text
  rw [splitChars] at h
  rcases mem_consWord h with rfl | h
  · exact Or.inr hword
  · exact hpieces piece h

end Expression

/-! ## Tokens -/

namespace Token

/-- The tokens that a text may consist of; what counts as a number is left open. -/
inductive Recognized (number : String → Prop) : Token → Prop where
  | openBracket : Recognized number .openBracket
  | closeBracket : Recognized number .closeBracket
  | separator : Recognized number .separator
  | unary (operation : UnaryOperation) : Recognized number (.unary operation)
  | binary (operation : BinaryOperation) : Recognized number (.binary operation)
  | freeVariable : Recognized number .freeVariable
  | number {name : String} : number name → Recognized number (.number name)

theorem Recognized.mono {p q : String → Prop} (h : ∀ name, p name → q name) {token : Token}
    (htoken : Recognized p token) : Recognized q token := by
  cases htoken with
  | openBracket => exact .openBracket
  | closeBracket => exact .closeBracket
  | separator => exact .separator
  | unary operation => exact .unary operation
  | binary operation => exact .binary operation
  | freeVariable => exact .freeVariable
  | number hname => exact .number (h _ hname)

theorem classify_eq_ok {text : String} {token : Token} (h : classify text = .ok token) :
    Recognized (fun name => name = text ∧ isNumber name = true) token := by
  unfold classify at h
  split at h
  · rename_i kind hkind
    injection h with h
    subst h
    unfold bracketKind? at hkind
    split_ifs at hkind with hopen hclose hseparator <;> injection hkind with hkind <;> subst hkind
    · subst hopen
      exact .openBracket
    · subst hclose
      exact .closeBracket
    · subst hseparator
      exact .separator
  · rename_i operation _ _
    injection h with h
    subst h
    cases operation with
    | unary operation => exact .unary operation
    | binary operation => exact .binary operation
  · split_ifs at h with hvariable hnumber
    · injection h with h
      subst h hvariable
      exact .freeVariable
    · injection h with h
      subst h
      exact .number ⟨rfl, hnumber⟩

/-- A delimiter is no number. -/
theorem isNumber_delimiter {c : Char} (h : isDelimiter c = true) :
    isNumber (String.ofList [c]) = false := by
  simp only [isDelimiter, Alphabet.operators, Bool.or_eq_true, beq_iff_eq, List.contains_eq_mem,
    List.mem_cons, List.not_mem_nil, or_false, decide_eq_true_eq] at h
  rcases h with (((h | h | h | h) | h) | h) | h <;> subst h <;> decide

end Token

/-- What the tokens of an expression are. -/
theorem Expression.recognized_of_mem_tokens {text : String} {token : Token}
    (h : .ok token ∈ tokens text) :
    token.Recognized fun name => Token.isNumber name = true ∧ Undivided name.toList := by
  obtain ⟨name, hname, htoken⟩ := List.mem_map.mp h
  obtain ⟨piece, hpiece, rfl⟩ := List.mem_map.mp hname
  refine (Token.classify_eq_ok htoken).mono ?_
  rintro _ ⟨rfl, hnumber⟩
  refine ⟨hnumber, ?_⟩
  rw [String.toList_ofList]
  rcases delimiter_or_undivided hpiece with ⟨c, hc, rfl⟩ | hpiece
  · exact absurd hnumber (Bool.eq_false_iff.mp (Token.isNumber_delimiter hc))
  · exact hpiece

/-! ## Numbers -/

namespace Literal

theorem exists_real {name : String} (h : Token.isRealLiteral name = true) :
    ∃ n hn, (real n hn).name = name := by
  obtain ⟨d, hd⟩ := Option.isSome_iff_exists.mp h
  obtain ⟨n, htext, -, hn⟩ := Decimal.exists_numeral_of_read? hd
  refine ⟨n, hn.resolve_left (by simp), ?_⟩
  rw [Literal.name, text, htext, String.ofList_toList]

theorem isSign_of_mem_text {l : Literal} {c : Char} (h : c ∈ l.text) :
    Alphabet.isSign c = false := by
  by_contra hsign
  rw [Bool.not_eq_false, Alphabet.isSign, Bool.or_eq_true, beq_iff_eq, beq_iff_eq] at hsign
  rcases mem_text h with hdigit | hmark
  · rcases hsign with rfl | rfl <;> revert hdigit <;> decide
  · rcases hsign with rfl | rfl <;> revert hmark <;> decide

/-- Behind a zero and a plus stands an imaginary literal. -/
theorem exists_imaginary_of_text {c : ComplexLiteral} {rest : List Char}
    (h : c.text = '0' :: '+' :: rest) : ∃ n hn, (imaginary n hn).text = rest := by
  have hunsigned {sign : Option Bool} {body : List Char}
      (h : (sign.map signChar).toList ++ body = '0' :: '+' :: rest) :
      body = '0' :: '+' :: rest := by
    cases sign with
    | none => exact h
    | some negative =>
        have hhead := (List.cons.inj h).1
        cases negative <;> exact absurd hhead (by decide)
  cases c with
  | single sign l =>
      have hsign : Alphabet.isSign '+' = false := by
        apply isSign_of_mem_text (l := l)
        rw [hunsigned h]
        simp
      exact absurd hsign (by decide)
  | pair sign n hn negative m hm =>
      have hkept : ∀ c ∈ n.text, (!Alphabet.isSign c) = true := by
        intro c hc
        rw [isSign_of_mem_text (l := real n hn) hc]
        rfl
      rw [ComplexLiteral.text, List.append_assoc, List.append_assoc] at h
      -- The first sign on either side ends the real part.
      have hcut := congrArg (List.dropWhile (!Alphabet.isSign ·)) (hunsigned h)
      rw [List.dropWhile_append_of_pos hkept] at hcut
      have hsign : ¬(!Alphabet.isSign (signChar negative)) = true := by cases negative <;> decide
      have hright : List.dropWhile (!Alphabet.isSign ·) ('0' :: '+' :: rest) = '+' :: rest := rfl
      rw [List.cons_append, List.dropWhile_cons_of_neg (p := (!Alphabet.isSign ·)) hsign,
        hright] at hcut
      exact ⟨m, hm, (List.cons.inj hcut).2⟩

/-- What the reader accepts behind a zero and a plus is an imaginary literal. -/
theorem exists_imaginary_of_read {f : ComplexFormat}
    (hsymbol : f.symbol = Alphabet.imaginaryUnit.toString) {name : String}
    (hname : Expression.Undivided name.toList) {z : ComplexNumber}
    (hread : f.read ("0+" ++ name) = .ok z) : ∃ n hn, (imaginary n hn).name = name := by
  have htext : ("0+" ++ name).toList = '0' :: '+' :: name.toList := String.toList_append
  have hsigns : ∀ c ∈ name.toList, c ≠ '+' ∧ c ≠ '-' ∧ c ≠ '(' := by
    intro c hc
    refine ⟨?_, ?_, ?_⟩ <;> rintro rfl <;> exact absurd (hname _ hc).1 (by decide)
  have hkept : Text.dropBlanks ("0+" ++ name).toList = '0' :: '+' :: name.toList := by
    rw [htext]
    apply ComplexFormat.dropBlanks_of_not_blank
    rw [List.forall_mem_cons, List.forall_mem_cons]
    exact ⟨by decide, by decide, fun c hc => (hname c hc).2⟩
  have hplain : ComplexFormat.Unmarked ('0' :: '+' :: name.toList) := by
    apply ComplexFormat.unmarked_of_not_bracket
    intro hbracket
    rcases List.mem_cons.mp hbracket with hbracket | hbracket
    · exact absurd hbracket (by decide)
    · rcases List.mem_cons.mp hbracket with hbracket | hbracket
      · exact absurd hbracket (by decide)
      · exact (hsigns _ hbracket).2.2 rfl
  -- The plus stands behind the zero, and the name itself has no sign.
  have hexponents : UnsignedExponents ('0' :: '+' :: name.toList) := by
    intro before letter sign after heq hletter
    match before, heq with
    | [], heq =>
        rw [← (List.cons.inj heq).1] at hletter
        exact absurd hletter (by decide)
    | [_], heq =>
        rw [← (List.cons.inj (List.cons.inj heq).2).1] at hletter
        exact absurd hletter (by decide)
    | _ :: _ :: before, heq =>
        have hsign : sign ∈ name.toList := by
          rw [(List.cons.inj (List.cons.inj heq).2).2]
          simp
        exact ⟨(hsigns sign hsign).1, (hsigns sign hsign).2.1⟩
  rw [ComplexFormat.read_eq_ok, ComplexFormat.read?, hkept,
    ComplexFormat.toList_symbol hsymbol] at hread
  obtain ⟨c, hc, -⟩ := exists_complexLiteral hread hplain hexponents
  obtain ⟨n, hn, hn'⟩ := exists_imaginary_of_text hc
  exact ⟨n, hn, by rw [Literal.name, hn', String.ofList_toList]⟩

/-- A number whose entry can be written is a literal. -/
theorem exists_of_literalEntry {f : ComplexFormat}
    (hsymbol : f.symbol = Alphabet.imaginaryUnit.toString) {name : String}
    (hnumber : Token.isNumber name = true) (hname : Expression.Undivided name.toList)
    {entry : String} (hentry : Rpn.literalEntry f name = .ok entry) :
    ∃ l : Literal, l.name = name := by
  rw [Rpn.literalEntry] at hentry
  split_ifs at hentry with hunit himaginary
  · exact ⟨.imaginary none (by simp), hunit.symm⟩
  · obtain ⟨z, hread, -⟩ := bind_eq_ok_iff.mp hentry
    obtain ⟨n, hn, hname⟩ := exists_imaginary_of_read hsymbol hname hread
    exact ⟨.imaginary n hn, hname⟩
  · rw [Token.isNumber, Bool.or_eq_true] at hnumber
    obtain ⟨n, hn, hname⟩ := exists_real (hnumber.resolve_right himaginary)
    exact ⟨.real n hn, hname⟩

end Literal

end ComplexCalculator
