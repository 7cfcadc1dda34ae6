import InfluxQL.Proofs.Grammar.Operands
import InfluxQL.Proofs.Token.OperandEnd

/-!
# Where operands end

Whatever an operand is, its last token is of a kind that ends one: a closing parenthesis, a name, a
literal, a parameter, or a regular expression behind an operator that matches one. Only a dotted name may
end with a dot instead, and then the next character tells.

* `Scanner.BehindOperand`: an operand ends right before the scanner;
* `Grammar.OperandEnds`: an operand ends, perhaps with the dot of a name;
* `Grammar.operand_ends`, `Grammar.rightOperand_ends`: this is where operands come to.
-/

namespace InfluxQL

open Production Scanner

namespace Scanner

/-- An operand ends right before the scanner. -/
structure BehindOperand (c : Scanner) : Prop where
  afterOperand : c.afterOperand
  firm : ∃ x ∈ c.cursor.behind.head?, Lexeme.isFirm x

variable {c : Scanner} {l : Lexeme} {rest : List Char}

theorem behindOperand_take (hk : l.kind.endsOperand)
    (hf : Lexeme.EndsFirm (c.cursor.ahead.take l.width)) : (c.take l).2.BehindOperand where
  afterOperand := by
    have hblank : l.kind ≠ .blank := by
      intro h
      rw [h] at hk
      cases hk
    simpa [Scanner.take, Scanner.afterOperand, hblank] using hk
  firm := by
    obtain ⟨x, hx, hfirm⟩ := hf
    refine ⟨x, ?_, hfirm⟩
    show x ∈ ((c.cursor.ahead.take l.width).reverse ++ c.cursor.behind).head?
    rw [List.head?_append, List.head?_reverse, Option.mem_def.1 hx]
    rfl

/-- Behind a token that ends an operand. -/
theorem behindOperand_scan (h : c.scan.1.kind.endsOperand) : c.scan.2.BehindOperand := by
  cases hl : Lexeme.next? c.afterOperand c.cursor.ahead with
  | none =>
    rw [scan_of_end (Lexeme.next?_eq_none_iff.1 hl)] at h
    cases h
  | some l =>
    rw [scan_of_lexeme hl] at h ⊢
    exact behindOperand_take h (Lexeme.endsFirm_of_endsOperand hl h)

/-- Behind a regular expression. -/
theorem behindOperand_regex (ha : c.cursor.ahead = '/' :: rest)
    (hk : (c.regex rest).1.kind = .regex) : (c.regex rest).2.BehindOperand := by
  have hk : (Lexeme.regex rest).kind = .regex := hk
  refine behindOperand_take (by rw [hk]; rfl) ?_
  rw [ha]
  exact Lexeme.endsFirm_regex hk

end Scanner

namespace Grammar

variable {c c' : Scanner} {params : Params} {steps : Nat} {nested : Production Expr}

/-- An operand ends here. Unless its last token tells so the next character does. -/
def OperandEnds (c : Scanner) : Prop :=
  c.BehindOperand ∨ EndsName c ∨ c.cursor.ahead.head? = some '.'

theorem operandEnds_scan (h : c.scan.1.kind.endsOperand) : OperandEnds c.scan.2 :=
  .inl (behindOperand_scan h)

theorem operandEnds_of_kind {k : TokenKind} (h : c.scan.1.kind = k) (hk : k.endsOperand) :
    OperandEnds c.scan.2 :=
  operandEnds_scan (by rwa [h])

theorem FurtherSegments.operandEnds {taken : List Token} {names : List String}
    (h : FurtherSegments c taken names c') (hc : OperandEnds c) : OperandEnds c' := by
  induction h with
  | done => exact hc
  | dropped _ ends => exact .inr (.inl ends)
  | empty _ next _ ih => exact ih (.inr (.inr next))
  | named _ _ ident _ ih => exact ih (operandEnds_of_kind ident rfl)

theorem ReferenceRead.operandEnds {v : VarRef} (h : ReferenceRead c v c') : OperandEnds c' := by
  cases h with
  | untyped name _ =>
    cases name with
    | intro first further _ => exact further.operandEnds (operandEnds_of_kind first rfl)
  | typed _ _ ident _ behind =>
    subst behind
    exact operandEnds_of_kind ident rfl

/-- Only a token of a kind that ends an operand is one. -/
theorem endsOperand_of_tokenOperand {t : Token} {s s' : TokenStream} {e : Expr}
    (h : tokenOperand params t s = .ok (e, s')) : t.kind.endsOperand := by
  unfold tokenOperand at h
  generalize t.kind = k at h ⊢
  cases k <;> first | rfl | cases h

/-- An operand that is a single token ends with this token. -/
theorem tokenOperand_ends (params : Params) (c : Scanner) :
    (tokenOperand params c.scan.1).ComesTo c.scan.2 fun _ c' => OperandEnds c' := by
  intro s e s' hs h
  obtain ⟨c', hc', hgo⟩ := (tokenOperandTrace params c.scan.1).passes hs
  change c.scan.2.Passes [] c' at hc'
  cases hc'
  exact ⟨_, operandEnds_scan (endsOperand_of_tokenOperand h), hgo e s' h⟩

variable [PatternCompiler]

/-- A regular expression, if there is one, ends with its last slash. -/
theorem regex?_ends (c : Scanner) : regex?.ComesTo c fun p? c' => p?.isSome → OperandEnds c' := by
  rw [regex?_eq]
  refine (skipBlankCharacterTrace.comesTo c).bind fun _ d _ => .atSlash (fun rest ha => ?_)
    fun _ => .pure (by simp)
  intro s p? s' hs h
  obtain ⟨c', hc', hgo⟩ := (regexLiteralTrace (d.regex rest).1).passes hs
  change (d.regex rest).2.Passes [] c' at hc'
  cases hc'
  refine ⟨_, fun _ => .inl (behindOperand_regex ha ?_), hgo p? s' h⟩
  refine Decidable.byContradiction fun hk => ?_
  obtain ⟨e, he⟩ := regexLiteral_fails hk s
  rw [he] at h
  cases h

theorem matchOperand_ends (c : Scanner) : matchOperand.ComesTo c fun _ c' => OperandEnds c' := by
  refine ComesTo.skipBlank.next fun _ => (regex?_ends _).bind fun p? d hd => ?_
  split
  · exact .pure (hd rfl)
  · exact .significant (.take .unexpected)

section Nested

variable (T : Trace nested)
include T

theorem arguments_ends (first : Expr) (c : Scanner) :
    (arguments steps nested first).ComesTo c fun _ c' => OperandEnds c' :=
  ((Trace.loop .argument (furtherArgumentTrace T) steps [first]).comesTo c).bind fun _ _ _ =>
    .expect fun hk => .pure (operandEnds_of_kind hk rfl)

theorem callArguments_ends (c : Scanner) :
    (callArguments steps nested).ComesTo c fun _ c' => OperandEnds c' := by
  refine (regexTrace.comesTo c).bind fun p? d _ => ?_
  split
  · exact arguments_ends T _ d
  · refine .lookFor (fun hk => .pure (operandEnds_of_kind hk rfl)) fun _ => ?_
    exact (T.comesTo d).bind fun e d' _ => arguments_ends T e d'

theorem callOrReference_ends (c : Scanner) (hk : c.scan.1.kind = .ident) :
    (callOrReference steps nested c.scan.1).ComesTo c.scan.2 fun _ c' => OperandEnds c' := by
  refine .lookFor (fun _ => ?_) fun _ => ?_
  · exact (callArguments_ends T _).bind fun args d hd => .pure hd
  · exact (reference_comesTo steps c hk).bind fun v d hv => .pure hv.operandEnds

/-- **An operand ends where its last token tells so**, or the next character. -/
theorem operand_ends (c : Scanner) :
    (operand params steps nested).ComesTo c fun _ c' => OperandEnds c' := by
  rw [operand_eq]
  refine .significant (.take (.ite (fun _ => ?_) fun _ => .ite (fun hk => ?_) fun _ => ?_))
  · exact (T.comesTo _).bind fun e d _ =>
      .expectSignificant fun hk => .pure (operandEnds_of_kind hk rfl)
  · exact callOrReference_ends T _ hk
  · exact tokenOperand_ends params _

theorem rightOperand_ends (op : Operator) (c : Scanner) :
    (rightOperand params steps nested op).ComesTo c fun _ c' => OperandEnds c' :=
  .ite (fun _ => matchOperand_ends c) fun _ => operand_ends T c

end Nested

end Grammar

end InfluxQL
