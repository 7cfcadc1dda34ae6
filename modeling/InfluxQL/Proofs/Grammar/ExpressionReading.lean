import InfluxQL.Proofs.Grammar.ExpressionLayout

/-!
# Expressions are read back from their texts

The text of an expression is read operand by operand, whatever stands behind it, as long as that does
not go on with the last operand.

* `Grammar.OperandReads`, `Grammar.ExpressionReads`: an operand, or an expression, is read from its
  text, with as many steps as that text has characters;
* `Grammar.SpineReads`: what can be said of the operands of a tree, by induction on the tree;
* `Grammar.canonical_reads`: canonical trees are read;
* `parseExpr_text`: the statement for a whole text;
* `parseExpr_text_backslash`: a pattern for which there is no text.
-/

namespace InfluxQL

namespace Grammar

open Production Lexeme

variable [PatternCompiler]
variable {b : Bool} {text rest : List Char}

/-! ### Regular expressions -/

theorem pattern_reads {t : Token} (h : Compiles t.lit) :
    (pattern t).Reads b text t.lit b text := by
  rw [pattern_of_compiles h]
  exact .pure _

/-- A regular expression, here or after blanks. -/
theorem regex?_reads {p : String} (hp : ReadablePattern p)
    (ht : pastBlankCharacter text = quoteRegex p.toList ++ rest) :
    regex?.Reads b text (some p) true rest := by
  have hl := Lexeme.regex_escape hp.writable rest
  refine skipBlankCharacter_reads.bind (.peek? ?_)
  rw [ht, quoteRegex, List.cons_append, List.append_assoc, List.singleton_append]
  refine .scanRegex fun t hk ht => ?_
  rw [hl] at hk ht ⊢
  rw [String.ofList_toList] at ht
  have hd : ('/' :: (RegexBody.escape p.toList ++ '/' :: rest)).drop
      ((RegexBody.escape p.toList).length + 2) = rest := by
    simp
  simp only [hk, hd]
  subst ht
  exact (pattern_reads hp.compiles).bind (.pure rfl)

/-- No regular expression. -/
theorem regex?_reads_none (ht : pastBlankCharacter text = rest) (hr : rest.head? ≠ some '/') :
    regex?.Reads b text none b rest := by
  subst ht
  refine skipBlankCharacter_reads.bind (.peek? ?_)
  split
  · next h => exact absurd h hr
  · exact .pure rfl

/-! ### Operands without parts -/

section Operands

variable (params : Params) {steps : Nat} (nested : Production Expr)

theorem operand_reads_var (hs : 0 < steps) {v : VarRef} (ht : pastBlank text = v.render ++ rest)
    (hr : Delimited rest) :
    (operand params steps nested).Reads false text (.atom (.var v)) true rest := by
  rw [VarRef.render, List.append_assoc] at ht
  refine .significantWord _ ht (next?_renderName false v.name (noWordPart_of_type v.type hr))
    (by decide) fun t hk hl => ?_
  simp only [hk]
  refine .lookPast (nextKind_type_ne_leftParen v.type hr) ?_
  exact (reference_reads hs (by simpa using hl) hr).bind (.pure rfl)

/-- A literal is one token. -/
theorem operand_reads_literal {a : Atom} (hv : ∀ v, a ≠ .var v) (hx : (Expr.atom a).isRegex = false)
    (hf : (Expr.atom a).FiniteNumber) (ht : pastBlank text = a.render ++ rest)
    (hr : Delimited rest) : (operand params steps nested).Reads false text (.atom a) true rest := by
  cases a with
  | var v => exact absurd rfl (hv v)
  | string value =>
    refine .significantWord _ ht (next?_quoteString false value.toList rest) (by decide)
      fun t hk hl => ?_
    simp only [hk, hl, String.ofList_toList]
    exact .pure rfl
  | number x =>
    refine .significantWord _ ht (next?_ofDouble hf hr) (by decide) fun t hk hl => ?_
    simp only [hk, hl, String.toList_ofList, Decimal.double_ofDouble hf]
    exact .pure rfl
  | integer n =>
    refine .significantWord _ ht (next?_ofInteger n hr) (by decide) fun t hk hl => ?_
    simp only [hk, hl, String.toList_ofList, Decimal.integer?_ofInteger]
    exact .pure rfl
  | boolean value =>
    refine .significantWord _ ht (next?_boolean false value hr.noWordPart) (by simp)
      fun t hk hl => ?_
    simp only [hk]
    exact .pure rfl
  | regex p => cases hx

end Operands

/-! ### Expressions within others -/

/-- The operand is read from its text with as many steps as the text has characters. -/
def OperandReads (params : Params) (o : Expr) : Prop :=
  ∀ {n : Nat} {text rest : List Char}, o.render.length ≤ n → pastBlank text = o.render ++ rest →
    Delimited rest → (operand params n (expression params n)).Reads false text o true rest

/-- The expression is read from its text with one step more than the text has characters. -/
def ExpressionReads (params : Params) (e : Expr) : Prop :=
  ∀ {n : Nat} {text rest : List Char}, e.render.length < n → pastBlank text = e.render ++ rest →
    Delimited rest → (nextKind true (pastBlank rest)).operator? = none →
      (expression params n).Reads false text e true (pastBlank rest)

section Compound

variable {params : Params} {n : Nat}

theorem operand_reads_paren {e : Expr} (hs : Starts e) (he : ExpressionReads params e) :
    OperandReads params (.paren e) := by
  intro n text rest hn ht hr
  have hd : Delimited (')' :: rest) := delimited_cons (by simp)
  have hk : nextKind true (')' :: rest) = .rightParen := by simp [nextKind, next?_rightParen]
  have hp : pastBlank (')' :: rest) = ')' :: rest :=
    pastBlank_of_nextKind (b := true) (by simp [hk])
  simp only [Expr.render, List.cons_append, List.append_assoc] at ht
  simp only [Expr.render, List.length_cons, List.length_append] at hn
  refine .significantWord ['('] ht (next?_leftParen false _) (by decide) fun t hk' _ => ?_
  simp only [hk']
  refine (he (by omega) (pastBlank_of_startsOperand (hs hd)) hd (by rw [hp, hk]; rfl)).bind ?_
  rw [hp]
  refine .significantWord [')'] hp (next?_rightParen true rest) (by decide) fun t hk' _ => ?_
  rw [if_pos hk']
  exact .pure rfl

/-! ### Arguments -/

/-- An argument: a regular expression, or an expression that is none. -/
def ArgumentReads (params : Params) (e : Expr) : Prop :=
  (∃ p, e = .atom (.regex p) ∧ ReadablePattern p) ∨ (Starts e ∧ ExpressionReads params e)

theorem nested_reads {e : Expr} (hs : Starts e) (he : ExpressionReads params e)
    (hn : e.render.length < n) (hr : EndsArgument rest) :
    (expression params n).Reads false (e.render ++ rest) e true rest := by
  have := he hn (pastBlank_of_startsOperand (hs hr.delimited)) hr.delimited
    (by rw [hr.pastBlank_eq]; exact hr.operator?_eq)
  rwa [hr.pastBlank_eq] at this

/-- An argument behind a comma. -/
theorem argument_reads {e : Expr} (he : ArgumentReads params e) (hn : e.render.length < n)
    (hr : EndsArgument rest) :
    (argument (expression params n)).Reads false (' ' :: (e.render ++ rest)) e true rest := by
  rcases he with ⟨p, rfl, hp⟩ | ⟨hs, he⟩
  · exact (regex?_reads hp (pastBlankCharacter_quoteRegex ..).2).bind (.pure rfl)
  · have hk := hs hr.delimited
    exact (regex?_reads_none (pastBlankCharacter_of_startsOperand hk).2
      (head?_of_startsOperand hk).2).bind (nested_reads hs he hn hr)

/-- The arguments behind the first, up to the parenthesis that closes the call. -/
theorem furtherArguments_reads {args : List Expr} (ha : ∀ e ∈ args, ArgumentReads params e)
    (hn : (renderFurther (Expr.renderAll args)).length < n) (m : Nat) (hm : args.length < m)
    (before : List Expr) : (loop (furtherArgument (expression params n)) m before).Reads true
      (renderFurther (Expr.renderAll args) ++ ')' :: rest) (before ++ args) true (')' :: rest) := by
  induction args generalizing m before with
  | nil =>
    obtain ⟨m, rfl⟩ := Nat.exists_eq_add_of_lt hm
    rw [List.append_nil]
    exact Reads.lastRound (.lookPastSignificant (pastBlank_eq_self rfl)
      (by simp [renderFurther, Expr.renderAll, nextKind, next?_rightParen]) (.pure rfl)) rfl
  | cons e args ih =>
    obtain ⟨m, rfl⟩ := Nat.exists_eq_add_of_lt hm
    rw [List.forall_mem_cons] at ha
    rw [Expr.renderAll, length_renderFurther_cons] at hn
    have hends := endsArgument_renderFurther (Expr.renderAll args) rest
    have hround : (furtherArgument (expression params n) before).Reads true
        (renderFurther (Expr.renderAll (e :: args)) ++ ')' :: rest) (.inl (before ++ [e])) true
        (renderFurther (Expr.renderAll args) ++ ')' :: rest) := by
      rw [Expr.renderAll, renderFurther_cons]
      refine .significantWord [','] (pastBlank_eq_self rfl) (next?_comma true _) (by decide)
        fun t hk _ => ?_
      rw [if_pos hk]
      exact (argument_reads ha.1 (by omega) hends).bind (.pure rfl)
    have hnext := ih ha.2 (by omega) ((e :: args).length + m)
      (by simp only [List.length_cons]; omega) (before ++ [e])
    exact hround.round (by simpa using hnext)

/-- The arguments behind the first, and the parenthesis that closes the call. -/
theorem arguments_reads {first : Expr} {args : List Expr}
    (ha : ∀ e ∈ args, ArgumentReads params e)
    (hn : (renderFurther (Expr.renderAll args)).length < n) :
    (arguments n (expression params n) first).Reads true
      (renderFurther (Expr.renderAll args) ++ ')' :: rest) (first :: args) true rest := by
  have hl : (Expr.renderAll args).length = args.length := by simp [Expr.renderAll_eq_map]
  have := length_le_renderFurther (Expr.renderAll args)
  refine (furtherArguments_reads ha hn n (by omega) [first]).bind ?_
  refine .word [')'] (next?_rightParen true rest) (by decide) fun t hk _ => ?_
  rw [if_pos hk]
  exact .pure rfl

theorem callArguments_reads {args : List Expr} (ha : ∀ e ∈ args, ArgumentReads params e)
    (hn : (commaSeparated (Expr.renderAll args)).length < n) :
    (callArguments n (expression params n)).Reads false
      (commaSeparated (Expr.renderAll args) ++ ')' :: rest) args true rest := by
  cases args with
  | nil =>
    have hnone : regex?.Reads false (')' :: rest) none false (')' :: rest) :=
      regex?_reads_none rfl (by simp)
    refine hnone.bind (.word [')'] (next?_rightParen false rest) (by decide) fun t hk _ => ?_)
    rw [if_pos hk]
    exact .pure rfl
  | cons e args =>
    rw [List.forall_mem_cons] at ha
    rw [Expr.renderAll, commaSeparated_cons, List.length_append] at hn
    have hrest : (arguments n (expression params n) e).Reads true
        (renderFurther (Expr.renderAll args) ++ ')' :: rest) (e :: args) true rest :=
      arguments_reads ha.2 (by omega)
    rw [Expr.renderAll, commaSeparated_cons, List.append_assoc]
    rcases ha.1 with ⟨p, rfl, hp⟩ | ⟨hs, he⟩
    · exact (regex?_reads hp (pastBlankCharacter_quoteRegex ..).1).bind hrest
    · have hends := endsArgument_renderFurther (Expr.renderAll args) rest
      have hk := hs hends.delimited
      refine (regex?_reads_none (pastBlankCharacter_of_startsOperand hk).1
        (head?_of_startsOperand hk).2).bind ?_
      refine .lookPast (fun h => by rw [h] at hk; cases hk) ?_
      exact (nested_reads hs he (by omega) hends).bind hrest

theorem operand_reads_call {name : String} {args : List Expr}
    (hname : Unicode.lowercase name.toList = name.toList)
    (ha : ∀ e ∈ args, ArgumentReads params e) : OperandReads params (.call name args) := by
  intro n text rest hn ht hr
  simp only [Expr.render, List.cons_append, List.append_assoc, List.nil_append] at ht
  simp only [Expr.render, List.length_cons, List.length_append] at hn
  have hw : NoWordPart ('(' :: (commaSeparated (Expr.renderAll args) ++ ')' :: rest)) := by
    rintro c ⟨⟩
    rfl
  have hargs : (callArguments n (expression params n)).Reads false
      (commaSeparated (Expr.renderAll args) ++ ')' :: rest) args true rest :=
    callArguments_reads ha (by omega)
  refine .significantWord _ ht (next?_renderName false name hw) (by decide) fun t hk hl => ?_
  simp only [hk]
  refine .word ['('] (next?_leftParen true _) (by decide) fun t' hk _ => ?_
  rw [if_pos hk, hl, String.toList_ofList, hname, String.ofList_toList]
  exact hargs.bind (.pure rfl)

/-! ### Chains -/

/-- The right operand of an operator: a regular expression if that is wanted, or else an operand
that is none. -/
def OperationReads (params : Params) (x : Operator × Expr) : Prop :=
  if x.1.isMatch then ∃ p, x.2 = .atom (.regex p) ∧ ReadablePattern p
  else Starts x.2 ∧ OperandReads params x.2

theorem rightOperand_reads {op : Operator} {e : Expr} (h : OperationReads params (op, e))
    (hn : e.render.length ≤ n) (hr : Delimited rest) :
    (rightOperand params n (expression params n) op).Reads false (' ' :: (e.render ++ rest)) e true
      rest := by
  unfold OperationReads at h
  unfold rightOperand
  split at h
  · next hm =>
    obtain ⟨p, rfl, hp⟩ := h
    rw [if_pos hm]
    exact Reads.skipBlank.bind
      ((regex?_reads hp (pastBlankCharacter_quoteRegex ..).1).bind (.pure rfl))
  · next hm =>
    rw [if_neg hm]
    exact h.2 hn (pastBlank_of_startsOperand (h.1 hr)) hr

theorem operation_reads {op : Operator} {e : Expr} (h : OperationReads params (op, e))
    (hn : e.render.length ≤ n) (hr : Delimited rest) (before : List (Operator × Expr)) :
    (operation params n (expression params n) before).Reads true
      (' ' :: (op.text.toList ++ ' ' :: (e.render ++ rest))) (.inl (before ++ [(op, e)])) true
      rest := by
  have hop := next?_operator (e.render ++ rest) op
  have hk : nextKind true (op.text.toList ++ ' ' :: (e.render ++ rest)) ≠ .blank := by
    simp [nextKind, hop]
  have hp : pastBlank (' ' :: (op.text.toList ++ ' ' :: (e.render ++ rest))) =
      op.text.toList ++ ' ' :: (e.render ++ rest) :=
    pastBlank_of_nextKind hk
  refine .significantWord _ hp hop (by simp) fun t hk _ => ?_
  simp only [hk, TokenKind.operator?]
  exact (rightOperand_reads h hn hr).bind (.pure rfl)

/-- Where no operator comes next there are no further rounds. -/
theorem operations_read_end {nested : Production Expr} {m : Nat}
    (hend : (nextKind true (pastBlank rest)).operator? = none) (before : List (Operator × Expr)) :
    (loop (operation params n nested) (m + 1) before).Reads true rest before true (pastBlank rest) := by
  refine Reads.lastRound (.lookAtSignificant (fun t hk => ?_) fun _ => .pure rfl) rfl
  rw [hk, hend]

/-- Operators and right operands, up to a token that is no operator. -/
theorem operations_reads {ops : List (Operator × Expr)} (h : ∀ x ∈ ops, OperationReads params x)
    (hn : (renderOperations ops).length ≤ n) (hr : Delimited rest)
    (hend : (nextKind true (pastBlank rest)).operator? = none) (m : Nat) (hm : ops.length < m)
    (before : List (Operator × Expr)) :
    (loop (operation params n (expression params n)) m before).Reads true
      (renderOperations ops ++ rest) (before ++ ops) true (pastBlank rest) := by
  induction ops generalizing m before with
  | nil =>
    obtain ⟨m, rfl⟩ := Nat.exists_eq_add_of_lt hm
    rw [List.append_nil]
    exact operations_read_end hend before
  | cons x ops ih =>
    obtain ⟨m, rfl⟩ := Nat.exists_eq_add_of_lt hm
    obtain ⟨op, e⟩ := x
    rw [List.forall_mem_cons] at h
    simp only [renderOperations, List.flatMap_cons, List.length_append, List.length_cons] at hn
    have he : renderOperations ((op, e) :: ops) ++ rest =
        ' ' :: (op.text.toList ++ ' ' :: (e.render ++ (renderOperations ops ++ rest))) := by
      simp [renderOperations]
    have hlen : e.render.length ≤ n := by omega
    have hround := operation_reads h.1 hlen (delimited_renderOperations ops hr) before
    have hnext := ih h.2 (by rw [renderOperations]; omega) (((op, e) :: ops).length + m)
      (by simp only [List.length_cons]; omega) (before ++ [(op, e)])
    rw [he]
    exact hround.round (by simpa using hnext)

/-- An expression is read if its operands are. -/
theorem expressionReads_of_spine {e : Expr} (hb : e.Everywhere Expr.BindsInOrder)
    (hs : Starts e.spine.1) (hf : OperandReads params e.spine.1)
    (ho : ∀ x ∈ e.spine.2, OperationReads params x) : ExpressionReads params e := by
  intro n text rest hn ht hr hend
  cases n with
  | zero => cases hn
  | succ n =>
    have htree := Expr.ofChain_spine hb
    have hl := length_le_renderOperations e.spine.2
    have hpos := render_length_pos hs
    rw [render_eq_spine e, List.append_assoc] at ht
    rw [render_eq_spine e, List.length_append] at hn
    have hchain : (chain params n (expression params n)).Reads false text e.spine true
        (pastBlank rest) := by
      refine (hf (by omega) ht (delimited_renderOperations _ hr)).bind ?_
      have hlen : (renderOperations e.spine.2).length ≤ n := by omega
      exact (operations_reads ho hlen hr hend n (by omega) []).bind (.pure rfl)
    rw [← htree]
    exact hchain.bind (.pure rfl)

/-- A text that is an operand as a whole is read as an expression. -/
theorem parseExpr_of_operand {e : Expr} (hne : text ≠ [])
    (h : (operand params text.length (expression params text.length)).Reads false text e true []) :
    parseExpr (String.ofList text) params = .ok e := by
  obtain ⟨m, hm⟩ := Nat.exists_eq_succ_of_ne_zero (mt List.length_eq_zero_iff.1 hne)
  have hend : (loop (operation params text.length (expression params text.length)) text.length []).Reads
      true [] [] true [] := by
    rw [hm]
    exact operations_read_end rfl []
  have hchain : (chain params text.length (expression params text.length)).Reads false text (e, [])
      true [] :=
    h.bind (hend.bind (.pure rfl))
  have hread : (expression params (text.length + 1)).Reads false text e true [] :=
    hchain.bind (.pure rfl)
  rw [parseExpr, String.toList_ofList]
  exact hread.run

/-! ### Canonical trees -/

theorem operandReads_atom {a : Atom} (hx : (Expr.atom a).isRegex = false)
    (hf : (Expr.atom a).FiniteNumber) : Starts (.atom a) ∧ OperandReads params (.atom a) := by
  by_cases hv : ∃ v, a = .var v
  · obtain ⟨v, rfl⟩ := hv
    refine ⟨starts_var v, fun hn ht hr => operand_reads_var params _ ?_ ht hr⟩
    exact Nat.lt_of_lt_of_le (render_length_pos (starts_var v)) hn
  · rw [not_exists] at hv
    exact ⟨starts_literal hv hx hf, fun _ ht hr => operand_reads_literal params _ hv hx hf ht hr⟩

/-- What can be said of the operands of a tree: the first is read if it is no regular expression,
and so are the others where they stand. -/
structure SpineReads (params : Params) (e : Expr) : Prop where
  first : e.startsWithRegex = false → Starts e.spine.1 ∧ OperandReads params e.spine.1
  regex : e.startsWithRegex → ∃ p, e.spine.1 = .atom (.regex p) ∧ ReadablePattern p
  operations : ∀ x ∈ e.spine.2, OperationReads params x

theorem SpineReads.expression {e : Expr} (h : SpineReads params e)
    (hb : e.Everywhere Expr.BindsInOrder) (hx : e.startsWithRegex = false) :
    Starts e ∧ ExpressionReads params e := by
  obtain ⟨hs, hf⟩ := h.first hx
  exact ⟨starts_of_spine hs, expressionReads_of_spine hb hs hf h.operations⟩

/-- An operand is the first of its own chain. -/
theorem SpineReads.of_operand {o : Expr} (ho : o.operator? = none) (hx : o.isRegex = false)
    (hs : Starts o) (h : OperandReads params o) : SpineReads params o where
  first _ := by rw [Expr.spine_of_operator? ho]; exact ⟨hs, h⟩
  regex hr := by rw [Expr.startsWithRegex_of_operator? ho, hx] at hr; cases hr
  operations := by simp [Expr.spine_of_operator? ho]

theorem spineReads (e : Expr) (he : e.Everywhere Expr.Regular)
    (hf : e.Everywhere Expr.FiniteNumber) : SpineReads params e := by
  induction e with
  | atom a =>
    cases hx : (Expr.atom a).isRegex with
    | false =>
      obtain ⟨hs, h⟩ := operandReads_atom hx ((Expr.everywhere_atom a).1 hf)
      exact .of_operand rfl hx hs h
    | true =>
      refine ⟨fun h => ?_, fun _ => ?_, by simp [Expr.spine]⟩
      · rw [Expr.startsWithRegex_of_operator? rfl, hx] at h
        cases h
      · obtain ⟨p, hp⟩ := Expr.exists_of_isRegex hx
        have hr := he.self.readableRegex
        rw [hp] at hr
        exact ⟨p, hp, hr⟩
  | call name args ih =>
    obtain ⟨hself, hargs⟩ := (Expr.everywhere_call name args).1 he
    have hfin := ((Expr.everywhere_call name args).1 hf).2
    refine .of_operand rfl rfl (starts_call name args)
      (operand_reads_call hself.lowerCaseCall fun e hmem => ?_)
    rcases hself.regexInPlace e hmem with hx | hx
    · obtain ⟨p, rfl⟩ := Expr.exists_of_isRegex hx
      exact .inl ⟨p, rfl, (hargs _ hmem).self.readableRegex⟩
    · exact .inr ((ih e hmem (hargs e hmem) (hfin e hmem)).expression
        ((hargs e hmem).mono fun _ h => h.bindsInOrder) hx)
  | binary op l r ihl ihr =>
    obtain ⟨hself, hl, hr⟩ := (Expr.everywhere_binary op l r).1 he
    obtain ⟨-, hfl, hfr⟩ := (Expr.everywhere_binary op l r).1 hf
    have hl := ihl hl hfl
    have hr := ihr hr hfr
    have hplace : r.startsWithRegex = op.isMatch := hself.regexInPlace
    refine ⟨hl.first, hl.regex, fun x hx => ?_⟩
    simp only [Expr.spine, List.mem_append, List.mem_cons] at hx
    rcases hx with hx | rfl | hx
    · exact hl.operations x hx
    · unfold OperationReads
      split
      · next hm => exact hr.regex (hplace.trans hm)
      · next hm => exact hr.first (hplace.trans (by simpa using hm))
    · exact hr.operations x hx
  | paren e ih =>
    obtain ⟨hself, he⟩ := (Expr.everywhere_paren e).1 he
    obtain ⟨hs, h⟩ := (ih he ((Expr.everywhere_paren e).1 hf).2).expression
      (he.mono fun _ hx => hx.bindsInOrder) hself.regexInPlace
    exact .of_operand rfl rfl (starts_paren e) (operand_reads_paren hs h)

/-- Canonical trees are read. -/
theorem canonical_reads {e : Expr} (he : e.Canonical) (hf : e.Everywhere Expr.FiniteNumber) :
    Starts e ∧ ExpressionReads params e :=
  (spineReads e he.regular hf).expression (he.regular.mono fun _ h => h.bindsInOrder) he.start

end Compound

end Grammar

open Grammar Lexeme in
/-- **Canonical trees survive rendering.** The text of a canonical tree whose numbers are finite is
read back as this very tree, whatever parameters there are. -/
theorem parseExpr_text [PatternCompiler] {e : Expr} (he : e.Canonical)
    (hf : e.Everywhere Expr.FiniteNumber) (params : Params) : parseExpr e.text params = .ok e ∧ e == e := by
  obtain ⟨hs, hread⟩ : Starts e ∧ ExpressionReads params e := canonical_reads he hf
  have hp : pastBlank e.render = e.render ++ [] := by
    have := pastBlank_of_startsOperand (hs delimited_nil)
    rwa [List.append_nil] at this ⊢
  refine ⟨?_, Expr.equal_self (hf.mono Expr.isNumber_of_finiteNumber)⟩
  rw [parseExpr, Expr.text, String.toList_ofList]
  exact (hread (Nat.lt_succ_self _) hp delimited_nil rfl).run

/-- A comparison with a pattern, which is the leftmost operand of a product. -/
theorem parseExpr_text_product :
    let e : Expr := .binary .matching (.atom (.var ⟨"host name", .string⟩))
      (.binary .mul (.atom (.regex "a/b")) (.paren (.atom (.integer (-1)))))
    (e.Canonical ∧ e.Everywhere Expr.FiniteNumber) ∧ parseExpr e.text .empty = .ok e ∧ e == e := by
  intro e
  have hp : ReadablePattern "a/b" := by
    refine ⟨by cbv, RegexBody.writable_iff.2 ?_⟩
    simp [RegexBody.WritableFrom]
  have he : e.Canonical := by
    refine ⟨?_, rfl⟩
    simp only [e, Expr.everywhere_binary, Expr.everywhere_atom, Expr.everywhere_paren]
    refine ⟨⟨?_, rfl, trivial, trivial⟩, ⟨trivial, trivial, trivial, trivial⟩,
      ⟨?_, rfl, trivial, trivial⟩, ⟨trivial, trivial, hp, trivial⟩,
      ⟨trivial, rfl, trivial, trivial⟩, ⟨trivial, trivial, trivial, trivial⟩⟩
    all_goals simp [Expr.BindsInOrder, Expr.operator?, Operator.precedence]
  have hf : e.Everywhere Expr.FiniteNumber := by
    simp [e, Expr.FiniteNumber]
  exact ⟨⟨he, hf⟩, parseExpr_text he hf .empty⟩

/-- A pattern that ends with a backslash cannot be written between slashes, whatever it is compiled with,
though it can be compiled if the backslash stands in a comment. -/
theorem parseExpr_text_backslash :
    let p := "(?x)#\\"
    let e : Expr := .call "f" [.atom (.regex p)]
    Compiles p ∧ RegexBody.SlashesClear p.toList ∧
      (e.Everywhere fun x => x.BindsInOrder ∧ x.RegexInPlace ∧ x.LowerCaseCall ∧ x.FiniteNumber) ∧
      e.startsWithRegex = false ∧ ∀ [PatternCompiler] e', parseExpr e.text .empty ≠ .ok e' := by
  intro p e
  refine ⟨by cbv, ?_, ?_, rfl, ?_⟩
  · intro s t h
    have hm : '/' ∈ p.toList := by simp [h]
    exact absurd hm (by decide)
  · simp only [e, Expr.everywhere_call, List.forall_mem_singleton, Expr.everywhere_atom]
    refine ⟨⟨trivial, ?_, by cbv, trivial⟩, trivial, trivial, trivial, trivial⟩
    simp [Expr.RegexInPlace, Expr.isRegex]
  · intro _ e'
    have h : parseExpr e.text .empty =
        .error ⟨.unterminatedRegex "(?x)#/)", ⟨0, 2⟩, ⟨2, 11⟩⟩ := by
      cbv
    simp [h]

end InfluxQL
