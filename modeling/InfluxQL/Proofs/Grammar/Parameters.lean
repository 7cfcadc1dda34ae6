import InfluxQL.Proofs.Grammar.Operands
import InfluxQL.Proofs.Grammar.Uniformity

/-!
# Values of parameters do not change what is read

Which tree is read, up to the literals for parameters, and which error is found depend on the text
and on the sorts of the values.

* `Grammar.tokenOperand_uniform`: where a parameter is bound there is a hole;
* `Grammar.expression_uniform`, `Grammar.query_uniform`: expressions and queries;
* `parseQuery_uniform`: the statement for a whole text.
-/

namespace InfluxQL

namespace Grammar

open Production TokenStream

variable {source : List Char} {σ : Params}

/-! ### Names -/

theorem identToken_uniform :
    Trace.Uniform source σ (Plain Token) [] fun _ => identTokenTrace :=
  .expectSignificant nofun fun t => .pure ⟨t⟩ rfl fun _ => rfl

theorem segment_uniform (s : Segments) :
    Trace.Uniform source σ (Plain Segments ⊕ Plain Segments) [] fun _ => segmentTrace s := by
  refine .congr ?_ _
  refine .lookFor nofun (fun t => .after .peek? fun c? => ?_) ?_
  · refine .ite (fun _ => ?_) fun _ => .ite (fun _ => ?_) fun _ => .after identToken_uniform fun u => ?_
    · exact .pure (.inr ⟨_⟩) rfl fun _ => rfl
    · exact .pure (.inl ⟨_⟩) rfl fun _ => rfl
    · exact .pure (.inl ⟨_⟩) rfl fun _ => rfl
  · exact .pure (.inr ⟨s⟩) rfl fun _ => rfl

theorem segments_uniform (steps : Nat) (first : Token) :
    Trace.Uniform source σ (Plain (List String)) [] fun _ => segmentsTrace steps first := by
  have hloop : Trace.Uniform source σ (Plain Segments) [] fun _ =>
      Trace.loop .segment segmentTrace steps ⟨[first.lit], first.span.stop⟩ :=
    .loop (fun s : Plain Segments => segment_uniform s.value) steps ⟨⟨[first.lit], first.span.stop⟩⟩
  exact hloop.after fun s => .ite (fun _ => .pure ⟨s.names⟩ rfl fun _ => rfl) fun _ => .fail

theorem dottedName_uniform (steps : Nat) :
    Trace.Uniform source σ (Plain (List String)) [] fun _ => dottedNameTrace steps :=
  .after identToken_uniform fun t => segments_uniform steps t

theorem reference_uniform (steps : Nat) (first : Token) :
    Trace.Uniform source σ (Plain VarRef) [] fun _ => referenceTrace steps first := by
  refine (segments_uniform steps first).after fun names => .lookFor nofun (fun _ => ?_) ?_
  · refine .next fun t _ => .takeStill fun ht s => ?_
    have hne : t.kind ≠ .ident := by
      rw [ht]
      nofun
    exact ⟨_, congrFun (typed_of_ne _ hne) s⟩
  · exact .pure ⟨_⟩ rfl fun _ => rfl

theorem fieldName_uniform :
    Trace.Uniform source σ (Plain (Option String)) [] fun _ => fieldNameTrace := by
  refine .lookForSignificant nofun (fun _ => ?_) (.pure ⟨none⟩ rfl fun _ => rfl)
  have hident : Trace.Uniform source σ (Plain String) [] fun _ => identTrace :=
    identToken_uniform.after fun t => .pure ⟨t.lit⟩ rfl fun _ => rfl
  exact hident.after fun name => .pure ⟨some name⟩ rfl fun _ => rfl

/-! ### Literals -/

/-- What is read for a parameter that has a value. -/
theorem bound_of_get? {q : Params} {t : Token} {v : ParamValue} (hname : t.parameterName ≠ "")
    (hv : q.get? t.parameterName = some v) :
    bound q t = match v.literal? with
      | some a => pure a
      | none => failAt t (.unbindableParam v.typeName) := by
  unfold Token.parameterName at hname hv
  simp only [bound, if_neg hname, hv]
  cases v <;> rfl

/-- Whether a parameter is bound does not depend on its value. -/
theorem bound_cases (σ : Params) (t : Token) :
    (∃ e, ∀ q, σ.SameSorts q → bound q t = Production.fail e) ∨
      (σ.literal? t.parameterName).isSome ∧ ∀ q, σ.SameSorts q →
        bound q t = pure (Hole.fill ⟨t.parameterName, t.span.start⟩ q) := by
  by_cases hname : t.parameterName = ""
  · refine .inl ⟨.atToken t .emptyParam, fun q _ => ?_⟩
    unfold Token.parameterName at hname
    simp only [bound, if_pos hname]
    rfl
  cases hv : σ.get? t.parameterName with
  | none =>
    refine .inl ⟨.atToken t (.missingParam t.parameterName), fun q hq => ?_⟩
    have hv' := hq.get?_none hv
    unfold Token.parameterName at hname hv' ⊢
    simp only [bound, if_neg hname, hv']
    rfl
  | some v =>
    cases hl : v.literal? with
    | none =>
      refine .inl ⟨.atToken t (.unbindableParam v.typeName), fun q hq => ?_⟩
      obtain ⟨v', hv', hs⟩ := hq.get?_some hv
      have hl' : v'.literal? = none := by
        have := ParamValue.isSome_literal?_of_typeName hs
        rwa [hl, Option.isSome_none, eq_comm, Option.isSome_eq_false_iff, Option.isNone_iff_eq_none]
          at this
      rw [bound_of_get? hname hv', hl', hs]
      rfl
    | some a =>
      have hbind : (σ.literal? t.parameterName).isSome := by
        rw [Params.literal?, hv, Option.bind_some, hl, Option.isSome_some]
      refine .inr ⟨hbind, fun q hq => ?_⟩
      obtain ⟨v', hv', hl'⟩ := Hole.exists_literal (h := ⟨t.parameterName, t.span.start⟩) hbind hq
      rw [bound_of_get? hname hv', hl']

/-- A token that is no parameter has nothing to do with values. -/
theorem tokenOperand_of_ne {t : Token} (ht : t.kind ≠ .param) (s : TokenStream) :
    (∃ e, ∀ q, tokenOperand q t s = .error e) ∨
      ∃ a, ∀ q, tokenOperand q t s = .ok (.atom a, s) := by
  unfold tokenOperand
  generalize t.kind = k at ht
  cases k with
  | param => exact absurd rfl ht
  | string | number | bool => exact .inr ⟨_, fun _ => rfl⟩
  | integer =>
    dsimp only
    cases Decimal.integer? t.lit.toList with
    | some n => exact .inr ⟨_, fun _ => rfl⟩
    | none => exact .inl ⟨_, fun _ => rfl⟩
  | _ => exact .inl ⟨_, fun _ => rfl⟩

/-- Where a parameter is bound there is a hole. -/
theorem tokenOperand_uniform {t : Token} (ht : t.IsWithin source) :
    Held.Uniform source σ ExprTemplate []
      (fun q => Held.takeAs (t.kind = .param) (tokenOperandTrace q t)) t := by
  intro s hs
  by_cases hk : t.kind = .param
  · have hbound : ∀ q, tokenOperand q t = (bound q t >>= fun a => pure (.atom a)) := fun q => by
      rw [tokenOperand, hk]
    let h : Hole := ⟨t.parameterName, t.span.start⟩
    rcases bound_cases σ t with ⟨e, he⟩ | ⟨hbind, hfill⟩
    · refine .inl ⟨e, fun q hq => ?_⟩
      simp only [hbound, he q hq]
      rfl
    · refine .inr ⟨.hole h, [h], s, rfl, List.forall_mem_singleton.2 ⟨ht hk, hbind⟩, hs, fun q hq => ?_⟩
      refine ⟨by simp only [hbound, hfill q hq]; rfl, ?_⟩
      exact List.filterMap_cons_some (if_pos hk)
  · have hnone : holesOf [.given (.taken (t.kind = .param)) t] = [] :=
      List.filterMap_cons_none (if_neg hk)
    rcases tokenOperand_of_ne hk s with ⟨e, he⟩ | ⟨a, ha⟩
    · exact .inl ⟨e, fun q _ => he q⟩
    · exact .inr ⟨.atom a, [], s, rfl, List.forall_mem_nil _, hs, fun q _ => ⟨ha q, hnone⟩⟩

/-! ### Aggregates -/

/-- Whether the aggregates are in order does not depend on the values. -/
theorem validated_uniform (first : Token) (s : SelectTemplate) :
    Trace.Uniform source σ SelectTemplate (Template.holes s) fun q =>
      validatedTrace first (Template.fill s q) := by
  intro st hst
  have hv (q : Params) (hq : σ.SameSorts q) :
      (Template.fill s σ).validate = (Template.fill s q).validate :=
    SelectTemplate.validate_fill hq s
  cases hσ : (Template.fill s σ).validate with
  | error fault =>
    refine .inl ⟨.atToken first (.semantic fault), fun q hq => ?_⟩
    dsimp only
    rw [validated, ← hv q hq, hσ]
    rfl
  | ok _ =>
    refine .inr ⟨s, [], st, (List.append_nil _).symm, List.forall_mem_nil _, hst, fun q hq => ⟨?_, rfl⟩⟩
    dsimp only
    rw [validated, ← hv q hq, hσ]
    rfl

variable [PatternCompiler]

/-! ### Expressions -/

theorem regex_uniform :
    Trace.Uniform source σ (Plain (Option String)) [] fun _ => regexTrace := by
  have hblank : Trace.Uniform source σ (Plain Unit) [] fun _ => skipBlankCharacterTrace := by
    refine .congr ?_ _
    exact .after .peek? fun c? => .ite (fun _ => .skipBlank) fun _ => .pure ⟨()⟩ rfl fun _ => rfl
  refine .congr ?_ _
  exact hblank.after fun _ => .atSlash (fun t => .still) (.pure ⟨none⟩ rfl fun _ => rfl)

section Nested

variable {nested : Params → Production Expr} {T : ∀ q, Trace (nested q)}
  (hT : Trace.Uniform source σ ExprTemplate [] T)
include hT

theorem argument_uniform :
    Trace.Uniform source σ ExprTemplate [] fun q => argumentTrace (T q) := by
  refine .after regex_uniform fun p? => ?_
  cases p? with
  | some p => exact .pure (.atom (.regex p)) rfl fun _ => rfl
  | none => exact hT.mark

theorem arguments_uniform (steps : Nat) (first : ExprTemplate) :
    Trace.Uniform source σ (List ExprTemplate) (Template.holes first) fun q =>
      argumentsTrace (T q) steps (Template.fill first q) := by
  have hround (ts : List ExprTemplate) :
      Trace.Uniform source σ (List ExprTemplate ⊕ List ExprTemplate) (Template.holes ts) fun q =>
        furtherArgumentTrace (T q) (Template.fill ts q) := by
    refine .lookForSignificant nofun (fun t => ?_) (.pure (.inr ts) rfl fun _ => rfl)
    refine (argument_uniform hT).bind fun x => ?_
    exact .pure (.inl (ts ++ [x])) (Template.holes_snoc ts x) fun q =>
      congrArg Sum.inl (Template.fill_snoc ts x q)
  rw [← Template.holes_singleton]
  refine (Trace.Uniform.loop hround steps [first]).onward fun ts => ?_
  exact .expect nofun fun t => .pure ts rfl fun _ => rfl

theorem callArguments_uniform (steps : Nat) :
    Trace.Uniform source σ (List ExprTemplate) [] fun q => callArgumentsTrace (T q) steps := by
  refine .after regex_uniform fun p? => ?_
  cases p? with
  | some p => exact arguments_uniform hT steps (.atom (.regex p))
  | none =>
    refine .lookFor nofun (fun t => .pure [] rfl fun _ => rfl) ?_
    exact hT.mark.bind fun x => arguments_uniform hT steps x

theorem callOrReference_uniform (steps : Nat) (first : Token) :
    Trace.Uniform source σ ExprTemplate [] fun q => callOrReferenceTrace (T q) steps first := by
  refine .lookFor nofun (fun t => ?_) ?_
  · refine (callArguments_uniform hT steps).bind fun ts => ?_
    exact .pure (.call (String.ofList (Unicode.lowercase first.lit.toList)) ts)
      (Template.holes_call _ ts) fun q => (Template.fill_call _ ts q).symm
  · exact .after (reference_uniform steps first) fun v => .pure (.atom (.var v)) rfl fun _ => rfl

theorem operand_uniform (steps : Nat) :
    Trace.Uniform source σ ExprTemplate [] fun q => operandTrace q steps (T q) := by
  refine .congr ?_ _
  refine .significant fun t ht => .ite (fun hk => .take ?_ ?_) fun _ => .ite (fun hk => .take ?_ ?_)
    fun _ => tokenOperand_uniform ht
  · rw [hk]
    nofun
  · exact hT.mark.bind fun x => .expectSignificant nofun fun _ => .pure (.paren x) rfl fun _ => rfl
  · rw [hk]
    nofun
  · exact callOrReference_uniform hT steps t

theorem rightOperand_uniform (steps : Nat) (op : Operator) :
    Trace.Uniform source σ ExprTemplate [] fun q => rightOperandTrace q steps (T q) op := by
  refine .ite (fun _ => ?_) fun _ => operand_uniform hT steps
  refine .after .skipBlank fun _ => .after regex_uniform fun p? => ?_
  cases p? with
  | some p => exact .pure (.atom (.regex p)) rfl fun _ => rfl
  | none => exact .significant fun t _ => .fail

theorem operation_uniform (steps : Nat) (ops : List (Operator × ExprTemplate)) :
    Trace.Uniform source σ (List (Operator × ExprTemplate) ⊕ List (Operator × ExprTemplate))
      (Template.holes ops) fun q => operationTrace q steps (T q) (Template.fill ops q) := by
  refine .significant fun t _ => ?_
  have hop : t.kind.operator? ≠ none → t.kind ≠ .param := by
    cases t.kind <;> simp [TokenKind.operator?]
  generalize t.kind.operator? = op? at hop
  cases op? with
  | none => exact .putBack (.pure (.inr ops) rfl fun _ => rfl)
  | some op =>
    refine .take (hop (Option.some_ne_none op)) ((rightOperand_uniform hT steps op).bind fun x => ?_)
    exact .pure (.inl (ops ++ [(op, x)])) (Template.holes_snoc ops (op, x)) fun q =>
      congrArg Sum.inl (Template.fill_snoc ops (op, x) q)

theorem chain_uniform (steps : Nat) :
    Trace.Uniform source σ (ExprTemplate × List (Operator × ExprTemplate)) [] fun q =>
      chainTrace q steps (T q) := by
  refine (operand_uniform hT steps).bind fun first => ?_
  have hloop : Trace.Uniform source σ (List (Operator × ExprTemplate)) [] fun q =>
      Trace.loop .operation (operationTrace q steps (T q)) steps [] :=
    .loop (operation_uniform hT steps) steps []
  exact hloop.bind fun ops => .pure (first, ops) rfl fun _ => rfl

end Nested

/-- Which tree of an expression is read does not depend on the values. -/
theorem expression_uniform (n : Nat) :
    Trace.Uniform source σ ExprTemplate [] fun q => expressionTrace q n := by
  -- By induction on the steps; an expression within another has one less.
  induction n with
  | zero => exact .fail
  | succ n ih =>
    refine (chain_uniform ih n).bind fun x => ?_
    exact .pure (.ofChain x.1 x.2) (ExprTemplate.holes_ofChain x.1 x.2) fun q =>
      (ExprTemplate.fill_ofChain x.1 x.2 q).symm

/-! ### Statements -/

theorem field_uniform (steps : Nat) :
    Trace.Uniform source σ FieldTemplate [] fun q => fieldTrace q steps := by
  refine .significant fun first _ => .putBack ((expression_uniform steps).bind fun x => ?_)
  have hc (q : Params) :
      (Template.fill x q).firstCondition? = (Template.fill x σ).firstCondition? :=
    x.firstCondition?_fill
  -- Whether an operator is out of place is the same for all, so that all go on alike.
  cases hσ : (Template.fill x σ).firstCondition? with
  | some op =>
    refine .of_eq (.fail : Trace.Uniform source σ FieldTemplate _ fun _ =>
      Trace.fail (.atToken first (.conditionInField op))) fun q _ s => ?_
    have hq := (hc q).trans hσ
    generalize (Template.fill x q).firstCondition? = op? at hq ⊢
    subst hq
    exact ⟨rfl, rfl⟩
  | none =>
    have hname : Trace.Uniform source σ FieldTemplate (Template.holes x) fun q =>
        fieldNameTrace.bind fun name => Trace.skipBlank.bind fun _ =>
          Trace.pure (⟨Template.fill x q, name⟩ : Field) :=
      .after fieldName_uniform fun name => .after .skipBlank fun _ =>
        .pure ⟨x, name⟩ rfl fun _ => rfl
    refine .of_eq hname fun q _ s => ?_
    have hq := (hc q).trans hσ
    generalize (Template.fill x q).firstCondition? = op? at hq ⊢
    subst hq
    exact ⟨rfl, rfl⟩

theorem fields_uniform (steps : Nat) :
    Trace.Uniform source σ (List FieldTemplate) [] fun q =>
      Trace.loop .field (furtherFieldTrace q steps) steps [] := by
  have hround (ts : List FieldTemplate) :
      Trace.Uniform source σ (List FieldTemplate ⊕ List FieldTemplate) (Template.holes ts) fun q =>
        furtherFieldTrace q steps (Template.fill ts q) := by
    refine (field_uniform steps).bind fun x => .lookFor nofun (fun _ => ?_) ?_
    · exact .pure (.inl (ts ++ [x])) (Template.holes_snoc ts x) fun q =>
        congrArg Sum.inl (Template.fill_snoc ts x q)
    · exact .pure (.inr (ts ++ [x])) (Template.holes_snoc ts x) fun q =>
        congrArg Sum.inr (Template.fill_snoc ts x q)
  exact .loop hround steps []

theorem sources_uniform (steps : Nat) : Trace.Uniform source σ (Plain (List Source)) [] fun _ =>
    Trace.loop .source (furtherSourceTrace steps) steps [] := by
  have hsource : Trace.Uniform source σ (Plain Source) [] fun _ => sourceTrace steps := by
    refine .after regex_uniform fun p? => ?_
    cases p? with
    | some p => exact .pure ⟨_⟩ rfl fun _ => rfl
    | none =>
      refine .after (dottedName_uniform steps) fun names => .ite (fun _ => .pure ⟨_⟩ rfl fun _ => rfl)
        fun _ => .after regex_uniform fun p? => .pure ⟨_⟩ rfl fun _ => rfl
  have hround (xs : Plain (List Source)) :
      Trace.Uniform source σ (Plain (List Source) ⊕ Plain (List Source)) [] fun _ =>
        furtherSourceTrace steps xs.value :=
    hsource.after fun x => .lookForSignificant nofun
      (fun _ => .pure (.inl ⟨xs.value ++ [x]⟩) rfl fun _ => rfl)
      (.pure (.inr ⟨xs.value ++ [x]⟩) rfl fun _ => rfl)
  exact .loop hround steps ⟨[]⟩

theorem condition_uniform (steps : Nat) :
    Trace.Uniform source σ (Option ExprTemplate) [] fun q => conditionTrace q steps := by
  refine .lookForSignificant nofun (fun _ => ?_) (.pure none rfl fun _ => rfl)
  exact (expression_uniform steps).bind fun x => .pure (some x) (Template.holes_some x) fun _ => rfl

theorem select_uniform (steps : Nat) (first : Token) :
    Trace.Uniform source σ SelectTemplate [] fun q => selectTrace q steps first := by
  refine (fields_uniform steps).bind fun fields => .expectSignificant nofun fun _ => ?_
  refine .after (sources_uniform steps) fun sources => (condition_uniform steps).bind fun condition => ?_
  let s : SelectTemplate :=
    ⟨fields, sources, condition, !(Template.fill fields σ).any (·.expr.containsCall)⟩
  have hfill (q : Params) : (⟨Template.fill fields q, sources, Template.fill condition q,
      !(Template.fill fields q).any (·.expr.containsCall)⟩ : Select) = Template.fill s q := by
    rw [FieldTemplate.any_containsCall_fill]
    rfl
  refine .of_eq (validated_uniform first s) fun q _ st => ?_
  dsimp only
  rw [hfill]
  exact ⟨rfl, rfl⟩

theorem statement_uniform (steps : Nat) :
    Trace.Uniform source σ StatementTemplate [] fun q => statementTrace q steps :=
  .expectSignificant nofun fun t => (select_uniform steps t).bind fun s =>
    .pure (.select s) rfl fun _ => rfl

/-- The statements read so far, with holes. -/
structure StatementsTemplate where
  statements : List StatementTemplate
  separated : Bool

instance : Template StatementsTemplate Statements :=
  ⟨fun t q => ⟨Template.fill t.statements q, t.separated⟩, fun t => Template.holes t.statements⟩

theorem furtherStatement_uniform (steps : Nat) (ts : StatementsTemplate) :
    Trace.Uniform source σ (StatementsTemplate ⊕ QueryTemplate) (Template.holes ts) fun q =>
      furtherStatementTrace q steps (Template.fill ts q) := by
  refine .congr ?_ _
  refine .significant fun t _ => .ite (fun hk => .take ?_ ?_) fun _ => .ite (fun hk => .take ?_ ?_)
    fun _ => .ite (c := ts.separated) (fun _ => .putBack ((statement_uniform steps).bind fun x => ?_))
      fun _ => .fail
  · rw [hk]
    nofun
  · exact .pure (.inr ⟨ts.statements⟩) rfl fun _ => rfl
  · rw [hk]
    nofun
  · exact .pure (.inl ⟨ts.statements, true⟩) rfl fun _ => rfl
  · exact .pure (.inl ⟨ts.statements ++ [x], false⟩) (Template.holes_snoc ts.statements x) fun q =>
      congrArg (fun xs => Sum.inl (Statements.mk xs false)) (Template.fill_snoc ts.statements x q)

/-- Which query is read does not depend on the values. -/
theorem query_uniform (steps : Nat) :
    Trace.Uniform source σ QueryTemplate [] fun q => queryTrace q steps :=
  .loop (furtherStatement_uniform steps) steps ⟨[], true⟩

end Grammar

open Grammar in
/-- **The values of parameters do not change what is read.** For all parameters with values of the
same sorts as in `p`, parsing fails with one error, or else the tree is that of one template, filled
from these parameters. Its holes are where the source has parameters: they are those of the tokens that
are taken, one for each in their order, and in each is the literal for the value of its parameter. -/
theorem parseQuery_uniform [PatternCompiler] (source : String) (p : Params) :
    (∃ e, ∀ q, p.SameSorts q → parseQuery source q = .error e) ∨
    ∃ t : QueryTemplate,
      (∀ h ∈ t.holes, ParameterAt source.toList h.name h.offset) ∧
      ∀ q, p.SameSorts q → parseQuery source q = .ok (t.fill q) ∧
        t.holes = holesOf (queryEvents source q) ∧
        ∀ h ∈ t.holes, ∃ v, q.get? h.name = some v ∧ v.literal? = some (h.fill q) := by
  have hrun (q : Params) : parseQuery source q =
      (query q (stepsFor source.toList)).run source.toList := rfl
  simp only [hrun, Production.run]
  rcases query_uniform (σ := p) (stepsFor source.toList) _
    (TokenStream.within_start source.toList) with ⟨e, he⟩ | ⟨t, read, s', ht, hread, -, h⟩
  · refine .inl ⟨e, fun q hq => ?_⟩
    simp only [he q hq]
  · have ht : t.holes = read := ht
    refine .inr ⟨t, fun h hh => (hread h (ht ▸ hh)).place, fun q hq => ⟨?_, ?_, fun h hh => ?_⟩⟩
    · simp only [(h q hq).1]
      rfl
    · exact ht.trans (h q hq).2.symm
    · exact Hole.exists_literal (hread h (ht ▸ hh)).bindable hq

/-- Three parameters, two of one name, in a condition behind a character of two bytes. -/
theorem parseQuery_uniform_condition :
    let source := "SELECT \"é\" FROM m WHERE a = $x + f($y, $x)"
    let p := (Params.empty.insert "x" (.integer 1)).insert "y" (.string "s")
    ∃ t : QueryTemplate, t.holes = [⟨"x", 29⟩, ⟨"y", 36⟩, ⟨"x", 40⟩] ∧
      ∀ q, p.SameSorts q → parseQuery source q = .ok (t.fill q) ∧
        ∀ h ∈ t.holes, ∃ v, q.get? h.name = some v ∧ v.literal? = some (h.fill q) := by
  intro source p
  rcases parseQuery_uniform source p with ⟨e, he⟩ | ⟨t, -, h⟩
  · have hok : (parseQuery source p).isOk := by
      decide +kernel
    rw [he p (.refl p)] at hok
    cases hok
  · have hholes : holesOf (queryEvents source p) = [⟨"x", 29⟩, ⟨"y", 36⟩, ⟨"x", 40⟩] := by
      decide +kernel
    refine ⟨t, (h p (.refl p)).2.1.trans hholes, fun q hq => ⟨(h q hq).1, (h q hq).2.2⟩⟩

end InfluxQL
