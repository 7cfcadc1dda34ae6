import InfluxQL.Proofs.Grammar.QueryLayout
import InfluxQL.Proofs.Grammar.QueryYield

/-!
# Queries are read back from their texts

The text of a statement is read clause by clause, and that of a query statement by statement.

* `Grammar.fields_reads`, `Grammar.sources_reads`, `Grammar.condition?_reads`: the clauses of a
  canonical statement are read, each up to the keyword of the next one;
* `Grammar.statement_reads`, `Grammar.query_reads`: canonical statements and queries are read;
* `parseQuery_text`: what was parsed from any text is parsed again from its own.
-/

namespace InfluxQL

namespace Grammar

open Production Lexeme

variable [PatternCompiler]
variable {b : Bool} {text rest : List Char} {params : Params} {n : Nat}

/-! ### Fields -/

/-- A field behind a blank. -/
theorem field_reads {f : Field} (hf : f.Canonical) (hfin : f.expr.Everywhere Expr.FiniteNumber)
    (hn : f.render.length < n) (hr : EndsField rest) :
    (field params n).Reads false (' ' :: (f.render ++ rest)) f true (pastBlank rest) := by
  obtain ⟨e, name⟩ := f
  obtain ⟨hs, hread⟩ : Starts e ∧ ExpressionReads params e := canonical_reads hf.expr hfin
  have hop : (nextKind true (pastBlank rest)).operator? = none := by
    rcases hr.kind with h | h <;> rw [h] <;> rfl
  have has : nextKind true (pastBlank rest) ≠ .keyword .AS := by
    rcases hr.kind with h | h <;> rw [h] <;> decide
  have hskip : skipBlank.Reads true (pastBlank rest) () true (pastBlank rest) := by
    have h : skipBlank.Reads true (pastBlank rest) () true (pastBlank (pastBlank rest)) :=
      Reads.skipBlank
    rwa [pastBlank_pastBlank] at h
  refine .lookAtSignificant (fun t _ => rfl) fun first => ?_
  rw [pastBlank_space]
  cases name with
  | none =>
    simp only [Field.render, List.append_nil] at hn ⊢
    have ht := pastBlank_of_startsOperand (hs hr.delimited)
    refine (hread hn (by rw [pastBlank_pastBlank, ht]) hr.delimited hop).bind ?_
    rw [hf.noCondition]
    have hnone : fieldName?.Reads true (pastBlank rest) none true (pastBlank rest) :=
      .lookPastSignificant (pastBlank_pastBlank rest) has (.pure rfl)
    exact hnone.bind (hskip.bind (.pure rfl))
  | some name =>
    simp only [Field.render, List.length_append, List.append_assoc] at hn ⊢
    have hd : Delimited (" AS ".toList ++ (renderName name ++ rest)) := delimited_cons (.inl rfl)
    have ht := pastBlank_of_startsOperand (hs hd)
    have hw := hr.delimited.noWordPart
    have hp := pastBlank_keyword .AS (renderName name ++ rest)
    have he : (expression params n).Reads false
        (pastBlank (e.render ++ (" AS ".toList ++ (renderName name ++ rest)))) e true
        (Keyword.AS.text.toList ++ ' ' :: (renderName name ++ rest)) := by
      rw [← hp]
      refine hread (by omega) (by rw [pastBlank_pastBlank, ht]; rfl) (delimited_cons (.inl rfl)) ?_
      rw [hp, nextKind_keyword]
      rfl
    have hident : ident.Reads false (' ' :: (renderName name ++ rest)) name true rest :=
      (identToken_reads (spells_renderName name) ((pastBlank_space _).trans
        (pastBlank_append_of_spells (spells_renderName name) hw)) hw).bind fun t ht => .pure ht
    have hsome : fieldName?.Reads true (Keyword.AS.text.toList ++ ' ' :: (renderName name ++ rest))
        (some name) true rest := by
      refine .significantWord _ (pastBlank_eq_self rfl) (next?_keyword true .AS
        (noWordPart_space _)) (by decide) fun t hk _ => ?_
      rw [if_pos hk]
      exact hident.bind (.pure rfl)
    refine he.bind ?_
    rw [hf.noCondition]
    exact hsome.bind (Reads.skipBlank.bind (.pure rfl))

/-- The fields, up to the keyword behind them. -/
theorem fields_reads {f : Field} {fs : List Field}
    (hf : ∀ x ∈ f :: fs, x.Canonical ∧ x.expr.Everywhere Expr.FiniteNumber)
    (hn : f.render.length + (renderFurther (fs.map Field.render)).length < n) (m : Nat)
    (hm : fs.length < m) (before : List Field) :
    (loop (furtherField params n) m before).Reads false
      (' ' :: (f.render ++ (renderFurther (fs.map Field.render) ++ fromClause text)))
      (before ++ f :: fs) true (Keyword.FROM.text.toList ++ ' ' :: text) := by
  induction fs generalizing f m before with
  | nil =>
    obtain ⟨m, rfl⟩ := Nat.exists_eq_add_of_lt hm
    obtain ⟨⟨hc, hfin⟩, -⟩ := List.forall_mem_cons.1 hf
    have hlt : f.render.length < n := by omega
    have hfield : (field params n).Reads false (' ' :: (f.render ++ fromClause text)) f true
        (Keyword.FROM.text.toList ++ ' ' :: text) := by
      rw [← pastBlank_fromClause]
      exact field_reads hc hfin hlt (endsField_fromClause text)
    refine Reads.lastRound (hfield.bind (.lookPast ?_ (.pure rfl))) rfl
    rw [nextKind_keyword]
    decide
  | cons g fs ih =>
    obtain ⟨m, rfl⟩ := Nat.exists_eq_add_of_lt hm
    obtain ⟨⟨hc, hfin⟩, hf⟩ := List.forall_mem_cons.1 hf
    rw [List.map_cons, length_renderFurther_cons] at hn
    rw [List.map_cons, renderFurther_cons]
    have hround : (furtherField params n before).Reads false (' ' :: (f.render ++ ',' ::
        (' ' :: (g.render ++ (renderFurther (fs.map Field.render) ++ fromClause text)))))
        (.inl (before ++ [f])) false
        (' ' :: (g.render ++ (renderFurther (fs.map Field.render) ++ fromClause text))) := by
      refine (field_reads hc hfin (by omega) (endsField_comma _)).bind ?_
      refine .word [','] (next?_comma true _) (by decide) fun t hk _ => ?_
      rw [if_pos hk]
      exact .pure rfl
    have hnext := ih hf (by omega) ((g :: fs).length + m) (by simp only [List.length_cons]; omega)
      (before ++ [f])
    exact hround.round (by simpa using hnext)

/-! ### Sources and conditions -/

/-- The sources, up to what stands behind the last one. -/
theorem sources_reads (hn : 3 ≤ n) {x : Source} {xs : List Source}
    (hx : ∀ y ∈ x :: xs, y.Canonical) (hr : EndsSources rest) (m : Nat) (hm : xs.length < m)
    (before : List Source) :
    (loop (furtherSource n) m before).Reads false
      (' ' :: (x.render ++ (renderFurther (xs.map Source.render) ++ rest))) (before ++ x :: xs)
      true (pastBlank rest) := by
  induction xs generalizing x m before with
  | nil =>
    obtain ⟨m, rfl⟩ := Nat.exists_eq_add_of_lt hm
    obtain ⟨hx, -⟩ := List.forall_mem_cons.1 hx
    obtain ⟨rest', hp, hsource⟩ := source_reads hn hx hr.toEndsSource
    exact Reads.lastRound (hsource.bind (.lookPastSignificant hp hr.noComma (.pure rfl))) rfl
  | cons y xs ih =>
    obtain ⟨m, rfl⟩ := Nat.exists_eq_add_of_lt hm
    obtain ⟨hx, hxs⟩ := List.forall_mem_cons.1 hx
    obtain ⟨rest', hp, hsource⟩ := source_reads hn hx (endsSource_comma
      (' ' :: (y.render ++ (renderFurther (xs.map Source.render) ++ rest))))
    have hround : (furtherSource n before).Reads false (' ' :: (x.render ++ ',' ::
        (' ' :: (y.render ++ (renderFurther (xs.map Source.render) ++ rest)))))
        (.inl (before ++ [x])) false
        (' ' :: (y.render ++ (renderFurther (xs.map Source.render) ++ rest))) := by
      refine hsource.bind (.significantWord [','] hp (next?_comma true _) (by decide)
        fun t hk _ => ?_)
      rw [if_pos hk]
      exact .pure rfl
    have hnext := ih hxs ((y :: xs).length + m) (by simp only [List.length_cons]; omega)
      (before ++ [x])
    rw [List.map_cons, renderFurther_cons]
    exact hround.round (by simpa using hnext)

theorem condition?_reads {c : Option Expr} (hc : ∀ e ∈ c, e.Canonical)
    (hfin : ∀ e ∈ c, e.Everywhere Expr.FiniteNumber) (hn : (renderCondition c).length < n)
    (hr : EndsStatement rest) :
    (condition? params n).Reads true (pastBlank (renderCondition c ++ rest)) c true rest := by
  cases c with
  | none =>
    rw [renderCondition, List.nil_append, hr.pastBlank_eq]
    refine .lookPastSignificant hr.pastBlank_eq (fun h => ?_) (.pure rfl)
    rcases hr.nextKind_eq with hk | hk <;> rw [hk] at h <;> cases h
  | some e =>
    obtain ⟨hs, hread⟩ : Starts e ∧ ExpressionReads params e :=
      canonical_reads (hc e rfl) (hfin e rfl)
    have hlt : e.render.length < n := by
      simp only [renderCondition, List.length_append, List.length_cons] at hn
      omega
    have ht : pastBlank (' ' :: (e.render ++ rest)) = e.render ++ rest :=
      pastBlank_of_startsOperand (hs hr.delimited)
    have hop : (nextKind true (pastBlank rest)).operator? = none := by
      rw [hr.pastBlank_eq]
      rcases hr.nextKind_eq with hk | hk <;> rw [hk] <;> rfl
    have he := hread hlt ht hr.delimited hop
    rw [hr.pastBlank_eq] at he
    rw [pastBlank_condition]
    refine .significantWord _ (pastBlank_eq_self rfl)
      (next?_keyword true .WHERE (noWordPart_space _)) (by decide) fun t hk _ => ?_
    rw [if_pos hk]
    exact he.bind (.pure rfl)

/-! ### Statements -/

/-- The clauses of a statement are read with one step more than their text has characters. -/
theorem select_reads {s : Select} {f : Field} {fs : List Field} {x : Source} {xs : List Source}
    (hf : s.fields = f :: fs) (hx : s.sources = x :: xs) (hs : s.Canonical)
    (hfin : ∀ e ∈ s.roots, e.Everywhere Expr.FiniteNumber)
    (hn : (renderClauses f fs x xs s.condition).length < n) (hr : EndsStatement rest)
    (first : Token) : (select params n first).Reads false
      (renderClauses f fs x xs s.condition ++ rest) s true rest := by
  have hself : (⟨f :: fs, x :: xs, s.condition, !(f :: fs).any (·.expr.containsCall)⟩ : Select) =
      s := by
    rw [← hf, ← hx, ← hs.isRaw]
  obtain ⟨-, hfields⟩ := hs.fields
  obtain ⟨-, hsources⟩ := hs.sources
  simp only [Select.roots, List.forall_mem_append, List.forall_mem_map, Option.mem_toList] at hfin
  rw [hf] at hfields hfin
  rw [hx] at hsources
  have hnames := length_le_renderFurther (fs.map Field.render)
  have hothers := length_le_renderFurther (xs.map Source.render)
  simp only [renderClauses, fromClause, List.length_append, List.length_cons, List.length_map]
    at hn hnames hothers
  rw [renderClauses_append]
  refine (fields_reads (fun y hy => ⟨hfields y hy, hfin.1 y hy⟩) (by omega) n (by omega) []).bind ?_
  refine .significantWord _ (pastBlank_eq_self rfl)
    (next?_keyword true .FROM (noWordPart_space _)) (by decide) fun t hk _ => ?_
  rw [if_pos hk]
  refine (sources_reads (by omega) hsources (endsSources_condition s.condition hr) n (by omega)
    []).bind ((condition?_reads hs.condition hfin.2 (by omega) hr).bind ?_)
  simp only [List.nil_append, hself, hs.valid]
  exact .pure rfl

/-- A statement is read from its text with one step more than the text has characters. -/
theorem statement_reads {s : Select} (hs : s.Canonical)
    (hfin : ∀ e ∈ s.roots, e.Everywhere Expr.FiniteNumber) (hn : s.render.length < n)
    (ht : pastBlank text = s.render ++ rest) (hr : EndsStatement rest) :
    (statement params n).Reads false text (.select s) true rest := by
  obtain ⟨f, fs, hf⟩ := List.exists_cons_of_ne_nil hs.fields.1
  obtain ⟨x, xs, hx⟩ := List.exists_cons_of_ne_nil hs.sources.1
  have hrender := render_select hf hx
  rw [hrender, List.length_append] at hn
  rw [hrender, List.append_assoc] at ht
  have hw : NoWordPart (renderClauses f fs x xs s.condition ++ rest) := noWordPart_space _
  refine .significantWord _ ht (next?_keyword false .SELECT hw) (by decide) fun t hk _ => ?_
  rw [if_pos hk]
  exact (select_reads hf hx hs hfin (by omega) hr t).bind (.pure rfl)

/-! ### Queries -/

/-- What can be said of a statement that is read back. -/
structure StatementReads (n : Nat) (x : Statement) : Prop where
  canonical : x.Canonical
  finite : ∀ e ∈ x.roots, e.Everywhere Expr.FiniteNumber
  steps : x.render.length < n

theorem nextKind_statement (b : Bool) {x : Statement} (hx : x.Canonical) (rest : List Char) :
    nextKind b (x.render ++ rest) = .keyword .SELECT := by
  obtain ⟨s⟩ := x
  obtain ⟨f, fs, hf⟩ := List.exists_cons_of_ne_nil hx.fields.1
  obtain ⟨y, ys, hy⟩ := List.exists_cons_of_ne_nil hx.sources.1
  rw [Statement.render, render_select hf hy, List.append_assoc]
  exact nextKind_keyword b .SELECT _

theorem pastBlank_statement {x : Statement} (hx : x.Canonical) (rest : List Char) :
    pastBlank (x.render ++ rest) = x.render ++ rest :=
  pastBlank_of_nextKind (b := false) (by rw [nextKind_statement false hx rest]; decide)

/-- A round that reads a statement. -/
theorem statementRound_reads {x : Statement} (hx : StatementReads n x)
    (ht : pastBlank text = x.render ++ rest) (hr : EndsStatement rest) (before : List Statement) :
    (furtherStatement params n ⟨before, true⟩).Reads false text
      (.inl ⟨before ++ [x], false⟩) true rest := by
  obtain ⟨s⟩ := x
  have hk : nextKind false (pastBlank text) = .keyword .SELECT := by
    rw [ht, nextKind_statement false hx.canonical]
  have hs : (statement params n).Reads false (pastBlank text) (.select s) true rest :=
    statement_reads hx.canonical hx.finite hx.steps ((pastBlank_pastBlank text).trans ht) hr
  have hgo : (statement params n >>= fun y => pure (.inl ⟨before ++ [y], false⟩)).Reads false
      (pastBlank text) (.inl ⟨before ++ [.select s], false⟩ : Statements ⊕ Query) true rest :=
    hs.bind (.pure rfl)
  refine .lookAtSignificant (fun t ht => ?_) fun _ => hgo
  simp only [ht, hk, if_true]

/-- A round that reads a semicolon. -/
theorem semicolonRound_reads (before : List Statement) :
    (furtherStatement params n ⟨before, false⟩).Reads true (';' :: text)
      (.inl ⟨before, true⟩) false text := by
  refine .significantWord [';'] (pastBlank_eq_self rfl) (next?_semicolon true text) (by decide)
    fun t hk _ => ?_
  simp only [hk]
  exact .pure rfl

/-- A round that finds the end of the text. -/
theorem endRound_reads (s : Statements) :
    (furtherStatement params n s).Reads b [] (.inr ⟨s.statements⟩) b [] := by
  refine .significantEnd rfl fun t hk => ?_
  simp only [hk]
  exact .pure rfl

/-- The statements, up to the end of the text. -/
theorem statements_reads {x : Statement} {xs : List Statement}
    (hx : ∀ y ∈ x :: xs, StatementReads n y)
    (ht : pastBlank text = x.render ++ renderFurtherStatements xs) (m : Nat)
    (hm : 2 * xs.length + 1 < m) (before : List Statement) :
    (loop (furtherStatement params n) m ⟨before, true⟩).Reads false text ⟨before ++ x :: xs⟩
      true [] := by
  induction xs generalizing x text m before with
  | nil =>
    obtain ⟨m, rfl⟩ := Nat.exists_eq_add_of_lt hm
    obtain ⟨hx, -⟩ := List.forall_mem_cons.1 hx
    have hlast : (loop (furtherStatement params n) (m + 1) ⟨before ++ [x], false⟩).Reads true []
        ⟨before ++ [x]⟩ true [] :=
      (endRound_reads _).lastRound rfl
    rw [show 2 * ([] : List Statement).length + 1 + m + 1 = m + 1 + 1 by simp; omega]
    exact (statementRound_reads hx ht (.inl rfl) before).round hlast
  | cons y xs ih =>
    obtain ⟨m, rfl⟩ : ∃ k, m = k + 2 := ⟨m - 2, by omega⟩
    obtain ⟨hx, hxs⟩ := List.forall_mem_cons.1 hx
    obtain ⟨hy, -⟩ := List.forall_mem_cons.1 hxs
    rw [List.length_cons] at hm
    have hblank : pastBlank ('\n' :: (y.render ++ renderFurtherStatements xs)) =
        y.render ++ renderFurtherStatements xs :=
      pastBlank_statement hy.canonical _
    have hnext := ih hxs hblank m (by omega) (before ++ [x])
    rw [List.append_assoc, List.singleton_append] at hnext
    have hfurther : (loop (furtherStatement params n) (m + 1) ⟨before ++ [x], false⟩).Reads true
        (renderFurtherStatements (y :: xs)) ⟨before ++ x :: y :: xs⟩ true [] :=
      (semicolonRound_reads _).round hnext
    exact (statementRound_reads hx ht (endsStatement_renderFurtherStatements _) before).round
      hfurther

/-- Canonical queries are read. -/
theorem query_reads {q : Query} (hq : q.Canonical)
    (hf : ∀ e ∈ q.roots, e.Everywhere Expr.FiniteNumber) :
    ∃ b, (query params (q.render.length + 1)).Reads false q.render q b [] := by
  obtain ⟨xs⟩ := q
  cases xs with
  | nil => exact ⟨false, (endRound_reads _).lastRound rfl⟩
  | cons x xs =>
    obtain ⟨hx, hxs⟩ := List.forall_mem_cons.1 hq
    have hpos : x.render ≠ [] := fun h => by
      have hk := nextKind_statement false hx []
      rw [h] at hk
      cases hk
    have hlen := List.length_pos_iff.2 hpos
    have hcount := length_le_renderFurtherStatements xs
    refine ⟨true, ?_⟩
    rw [render_query, List.length_append]
    refine statements_reads (fun y hy => ⟨hq y hy, fun e he => ?_, ?_⟩) (pastBlank_statement hx _) _
      (by omega) []
    · exact hf e (List.mem_flatMap.2 ⟨y, hy, he⟩)
    · rcases List.mem_cons.1 hy with rfl | hy
      · omega
      · have := length_render_le hy
        omega

end Grammar

/-- The text of a canonical query whose numbers are finite is read back as this very query. -/
theorem parseQuery_text_of_canonical [PatternCompiler] {q : Query} (hq : q.Canonical)
    (hf : ∀ e ∈ q.roots, e.Everywhere Expr.FiniteNumber) (params : Params) :
    parseQuery q.text params = .ok q := by
  obtain ⟨b, h⟩ : ∃ b, (Grammar.query params (q.render.length + 1)).Reads false q.render q b [] :=
    Grammar.query_reads hq hf
  rw [parseQuery, Query.text, String.toList_ofList]
  exact h.run

/-- **Queries survive rendering.** The text of a query that was parsed from some text, with whatever
parameters, is read back as an equal query without any, if all numbers in it are finite. -/
theorem parseQuery_text [PatternCompiler] {source : String} {params : Params} {q : Query}
    (h : parseQuery source params = .ok q)
    (hf : ∀ e ∈ q.roots, e.Everywhere Expr.FiniteNumber) :
    parseQuery q.text .empty = .ok q ∧ q == q := by
  have hq : q.Canonical := (Grammar.query_yields_canonical _ _).run h
  refine ⟨parseQuery_text_of_canonical hq hf .empty, Query.beq_self fun e he => ?_⟩
  exact (hf e he).mono Expr.isNumber_of_finiteNumber

/-- A parameter with a negative value, and a measurement in a database. -/
theorem parseQuery_text_parameter :
    let source := "SELECT v+$p FROM d..m;"
    let params := Params.ofList [("p", .integer (-3))]
    let q : Query := ⟨[
      .select ⟨[⟨.binary .add (.atom (.var ⟨"v", .unknown⟩)) (.atom (.integer (-3))), none⟩],
        [.measurement ⟨some "d", some "", some "m", none⟩], none, true⟩]⟩
    (parseQuery source params = .ok q ∧ ∀ e ∈ q.roots, e.Everywhere Expr.FiniteNumber) ∧
      parseQuery q.text .empty = .ok q ∧ q == q := by
  intro source params q
  have h : parseQuery source params = .ok q := by
    cbv
  have hf : ∀ e ∈ q.roots, e.Everywhere Expr.FiniteNumber := by
    simp [q, Query.roots, Statement.roots, Select.roots, Expr.FiniteNumber]
  exact ⟨⟨h, hf⟩, parseQuery_text h hf⟩

end InfluxQL
