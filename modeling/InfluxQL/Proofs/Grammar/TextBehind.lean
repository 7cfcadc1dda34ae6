import InfluxQL.Proofs.Grammar.Concatenation
import InfluxQL.Proofs.Grammar.Yield
import InfluxQL.Proofs.Syntax.Equality

/-!
# The text behind a statement or an expression

A statement or an expression is read from the beginning of a text, and what stands behind it on a
line of its own, after a semicolon, is not looked at. The statements of a query are not looked at
again either: the first is the one that is read when only one is wanted.

* `Production.run_behind`: a production that reads alike before the semicolon reads the same value;
* `Grammar.furtherStatement_yields`: what has been read of a query stays;
* `parse_ignores_text_behind`: the statement for both entry points, and for queries.
-/

namespace InfluxQL

open Production Scanner TokenStream

/-- What a production reads from a text is read also if the text goes on behind a semicolon. -/
theorem Production.run_behind {α : Type} {p p' : Production α} {T : Trace p} {first rest : List Char}
    (h : (Likeness.continuation first rest).Alike Eq T p') {a : α} (hrun : p.run first = .ok a) :
    p'.run (first ++ '\n' :: ';' :: rest) = .ok a := by
  obtain ⟨s₁, hs₁⟩ := run_eq_ok.1 hrun
  have hstart : Continues first rest (Scanner.start first)
      (Scanner.start (first ++ '\n' :: ';' :: rest)) := ⟨rfl, rfl, .inl rfl⟩
  have hmeets := h _ _ _ _ hstart (.clear none) (.clear none)
  change (Likeness.continuation first rest).Meets _ _ _ (p (TokenStream.start first))
    (p' (TokenStream.start _)) at hmeets
  rw [hs₁] at hmeets
  generalize hp' : p' (TokenStream.start _) = o' at hmeets
  cases hmeets with
  | ok ha => exact run_eq_ok.2 ⟨_, by rw [hp', ← ha.1]⟩
  | astray h =>
    rcases h with ⟨e, he, -⟩ | ⟨_, _, _, _, _, _, hm⟩
    · cases he
    · exact hm.elim

namespace Grammar

variable [PatternCompiler]
variable {params : Params} {n : Nat} {c : Scanner} {s s' : TokenStream}

/-- Further statements are read behind those that have been read. -/
theorem furtherStatement_yields (before : List Statement) {st : Statements}
    (h : before <+: st.statements) : (furtherStatement params n st).Yields
      (Sum.elim (before <+: ·.statements) (before <+: ·.statements)) := by
  rw [furtherStatement_eq]
  refine .after fun t => ?_
  unfold behindStatements
  split_ifs
  · exact .pure h
  · exact .pure h
  · exact .after fun _ => .after fun x => .pure (h.trans (List.prefix_append _ _))
  · exact .unexpected

/-- Blanks before a statement make no difference. -/
theorem statement_pastBlank (hs : GoesOn c s) (hs' : GoesOn c.pastBlank s') :
    statement params n s = statement params n s' := by
  have hnext : s.scanSignificant = s'.scanSignificant := by
    rw [hs.scanSignificant_eq, hs'.scanSignificant_eq, pastBlank_pastBlank]
  have hread : ∀ f : Token → Production Statement,
      (scanSignificant >>= f) s = (scanSignificant >>= f) s' := by
    intro f
    show f s.scanSignificant.1 s.scanSignificant.2 = f s'.scanSignificant.1 s'.scanSignificant.2
    rw [hnext]
  exact hread _

/-- The first statement of a query that does not begin with a semicolon. -/
theorem statement_of_query {m : Nat} {q : Query} {x : Statement} (hs : GoesOn c s)
    (hrun : loop (furtherStatement params n) m ⟨[], true⟩ s = .ok (q, s'))
    (hx : q.statements.head? = some x) (hsemicolon : c.pastBlank.scan.1.kind ≠ .semicolon) :
    ∃ s₁, statement params n s = .ok (x, s₁) := by
  cases m with
  | zero => cases hrun
  | succ m =>
    obtain ⟨r, s₂, hr, hrun⟩ := bind_eq_ok.1 hrun
    rw [furtherStatement_of_goesOn hs, behindStatements] at hr
    split_ifs at hr with heof hseparated
    · -- A text that ends at once holds no statement.
      cases hr
      cases hrun
      cases hx
    · obtain ⟨_, s₃, hunscan, hr⟩ := bind_eq_ok.1 hr
      cases hunscan
      obtain ⟨y, s₄, hy, hr⟩ := bind_eq_ok.1 hr
      cases hr
      have hbefore : [y] <+: q.statements := Yields.loop
        (fun st h => furtherStatement_yields [y] h) m (List.prefix_refl [y]) _ _ _ hrun
      obtain ⟨rest, hq⟩ := hbefore
      rw [← hq] at hx
      cases hx
      exact ⟨_, (statement_pastBlank hs (goesOn_unscan_justRead c.pastBlank)).trans hy⟩
    · exact absurd rfl hseparated

end Grammar

open Grammar in
/-- **The text behind a statement or an expression is not looked at.** A statement that was read is
read also if a line of its own with a semicolon, and any text behind it, follows the source; so is an
expression; and the first statement of a query that does not begin with a semicolon is the one that
is read when a single statement is wanted. -/
theorem parse_ignores_text_behind [PatternCompiler] (source : String) (params : Params) :
    (∀ x, parseStatement source params = .ok x →
      ∀ rest, parseStatement (source ++ "\n;" ++ rest) params = .ok x) ∧
    (∀ e, parseExpr source params = .ok e →
      ∀ rest, parseExpr (source ++ "\n;" ++ rest) params = .ok e) ∧
    (∀ q x, parseQuery source params = .ok q → q.statements.head? = some x →
      (TokenStream.start source.toList).scanSignificant.1.kind ≠ .semicolon →
      parseStatement source params = .ok x) := by
  have htext : ∀ rest : String,
      (source ++ "\n;" ++ rest).toList = source.toList ++ '\n' :: ';' :: rest.toList := by
    simp
  have hsteps : ∀ rest, stepsFor source.toList ≤ stepsFor (source.toList ++ '\n' :: ';' :: rest) := by
    intro rest
    simp only [stepsFor, List.length_append]
    omega
  refine ⟨fun x hx rest => ?_, fun e he rest => ?_, fun q x hq hx hsemicolon => ?_⟩
  · rw [parseStatement, htext]
    exact run_behind (statement_alike Likeness.continuation_lawful (hsteps _) trivial) hx
  · rw [parseExpr, htext]
    exact run_behind (Likeness.AlikeFrom.ofNear Likeness.continuation_lawful
      (expression_alike Likeness.continuation_lawful trivial (hsteps _))) he
  · obtain ⟨s₁, hrun⟩ := run_eq_ok.1 hq
    have hs : GoesOn (Scanner.start source.toList) (TokenStream.start source.toList) := .clear none
    rw [hs.scanSignificant_eq] at hsemicolon
    exact run_eq_ok.2 (statement_of_query hs hrun hx hsemicolon)

/-- A statement that ends before a text that is not even made of tokens. -/
theorem parse_ignores_text_behind_garbage :
    let source := "SELECT a FROM b 'c"
    let x : Statement := .select ⟨[⟨.atom (.var ⟨"a", .unknown⟩), none⟩],
      [.measurement ⟨none, none, some "b", none⟩], none, true⟩
    parseStatement source .empty = .ok x ∧
      parseStatement (source ++ "\n;" ++ "d' ?") .empty = .ok x := by
  intro source x
  have h : parseStatement source .empty = .ok x := by
    decide +kernel
  exact ⟨h, (parse_ignores_text_behind source .empty).1 x h "d' ?"⟩

end InfluxQL
