import InfluxQL.Proofs.Grammar.Trace

/-!
# The steps are enough

Each round of a repetition, and each expression within another, takes at least one character. So a
parser that is allowed one step more than there are characters never lacks steps.

* `Production.Spends n least p`: with fewer than `n` characters ahead the production `p` does not
  lack steps, and a value `a` costs at least `least a` characters;
* `Grammar.query_spends`: the statement for queries.
-/

namespace InfluxQL

open TokenStream

namespace Scanner

/-- The number of characters ahead. -/
def left (c : Scanner) : Nat :=
  c.cursor.ahead.length

variable {c : Scanner}

theorem left_take {l : Lexeme} : (c.take l).2.left = c.left - l.width := by
  simp [left, take, Cursor.advance]

theorem left_scan_le : c.scan.2.left ≤ c.left := by
  rw [scan_eq]
  split
  · exact Nat.le_refl _
  · rw [left_take]
    exact Nat.sub_le _ _

/-- A token other than the end of the text takes at least one character. -/
theorem left_scan_lt (h : c.scan.1.kind ≠ .eof) : c.scan.2.left < c.left := by
  cases hl : Lexeme.next? c.afterOperand c.cursor.ahead with
  | none => exact absurd (kind_scan_eq_eof.2 (Lexeme.next?_eq_none_iff.1 hl)) h
  | some l =>
    have hw := Lexeme.width_bounds hl
    rw [scan_of_lexeme hl, left_take]
    unfold left
    omega

theorem left_pastBlank_le : c.pastBlank.left ≤ c.left := by
  unfold pastBlank
  split
  · exact left_scan_le
  · exact Nat.le_refl _

end Scanner

namespace Production

variable {α β : Type} {least : α → Nat} {n : Nat} {c : Scanner}

/-- The outcome does not lack steps, and fewer characters than `n` are ahead then, by as many as the
value costs. -/
def Leaves (n : Nat) (least : α → Nat) : Except ParseError (α × TokenStream) → Prop
  | .ok (a, s') => ∃ c', GoesOn c' s' ∧ c'.left + least a ≤ n
  | .error e => e.cause ≠ .outOfSteps

/-- With fewer than `n` characters ahead the production does not lack steps, and its values cost
what they cost at least. -/
def Spends (n : Nat) (least : α → Nat) (p : Production α) : Prop :=
  ∀ c s, GoesOn c s → c.left < n → Leaves c.left least (p s)

theorem Leaves.mono {n' : Nat} {least' : α → Nat} {o : Except ParseError (α × TokenStream)}
    (h : Leaves n least o) (hn : ∀ a, n + least' a ≤ n' + least a) : Leaves n' least' o := by
  cases o with
  | error e => exact h
  | ok r =>
    obtain ⟨c', hc', hle⟩ := h
    have := hn r.1
    exact ⟨c', hc', by omega⟩

theorem Spends.mono {p : Production α} {n' : Nat} {least' : α → Nat} (h : p.Spends n least)
    (hn : n' ≤ n) (hl : ∀ a, least' a ≤ least a) : p.Spends n' least' :=
  fun c s hs hc => (h c s hs (by omega)).mono fun a => by have := hl a; omega

theorem Spends.weaken {p : Production α} {n' : Nat} (h : p.Spends n least) (hn : n' ≤ n) :
    p.Spends n' fun _ => 0 :=
  h.mono hn fun _ => Nat.zero_le _

theorem Spends.pure {a : α} (h : least a = 0) : (Pure.pure a : Production α).Spends n least :=
  fun c s hs _ => ⟨c, hs, by omega⟩

theorem Spends.fail {e : ParseError} (h : e.cause ≠ .outOfSteps) :
    (fail e : Production α).Spends n least :=
  fun _ _ _ _ => h

theorem unexpected_cause_ne {t : Token} {expected : List String} :
    (ParseError.unexpected t expected).cause ≠ .outOfSteps :=
  nofun

theorem Spends.unexpected {t : Token} {expected : List String} :
    (unexpected t expected : Production α).Spends n least :=
  .fail unexpected_cause_ne

theorem Spends.bind {p : Production β} {f : β → Production α} {cost : β → Nat}
    (hp : p.Spends n cost) (hf : ∀ x, (f x).Spends (n - cost x) fun a => least a - cost x) :
    (p >>= f).Spends n least := by
  intro c s hs hc
  have h := hp c s hs hc
  simp only [Bind.bind, StateT.bind]
  cases hps : p s with
  | error e =>
    rw [hps] at h
    exact h
  | ok r =>
    obtain ⟨x, s₁⟩ := r
    rw [hps] at h
    obtain ⟨c₁, hc₁, hle⟩ := h
    exact (hf x c₁ s₁ hc₁ (by omega)).mono fun a => by omega

/-- What comes after a production whose values cost nothing. -/
theorem Spends.after {p : Production β} {f : β → Production α} (hp : p.Spends n fun _ => 0)
    (hf : ∀ x, (f x).Spends n least) : (p >>= f).Spends n least :=
  hp.bind hf

theorem Spends.ite {d : Prop} [Decidable d] {p q : Production α} (hp : p.Spends n least)
    (hq : q.Spends n least) : (if d then p else q).Spends n least := by
  split
  · exact hp
  · exact hq

/-- A repetition, if every round but the last costs something. -/
theorem Spends.loop {body : β → Production (β ⊕ α)} {m : Nat} (hn : n ≤ m)
    (h : ∀ b, (body b).Spends n (Sum.elim (fun _ => 1) least)) (b : β) :
    (loop body m b).Spends n least := by
  induction m generalizing n least b with
  | zero => exact fun c _ _ hc => absurd hc (by omega)
  | succ m ih =>
    rw [Production.loop]
    refine (h b).bind fun r => ?_
    cases r with
    | inl b' =>
      refine ih (n := n - 1) (by omega) (fun b => (h b).mono (by omega) fun r => ?_) b'
      cases r with
      | inl _ => exact Nat.le_refl _
      | inr a => exact Nat.sub_le _ _
    | inr a => exact .pure (Nat.sub_self _)

/-! ### Steps of the stream -/

theorem Leaves.take {p : Production α} (h : p.Spends (n - 1) fun a => least a - 1)
    (hc : c.left < n) (hk : c.scan.1.kind ≠ .eof) : Leaves c.left least (p (justRead c)) := by
  have hlt := Scanner.left_scan_lt hk
  exact (h _ _ (goesOn_justRead c) (by omega)).mono fun a => by omega

theorem Leaves.putBack {p : Production α} (h : p.Spends n least) (hc : c.left < n) :
    Leaves c.left least ((unscan >>= fun _ => p) (justRead c)) :=
  h _ _ (goesOn_unscan_justRead c) hc

theorem Spends.next {f : Token → Production α}
    (h : ∀ c : Scanner, c.left < n → Leaves c.left least (f c.scan.1 (justRead c))) :
    (scan >>= f).Spends n least := by
  intro c s hs hc
  show Leaves c.left least (f s.scan.1 s.scan.2)
  rw [hs.scan_eq]
  exact h c hc

theorem Spends.skipBlank : skipBlank.Spends n fun _ => 0 :=
  fun c _ hs _ => ⟨c.pastBlank, hs.skipBlank, Scanner.left_pastBlank_le⟩

theorem Spends.significant {f : Token → Production α}
    (h : ∀ c : Scanner, c.left < n → Leaves c.left least (f c.scan.1 (justRead c))) :
    (scanSignificant >>= f).Spends n least := by
  rw [Trace.scanSignificant_bind]
  exact .after .skipBlank fun _ => .next h

theorem Spends.peek? : peek?.Spends n fun _ => 0 :=
  fun c _ hs _ => ⟨c, hs, Nat.le_refl _⟩

variable {k : TokenKind} {y : Token → Production α} {p : Production α} {expected : List String}

theorem Leaves.lookFor (hk : k.isIdle = false) (hy : ∀ t, (y t).Spends (n - 1) fun a => least a - 1)
    (hp : p.Spends n least) (hc : c.left < n) : Leaves c.left least
      ((if c.scan.1.kind = k then y c.scan.1 else unscan >>= fun _ => p) (justRead c)) := by
  split
  · next h => exact .take (hy _) hc (h ▸ (TokenKind.ne_of_isIdle rfl hk).symm)
  · exact .putBack hp hc

/-- Looking for a token of a kind. -/
theorem Spends.lookFor (hk : k.isIdle = false)
    (hy : ∀ t, (y t).Spends (n - 1) fun a => least a - 1) (hp : p.Spends n least) :
    (scan >>= fun t => if t.kind = k then y t else unscan >>= fun _ => p).Spends n least :=
  .next fun _ hc => .lookFor hk hy hp hc

/-- Looking for a significant token of a kind. -/
theorem Spends.lookForSignificant (hk : k.isIdle = false)
    (hy : ∀ t, (y t).Spends (n - 1) fun a => least a - 1) (hp : p.Spends n least) :
    (scanSignificant >>= fun t => if t.kind = k then y t else unscan >>= fun _ => p).Spends n
      least :=
  .significant fun _ hc => .lookFor hk hy hp hc

theorem Leaves.expect (hk : k.isIdle = false) (hy : ∀ t, (y t).Spends (n - 1) fun a => least a - 1)
    (hc : c.left < n) : Leaves c.left least
      ((if c.scan.1.kind = k then y c.scan.1 else unexpected c.scan.1 expected) (justRead c)) := by
  split
  · next h => exact .take (hy _) hc (h ▸ (TokenKind.ne_of_isIdle rfl hk).symm)
  · exact unexpected_cause_ne

/-- A token of a kind, or else an error. -/
theorem Spends.expect (hk : k.isIdle = false)
    (hy : ∀ t, (y t).Spends (n - 1) fun a => least a - 1) :
    (scan >>= fun t => if t.kind = k then y t else Production.unexpected t expected).Spends n least :=
  .next fun _ hc => .expect hk hy hc

/-- A significant token of a kind, or else an error. -/
theorem Spends.expectSignificant (hk : k.isIdle = false)
    (hy : ∀ t, (y t).Spends (n - 1) fun a => least a - 1) :
    (scanSignificant >>= fun t =>
      if t.kind = k then y t else Production.unexpected t expected).Spends n least :=
  .significant fun _ hc => .expect hk hy hc

theorem Spends.atSlash {f : Token → Production α}
    (hf : ∀ t, (f t).Spends n least) (hp : p.Spends n least) :
    (atSlash f p).Spends n least := by
  intro c s hs hc
  unfold Production.atSlash
  rw [hs.peek?_eq]
  split
  · next hslash =>
    obtain ⟨rest, ha⟩ := List.head?_eq_some_iff.1 hslash
    show Leaves c.left least (f s.scanRegex.1 s.scanRegex.2)
    rw [hs.scanRegex_eq_regex ha]
    have hle : (c.regex rest).2.left ≤ c.left := by
      rw [Scanner.regex, Scanner.left_take]
      exact Nat.sub_le _ _
    refine (hf _ _ _ (goesOn_justReadRegex c rest) (by omega)).mono fun a => by omega
  · exact hp c s hs hc

end Production

namespace Grammar

open Production

variable {n : Nat}

/-! ### Names -/

theorem identToken_spends : identToken.Spends n fun _ => 1 :=
  .expectSignificant rfl fun _ => .pure rfl

theorem ident_spends : ident.Spends n fun _ => 1 :=
  .bind identToken_spends fun _ => .pure rfl

theorem segment_spends (s : Segments) :
    (segment s).Spends n (Sum.elim (fun _ => 1) fun _ => 0) := by
  rw [segment_eq]
  refine .lookFor rfl (fun t => .after .peek? fun c? => ?_) (.pure rfl)
  refine .ite (.pure rfl) (.ite (.pure rfl) ?_)
  exact .after (.weaken identToken_spends (Nat.le_refl _)) fun _ => .pure rfl

theorem segments_spends (first : Token) : (segments n first).Spends n fun _ => 0 :=
  (Spends.loop (Nat.le_refl n) segment_spends _).after fun s =>
    .ite (.pure rfl) (.fail (by simp))

theorem dottedName_spends : (dottedName n).Spends (n + 1) fun _ => 1 :=
  .bind identToken_spends fun t => segments_spends t

theorem typed_spends (name : String) (t : Token) : (typed name t).Spends n fun _ => 0 := by
  rcases typed_eq name t with ⟨v, hv⟩ | hv <;> rw [hv]
  · exact .pure rfl
  · exact .unexpected

theorem reference_spends (first : Token) : (reference n first).Spends n fun _ => 0 := by
  refine (segments_spends first).after fun names => .lookFor rfl (fun _ => .next fun c hc => ?_)
    (.pure rfl)
  exact (typed_spends _ _ _ _ (goesOn_justRead c) (Nat.lt_succ_self _)).mono fun _ =>
    Nat.add_le_add_right Scanner.left_scan_le _

variable [PatternCompiler]

/-! ### Expressions -/

theorem regexLiteral_spends (t : Token) : (regexLiteral t).Spends n fun _ => 0 := by
  unfold regexLiteral
  generalize t.kind = k
  cases k with
  | regex =>
    refine Spends.after ?_ fun p => .pure rfl
    rcases compiles_or_error t.lit with hc | ⟨text, he⟩
    · rw [pattern_of_compiles hc]
      exact .pure rfl
    · rw [pattern_of_error he]
      exact .fail (by simp [ParseError.atToken])
  | badEscape => exact .fail (by simp [ParseError.atToken])
  | badRegex => exact .fail (by simp [ParseError.atToken])
  | _ => exact .unexpected

theorem regex_spends : regex?.Spends n fun _ => 0 := by
  rw [regex?_eq, skipBlankCharacter_eq]
  refine Spends.after ?_ fun _ => .atSlash (fun t => regexLiteral_spends t) (.pure rfl)
  exact .after .peek? fun _ => .ite .skipBlank (.pure rfl)

section Nested

variable {nested : Production Expr} (hn : nested.Spends n fun _ => 0)
include hn

theorem argument_spends : (argument nested).Spends n fun _ => 0 := by
  refine .after regex_spends fun p? => ?_
  cases p? with
  | some p => exact .pure rfl
  | none => exact hn

theorem arguments_spends (first : Expr) : (arguments n nested first).Spends n fun _ => 0 := by
  refine (Spends.loop (Nat.le_refl n) (fun args => ?_) _).after fun args =>
    .expect rfl fun _ => .pure rfl
  refine .lookForSignificant rfl (fun _ => ?_) (.pure rfl)
  exact .after ((argument_spends hn).weaken (Nat.sub_le _ _)) fun _ => .pure rfl

theorem callArguments_spends : (callArguments n nested).Spends n fun _ => 0 := by
  refine .after regex_spends fun p? => ?_
  cases p? with
  | some p => exact arguments_spends hn _
  | none => exact .lookFor rfl (fun _ => .pure rfl) (hn.after fun e => arguments_spends hn e)

theorem callOrReference_spends (first : Token) :
    (callOrReference n nested first).Spends n fun _ => 0 := by
  refine .lookFor rfl (fun _ => ?_) ((reference_spends first).after fun _ => .pure rfl)
  exact .after ((callArguments_spends hn).weaken (Nat.sub_le _ _)) fun _ => .pure rfl

omit [PatternCompiler] in
theorem parenthesized_spends : (parenthesized nested).Spends n fun _ => 0 :=
  hn.after fun _ => .expectSignificant rfl fun _ => .pure rfl

variable {params : Params}

omit [PatternCompiler] hn in
theorem bound_spends (t : Token) : (bound params t).Spends n fun _ => 0 := by
  unfold bound
  refine .ite (.fail nofun) ?_
  generalize params.get? _ = v
  rcases v with _ | (_ | _ | _ | _ | _ | _)
  all_goals first
    | exact .pure rfl
    | exact .fail nofun

omit [PatternCompiler] hn in
theorem tokenOperand_spends (params : Params) (t : Token) :
    (tokenOperand params t).Spends n fun _ => 0 := by
  unfold tokenOperand
  generalize t.kind = k
  cases k with
  | integer =>
    dsimp only
    generalize Decimal.integer? t.lit.toList = i
    cases i with
    | some i => exact .pure rfl
    | none => exact .fail nofun
  | param => exact (bound_spends t).after fun _ => .pure rfl
  | string | number | bool => exact .pure rfl
  | badString | badEscape => exact .fail nofun
  | _ => exact .unexpected

theorem operand_spends : (operand params n nested).Spends (n + 1) fun _ => 1 := by
  rw [operand_eq]
  refine .significant fun c hc => ?_
  by_cases hk : c.scan.1.kind = .eof
  · obtain ⟨cause, hcause⟩ := tokenOperand_of_isIdle params (t := c.scan.1) (by
      rw [hk]
      rfl)
    have h := tokenOperand_spends params c.scan.1 _ _ (goesOn_justRead c)
      (Nat.lt_succ_self _)
    rw [if_neg (by rw [hk]; decide), if_neg (by rw [hk]; decide)]
    rw [hcause] at h ⊢
    exact h
  · split
    · exact Leaves.take (n := n + 1) (parenthesized_spends hn) hc hk
    · split
      · exact Leaves.take (n := n + 1) (callOrReference_spends hn _) hc hk
      · exact Leaves.take (n := n + 1) (tokenOperand_spends params _) hc hk

omit hn in
theorem matchOperand_spends : matchOperand.Spends n fun _ => 0 := by
  refine .after .skipBlank fun _ => .after regex_spends fun p? => ?_
  cases p? with
  | some p => exact .pure rfl
  | none => exact .significant fun c _ => unexpected_cause_ne

theorem operation_spends (ops : List (Operator × Expr)) :
    (operation params n nested ops).Spends n (Sum.elim (fun _ => 1) fun _ => 0) := by
  refine .significant fun c hc => ?_
  cases hop : c.scan.1.kind.operator? with
  | none => exact .putBack (.pure rfl) hc
  | some op =>
    have hk : c.scan.1.kind ≠ .eof := by
      intro hk
      rw [hk] at hop
      cases hop
    refine .take (Spends.after ?_ fun _ => .pure rfl) hc hk
    unfold rightOperand
    refine .ite (.weaken matchOperand_spends (Nat.le_refl _)) ?_
    exact (operand_spends hn).weaken (by omega)

theorem chain_spends : (chain params n nested).Spends (n + 1) fun _ => 1 :=
  (operand_spends hn).bind fun _ =>
    (Spends.loop (Nat.le_refl n) (operation_spends hn) _).after fun _ => .pure rfl

end Nested

theorem expression_spends (params : Params) (n : Nat) :
    (expression params n).Spends n fun _ => 1 := by
  induction n with
  | zero => exact fun c _ _ hc => absurd hc (Nat.not_lt_zero _)
  | succ n ih =>
    exact (chain_spends (ih.weaken (Nat.le_refl _))).bind fun _ => .pure rfl

/-! ### Statements -/

section Statements

variable {params : Params}

theorem expression_spends_nothing (m : Nat) (h : m ≤ n) :
    (expression params n).Spends m fun _ => 0 :=
  (expression_spends params n).weaken h

omit [PatternCompiler] in
theorem fieldName_spends : fieldName?.Spends n fun _ => 0 :=
  .lookForSignificant rfl (fun _ => .after (.weaken ident_spends (Nat.le_refl _)) fun _ => .pure rfl)
    (.pure rfl)

theorem field_spends : (field params n).Spends n fun _ => 0 := by
  refine .significant fun c hc => .putBack ?_ hc
  refine (expression_spends_nothing n (Nat.le_refl n)).after fun e => ?_
  generalize e.firstCondition? = op?
  cases op? with
  | some op => exact .fail nofun
  | none => exact .after fieldName_spends fun _ => .after .skipBlank fun _ => .pure rfl

theorem furtherField_spends (fields : List Field) :
    (furtherField params n fields).Spends n (Sum.elim (fun _ => 1) fun _ => 0) :=
  .after field_spends fun _ => .lookFor rfl (fun _ => .pure rfl) (.pure rfl)

theorem source_spends : (source n).Spends n fun _ => 0 := by
  refine .after regex_spends fun p? => ?_
  cases p? with
  | some p => exact .pure rfl
  | none =>
    refine .after (.weaken dottedName_spends (Nat.le_succ n)) fun names => ?_
    exact .ite (.pure rfl) (.after regex_spends fun _ => .pure rfl)

theorem furtherSource_spends (sources : List Source) :
    (furtherSource n sources).Spends n (Sum.elim (fun _ => 1) fun _ => 0) :=
  .after source_spends fun _ => .lookForSignificant rfl (fun _ => .pure rfl) (.pure rfl)

theorem condition_spends : (condition? params n).Spends n fun _ => 0 :=
  .lookForSignificant rfl (fun _ => (expression_spends_nothing _ (Nat.sub_le _ _)).after
    fun _ => .pure rfl) (.pure rfl)

theorem select_spends (first : Token) : (select params n first).Spends n fun _ => 0 := by
  refine ((Spends.loop (Nat.le_refl n) furtherField_spends _)).after fun fields => ?_
  refine .expectSignificant rfl fun _ => ?_
  refine .after ((Spends.loop (Nat.le_refl n) furtherSource_spends _).weaken (Nat.sub_le _ _))
    fun sources => ?_
  refine .after (.weaken condition_spends (Nat.sub_le _ _)) fun condition => ?_
  show Spends _ _ (validated first _)
  unfold validated
  split
  · exact .pure rfl
  · exact .fail nofun

theorem statement_spends : (statement params n).Spends n fun _ => 1 :=
  .expectSignificant rfl fun t => .after ((select_spends t).weaken (Nat.sub_le _ _)) fun _ => .pure rfl

theorem furtherStatement_spends (s : Statements) :
    (furtherStatement params n s).Spends n (Sum.elim (fun _ => 1) fun _ => 0) := by
  rw [furtherStatement_eq]
  refine .significant fun c hc => ?_
  unfold behindStatements
  split
  · exact ⟨_, goesOn_justRead c, Scanner.left_scan_le⟩
  · next hk =>
    split
    · exact .take (.pure rfl) hc hk
    · split
      · refine Leaves.putBack (n := n) ?_ hc
        refine Spends.bind (statement_spends (n := n)) fun x => ?_
        exact Spends.pure rfl
      · exact unexpected_cause_ne

/-- A query does not lack steps if it is allowed more than there are characters. -/
theorem query_spends (params : Params) (n : Nat) : (query params n).Spends n fun _ => 0 :=
  .loop (Nat.le_refl n) furtherStatement_spends _

end Statements

end Grammar

theorem Production.run_eq_ok {α : Type} {p : Production α} {source : List Char} {a : α} :
    p.run source = .ok a ↔ ∃ s, p (TokenStream.start source) = .ok (a, s) := by
  unfold Production.run
  split <;> simp_all

theorem Production.run_eq_error {α : Type} {p : Production α} {source : List Char}
    {e : ParseError} : p.run source = .error e ↔ p (TokenStream.start source) = .error e := by
  unfold Production.run
  split <;> simp_all

/-- A run that is allowed one step more than there are characters does not lack steps. -/
theorem Production.cause_ne_of_run {α : Type} {p : Production α} {least : α → Nat}
    {source : List Char} {e : ParseError} (hp : p.Spends (Grammar.stepsFor source) least)
    (h : p.run source = .error e) : e.cause ≠ .outOfSteps := by
  have hleaves := hp (Scanner.start source) (TokenStream.start source) (.clear none)
    (Nat.lt_succ_self _)
  rw [Production.run_eq_error.1 h] at hleaves
  exact hleaves

/-- No text is too long for the steps that it is given. -/
theorem parseQuery_cause_ne [PatternCompiler] {source : String} {params : Params} {e : ParseError}
    (h : parseQuery source params = .error e) : e.cause ≠ .outOfSteps :=
  Production.cause_ne_of_run (Grammar.query_spends params _) h

theorem parseStatement_cause_ne [PatternCompiler] {source : String} {params : Params} {e : ParseError}
    (h : parseStatement source params = .error e) : e.cause ≠ .outOfSteps :=
  Production.cause_ne_of_run Grammar.statement_spends h

theorem parseExpr_cause_ne [PatternCompiler] {source : String} {params : Params} {e : ParseError}
    (h : parseExpr source params = .error e) : e.cause ≠ .outOfSteps :=
  Production.cause_ne_of_run (Grammar.expression_spends params _) h

end InfluxQL
