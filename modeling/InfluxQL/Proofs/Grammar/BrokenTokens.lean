import InfluxQL.Proofs.Grammar.Trace

/-!
# Nothing is read behind a broken token

A quoted text that is not well-formed is an error wherever it stands: a production that reads its token
and does not put it back fails there, and nothing happens any more.

* `Event.breaks`: a broken token is read and not put back;
* `Production.Halts`: if that happens, it happens last, and the outcome is an error;
* `Production.Trace.Halts`, `Production.Held.Halts`: a production halts so from every stream on;
* `Grammar.query_halts`: the statement for queries.
-/

namespace InfluxQL

/-- A broken token is read, and is not put back. -/
def Event.breaks : Event → Bool
  | given .returned _ => false
  | given _ t => t.kind.isBroken
  | _ => false

namespace Production

variable {α β : Type} {p q : Production α} {T : Trace p} {U : Trace q} {t : Token}

/-- If a broken token is read, then it is read last, and the outcome is an error. -/
def Halts (evs : List Event) (o : Except ParseError (α × TokenStream)) : Prop :=
  (∀ ev ∈ evs, ¬ev.breaks) ∨
    ∃ before ev e, evs = before ++ [ev] ∧ (∀ ev ∈ before, ¬ev.breaks) ∧ o = .error e

theorem Halts.cons {ev : Event} {evs : List Event} {o : Except ParseError (α × TokenStream)}
    (hev : ¬ev.breaks) (h : Halts evs o) : Halts (ev :: evs) o := by
  rcases h with h | ⟨before, ev', e, rfl, h, ho⟩
  · exact .inl (List.forall_mem_cons.2 ⟨hev, h⟩)
  · exact .inr ⟨ev :: before, ev', e, rfl, List.forall_mem_cons.2 ⟨hev, h⟩, ho⟩

/-- A token is read last, and if it is broken, then the outcome is an error. -/
theorem Halts.last {u : Use} {o : Except ParseError (α × TokenStream)}
    (h : t.kind.isBroken → ∃ e, o = .error e) : Halts [.given u t] o := by
  by_cases ht : t.kind.isBroken
  · obtain ⟨e, he⟩ := h ht
    exact .inr ⟨[], _, e, rfl, List.forall_mem_nil _, he⟩
  · refine .inl (List.forall_mem_singleton.2 ?_)
    cases u with
    | returned => nofun
    | taken | regex => exact ht

/-- Before something that happens no broken token is read. -/
theorem Halts.not_breaks {before behind : List Event} {ev : Event}
    {o : Except ParseError (α × TokenStream)} (h : Halts (before ++ ev :: behind) o) :
    ∀ ev' ∈ before, ¬ev'.breaks := by
  rcases h with h | ⟨before', last, e, hevs, h, -⟩
  · exact fun ev' hev' => h ev' (List.mem_append_left _ hev')
  · have hlength := congrArg List.length hevs
    simp only [List.length_append, List.length_cons, List.length_nil] at hlength
    have hfront : before <+: before' :=
      List.prefix_of_prefix_length_le (hevs ▸ List.prefix_append _ _) (List.prefix_append _ _)
        (by omega)
    exact fun ev' hev' => h ev' (hfront.subset hev')

/-- From every stream on a broken token is read last if at all. -/
def Trace.Halts (T : Trace p) : Prop :=
  ∀ s, Production.Halts (T.events s) (p s)

/-- The same when the token has just been read. -/
def Held.Halts (H : Held p) (t : Token) : Prop :=
  ∀ s, Production.Halts (.given H.use t :: H.events s) (p s)

theorem Trace.Halts.congr (hT : T.Halts) (h : p = q) : (T.congr h).Halts := by
  subst h
  exact hT

theorem Trace.Halts.still {h : ∀ s a s', p s = .ok (a, s') → s' = s} : (Trace.still h).Halts :=
  fun _ => .inl (List.forall_mem_nil _)

theorem Trace.Halts.pure (a : α) : (Trace.pure a).Halts :=
  still

theorem Trace.Halts.fail (e : ParseError) :
    (Trace.fail e : Trace (Production.fail e : Production α)).Halts :=
  still

theorem Trace.Halts.bind {p : Production β} {T : Trace p} {f : β → Production α}
    {U : ∀ x, Trace (f x)} (hT : T.Halts) (hU : ∀ x, (U x).Halts) : (T.bind U).Halts := by
  intro s
  have hT := hT s
  simp only [Trace.bind, Bind.bind, StateT.bind]
  cases hp : p s with
  | error e =>
    rw [hp] at hT
    rw [List.append_nil]
    exact hT.imp_right fun ⟨before, ev, _, hevs, h, _⟩ => ⟨before, ev, e, hevs, h, rfl⟩
  | ok r =>
    rw [hp] at hT
    -- The first part has succeeded, so that no broken token was read in it.
    have hfirst := hT.resolve_right (by rintro ⟨_, _, _, _, _, ⟨⟩⟩)
    rcases hU r.1 r.2 with h | ⟨before, ev, e, hevs, h, ho⟩
    · exact .inl (List.forall_mem_append.2 ⟨hfirst, h⟩)
    · refine .inr ⟨T.events s ++ before, ev, e, ?_, List.forall_mem_append.2 ⟨hfirst, h⟩, ho⟩
      rw [List.append_assoc, ← hevs]

theorem Trace.Halts.mark {m : Mark} (hT : T.Halts) : (T.mark m).Halts :=
  fun s => (hT s).cons nofun

theorem Trace.Halts.ite {c : Prop} [Decidable c] (hT : T.Halts) (hU : U.Halts) :
    (Trace.ite T U : Trace (if c then p else q)).Halts := by
  unfold Trace.ite
  split
  · exact hT.congr _
  · exact hU.congr _

theorem Trace.Halts.skipBlank : Trace.skipBlank.Halts := by
  refine fun s => .inl (List.forall_mem_singleton.2 ?_)
  by_cases hk : s.scan.1.kind = .blank
  · rw [if_pos hk]
    show ¬s.scan.1.kind.isBroken
    rw [hk]
    nofun
  · rw [if_neg hk]
    nofun

theorem Trace.Halts.peek? : Trace.peek?.Halts :=
  fun _ => .inl (List.forall_mem_singleton.2 nofun)

theorem Trace.Halts.next {f : Token → Production α} {H : ∀ t, Held (f t)}
    (hH : ∀ t, (H t).Halts t) : (Trace.next H).Halts :=
  fun s => hH s.scan.1 s.scan.2

theorem Trace.Halts.significant {f : Token → Production α} {H : ∀ t, Held (f t)}
    (hH : ∀ t, (H t).Halts t) : (Trace.significant H).Halts :=
  (bind skipBlank fun _ => next hH).congr _

theorem Held.Halts.congr {H : Held p} (hH : H.Halts t) (h : p = q) : (H.congr h).Halts t := by
  subst h
  exact hH

/-- A token that is not broken is taken. -/
theorem Held.Halts.takeAs {bound : Bool} (ht : ¬t.kind.isBroken) (hT : T.Halts) :
    (Held.takeAs bound T).Halts t :=
  fun s => (hT s).cons ht

theorem Held.Halts.take (ht : ¬t.kind.isBroken) (hT : T.Halts) : (Held.take T).Halts t :=
  takeAs ht hT

/-- A token is taken, and if it is broken, then the production fails at once. -/
theorem Held.Halts.takeStill {bound : Bool} {h : ∀ s a s', p s = .ok (a, s') → s' = s}
    (hp : t.kind.isBroken → ∀ s, ∃ e, p s = .error e) :
    (Held.takeAs bound (.still h)).Halts t :=
  fun s => .last fun ht => hp ht s

theorem Held.Halts.fail (e : ParseError) :
    (Held.take (.fail e) : Held (Production.fail e : Production α)).Halts t :=
  takeStill fun _ _ => ⟨e, rfl⟩

theorem Held.Halts.putBack (hT : T.Halts) : (Held.putBack T).Halts t :=
  fun s => (hT s.unscan).cons nofun

theorem Held.Halts.ite {c : Prop} [Decidable c] {H : Held p} {K : Held q} (hH : c → H.Halts t)
    (hK : ¬c → K.Halts t) : (Held.ite H K : Held (if c then p else q)).Halts t := by
  unfold Held.ite
  split
  · next hc => exact (hH hc).congr _
  · next hc => exact (hK hc).congr _

namespace Trace.Halts

variable {k : TokenKind} {y : Token → Production α} {V : ∀ t, Trace (y t)} {expected : List String}

theorem lookFor (hk : k.isBroken = false) (hV : ∀ t, (V t).Halts) (hU : U.Halts) :
    (Trace.lookFor (k := k) V U).Halts :=
  next fun t => .ite (fun ht => .take (by rw [ht, hk]; nofun) (hV t)) fun _ => .putBack hU

theorem lookForSignificant (hk : k.isBroken = false) (hV : ∀ t, (V t).Halts) (hU : U.Halts) :
    (Trace.lookForSignificant (k := k) V U).Halts :=
  significant fun t => .ite (fun ht => .take (by rw [ht, hk]; nofun) (hV t)) fun _ => .putBack hU

theorem expect (hk : k.isBroken = false) (hV : ∀ t, (V t).Halts) :
    (Trace.expect V : Trace (scan >>= fun t =>
      if t.kind = k then y t else unexpected t expected)).Halts :=
  next fun t => .ite (fun ht => .take (by rw [ht, hk]; nofun) (hV t)) fun _ => .fail _

theorem expectSignificant (hk : k.isBroken = false) (hV : ∀ t, (V t).Halts) :
    (Trace.expectSignificant V : Trace (scanSignificant >>= fun t =>
      if t.kind = k then y t else unexpected t expected)).Halts :=
  significant fun t => .ite (fun ht => .take (by rw [ht, hk]; nofun) (hV t)) fun _ => .fail _

theorem loop {body : β → Production (β ⊕ α)} {m : Mark} {V : ∀ b, Trace (body b)}
    (hV : ∀ b, (V b).Halts) (n : Nat) (b : β) : (Trace.loop m V n b).Halts := by
  -- By induction on the rounds that are left.
  induction n generalizing b with
  | zero => exact fail _
  | succ n ih =>
    refine (hV b).mark.bind fun r => ?_
    cases r with
    | inl b => exact ih b
    | inr a => exact pure a

/-- A regular expression that is broken is an error. -/
theorem atSlash {f : Token → Production α} {h : ∀ t s a s', f t s = .ok (a, s') → s' = s}
    (hf : ∀ t, t.kind.isBroken → ∀ s, ∃ e, f t s = .error e) (hU : U.Halts) :
    (Trace.atSlash (fun t => .still (h t)) U).Halts := by
  intro s
  simp only [Trace.atSlash, Production.atSlash]
  refine .cons nofun ?_
  split
  · exact .last fun ht => hf s.scanRegex.1 ht s.scanRegex.2
  · exact hU s

end Trace.Halts

end Production

namespace Grammar

open Production

variable {params : Params} {n : Nat}

/-! ### Names -/

theorem identToken_halts : identTokenTrace.Halts :=
  .expectSignificant rfl fun t => .pure t

theorem segment_halts (s : Segments) : (segmentTrace s).Halts := by
  refine .congr (.lookFor rfl (fun t => .bind .peek? fun c? => ?_) (.pure _)) _
  exact .ite (.pure _) (.ite (.pure _) (identToken_halts.bind fun _ => .pure _))

theorem segments_halts (first : Token) : (segmentsTrace n first).Halts :=
  (Trace.Halts.loop segment_halts n _).bind fun _ => .ite (.pure _) (.fail _)

theorem dottedName_halts : (dottedNameTrace n).Halts :=
  identToken_halts.bind segments_halts

variable [PatternCompiler]

/-! ### Expressions -/

theorem regex_halts : regexTrace.Halts := by
  refine .congr (.bind (.congr (.bind .peek? fun _ => .ite .skipBlank (.pure _)) _) fun _ => ?_) _
  refine .atSlash (fun t ht => regexLiteral_fails ?_) (.pure _)
  intro hk
  rw [hk] at ht
  cases ht

omit [PatternCompiler] in
theorem typed_fails (name : String) {t : Token} (ht : t.kind.isBroken) (s : TokenStream) :
    ∃ e, typed name t s = .error e := by
  have hne : t.kind ≠ .ident := TokenKind.ne_of_isIdle (TokenKind.isIdle_of_isBroken ht) rfl
  rw [typed, if_neg hne]
  exact ⟨_, rfl⟩

omit [PatternCompiler] in
theorem reference_halts (first : Token) : (referenceTrace n first).Halts := by
  refine (segments_halts first).bind fun names => .lookFor rfl (fun _ => .next fun t => ?_) (.pure _)
  exact .takeStill (typed_fails _)

section Nested

variable {nested : Production Expr} {T : Trace nested} (hT : T.Halts)
include hT

theorem argument_halts : (argumentTrace T).Halts := by
  refine regex_halts.bind fun p? => ?_
  cases p? with
  | some p => exact .pure _
  | none => exact hT.mark

theorem arguments_halts (first : Expr) : (argumentsTrace T n first).Halts := by
  have hround : ∀ args, (furtherArgumentTrace T args).Halts := fun args =>
    .lookForSignificant rfl (fun _ => (argument_halts hT).bind fun _ => .pure _) (.pure _)
  exact (Trace.Halts.loop hround n _).bind fun _ => .expect rfl fun _ => .pure _

theorem callArguments_halts : (callArgumentsTrace T n).Halts := by
  refine regex_halts.bind fun p? => ?_
  cases p? with
  | some p => exact arguments_halts hT _
  | none => exact .lookFor rfl (fun _ => .pure _) (hT.mark.bind fun e => arguments_halts hT e)

theorem operand_halts : (operandTrace params n T).Halts := by
  refine .congr (.significant fun t => .ite (fun ht => .take ?_ ?_) fun _ => .ite (fun ht => .take ?_ ?_)
    fun _ => .takeStill fun ht s => ?_) _
  · rw [ht]
    nofun
  · exact hT.mark.bind fun _ => .expectSignificant rfl fun _ => .pure _
  · rw [ht]
    nofun
  · exact .lookFor rfl (fun _ => (callArguments_halts hT).bind fun _ => .pure _)
      ((reference_halts t).bind fun _ => .pure _)
  · obtain ⟨cause, hfail⟩ := tokenOperand_of_isIdle params (TokenKind.isIdle_of_isBroken ht)
    rw [hfail]
    exact ⟨_, rfl⟩

theorem rightOperand_halts (op : Operator) : (rightOperandTrace params n T op).Halts := by
  refine .ite (.bind .skipBlank fun _ => regex_halts.bind fun p? => ?_) (operand_halts hT)
  cases p? with
  | some p => exact .pure _
  | none => exact .significant fun _ => .fail _

theorem operation_halts (ops : List (Operator × Expr)) : (operationTrace params n T ops).Halts := by
  refine .significant fun t => ?_
  have hop : t.kind.operator? ≠ none → ¬t.kind.isBroken := by
    cases t.kind <;> simp [TokenKind.operator?, TokenKind.isBroken]
  generalize t.kind.operator? = op? at hop
  cases op? with
  | none => exact .putBack (.pure _)
  | some op => exact .take (hop (Option.some_ne_none op)) ((rightOperand_halts hT op).bind fun _ => .pure _)

end Nested

theorem expression_halts (n : Nat) : (expressionTrace params n).Halts := by
  -- By induction on the steps; an expression within another has one less.
  induction n with
  | zero => exact .fail _
  | succ n ih =>
    have hchain : (chainTrace params n (expressionTrace params n)).Halts :=
      (operand_halts ih).bind fun _ => (Trace.Halts.loop (operation_halts ih) n []).bind fun _ => .pure _
    exact hchain.bind fun _ => .pure _

/-! ### Statements -/

theorem field_halts : (fieldTrace params n).Halts := by
  refine .significant fun _ => .putBack ((expression_halts n).bind fun e => ?_)
  generalize e.firstCondition? = op?
  cases op? with
  | some op => exact .fail _
  | none =>
    refine .bind (.lookForSignificant rfl (fun _ => ?_) (.pure _)) fun _ => .bind .skipBlank fun _ => .pure _
    exact .bind (identToken_halts.bind fun _ => .pure _) fun _ => .pure _

theorem source_halts : (sourceTrace n).Halts := by
  refine regex_halts.bind fun p? => ?_
  cases p? with
  | some p => exact .pure _
  | none => exact dottedName_halts.bind fun _ => .ite (.pure _) (regex_halts.bind fun _ => .pure _)

theorem select_halts (first : Token) : (selectTrace params n first).Halts := by
  have hfield : ∀ fields, (furtherFieldTrace params n fields).Halts := fun _ =>
    field_halts.bind fun _ => .lookFor rfl (fun _ => .pure _) (.pure _)
  have hsource : ∀ sources, (furtherSourceTrace n sources).Halts := fun _ =>
    source_halts.bind fun _ => .lookForSignificant rfl (fun _ => .pure _) (.pure _)
  refine (Trace.Halts.loop hfield n []).bind fun _ => .expectSignificant rfl fun _ =>
    (Trace.Halts.loop hsource n []).bind fun _ => .bind (.lookForSignificant rfl (fun _ => ?_) (.pure _))
      fun _ => .still
  exact (expression_halts n).bind fun _ => .pure _

theorem furtherStatement_halts (s : Statements) : (furtherStatementTrace params n s).Halts := by
  have hstatement : (statementTrace params n).Halts :=
    .expectSignificant rfl fun t => (select_halts t).bind fun _ => .pure _
  refine .congr (.significant fun t => .ite (fun ht => .take ?_ (.pure _)) fun _ =>
    .ite (fun ht => .take ?_ (.pure _)) fun _ => .ite (fun _ => .putBack ?_) fun _ => .fail _) _
  · rw [ht]
    nofun
  · rw [ht]
    nofun
  · exact hstatement.bind fun _ => .pure _

/-- **While a query is read, nothing is read behind a broken token.** -/
theorem query_halts : (queryTrace params n).Halts :=
  .loop furtherStatement_halts n _

end Grammar

end InfluxQL
