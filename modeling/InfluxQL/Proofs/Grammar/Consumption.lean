import InfluxQL.Proofs.Grammar.Course
import InfluxQL.Proofs.Grammar.Concatenation

/-!
# Parsing consumes the text

No rule of the grammar leaves the stream before the byte where it found it. Each round of a repetition,
and each expression within another, begins further on than the one before of its sort, so that there are
no more of them than four for each byte of the text and four for its end.

* `Grammar.IsRule`: the rules of the grammar;
* `Grammar.IsRule.offset_le`: a rule never leads back;
* `begun`, `beginnings`: where something of one sort began in a run, and where anything did;
* `Production.rounds_sublist_begun`: each round of a repetition leaves its mark;
* `parse_consumes`: the statement for queries, statements and expressions.
-/

namespace InfluxQL

open Production Scanner TokenStream

namespace Grammar

variable [PatternCompiler]

/-- The rules of the grammar, each with the steps that it is allowed and what has been read before. -/
inductive IsRule (params : Params) : {α : Type} → Production α → Prop
  | identToken : IsRule params identToken
  | ident : IsRule params ident
  | segment (s : Segments) : IsRule params (segment s)
  | segmentLoop (n : Nat) (s : Segments) : IsRule params (loop segment n s)
  | segments (n : Nat) (first : Token) : IsRule params (segments n first)
  | dottedName (n : Nat) : IsRule params (dottedName n)
  | pattern (t : Token) : IsRule params (pattern t)
  | skipBlankCharacter : IsRule params skipBlankCharacter
  | regex? : IsRule params regex?
  | bound (t : Token) : IsRule params (bound params t)
  | reference (n : Nat) (first : Token) : IsRule params (reference n first)
  | argument (n : Nat) : IsRule params (argument (expression params n))
  | furtherArgument (n : Nat) (args : List Expr) :
      IsRule params (furtherArgument (expression params n) args)
  | argumentLoop (m n : Nat) (args : List Expr) :
      IsRule params (loop (Grammar.furtherArgument (expression params n)) m args)
  | arguments (m n : Nat) (e : Expr) : IsRule params (arguments m (expression params n) e)
  | callArguments (m n : Nat) : IsRule params (callArguments m (expression params n))
  | callOrReference (m n : Nat) (first : Token) :
      IsRule params (callOrReference m (expression params n) first)
  | parenthesized (n : Nat) : IsRule params (parenthesized (expression params n))
  | operand (m n : Nat) : IsRule params (operand params m (expression params n))
  | matchOperand : IsRule params matchOperand
  | rightOperand (m n : Nat) (op : Operator) :
      IsRule params (rightOperand params m (expression params n) op)
  | operation (m n : Nat) (ops : List (Operator × Expr)) :
      IsRule params (operation params m (expression params n) ops)
  | operationLoop (l m n : Nat) (ops : List (Operator × Expr)) :
      IsRule params (loop (Grammar.operation params m (expression params n)) l ops)
  | chain (m n : Nat) : IsRule params (chain params m (expression params n))
  | expression (n : Nat) : IsRule params (expression params n)
  | fieldName? : IsRule params fieldName?
  | field (n : Nat) : IsRule params (field params n)
  | furtherField (n : Nat) (fields : List Field) : IsRule params (furtherField params n fields)
  | fieldLoop (m n : Nat) (fields : List Field) :
      IsRule params (loop (Grammar.furtherField params n) m fields)
  | source (n : Nat) : IsRule params (source n)
  | furtherSource (n : Nat) (sources : List Source) : IsRule params (furtherSource n sources)
  | sourceLoop (m n : Nat) (sources : List Source) :
      IsRule params (loop (Grammar.furtherSource n) m sources)
  | condition? (n : Nat) : IsRule params (condition? params n)
  | select (n : Nat) (first : Token) : IsRule params (select params n first)
  | statement (n : Nat) : IsRule params (statement params n)
  | furtherStatement (n : Nat) (s : Statements) : IsRule params (furtherStatement params n s)
  | statementLoop (m n : Nat) (s : Statements) :
      IsRule params (loop (Grammar.furtherStatement params n) m s)
  | query (n : Nat) : IsRule params (query params n)

variable {params : Params} {α : Type} {p : Production α}

/-- What happens while a rule reads can be told. -/
theorem IsRule.trace (h : IsRule params p) : Nonempty (Trace p) := by
  have T := expressionTrace params
  cases h with
  | identToken => exact ⟨identTokenTrace⟩
  | ident => exact ⟨identTrace⟩
  | segment s => exact ⟨segmentTrace s⟩
  | segmentLoop n s => exact ⟨.loop .segment segmentTrace n s⟩
  | segments n first => exact ⟨segmentsTrace n first⟩
  | dottedName n => exact ⟨dottedNameTrace n⟩
  | pattern t => exact ⟨patternTrace t⟩
  | skipBlankCharacter => exact ⟨skipBlankCharacterTrace⟩
  | regex? => exact ⟨regexTrace⟩
  | bound t => exact ⟨.still fun _ _ _ => bound_still⟩
  | reference n first => exact ⟨referenceTrace n first⟩
  | argument n => exact ⟨argumentTrace (T n)⟩
  | furtherArgument n args => exact ⟨furtherArgumentTrace (T n) args⟩
  | argumentLoop m n args => exact ⟨.loop .argument (furtherArgumentTrace (T n)) m args⟩
  | arguments m n e => exact ⟨argumentsTrace (T n) m e⟩
  | callArguments m n => exact ⟨callArgumentsTrace (T n) m⟩
  | callOrReference m n first => exact ⟨callOrReferenceTrace (T n) m first⟩
  | parenthesized n => exact ⟨parenthesizedTrace (T n)⟩
  | operand m n => exact ⟨operandTrace params m (T n)⟩
  | matchOperand => exact ⟨matchOperandTrace⟩
  | rightOperand m n op => exact ⟨rightOperandTrace params m (T n) op⟩
  | operation m n ops => exact ⟨operationTrace params m (T n) ops⟩
  | operationLoop l m n ops => exact ⟨.loop .operation (operationTrace params m (T n)) l ops⟩
  | chain m n => exact ⟨chainTrace params m (T n)⟩
  | expression n => exact ⟨T n⟩
  | fieldName? => exact ⟨fieldNameTrace⟩
  | field n => exact ⟨fieldTrace params n⟩
  | furtherField n fields => exact ⟨furtherFieldTrace params n fields⟩
  | fieldLoop m n fields => exact ⟨.loop .field (furtherFieldTrace params n) m fields⟩
  | source n => exact ⟨sourceTrace n⟩
  | furtherSource n sources => exact ⟨furtherSourceTrace n sources⟩
  | sourceLoop m n sources => exact ⟨.loop .source (furtherSourceTrace n) m sources⟩
  | condition? n => exact ⟨conditionTrace params n⟩
  | select n first => exact ⟨selectTrace params n first⟩
  | statement n => exact ⟨statementTrace params n⟩
  | furtherStatement n s => exact ⟨furtherStatementTrace params n s⟩
  | statementLoop m n s => exact ⟨.loop .statement (furtherStatementTrace params n) m s⟩
  | query n => exact ⟨queryTrace params n⟩

/-- A rule never leads back, and it leaves a stream of the same text that reads on from a scanner. -/
theorem IsRule.offset_le (h : IsRule params p) {c : Scanner} {s s' : TokenStream} {a : α}
    (hs : GoesOn c s) (hp : p s = .ok (a, s')) :
    s.offset ≤ s'.offset ∧ ∃ c', GoesOn c' s' ∧ c'.source = c.source := by
  obtain ⟨T⟩ := h.trace
  obtain ⟨c', hc', hend⟩ := T.passes hs
  have hs' := hend a s' hp
  rw [hs.offset_eq, hs'.offset_eq]
  exact ⟨hc'.offset_le, c', hs', hc'.source_eq⟩

end Grammar

/-! ### Marks -/

/-- Where something of the sort began in a run. -/
def begun (m : Mark) (evs : List Event) : List Nat :=
  evs.filterMap fun
    | .starts m' byte => if m' = m then some byte else none
    | _ => none

/-- Where anything began in a run. -/
def beginnings (evs : List Event) : List Nat :=
  evs.filterMap fun
    | .starts _ byte => some byte
    | _ => none

/-- The streams at which the rounds of a repetition begin. -/
def Production.rounds {α β : Type} (body : β → Production (β ⊕ α)) :
    Nat → β → TokenStream → List TokenStream
  | 0, _, _ => []
  | n + 1, b, s => s ::
    match body b s with
    | .ok (.inl b', s') => rounds body n b' s'
    | _ => []

/-- Each round of a repetition leaves a mark where it begins. -/
theorem Production.rounds_sublist_begun {α β : Type} {body : β → Production (β ⊕ α)} (m : Mark)
    (T : ∀ b, Trace (body b)) (n : Nat) (b : β) (s : TokenStream) :
    ((rounds body n b s).map TokenStream.offset).Sublist
      (begun m ((Trace.loop m T n b).events s)) := by
  induction n generalizing b s with
  | zero => exact List.Sublist.slnil
  | succ n ih =>
    -- The mark of the round comes first, then what happens in it, and then the marks of the others.
    have hevents : begun m ((Trace.loop m T (n + 1) b).events s) =
        s.offset :: (begun m ((T b).events s) ++ begun m (match body b s with
          | .ok (.inl b', s') => (Trace.loop m T n b').events s'
          | _ => [])) := by
      show begun m ((.starts m s.offset :: (T b).events s) ++ _) = _
      unfold begun
      rw [List.filterMap_append, List.filterMap_cons]
      simp only [if_pos, List.cons_append, List.cons.injEq, List.append_cancel_left_eq, true_and]
      split <;> rename_i hbody <;> simp only [hbody]
      rename_i x s'
      cases x <;> rfl
    rw [hevents, rounds, List.map_cons]
    refine List.Sublist.cons_cons _ (List.Sublist.trans ?_ (List.sublist_append_right _ _))
    split
    · exact ih _ _
    · exact List.nil_sublist _

namespace Course

variable {c₀ c : Scanner} {h : List Event} {a : Nat}

/-- What begins of one sort begins further and further on. -/
theorem begun_ascending (hc : Course c₀ h c a) (m : Mark) : (begun m h).Pairwise (· < ·) := by
  have hplaces := hc.ascending
  unfold places at hplaces
  unfold begun
  rw [List.pairwise_filterMap] at hplaces ⊢
  -- Marks of one sort are of one rank, so they are in order just as their bytes are.
  refine hplaces.imp fun {ev ev'} hlt byte hbyte byte' hbyte' => ?_
  cases ev with
  | starts m₁ b₁ =>
    cases ev' with
    | starts m₂ b₂ =>
      obtain ⟨rfl, rfl⟩ : m₁ = m ∧ b₁ = byte := by simpa using hbyte
      obtain ⟨rfl, rfl⟩ : m₂ = m₁ ∧ b₂ = byte' := by simpa using hbyte'
      have := hlt _ rfl _ rfl
      omega
    | peeked => cases hbyte'
    | given => cases hbyte'
  | peeked => cases hbyte
  | given => cases hbyte

/-- Different numbers below a bound are no more than the bound. -/
theorem length_le_of_ascending {l : List Nat} {n : Nat} (hl : l.Pairwise (· < ·))
    (hn : ∀ k ∈ l, k < n) : l.length ≤ n := by
  have hnodup : l.Nodup := hl.imp Nat.ne_of_lt
  have hsub : l.Subperm (List.range n) :=
    hnodup.subperm fun k hk => List.mem_range.2 (hn k hk)
  simpa using hsub.length_le

/-- For each byte at most four things begin. -/
theorem length_beginnings_le (hc : Course c₀ h c a) (ha : a ≤ 4) :
    (beginnings h).length ≤ 4 * (byteSize c₀.source + 1) := by
  have hlength : (beginnings h).length = (places h).length := by
    unfold beginnings places
    rw [List.length_filterMap_eq_countP, List.length_filterMap_eq_countP]
    refine List.countP_congr fun ev _ => ?_
    cases ev <;> simp [Event.place?]
  have hsize : c.offset ≤ byteSize c₀.source := by
    obtain ⟨before, after, hsource, hbyte⟩ := isBoundary_offset (s := c) hc.passes.source_eq
    have hsource : c₀.source = before ++ after := hsource
    rw [← hbyte, hsource, byteSize_append]
    exact Nat.le_add_right _ _
  have hplaces := length_le_of_ascending hc.ascending hc.below
  omega

end Course

/-- **Parsing consumes the text.** No rule leaves a stream before where it found it. Where a round of a
repetition begins is told among what happens. In every run each round and each expression within
another begins further on than those of its sort before, there are no more of these than four for each
byte and four for the end, and the run never fails for want of steps. -/
theorem parse_consumes [PatternCompiler] (source : String) (params : Params) :
    (∀ {α : Type} (p : Production α), Grammar.IsRule params p → ∀ c s a s', GoesOn c s →
      p s = .ok (a, s') →
        s.offset ≤ s'.offset ∧ ∃ c', GoesOn c' s' ∧ c'.source = c.source) ∧
    (∀ {α β : Type} {body : β → Production (β ⊕ α)} (m : Mark) (T : ∀ b, Trace (body b)) n b s,
      ((rounds body n b s).map TokenStream.offset).Sublist
        (begun m ((Trace.loop m T n b).events s))) ∧
    (let steps := Grammar.stepsFor source.toList
     let s := TokenStream.start source.toList
     ∀ evs ∈ [(Grammar.queryTrace params steps).events s,
         (Grammar.statementTrace params steps).events s,
         (Grammar.expressionTrace params steps).events s],
       (∀ m, (begun m evs).Pairwise (· < ·)) ∧
         (beginnings evs).length ≤ 4 * (source.utf8ByteSize + 1)) ∧
    ∀ e, parseQuery source params = .error e ∨ parseStatement source params = .error e ∨
      parseExpr source params = .error e → e.cause ≠ .outOfSteps := by
  refine ⟨fun p hrule c s a s' hs hp => hrule.offset_le hs hp, rounds_sublist_begun, ?_, ?_⟩
  · intro steps s
    have hstart := Course.start (Scanner.start source.toList)
    have hall : ∀ evs c, Course (Scanner.start source.toList) evs c 4 →
        (∀ m, (begun m evs).Pairwise (· < ·)) ∧
          (beginnings evs).length ≤ 4 * (source.utf8ByteSize + 1) := by
      intro evs c hc
      refine ⟨hc.begun_ascending, ?_⟩
      rw [utf8ByteSize_eq_byteSize]
      exact hc.length_beginnings_le (Nat.le_refl 4)
    have hquery : ∃ c, Course _ ((Grammar.queryTrace params steps).events s) c 4 :=
      (Grammar.query_leads (hstart.mono (by omega))).run.exists_course (Nat.le_refl 4)
    have hstatement : ∃ c, Course _ ((Grammar.statementTrace params steps).events s) c 4 :=
      (Grammar.statement_leads (hstart.mono (by omega))).run.exists_course (by omega)
    have hexpression : ∃ c, Course _ ((Grammar.expressionTrace params steps).events s) c 4 :=
      (Grammar.expression_leads params steps (hstart.mono (by omega)) rfl).run.exists_course (by omega)
    simp only [List.forall_mem_cons]
    refine ⟨?_, ?_, ?_, by simp⟩
    · exact hall _ _ hquery.choose_spec
    · exact hall _ _ hstatement.choose_spec
    · exact hall _ _ hexpression.choose_spec
  · rintro e (h | h | h)
    · exact parseQuery_cause_ne h
    · exact parseStatement_cause_ne h
    · exact parseExpr_cause_ne h

end InfluxQL
