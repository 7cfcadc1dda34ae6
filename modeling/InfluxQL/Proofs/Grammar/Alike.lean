import InfluxQL.Proofs.Grammar.Likeness
import InfluxQL.Proofs.Grammar.Progress

/-!
# The grammar reads alike what reads alike

Before streams that read alike each rule of the grammar has corresponding outcomes, with the same
tree if it succeeds. The rule on the right may be allowed more steps.

The statements of a query are read alike by `Grammar.query_alike` behind any statements that the
query on the right has read before, provided that both texts end, and have their semicolons, at the
same time. `Grammar.query_run_iff` says so for whole texts and runs that do not go astray.
-/

namespace InfluxQL

open Production TokenStream

/-- The segments are the same, and end at corresponding places. -/
structure Likeness.SameSegments (L : Likeness) (s s' : Grammar.Segments) : Prop where
  names_eq : s'.names = s.names
  stop : ∃ t t', L.place t t' ∧ s.stop = t.span.stop ∧ s'.stop = t'.span.stop

/-- The end of the text, and a semicolon, are next on both sides or on neither. -/
def Likeness.EndsAlike (L : Likeness) (c c' : Scanner) : Prop :=
  ∀ k, k = .eof ∨ k = .semicolon →
    (c.scan.1.kind = k ↔ c'.scan.1.kind = k) ∧ (c.scan.1.kind = k → L.rel c.scan.2 c'.scan.2)

theorem Likeness.EndsAlike.ofSame {L : Likeness} {c c' : Scanner} (h : L.Same c.scan.1 c'.scan.1)
    (hr : L.rel c.scan.2 c'.scan.2) : L.EndsAlike c c' :=
  fun _ _ => ⟨by rw [h.kind_eq], fun _ => hr⟩

/-- Neither token is the end or a semicolon. -/
theorem Likeness.EndsAlike.ofNe {L : Likeness} {c c' : Scanner}
    (h : ∀ k, k = .eof ∨ k = .semicolon → c.scan.1.kind ≠ k ∧ c'.scan.1.kind ≠ k) :
    L.EndsAlike c c' :=
  fun k hk => ⟨iff_of_false (h k hk).1 (h k hk).2, fun hc => absurd hc (h k hk).1⟩

/-- Texts that read alike end, and have their semicolons, at the same time. -/
def Likeness.KeepsEnds (L : Likeness) : Prop :=
  ∀ {c c' : Scanner}, L.rel c c' → L.Heads c c' → L.Lost c ∨ L.EndsAlike c c'

namespace Grammar

open Likeness

variable {L : Likeness} (hL : L.Lawful)
include hL

/-! ### Names -/

theorem identToken_alike :
    L.AlikeFrom L.near (L.OrStuck L.Same) identTokenTrace identToken := by
  refine .significant hL fun c c' hr h => ?_
  obtain ⟨hiff, hnext⟩ := h.kind_iff_of (.inr rfl)
  refine .ite hiff (fun hc => ?_) fun _ => .ofErrors rfl rfl (h.errors_unexpected hL _)
  obtain ⟨hrel, hsame⟩ := hnext hc
  refine .take ⟨?_, hrel⟩ (.pure fun _ _ hr => hr)
  exact hsame.imp_right fun huse => huse.2 hr.2.2.2

theorem ident_alike : L.AlikeFrom L.rel (L.OrStuck Eq) identTrace ident :=
  (AlikeFrom.ofNear hL (identToken_alike hL)).bind fun _ _ => .pure fun _ _ h =>
    ⟨h.1.imp_left fun h => h.lit_eq.symm, h.2⟩

/-- A round of the segments goes on behind a name, or ends behind another token. -/
def segmentOutcome (L : Likeness) (r r' : Segments ⊕ Segments) (c c' : Scanner) : Prop :=
  Sum.LiftRel (fun s s' => L.OrStuck L.SameSegments s s' c c')
    (fun s s' => Joint L.SameSegments L.rel s s' c c') r r'

theorem behindDot_alike {names : List String} {t t' : Token} (h : L.Same t t')
    {x? x?' : Option Char} (hx : ∀ x ∈ ['/', ':', '.'], (x?' = some x ↔ x? = some x)) :
    L.AlikeFrom L.rel (segmentOutcome L) (behindDotTrace names t x?) (behindDot names t' x?') := by
  have hends : ∀ {names : List String} {t t' : Token}, L.Same t t' →
      L.SameSegments ⟨names, t.span.stop⟩ ⟨names, t'.span.stop⟩ :=
    fun h => ⟨rfl, _, _, h.place, rfl, rfl⟩
  simp only [List.forall_mem_cons] at hx
  refine .ite (or_congr hx.1 hx.2.1).symm (fun _ => ?_) fun _ => ?_
  · exact .pure fun _ _ hr => .inr ⟨hends h, hr⟩
  refine .ite hx.2.2.1.symm (fun _ => ?_) fun _ => ?_
  · exact .pure fun _ _ hr => .inl ⟨.inl (hends h), hr⟩
  refine (AlikeFrom.ofNear hL (identToken_alike hL)).bind fun u u' => .pure fun _ _ hr =>
    .inl ⟨?_, hr.2⟩
  refine hr.1.imp_left fun hu => ?_
  rw [hu.lit_eq]
  exact hends hu

omit hL in
theorem segment_stuck {α : Type} {Q : Segments ⊕ Segments → α → Scanner → Scanner → Prop}
    (s : Segments) (p' : Production α) :
    L.AlikeFrom (fun c _ => L.Stuck c) Q (segmentTrace s) p' :=
  AlikeFrom.congr (.lookForStuck (by decide)) (segment_eq s).symm rfl

theorem segment_alike (s s' : Segments) : L.AlikeFrom (L.OrStuck L.SameSegments s s')
    (segmentOutcome L) (segmentTrace s) (segment s') := by
  refine .orStuck (fun h => ?_) (segment_stuck s (segment s'))
  refine AlikeFrom.congr ?_ (segment_eq s).symm (segment_eq s').symm
  refine .lookFor hL rfl (fun t t' ht => ?_) (.pure fun _ _ hr => .inr ⟨h, hr⟩)
  rw [h.names_eq]
  exact AlikeFrom.bind (Alike.peek? hL) fun _ _ => .joint fun hx => behindDot_alike hL ht hx

variable {n n' : Nat} (hn : n ≤ n')
include hn

theorem segments_alike {t t' : Token} (h : L.Same t t') :
    L.Alike Eq (segmentsTrace n t) (segments n' t') := by
  have hstart : L.SameSegments ⟨[t.lit], t.span.stop⟩ ⟨[t'.lit], t'.span.stop⟩ :=
    ⟨by rw [h.lit_eq], t, t', h.place, rfl, rfl⟩
  have hloop := AlikeFrom.loop hL (m := .segment) (segment_alike hL) hn
    ⟨[t.lit], t.span.stop⟩ ⟨[t'.lit], t'.span.stop⟩
  have hloop := hloop.mono (fun _ _ hr => ⟨.inl hstart, hr⟩) fun _ _ _ _ h => h
  refine hloop.bind fun s s' => .joint fun hs => ?_
  obtain ⟨u, u', hu, hstop, hstop'⟩ := hs.stop
  rw [hs.names_eq, hstop']
  refine Alike.ite Iff.rfl (fun _ => .pure rfl) fun _ => ?_
  refine .fail ?_
  rw [hstop]
  exact hL.errors_of_place _ h.place hu

theorem segments_stuck (t t' : Token) :
    L.AlikeFrom (fun c _ => L.Stuck c) (Joint Eq L.rel) (segmentsTrace n t) (segments n' t') := by
  have hloop := AlikeFrom.loop hL (m := .segment) (I := fun _ _ c _ => L.Stuck c)
    (Q := fun _ _ _ _ => False) (fun s s' => segment_stuck s (segment s')) hn
    ⟨[t.lit], t.span.stop⟩ ⟨[t'.lit], t'.span.stop⟩
  exact hloop.bind fun _ _ _ _ _ _ h => h.elim

theorem dottedName_alike :
    L.AlikeFrom L.near (Joint Eq L.rel) (dottedNameTrace n) (dottedName n') :=
  (identToken_alike hL).bind fun t t' => .orStuck (segments_alike hL hn) (segments_stuck hL hn t t')

omit hn in
theorem typed_follows (name : String) {c c' : Scanner} (hr : L.Heads c c') :
    L.Follows (Joint Eq L.rel) (.take (typedTrace name c.scan.1)) (typed name c'.scan.1) c c' := by
  have hne : ∀ {t : Token}, t.kind ≠ .ident →
      typed name t = unexpected t (DataType.declarable.map DataType.text) := by
    intro t ht
    rw [typed, if_neg ht]
  cases hr with
  | same h hr =>
    refine .take hr (Alike.still fun s s' => ?_)
    unfold typed
    rw [h.kind_eq, h.lit_eq]
    generalize (if c.scan.1.kind = .ident then _ else _) = type?
    cases type? with
    | some type => exact .inl ⟨_, _, rfl, rfl, rfl⟩
    | none => exact .inr ⟨_, _, hL.errors_unexpected h _, rfl, rfl⟩
  | idle hl hr he =>
    have hleft := hne (TokenKind.ne_of_isIdle hl rfl)
    have hright := hne (TokenKind.ne_of_isIdle hr rfl)
    exact .ofErrors (by rw [hleft]; rfl) (by rw [hright]; rfl) (he _ _)
  | joined hl _ _ hfails =>
    exact .ofFails (by rw [hne (by rw [hl]; decide)]; rfl) (hfails _)
  | exchanged hl hr he _ _ =>
    have hleft := hne (TokenKind.ne_of_isValue (by rw [hl]; rfl) rfl)
    have hright : typed name c'.scan.1 = _ := hne (by
      rcases hr with hr | hr
      · exact TokenKind.ne_of_isValue hr rfl
      · exact TokenKind.ne_of_isIdle (by rw [hr]; rfl) rfl)
    exact .ofErrors (by rw [hleft]; rfl) (by rw [hright]; rfl) (he _ _)
  | renamed hl hr he hrel htype _ _ =>
    refine .take hrel (Alike.still fun s s' => ?_)
    unfold typed
    rw [if_pos hl, if_pos hr, htype]
    generalize DataType.ofName? c.scan.1.lit.toList = type?
    cases type? with
    | some type => exact .inl ⟨_, _, rfl, rfl, rfl⟩
    | none => exact .inr ⟨_, _, he _ _, rfl, rfl⟩

theorem reference_alike {t t' : Token} (h : L.Same t t') :
    L.Alike Eq (referenceTrace n t) (reference n' t') := by
  refine (segments_alike hL hn h).bindSame fun names => ?_
  refine .lookFor hL rfl (fun _ _ _ => .next hL fun _ _ _ h => typed_follows hL _ h) (.pure rfl)

variable [PatternCompiler]

/-! ### Expressions -/

omit hn in
theorem regexLiteral_alike {t t' : Token} (h : L.Same t t') :
    L.Alike Eq (regexLiteralTrace t) (regexLiteral t') := by
  refine .still fun s s' => ?_
  have herr : ∀ cause, L.errors (.atToken t cause) (.atToken t' cause) := hL.errors_at h
  have hun := hL.errors_unexpected h ["regex"]
  unfold regexLiteral
  rw [h.kind_eq, h.lit_eq]
  generalize t.kind = k
  cases k with
  | regex =>
    dsimp only
    rcases compiles_or_error t.lit with hc | ⟨text, he⟩
    · have hc' : Compiles t'.lit := by rwa [h.lit_eq]
      rw [pattern_of_compiles hc, pattern_of_compiles hc', h.lit_eq]
      exact .inl ⟨_, _, rfl, rfl, rfl⟩
    · have he' : PatternCompiler.compile t'.lit = .error text := by rwa [h.lit_eq]
      rw [pattern_of_error he, pattern_of_error he']
      exact .inr ⟨_, _, herr _, rfl, rfl⟩
  | badEscape => exact .inr ⟨_, _, herr _, rfl, rfl⟩
  | badRegex => exact .inr ⟨_, _, herr _, rfl, rfl⟩
  | _ => exact .inr ⟨_, _, hun, rfl, rfl⟩

/-- Where there is no regular expression a blank may have been skipped on one side only. -/
def regexOutcome (L : Likeness) (p? p?' : Option String) (c c' : Scanner) : Prop :=
  p? = p?' ∧ (L.rel c c' ∨ p? = none ∧ L.apart c c')

omit hn in
theorem regex_alike : L.AlikeFrom L.rel (regexOutcome L) regexTrace regex? := by
  refine AlikeFrom.congr ?_ regex?_eq.symm regex?_eq.symm
  refine (AlikeFrom.skipBlankCharacter hL).bind fun _ _ => ?_
  refine .atSlash hL (fun _ _ h => ?_) (fun _ s h => regexLiteral_fails h s)
    (.pure fun _ _ hr => ⟨rfl, hr.imp_right fun h => ⟨rfl, h⟩⟩)
  exact AlikeFrom.mono (regexLiteral_alike hL h) (fun _ _ hr => hr)
    fun _ _ _ _ h => ⟨h.1, .inl h.2⟩

omit hn in
/-- What follows may begin where a blank has been skipped on one side only, but not behind a regular
expression. -/
theorem regex_bind {α α' : Type} {Q : α → α' → Scanner → Scanner → Prop}
    {f : Option String → Production α} {f' : Option String → Production α'} {U : ∀ p?, Trace (f p?)}
    (hnone : L.AlikeFrom L.Loose Q (U none) (f' none))
    (hsome : ∀ p, L.AlikeFrom L.rel Q (U (some p)) (f' (some p))) :
    L.AlikeFrom L.rel Q (regexTrace.bind U) (regex? >>= f') := by
  refine (regex_alike hL).bind fun p? p?' c c' s s' => ?_
  rintro ⟨rfl, hr | ⟨rfl, hapart⟩⟩
  · cases p? with
    | none => exact hnone c c' s s' (.inl hr)
    | some p => exact hsome p c c' s s' hr
  · exact hnone c c' s s' (.inr hapart)

section Nested

variable {nested nested' : Production Expr} {T : Trace nested}
  (hT : L.AlikeFrom L.near (Joint Eq L.rel) T nested')
include hT

omit hn in
theorem argument_alike : L.Alike Eq (argumentTrace T) (argument nested') :=
  regex_bind hL (.ofNearLoose hL (hT.mark _)) fun _ => Alike.pure rfl

theorem arguments_alike (first : Expr) :
    L.Alike Eq (argumentsTrace T n first) (arguments n' nested' first) := by
  have hround : ∀ args, L.Alike (Sum.LiftRel Eq Eq)
      (furtherArgumentTrace T args) (furtherArgument nested' args) := by
    intro args
    refine .lookForSignificant hL rfl (fun _ _ _ => ?_) (.pure (.inr rfl))
    refine (argument_alike hL hT).bindSame fun e => ?_
    exact .pure (.inl rfl)
  refine (Alike.loopSame hL hround hn _).bindSame fun args => ?_
  exact .expect hL rfl fun _ _ _ => .pure rfl

theorem callArguments_alike :
    L.Alike Eq (callArgumentsTrace T n) (callArguments n' nested') := by
  refine regex_bind hL ?_ fun p => arguments_alike hL hn hT _
  refine .lookForRightParen hL (fun _ _ _ => Alike.pure rfl) ?_
  refine (AlikeFrom.ofNearLoose hL (hT.mark _)).bind fun e e' => .joint fun he => ?_
  exact he ▸ arguments_alike hL hn hT e

theorem callOrReference_alike {t t' : Token} (h : L.Same t t') :
    L.Alike Eq (callOrReferenceTrace T n t) (callOrReference n' nested' t') := by
  refine .lookFor hL rfl (fun _ _ _ => ?_) ?_
  · refine (callArguments_alike hL hn hT).bindSame fun args => ?_
    rw [h.lit_eq]
    exact .pure rfl
  · refine (reference_alike hL hn h).bindSame fun v => ?_
    exact .pure rfl

/-- A name before a parenthesis is that of a call. -/
theorem callOrReference_renamed {t t' : Token}
    (h : Unicode.lowercase t'.lit.toList = Unicode.lowercase t.lit.toList) :
    L.AlikeFrom (fun c c' => L.rel c c' ∧ L.Stuck c) (Joint Eq L.rel)
      (callOrReferenceTrace T n t) (callOrReference n' nested' t') := by
  refine .lookForCall hL fun _ _ _ => ?_
  refine (callArguments_alike hL hn hT).bindSame fun args => ?_
  rw [h]
  exact .pure rfl

omit [PatternCompiler] hn in
theorem parenthesized_alike : L.Alike Eq (parenthesizedTrace T) (parenthesized nested') := by
  refine Alike.bindSame (AlikeFrom.ofNear hL (hT.mark _)) fun e => ?_
  exact .expectSignificant hL rfl fun _ _ _ => .pure rfl

end Nested

section Operands

variable {params : Params}

omit [PatternCompiler] hn in
theorem tokenOperand_alike {t t' : Token} (h : L.Same t t') :
    L.Alike Eq (tokenOperandTrace params t) (tokenOperand params t') := by
  refine .still fun s s' => ?_
  have herr : ∀ cause, L.errors (.atToken t cause) (.atToken t' cause) := hL.errors_at h
  have hun := hL.errors_unexpected h ["identifier", "string", "number", "bool"]
  unfold tokenOperand bound
  rw [h.kind_eq, h.lit_eq]
  generalize t.kind = k
  cases k with
  | string => exact .inl ⟨_, _, rfl, rfl, rfl⟩
  | number => exact .inl ⟨_, _, rfl, rfl, rfl⟩
  | bool b => exact .inl ⟨_, _, rfl, rfl, rfl⟩
  | integer =>
    dsimp only
    generalize Decimal.integer? t.lit.toList = n
    cases n with
    | some n => exact .inl ⟨_, _, rfl, rfl, rfl⟩
    | none => exact .inr ⟨_, _, herr _, rfl, rfl⟩
  | param =>
    dsimp only
    by_cases hname : String.ofList (t.lit.toList.drop 1) = ""
    · simp only [if_pos hname]
      exact .inr ⟨_, _, herr _, rfl, rfl⟩
    · simp only [if_neg hname]
      generalize params.get? _ = v
      rcases v with _ | (_ | _ | _ | _ | _ | _)
      all_goals first
        | exact .inl ⟨_, _, rfl, rfl, rfl⟩
        | exact .inr ⟨_, _, herr _, rfl, rfl⟩
  | badString => exact .inr ⟨_, _, herr _, rfl, rfl⟩
  | badEscape => exact .inr ⟨_, _, herr _, rfl, rfl⟩
  | _ => exact .inr ⟨_, _, hun, rfl, rfl⟩

variable {nested nested' : Production Expr} {T : Trace nested}
  (hT : L.AlikeFrom L.near (Joint Eq L.rel) T nested')
include hT

theorem operand_alike (hparams : L.params params) :
    L.AlikeFrom L.near (Joint Eq L.near) (operandTrace params n T) (operand params n' nested') := by
  refine AlikeFrom.congr ?_ operand_eq.symm operand_eq.symm
  refine .significant hL fun c c' hr h => ?_
  cases h with
  | same h hr =>
    refine .ite (by rw [h.kind_eq]) (fun _ => ?_) fun _ => ?_
    · exact .take hr ((parenthesized_alike hL hT).toNear hL)
    refine .ite (by rw [h.kind_eq]) (fun _ => ?_) fun _ => ?_
    · exact .take hr ((callOrReference_alike hL hn hT h).toNear hL)
    · exact .takeAs hr ((tokenOperand_alike hL h).toNear hL)
  | idle hl hr he =>
    obtain ⟨cause, hleft⟩ := tokenOperand_of_isIdle params hl
    obtain ⟨cause', hright⟩ := tokenOperand_of_isIdle params hr
    have hne := fun (k : TokenKind) (hk : k.isIdle = false) => TokenKind.ne_of_isIdle hl hk
    have hne' := fun (k : TokenKind) (hk : k.isIdle = false) => TokenKind.ne_of_isIdle hr hk
    rw [if_neg (hne' _ rfl), if_neg (hne' _ rfl)]
    refine .iteNeg (hne _ rfl) (.iteNeg (hne _ rfl) ?_)
    exact .ofErrors (by rw [hleft]; rfl) (by rw [hright]; rfl) (he cause cause')
  | joined hl _ _ _ => exact absurd hl hr.2.1
  | exchanged hl hvalue _ hnear hsame =>
    -- A parameter, and a literal on the right, for no blank comes next there.
    have hvalue := hvalue.resolve_right hr.2.2.1
    obtain ⟨e, hleft, hright⟩ := hsame hr.2.2.1 params hparams
    have hne : ∀ k : TokenKind, k.isValue = false → c.scan.1.kind ≠ k := fun k hk =>
      TokenKind.ne_of_isValue (by rw [hl]; rfl) hk
    have hne' := fun (k : TokenKind) (hk : k.isValue = false) => TokenKind.ne_of_isValue hvalue hk
    rw [if_neg (hne' _ rfl), if_neg (hne' _ rfl)]
    refine .iteNeg (hne _ rfl) (.iteNeg (hne _ rfl) (.takeAs (hnear hr.2.2.1) ?_))
    refine AlikeFrom.still fun c c' hr s s' => .inl ⟨e, e, ⟨rfl, hr⟩, ?_, ?_⟩
    · rw [hleft]
      rfl
    · rw [hright]
      rfl
  | renamed hl hr' _ hrel _ hcall huse =>
    -- Blanks have been skipped before the name, so that only a call can have it.
    have hstuck := huse hr.2.2.2
    have hne : c.scan.1.kind ≠ .leftParen := by
      rw [hl]
      decide
    have hne' : c'.scan.1.kind ≠ .leftParen := by
      rw [hr']
      decide
    refine .ite (iff_of_false hne hne') (fun hc => absurd hc hne) fun _ => ?_
    refine .ite (iff_of_true hl hr') (fun _ => ?_) fun hc => absurd hl hc
    have halike := (callOrReference_renamed hL hn hT hcall).mono (fun _ _ hr => hr)
      fun _ _ _ _ h => And.intro h.1 (hL.near_of_rel h.2)
    exact .takeAs (And.intro hrel hstuck) halike

omit hn hT in
theorem matchOperand_alike : L.Alike Eq matchOperandTrace matchOperand := by
  refine (Alike.skipBlank hL).bind fun _ _ _ => regex_bind hL ?_ fun p => Alike.pure rfl
  refine .ofNearLoose hL (.significant hL fun c c' _ h => ?_)
  exact .ofErrors rfl rfl (h.errors_unexpected hL _)

theorem rightOperand_alike (hparams : L.params params) (op : Operator) :
    L.AlikeFrom L.rel (Joint Eq L.near) (rightOperandTrace params n T op)
      (rightOperand params n' nested' op) :=
  .ite Iff.rfl (fun _ => (matchOperand_alike hL).toNear hL)
    fun _ => .ofNear hL (operand_alike hL hn hT hparams)

/-- A round of the operators begins and goes on where blanks may have to be skipped. -/
theorem operation_alike (hparams : L.params params) (ops ops' : List (Operator × Expr)) :
    L.AlikeFrom (Joint Eq L.near ops ops')
      (fun r r' c c' => Sum.LiftRel (fun ops ops' => Joint Eq L.near ops ops' c c')
        (fun ops ops' => Joint Eq L.rel ops ops' c c') r r')
      (operationTrace params n T ops) (operation params n' nested' ops') := by
  refine .joint fun hops => hops ▸ .significant hL fun c c' hr h => ?_
  have hnone : ∀ {k : TokenKind}, k.isIdle ∨ k = .ident ∨ k.isValue → k.operator? = none := by
    intro k hk
    cases k <;> simp_all [TokenKind.isIdle, TokenKind.isValue, TokenKind.operator?]
  -- Both sides are before the same operator, or neither is before one.
  have hop : c'.scan.1.kind.operator? = c.scan.1.kind.operator? ∧
      ∀ op, c.scan.1.kind.operator? = some op → L.rel c.scan.2 c'.scan.2 := by
    cases h with
    | same h hr => exact ⟨by rw [h.kind_eq], fun _ _ => hr⟩
    | idle hl hr _ => simp [hnone (.inl hl), hnone (.inl hr)]
    | joined hl _ _ _ => exact absurd hl hr.2.1
    | exchanged hl hvalue _ _ _ =>
      have hl : c.scan.1.kind.isValue := by rw [hl]; rfl
      simp [hnone (.inr (.inr hl)), hnone (.inr (.inr (hvalue.resolve_right hr.2.2.1)))]
    | renamed hl hr' => simp [hnone (.inr (.inl hl)), hnone (.inr (.inl hr'))]
  obtain ⟨heq, htaken⟩ := hop
  rw [heq]
  generalize c.scan.1.kind.operator? = op at htaken
  cases op with
  | none => exact .putBack hr.1 (.pure fun _ _ hr => .inr ⟨rfl, hr⟩)
  | some op =>
    refine .take (htaken op rfl) ((rightOperand_alike hL hn hT hparams op).bind fun e e' => ?_)
    exact .joint fun he => .pure fun _ _ hr => .inl ⟨by rw [he], hr⟩

theorem chain_alike (hparams : L.params params) :
    L.AlikeFrom L.near (Joint Eq L.rel) (chainTrace params n T) (chain params n' nested') := by
  refine (operand_alike hL hn hT hparams).bind fun first first' => .joint fun hfirst => ?_
  have hops := AlikeFrom.loop hL (m := .operation) (operation_alike hL hn hT hparams) hn [] []
  refine (hops.mono (fun _ _ hr => ⟨rfl, hr⟩) fun _ _ _ _ h => h).bind fun ops ops' =>
    .joint fun hops => ?_
  rw [hfirst, hops]
  exact .pure fun _ _ hr => ⟨rfl, hr⟩

end Operands

omit hn in
theorem expression_alike {params : Params} (hparams : L.params params) {n n' : Nat} (hn : n ≤ n') :
    L.AlikeFrom L.near (Joint Eq L.rel) (expressionTrace params n) (expression params n') := by
  -- By induction on the steps of the left run; an expression within another has one less.
  induction n generalizing n' with
  | zero => exact .outOfSteps hL
  | succ n ih =>
    obtain ⟨n', rfl⟩ : ∃ m, n' = m + 1 := ⟨n' - 1, by omega⟩
    have hn' : n ≤ n' := by omega
    refine (chain_alike hL hn' (ih hn') hparams).bind fun r r' => .joint fun hr => ?_
    exact hr ▸ Alike.pure rfl

/-! ### Statements -/

section Statements

variable {params : Params} (hparams : L.params params)

omit [PatternCompiler] hn in
theorem fieldName_alike : L.AlikeFrom L.rel (L.OrStuck Eq) fieldNameTrace fieldName? := by
  refine .ofNear hL (.lookForSignificant hL rfl (fun _ _ _ => ?_)
    (.pure fun _ _ hr => ⟨.inl rfl, hr⟩))
  refine (ident_alike hL).bind fun _ _ => .pure fun _ _ h => ?_
  exact ⟨h.1.imp_left (congrArg some), h.2⟩

include hparams

theorem field_alike : L.Alike Eq (fieldTrace params n) (field params n') := by
  refine .significant hL fun c c' hr h => .putBack hr ?_
  refine Alike.bindSame (AlikeFrom.ofNear hL (expression_alike hL hparams hn)) fun e => ?_
  generalize e.firstCondition? = op?
  cases op? with
  | some op => exact .fail (h.errors_at hL _)
  | none =>
    refine (fieldName_alike hL).bind fun name name' => .orStuck (fun hname => ?_) ?_
    · rw [hname]
      exact (Alike.skipBlank hL).bind fun _ _ _ => .pure rfl
    · have hskip : L.AlikeFrom (fun c _ => L.Stuck c) (fun _ _ _ _ => False) Trace.skipBlank
          Production.skipBlank := .skipBlankStuck
      exact hskip.bind fun _ _ _ _ _ _ h => h.elim

theorem furtherField_alike (fields : List Field) : L.Alike (Sum.LiftRel Eq Eq)
    (furtherFieldTrace params n fields)
    (furtherField params n' fields) := by
  refine (field_alike hL hn hparams).bindSame fun f => ?_
  exact .lookFor hL rfl (fun _ _ _ => .pure (.inl rfl)) (.pure (.inr rfl))

omit hparams in
/-- Behind a source blanks may have to be skipped. -/
theorem source_alike :
    L.AlikeFrom L.rel (Joint Eq L.near) (sourceTrace n) (source n') := by
  have hend : ∀ s : Source, L.AlikeFrom L.near (Joint Eq L.near) (Trace.pure s) (pure s) :=
    fun _ => .pure fun _ _ hr => ⟨rfl, hr⟩
  refine regex_bind hL ?_ fun _ => .ofNear hL (hend _)
  refine (AlikeFrom.ofNearLoose hL (dottedName_alike hL hn)).bind fun names names' =>
    .joint fun hnames => ?_
  subst hnames
  refine .ite Iff.rfl (fun _ => .ofNear hL (hend _)) fun _ => ?_
  exact regex_bind hL (.ofNearLoose hL (hend _)) fun _ => .ofNear hL (hend _)

omit hparams in
theorem furtherSource_alike (sources : List Source) : L.Alike (Sum.LiftRel Eq Eq)
    (furtherSourceTrace n sources) (furtherSource n' sources) := by
  refine (source_alike hL hn).bind fun s s' => .joint fun hs => ?_
  subst hs
  exact .lookForSignificant hL rfl (fun _ _ _ => Alike.pure (.inl rfl)) (Alike.pure (.inr rfl))

theorem condition_alike :
    L.Alike Eq (conditionTrace params n) (condition? params n') := by
  refine .lookForSignificant hL rfl (fun _ _ _ => ?_) (.pure rfl)
  exact Alike.bindSame (AlikeFrom.ofNear hL (expression_alike hL hparams hn)) fun _ => .pure rfl

omit [PatternCompiler] hn hparams in
theorem validated_alike {t t' : Token} (h : L.Same t t') (s : Select) :
    L.Alike Eq (validatedTrace t s) (validated t' s) := by
  refine .still fun _ _ => ?_
  unfold validated
  generalize s.validate = v
  cases v with
  | ok _ => exact .inl ⟨_, _, rfl, rfl, rfl⟩
  | error fault => exact .inr ⟨_, _, hL.errors_at h _, rfl, rfl⟩

theorem select_alike {t t' : Token} (h : L.Same t t') :
    L.Alike Eq (selectTrace params n t) (select params n' t') := by
  refine (Alike.loopSame hL (furtherField_alike hL hn hparams) hn []).bindSame fun fields => ?_
  refine .expectSignificant hL rfl fun _ _ _ => ?_
  refine (Alike.loopSame hL (furtherSource_alike hL hn) hn []).bindSame fun sources => ?_
  exact (condition_alike hL hn hparams).bindSame fun condition => validated_alike hL h _

theorem statement_alike :
    L.Alike Eq (statementTrace params n) (statement params n') :=
  .expectSignificant hL rfl fun _ _ h => (select_alike hL hn hparams h).bindSame fun _ => .pure rfl

/-- Behind further statements the same statements have been read. -/
structure ReadBehind (before : List Statement) (s s' : Statements) : Prop where
  statements_eq : s'.statements = before ++ s.statements
  separated_eq : s'.separated = s.separated

theorem behindStatements_follows {c c' : Scanner} (hr : L.rel c c') (hheads : L.Heads c c')
    (hends : L.EndsAlike c c') {before : List Statement} {s s' : Statements}
    (h : ReadBehind before s s') :
    L.Follows (Joint (Sum.LiftRel (ReadBehind before)
        fun q q' => q'.statements = before ++ q.statements) L.rel)
      (behindStatementsHeld params n s c.scan.1)
      (behindStatements params n' s' c'.scan.1) c c' := by
  have heof := hends .eof (.inl rfl)
  have hsemicolon := hends .semicolon (.inr rfl)
  refine .ite heof.1 (fun hc => .take (heof.2 hc) (Alike.pure (.inr h.statements_eq))) fun _ => ?_
  refine .ite hsemicolon.1 (fun hc => .take (hsemicolon.2 hc) (Alike.pure (.inl ?_))) fun _ => ?_
  · exact ⟨h.statements_eq, rfl⟩
  refine .ite (by rw [h.separated_eq]) (fun _ => .putBack hr ?_) fun _ => ?_
  · refine (statement_alike hL hn hparams).bindSame fun x => .pure (.inl ⟨?_, rfl⟩)
    rw [h.statements_eq, List.append_assoc]
  · exact .ofErrors rfl rfl (hheads.errors_unexpected hL _)

theorem furtherStatement_alike (hends : L.KeepsEnds) {before : List Statement} {s s' : Statements}
    (h : ReadBehind before s s') :
    L.Alike (Sum.LiftRel (ReadBehind before) fun q q' => q'.statements = before ++ q.statements)
      (furtherStatementTrace params n s)
      (furtherStatement params n' s') := by
  refine Alike.congr ?_ (furtherStatement_eq s).symm (furtherStatement_eq s').symm
  refine .significant hL fun c c' hr hheads => ?_
  rcases hends hr hheads with hlost | hends
  · exact .astray (.ofMisses (hlost _) _ _)
  · exact behindStatements_follows hL hn hparams hr hheads hends h

theorem query_alike (hends : L.KeepsEnds) {before : List Statement} {s s' : Statements}
    (h : ReadBehind before s s') {m m' : Nat} (hm : m ≤ m') :
    L.Alike (fun q q' => q'.statements = before ++ q.statements)
      (Trace.loop .statement (furtherStatementTrace params n) m s)
      (loop (furtherStatement params n') m' s') :=
  .loop hL (fun _ _ h => furtherStatement_alike hL hn hparams hends h) hm h

end Statements

/-- If the run on the left does not go astray, either text gives the queries that the other gives. -/
theorem query_run_iff {params : Params} (hparams : L.params params) (hends : L.KeepsEnds)
    {text text' : List Char} (hstart : L.rel (Scanner.start text) (Scanner.start text'))
    (hsteps : stepsFor text ≤ n) (hfails : ∀ e, L.fails e → e.cause = .outOfSteps)
    (hmisses : ∀ before d ev behind,
      (queryTrace params n).events (TokenStream.start text) = before ++ ev :: behind →
        (Scanner.start text).Passes before d → ¬L.misses d ev) (q : Query) :
    (query params n).run text = .ok q ↔ (query params n').run text' = .ok q := by
  have halike : L.Alike _ (queryTrace params n) (query params n') :=
    query_alike hL hn hparams hends (⟨rfl, rfl⟩ : ReadBehind [] ⟨[], true⟩ ⟨[], true⟩) hn
  have hmeets := halike _ _ _ _ hstart (.clear none) (.clear none)
  change L.Meets _ _ ((queryTrace params n).events (TokenStream.start text))
    (query params n (TokenStream.start text)) (query params n' (TokenStream.start text')) at hmeets
  -- Outcomes that correspond are the same query or two errors.
  rw [run_eq_ok, run_eq_ok]
  generalize ho : query params n (TokenStream.start text) = o at hmeets ⊢
  generalize query params n' (TokenStream.start text') = o' at hmeets ⊢
  cases hmeets with
  | @ok q₁ q₁' _ _ _ _ hq =>
    obtain rfl : q₁' = q₁ := congrArg Query.mk hq.1
    simp
  | error => simp
  | astray h =>
    rcases h with ⟨e, rfl, he⟩ | ⟨before, d, ev, behind, hsplit, hd, hev⟩
    · have hspends := (query_spends params n).weaken hsteps
      exact absurd (hfails e he) (cause_ne_of_run hspends (run_eq_error.2 ho))
    · exact absurd hev (hmisses before d ev behind hsplit hd)

end Grammar

end InfluxQL
