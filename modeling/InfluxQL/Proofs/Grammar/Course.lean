import InfluxQL.Proofs.Grammar.Trace
import InfluxQL.Proofs.Token.Lossless
import InfluxQL.Proofs.Token.Spelling

/-!
# The course of a run

Whatever the text, a run of a grammar rule takes an orderly course: its marks are left further and
further on, a parameter is only bound where an operand can stand, and if the run fails, then because
of tokens that it was given.

* `Mark.rank`, `Event.place?`: the marks at one byte have an order, those of inner repetitions first;
* `Course c₀ h c a`: the events `h` led from `c₀` to `c`, and were in order;
* `ParseError.Blames`: the error is about tokens that were given;
* `Trace.Leads`: where a production leads from a scanner on, after what has happened before;
* `Grammar.query_leads`, `Grammar.statement_leads`, `Grammar.expression_leads`: the statements for
  queries, statements and expressions.
-/

namespace InfluxQL

open Production Scanner TokenStream

/-! ### Marks in order -/

/-- Which of the marks at one byte comes first. Where something begins that a token has just been taken
for there is no other mark. -/
def Mark.rank : Mark → Nat
  | operation => 1
  | argument => 2
  | statement => 3
  | segment | field | source | nested => 0

/-- Where a mark stands among all marks. -/
def Event.place? : Event → Option Nat
  | starts m byte => some (4 * byte + m.rank)
  | _ => none

/-- The places of the marks, in the order of time. -/
def places (h : List Event) : List Nat :=
  h.filterMap Event.place?

/-- The parameters that were bound stood where an operand could. -/
def BoundFresh (c₀ : Scanner) (h : List Event) : Prop :=
  ∀ before t behind d, h = before ++ .given (.taken true) t :: behind → c₀.Passes before d →
    d.afterOperand = false

/-- The events led from `c₀` to `c` and were in order; the marks at the byte of `c` are of a rank
below `a`. -/
structure Course (c₀ : Scanner) (h : List Event) (c : Scanner) (a : Nat) : Prop where
  passes : c₀.Passes h c
  ascending : (places h).Pairwise (· < ·)
  below : ∀ k ∈ places h, k < 4 * c.offset + a
  fresh : BoundFresh c₀ h

namespace Scanner

/-- A token other than the end of the text takes at least one byte. -/
theorem offset_lt_scan {c : Scanner} (h : c.scan.1.kind ≠ .eof) : c.offset < c.scan.2.offset := by
  have hcovers := covers_scan (s := c) rfl
  have hlt := hcovers.nonempty h
  rwa [hcovers.start_eq, hcovers.stop_eq] at hlt

theorem covers_regex {c : Scanner} {text rest : List Char} (h : c.source = text)
    (ha : c.cursor.ahead = '/' :: rest) : Covers text c (c.regex rest).1 (c.regex rest).2 := by
  have hcovers := covers_scanRegex h
  rwa [Scanner.scanRegex_eq, ha] at hcovers

theorem offset_lt_regex {c : Scanner} {rest : List Char} (ha : c.cursor.ahead = '/' :: rest) :
    c.offset < (c.regex rest).2.offset := by
  have hcovers := covers_regex rfl ha
  have hkind : (c.regex rest).1.kind ≠ .eof := by
    show (Lexeme.regex rest).kind ≠ .eof
    unfold Lexeme.regex
    split <;> simp
  have hlt := hcovers.nonempty hkind
  rwa [hcovers.start_eq, hcovers.stop_eq] at hlt

/-- A slash is taken for a division where no regular expression is wanted. -/
theorem scan_slash {c : Scanner} {rest : List Char} (ha : c.cursor.ahead = '/' :: rest) :
    c.scan.1.kind ≠ .blank ∧ c.scan.2.offset ≤ (c.regex rest).2.offset := by
  have hscan : c.scan = c.take ⟨.op .div, [], 1⟩ :=
    scan_of_lexeme (by rw [ha]; exact Lexeme.next?_slash _ _)
  have hone : c.scan.2.offset = c.offset + 1 := by
    rw [hscan]
    show c.cursor.offset + byteSize (c.cursor.ahead.take 1) = _
    rw [ha]
    rfl
  have hlt := offset_lt_regex ha
  refine ⟨?_, by omega⟩
  rw [hscan]
  nofun

/-- A lexeme that takes no more bytes than the front of what is ahead is no longer. -/
theorem width_le_of_offset_le {c : Scanner} {front tail : List Char} {l : Lexeme}
    (ha : c.cursor.ahead = front ++ tail) (hw : l.width ≤ (front ++ tail).length)
    (h : (c.take l).2.offset ≤ c.offset + byteSize front) : l.width ≤ front.length := by
  have hstop : (c.take l).2.offset = c.offset + byteSize ((front ++ tail).take l.width) := by
    rw [← ha]
    rfl
  exact le_length_of_byteSize_take_le hw (by omega)

/-- A token that is given covers its part of the text. -/
theorem Moves.covers {c d : Scanner} {u : Use} {t : Token} {text : List Char}
    (h : c.Moves (.given u t) d) (hs : c.source = text) :
    ∃ c', Covers text c t c' ∧ c.offset ≤ c'.offset := by
  cases h with
  | taken | returned => exact ⟨_, covers_scan hs, offset_le_scan⟩
  | regex ha => exact ⟨_, covers_regex hs ha, offset_le_take _⟩

/-- What the last token was. -/
theorem last_scan {c : Scanner} {k : TokenKind} (h : c.scan.1.kind = k) (hk : k.isIdle = false) :
    c.scan.2.last = some k := by
  cases hl : Lexeme.next? c.afterOperand c.cursor.ahead with
  | none =>
    rw [scan_of_end (Lexeme.next?_eq_none_iff.1 hl)] at h
    obtain rfl : TokenKind.eof = k := h
    cases hk
  | some l =>
    rw [scan_of_lexeme hl] at h ⊢
    obtain rfl : l.kind = k := h
    exact if_neg (TokenKind.ne_of_isIdle rfl hk).symm

/-- Whether an operand ends behind a token is for its kind to say. -/
theorem afterOperand_scan {c : Scanner} {k : TokenKind} (h : c.scan.1.kind = k)
    (hk : k.isIdle = false) : c.scan.2.afterOperand = k.endsOperand := by
  rw [afterOperand, last_scan h hk]
  rfl

end Scanner

namespace Course

variable {c₀ c d : Scanner} {h : List Event} {ev : Event} {a b : Nat}

theorem start (c₀ : Scanner) : Course c₀ [] c₀ 0 where
  passes := .done c₀
  ascending := .nil
  below := by simp [places]
  fresh before t behind d hd := by simp at hd

theorem mono (hc : Course c₀ h c a) (hab : a ≤ b) : Course c₀ h c b where
  passes := hc.passes
  ascending := hc.ascending
  below k hk := Nat.lt_of_lt_of_le (hc.below k hk) (Nat.add_le_add_left hab _)
  fresh := hc.fresh

/-- One more event, which is no mark. -/
theorem event (hc : Course c₀ h c a) (hm : c.Moves ev d) (hplace : ev.place? = none)
    (hbound : ∀ t, ev = .given (.taken true) t → c.afterOperand = false)
    (hab : 4 * c.offset + a ≤ 4 * d.offset + b) : Course c₀ (h ++ [ev]) d b := by
  have hplaces : places (h ++ [ev]) = places h := by
    simp [places, hplace]
  refine ⟨hc.passes.append hm.passes, ?_, fun k hk => ?_, ?_⟩
  · rw [hplaces]
    exact hc.ascending
  · rw [hplaces] at hk
    have := hc.below k hk
    omega
  · -- The parameter is bound by the new event, or was bound by an earlier one.
    intro before t behind d' hd hp
    rcases List.eq_nil_or_concat behind with rfl | ⟨behind, ev', rfl⟩
    · obtain ⟨rfl, he⟩ := List.append_inj' hd rfl
      obtain rfl := hc.passes.unique hp
      exact hbound t (List.head_eq_of_cons_eq he)
    · rw [List.concat_eq_append, ← List.cons_append, ← List.append_assoc] at hd
      exact hc.fresh before t behind d' (List.append_inj' hd rfl).1 hp

/-- A mark is left. -/
theorem mark (hc : Course c₀ h c a) {m : Mark} (ha : a ≤ m.rank) :
    Course c₀ (h ++ [.starts m c.offset]) c (m.rank + 1) := by
  have hplaces : places (h ++ [.starts m c.offset]) = places h ++ [4 * c.offset + m.rank] := by
    simp [places, Event.place?]
  refine ⟨hc.passes.append (Moves.starts c m).passes, ?_, fun k hk => ?_, ?_⟩
  · rw [hplaces, List.pairwise_append]
    refine ⟨hc.ascending, List.pairwise_singleton _ _, fun k hk k' hk' => ?_⟩
    have := hc.below k hk
    rw [List.mem_singleton.1 hk']
    omega
  · rw [hplaces] at hk
    rcases List.mem_append.1 hk with hk | hk
    · have := hc.below k hk
      omega
    · rw [List.mem_singleton.1 hk]
      omega
  · intro before t behind d' hd hp
    rcases List.eq_nil_or_concat behind with rfl | ⟨behind, ev', rfl⟩
    · cases List.head_eq_of_cons_eq (List.append_inj' hd rfl).2
    · rw [List.concat_eq_append, ← List.cons_append, ← List.append_assoc] at hd
      exact hc.fresh before t behind d' (List.append_inj' hd rfl).1 hp

theorem peeked (hc : Course c₀ h c a) : Course c₀ (h ++ [.peeked]) c a :=
  hc.event (.peeked c) rfl (fun _ h => nomatch h) (Nat.le_refl _)

theorem returned (hc : Course c₀ h c a) : Course c₀ (h ++ [.given .returned c.scan.1]) c a :=
  hc.event (.returned c) rfl (fun _ h => nomatch h) (Nat.le_refl _)

theorem blank (hc : Course c₀ h c a) : Course c₀ (h ++ [.given c.blankUse c.scan.1]) c.pastBlank a := by
  refine hc.event moves_pastBlank rfl (fun t ht => ?_) ?_
  · unfold blankUse at ht
    split at ht <;> cases ht
  · have := moves_pastBlank.offset_le (c := c)
    omega

/-- A token is taken that is not the end of the text. -/
theorem taken (hc : Course c₀ h c a) (ha : a ≤ 4) {bound : Bool}
    (hb : bound = true → c.afterOperand = false) (hk : c.scan.1.kind ≠ .eof) :
    Course c₀ (h ++ [.given (.taken bound) c.scan.1]) c.scan.2 0 := by
  refine hc.event (.taken c bound) rfl (fun t ht => hb ?_) ?_
  · cases ht
    rfl
  · have := offset_lt_scan hk
    omega

/-- Any token is taken, even the end of the text. -/
theorem takenAs (hc : Course c₀ h c a) {bound : Bool}
    (hb : bound = true → c.afterOperand = false) :
    Course c₀ (h ++ [.given (.taken bound) c.scan.1]) c.scan.2 a := by
  refine hc.event (.taken c bound) rfl (fun t ht => hb ?_) ?_
  · cases ht
    rfl
  · have := offset_le_scan (c := c)
    omega

theorem takenAny (hc : Course c₀ h c a) :
    Course c₀ (h ++ [.given (.taken false) c.scan.1]) c.scan.2 a :=
  hc.takenAs nofun

theorem regex (hc : Course c₀ h c a) (ha : a ≤ 4) {rest : List Char}
    (hrest : c.cursor.ahead = '/' :: rest) :
    Course c₀ (h ++ [.given .regex (c.regex rest).1]) (c.regex rest).2 0 := by
  refine hc.event (.regex hrest) rfl (fun _ h => nomatch h) ?_
  have := offset_lt_regex hrest
  omega

end Course

/-! ### What an error is about -/

/-- The token was given. -/
def Saw (t : Token) (h : List Event) : Prop :=
  ∃ u, Event.given u t ∈ h

/-- The byte is where a token ends that was given, at the same time as the token or later. -/
def Spans (t : Token) (stop : Nat) (h : List Event) : Prop :=
  ∃ before u behind t', h = before ++ .given u t :: behind ∧ Saw t' (.given u t :: behind) ∧
    t'.span.stop = stop

/-- The error is about tokens that were given: an unexpected token was the last one. -/
inductive ParseError.Blames (e : ParseError) (h : List Event) : Prop
  | unexpected {before : List Event} {u : Use} {t : Token} {expected : List String}
      (last : h = before ++ [.given u t]) (error : e = .unexpected t expected)
  | spans {t : Token} (expected : ∀ found expected, e.cause ≠ .unexpected found expected)
      (pos : e.pos = t.pos) (start : e.span.start = t.span.start) (spans : Spans t e.span.stop h)
  | outOfSteps (cause : e.cause = .outOfSteps)

variable {h h' : List Event} {t t' : Token} {u : Use} {stop : Nat}

theorem Saw.mono (hs : Saw t h) (hp : h <+: h') : Saw t h' :=
  hs.imp fun _ hu => hp.subset hu

theorem saw_last (h : List Event) (u : Use) (t : Token) : Saw t (h ++ [.given u t]) :=
  ⟨u, by simp⟩

theorem Saw.spans (hs : Saw t h) : Spans t t.span.stop h := by
  obtain ⟨u, hu⟩ := hs
  obtain ⟨before, behind, rfl⟩ := List.append_of_mem hu
  exact ⟨before, u, behind, t, rfl, ⟨u, List.mem_cons_self⟩, rfl⟩

theorem Spans.mono (hs : Spans t stop h) (hp : h <+: h') : Spans t stop h' := by
  obtain ⟨before, u, behind, t', rfl, hsaw, hstop⟩ := hs
  obtain ⟨more, rfl⟩ := hp
  refine ⟨before, u, behind ++ more, t', by simp, hsaw.mono ?_, hstop⟩
  exact ⟨more, rfl⟩

/-- What happened last happened at the same time or later. -/
theorem mem_of_last {before before' behind : List Event} {ev ev' : Event}
    (h : before ++ [ev] = before' ++ ev' :: behind) : ev ∈ ev' :: behind := by
  have hlast : (ev' :: behind).getLast? = some ev := by
    rw [← List.getLast?_append_of_ne_nil before' (List.cons_ne_nil _ _), ← h]
    simp
  exact List.mem_of_getLast? hlast

/-- A token that is given last is given at the same time or later. -/
theorem Spans.later (hs : Spans t stop h) (hp : h <+: h') {before : List Event}
    (hlast : h' = before ++ [.given u t']) : Spans t t'.span.stop h' := by
  obtain ⟨before', v, behind, _, hh', -, -⟩ := hs.mono hp
  exact ⟨before', v, behind, t', hh', ⟨u, mem_of_last (hlast.symm.trans hh')⟩, rfl⟩

/-- The token has just been taken, and it is of the kind. -/
structure Took (c₀ : Scanner) (k : TokenKind) (t : Token) (h : List Event) (c : Scanner) : Prop where
  course : Course c₀ h c 0
  last : ∃ before, h = before ++ [.given (.taken false) t]
  kind_eq : t.kind = k
  afterOperand_eq : c.afterOperand = k.endsOperand

/-- A token that has just been taken is the last so far. -/
theorem Took.spans {c₀ c : Scanner} {k : TokenKind} (ht : Took c₀ k t' h' c) (hs : Spans t stop h)
    (hp : h <+: h') : Spans t t'.span.stop h' := by
  obtain ⟨before, hlast⟩ := ht.last
  exact hs.later hp hlast

theorem Took.saw {c₀ c : Scanner} {k : TokenKind} (ht : Took c₀ k t h c) : Saw t h := by
  obtain ⟨before, rfl⟩ := ht.last
  exact saw_last before _ t

/-- The run has failed, and the error is about what happened. -/
def Failed (c₀ : Scanner) (e : ParseError) (h : List Event) : Prop :=
  e.Blames h ∧ ∃ c, Course c₀ h c 4

theorem failed_unexpected {c₀ c : Scanner} {a : Nat} {expected : List String}
    (hc : Course c₀ (h ++ [.given u t]) c a) (ha : a ≤ 4) :
    Failed c₀ (.unexpected t expected) (h ++ [.given u t]) :=
  ⟨.unexpected rfl rfl, c, hc.mono ha⟩

theorem failed_atToken {c₀ c : Scanner} {a : Nat} {cause : Cause} (hc : Course c₀ h c a)
    (ha : a ≤ 4) (hs : Saw t h) (hcause : ∀ found expected, cause ≠ .unexpected found expected) :
    Failed c₀ (.atToken t cause) h :=
  ⟨.spans hcause rfl rfl hs.spans, c, hc.mono ha⟩

/-! ### Where a production leads -/

namespace Production

variable {α β : Type}

/-- The run has ended at a scanner of which `φ` holds, or has failed for what happened. -/
def Ends (c₀ : Scanner) (φ : α → List Event → Scanner → Prop) (h : List Event) :
    Except ParseError (α × TokenStream) → Prop
  | .ok (a, s') => ∃ c', GoesOn c' s' ∧ φ a h c'
  | .error e => Failed c₀ e h

/-- However a run has ended, it took an orderly course. -/
theorem Ends.exists_course {c₀ : Scanner} {h : List Event} {o : Except ParseError (α × TokenStream)}
    {a : Nat} (ho : Ends c₀ (fun _ h c => Course c₀ h c a) h o) (ha : a ≤ 4) :
    ∃ c, Course c₀ h c 4 := by
  cases o with
  | ok r =>
    obtain ⟨c, -, hc⟩ := ho
    exact ⟨c, hc.mono ha⟩
  | error e => exact ho.2

/-- From the scanner on, after `h` has happened, the production leads to where `φ` holds. -/
def Trace.Leads {p : Production α} (T : Trace p) (c₀ : Scanner)
    (φ : α → List Event → Scanner → Prop) (h : List Event) (c : Scanner) : Prop :=
  ∀ s, GoesOn c s → Ends c₀ φ (h ++ T.events s) (p s)

/-- The same when the next token has just been read. -/
def Held.Leads {p : Production α} (H : Held p) (c₀ : Scanner)
    (φ : α → List Event → Scanner → Prop) (h : List Event) (c : Scanner) : Prop :=
  Ends c₀ φ (h ++ .given H.use c.scan.1 :: H.events (justRead c)) (p (justRead c))

variable {p q : Production α} {T : Trace p} {U : Trace q} {c₀ c : Scanner} {h : List Event}
  {φ : α → List Event → Scanner → Prop} {ψ : β → List Event → Scanner → Prop} {a : Nat}

namespace Trace.Leads

/-- What happens from the beginning of a text on. -/
theorem run {text : List Char} (hT : T.Leads c₀ φ [] (Scanner.start text)) :
    Ends c₀ φ (T.events (TokenStream.start text)) (p (TokenStream.start text)) :=
  hT _ (.clear none)

theorem congr (hT : T.Leads c₀ φ h c) (hq : p = q) : (T.congr hq).Leads c₀ φ h c := by
  subst hq
  exact hT

theorem still {hstill : ∀ s a s', p s = .ok (a, s') → s' = s}
    (hp : ∀ s, (∃ a, p s = .ok (a, s) ∧ φ a h c) ∨ ∃ e, p s = .error e ∧ Failed c₀ e h) :
    (Trace.still hstill).Leads c₀ φ h c := by
  intro s hs
  show Ends c₀ φ (h ++ []) (p s)
  rw [List.append_nil]
  rcases hp s with ⟨a, ha, hφ⟩ | ⟨e, he, hfailed⟩
  · rw [ha]
    exact ⟨c, hs, hφ⟩
  · rw [he]
    exact hfailed

theorem pure {x : α} (hφ : φ x h c) : (Trace.pure x).Leads c₀ φ h c :=
  .still fun _ => .inl ⟨x, rfl, hφ⟩

theorem fail {e : ParseError} (he : Failed c₀ e h) :
    (Trace.fail e : Trace (Production.fail e : Production α)).Leads c₀ φ h c :=
  .still fun _ => .inr ⟨e, rfl, he⟩

theorem outOfSteps (hc : Course c₀ h c a) (ha : a ≤ 4) :
    (Trace.fail _ : Trace (Production.outOfSteps : Production α)).Leads c₀ φ h c :=
  .still fun _ => .inr ⟨_, rfl, .outOfSteps rfl, c, hc.mono ha⟩

theorem bind {p : Production β} {T : Trace p} {f : β → Production α} {U : ∀ x, Trace (f x)}
    (hT : T.Leads c₀ ψ h c)
    (hU : ∀ x h' c', h <+: h' → ψ x h' c' → (U x).Leads c₀ φ h' c') :
    (T.bind U).Leads c₀ φ h c := by
  intro s hs
  have hT := hT s hs
  simp only [Trace.bind, Bind.bind, StateT.bind]
  cases hp : p s with
  | error e =>
    rw [hp] at hT
    simp only [Except.bind, List.append_nil]
    exact hT
  | ok r =>
    obtain ⟨x, s₁⟩ := r
    rw [hp] at hT
    obtain ⟨c₁, hs₁, hψ⟩ := hT
    simp only [Except.bind]
    rw [← List.append_assoc]
    exact hU x _ c₁ (List.prefix_append _ _) hψ s₁ hs₁

theorem mono {ψ : α → List Event → Scanner → Prop} (hT : T.Leads c₀ ψ h c)
    (hφ : ∀ x h' c', h <+: h' → ψ x h' c' → φ x h' c') : T.Leads c₀ φ h c := by
  intro s hs
  have hT := hT s hs
  cases hp : p s with
  | error e =>
    rw [hp] at hT
    exact hT
  | ok r =>
    obtain ⟨x, s₁⟩ := r
    rw [hp] at hT
    obtain ⟨c₁, hs₁, hψ⟩ := hT
    exact ⟨c₁, hs₁, hφ x _ c₁ (List.prefix_append _ _) hψ⟩

theorem ite {d : Prop} [Decidable d] (hT : d → T.Leads c₀ φ h c) (hU : ¬d → U.Leads c₀ φ h c) :
    (Trace.ite T U : Trace (if d then p else q)).Leads c₀ φ h c := by
  unfold Trace.ite
  split
  · next hd => exact (hT hd).congr _
  · next hd => exact (hU hd).congr _

theorem mark {m : Mark} (hT : T.Leads c₀ φ (h ++ [.starts m c.offset]) c) :
    (T.mark m).Leads c₀ φ h c := by
  intro s hs
  show Ends c₀ φ (h ++ .starts m s.offset :: T.events s) (p s)
  rw [hs.offset_eq, List.append_cons]
  exact hT s hs

theorem skipBlank {φ : Unit → List Event → Scanner → Prop}
    (hφ : φ () (h ++ [.given c.blankUse c.scan.1]) c.pastBlank) :
    Trace.skipBlank.Leads c₀ φ h c := by
  intro s hs
  show Ends c₀ φ (h ++ [.given (if s.scan.1.kind = .blank then _ else _) s.scan.1])
    (.ok ((), s.skipBlank))
  rw [hs.scan_eq]
  exact ⟨_, hs.skipBlank, hφ⟩

theorem peek? {φ : Option Char → List Event → Scanner → Prop}
    (hφ : φ c.cursor.ahead.head? (h ++ [.peeked]) c) : Trace.peek?.Leads c₀ φ h c := by
  intro s hs
  show Ends c₀ φ (h ++ [.peeked]) (.ok (s.peek?, s))
  rw [hs.peek?_eq]
  exact ⟨c, hs, hφ⟩

theorem next {f : Token → Production α} {H : ∀ t, Held (f t)}
    (hH : (H c.scan.1).Leads c₀ φ h c) : (Trace.next H).Leads c₀ φ h c := by
  intro s hs
  show Ends c₀ φ (h ++ .given (H s.scan.1).use s.scan.1 :: (H s.scan.1).events s.scan.2)
    (f s.scan.1 s.scan.2)
  rw [hs.scan_eq]
  exact hH

theorem significant {f : Token → Production α} {H : ∀ t, Held (f t)}
    (hH : (H c.pastBlank.scan.1).Leads c₀ φ (h ++ [.given c.blankUse c.scan.1]) c.pastBlank) :
    (Trace.significant H).Leads c₀ φ h c := by
  refine congr (bind (ψ := fun _ h' c' => h' = h ++ [.given c.blankUse c.scan.1] ∧ c' = c.pastBlank)
    (skipBlank ⟨rfl, rfl⟩) ?_) _
  rintro _ _ _ - ⟨rfl, rfl⟩
  exact next hH

end Trace.Leads

namespace Held.Leads

theorem takeAs {bound : Bool}
    (hT : T.Leads c₀ φ (h ++ [.given (.taken bound) c.scan.1]) c.scan.2) :
    (Held.takeAs bound T).Leads c₀ φ h c := by
  have hT := hT (justRead c) (goesOn_justRead c)
  rwa [List.append_assoc] at hT

theorem take (hT : T.Leads c₀ φ (h ++ [.given (.taken false) c.scan.1]) c.scan.2) :
    (Held.take T).Leads c₀ φ h c :=
  takeAs hT

theorem putBack (hT : T.Leads c₀ φ (h ++ [.given .returned c.scan.1]) c) :
    (Held.putBack T).Leads c₀ φ h c := by
  have hT := hT (justRead c).unscan (goesOn_unscan_justRead c)
  rwa [List.append_assoc] at hT

theorem congr {H : Held p} (hH : H.Leads c₀ φ h c) (hq : p = q) : (H.congr hq).Leads c₀ φ h c := by
  subst hq
  exact hH

theorem ite {d : Prop} [Decidable d] {H : Held p} {K : Held q} (hH : d → H.Leads c₀ φ h c)
    (hK : ¬d → K.Leads c₀ φ h c) :
    (Held.ite H K : Held (if d then p else q)).Leads c₀ φ h c := by
  unfold Held.ite
  split
  · next hd => exact (hH hd).congr _
  · next hd => exact (hK hd).congr _

end Held.Leads

namespace Trace.Leads

variable {k : TokenKind} {y : Token → Production α} {V : ∀ t, Trace (y t)} {expected : List String}

theorem took (hc : Course c₀ h c a) (ha : a ≤ 4) (hk : k.isIdle = false)
    (hkind : c.scan.1.kind = k) :
    Took c₀ k c.scan.1 (h ++ [.given (.taken false) c.scan.1]) c.scan.2 where
  course := hc.taken ha nofun (hkind ▸ (TokenKind.ne_of_isIdle rfl hk).symm)
  last := ⟨h, rfl⟩
  kind_eq := hkind
  afterOperand_eq := afterOperand_scan hkind hk

/-- Looking for a token of a kind. -/
theorem lookFor (hc : Course c₀ h c a) (ha : a ≤ 4) (hk : k.isIdle = false)
    (hV : ∀ t h' c', h <+: h' → Took c₀ k t h' c' → (V t).Leads c₀ φ h' c')
    (hU : ∀ h', h <+: h' → Course c₀ h' c a → U.Leads c₀ φ h' c) :
    (Trace.lookFor (k := k) V U).Leads c₀ φ h c := by
  refine next (.ite (fun hkind => .take ?_) fun _ => .putBack ?_)
  · exact hV _ _ _ (List.prefix_append _ _) (took hc ha hk hkind)
  · exact hU _ (List.prefix_append _ _) hc.returned

/-- Looking for a significant token of a kind. -/
theorem lookForSignificant (hc : Course c₀ h c a) (ha : a ≤ 4) (hk : k.isIdle = false)
    (hV : ∀ t h' c', h <+: h' → Took c₀ k t h' c' → (V t).Leads c₀ φ h' c')
    (hU : ∀ h', h <+: h' → Course c₀ h' c.pastBlank a → U.Leads c₀ φ h' c.pastBlank) :
    (Trace.lookForSignificant (k := k) V U).Leads c₀ φ h c := by
  have hblank := List.prefix_append h [.given c.blankUse c.scan.1]
  refine significant (.ite (fun hkind => .take ?_) fun _ => .putBack ?_)
  · exact hV _ _ _ (hblank.trans (List.prefix_append _ _)) (took hc.blank ha hk hkind)
  · exact hU _ (hblank.trans (List.prefix_append _ _)) hc.blank.returned

/-- A token of a kind, or else an error. -/
theorem expect (hc : Course c₀ h c a) (ha : a ≤ 4) (hk : k.isIdle = false)
    (hV : ∀ t h' c', h <+: h' → Took c₀ k t h' c' → (V t).Leads c₀ φ h' c') :
    (Trace.expect V : Trace (scan >>= fun t =>
      if t.kind = k then y t else unexpected t expected)).Leads c₀ φ h c := by
  refine next (.ite (fun hkind => .take ?_) fun _ => .take (.fail ?_))
  · exact hV _ _ _ (List.prefix_append _ _) (took hc ha hk hkind)
  · exact failed_unexpected hc.takenAny ha

/-- A significant token of a kind, or else an error. -/
theorem expectSignificant (hc : Course c₀ h c a) (ha : a ≤ 4) (hk : k.isIdle = false)
    (hV : ∀ t h' c', h <+: h' → Took c₀ k t h' c' → (V t).Leads c₀ φ h' c') :
    (Trace.expectSignificant V : Trace (scanSignificant >>= fun t =>
      if t.kind = k then y t else unexpected t expected)).Leads c₀ φ h c := by
  have hblank := List.prefix_append h [.given c.blankUse c.scan.1]
  refine significant (.ite (fun hkind => .take ?_) fun _ => .take (.fail ?_))
  · exact hV _ _ _ (hblank.trans (List.prefix_append _ _)) (took hc.blank ha hk hkind)
  · exact failed_unexpected hc.blank.takenAny ha

/-- A repetition. Before each round, and behind the last one, an invariant holds. -/
theorem loop {body : β → Production (β ⊕ α)} {m : Mark} {V : ∀ b, Trace (body b)} {n : Nat}
    {I : β → List Event → Scanner → Prop} (hcourse : ∀ {b h c}, I b h c → Course c₀ h c m.rank)
    (hrank : m.rank ≤ 3)
    (hround : ∀ b h' c', h <+: h' → I b h' c' → Course c₀ (h' ++ [.starts m c'.offset]) c' (m.rank + 1) →
      (V b).Leads c₀ (Sum.elim I φ) (h' ++ [.starts m c'.offset]) c')
    {b : β} (hI : I b h c) : (Trace.loop m V n b).Leads c₀ φ h c := by
  -- By induction on the rounds that are left; behind the mark of a round its body finds the rank taken.
  induction n generalizing h c b with
  | zero => exact .outOfSteps (hcourse hI) (by omega)
  | succ n ih =>
    have hmarked := hround b h c (List.prefix_refl h) hI ((hcourse hI).mark (Nat.le_refl _))
    refine bind (mark hmarked) fun r h' c' hp hr => ?_
    cases r with
    | inl b' => exact ih (fun b'' h'' c'' hp' => hround b'' h'' c'' (hp.trans hp')) hr
    | inr x => exact .pure hr

/-- Reading a regular expression if a slash is next. -/
theorem atSlash {f : Token → Production α} {V : ∀ t, Trace (f t)} (hc : Course c₀ h c a) (ha : a ≤ 4)
    (hV : ∀ t h' c', h <+: h' → Course c₀ (h' ++ [.given .regex t]) c' 0 →
      (V t).Leads c₀ φ (h' ++ [.given .regex t]) c')
    (hU : Course c₀ (h ++ [.peeked]) c a → U.Leads c₀ φ (h ++ [.peeked]) c) :
    (Trace.atSlash V U).Leads c₀ φ h c := by
  intro s hs
  simp only [Trace.atSlash, Production.atSlash]
  rw [hs.peek?_eq, List.append_cons]
  split
  · next hslash =>
    obtain ⟨rest, hrest⟩ := List.head?_eq_some_iff.1 hslash
    show Ends c₀ φ _ (f s.scanRegex.1 s.scanRegex.2)
    rw [hs.scanRegex_eq_regex hrest, List.append_cons]
    exact hV _ _ _ (List.prefix_append _ _) (hc.peeked.regex ha hrest) _ (goesOn_justReadRegex c rest)
  · exact hU hc.peeked s hs

end Trace.Leads

end Production

namespace Grammar

open Production

variable {c₀ c : Scanner} {h : List Event} {a n : Nat}

/-! ### Names -/

theorem identToken_leads (hc : Course c₀ h c a) (ha : a ≤ 4) :
    identTokenTrace.Leads c₀ (Took c₀ .ident) h c :=
  .expectSignificant hc ha rfl fun _ _ _ _ ht => .pure ht

theorem ident_leads (hc : Course c₀ h c a) (ha : a ≤ 4) :
    identTrace.Leads c₀ (fun _ h c => Course c₀ h c 0) h c :=
  (identToken_leads hc ha).bind fun _ _ _ _ ht => .pure ht.course

/-- The segments read so far end where a token does that was given since the first. -/
def InSegments (c₀ : Scanner) (first : Token) (a : Nat) (s : Segments) (h : List Event)
    (c : Scanner) : Prop :=
  Course c₀ h c a ∧ Spans first s.stop h

variable {first : Token}

theorem behindDot_leads {names : List String} {t : Token} {c? : Option Char} (hc : Course c₀ h c 0)
    (hs : Spans first t.span.stop h) : (behindDotTrace names t c?).Leads c₀
      (Sum.elim (InSegments c₀ first 0) (InSegments c₀ first 1)) h c := by
  refine .ite (fun _ => .pure ⟨hc.mono (by omega), hs⟩) fun _ => .ite (fun _ => .pure ⟨hc, hs⟩)
    fun _ => ?_
  exact (identToken_leads hc (by omega)).bind fun u h' c' hp hu => .pure ⟨hu.course, hu.spans hs hp⟩

theorem segment_leads {s : Segments} (hc : Course c₀ h c 1) (hs : Spans first s.stop h) :
    (segmentTrace s).Leads c₀
      (Sum.elim (InSegments c₀ first 0) (InSegments c₀ first 1)) h c := by
  refine .congr (.lookFor hc (by omega) rfl (fun t h' c' hp ht => ?_) fun h' hp hc' => ?_) _
  · have hdot := ht.spans hs hp
    refine .bind (ψ := fun _ h'' c'' => h'' = h' ++ [.peeked] ∧ c'' = c') (.peek? ⟨rfl, rfl⟩) ?_
    rintro c? _ _ hp' ⟨rfl, rfl⟩
    exact behindDot_leads ht.course.peeked (hdot.mono hp')
  · exact .pure ⟨hc', hs.mono hp⟩

theorem segments_leads (hc : Course c₀ h c 0) (hs : Saw first h) :
    (segmentsTrace n first).Leads c₀ (fun _ h c => Course c₀ h c 1) h c := by
  have hloop : (Trace.loop .segment segmentTrace n ⟨[first.lit], first.span.stop⟩).Leads c₀
      (InSegments c₀ first 1) h c :=
    .loop (m := .segment) (I := InSegments c₀ first 0) (fun hI => hI.1) (by decide)
      (fun s h' c' _ hI hm => segment_leads hm (hI.2.mono (List.prefix_append _ _)))
      ⟨hc, hs.spans⟩
  refine hloop.bind fun s h' c' _ hs => .ite (fun _ => .pure hs.1) fun _ => .fail ?_
  exact ⟨.spans nofun rfl rfl hs.2, c', hs.1.mono (by omega)⟩

theorem dottedName_leads (hc : Course c₀ h c a) (ha : a ≤ 4) :
    (dottedNameTrace n).Leads c₀ (fun _ h c => Course c₀ h c 1) h c :=
  (identToken_leads hc ha).bind fun _ _ _ _ ht => segments_leads ht.course ht.saw

theorem typed_leads {name : String} {u : Use} {t : Token} (ha : a ≤ 4)
    (hc : Course c₀ (h ++ [.given u t]) c a) :
    (typedTrace name t).Leads c₀ (fun _ h c => Course c₀ h c a) (h ++ [.given u t]) c := by
  refine .still fun s => ?_
  rcases typed_eq name t with ⟨v, hv⟩ | hv <;> rw [hv]
  · exact .inl ⟨v, rfl, hc⟩
  · exact .inr ⟨_, rfl, failed_unexpected hc ha⟩

theorem reference_leads (hc : Course c₀ h c 0) (hs : Saw first h) :
    (referenceTrace n first).Leads c₀ (fun _ h c => Course c₀ h c 1) h c := by
  refine (segments_leads hc hs).bind fun names h' c' _ hc' => ?_
  refine .lookFor hc' (by omega) rfl (fun t h'' c'' _ ht => .next (.take ?_)) fun _ _ hc'' => .pure hc''
  exact (typed_leads (by omega) ht.course.takenAny).mono fun _ _ _ _ hc => hc.mono (by omega)

variable [PatternCompiler]

/-! ### Expressions -/

theorem regexLiteral_leads {t : Token} (hc : Course c₀ (h ++ [.given .regex t]) c 0) :
    (regexLiteralTrace t).Leads c₀ (fun p? h c => Course c₀ h c 0 ∧ p? ≠ none)
      (h ++ [.given .regex t]) c := by
  refine .still fun s => ?_
  have hfailed : ∀ cause, (∀ found expected, cause ≠ .unexpected found expected) →
      Failed c₀ (.atToken t cause) (h ++ [.given .regex t]) :=
    fun _ => failed_atToken hc (by omega) (saw_last h _ t)
  unfold regexLiteral
  generalize t.kind = k
  cases k with
  | regex =>
    dsimp only
    rcases compiles_or_error t.lit with hp | ⟨text, he⟩
    · rw [pattern_of_compiles hp]
      exact .inl ⟨some t.lit, rfl, hc, nofun⟩
    · rw [pattern_of_error he]
      exact .inr ⟨_, rfl, hfailed (.badPattern text) nofun⟩
  | badEscape => exact .inr ⟨_, rfl, hfailed _ nofun⟩
  | badRegex => exact .inr ⟨_, rfl, hfailed _ nofun⟩
  | _ => exact .inr ⟨_, rfl, failed_unexpected hc (by omega)⟩

omit [PatternCompiler] in
theorem skipBlankCharacter_leads (hc : Course c₀ h c a) :
    skipBlankCharacterTrace.Leads c₀
      (fun _ h' c' => Course c₀ h' c' a ∧ c'.afterOperand = c.afterOperand) h c := by
  refine .congr (.bind (ψ := fun _ h' c' => h' = h ++ [.peeked] ∧ c' = c) (.peek? ⟨rfl, rfl⟩) ?_) _
  rintro c? _ c' - ⟨rfl, rfl⟩
  refine .ite (fun _ => .skipBlank ⟨hc.peeked.blank, ?_⟩) fun _ => .pure ⟨hc.peeked, rfl⟩
  exact afterOperand_pastBlank c'

/-- Where there is no regular expression, an operand can stand if it could before. -/
theorem regex_leads (hc : Course c₀ h c a) (ha : a ≤ 4) :
    regexTrace.Leads c₀ (fun p? h' c' => Course c₀ h' c' a ∧
      (p? = none → c'.afterOperand = c.afterOperand)) h c := by
  refine .congr ((skipBlankCharacter_leads hc).bind fun _ h' c' _ hc' => ?_) _
  refine .atSlash hc'.1 ha (fun t h'' c'' _ hc'' => ?_) fun hc'' => .pure ⟨hc'', fun _ => hc'.2⟩
  exact (regexLiteral_leads hc'').mono fun _ _ _ _ hp => ⟨hp.1.mono (by omega), fun hn => absurd hn hp.2⟩

section Nested

variable {nested : Production Expr} {T : Trace nested}
  (hT : ∀ {h c}, Course c₀ h c 4 → c.afterOperand = false →
    T.Leads c₀ (fun _ h c => Course c₀ h c 2) h c)
include hT

omit [PatternCompiler] in
/-- An expression within another begins. -/
theorem nested_leads (hc : Course c₀ h c 0) (hf : c.afterOperand = false) :
    (T.mark .nested).Leads c₀ (fun _ h c => Course c₀ h c 2) h c :=
  .mark (hT ((hc.mark (m := .nested) (Nat.le_refl 0)).mono (by decide)) hf)

theorem argument_leads (hc : Course c₀ h c 0) (hf : c.afterOperand = false) :
    (argumentTrace T).Leads c₀ (fun _ h c => Course c₀ h c 2) h c := by
  refine (regex_leads hc (by omega)).bind fun p? h' c' _ hp => ?_
  cases p? with
  | some p => exact .pure (hp.1.mono (by omega))
  | none => exact nested_leads hT hp.1 ((hp.2 rfl).trans hf)

theorem furtherArgument_leads (args : List Expr) (hc : Course c₀ h c 3) :
    (furtherArgumentTrace T args).Leads c₀
      (Sum.elim (fun _ h c => Course c₀ h c 2) fun _ h c => Course c₀ h c 3) h c := by
  refine .lookForSignificant hc (by omega) rfl (fun t h' c' _ ht => ?_) fun h' _ hc' => .pure hc'
  exact (argument_leads hT ht.course ht.afterOperand_eq).bind fun _ _ _ _ hc' => .pure hc'

theorem arguments_leads (e : Expr) (hc : Course c₀ h c 2) :
    (argumentsTrace T n e).Leads c₀ (fun _ h c => Course c₀ h c 0) h c := by
  have hloop : (Trace.loop .argument (furtherArgumentTrace T) n [e]).Leads c₀
      (fun _ h c => Course c₀ h c 3) h c :=
    .loop (m := .argument) (I := fun _ h c => Course c₀ h c 2) id (by decide)
      (fun args h' c' _ _ hm => furtherArgument_leads hT args hm) hc
  refine hloop.bind fun args h' c' _ hc' => ?_
  exact .expect hc' (by omega) rfl fun _ _ _ _ ht => .pure ht.course

theorem callArguments_leads (hc : Course c₀ h c 0) (hf : c.afterOperand = false) :
    (callArgumentsTrace T n).Leads c₀ (fun _ h c => Course c₀ h c 0) h c := by
  refine (regex_leads hc (by omega)).bind fun p? h' c' _ hp => ?_
  cases p? with
  | some p => exact arguments_leads hT _ (hp.1.mono (by omega))
  | none =>
    refine .lookFor hp.1 (by omega) rfl (fun _ _ _ _ ht => .pure ht.course) fun h'' _ hc'' => ?_
    refine (nested_leads hT hc'' ((hp.2 rfl).trans hf)).bind fun e _ _ _ hc => ?_
    exact arguments_leads hT e hc

theorem callOrReference_leads (hc : Course c₀ h c 0) (hs : Saw first h) :
    (callOrReferenceTrace T n first).Leads c₀ (fun _ h c => Course c₀ h c 1) h c := by
  refine .lookFor hc (by omega) rfl (fun _ _ _ _ ht => ?_) fun h' hp hc' => ?_
  · refine (callArguments_leads hT ht.course ht.afterOperand_eq).bind fun _ _ _ _ hc' => ?_
    exact .pure (hc'.mono (by omega))
  · exact (reference_leads hc' (hs.mono hp)).bind fun _ _ _ _ hc' => .pure hc'

omit [PatternCompiler] in
theorem parenthesized_leads (hc : Course c₀ h c 0) (hf : c.afterOperand = false) :
    (parenthesizedTrace T).Leads c₀ (fun _ h c => Course c₀ h c 0) h c :=
  (nested_leads hT hc hf).bind fun _ _ _ _ hc' =>
    .expectSignificant hc' (by omega) rfl fun _ _ _ _ ht => .pure ht.course

omit [PatternCompiler] hT in
theorem tokenOperand_leads {params : Params} {u : Use} {t : Token} (ha : a ≤ 4)
    (hc : Course c₀ (h ++ [.given u t]) c a) :
    (tokenOperandTrace params t).Leads c₀ (fun _ h c => Course c₀ h c a) (h ++ [.given u t]) c := by
  refine .still fun s => ?_
  have hfailed : ∀ cause, (∀ found expected, cause ≠ .unexpected found expected) →
      Failed c₀ (.atToken t cause) (h ++ [.given u t]) :=
    fun _ => failed_atToken hc ha (saw_last h u t)
  unfold tokenOperand bound
  generalize t.kind = k
  cases k with
  | string => exact .inl ⟨_, rfl, hc⟩
  | number => exact .inl ⟨_, rfl, hc⟩
  | bool b => exact .inl ⟨_, rfl, hc⟩
  | integer =>
    dsimp only
    generalize Decimal.integer? t.lit.toList = i
    cases i with
    | some i => exact .inl ⟨_, rfl, hc⟩
    | none => exact .inr ⟨_, rfl, hfailed _ nofun⟩
  | param =>
    dsimp only
    by_cases hname : String.ofList (t.lit.toList.drop 1) = ""
    · simp only [if_pos hname]
      exact .inr ⟨_, rfl, hfailed .emptyParam nofun⟩
    · simp only [if_neg hname]
      generalize params.get? _ = v
      rcases v with _ | (_ | _ | _ | _ | _ | _)
      all_goals first
        | exact .inl ⟨_, rfl, hc⟩
        | exact .inr ⟨_, rfl, hfailed _ nofun⟩
  | badString => exact .inr ⟨_, rfl, hfailed _ nofun⟩
  | badEscape => exact .inr ⟨_, rfl, hfailed _ nofun⟩
  | _ => exact .inr ⟨_, rfl, failed_unexpected hc ha⟩

variable {params : Params}

theorem operand_leads (hc : Course c₀ h c 4) (hf : c.afterOperand = false) :
    (operandTrace params n T).Leads c₀ (fun _ h c => Course c₀ h c 1) h c := by
  have hcb := hc.blank
  have hfb : c.pastBlank.afterOperand = false := (afterOperand_pastBlank c).trans hf
  refine .congr (.significant (.ite (fun hk => .take ?_) fun _ => .ite (fun hk => .take ?_)
    fun _ => .takeAs ?_)) _
  · have ht := Trace.Leads.took hcb (Nat.le_refl 4) rfl hk
    exact (parenthesized_leads hT ht.course ht.afterOperand_eq).mono fun _ _ _ _ hc' =>
      hc'.mono (by omega)
  · have ht := Trace.Leads.took hcb (Nat.le_refl 4) rfl hk
    exact callOrReference_leads hT ht.course ht.saw
  · by_cases hk : c.pastBlank.scan.1.kind = .eof
    · -- Taking the end of the text takes no byte, but the end is no operand either.
      have hfailed : Failed c₀
          (.unexpected c.pastBlank.scan.1 ["identifier", "string", "number", "bool"])
          (h ++ [.given c.blankUse c.scan.1] ++
            [.given (.taken (c.pastBlank.scan.1.kind = .param)) c.pastBlank.scan.1]) :=
        failed_unexpected (hcb.takenAs fun _ => hfb) (Nat.le_refl 4)
      refine .still fun s => .inr ⟨_, ?_, hfailed⟩
      rw [tokenOperand, hk]
      rfl
    · refine (tokenOperand_leads (Nat.zero_le 4) (hcb.taken (Nat.le_refl 4) (fun _ => hfb) hk)).mono ?_
      exact fun _ _ _ _ hc' => hc'.mono (by omega)

omit hT in
theorem matchOperand_leads (hc : Course c₀ h c 0) :
    matchOperandTrace.Leads c₀ (fun _ h c => Course c₀ h c 0) h c := by
  refine .bind (ψ := fun _ h c => Course c₀ h c 0) (.skipBlank hc.blank) fun _ h' c' _ hc' => ?_
  refine (regex_leads hc' (by omega)).bind fun p? h'' c'' _ hp => ?_
  cases p? with
  | some p => exact .pure hp.1
  | none =>
    exact .significant (.take (.fail (failed_unexpected hp.1.blank.takenAny (by omega))))

theorem rightOperand_leads (op : Operator) (hc : Course c₀ h c 0) (hf : c.afterOperand = false) :
    (rightOperandTrace params n T op).Leads c₀ (fun _ h c => Course c₀ h c 1) h c :=
  .ite (fun _ => (matchOperand_leads hc).mono fun _ _ _ _ hc' => hc'.mono (by omega))
    fun _ => operand_leads hT (hc.mono (by omega)) hf

theorem operation_leads (ops : List (Operator × Expr)) (hc : Course c₀ h c 2) :
    (operationTrace params n T ops).Leads c₀
      (Sum.elim (fun _ h c => Course c₀ h c 1) fun _ h c => Course c₀ h c 2) h c := by
  refine .significant ?_
  -- Only the kind of an operator has one, so the token that is taken is not the end of the text.
  have hkind : ∀ op, c.pastBlank.scan.1.kind.operator? = some op →
      c.pastBlank.scan.1.kind = .op op := by
    intro op hop
    generalize c.pastBlank.scan.1.kind = k at hop
    cases k <;> cases hop
    rfl
  generalize c.pastBlank.scan.1.kind.operator? = op? at hkind
  cases op? with
  | none => exact .putBack (.pure hc.blank.returned)
  | some op =>
    have ht := Trace.Leads.took hc.blank (by omega) rfl (hkind op rfl)
    refine .take ((rightOperand_leads hT op ht.course ht.afterOperand_eq).bind fun _ _ _ _ hc' => ?_)
    exact .pure hc'

theorem chain_leads (hc : Course c₀ h c 4) (hf : c.afterOperand = false) :
    (chainTrace params n T).Leads c₀ (fun _ h c => Course c₀ h c 2) h c := by
  refine (operand_leads hT hc hf).bind fun _ h' c' _ hc' => ?_
  have hloop : (Trace.loop .operation (operationTrace params n T) n []).Leads c₀
      (fun _ h c => Course c₀ h c 2) h' c' :=
    .loop (m := .operation) (I := fun _ h c => Course c₀ h c 1) id (by decide)
      (fun ops _ _ _ _ hm => operation_leads hT ops hm) hc'
  exact hloop.bind fun _ _ _ _ hc'' => .pure hc''

end Nested

theorem expression_leads (params : Params) (n : Nat) (hc : Course c₀ h c 4)
    (hf : c.afterOperand = false) :
    (expressionTrace params n).Leads c₀ (fun _ h c => Course c₀ h c 2) h c := by
  -- By induction on the steps: an expression within another has one less.
  induction n generalizing h c with
  | zero => exact .outOfSteps hc (Nat.le_refl 4)
  | succ n ih => exact (chain_leads (fun hc hf => ih hc hf) hc hf).bind fun _ _ _ _ hc' => .pure hc'

/-! ### Statements -/

section Statements

variable {params : Params}

omit [PatternCompiler] in
theorem fieldName_leads (hc : Course c₀ h c 2) :
    fieldNameTrace.Leads c₀ (fun _ h c => Course c₀ h c 2) h c := by
  refine .lookForSignificant hc (by omega) rfl (fun _ _ _ _ ht => ?_) fun _ _ hc' => .pure hc'
  exact (ident_leads ht.course (by omega)).bind fun _ _ _ _ hc' => .pure (hc'.mono (by omega))

theorem field_leads (hc : Course c₀ h c 1) (hf : c.afterOperand = false) :
    (fieldTrace params n).Leads c₀ (fun _ h c => Course c₀ h c 2) h c := by
  refine .significant (.putBack ?_)
  have hsaw := saw_last (h ++ [.given c.blankUse c.scan.1]) .returned c.pastBlank.scan.1
  refine (expression_leads params n (hc.blank.returned.mono (by omega))
    ((afterOperand_pastBlank c).trans hf)).bind fun e h' c' hp hc' => ?_
  generalize e.firstCondition? = op?
  cases op? with
  | some op => exact .fail (failed_atToken hc' (by omega) (hsaw.mono hp) nofun)
  | none =>
    refine (fieldName_leads hc').bind fun name h'' c'' _ hc'' => ?_
    refine .bind (ψ := fun _ h c => Course c₀ h c 2) (.skipBlank hc''.blank) fun _ _ _ _ hc => ?_
    exact .pure hc

/-- Before a field a comma or the first word of the statement has been taken. -/
def BeforeField (c₀ : Scanner) (h : List Event) (c : Scanner) : Prop :=
  Course c₀ h c 0 ∧ c.afterOperand = false

theorem furtherField_leads (fields : List Field) (hc : Course c₀ h c 1) (hf : c.afterOperand = false) :
    (furtherFieldTrace params n fields).Leads c₀
      (Sum.elim (fun _ => BeforeField c₀) fun _ h c => Course c₀ h c 2) h c := by
  refine (field_leads hc hf).bind fun f h' c' _ hc' => ?_
  exact .lookFor hc' (by omega) rfl (fun _ _ _ _ ht => .pure ⟨ht.course, ht.afterOperand_eq⟩)
    fun _ _ hc'' => .pure hc''

theorem source_leads (hc : Course c₀ h c 1) :
    (sourceTrace n).Leads c₀ (fun _ h c => Course c₀ h c 1) h c := by
  refine (regex_leads hc (by omega)).bind fun p? h' c' _ hp => ?_
  cases p? with
  | some p => exact .pure hp.1
  | none =>
    refine (dottedName_leads hp.1 (by omega)).bind fun names h'' c'' _ hc'' => ?_
    refine .ite (fun _ => .pure hc'') fun _ => ?_
    exact (regex_leads hc'' (by omega)).bind fun _ _ _ _ hp => .pure hp.1

theorem furtherSource_leads (sources : List Source) (hc : Course c₀ h c 1) :
    (furtherSourceTrace n sources).Leads c₀
      (Sum.elim (fun _ h c => Course c₀ h c 0) fun _ h c => Course c₀ h c 1) h c := by
  refine (source_leads hc).bind fun s h' c' _ hc' => ?_
  exact .lookForSignificant hc' (by omega) rfl (fun _ _ _ _ ht => .pure ht.course)
    fun _ _ hc'' => .pure hc''

theorem condition_leads (hc : Course c₀ h c 1) :
    (conditionTrace params n).Leads c₀ (fun _ h c => Course c₀ h c 2) h c := by
  refine .lookForSignificant hc (by omega) rfl (fun _ _ _ _ ht => ?_)
    fun _ _ hc' => .pure (hc'.mono (by omega))
  exact (expression_leads params n (ht.course.mono (by omega)) ht.afterOperand_eq).bind
    fun _ _ _ _ hc' => .pure hc'

omit [PatternCompiler] in
theorem validated_leads (s : Select) (hc : Course c₀ h c 2) (hs : Saw first h) :
    (validatedTrace first s).Leads c₀ (fun _ h c => Course c₀ h c 2) h c := by
  refine .still fun st => ?_
  unfold validated
  generalize s.validate = v
  cases v with
  | ok _ => exact .inl ⟨s, rfl, hc⟩
  | error fault => exact .inr ⟨_, rfl, failed_atToken hc (by omega) hs nofun⟩

/-- Further fields, where one begins. -/
theorem furtherFields_leads (m : Nat) (fields : List Field) (hc : BeforeField c₀ h c) :
    (Trace.loop .field (furtherFieldTrace params n) m fields).Leads c₀
      (fun _ h c => Course c₀ h c 2) h c :=
  .loop (m := .field) (I := fun _ => BeforeField c₀) (fun hI => hI.1) (by decide)
    (fun fields _ _ _ hI hm => furtherField_leads fields hm hI.2) hc

theorem behindFields_leads {α : Type} {φ : α → List Event → Scanner → Prop}
    {f : List Source → Option Expr → Production α} {T : ∀ sources condition, Trace (f sources condition)}
    (hc : Course c₀ h c 2) (hT : ∀ sources condition h' c', h <+: h' → Course c₀ h' c' 2 →
      (T sources condition).Leads c₀ φ h' c') : (behindFieldsTrace params n T).Leads c₀ φ h c := by
  refine .expectSignificant hc (by omega) rfl fun t h₁ c₁ hp₁ ht => ?_
  have hsources : (Trace.loop .source (furtherSourceTrace n) n []).Leads c₀
      (fun _ h c => Course c₀ h c 1) h₁ c₁ :=
    .loop (m := .source) (I := fun _ h c => Course c₀ h c 0) id (by decide)
      (fun sources _ _ _ _ hm => furtherSource_leads sources hm) ht.course
  refine hsources.bind fun sources h₂ c₂ hp₂ hc₂ => ?_
  refine (condition_leads hc₂).bind fun condition h₃ c₃ hp₃ hc₃ => ?_
  exact hT sources condition h₃ c₃ (hp₁.trans (hp₂.trans hp₃)) hc₃

theorem select_leads (hc : BeforeField c₀ h c) (hs : Saw first h) :
    (selectTrace params n first).Leads c₀ (fun _ h c => Course c₀ h c 2) h c :=
  (furtherFields_leads n [] hc).bind fun _ _ _ hp₁ hc₁ =>
    behindFields_leads hc₁ fun _ _ _ _ hp₂ hc₂ =>
      validated_leads _ hc₂ (hs.mono (hp₁.trans hp₂))

theorem statement_leads (hc : Course c₀ h c 4) :
    (statementTrace params n).Leads c₀ (fun _ h c => Course c₀ h c 2) h c := by
  refine .expectSignificant hc (Nat.le_refl 4) rfl fun t h' c' _ ht => ?_
  exact (select_leads ⟨ht.course, ht.afterOperand_eq⟩ ht.saw).bind fun _ _ _ _ hc' => .pure hc'

theorem furtherStatement_leads (s : Statements) (hc : Course c₀ h c 4) :
    (furtherStatementTrace params n s).Leads c₀
      (Sum.elim (fun _ h c => Course c₀ h c 3) fun _ h c => Course c₀ h c 4) h c := by
  refine .congr (.significant (.ite (fun _ => .take (.pure hc.blank.takenAny))
    fun hk => .ite (fun _ => .take (.pure ?_)) fun _ => .ite (fun _ => .putBack ?_)
    fun _ => .take (.fail ?_))) _
  · exact Course.mono (hc.blank.taken (Nat.le_refl 4) nofun hk) (by omega)
  · exact (statement_leads hc.blank.returned).bind fun _ _ _ _ hc' => .pure (hc'.mono (by omega))
  · exact failed_unexpected hc.blank.takenAny (Nat.le_refl 4)

theorem query_leads (hc : Course c₀ h c 3) :
    (queryTrace params n).Leads c₀ (fun _ h c => Course c₀ h c 4) h c :=
  .loop (m := .statement) (I := fun _ h c => Course c₀ h c 3) id (by decide)
    (fun s _ _ _ _ hm => furtherStatement_leads s hm) hc

end Statements

/-- How a run of a query ends, and what happens until then. -/
theorem query_ends (params : Params) (n : Nat) (source : List Char) :
    Ends (Scanner.start source) (fun _ h c => Course (Scanner.start source) h c 4)
      ((queryTrace params n).events (TokenStream.start source))
      (query params n (TokenStream.start source)) :=
  (query_leads ((Course.start _).mono (by omega))).run

end Grammar

end InfluxQL
