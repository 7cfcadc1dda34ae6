import InfluxQL.Proofs.Grammar.Trace
import Mathlib.Data.Sum.Basic

/-!
# Two texts that read alike

Two scanners, each of a text of its own, may read alike, and then whatever a production makes of the
one stream another production makes of the other. A `Likeness` says which scanners read alike, and
how the errors of the two sides then correspond. Its laws are about single tokens.

Not every likeness lasts. A run of the left production can go astray, and then nothing is said about
the two any more; a likeness says which events and which errors lead astray.

* `Likeness`, `Likeness.Lawful`: what reads alike, and the laws for single tokens;
* `Likeness.Meets`: the outcomes of two runs correspond;
* `Likeness.Alike`: before streams that read alike the outcomes of two productions correspond;
* `Likeness.AlikeFrom`: the same for streams that stand in a relation of their own, before and after;
* `Likeness.Stuck`, `Likeness.OrStuck`: behind a name that may be another one, as that of a call may.
-/

namespace InfluxQL

open Production Scanner TokenStream

/-- When two scanners read alike. -/
structure Likeness where
  /-- The scanners read alike. -/
  rel : Scanner → Scanner → Prop
  /-- The scanners read alike when blanks have been skipped. -/
  near : Scanner → Scanner → Prop
  /-- One of the scanners is before a blank that the other has skipped. -/
  apart : Scanner → Scanner → Prop := fun _ _ => False
  /-- The tokens stand at places that correspond. -/
  place : Token → Token → Prop
  /-- The errors correspond. -/
  errors : ParseError → ParseError → Prop
  /-- A run that fails so has gone astray. -/
  fails : ParseError → Prop
  /-- A run to which this happens at the scanner goes astray. -/
  misses : Scanner → Event → Prop
  /-- The values of the parameters are as they should be. -/
  params : Params → Prop

namespace Likeness

variable {L : Likeness}

/-- The tokens differ in their places at most, and these correspond. -/
structure Same (L : Likeness) (t t' : Token) : Prop where
  kind_eq : t'.kind = t.kind
  lit_eq : t'.lit = t.lit
  place : L.place t t'

/-- Every run that is given the next token goes astray. -/
def Lost (L : Likeness) (c : Scanner) : Prop :=
  ∀ u, L.misses c (.given u c.scan.1)

/-- Someone has skipped a blank to come here, or found none, and has not gone astray. -/
def Sought (L : Likeness) (c : Scanner) : Prop :=
  ∃ b : Scanner, b.pastBlank = c ∧ ¬L.misses b (.given b.blankUse b.scan.1)

/-- Before an opening parenthesis every run goes astray that puts it back. -/
def Stuck (L : Likeness) (c : Scanner) : Prop :=
  c.scan.1.kind = .leftParen ∧ L.misses c (.given .returned c.scan.1)

/-- The scanners read alike when blanks have been skipped, and before that neither a regular expression
nor a closing parenthesis is next. -/
structure Apart (L : Likeness) (c c' : Scanner) : Prop where
  near : L.near c c'
  noSlash : c.cursor.ahead.head? ≠ some '/' ∧ c'.cursor.ahead.head? ≠ some '/'
  noParen : c.scan.1.kind ≠ .rightParen ∧ c'.scan.1.kind ≠ .rightParen

/-- The scanners read alike, or one of them is before a blank that the other has skipped. -/
def Loose (L : Likeness) (c c' : Scanner) : Prop :=
  L.rel c c' ∨ L.apart c c'

/-- How the next tokens correspond. -/
inductive Heads (L : Likeness) (c c' : Scanner) : Prop
  /-- They are the same. -/
  | same (h : L.Same c.scan.1 c'.scan.1) (rel : L.rel c.scan.2 c'.scan.2)
  /-- Neither can be taken. -/
  | idle (left : c.scan.1.kind.isIdle) (right : c'.scan.1.kind.isIdle)
      (errors : ∀ cause cause', L.errors (.atToken c.scan.1 cause) (.atToken c'.scan.1 cause'))
  /-- A blank is on the left, and an operator on the right at once. -/
  | joined (left : c.scan.1.kind = .blank) (right : ∃ op, c'.scan.1.kind = .op op)
      (errors : ∀ cause cause', L.errors (.atToken c.scan.1 cause) (.atToken c'.scan.1 cause'))
      (fails : ∀ e, L.fails e)
  /-- A parameter is on the left, and on the right its value, or a blank before it. -/
  | exchanged (left : c.scan.1.kind = .param)
      (right : c'.scan.1.kind.isValue ∨ c'.scan.1.kind = .blank)
      (errors : ∀ cause cause', L.errors (.atToken c.scan.1 cause) (.atToken c'.scan.1 cause'))
      (near : c'.scan.1.kind ≠ .blank → L.near c.scan.2 c'.scan.2)
      (value : c'.scan.1.kind ≠ .blank → ∀ params, L.params params → ∃ e,
        Grammar.tokenOperand params c.scan.1 = pure e ∧
          Grammar.tokenOperand params c'.scan.1 = pure e)
  /-- They are names of the same type, and of the same call; only as such can they be taken. -/
  | renamed (left : c.scan.1.kind = .ident) (right : c'.scan.1.kind = .ident)
      (errors : ∀ cause cause', L.errors (.atToken c.scan.1 cause) (.atToken c'.scan.1 cause'))
      (rel : L.rel c.scan.2 c'.scan.2)
      (type : DataType.ofName? c'.scan.1.lit.toList = DataType.ofName? c.scan.1.lit.toList)
      (call : Unicode.lowercase c'.scan.1.lit.toList = Unicode.lowercase c.scan.1.lit.toList)
      (use : L.Sought c → L.Stuck c.scan.2)

/-- How two regular expressions correspond. -/
inductive RegexHeads (L : Likeness) (c c' : Scanner) (rest rest' : List Char) : Prop
  /-- They are the same. -/
  | same (h : L.Same (c.regex rest).1 (c'.regex rest').1)
      (rel : L.rel (c.regex rest).2 (c'.regex rest').2)
  /-- The left one is not well-formed. -/
  | failed (left : (c.regex rest).1.kind ≠ .regex) (fails : ∀ e, L.fails e)
  /-- The left one leads astray. -/
  | lost (misses : L.misses c (.given .regex (c.regex rest).1))

/-- The laws of a likeness. -/
structure Lawful (L : Likeness) : Prop where
  /-- Errors at corresponding places correspond. -/
  errors_of_place {t t' u u' : Token} (cause : Cause) : L.place t t' → L.place u u' →
    L.errors ⟨cause, t.pos, ⟨t.span.start, u.span.stop⟩⟩
      ⟨cause, t'.pos, ⟨t'.span.start, u'.span.stop⟩⟩
  /-- A run that was not allowed enough steps has gone astray. -/
  fails_outOfSteps {e : ParseError} : e.cause = .outOfSteps → L.fails e
  near_of_rel {c c' : Scanner} : L.rel c c' → L.near c c'
  apart {c c' : Scanner} : L.apart c c' → L.Apart c c'
  heads {c c' : Scanner} : L.rel c c' → L.Lost c ∨ L.Heads c c'
  regexHeads {c c' : Scanner} {rest rest' : List Char} : L.rel c c' →
    c.cursor.ahead = '/' :: rest → c'.cursor.ahead = '/' :: rest' → L.RegexHeads c c' rest rest'
  pastBlank {c c' : Scanner} : L.near c c' → L.Lost c ∨ L.rel c.pastBlank c'.pastBlank
  pastBlankCharacter {c c' : Scanner} : L.rel c c' →
    L.misses c .peeked ∨ (c.cursor.ahead.head?.any isBlank ∧ L.Lost c) ∨
      L.Loose c.pastBlankCharacter c'.pastBlankCharacter
  /-- The characters that decide on the next step are the same. -/
  nextCharacter {c c' : Scanner} : L.rel c c' → L.misses c .peeked ∨
    ∀ x ∈ ['/', ':', '.'], (c'.cursor.ahead.head? = some x ↔ c.cursor.ahead.head? = some x)

variable {α α' β β' : Type} {V : α → α' → Prop} {W : β → β' → Prop}
  {R : Scanner → Scanner → Prop} {Q : α → α' → Scanner → Scanner → Prop}

/-- The run from the scanner to which this happened, and which ended so, has gone astray. -/
def Astray (L : Likeness) (c : Scanner) (evs : List Event)
    (o : Except ParseError (α × TokenStream)) : Prop :=
  (∃ e, o = .error e ∧ L.fails e) ∨
    ∃ before d ev behind, evs = before ++ ev :: behind ∧ c.Passes before d ∧ L.misses d ev

/-- The outcomes of two runs correspond; the left one began at `c`, and `evs` happened to it. -/
inductive Meets (L : Likeness) (Q : α → α' → Scanner → Scanner → Prop) (c : Scanner)
    (evs : List Event) :
    Except ParseError (α × TokenStream) → Except ParseError (α' × TokenStream) → Prop
  | ok {a : α} {a' : α'} {s s' : TokenStream} {c₁ c₁' : Scanner} : Q a a' c₁ c₁' →
      c.Passes evs c₁ → GoesOn c₁ s → GoesOn c₁' s' → Meets L Q c evs (.ok (a, s)) (.ok (a', s'))
  | error {e e' : ParseError} : L.errors e e' → Meets L Q c evs (.error e) (.error e')
  | astray {o : Except ParseError (α × TokenStream)} {o' : Except ParseError (α' × TokenStream)} :
      L.Astray c evs o → Meets L Q c evs o o'

/-- Before streams that stand in the relation the outcomes of the two productions correspond. -/
def AlikeFrom (L : Likeness) (R : Scanner → Scanner → Prop)
    (Q : α → α' → Scanner → Scanner → Prop) {p : Production α} (T : Trace p)
    (p' : Production α') : Prop :=
  ∀ c c' s s', R c c' → GoesOn c s → GoesOn c' s' → L.Meets Q c (T.events s) (p s) (p' s')

/-- The values correspond, and the scanners stand in the relation. -/
def Joint (V : α → α' → Prop) (R : Scanner → Scanner → Prop) (a : α) (a' : α')
    (c c' : Scanner) : Prop :=
  V a a' ∧ R c c'

/-- Before streams that read alike the outcomes of the two productions correspond, and behind them
the streams read alike. -/
def Alike (L : Likeness) (V : α → α' → Prop) {p : Production α} (T : Trace p)
    (p' : Production α') : Prop :=
  L.AlikeFrom L.rel (Joint V L.rel) T p'

/-- The outcomes correspond when the next tokens have just been read. -/
def Follows (L : Likeness) (Q : α → α' → Scanner → Scanner → Prop) {p : Production α} (H : Held p)
    (p' : Production α') (c c' : Scanner) : Prop :=
  L.Meets Q c (.given H.use c.scan.1 :: H.events (justRead c)) (p (justRead c)) (p' (justRead c'))

/-! ### Going astray -/

theorem Astray.ofMisses {c : Scanner} {ev : Event} (h : L.misses c ev) (evs : List Event)
    (o : Except ParseError (α × TokenStream)) : L.Astray c (ev :: evs) o :=
  .inr ⟨[], c, ev, evs, rfl, .done c, h⟩

/-- Who goes astray later has gone astray. -/
theorem Astray.behind {c c₁ : Scanner} {evs evs' : List Event}
    {o : Except ParseError (α × TokenStream)} (hp : c.Passes evs c₁) (h : L.Astray c₁ evs' o) :
    L.Astray c (evs ++ evs') o := by
  rcases h with h | ⟨before, d, ev, behind, rfl, hd, hm⟩
  · exact .inl h
  · exact .inr ⟨evs ++ before, d, ev, behind, by simp, hp.append hd, hm⟩

/-- Who has gone astray does not come back. -/
theorem Astray.before {c : Scanner} {evs evs' : List Event} {r : β × TokenStream}
    {o : Except ParseError (α × TokenStream)} (h : L.Astray c evs (.ok r)) :
    L.Astray c (evs ++ evs') o := by
  rcases h with ⟨e, he, -⟩ | ⟨before, d, ev, behind, rfl, hd, hm⟩
  · cases he
  · exact .inr ⟨before, d, ev, behind ++ evs', by simp, hd, hm⟩

theorem Meets.mono {Q' : α → α' → Scanner → Scanner → Prop}
    (hQ : ∀ a a' c c', Q a a' c c' → Q' a a' c c') {c : Scanner} {evs : List Event}
    {o : Except ParseError (α × TokenStream)} {o' : Except ParseError (α' × TokenStream)}
    (h : L.Meets Q c evs o o') : L.Meets Q' c evs o o' := by
  cases h with
  | ok h hp hs hs' => exact .ok (hQ _ _ _ _ h) hp hs hs'
  | error h => exact .error h
  | astray h => exact .astray h

/-- What two runs do when the way to them is longer on the left. -/
theorem Meets.behind {c c₁ : Scanner} {evs evs' : List Event}
    {o : Except ParseError (α × TokenStream)} {o' : Except ParseError (α' × TokenStream)}
    (hp : c.Passes evs c₁) (h : L.Meets Q c₁ evs' o o') : L.Meets Q c (evs ++ evs') o o' := by
  cases h with
  | ok h hp' hs hs' => exact .ok h (hp.append hp') hs hs'
  | error h => exact .error h
  | astray h => exact .astray (h.behind hp)

theorem Meets.step {c d : Scanner} {ev : Event} {evs : List Event}
    {o : Except ParseError (α × TokenStream)} {o' : Except ParseError (α' × TokenStream)}
    (hm : c.Moves ev d) (h : L.Meets Q d evs o o') : L.Meets Q c (ev :: evs) o o' :=
  h.behind hm.passes

section Combinators

variable {p : Production α} {p' : Production α'} {T : Trace p}

theorem AlikeFrom.mono {R' : Scanner → Scanner → Prop} {Q' : α → α' → Scanner → Scanner → Prop}
    (h : L.AlikeFrom R Q T p') (hR : ∀ c c', R' c c' → R c c')
    (hQ : ∀ a a' c c', Q a a' c c' → Q' a a' c c') : L.AlikeFrom R' Q' T p' :=
  fun c c' s s' hr hs hs' => (h c c' s s' (hR _ _ hr) hs hs').mono hQ

theorem AlikeFrom.congr {q : Production α} {q' : Production α'} (h : L.AlikeFrom R Q T p')
    (hq : p = q) (hq' : p' = q') : L.AlikeFrom R Q (T.congr hq) q' := by
  subst hq hq'
  exact h

theorem AlikeFrom.still {h : ∀ s a s', p s = .ok (a, s') → s' = s}
    (hp : ∀ c c', R c c' → ∀ s s', (∃ a a', Q a a' c c' ∧ p s = .ok (a, s) ∧ p' s' = .ok (a', s')) ∨
      ∃ e e', L.errors e e' ∧ p s = .error e ∧ p' s' = .error e') :
    L.AlikeFrom R Q (.still h) p' := by
  intro c c' s s' hr hs hs'
  rcases hp c c' hr s s' with ⟨a, a', ha, hps, hps'⟩ | ⟨e, e', he, hps, hps'⟩
  · rw [hps, hps']
    exact .ok ha (.done c) hs hs'
  · rw [hps, hps']
    exact .error he

theorem AlikeFrom.pure {a : α} {a' : α'} (h : ∀ c c', R c c' → Q a a' c c') :
    L.AlikeFrom R Q (Trace.pure a) (Pure.pure a') :=
  .still fun c c' hr _ _ => .inl ⟨a, a', h c c' hr, rfl, rfl⟩

theorem AlikeFrom.ite {c c' : Prop} [Decidable c] [Decidable c'] {q : Production α} {U : Trace q}
    {q' : Production α'} (hc : c ↔ c') (hT : c → L.AlikeFrom R Q T p') (hU : ¬c → L.AlikeFrom R Q U q') :
    L.AlikeFrom R Q (Trace.ite T U : Trace (if c then p else q)) (if c' then p' else q') := by
  unfold Trace.ite
  by_cases h : c
  · rw [dif_pos h]
    exact (hT h).congr _ (if_pos (hc.1 h)).symm
  · rw [dif_neg h]
    exact (hU h).congr _ (if_neg (mt hc.2 h)).symm

theorem AlikeFrom.mark (h : L.AlikeFrom R Q T p') (m : Mark) : L.AlikeFrom R Q (T.mark m) p' := by
  intro c c' s s' hr hs hs'
  show L.Meets Q c (.starts m s.offset :: T.events s) (p s) (p' s')
  rw [hs.offset_eq]
  exact .step (.starts c m) (h c c' s s' hr hs hs')

theorem AlikeFrom.bind {Q₁ : β → β' → Scanner → Scanner → Prop} {p : Production β}
    {p' : Production β'} {T : Trace p} {f : β → Production α} {f' : β' → Production α'}
    {U : ∀ x, Trace (f x)} (hT : L.AlikeFrom R Q₁ T p')
    (hU : ∀ x x', L.AlikeFrom (Q₁ x x') Q (U x) (f' x')) :
    L.AlikeFrom R Q (T.bind U) (p' >>= f') := by
  intro c c' s s' hr hs hs'
  have h := hT c c' s s' hr hs hs'
  -- Where the first parts have different outcomes the left run has gone astray in its first part.
  simp only [Trace.bind, Bind.bind, StateT.bind]
  cases hp : p s with
  | error e =>
    rw [hp] at h
    simp only [List.append_nil, Except.bind]
    cases hp' : p' s' with
    | error e' =>
      rw [hp'] at h
      cases h with
      | error h => exact .error h
      | astray h =>
        obtain ⟨e₁, he, hfails⟩ | h := h
        · cases he
          exact .astray (.inl ⟨e, rfl, hfails⟩)
        · exact .astray (.inr h)
    | ok r' =>
      rw [hp'] at h
      cases h with
      | astray h =>
        obtain ⟨e₁, he, hfails⟩ | h := h
        · cases he
          exact .astray (.inl ⟨e, rfl, hfails⟩)
        · exact .astray (.inr h)
  | ok r =>
    obtain ⟨x, s₁⟩ := r
    rw [hp] at h
    simp only [Except.bind]
    cases hp' : p' s' with
    | error e' =>
      rw [hp'] at h
      cases h with
      | astray h => exact .astray h.before
    | ok r' =>
      obtain ⟨x', s₁'⟩ := r'
      rw [hp'] at h
      cases h with
      | ok hx hpath hg hg' => exact (hU x x' _ _ _ _ hx hg hg').behind hpath
      | astray h => exact .astray h.before

/-- What the values that have been read have to do with each other does not change. -/
theorem AlikeFrom.joint {x : β} {x' : β'} (h : W x x' → L.AlikeFrom R Q T p') :
    L.AlikeFrom (Joint W R x x') Q T p' :=
  fun c c' s s' hr => h hr.1 c c' s s' hr.2

theorem AlikeFrom.outOfSteps (hL : L.Lawful) :
    L.AlikeFrom R Q (Trace.fail _ : Trace (Production.outOfSteps : Production α)) p' :=
  fun _ _ _ _ _ _ _ => .astray (.inl ⟨_, rfl, hL.fails_outOfSteps rfl⟩)

theorem AlikeFrom.loop (hL : L.Lawful) {I : β → β' → Scanner → Scanner → Prop}
    {body : β → Production (β ⊕ α)} {body' : β' → Production (β' ⊕ α')} {m : Mark}
    {U : ∀ b, Trace (body b)}
    (h : ∀ b b', L.AlikeFrom (I b b')
      (fun r r' c c' => Sum.LiftRel (fun b b' => I b b' c c') (fun a a' => Q a a' c c') r r')
      (U b) (body' b'))
    {n n' : Nat} (hn : n ≤ n') (b : β) (b' : β') :
    L.AlikeFrom (I b b') Q (Trace.loop m U n b) (Production.loop body' n' b') := by
  -- By induction on the rounds of the left run; the right one is allowed at least as many.
  induction n generalizing n' b b' with
  | zero => exact .outOfSteps hL
  | succ n ih =>
    obtain ⟨n', rfl⟩ : ∃ k, n' = k + 1 := ⟨n' - 1, by omega⟩
    refine ((h b b').mark m).bind fun r r' => ?_
    intro c c' s s' hr
    cases hr with
    | inl hb => exact ih (by omega) _ _ c c' s s' hb
    | inr ha => exact fun hs hs' => .ok ha (.done c) hs hs'

theorem Lawful.near_of_loose (hL : L.Lawful) {c c' : Scanner} (h : L.Loose c c') : L.near c c' :=
  h.elim hL.near_of_rel fun h => (hL.apart h).near

/-- A production that may begin before blanks may begin where one side has skipped them. -/
theorem AlikeFrom.ofNearLoose (hL : L.Lawful) (h : L.AlikeFrom L.near Q T p') :
    L.AlikeFrom L.Loose Q T p' :=
  h.mono (fun _ _ hr => hL.near_of_loose hr) fun _ _ _ _ h => h

/-- A production that may begin before blanks may begin behind them. -/
theorem AlikeFrom.ofNear (hL : L.Lawful) (h : L.AlikeFrom L.near Q T p') :
    L.AlikeFrom L.rel Q T p' :=
  h.mono (fun _ _ hr => hL.near_of_rel hr) fun _ _ _ _ h => h

/-! ### The same relation throughout -/

theorem Alike.toNear (hL : L.Lawful) (h : L.Alike V T p') :
    L.AlikeFrom L.rel (Joint V L.near) T p' :=
  AlikeFrom.mono h (fun _ _ hr => hr) fun _ _ _ _ h => ⟨h.1, hL.near_of_rel h.2⟩

theorem Alike.mono {V' : α → α' → Prop} (h : L.Alike V T p') (hV : ∀ a a', V a a' → V' a a') :
    L.Alike V' T p' :=
  AlikeFrom.mono h (fun _ _ h => h) fun a a' _ _ h => ⟨hV a a' h.1, h.2⟩

theorem Alike.congr {q : Production α} {q' : Production α'} (h : L.Alike V T p') (hq : p = q)
    (hq' : p' = q') : L.Alike V (T.congr hq) q' :=
  AlikeFrom.congr h hq hq'

theorem Alike.still {h : ∀ s a s', p s = .ok (a, s') → s' = s}
    (hp : ∀ s s', (∃ a a', V a a' ∧ p s = .ok (a, s) ∧ p' s' = .ok (a', s')) ∨
      ∃ e e', L.errors e e' ∧ p s = .error e ∧ p' s' = .error e') :
    L.Alike V (.still h) p' := by
  refine AlikeFrom.still fun c c' hr s s' => ?_
  rcases hp s s' with ⟨a, a', ha, h⟩ | h
  · exact .inl ⟨a, a', ⟨ha, hr⟩, h⟩
  · exact .inr h

theorem Alike.pure {a : α} {a' : α'} (h : V a a') : L.Alike V (Trace.pure a) (Pure.pure a') :=
  AlikeFrom.pure fun _ _ hr => ⟨h, hr⟩

theorem Alike.fail {e e' : ParseError} (h : L.errors e e') :
    L.Alike V (Trace.fail e : Trace (fail e : Production α)) (fail e' : Production α') :=
  .still fun _ _ => .inr ⟨e, e', h, rfl, rfl⟩

theorem Alike.mark (h : L.Alike V T p') (m : Mark) : L.Alike V (T.mark m) p' :=
  AlikeFrom.mark h m

theorem Alike.ite {c c' : Prop} [Decidable c] [Decidable c'] {q : Production α} {U : Trace q}
    {q' : Production α'} (hc : c ↔ c') (hT : c → L.Alike V T p') (hU : ¬c → L.Alike V U q') :
    L.Alike V (Trace.ite T U : Trace (if c then p else q)) (if c' then p' else q') :=
  AlikeFrom.ite hc hT hU

theorem Alike.bind {p : Production β} {p' : Production β'} {T : Trace p}
    {f : β → Production α} {f' : β' → Production α'} {U : ∀ x, Trace (f x)}
    (hT : L.Alike W T p') (hU : ∀ x x', W x x' → L.Alike V (U x) (f' x')) :
    L.Alike V (T.bind U) (p' >>= f') :=
  AlikeFrom.bind hT fun x x' => .joint (hU x x')

theorem Alike.loop (hL : L.Lawful) {body : β → Production (β ⊕ α)}
    {body' : β' → Production (β' ⊕ α')} {m : Mark} {U : ∀ b, Trace (body b)}
    (h : ∀ b b', W b b' → L.Alike (Sum.LiftRel W V) (U b) (body' b')) {n n' : Nat} (hn : n ≤ n')
    {b : β} {b' : β'} (hb : W b b') :
    L.Alike V (Trace.loop m U n b) (Production.loop body' n' b') := by
  have hround : ∀ b b', L.AlikeFrom (Joint W L.rel b b') (fun r r' c c' =>
      Sum.LiftRel (fun b b' => Joint W L.rel b b' c c') (fun a a' => Joint V L.rel a a' c c') r r')
      (U b) (body' b') := by
    intro b b' c c' s s' hr hs hs'
    refine (h b b' hr.1 c c' s s' hr.2 hs hs').mono fun r r' c c' h => ?_
    exact h.1.mono (fun _ _ hb => ⟨hb, h.2⟩) fun _ _ ha => ⟨ha, h.2⟩
  exact (AlikeFrom.loop hL hround hn b b').mono (fun _ _ hr => ⟨hb, hr⟩) fun _ _ _ _ h => h

/-- The first of two productions reads the same values. -/
theorem Alike.bindSame {p p' : Production β} {T : Trace p} {f : β → Production α}
    {f' : β → Production α'} {U : ∀ x, Trace (f x)} (hT : L.Alike Eq T p')
    (hU : ∀ x, L.Alike V (U x) (f' x)) : L.Alike V (T.bind U) (p' >>= f') :=
  hT.bind fun x _ h => h ▸ hU x

/-- A repetition whose rounds read the same values. -/
theorem Alike.loopSame (hL : L.Lawful) {body body' : β → Production (β ⊕ α)} {m : Mark}
    {U : ∀ b, Trace (body b)} (h : ∀ b, L.Alike (Sum.LiftRel Eq Eq) (U b) (body' b)) {n n' : Nat}
    (hn : n ≤ n') (b : β) : L.Alike Eq (Trace.loop m U n b) (Production.loop body' n' b) :=
  .loop hL (fun b _ hb => hb ▸ h b) hn rfl

end Combinators

/-! ### Steps of the stream -/

section Steps

variable {p : Production α} {p' : Production α'} {T : Trace p} {c c' : Scanner}

theorem Lawful.errors_at (hL : L.Lawful) {t t' : Token} (h : L.Same t t') (cause : Cause) :
    L.errors (.atToken t cause) (.atToken t' cause) :=
  hL.errors_of_place cause h.place h.place

theorem Lawful.errors_unexpected (hL : L.Lawful) {t t' : Token} (h : L.Same t t')
    (expected : List String) : L.errors (.unexpected t expected) (.unexpected t' expected) := by
  have ht : t'.text = t.text := by rw [Token.text, h.kind_eq, h.lit_eq, Token.text]
  rw [ParseError.unexpected, ParseError.unexpected, ht]
  exact hL.errors_at h _

/-- The errors at two tokens that come next correspond. -/
theorem Heads.errors_at (hL : L.Lawful) (h : L.Heads c c') (cause : Cause) :
    L.errors (.atToken c.scan.1 cause) (.atToken c'.scan.1 cause) := by
  cases h with
  | same h _ => exact hL.errors_at h cause
  | idle _ _ h => exact h _ _
  | joined _ _ h _ => exact h _ _
  | exchanged _ _ h => exact h _ _
  | renamed _ _ h => exact h _ _

theorem Heads.errors_unexpected (hL : L.Lawful) (h : L.Heads c c') (expected : List String) :
    L.errors (.unexpected c.scan.1 expected) (.unexpected c'.scan.1 expected) := by
  cases h with
  | same h _ => exact hL.errors_unexpected h expected
  | idle _ _ h => exact h _ _
  | joined _ _ h _ => exact h _ _
  | exchanged _ _ h => exact h _ _
  | renamed _ _ h => exact h _ _

theorem Follows.takeAs {bound : Bool} (hr : R c.scan.2 c'.scan.2) (h : L.AlikeFrom R Q T p') :
    L.Follows Q (.takeAs bound T) p' c c' :=
  .step (.taken c bound) (h _ _ _ _ hr (goesOn_justRead c) (goesOn_justRead c'))

theorem Follows.take (hr : R c.scan.2 c'.scan.2) (h : L.AlikeFrom R Q T p') :
    L.Follows Q (.take T) p' c c' :=
  .takeAs hr h

theorem Follows.putBack (hr : R c c') (h : L.AlikeFrom R Q T p') :
    L.Follows Q (.putBack T) (unscan >>= fun _ => p') c c' :=
  .step (.returned c) (h _ _ _ _ hr (goesOn_unscan_justRead c) (goesOn_unscan_justRead c'))

theorem Follows.congr {H : Held p} {q : Production α} {q' : Production α'}
    (h : L.Follows Q H p' c c') (hq : p = q) (hq' : p' = q') :
    L.Follows Q (H.congr hq) q' c c' := by
  subst hq hq'
  exact h

theorem Follows.ite {d d' : Prop} [Decidable d] [Decidable d'] {H : Held p} {q : Production α}
    {K : Held q} {q' : Production α'} (hd : d ↔ d') (hH : d → L.Follows Q H p' c c')
    (hK : ¬d → L.Follows Q K q' c c') :
    L.Follows Q (Held.ite H K : Held (if d then p else q)) (if d' then p' else q') c c' := by
  unfold Held.ite
  by_cases h : d
  · rw [dif_pos h]
    exact (hH h).congr _ (if_pos (hd.1 h)).symm
  · rw [dif_neg h]
    exact (hK h).congr _ (if_neg (mt hd.2 h)).symm

/-- A choice that only the left production has, and that is not taken. -/
theorem Follows.iteNeg {d : Prop} [Decidable d] {H : Held p} {q : Production α} {K : Held q}
    (hd : ¬d) (hK : L.Follows Q K p' c c') :
    L.Follows Q (Held.ite H K : Held (if d then p else q)) p' c c' := by
  unfold Held.ite
  rw [dif_neg hd]
  exact hK.congr _ rfl

/-- Reading the next token, whatever it is. -/
theorem AlikeFrom.ofFollows {f : Token → Production α} {f' : Token → Production α'}
    {H : ∀ t, Held (f t)} (h : ∀ c c', R c c' → L.Follows Q (H c.scan.1) (f' c'.scan.1) c c') :
    L.AlikeFrom R Q (Trace.next H) (Production.scan >>= f') := by
  intro c c' s s' hr hs hs'
  show L.Meets Q c (.given (H s.scan.1).use s.scan.1 :: (H s.scan.1).events s.scan.2)
    (f s.scan.1 s.scan.2) (f' s'.scan.1 s'.scan.2)
  rw [hs.scan_eq, hs'.scan_eq]
  exact h c c' hr

/-- Reading the next token. -/
theorem AlikeFrom.next (hL : L.Lawful) (hR : ∀ c c', R c c' → L.rel c c')
    {f : Token → Production α} {f' : Token → Production α'} {H : ∀ t, Held (f t)}
    (h : ∀ c c', R c c' → L.Heads c c' → L.Follows Q (H c.scan.1) (f' c'.scan.1) c c') :
    L.AlikeFrom R Q (Trace.next H) (Production.scan >>= f') := by
  refine .ofFollows fun c c' hr => ?_
  rcases hL.heads (hR _ _ hr) with hlost | hheads
  · exact .astray (.ofMisses (hlost _) _ _)
  · exact h c c' hr hheads

theorem Alike.next (hL : L.Lawful) {f : Token → Production α} {f' : Token → Production α'}
    {H : ∀ t, Held (f t)}
    (h : ∀ c c', L.rel c c' → L.Heads c c' → L.Follows (Joint V L.rel) (H c.scan.1) (f' c'.scan.1) c c') :
    L.Alike V (Trace.next H) (Production.scan >>= f') :=
  AlikeFrom.next hL (fun _ _ hr => hr) h

/-- The scanners read alike, and neither is before a blank, where someone looked for one. -/
def Significant (L : Likeness) (c c' : Scanner) : Prop :=
  L.rel c c' ∧ c.scan.1.kind ≠ .blank ∧ c'.scan.1.kind ≠ .blank ∧ L.Sought c

theorem AlikeFrom.skipBlank (hL : L.Lawful) :
    L.AlikeFrom L.near (fun _ _ => L.Significant) Trace.skipBlank Production.skipBlank := by
  intro c c' s s' hr hs hs'
  show L.Meets _ c [.given (if s.scan.1.kind = .blank then _ else _) s.scan.1]
    (.ok ((), s.skipBlank)) (.ok ((), s'.skipBlank))
  rw [hs.scan_eq]
  by_cases hmisses : L.misses c (.given c.blankUse c.scan.1)
  · exact .astray (.ofMisses hmisses _ _)
  rcases hL.pastBlank hr with hlost | hr
  · exact .astray (.ofMisses (hlost _) _ _)
  · exact .ok ⟨hr, kind_scan_pastBlank, kind_scan_pastBlank, c, rfl, hmisses⟩
      moves_pastBlank.passes hs.skipBlank hs'.skipBlank

theorem Alike.skipBlank (hL : L.Lawful) :
    L.Alike (fun _ _ => True) Trace.skipBlank Production.skipBlank :=
  (AlikeFrom.ofNear hL (.skipBlank hL)).mono (fun _ _ hr => hr) fun _ _ _ _ h => ⟨trivial, h.1⟩

/-- Reading the next significant token. -/
theorem AlikeFrom.significant (hL : L.Lawful) {f : Token → Production α}
    {f' : Token → Production α'} {H : ∀ t, Held (f t)}
    (h : ∀ c c', L.Significant c c' → L.Heads c c' →
      L.Follows Q (H c.scan.1) (f' c'.scan.1) c c') :
    L.AlikeFrom L.near Q (Trace.significant H) (scanSignificant >>= f') :=
  ((AlikeFrom.skipBlank hL).bind fun _ _ => .next hL (fun _ _ hr => hr.1) h).congr _
    (Trace.scanSignificant_bind f').symm

theorem Alike.significant (hL : L.Lawful) {f : Token → Production α} {f' : Token → Production α'}
    {H : ∀ t, Held (f t)}
    (h : ∀ c c', L.rel c c' → L.Heads c c' → L.Follows (Joint V L.rel) (H c.scan.1) (f' c'.scan.1) c c') :
    L.Alike V (Trace.significant H) (scanSignificant >>= f') :=
  .ofNear hL (.significant hL fun c c' hr => h c c' hr.1)

/-- Only a comment may be left on one side, and skipped with other blanks on the other. -/
theorem AlikeFrom.skipBlankCharacter (hL : L.Lawful) :
    L.AlikeFrom L.rel (fun _ _ => L.Loose) Grammar.skipBlankCharacterTrace
      Grammar.skipBlankCharacter := by
  -- What the production does before a scanner, on either side.
  have hrun : ∀ {c s}, GoesOn c s → ∃ s₁ evs, Grammar.skipBlankCharacter s = .ok ((), s₁) ∧
      Grammar.skipBlankCharacterTrace.events s = .peeked :: evs ∧
      c.Passes evs c.pastBlankCharacter ∧ GoesOn c.pastBlankCharacter s₁ ∧
      (c.cursor.ahead.head?.any isBlank → evs = [.given c.blankUse c.scan.1]) := by
    intro c s hs
    have hevents : Grammar.skipBlankCharacterTrace.events s =
        .peeked :: (Trace.ite .skipBlank (.pure ()) : Trace (if s.peek?.any isBlank then
          Production.skipBlank else Pure.pure ())).events s := rfl
    have hvalue : Grammar.skipBlankCharacter s =
        (if s.peek?.any isBlank then Production.skipBlank else Pure.pure ()) s := by
      rw [Grammar.skipBlankCharacter_eq]
      rfl
    rw [hevents, hvalue]
    unfold Trace.ite pastBlankCharacter
    rw [hs.peek?_eq]
    by_cases hb : c.cursor.ahead.head?.any isBlank
    · simp only [if_pos hb, dif_pos hb]
      refine ⟨s.skipBlank, [.given c.blankUse c.scan.1], rfl, ?_, moves_pastBlank.passes, hs.skipBlank,
        fun _ => rfl⟩
      show Event.peeked :: [.given (if s.scan.1.kind = .blank then _ else _) s.scan.1] = _
      rw [hs.scan_eq]
      rfl
    · simp only [if_neg hb, dif_neg hb]
      exact ⟨s, [], rfl, rfl, .done c, hs, fun h => absurd h hb⟩
  intro c c' s s' hr hs hs'
  obtain ⟨s₁, evs, hrun₁, hevents, hp, hs₁, hevs⟩ := hrun hs
  obtain ⟨s₁', _, hrun₁', -, -, hs₁', -⟩ := hrun hs'
  rw [hrun₁, hrun₁', hevents]
  rcases hL.pastBlankCharacter hr with hmisses | ⟨hb, hlost⟩ | hr
  · exact .astray (.ofMisses hmisses _ _)
  · rw [hevs hb]
    exact .astray (.behind (Moves.peeked c).passes (.ofMisses (hlost _) _ _))
  · exact .ok hr (.step (.peeked c) hp) hs₁ hs₁'

/-- Looking at the next character, as far as it matters. -/
theorem Alike.peek? (hL : L.Lawful) :
    L.Alike (fun x? x?' => ∀ x ∈ ['/', ':', '.'], (x?' = some x ↔ x? = some x)) Trace.peek?
      Production.peek? := by
  intro c c' s s' hr hs hs'
  show L.Meets _ c [.peeked] (.ok (s.peek?, s)) (.ok (s'.peek?, s'))
  rw [hs.peek?_eq, hs'.peek?_eq]
  rcases hL.nextCharacter hr with hmisses | hx
  · exact .astray (.ofMisses hmisses _ _)
  · exact .ok ⟨hx, hr⟩ (Moves.peeked c).passes hs hs'

/-- Reading a regular expression. -/
theorem AlikeFrom.atSlash (hL : L.Lawful) {f : Token → Production α} {f' : Token → Production α'}
    {U : ∀ t, Trace (f t)} (hU : ∀ t t', L.Same t t' → L.AlikeFrom L.rel Q (U t) (f' t'))
    (hfail : ∀ t s, t.kind ≠ .regex → ∃ e, f t s = .error e)
    (hT : L.AlikeFrom L.Loose Q T p') :
    L.AlikeFrom L.Loose Q (Trace.atSlash U T) (atSlash f' p') := by
  intro c c' s s' hloose hs hs'
  simp only [Trace.atSlash, Production.atSlash]
  rw [hs.peek?_eq, hs'.peek?_eq]
  rcases hloose with hr | hapart
  case inr =>
    obtain ⟨hslash, hslash'⟩ := (hL.apart hapart).noSlash
    rw [if_neg hslash, if_neg hslash, if_neg hslash']
    exact .step (.peeked c) (hT c c' s s' (.inr hapart) hs hs')
  rcases hL.nextCharacter hr with hmisses | hx
  · exact .astray (.ofMisses hmisses _ _)
  refine .step (.peeked c) ?_
  have hx := hx '/' (by simp)
  by_cases hslash : c.cursor.ahead.head? = some '/'
  · have hslash' := hx.2 hslash
    rw [if_pos hslash, if_pos hslash, if_pos hslash']
    obtain ⟨rest, ha⟩ := List.head?_eq_some_iff.1 hslash
    obtain ⟨rest', ha'⟩ := List.head?_eq_some_iff.1 hslash'
    have hgoes := goesOn_justReadRegex c rest
    show L.Meets _ c (.given .regex s.scanRegex.1 :: (U s.scanRegex.1).events s.scanRegex.2)
      (f s.scanRegex.1 s.scanRegex.2) (f' s'.scanRegex.1 s'.scanRegex.2)
    rw [hs.scanRegex_eq_regex ha, hs'.scanRegex_eq_regex ha']
    dsimp only
    cases hL.regexHeads hr ha ha' with
    | same h hrel =>
      exact .step (.regex ha) (hU _ _ h _ _ _ _ hrel hgoes (goesOn_justReadRegex c' rest'))
    | failed hk hfails =>
      obtain ⟨e, he⟩ := hfail _ (justReadRegex c rest) hk
      rw [he]
      exact .astray (.inl ⟨e, rfl, hfails e⟩)
    | lost hmisses => exact .astray (.ofMisses hmisses _ _)
  · rw [if_neg hslash, if_neg hslash, if_neg (mt hx.1 hslash)]
    exact hT c c' s s' (.inl hr) hs hs'

/-- A plain token, or a name, is next on both sides or on neither. A name may be another one. -/
theorem Heads.kind_iff_of (h : L.Heads c c') {k : TokenKind} (hk : k.isPlain ∨ k = .ident) :
    (c.scan.1.kind = k ↔ c'.scan.1.kind = k) ∧ (c.scan.1.kind = k → L.rel c.scan.2 c'.scan.2 ∧
      (L.Same c.scan.1 c'.scan.1 ∨ k = .ident ∧ (L.Sought c → L.Stuck c.scan.2))) := by
  have hidle : k.isIdle = false := by
    rcases hk with hk | rfl
    · cases k <;> first | rfl | cases hk
    · rfl
  have hvalue : k.isValue = false := by
    rcases hk with hk | rfl
    · cases k <;> first | rfl | cases hk
    · rfl
  have hneither : c.scan.1.kind ≠ k → c'.scan.1.kind ≠ k → _ := fun hne hne' =>
    (⟨iff_of_false hne hne', fun hc => absurd hc hne⟩ :
      (c.scan.1.kind = k ↔ c'.scan.1.kind = k) ∧ (c.scan.1.kind = k → L.rel c.scan.2 c'.scan.2 ∧
        (L.Same c.scan.1 c'.scan.1 ∨ k = .ident ∧ (L.Sought c → L.Stuck c.scan.2))))
  cases h with
  | same h hr => exact ⟨by rw [h.kind_eq], fun _ => ⟨hr, .inl h⟩⟩
  | idle hl hr _ =>
    exact hneither (TokenKind.ne_of_isIdle hl hidle) (TokenKind.ne_of_isIdle hr hidle)
  | joined hl hr _ _ =>
    obtain ⟨op, hr⟩ := hr
    refine hneither (TokenKind.ne_of_isIdle (by rw [hl]; rfl) hidle) ?_
    rw [hr]
    rintro rfl
    rcases hk with hk | hk <;> cases hk
  | exchanged hl hr _ _ _ =>
    refine hneither (TokenKind.ne_of_isValue (by rw [hl]; rfl) hvalue) ?_
    rcases hr with hr | hr
    · exact TokenKind.ne_of_isValue hr hvalue
    · exact TokenKind.ne_of_isIdle (by rw [hr]; rfl) hidle
  | renamed hl hr _ hrel _ _ huse =>
    rw [hl, hr]
    exact ⟨Iff.rfl, fun hc => ⟨hrel, .inr ⟨hc.symm, huse⟩⟩⟩

/-- A plain token is next on both sides or on neither. -/
theorem Heads.kind_iff (h : L.Heads c c') {k : TokenKind} (hk : k.isPlain) :
    (c.scan.1.kind = k ↔ c'.scan.1.kind = k) ∧ (c.scan.1.kind = k →
      L.Same c.scan.1 c'.scan.1 ∧ L.rel c.scan.2 c'.scan.2) := by
  obtain ⟨hiff, hnext⟩ := h.kind_iff_of (.inl hk)
  refine ⟨hiff, fun hc => ?_⟩
  obtain ⟨hrel, hsame | ⟨rfl, -⟩⟩ := hnext hc
  · exact ⟨hsame, hrel⟩
  · cases hk

variable {k : TokenKind} {y : Token → Production α} {y' : Token → Production α'}
  {U : ∀ t, Trace (y t)} {expected : List String}

theorem Follows.lookFor (hk : k.isPlain)
    (hU : ∀ t t', L.Same t t' → L.AlikeFrom L.rel Q (U t) (y' t')) (hT : L.AlikeFrom L.rel Q T p')
    (hr : L.rel c c') (h : L.Heads c c') :
    L.Follows Q (.ite (.take (U c.scan.1)) (.putBack T) :
        Held (if c.scan.1.kind = k then y c.scan.1 else unscan >>= fun _ => p))
      (if c'.scan.1.kind = k then y' c'.scan.1 else unscan >>= fun _ => p') c c' := by
  obtain ⟨hiff, hsame⟩ := h.kind_iff hk
  refine .ite hiff (fun hc => ?_) fun _ => .putBack hr hT
  exact .take (hsame hc).2 (hU _ _ (hsame hc).1)

/-- Looking for a token of a kind. -/
theorem AlikeFrom.lookFor (hL : L.Lawful) (hk : k.isPlain)
    (hU : ∀ t t', L.Same t t' → L.AlikeFrom L.rel Q (U t) (y' t')) (hT : L.AlikeFrom L.rel Q T p') :
    L.AlikeFrom L.rel Q (Trace.lookFor (k := k) U T) (Production.scan >>= fun t =>
      if t.kind = k then y' t else unscan >>= fun _ => p') :=
  .next hL (fun _ _ hr => hr) fun _ _ hr h => .lookFor hk hU hT hr h

/-- Looking for a closing parenthesis where a blank may have been skipped on one side only. -/
theorem AlikeFrom.lookForRightParen (hL : L.Lawful)
    (hU : ∀ t t', L.Same t t' → L.AlikeFrom L.rel Q (U t) (y' t')) (hT : L.AlikeFrom L.Loose Q T p') :
    L.AlikeFrom L.Loose Q (Trace.lookFor (k := .rightParen) U T) (Production.scan >>= fun t =>
      if t.kind = .rightParen then y' t else unscan >>= fun _ => p') := by
  refine .ofFollows fun c c' hloose => ?_
  rcases hloose with hr | hapart
  · have hT : L.AlikeFrom L.rel Q T p' := hT.mono (fun _ _ hr => .inl hr) fun _ _ _ _ h => h
    rcases hL.heads hr with hlost | hheads
    · exact .astray (.ofMisses (hlost _) _ _)
    · exact .lookFor rfl hU hT hr hheads
  · obtain ⟨hparen, hparen'⟩ := (hL.apart hapart).noParen
    exact .ite (iff_of_false hparen hparen') (absurd · hparen) fun _ => .putBack (.inr hapart) hT

/-- Looking for a significant token of a kind. -/
theorem AlikeFrom.lookForSignificant (hL : L.Lawful) (hk : k.isPlain)
    (hU : ∀ t t', L.Same t t' → L.AlikeFrom L.rel Q (U t) (y' t')) (hT : L.AlikeFrom L.rel Q T p') :
    L.AlikeFrom L.near Q (Trace.lookForSignificant (k := k) U T) (scanSignificant >>= fun t =>
      if t.kind = k then y' t else unscan >>= fun _ => p') :=
  .significant hL fun _ _ hr h => .lookFor hk hU hT hr.1 h

theorem Alike.lookFor (hL : L.Lawful) (hk : k.isPlain)
    (hU : ∀ t t', L.Same t t' → L.Alike V (U t) (y' t')) (hT : L.Alike V T p') :
    L.Alike V (Trace.lookFor (k := k) U T) (Production.scan >>= fun t =>
      if t.kind = k then y' t else unscan >>= fun _ => p') :=
  AlikeFrom.lookFor hL hk hU hT

theorem Alike.lookForSignificant (hL : L.Lawful) (hk : k.isPlain)
    (hU : ∀ t t', L.Same t t' → L.Alike V (U t) (y' t')) (hT : L.Alike V T p') :
    L.Alike V (Trace.lookForSignificant (k := k) U T) (scanSignificant >>= fun t =>
      if t.kind = k then y' t else unscan >>= fun _ => p') :=
  .ofNear hL (.lookForSignificant hL hk hU hT)

theorem Follows.ofErrors {H : Held p} {e e' : ParseError} (hp : p (justRead c) = .error e)
    (hp' : p' (justRead c') = .error e') (h : L.errors e e') : L.Follows Q H p' c c' := by
  rw [Follows, hp, hp']
  exact .error h

/-- The left production fails, and has gone astray. -/
theorem Follows.ofFails {H : Held p} {e : ParseError} (hp : p (justRead c) = .error e)
    (h : L.fails e) : L.Follows Q H p' c c' := by
  rw [Follows, hp]
  exact .astray (.inl ⟨e, rfl, h⟩)

theorem Follows.expect (hL : L.Lawful) (hk : k.isPlain)
    (hU : ∀ t t', L.Same t t' → L.Alike V (U t) (y' t')) (h : L.Heads c c') :
    L.Follows (Joint V L.rel) (.ite (.take (U c.scan.1)) (.take (.fail _)) :
        Held (if c.scan.1.kind = k then y c.scan.1 else unexpected c.scan.1 expected))
      (if c'.scan.1.kind = k then y' c'.scan.1 else unexpected c'.scan.1 expected) c c' := by
  obtain ⟨hiff, hsame⟩ := h.kind_iff hk
  refine .ite hiff (fun hc => ?_) fun _ => .ofErrors rfl rfl (h.errors_unexpected hL expected)
  exact .take (hsame hc).2 (hU _ _ (hsame hc).1)

/-- A token of a kind, or else an error. -/
theorem Alike.expect (hL : L.Lawful) (hk : k.isPlain)
    (hU : ∀ t t', L.Same t t' → L.Alike V (U t) (y' t')) :
    L.Alike V (Trace.expect U : Trace (Production.scan >>= fun t =>
        if t.kind = k then y t else unexpected t expected))
      (Production.scan >>= fun t => if t.kind = k then y' t else unexpected t expected) :=
  .next hL fun _ _ _ h => .expect hL hk hU h

/-- A significant token of a kind, or else an error. -/
theorem Alike.expectSignificant (hL : L.Lawful) (hk : k.isPlain)
    (hU : ∀ t t', L.Same t t' → L.Alike V (U t) (y' t')) :
    L.Alike V (Trace.expectSignificant U : Trace (scanSignificant >>= fun t =>
        if t.kind = k then y t else unexpected t expected))
      (scanSignificant >>= fun t => if t.kind = k then y' t else unexpected t expected) :=
  .significant hL fun _ _ _ h => .expect hL hk hU h

/-! ### Names that may be others -/

/-- The values correspond, or every run goes astray that puts the next token back. -/
def OrStuck (L : Likeness) (V : α → α' → Prop) (a : α) (a' : α') (c c' : Scanner) : Prop :=
  (V a a' ∨ L.Stuck c) ∧ L.rel c c'

theorem AlikeFrom.orStuck {x : β} {x' : β'} (h : W x x' → L.AlikeFrom L.rel Q T p')
    (hstuck : L.AlikeFrom (fun c _ => L.Stuck c) Q T p') :
    L.AlikeFrom (L.OrStuck W x x') Q T p' := by
  rintro c c' s s' ⟨hx | hc, hr⟩
  · exact h hx c c' s s' hr
  · exact hstuck c c' s s' hc

/-- Who looks for the parenthesis takes it. -/
theorem AlikeFrom.lookForCall (hL : L.Lawful)
    (hU : ∀ t t', L.Same t t' → L.AlikeFrom L.rel Q (U t) (y' t')) :
    L.AlikeFrom (fun c c' => L.rel c c' ∧ L.Stuck c) Q (Trace.lookFor (k := .leftParen) U T)
      (Production.scan >>= fun t => if t.kind = .leftParen then y' t else unscan >>= fun _ => p') := by
  refine .next hL (fun _ _ hr => hr.1) fun c c' hr h => ?_
  obtain ⟨hiff, hsame⟩ := h.kind_iff (k := .leftParen) rfl
  refine .ite hiff (fun hc => ?_) fun hne => absurd hr.2.1 hne
  exact .take (hsame hc).2 (hU _ _ (hsame hc).1)

/-- Who looks for another token puts the parenthesis back. -/
theorem AlikeFrom.lookForStuck (hk : k ≠ .leftParen) :
    L.AlikeFrom (fun c _ => L.Stuck c) Q (Trace.lookFor (k := k) U T) p' := by
  intro c c' s s' hc hs _
  have hne : c.scan.1.kind ≠ k := by
    rw [hc.1]
    exact hk.symm
  have hreturned : (Held.ite (.take (U c.scan.1)) (.putBack T) : Held (if c.scan.1.kind = k then
      y c.scan.1 else unscan >>= fun _ => p)).use = .returned := by
    unfold Held.ite
    rw [dif_neg hne]
    rfl
  show L.Meets Q c (.given (Held.use _) s.scan.1 :: _) _ _
  rw [hs.scan_eq, hreturned]
  exact .astray (.ofMisses hc.2 _ _)

/-- Who skips a blank puts the parenthesis back. -/
theorem AlikeFrom.skipBlankStuck {p' : Production α'} {Q : Unit → α' → Scanner → Scanner → Prop} :
    L.AlikeFrom (fun c _ => L.Stuck c) Q Trace.skipBlank p' := by
  intro c c' s s' hc hs _
  have hne : c.scan.1.kind ≠ .blank := by
    rw [hc.1]
    decide
  show L.Meets Q c [.given (if s.scan.1.kind = .blank then _ else _) s.scan.1] _ _
  rw [hs.scan_eq, if_neg hne]
  exact .astray (.ofMisses hc.2 _ _)

end Steps

end Likeness

end InfluxQL
