import InfluxQL.Proofs.Grammar.Trace

/-!
# Where a production comes to

`P.ComesTo c φ` says that whatever the production `P` reads from the scanner `c` on has the property
`φ`, together with a scanner from which the stream goes on that is left. There is one rule for each
step of the stream and for each way of putting productions together; `P.HeldComesTo c φ` is the same
for what is done when the next token has just been read.

* `Scanner.Reaches`: one scanner is on the way from another;
* `Scanner.ReadsInTurn`: values are read one after the other;
* `Production.Trace.comesTo`: whatever a production reads, it only comes to scanners on the way.
-/

namespace InfluxQL

namespace Scanner

variable {c c' d d' : Scanner}

/-- Some events lead from one scanner to the other. -/
def Reaches (c c' : Scanner) : Prop :=
  ∃ evs, c.Passes evs c'

theorem Reaches.refl (c : Scanner) : c.Reaches c :=
  ⟨[], .done c⟩

theorem Reaches.trans (h : c.Reaches d) (h' : d.Reaches c') : c.Reaches c' := by
  obtain ⟨evs, h⟩ := h
  obtain ⟨evs', h'⟩ := h'
  exact ⟨_, h.append h'⟩

theorem reaches_scan (c : Scanner) : c.Reaches c.scan.2 :=
  ⟨_, (Moves.taken c false).passes⟩

theorem reaches_pastBlank (c : Scanner) : c.Reaches c.pastBlank :=
  ⟨_, moves_pastBlank.passes⟩

theorem reaches_significant (c : Scanner) : c.Reaches c.pastBlank.scan.2 :=
  c.reaches_pastBlank.trans (reaches_scan _)

theorem reaches_regex {rest : List Char} (h : c.cursor.ahead = '/' :: rest) :
    c.Reaches (c.regex rest).2 :=
  ⟨_, (Moves.regex h).passes⟩

/-- Values are read one after the other on the way from one scanner to another. -/
inductive ReadsInTurn {α : Type} (R : Scanner → α → Scanner → Prop) :
    Scanner → List α → Scanner → Prop
  | done {c c' : Scanner} (h : c.Reaches c') : ReadsInTurn R c [] c'
  | next {c d d' c' : Scanner} {x : α} {xs : List α} (before : c.Reaches d) (h : R d x d')
      (behind : ReadsInTurn R d' xs c') : ReadsInTurn R c (x :: xs) c'

namespace ReadsInTurn

variable {α : Type} {R : Scanner → α → Scanner → Prop} {x : α} {xs ys : List α}

theorem after (hx : ReadsInTurn R d xs c') (h : c.Reaches d) : ReadsInTurn R c xs c' := by
  cases hx with
  | done h' => exact .done (h.trans h')
  | next before hr behind => exact .next (h.trans before) hr behind

theorem append (hx : ReadsInTurn R c xs d) (hy : ReadsInTurn R d ys c') :
    ReadsInTurn R c (xs ++ ys) c' := by
  induction hx with
  | done h => exact hy.after h
  | next before hr _ ih => exact .next before hr (ih hy)

theorem trans (hx : ReadsInTurn R c xs d) (h : d.Reaches c') : ReadsInTurn R c xs c' := by
  simpa using hx.append (.done h)

theorem single (h : R c x c') : ReadsInTurn R c [x] c' :=
  .next (.refl c) h (.done (.refl c'))

theorem reaches (h : ReadsInTurn R c xs c') (hR : ∀ {d x d'}, R d x d' → d.Reaches d') :
    c.Reaches c' := by
  induction h with
  | done h => exact h
  | next before hr _ ih => exact before.trans ((hR hr).trans ih)

/-- If each value is read as several others, all of these are read one after the other. -/
theorem flatMap {β : Type} {S : Scanner → β → Scanner → Prop} {f : α → List β}
    (h : ReadsInTurn R c xs c') (hR : ∀ {d x d'}, R d x d' → ReadsInTurn S d (f x) d') :
    ReadsInTurn S c (xs.flatMap f) c' := by
  induction h with
  | done h => exact .done h
  | next before hr _ ih =>
    rw [List.flatMap_cons]
    exact ((hR hr).after before).append ih

/-- Each of the values is read somewhere on the way. -/
theorem exists_of_mem (hR : ∀ {d x d'}, R d x d' → d.Reaches d') (h : ReadsInTurn R c xs c')
    (hx : x ∈ xs) : ∃ d d', c.Reaches d ∧ R d x d' := by
  induction h with
  | done => cases hx
  | next before hr _ ih =>
    rcases List.mem_cons.1 hx with rfl | hx
    · exact ⟨_, _, before, hr⟩
    · obtain ⟨d, d', hd, hr'⟩ := ih hx
      exact ⟨d, d', before.trans ((hR hr).trans hd), hr'⟩

end ReadsInTurn

end Scanner

namespace Production

open Scanner TokenStream

variable {α β : Type} {p q : Production α} {c : Scanner} {φ : α → Scanner → Prop}
  {ψ : β → Scanner → Prop}

/-- What is read from the scanner on has the property, and so has where the production comes to. -/
def ComesTo (p : Production α) (c : Scanner) (φ : α → Scanner → Prop) : Prop :=
  ∀ s a s', GoesOn c s → p s = .ok (a, s') → ∃ c', φ a c' ∧ GoesOn c' s'

/-- The same, when the next token has just been read. -/
def HeldComesTo (p : Production α) (c : Scanner) (φ : α → Scanner → Prop) : Prop :=
  ∀ a s', p (justRead c) = .ok (a, s') → ∃ c', φ a c' ∧ GoesOn c' s'

/-- What a production reads from the beginning of a text. -/
theorem ComesTo.run {source : List Char} {a : α} (h : p.ComesTo (Scanner.start source) φ)
    (hr : p.run source = .ok a) : ∃ c', φ a c' := by
  unfold Production.run at hr
  split at hr <;> cases hr
  next hs =>
    obtain ⟨c', ha, -⟩ := h _ _ _ (.clear none) hs
    exact ⟨c', ha⟩

/-- Whatever a production reads, it only comes to scanners on the way. -/
theorem Trace.comesTo (T : Trace p) (c : Scanner) : p.ComesTo c fun _ c' => c.Reaches c' := by
  intro s a s' hs h
  obtain ⟨c', hc', hgo⟩ := T.passes hs
  exact ⟨c', ⟨_, hc'⟩, hgo a s' h⟩

namespace ComesTo

theorem mono {χ : α → Scanner → Prop} (h : p.ComesTo c φ) (hc : ∀ a c', φ a c' → χ a c') :
    p.ComesTo c χ := by
  intro s a s' hs hp
  obtain ⟨c', ha, hgo⟩ := h s a s' hs hp
  exact ⟨c', hc a c' ha, hgo⟩

theorem and {χ : α → Prop} (h : p.ComesTo c φ)
    (hc : ∀ s a s', GoesOn c s → p s = .ok (a, s') → χ a) :
    p.ComesTo c fun a c' => φ a c' ∧ χ a := by
  intro s a s' hs hp
  obtain ⟨c', ha, hgo⟩ := h s a s' hs hp
  exact ⟨c', ⟨ha, hc s a s' hs hp⟩, hgo⟩

theorem and_yields {χ : α → Prop} (h : p.ComesTo c φ) (hy : p.Yields χ) :
    p.ComesTo c fun a c' => φ a c' ∧ χ a :=
  h.and fun s a s' _ hp => hy s a s' hp

theorem pure {a : α} (h : φ a c) : (Pure.pure a : Production α).ComesTo c φ := by
  rintro s _ _ hs ⟨⟩
  exact ⟨c, h, hs⟩

theorem fail {e : ParseError} : (fail e : Production α).ComesTo c φ := by
  rintro s a s' - ⟨⟩

theorem failAt {t : Token} {cause : Cause} : (failAt t cause : Production α).ComesTo c φ :=
  .fail

theorem unexpected {t : Token} {expected : List String} :
    (unexpected t expected : Production α).ComesTo c φ :=
  .fail

theorem bind {p : Production β} {f : β → Production α} (hp : p.ComesTo c ψ)
    (hf : ∀ x d, ψ x d → (f x).ComesTo d φ) : (p >>= f).ComesTo c φ := by
  intro s a s'' hs h
  obtain ⟨x, s', hx, ha⟩ := bind_eq_ok.1 h
  obtain ⟨d, hd, hgo⟩ := hp s x s' hs hx
  exact hf x d hd s' a s'' hgo ha

/-- Going on from where a production is known to come to. -/
theorem next {p : Production β} {f : β → Production α} {d : Scanner}
    (hp : p.ComesTo c fun _ d' => d' = d) (hf : ∀ x, (f x).ComesTo d φ) :
    (p >>= f).ComesTo c φ :=
  hp.bind fun x _ hd => hd ▸ hf x

/-- Skipping blanks. -/
theorem skipBlank : Production.skipBlank.ComesTo c fun _ d => d = c.pastBlank := by
  rintro s _ _ hs ⟨⟩
  exact ⟨_, rfl, hs.skipBlank⟩

/-- Looking at the next character. -/
theorem peek? {f : Option Char → Production α} (h : (f c.cursor.ahead.head?).ComesTo c φ) :
    (peek? >>= f).ComesTo c φ := by
  intro s a s' hs hf
  obtain ⟨x, s₁, hx, hf⟩ := bind_eq_ok.1 hf
  cases hx
  rw [hs.peek?_eq] at hf
  exact h s a s' hs hf

/-- Reading the next token. -/
theorem scan {f : Token → Production α} (h : (f c.scan.1).HeldComesTo c φ) :
    (scan >>= f).ComesTo c φ := by
  intro s a s' hs hf
  obtain ⟨t, s₁, ht, hf⟩ := bind_eq_ok.1 hf
  have he : (c.scan.1, justRead c) = (t, s₁) := by
    rw [← hs.scan_eq]
    exact Except.ok.inj ht
  cases he
  exact h a s' hf

/-- Reading the next significant token. -/
theorem significant {f : Token → Production α}
    (h : (f c.pastBlank.scan.1).HeldComesTo c.pastBlank φ) : (scanSignificant >>= f).ComesTo c φ := by
  rw [Trace.scanSignificant_bind]
  exact skipBlank.next fun _ => .scan h

end ComesTo

namespace HeldComesTo

/-- The token is taken. -/
theorem take (h : p.ComesTo c.scan.2 φ) : p.HeldComesTo c φ :=
  fun a s' hp => h _ a s' (goesOn_justRead c) hp

/-- The token is put back. -/
theorem putBack (h : p.ComesTo c φ) : (unscan >>= fun _ => p).HeldComesTo c φ :=
  fun a s' hp => h _ a s' (goesOn_unscan_justRead c) hp

theorem ite {b : Prop} [Decidable b] (hp : b → p.HeldComesTo c φ) (hq : ¬b → q.HeldComesTo c φ) :
    (if b then p else q).HeldComesTo c φ := by
  split
  · next hb => exact hp hb
  · next hb => exact hq hb

end HeldComesTo

namespace ComesTo

variable {k : TokenKind} {y : Token → Production α} {expected : List String}

theorem ite {b : Prop} [Decidable b] (hp : b → p.ComesTo c φ) (hq : ¬b → q.ComesTo c φ) :
    (if b then p else q).ComesTo c φ := by
  split
  · next hb => exact hp hb
  · next hb => exact hq hb

/-- Looking for a token of a kind. -/
theorem lookFor (hy : c.scan.1.kind = k → (y c.scan.1).ComesTo c.scan.2 φ)
    (hq : c.scan.1.kind ≠ k → q.ComesTo c φ) :
    (Production.scan >>= fun t =>
      if t.kind = k then y t else unscan >>= fun _ => q).ComesTo c φ :=
  .scan (.ite (fun h => .take (hy h)) fun h => .putBack (hq h))

/-- Looking for a significant token of a kind. -/
theorem lookForSignificant
    (hy : c.pastBlank.scan.1.kind = k → (y c.pastBlank.scan.1).ComesTo c.pastBlank.scan.2 φ)
    (hq : c.pastBlank.scan.1.kind ≠ k → q.ComesTo c.pastBlank φ) :
    (scanSignificant >>= fun t =>
      if t.kind = k then y t else unscan >>= fun _ => q).ComesTo c φ :=
  .significant (.ite (fun h => .take (hy h)) fun h => .putBack (hq h))

/-- A token of a kind, or else an error. -/
theorem expect (hy : c.scan.1.kind = k → (y c.scan.1).ComesTo c.scan.2 φ) :
    (Production.scan >>= fun t =>
      if t.kind = k then y t else Production.unexpected t expected).ComesTo c φ :=
  .scan (.take (.ite hy fun _ => .unexpected))

/-- A significant token of a kind, or else an error. -/
theorem expectSignificant
    (hy : c.pastBlank.scan.1.kind = k → (y c.pastBlank.scan.1).ComesTo c.pastBlank.scan.2 φ) :
    (scanSignificant >>= fun t =>
      if t.kind = k then y t else Production.unexpected t expected).ComesTo c φ :=
  .significant (.take (.ite hy fun _ => .unexpected))

/-- A regular expression where a slash is the next character. -/
theorem atSlash {f : Token → Production α}
    (hf : ∀ rest, c.cursor.ahead = '/' :: rest → (f (c.regex rest).1).ComesTo (c.regex rest).2 φ)
    (hq : c.cursor.ahead.head? ≠ some '/' → q.ComesTo c φ) : (atSlash f q).ComesTo c φ := by
  intro s a s' hs h
  unfold Production.atSlash at h
  rw [hs.peek?_eq] at h
  split_ifs at h with hslash
  · obtain ⟨rest, ha⟩ := List.head?_eq_some_iff.1 hslash
    obtain ⟨t, s₁, ht, h⟩ := bind_eq_ok.1 h
    have he : s.scanRegex = (t, s₁) := Except.ok.inj ht
    rw [hs.scanRegex_eq_regex ha] at he
    cases he
    exact hf rest ha _ a s' (goesOn_justReadRegex c rest) h
  · exact hq hslash s a s' hs h

/-- A repetition comes to where its last round does, if every other round keeps the invariant. -/
theorem loop {body : β → Production (β ⊕ α)}
    (h : ∀ b d, ψ b d → (body b).ComesTo d (Sum.elim ψ φ)) (n : Nat) {b : β} (hb : ψ b c) :
    (loop body n b).ComesTo c φ := by
  induction n generalizing b c with
  | zero => exact .fail
  | succ n ih =>
    rw [Production.loop]
    refine (h b c hb).bind fun r d hr => ?_
    cases r with
    | inl b' => exact ih hr
    | inr a => exact .pure hr

end ComesTo

end Production

end InfluxQL
