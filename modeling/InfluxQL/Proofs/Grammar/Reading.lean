import InfluxQL.Grammar.Production
import InfluxQL.Proofs.Token.Lookahead

/-!
# Productions that read a known text

`P.ReadsWith b text φ b' text'` says that the production `P` succeeds before `text` with a value
that has the property `φ`, and leaves the stream before `text'`; the flags tell whether an operand
ends right before each. `P.Reads b text a b' text'` says that this value is `a`. There is one rule
for each step of the stream, for the steps that look at a token and put it back, and for a round of
a repetition. `P.FailsWith b text cause` says that `P` fails before `text`, and why.
-/

namespace InfluxQL

namespace Production

variable {α β : Type}

/-- The production reads a value with a property from the front of a text. -/
def ReadsWith (p : Production α) (b : Bool) (text : List Char) (φ : α → Prop) (b' : Bool)
    (text' : List Char) : Prop :=
  ∀ s, TokenStream.Before b text s →
    ∃ a s', p s = .ok (a, s') ∧ φ a ∧ TokenStream.Before b' text' s'

/-- The production reads a value from the front of a text. -/
abbrev Reads (p : Production α) (b : Bool) (text : List Char) (a : α) (b' : Bool)
    (text' : List Char) : Prop :=
  p.ReadsWith b text (· = a) b' text'

/-- What a production reads from the beginning of a text is its value for that text. -/
theorem Reads.run {p : Production α} {text text' : List Char} {a : α} {b' : Bool}
    (h : p.Reads false text a b' text') : p.run text = .ok a := by
  obtain ⟨_, s', hs, rfl, -⟩ := h _ (TokenStream.before_start text)
  rw [Production.run, hs]

variable {b b' b'' : Bool} {text text' text'' : List Char} {a : α} {φ : α → Prop}

theorem ReadsWith.pure (h : φ a) : (Pure.pure a : Production α).ReadsWith b text φ b text :=
  fun s hs => ⟨a, s, rfl, h, hs⟩

theorem Reads.pure (a : α) : (Pure.pure a : Production α).Reads b text a b text :=
  ReadsWith.pure rfl

theorem ReadsWith.bind {p : Production β} {f : β → Production α} {ψ : β → Prop}
    (hp : p.ReadsWith b text ψ b' text')
    (hf : ∀ x, ψ x → (f x).ReadsWith b' text' φ b'' text'') :
    (p >>= f).ReadsWith b text φ b'' text'' := by
  intro s hs
  obtain ⟨x, s', h, hx, hs'⟩ := hp s hs
  obtain ⟨a, s'', h', ha, hs''⟩ := hf x hx s' hs'
  exact ⟨a, s'', by simp only [Bind.bind, StateT.bind, h, Except.bind]; exact h', ha, hs''⟩

theorem Reads.bind {p : Production β} {f : β → Production α} {x : β}
    (hp : p.Reads b text x b' text') (hf : (f x).ReadsWith b' text' φ b'' text'') :
    (p >>= f).ReadsWith b text φ b'' text'' :=
  ReadsWith.bind hp fun _ hx => hx ▸ hf

/-! ### Steps of the stream -/

section Steps

variable {f : Token → Production α} {l : Lexeme}

/-- Reading the next token. -/
theorem ReadsWith.scan (hl : Lexeme.next? b text = some l)
    (hf : ∀ t : Token, t.kind = l.kind → t.lit = String.ofList l.lit →
      (f t).ReadsWith (l.endsOperand b) (text.drop l.width) φ b' text') :
    (Production.scan >>= f).ReadsWith b text φ b' text' := by
  intro s hs
  obtain ⟨t, s', h, hk, ht, hs'⟩ := hs.scan hl
  obtain ⟨a, s'', h', ha⟩ := hf t hk ht s' hs'
  exact ⟨a, s'', by simpa only [Bind.bind, StateT.bind, Production.scan, h, Except.bind], ha⟩

/-- Looking at the next token, which is put back. -/
theorem ReadsWith.lookAt {g : Token → Production α}
    (hf : ∀ t : Token, t.kind = Lexeme.nextKind b text → f t = unscan >>= fun _ => g t)
    (hg : ∀ t : Token, (g t).ReadsWith b text φ b' text') :
    (Production.scan >>= f).ReadsWith b text φ b' text' := by
  intro s hs
  obtain ⟨t, s', h, hk, hs'⟩ := hs.scan_unscan
  obtain ⟨a, s'', h', ha⟩ := hg t _ hs'
  refine ⟨a, s'', ?_, ha⟩
  simp only [Bind.bind, StateT.bind, Production.scan, h, Except.bind, hf t hk, unscan]
  exact h'

/-- A production that begins with a significant token may as well begin behind the blanks. -/
theorem ReadsWith.scanSignificant_of_scan
    (h : (Production.scan >>= f).ReadsWith b (Lexeme.pastBlank text) φ b' text') :
    (scanSignificant >>= f).ReadsWith b text φ b' text' := by
  intro s hs
  obtain ⟨-, s₁, hs₁, he⟩ := hs.pastBlank
  obtain ⟨a, s', h', ha⟩ := h s₁ hs₁
  refine ⟨a, s', ?_, ha⟩
  simp only [Bind.bind, StateT.bind, scanSignificant, he]
  exact h'

/-- Looking at the next token that is no blank. Only the blanks are gone when it is put back. -/
theorem ReadsWith.lookAtSignificant {g : Token → Production α}
    (hf : ∀ t : Token, t.kind = Lexeme.nextKind b (Lexeme.pastBlank text) →
      f t = unscan >>= fun _ => g t)
    (hg : ∀ t : Token, (g t).ReadsWith b (Lexeme.pastBlank text) φ b' text') :
    (scanSignificant >>= f).ReadsWith b text φ b' text' :=
  .scanSignificant_of_scan (.lookAt hf hg)

variable {rest : List Char} {k : TokenKind} {lit : List Char} {y : Token → Production α}
  {g : Production α}

/-- Looking for a token of a kind that does not come next. -/
theorem ReadsWith.lookPast (hk : Lexeme.nextKind b text ≠ k)
    (hg : g.ReadsWith b text φ b' text') :
    (Production.scan >>= fun t => if t.kind = k then y t else unscan >>= fun _ => g).ReadsWith
      b text φ b' text' :=
  .lookAt (fun t ht => if_neg (by rwa [ht])) fun _ => hg

/-- Looking for a significant token of a kind that does not come next. -/
theorem ReadsWith.lookPastSignificant (ht : Lexeme.pastBlank text = rest)
    (hk : Lexeme.nextKind b rest ≠ k) (hg : g.ReadsWith b rest φ b' text') :
    (scanSignificant >>= fun t =>
      if t.kind = k then y t else unscan >>= fun _ => g).ReadsWith b text φ b' text' := by
  subst ht
  exact .lookAtSignificant (fun t ht => if_neg (by rwa [ht])) fun _ => hg

/-- Reading a token that is no blank, given as it is written. -/
theorem ReadsWith.word (w : List Char) (hl : Lexeme.next? b (w ++ rest) = some ⟨k, lit, w.length⟩)
    (hk : k ≠ .blank) (hf : ∀ t : Token, t.kind = k → t.lit = String.ofList lit →
      (f t).ReadsWith k.endsOperand rest φ b' text') :
    (Production.scan >>= f).ReadsWith b (w ++ rest) φ b' text' := by
  refine .scan hl fun t ht hlit => ?_
  have he : Lexeme.endsOperand b ⟨k, lit, w.length⟩ = k.endsOperand := if_neg hk
  rw [he, List.drop_left]
  exact hf t ht hlit

/-- Reading the next significant token, given as it is written behind the blanks. -/
theorem ReadsWith.significantWord (w : List Char) (ht : Lexeme.pastBlank text = w ++ rest)
    (hl : Lexeme.next? b (w ++ rest) = some ⟨k, lit, w.length⟩) (hk : k ≠ .blank)
    (hf : ∀ t : Token, t.kind = k → t.lit = String.ofList lit →
      (f t).ReadsWith k.endsOperand rest φ b' text') :
    (scanSignificant >>= f).ReadsWith b text φ b' text' :=
  .scanSignificant_of_scan (ht ▸ .word w hl hk hf)

/-- Reading the end of the text. -/
theorem ReadsWith.significantEnd (ht : Lexeme.pastBlank text = [])
    (hf : ∀ t : Token, t.kind = .eof → (f t).ReadsWith b [] φ b' text') :
    (scanSignificant >>= f).ReadsWith b text φ b' text' := by
  refine .scanSignificant_of_scan fun s hs => ?_
  rw [ht] at hs
  obtain ⟨t, s', h, hk, hs'⟩ := hs.scan_end
  obtain ⟨a, s'', h', ha⟩ := hf t hk s' hs'
  exact ⟨a, s'', by simpa only [Bind.bind, StateT.bind, Production.scan, h, Except.bind], ha⟩

/-- Reading a regular expression. -/
theorem ReadsWith.scanRegex
    (hf : ∀ t : Token, t.kind = (Lexeme.regex rest).kind →
      t.lit = String.ofList (Lexeme.regex rest).lit →
      (f t).ReadsWith (Lexeme.regex rest).kind.endsOperand
        (('/' :: rest).drop (Lexeme.regex rest).width) φ b' text') :
    (Production.scanRegex >>= f).ReadsWith b ('/' :: rest) φ b' text' := by
  intro s hs
  obtain ⟨t, s', h, hk, ht, hs'⟩ := hs.scanRegex
  obtain ⟨a, s'', h', ha⟩ := hf t hk ht s' hs'
  exact ⟨a, s'', by simpa only [Bind.bind, StateT.bind, Production.scanRegex, h, Except.bind], ha⟩

end Steps

/-- Looking at the next character. -/
theorem ReadsWith.peek? {f : Option Char → Production α}
    (h : (f text.head?).ReadsWith b text φ b' text') :
    (Production.peek? >>= f).ReadsWith b text φ b' text' := by
  intro s hs
  obtain ⟨a, s', h', ha⟩ := h s hs
  refine ⟨a, s', ?_, ha⟩
  simp only [Bind.bind, StateT.bind, Production.peek?, hs.peek?_eq]
  exact h'

/-- Skipping a blank. -/
theorem Reads.skipBlank : skipBlank.Reads b text () b (Lexeme.pastBlank text) :=
  fun _ hs => ⟨(), _, rfl, rfl, hs.pastBlank.1⟩

/-! ### Rounds of a repetition -/

section Rounds

variable {body : β → Production (β ⊕ α)} {x y : β} {n : Nat}

/-- A round after which the repetition goes on. -/
theorem ReadsWith.round {ψ : β → Prop}
    (hb : (body x).ReadsWith b text (fun r => ∃ y, r = .inl y ∧ ψ y) b' text')
    (h : ∀ y, ψ y → (loop body n y).ReadsWith b' text' φ b'' text'') :
    (loop body (n + 1) x).ReadsWith b text φ b'' text'' := by
  rw [loop]
  refine hb.bind ?_
  rintro _ ⟨y, rfl, hy⟩
  exact h y hy

theorem Reads.round (hb : (body x).Reads b text (.inl y) b' text')
    (h : (loop body n y).ReadsWith b' text' φ b'' text'') :
    (loop body (n + 1) x).ReadsWith b text φ b'' text'' := by
  rw [loop]
  exact hb.bind h

/-- The last round. -/
theorem Reads.lastRound (hb : (body x).Reads b text (.inr a) b' text') (ha : φ a) :
    (loop body (n + 1) x).ReadsWith b text φ b' text' := by
  rw [loop]
  exact hb.bind (ReadsWith.pure ha)

end Rounds

/-! ### Failures -/

/-- The production fails before a text, for a given cause. -/
def FailsWith (p : Production α) (b : Bool) (text : List Char) (cause : Cause) : Prop :=
  ∀ s, TokenStream.Before b text s → ∃ e, p s = .error e ∧ e.cause = cause

section Failures

variable {p : Production β} {f : β → Production α} {cause : Cause}

/-- What a production that fails makes of a text. -/
theorem FailsWith.run (h : p.FailsWith false text cause) :
    ∃ e, p.run text = .error e ∧ e.cause = cause := by
  obtain ⟨e, he, hc⟩ := h _ (TokenStream.before_start text)
  exact ⟨e, by rw [Production.run, he], hc⟩

theorem FailsWith.unexpected {t : Token} {expected : List String} :
    (Production.unexpected t expected : Production α).FailsWith b text
      (.unexpected t.text expected) :=
  fun _ _ => ⟨_, rfl, rfl⟩

/-- What comes behind a failure does not matter. -/
theorem FailsWith.bind (h : p.FailsWith b text cause) : (p >>= f).FailsWith b text cause := by
  intro s hs
  obtain ⟨e, he, hc⟩ := h s hs
  exact ⟨e, by simp only [Bind.bind, StateT.bind, he, Except.bind], hc⟩

/-- A failure behind what has been read. -/
theorem ReadsWith.fails {ψ : β → Prop} (hp : p.ReadsWith b text ψ b' text')
    (hf : ∀ x, ψ x → (f x).FailsWith b' text' cause) : (p >>= f).FailsWith b text cause := by
  intro s hs
  obtain ⟨x, s', h, hx, hs'⟩ := hp s hs
  obtain ⟨e, he, hc⟩ := hf x hx s' hs'
  exact ⟨e, by simp only [Bind.bind, StateT.bind, h, Except.bind]; exact he, hc⟩

theorem Reads.fails {x : β} (hp : p.Reads b text x b' text')
    (hf : (f x).FailsWith b' text' cause) : (p >>= f).FailsWith b text cause :=
  ReadsWith.fails hp fun _ hx => hx ▸ hf

/-- A failure behind the next significant token, given as it is written behind the blanks. -/
theorem FailsWith.significantWord {f : Token → Production α} {k : TokenKind} {lit rest : List Char}
    (w : List Char) (ht : Lexeme.pastBlank text = w ++ rest)
    (hl : Lexeme.next? b (w ++ rest) = some ⟨k, lit, w.length⟩) (hk : k ≠ .blank)
    (hf : ∀ t : Token, t.kind = k → t.lit = String.ofList lit →
      (f t).FailsWith k.endsOperand rest cause) :
    (scanSignificant >>= f).FailsWith b text cause := by
  have hread : (scanSignificant >>= pure).ReadsWith b text
      (fun t => t.kind = k ∧ t.lit = String.ofList lit) k.endsOperand rest :=
    .significantWord w ht hl hk fun t hkind hlit => .pure ⟨hkind, hlit⟩
  rw [bind_pure] at hread
  exact hread.fails fun t h => hf t h.1 h.2

/-- A failure in the next round. -/
theorem FailsWith.round {body : β → Production (β ⊕ α)} {x : β} {n : Nat}
    (h : (body x).FailsWith b text cause) : (loop body (n + 1) x).FailsWith b text cause := by
  rw [loop]
  exact h.bind

end Failures

end Production

end InfluxQL
