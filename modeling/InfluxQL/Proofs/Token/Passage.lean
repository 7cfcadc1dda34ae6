import InfluxQL.Proofs.Token.Extent

/-!
# From one scanner to another

Whoever reads on from a scanner comes to others. What happens on the way is a list of events: a token
is taken, or it is looked at and put back; where a regular expression is wanted, a slash starts one;
the next character is looked at; a round of a repetition begins.

* `Event`: what can happen;
* `Scanner.Moves c ev d`: the event leads from the scanner `c` to `d`;
* `Scanner.Passes c events d`: the events lead from `c` to `d`, one after the other;
* `Scanner.Passes.offset_le`: the way never leads back;
* `Scanner.Passes.exists_of_mem`: each event happens at a scanner on the way;
* `Scanner.events_order`, `Scanner.Passes.order`, `Scanner.Passes.adjacent`: one of two events is first;
  between two that lead on one after the other there is no third.
-/

namespace InfluxQL

/-- The kinds of token that never are a part of a statement. -/
def TokenKind.isIdle : TokenKind → Bool
  | eof | blank | semicolon | badString | badEscape => true
  | _ => false

theorem TokenKind.ne_of_isIdle {j k : TokenKind} (hj : j.isIdle) (hk : k.isIdle = false) :
    j ≠ k := by
  rintro rfl
  rw [hk] at hj
  cases hj

theorem TokenKind.isIdle_of_isBroken {k : TokenKind} (h : k.isBroken) : k.isIdle := by
  cases k <;> first | rfl | cases h

theorem TokenKind.isIdle_of_endsOperand {k : TokenKind} (h : k.endsOperand) : k.isIdle = false := by
  cases k <;> first | rfl | cases h

/-- The kinds of token that stand for a value. -/
def TokenKind.isValue : TokenKind → Bool
  | string | number | integer | bool _ | param => true
  | _ => false

theorem TokenKind.ne_of_isValue {j k : TokenKind} (hj : j.isValue) (hk : k.isValue = false) :
    j ≠ k := by
  rintro rfl
  rw [hk] at hj
  cases hj

/-- The kinds of token that can be a part of a statement, those of names, values and operators
aside. -/
def TokenKind.isPlain : TokenKind → Bool
  | ident | op _ => false
  | k => !k.isIdle && !k.isValue

/-- What is done with a token that is read. -/
inductive Use
  /-- It is taken; `bound` if the value of a parameter is put in its place. -/
  | taken (bound : Bool)
  /-- It is put back. -/
  | returned
  /-- It is taken, and it was read as a regular expression. -/
  | regex
  deriving DecidableEq, Repr

/-- What begins: a round of a repetition, or an expression within another. -/
inductive Mark
  | segment
  | operation
  | argument
  | field
  | source
  | statement
  | nested
  deriving DecidableEq, Repr

/-- What happens while a text is read. -/
inductive Event
  /-- Something begins, before the byte. -/
  | starts (m : Mark) (byte : Nat)
  /-- The next character is looked at. -/
  | peeked
  /-- A token is read. -/
  | given (u : Use) (t : Token)
  deriving DecidableEq, Repr

namespace Scanner

/-- The token and the scanner behind it where a slash starts a regular expression. -/
def regex (c : Scanner) (rest : List Char) : Token × Scanner :=
  c.take (Lexeme.regex rest)

/-- The event leads from one scanner to another. -/
inductive Moves : Scanner → Event → Scanner → Prop
  | starts (c : Scanner) (m : Mark) : Moves c (.starts m c.offset) c
  | peeked (c : Scanner) : Moves c .peeked c
  | taken (c : Scanner) (bound : Bool) : Moves c (.given (.taken bound) c.scan.1) c.scan.2
  | returned (c : Scanner) : Moves c (.given .returned c.scan.1) c
  | regex {c : Scanner} {rest : List Char} (ahead : c.cursor.ahead = '/' :: rest) :
      Moves c (.given .regex (c.regex rest).1) (c.regex rest).2

/-- The events lead from one scanner to another, one after the other. -/
inductive Passes : Scanner → List Event → Scanner → Prop
  | done (c : Scanner) : Passes c [] c
  | step {c d c' : Scanner} {ev : Event} {evs : List Event} :
      Moves c ev d → Passes d evs c' → Passes c (ev :: evs) c'

variable {c c' c'' d : Scanner} {ev : Event} {evs evs' : List Event}

theorem source_regex {rest : List Char} : (c.regex rest).2.cursor.source = c.cursor.source :=
  Cursor.source_advance _ _

theorem offset_le_take (l : Lexeme) : c.offset ≤ (c.take l).2.offset := by
  show c.cursor.offset ≤ c.cursor.offset + _
  exact Nat.le_add_right _ _

theorem offset_le_scan : c.offset ≤ c.scan.2.offset := by
  rw [scan_eq]
  split
  · exact Nat.le_refl _
  · exact offset_le_take _

/-- A token stops where the scanner is behind it. -/
theorem stop_scan : c.scan.1.span.stop = c.scan.2.offset := by
  rw [scan_eq]
  split <;> rfl

/-! ### One event -/

theorem Moves.source_eq (h : c.Moves ev d) : d.cursor.source = c.cursor.source := by
  cases h with
  | starts | peeked | returned => rfl
  | taken => exact source_scan c
  | regex => exact source_regex

theorem Moves.offset_le (h : c.Moves ev d) : c.offset ≤ d.offset := by
  cases h with
  | starts | peeked | returned => exact Nat.le_refl _
  | taken => exact offset_le_scan
  | regex => exact offset_le_take _

/-- The event tells where it leads. -/
theorem Moves.unique (h : c.Moves ev d) (h' : c.Moves ev c') : d = c' := by
  cases h with
  | starts | peeked | taken | returned =>
    cases h'
    rfl
  | regex ha =>
    -- What is behind the slash is given by the scanner, although the event does not name it.
    generalize hev : Event.given .regex (c.regex _).1 = ev at h'
    cases h' with
    | regex ha' =>
      rw [ha] at ha'
      cases ha'
      rfl
    | _ => cases hev

/-- A token that is read starts where the scanner is. -/
theorem Moves.start_eq {u : Use} {t : Token} (h : c.Moves (.given u t) d) :
    t.span.start = c.offset := by
  cases h with
  | taken | returned => exact start_scan c
  | regex => rfl

/-! ### All events -/

theorem Moves.passes (h : c.Moves ev d) : c.Passes [ev] d :=
  .step h (.done d)

theorem Passes.append (h : c.Passes evs c') (h' : c'.Passes evs' c'') :
    c.Passes (evs ++ evs') c'' := by
  induction h with
  | done => exact h'
  | step hm _ ih => exact .step hm (ih h')

theorem Passes.cons_inv (h : c.Passes (ev :: evs) c') : ∃ d, c.Moves ev d ∧ d.Passes evs c' := by
  cases h with
  | step hm h => exact ⟨_, hm, h⟩

theorem Passes.append_inv (h : c.Passes (evs ++ evs') c'') :
    ∃ c', c.Passes evs c' ∧ c'.Passes evs' c'' := by
  induction evs generalizing c with
  | nil => exact ⟨c, .done c, h⟩
  | cons ev evs ih =>
    obtain ⟨d, hm, h⟩ := h.cons_inv
    obtain ⟨c', h₁, h₂⟩ := ih h
    exact ⟨c', .step hm h₁, h₂⟩

/-- The events tell where they lead. -/
theorem Passes.unique (h : c.Passes evs c') (h' : c.Passes evs c'') : c' = c'' := by
  induction h with
  | done =>
    cases h'
    rfl
  | step hm _ ih =>
    obtain ⟨d, hm', h'⟩ := h'.cons_inv
    rw [hm.unique hm'] at ih
    exact ih h'

/-- The way stays in the text. -/
theorem Passes.source_eq (h : c.Passes evs c') : c'.cursor.source = c.cursor.source := by
  induction h with
  | done => rfl
  | step hm _ ih => rw [ih, hm.source_eq]

/-- The way never leads back. -/
theorem Passes.offset_le (h : c.Passes evs c') : c.offset ≤ c'.offset := by
  induction h with
  | done => exact Nat.le_refl _
  | step hm _ ih => exact Nat.le_trans hm.offset_le ih

/-- Each event happens at a scanner on the way. -/
theorem Passes.exists_of_mem (h : c.Passes evs c') (hev : ev ∈ evs) :
    ∃ d d' before behind, evs = before ++ ev :: behind ∧ c.Passes before d ∧ d.Moves ev d' ∧
      d'.Passes behind c' := by
  obtain ⟨before, behind, rfl⟩ := List.append_of_mem hev
  obtain ⟨d, h₁, h₂⟩ := h.append_inv
  obtain ⟨d', hm, h₂⟩ := h₂.cons_inv
  exact ⟨d, d', before, behind, rfl, h₁, hm, h₂⟩

/-- Of two events, one is first. -/
theorem events_order {before before' behind behind' : List Event}
    (h : before ++ ev :: behind = before' ++ ev' :: behind') :
    before = before' ∧ ev = ev' ∨ (∃ between, before' = before ++ ev :: between) ∨
      ∃ between, before = before' ++ ev' :: between := by
  rcases List.append_eq_append_iff.1 h with ⟨between, rfl, hrest⟩ | ⟨between, rfl, hrest⟩
  · cases between with
    | nil => exact .inl ⟨(List.append_nil _).symm, (List.cons.inj hrest).1⟩
    | cons _ between =>
      obtain ⟨rfl, -⟩ := List.cons.inj hrest
      exact .inr (.inl ⟨between, rfl⟩)
  · cases between with
    | nil => exact .inl ⟨List.append_nil _, (List.cons.inj hrest).1.symm⟩
    | cons _ between =>
      obtain ⟨rfl, -⟩ := List.cons.inj hrest
      exact .inr (.inr ⟨between, rfl⟩)

/-- What happens after an event leads on from where that leads. -/
theorem Passes.behind_inv {before between : List Event} (h : c.Passes (before ++ ev :: between) c')
    (hd : c.Passes before d) : ∃ d₁, d.Moves ev d₁ ∧ d₁.Passes between c' := by
  obtain ⟨d₀, hd₀, h⟩ := h.append_inv
  obtain rfl := hd.unique hd₀
  exact h.cons_inv

/-- Of two events on one way, one happens first. -/
theorem Passes.order {before before' behind behind' : List Event} {d' : Scanner}
    (hevs : before ++ ev :: behind = before' ++ ev' :: behind')
    (hd : c.Passes before d) (hd' : c.Passes before' d') :
    d = d' ∧ ev = ev' ∨ (∃ d₁ between, d.Moves ev d₁ ∧ d₁.Passes between d') ∨
      ∃ d₁ between, d'.Moves ev' d₁ ∧ d₁.Passes between d := by
  rcases events_order hevs with ⟨rfl, rfl⟩ | ⟨between, rfl⟩ | ⟨between, rfl⟩
  · exact .inl ⟨hd.unique hd', rfl⟩
  · obtain ⟨d₁, hm, hbetween⟩ := hd'.behind_inv hd
    exact .inr (.inl ⟨d₁, between, hm, hbetween⟩)
  · obtain ⟨d₁, hm, hbetween⟩ := hd.behind_inv hd'
    exact .inr (.inr ⟨d₁, between, hm, hbetween⟩)

/-- Between two events that both lead on nothing happens: what happens there is the second. -/
theorem Passes.adjacent {ev'' : Event} {before behind before' behind' : List Event}
    {d₁ d₂ e : Scanner} (hevs : before ++ ev :: ev' :: behind = before' ++ ev'' :: behind') (hne : ev ≠ ev'')
    (hd : c.Passes before d) (hm : d.Moves ev d₁) (hlt : d.offset < d₁.offset)
    (hm' : d₁.Moves ev' d₂) (hlt' : d₁.offset < d₂.offset) (he : c.Passes before' e)
    (hoffset : e.offset = d₁.offset) : ev'' = ev' := by
  have hd₁ : c.Passes (before ++ [ev]) d₁ := hd.append hm.passes
  have hevs' : (before ++ [ev]) ++ ev' :: behind = before' ++ ev'' :: behind' := by
    rw [← hevs, List.append_assoc, List.singleton_append]
  rcases events_order hevs' with ⟨-, heq⟩ | ⟨between, rfl⟩ | ⟨between, hbefore⟩
  · exact heq.symm
  · -- Both events have happened before, and have led on.
    obtain ⟨_, hstep, hbetween⟩ := he.behind_inv hd₁
    obtain rfl := hm'.unique hstep
    have hle := hbetween.offset_le
    omega
  · -- What happens there happens before the first event, and that will lead on from there.
    rcases List.eq_nil_or_concat between with rfl | ⟨between, ev₁, rfl⟩
    · exact absurd (List.cons.inj (List.append_inj' hbefore rfl).2).1 hne
    · rw [List.concat_eq_append, ← List.cons_append, ← List.append_assoc] at hbefore
      obtain ⟨rfl, -⟩ := List.append_inj' hbefore rfl
      obtain ⟨_, hstep, hbetween⟩ := hd.behind_inv he
      have hle := Nat.le_trans hstep.offset_le hbetween.offset_le
      omega

theorem pastBlank_of_blank (h : c.scan.1.kind = .blank) : c.pastBlank = c.scan.2 :=
  if_pos h

theorem pastBlank_of_ne_blank (h : c.scan.1.kind ≠ .blank) : c.pastBlank = c :=
  if_neg h

/-- Blanks are skipped at once. -/
theorem pastBlank_eq (c : Scanner) :
    c.pastBlank = ⟨c.cursor.advance (Lexeme.blankWidth false c.cursor.ahead), c.last⟩ := by
  have hstay : Lexeme.blankWidth false c.cursor.ahead = 0 →
      c = ⟨c.cursor.advance (Lexeme.blankWidth false c.cursor.ahead), c.last⟩ := by
    intro hw
    rw [hw]
    exact congrArg (Scanner.mk · c.last) (Cursor.ext_parts rfl rfl)
  unfold Scanner.pastBlank
  by_cases hw : Lexeme.blankWidth false c.cursor.ahead = 0
  · rw [if_neg, ← hstay hw]
    intro hk
    cases hl : Lexeme.next? c.afterOperand c.cursor.ahead with
    | none =>
      rw [scan_of_end (Lexeme.next?_eq_none_iff.1 hl)] at hk
      cases hk
    | some l =>
      rw [scan_of_lexeme hl] at hk
      exact (Lexeme.kind_eq_blank_iff hl).1 hk hw
  · rw [scan_of_lexeme (Lexeme.next?_of_blank _ hw)]
    rfl

/-- What becomes of the next token where a blank is skipped. -/
def blankUse (c : Scanner) : Use :=
  if c.scan.1.kind = .blank then .taken false else .returned

theorem moves_pastBlank : c.Moves (.given c.blankUse c.scan.1) c.pastBlank := by
  unfold blankUse Scanner.pastBlank
  split
  · exact .taken c false
  · exact .returned c

/-- Behind blanks there is none. -/
theorem kind_scan_pastBlank : c.pastBlank.scan.1.kind ≠ .blank := by
  intro hk
  cases hl : Lexeme.next? c.pastBlank.afterOperand c.pastBlank.cursor.ahead with
  | none =>
    rw [scan_of_end (Lexeme.next?_eq_none_iff.1 hl)] at hk
    cases hk
  | some l =>
    rw [scan_of_lexeme hl] at hk
    refine (Lexeme.kind_eq_blank_iff hl).1 hk ?_
    rw [ahead_pastBlank, Lexeme.blankWidth_pastBlank]

@[simp] theorem pastBlank_pastBlank : c.pastBlank.pastBlank = c.pastBlank :=
  pastBlank_of_ne_blank kind_scan_pastBlank

/-- Behind a blank if the next character is one; a comment is left. -/
def pastBlankCharacter (c : Scanner) : Scanner :=
  if c.cursor.ahead.head?.any isBlank then c.pastBlank else c

/-- If the next character is a blank on both sides or on neither, both skip one or neither does. -/
theorem pastBlankCharacter_rel {R : Scanner → Scanner → Prop}
    (hblank : c'.cursor.ahead.head?.any isBlank = c.cursor.ahead.head?.any isBlank)
    (hpast : R c.pastBlank c'.pastBlank) (h : R c c') :
    R c.pastBlankCharacter c'.pastBlankCharacter := by
  unfold pastBlankCharacter
  rw [hblank]
  split
  · exact hpast
  · exact h

@[simp] theorem pastBlank_pastBlankCharacter : c.pastBlankCharacter.pastBlank = c.pastBlank := by
  unfold pastBlankCharacter
  split
  · exact pastBlank_pastBlank
  · rfl

/-- Whether an operand ends behind a lexeme does not depend on where it stands. -/
theorem afterOperand_take {d : Scanner} (h : d.afterOperand = c.afterOperand) (l : Lexeme) :
    (d.take l).2.afterOperand = (c.take l).2.afterOperand := by
  by_cases hk : l.kind = .blank
  · simpa [Scanner.take, Scanner.afterOperand, hk] using h
  · simp [Scanner.take, Scanner.afterOperand, hk]

end Scanner

namespace TokenStream

/-- The stream that has just read a regular expression. -/
def justReadRegex (c : Scanner) (rest : List Char) : TokenStream :=
  ⟨(c.regex rest).2, none, some (c.regex rest).1⟩

theorem goesOn_justReadRegex (c : Scanner) (rest : List Char) :
    GoesOn (c.regex rest).2 (justReadRegex c rest) :=
  .clear _

theorem GoesOn.scanRegex_eq_regex {c : Scanner} {s : TokenStream} (h : GoesOn c s)
    {rest : List Char} (hr : c.cursor.ahead = '/' :: rest) :
    s.scanRegex = ((c.regex rest).1, justReadRegex c rest) :=
  h.scanRegex_eq hr

/-- A stream is where the scanner is from which it goes on. -/
theorem GoesOn.offset_eq {c : Scanner} {s : TokenStream} (h : GoesOn c s) : s.offset = c.offset := by
  cases h with
  | clear => rfl
  | putBack => exact Scanner.start_scan c

end TokenStream

end InfluxQL
