import InfluxQL.Proofs.Token.Scanning

/-!
# What a token stream reads next

A token that was put back makes no difference to what a stream reads. Two views of a stream that
forget it:

* `TokenStream.GoesOn c s`: the stream `s` reads on from the scanner `c`;
* `TokenStream.Before b text s`: the stream is before `text`, and `b` tells whether an operand ends
  right before it. The kinds and texts of the tokens to come depend on nothing else.

Each operation of the stream has one lemma in each view.
-/

namespace InfluxQL

namespace TokenKind

/-- The kinds of token that a text outside regular expressions is made of, blanks and parameters
aside. -/
def isOrdinary : TokenKind → Bool
  | eof | blank | regex | badRegex | param => false
  | _ => true

theorem isOrdinary_of_isReserved {k : TokenKind} (h : k.isReserved) : k.isOrdinary := by
  cases k <;> first | rfl | exact absurd h (by decide)

end TokenKind

namespace Lexeme

/-! ### Lexemes and blanks -/

/-- The text behind the blanks and comments at its front. -/
def pastBlank (text : List Char) : List Char :=
  text.drop (blankWidth false text)

theorem blankWidth_drop (inComment : Bool) (text : List Char) :
    blankWidth false (text.drop (blankWidth inComment text)) = 0 := by
  induction text generalizing inComment with
  | nil => simp [blankWidth]
  | cons c rest ih =>
    rw [blankWidth]
    split_ifs with hc hb hd
    · exact ih (c != '\n')
    · exact ih false
    · exact ih true
    · rw [List.drop_zero, blankWidth, if_neg (by simp), if_neg hb, if_neg hd]

/-- Behind blanks and comments there are none. -/
@[simp] theorem blankWidth_pastBlank (text : List Char) : blankWidth false (pastBlank text) = 0 :=
  blankWidth_drop false text

theorem pastBlank_eq_self {text : List Char} (h : blankWidth false text = 0) :
    pastBlank text = text := by
  rw [pastBlank, h, List.drop_zero]

/-- A text with blanks at the front reads as these. -/
theorem next?_of_blank (b : Bool) {text : List Char} (h : blankWidth false text ≠ 0) :
    next? b text = some (verbatim .blank (blankWidth false text) text) := by
  cases text with
  | nil => exact absurd rfl h
  | cons c rest => rw [next?, if_pos h]

theorem word_isOrdinary (text : List Char) : (word text).kind.isOrdinary := by
  simp only [word]
  split
  · next k hk => exact TokenKind.isOrdinary_of_isReserved (TokenKind.ofWord?_eq_some hk).1
  · rfl

theorem quoted_isOrdinary {kind : TokenKind} (h : kind.isOrdinary) (quote : Char)
    (rest : List Char) : (quoted kind quote rest).kind.isOrdinary := by
  unfold quoted
  split
  · exact h
  · rfl
  · rfl

theorem numeral?_isOrdinary {text : List Char} {k : TokenKind} {width : Nat}
    (h : numeral? text = some (k, width)) : k.isOrdinary := by
  simp only [numeral?] at h
  split_ifs at h <;> cases h <;> rfl

theorem number?_isOrdinary {signed : Bool} {text : List Char} {l : Lexeme}
    (h : number? signed text = some l) : l.kind.isOrdinary := by
  unfold number? at h
  split at h
  · cases h
  · split_ifs at h <;>
    · obtain ⟨⟨k, width⟩, hk, rfl⟩ := Option.map_eq_some_iff.1 h
      exact numeral?_isOrdinary hk

theorem ofSymbol?_isOrdinary {text : List Char} {k : TokenKind} {width : Nat}
    (h : TokenKind.ofSymbol? text = some (k, width)) : k.isOrdinary := by
  unfold TokenKind.ofSymbol? at h
  split at h <;> try (cases h <;> rfl)
  obtain ⟨k', hk, he⟩ := Option.map_eq_some_iff.1 h
  cases he
  split at hk <;> cases hk <;> rfl

theorem symbol_isOrdinary (text : List Char) : (symbol text).kind.isOrdinary := by
  unfold symbol
  split
  · next h => exact ofSymbol?_isOrdinary h
  · rfl

/-- What is no blank reads as a token of an ordinary kind, or else as a parameter. -/
theorem next?_cases {b : Bool} {text : List Char} {l : Lexeme} (h : next? b text = some l)
    (hb : blankWidth false text = 0) : l.kind.isOrdinary ∨
      ∃ rest, text = '$' :: rest ∧
        l = verbatim .param ((rest.takeWhile isWordPart).length + 1) text := by
  cases text with
  | nil => cases h
  | cons c rest =>
    rw [next?, if_neg (by simpa using hb)] at h
    split_ifs at h with hw hd hs hp <;> cases h
    · exact .inl (word_isOrdinary _)
    · exact .inl (quoted_isOrdinary rfl _ _)
    · exact .inl (quoted_isOrdinary rfl _ _)
    · exact .inr ⟨rest, by rw [hp], rfl⟩
    · cases hn : number? (!b) (c :: rest) with
      | none => exact .inl (symbol_isOrdinary _)
      | some l => exact .inl (number?_isOrdinary hn)

/-- A blank is read exactly where there are blanks or comments. -/
theorem kind_eq_blank_iff {b : Bool} {text : List Char} {l : Lexeme} (h : next? b text = some l) :
    l.kind = .blank ↔ blankWidth false text ≠ 0 := by
  constructor
  · intro hk hw
    rcases next?_cases h hw with ho | ⟨rest, -, rfl⟩
    · rw [hk] at ho
      cases ho
    · cases hk
  · intro hw
    rw [next?_of_blank b hw] at h
    cases h
    rfl

/-- Neither the end of the text nor a regular expression is ever the next lexeme. -/
theorem kind_ne_of_not_isOrdinary {b : Bool} {text : List Char} {l : Lexeme}
    (h : next? b text = some l) {k : TokenKind} (hk : k = .eof ∨ k = .regex) : l.kind ≠ k := by
  rintro rfl
  by_cases hw : blankWidth false text = 0
  · rcases next?_cases h hw with ho | ⟨rest, -, rfl⟩
    · rcases hk with hk | hk <;> rw [hk] at ho <;> cases ho
    · rcases hk with hk | hk <;> cases hk
  · rw [(kind_eq_blank_iff h).2 hw] at hk
    rcases hk with hk | hk <;> cases hk

theorem kind_ne_eof {b : Bool} {text : List Char} {l : Lexeme} (h : next? b text = some l) :
    l.kind ≠ .eof :=
  kind_ne_of_not_isOrdinary h (.inl rfl)

theorem kind_ne_regex {b : Bool} {text : List Char} {l : Lexeme} (h : next? b text = some l) :
    l.kind ≠ .regex :=
  kind_ne_of_not_isOrdinary h (.inr rfl)

theorem regex_kind_ne_blank (rest : List Char) : (regex rest).kind ≠ .blank := by
  unfold regex
  split <;> simp

/-- A text that is not empty has a first lexeme. -/
theorem next?_eq_none_iff {b : Bool} {text : List Char} : next? b text = none ↔ text = [] := by
  cases text with
  | nil => simp [next?]
  | cons c rest =>
    rw [next?]
    split_ifs <;> simp

/-- The kind of the token at the front of a text. -/
def nextKind (b : Bool) (text : List Char) : TokenKind :=
  match next? b text with
  | some l => l.kind
  | none => .eof

theorem nextKind_of_lexeme {b : Bool} {text : List Char} {l : Lexeme}
    (h : next? b text = some l) : nextKind b text = l.kind := by
  rw [nextKind, h]

/-- Nothing is skipped before a token that is no blank. -/
theorem pastBlank_of_nextKind {b : Bool} {text : List Char} (h : nextKind b text ≠ .blank) :
    pastBlank text = text := by
  refine pastBlank_eq_self (Decidable.byContradiction fun hw => h ?_)
  rw [nextKind_of_lexeme (next?_of_blank b hw)]
  rfl

@[simp] theorem pastBlank_pastBlank (text : List Char) :
    pastBlank (pastBlank text) = pastBlank text :=
  pastBlank_eq_self (blankWidth_pastBlank text)

theorem pastBlank_space (text : List Char) : pastBlank (' ' :: text) = pastBlank text := rfl

/-- Does an operand end right behind the lexeme? A blank changes nothing. -/
def endsOperand (b : Bool) (l : Lexeme) : Bool :=
  if l.kind = .blank then b else l.kind.endsOperand

end Lexeme

namespace Scanner

/-! ### What a scanner reads -/

theorem scan_of_lexeme {c : Scanner} {l : Lexeme}
    (h : Lexeme.next? c.afterOperand c.cursor.ahead = some l) : c.scan = c.take l := by
  rw [scan_eq, h]

theorem scan_of_end {c : Scanner} (h : c.cursor.ahead = []) : c.scan = (c.eof, c) := by
  rw [scan_eq, h]
  rfl

/-- Reading a token leaves the text as it is. -/
theorem source_scan (c : Scanner) : c.scan.2.cursor.source = c.cursor.source := by
  rw [scan_eq]
  split
  · rfl
  · exact Cursor.source_advance ..

/-- A token starts where the scanner is. -/
theorem start_scan (c : Scanner) : c.scan.1.span.start = c.cursor.offset := by
  rw [scan_eq]
  split <;> rfl

theorem kind_scan_eq_eof {c : Scanner} : c.scan.1.kind = .eof ↔ c.cursor.ahead = [] := by
  constructor
  · intro h
    cases hl : Lexeme.next? c.afterOperand c.cursor.ahead with
    | none => exact Lexeme.next?_eq_none_iff.1 hl
    | some l =>
      rw [scan_of_lexeme hl] at h
      exact absurd h (Lexeme.kind_ne_eof hl)
  · intro h
    rw [scan_of_end h]
    rfl

/-- Outside regular expressions nothing is read as one. -/
theorem kind_scan_ne_regex (c : Scanner) : c.scan.1.kind ≠ .regex := by
  cases hl : Lexeme.next? c.afterOperand c.cursor.ahead with
  | none =>
    rw [scan_of_end (Lexeme.next?_eq_none_iff.1 hl)]
    simp [eof]
  | some l =>
    rw [scan_of_lexeme hl]
    exact Lexeme.kind_ne_regex hl

/-- The scanner behind blanks and comments. -/
def pastBlank (c : Scanner) : Scanner :=
  if c.scan.1.kind = .blank then c.scan.2 else c

theorem ahead_pastBlank (c : Scanner) :
    c.pastBlank.cursor.ahead = Lexeme.pastBlank c.cursor.ahead := by
  unfold pastBlank
  cases hl : Lexeme.next? c.afterOperand c.cursor.ahead with
  | none =>
    have ha := Lexeme.next?_eq_none_iff.1 hl
    simp [scan_of_end ha, eof, ha, Lexeme.pastBlank]
  | some l =>
    rw [scan_of_lexeme hl]
    by_cases hw : Lexeme.blankWidth false c.cursor.ahead = 0
    · have hk : l.kind ≠ .blank := fun hk => (Lexeme.kind_eq_blank_iff hl).1 hk hw
      rw [if_neg (by simpa [take] using hk), Lexeme.pastBlank_eq_self hw]
    · rw [Lexeme.next?_of_blank _ hw] at hl
      cases hl
      simp [take, Lexeme.verbatim, Cursor.advance, Lexeme.pastBlank]

@[simp] theorem afterOperand_pastBlank (c : Scanner) :
    c.pastBlank.afterOperand = c.afterOperand := by
  unfold pastBlank
  split
  · next hk =>
    cases hl : Lexeme.next? c.afterOperand c.cursor.ahead with
    | none => rw [scan_of_end (Lexeme.next?_eq_none_iff.1 hl)]
    | some l =>
      rw [scan_of_lexeme hl] at hk ⊢
      simp only [take] at hk
      simp [take, afterOperand, hk]
  · rfl

end Scanner

namespace TokenStream

/-- What a stream holds when a token has been read. -/
theorem scan_snd (s : TokenStream) : s.scan.2 = ⟨s.scan.2.scanner, none, some s.scan.1⟩ := by
  unfold scan
  split <;> rfl

/-! ### The scanner from which a stream goes on -/

/-- The stream reads on from a scanner: nothing is put back, or the token that comes next is. -/
inductive GoesOn (c : Scanner) : TokenStream → Prop
  | clear (prev : Option Token) : GoesOn c ⟨c, none, prev⟩
  | putBack : GoesOn c ⟨c.scan.2, some c.scan.1, none⟩

variable {c : Scanner} {s : TokenStream}

/-- The stream that has just read the next token of a scanner. -/
def justRead (c : Scanner) : TokenStream :=
  ⟨c.scan.2, none, some c.scan.1⟩

theorem goesOn_justRead (c : Scanner) : GoesOn c.scan.2 (justRead c) :=
  .clear _

theorem goesOn_unscan_justRead (c : Scanner) : GoesOn c (justRead c).unscan :=
  .putBack

theorem GoesOn.scan_eq (h : GoesOn c s) : s.scan = (c.scan.1, justRead c) := by
  cases h <;> rfl

theorem GoesOn.scanSignificant_eq (h : GoesOn c s) :
    s.scanSignificant = (c.pastBlank.scan.1, justRead c.pastBlank) := by
  unfold scanSignificant Scanner.pastBlank
  rw [h.scan_eq]
  dsimp only
  split_ifs with hk
  · exact (goesOn_justRead c).scan_eq
  · rfl

theorem GoesOn.skipBlank (h : GoesOn c s) : GoesOn c.pastBlank s.skipBlank := by
  unfold TokenStream.skipBlank Scanner.pastBlank
  rw [h.scan_eq]
  dsimp only
  split_ifs
  · exact goesOn_justRead c
  · exact goesOn_unscan_justRead c

theorem GoesOn.peek?_eq (h : GoesOn c s) : s.peek? = c.cursor.ahead.head? := by
  cases h with
  | clear prev => rfl
  | putBack =>
    unfold peek?
    dsimp only
    split_ifs with hk
    · rw [Scanner.kind_scan_eq_eof.1 hk]
      rfl
    · rw [Scanner.start_scan, Cursor.seek_offset (Scanner.source_scan c)]
      rfl

/-- A token that was put back is read anew where a regular expression is wanted. -/
theorem GoesOn.scanRegex_eq (h : GoesOn c s) {rest : List Char}
    (hr : c.cursor.ahead = '/' :: rest) :
    let r := c.take (Lexeme.regex rest)
    s.scanRegex = (r.1, ⟨r.2, none, some r.1⟩) := by
  cases h with
  | clear prev => simp [scanRegex, Scanner.scanRegex_eq, hr]
  | putBack =>
    simp only [scanRegex, Scanner.rewind, Scanner.start_scan,
      Cursor.seek_offset (Scanner.source_scan c), Scanner.scanRegex_eq, hr]
    simp [Scanner.take, Lexeme.regex_kind_ne_blank]

/-! ### The text before which a stream is -/

/-- The stream is before `text`; `b` tells whether an operand ends right before it. -/
def Before (b : Bool) (text : List Char) (s : TokenStream) : Prop :=
  ∃ c : Scanner, GoesOn c s ∧ c.afterOperand = b ∧ c.cursor.ahead = text

/-- The stream at the beginning of a text. -/
theorem before_start (text : List Char) : Before false text (start text) :=
  ⟨Scanner.start text, .clear none, rfl, rfl⟩

variable {b : Bool} {text : List Char}

/-- Reading a token, which can be put back again. -/
theorem Before.scan (h : Before b text s) {l : Lexeme} (hl : Lexeme.next? b text = some l) :
    ∃ t s', s.scan = (t, s') ∧ t.kind = l.kind ∧ t.lit = String.ofList l.lit ∧
      Before (l.endsOperand b) (text.drop l.width) s' := by
  obtain ⟨c, hc, rfl, rfl⟩ := h
  refine ⟨_, _, hc.scan_eq, ?_, ?_, _, goesOn_justRead c, ?_, ?_⟩ <;>
    rw [Scanner.scan_of_lexeme hl]
  · rfl
  · rfl
  · unfold Lexeme.endsOperand
    split_ifs with hk <;> simp [Scanner.take, Scanner.afterOperand, hk]
  · rfl

/-- Reading the end of the text. -/
theorem Before.scan_end (h : Before b [] s) :
    ∃ t s', s.scan = (t, s') ∧ t.kind = .eof ∧ Before b [] s' := by
  obtain ⟨c, hc, rfl, hr⟩ := h
  refine ⟨_, _, hc.scan_eq, Scanner.kind_scan_eq_eof.2 hr, c, ?_, rfl, hr⟩
  rw [justRead, Scanner.scan_of_end hr]
  exact .clear _

/-- Looking at the next token, or the end of the text, and putting it back. -/
theorem Before.scan_unscan (h : Before b text s) :
    ∃ t s', s.scan = (t, s') ∧ t.kind = Lexeme.nextKind b text ∧ Before b text s'.unscan := by
  obtain ⟨c, hc, rfl, rfl⟩ := h
  refine ⟨_, _, hc.scan_eq, ?_, c, goesOn_unscan_justRead c, rfl, rfl⟩
  unfold Lexeme.nextKind
  cases hl : Lexeme.next? c.afterOperand c.cursor.ahead with
  | none => rw [Scanner.scan_of_end (Lexeme.next?_eq_none_iff.1 hl)]; rfl
  | some l => rw [Scanner.scan_of_lexeme hl]; rfl

/-- Skipping blanks leads to what is behind them, and from there the next token is read. -/
theorem Before.pastBlank (h : Before b text s) :
    Before b (Lexeme.pastBlank text) s.skipBlank ∧
      ∃ s', Before b (Lexeme.pastBlank text) s' ∧ s.scanSignificant = s'.scan := by
  obtain ⟨c, hc, rfl, rfl⟩ := h
  have hb := c.afterOperand_pastBlank
  have ha := c.ahead_pastBlank
  exact ⟨⟨_, hc.skipBlank, hb, ha⟩, _, ⟨_, .clear none, hb, ha⟩,
    hc.scanSignificant_eq.trans (GoesOn.clear none).scan_eq.symm⟩

/-- The next character. -/
theorem Before.peek?_eq (h : Before b text s) : s.peek? = text.head? := by
  obtain ⟨c, hc, -, rfl⟩ := h
  exact hc.peek?_eq

/-- Reading a regular expression. -/
theorem Before.scanRegex {rest : List Char} (h : Before b ('/' :: rest) s) :
    ∃ t s', s.scanRegex = (t, s') ∧ t.kind = (Lexeme.regex rest).kind ∧
      t.lit = String.ofList (Lexeme.regex rest).lit ∧
      Before (Lexeme.regex rest).kind.endsOperand
        (('/' :: rest).drop (Lexeme.regex rest).width) s' := by
  obtain ⟨c, hc, -, hr⟩ := h
  have hk := Lexeme.regex_kind_ne_blank rest
  refine ⟨_, _, hc.scanRegex_eq hr, rfl, rfl, _, .clear _, ?_, ?_⟩
  · simp [Scanner.take, Scanner.afterOperand, hk]
  · simp [Scanner.take, Cursor.advance, hr]

end TokenStream

end InfluxQL
