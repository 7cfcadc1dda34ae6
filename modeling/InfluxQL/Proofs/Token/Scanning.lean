import InfluxQL.Proofs.Token.Lexeme
import InfluxQL.Token.Stream
import Mathlib

/-!
# Scanning by characters

A scanner moves on by the bytes that it has counted. The same is said here with lexemes, which count
characters: what is read are the lexemes of the text, and the bytes counted are those of their
characters.

* `Scanner.take`: a scanner takes a lexeme from the front of the text;
* `Scanner.skipTrivia_eq`, `Scanner.reading_eq`: what the bytes counted are;
* `Scanner.scan_eq`, `Scanner.scanRegex_eq`: reading a token takes a lexeme.
-/

namespace InfluxQL

variable {c : Char} {rest text : List Char}

theorem take_length_takeWhile (p : Char → Bool) (text : List Char) :
    text.take (text.takeWhile p).length = text.takeWhile p :=
  (List.prefix_iff_eq_take.1 (List.takeWhile_prefix p)).symm

theorem drop_length_takeWhile (p : Char → Bool) (text : List Char) :
    text.drop (text.takeWhile p).length = text.dropWhile p := by
  have h : (text.takeWhile p ++ text.dropWhile p).drop (text.takeWhile p).length =
      text.dropWhile p := List.drop_left
  rwa [List.takeWhile_append_dropWhile] at h

namespace Cursor

/-- Going on by the bytes of some characters leads behind these characters. -/
theorem seek_offset_add (c : Cursor) (n : Nat) :
    c.seek (c.offset + byteSize (c.ahead.take n)) = c.advance n :=
  seek_offset (c.source_advance n).symm

theorem advance_zero (c : Cursor) : c.advance 0 = c :=
  ext_parts rfl rfl

theorem advance_advance (c : Cursor) (m n : Nat) :
    (c.advance m).advance n = c.advance (m + n) := by
  apply ext_parts
  · simp [advance, List.take_add]
  · simp [advance]

end Cursor

namespace Lexeme

/-! ### Blanks and comments -/

theorem blankWidth_eq_blanks (text : List Char) : blankWidth false text =
    (text.takeWhile isBlank).length + blankWidth false (text.dropWhile isBlank) := by
  induction text with
  | nil => rfl
  | cons c rest ih =>
    by_cases hc : isBlank c
    · rw [List.takeWhile_cons_of_pos hc, List.dropWhile_cons_of_pos hc, blankWidth]
      simp only [hc, Bool.false_eq_true, if_false, if_true, List.length_cons]
      omega
    · rw [List.takeWhile_cons_of_neg hc, List.dropWhile_cons_of_neg hc, List.length_nil,
        Nat.zero_add]

theorem blankWidth_eq_comment (text : List Char) : blankWidth true text =
    (text.takeWhile (· != '\n')).length + blankWidth false (text.dropWhile (· != '\n')) := by
  induction text with
  | nil => rfl
  | cons c rest ih =>
    by_cases hc : c = '\n'
    · subst hc
      simp [blankWidth, isBlank]
    · have hn : (c != '\n') = true := by simpa using hc
      simp [blankWidth, hn, ih, Nat.add_right_comm]

/-- Two dashes begin a comment. -/
theorem blankWidth_dashes (rest : List Char) :
    blankWidth false ('-' :: '-' :: rest) = blankWidth true ('-' :: '-' :: rest) := rfl

end Lexeme

namespace RawToken

open Lexeme

theorem next_blanks (h : isBlank c) :
    next c rest = (blanks, byteSize ((c :: rest).takeWhile isBlank)) := by
  rw [next, if_pos h]

theorem next_comment (rest : List Char) :
    next '-' ('-' :: rest) = (comment, byteSize (('-' :: '-' :: rest).takeWhile (· != '\n'))) := rfl

/-- Where there is neither a blank nor a comment, the raw token is none. -/
theorem isTrivia_next (hb : isBlank c = false) (hc : ¬(c = '-' ∧ rest.head? = some '-')) :
    (next c rest).1.isTrivia = false := by
  rw [next]
  simp only [hb, hc, Bool.false_eq_true, if_false]
  split_ifs <;> first | rfl | (split <;> rfl)

/-- Where there is a blank or a comment, the raw token is one. -/
theorem isTrivia_next_of_blankWidth (h : blankWidth false (c :: rest) ≠ 0) :
    (next c rest).1.isTrivia := by
  rw [blankWidth, if_neg (by simp)] at h
  split_ifs at h with hb hc
  · rw [next_blanks hb]
    rfl
  · rw [next, if_neg (by simpa using hb), if_pos hc]
    rfl
  · exact absurd rfl h

/-! ### Words, quoted texts and parameters -/

theorem next_word (hb : isBlank c = false) (hc : ¬(c = '-' ∧ rest.head? = some '-'))
    (hw : isWordStart c) :
    next c rest = (word, byteSize ((c :: rest).takeWhile isWordPart)) := by
  rw [next]
  simp only [hb, hc, hw, Bool.false_eq_true, if_false, if_true]

theorem next_doubleQuote (rest : List Char) :
    next doubleQuote rest = (quotedName (Quoted.decode doubleQuote rest).2,
      1 + (Quoted.decode doubleQuote rest).1) := rfl

theorem next_singleQuote (rest : List Char) :
    next singleQuote rest = (string (Quoted.decode singleQuote rest).2,
      1 + (Quoted.decode singleQuote rest).1) := rfl

theorem next_dollar (rest : List Char) :
    next '$' rest =
      (param, byteSize (('$' :: rest).take ((rest.takeWhile isWordPart).length + 1))) := by
  rw [List.take_succ_cons, take_length_takeWhile]
  rfl

/-! ### Numbers -/

theorem digitWidth_ne_zero_iff {text : List Char} :
    digitWidth text ≠ 0 ↔ text.head?.any Char.isDigit = true := by
  cases text with
  | nil => simp [digitWidth]
  | cons c text => cases hc : c.isDigit <;> simp [digitWidth, hc]

/-- A character is no digit if it is another one that is none. -/
theorem ne_of_isDigit {d : Char} (h : c.isDigit) (hd : d.isDigit = false) : c ≠ d := by
  rintro rfl
  rw [h] at hd
  cases hd

theorem not_isBlank_of_isDigit (h : c.isDigit) : isBlank c = false := by
  have hs : c ≠ ' ' := ne_of_isDigit h rfl
  have ht : c ≠ '\t' := ne_of_isDigit h rfl
  have hr : c ≠ '\r' := ne_of_isDigit h rfl
  have hn : c ≠ '\n' := ne_of_isDigit h rfl
  simp [isBlank, hs, ht, hr, hn]

/-- Digits are one raw token, together with the fraction behind them. -/
theorem next_of_isDigit (h : c.isDigit) (rest : List Char) :
    let size := fractionSize ((c :: rest).dropWhile Char.isDigit)
    next c rest =
      (numeral (size != 0), byteSize ((c :: rest).takeWhile Char.isDigit) + size) := by
  have hd : c ≠ '-' := ne_of_isDigit h rfl
  have hq : c ≠ doubleQuote := ne_of_isDigit h rfl
  have hs : c ≠ singleQuote := ne_of_isDigit h rfl
  have hp : c ≠ '$' := ne_of_isDigit h rfl
  rw [next]
  simp only [not_isBlank_of_isDigit h, not_isWordStart_of_isDigit h, hd, hq, hs, hp, h, false_and,
    Bool.false_eq_true, if_false, if_true]

/-- The bytes of a fraction are those of its characters. -/
theorem fractionSize_of_digits (h : digitWidth rest ≠ 0) :
    fractionSize ('.' :: rest) = byteSize (('.' :: rest).take (1 + digitWidth rest)) := by
  rw [fractionSize, if_pos (digitWidth_ne_zero_iff.1 h), Nat.add_comm 1 (digitWidth rest),
    List.take_succ_cons, byteSize_cons, digitWidth, take_length_takeWhile]
  rfl

theorem fractionSize_eq_zero (h : ∀ rest, text = '.' :: rest → digitWidth rest = 0) :
    fractionSize text = 0 := by
  unfold fractionSize
  split
  · next rest => exact if_neg fun hd => digitWidth_ne_zero_iff.2 hd (h rest rfl)
  · rfl

/-- A point and digits are one raw token. -/
theorem next_point (h : digitWidth rest ≠ 0) :
    next '.' rest = (fraction, byteSize (('.' :: rest).take (1 + digitWidth rest))) := by
  have hd := digitWidth_ne_zero_iff.1 h
  rw [Nat.add_comm 1 (digitWidth rest), List.take_succ_cons, byteSize_cons, digitWidth,
    take_length_takeWhile, next]
  simp only [startsNumber, hd]
  rfl

/-- A number without a sign is one raw token. -/
theorem next_of_numeral {kind : TokenKind} {width : Nat}
    (h : numeral? (c :: rest) = some (kind, width)) :
    ∃ raw, next c rest = (raw, byteSize ((c :: rest).take width)) ∧ startsNumber (c :: rest) ∧
      ((∃ f, raw = .numeral f ∧ kind = if f then .number else .integer) ∨
        raw = .fraction ∧ kind = .number) := by
  have htake := take_length_takeWhile Char.isDigit (c :: rest)
  have hdrop := drop_length_takeWhile Char.isDigit (c :: rest)
  rw [← digitWidth] at htake hdrop
  simp only [numeral?] at h
  by_cases hc : c.isDigit
  · -- Digits, with a fraction or without one.
    have hstarts : startsNumber (c :: rest) := by simp [startsNumber, hc]
    have hnext := next_of_isDigit hc rest
    rw [← htake, ← hdrop] at hnext
    generalize hb : (c :: rest).drop (digitWidth (c :: rest)) = behind at h hnext
    split_ifs at h with hf hn
    · obtain ⟨rest', rfl, hd⟩ : ∃ rest', behind = '.' :: rest' ∧ digitWidth rest' ≠ 0 := by
        split at hf
        · exact ⟨_, rfl, hf⟩
        · exact absurd rfl hf
      cases h
      have hsize : fractionSize ('.' :: rest') ≠ 0 := by
        rw [fractionSize_of_digits hd, Nat.add_comm, List.take_succ_cons, byteSize_cons]
        exact Nat.ne_of_gt (Nat.add_pos_left (Char.utf8Size_pos _) _)
      refine ⟨_, ?_, hstarts, .inl ⟨true, rfl, rfl⟩⟩
      rw [hnext, Nat.add_assoc, List.take_add, byteSize_append, hb]
      exact Prod.ext (congrArg numeral (bne_iff_ne.2 hsize))
        (congrArg (_ + ·) (fractionSize_of_digits hd))
    · cases h
      have hsize : fractionSize behind = 0 := fractionSize_eq_zero (by
        rintro rest' rfl
        exact not_not.1 hf)
      refine ⟨_, ?_, hstarts, .inl ⟨false, rfl, rfl⟩⟩
      rw [hnext]
      simp [hsize]
  · -- A point and digits.
    have hzero : digitWidth (c :: rest) = 0 := by simp [digitWidth, hc]
    rw [hzero, List.drop_zero] at h
    split_ifs at h with hf hn
    · split at hf
      · next rest' he =>
        cases he
        cases h
        refine ⟨_, ?_, ?_, .inr ⟨rfl, rfl⟩⟩
        · rw [next_point hf, Nat.zero_add]
          rfl
        · have hd := digitWidth_ne_zero_iff.1 hf
          simp [startsNumber, hd]
      · exact absurd rfl hf
    · exact absurd rfl hn

/-- Where no number starts, none is read. -/
theorem numeral?_of_not_startsNumber (h : ¬startsNumber text) : numeral? text = none := by
  cases hn : numeral? text with
  | none => rfl
  | some n =>
    cases text with
    | nil => cases hn
    | cons c rest =>
      obtain ⟨kind, width⟩ := n
      obtain ⟨-, -, hs, -⟩ := next_of_numeral hn
      exact absurd hs h

/-- Where a number starts, one is read. -/
theorem exists_numeral?_of_startsNumber (h : startsNumber text) :
    ∃ kind width, numeral? text = some (kind, width) := by
  cases text with
  | nil => cases h
  | cons c rest =>
    simp only [numeral?]
    split_ifs with hf hn
    · exact ⟨_, _, rfl⟩
    · exact ⟨_, _, rfl⟩
    · -- Neither are there digits at the front, nor behind a point.
      have hc : c.isDigit = false := by simpa [digitWidth_ne_zero_iff] using hn
      obtain ⟨rfl, hd⟩ : c = '.' ∧ rest.head?.any Char.isDigit := by
        simpa [startsNumber, hc] using h
      rw [not_not.1 hn, List.drop_zero] at hf
      exact absurd (digitWidth_ne_zero_iff.2 hd) hf

/-! ### Symbols -/

/-- The characters of a symbol have one byte each. -/
theorem byteSize_symbol {kind : TokenKind} {width : Nat}
    (h : TokenKind.ofSymbol? text = some (kind, width)) : byteSize (text.take width) = width := by
  unfold TokenKind.ofSymbol? at h
  split at h
  all_goals try (cases h <;> rfl)
  obtain ⟨k, hk, he⟩ := Option.map_eq_some_iff.1 h
  cases he
  split at hk <;> cases hk <;> rfl

/-- Only a sign stands for an addition or a subtraction. -/
theorem sign_of_symbol {op : Operator} {width : Nat}
    (h : TokenKind.ofSymbol? (c :: rest) = some (.op op, width)) (ho : op = .add ∨ op = .sub) :
    c = '+' ∨ c = '-' := by
  unfold TokenKind.ofSymbol? at h
  split at h
  all_goals try (cases h <;> rcases ho with ho | ho <;> cases ho)
  next he =>
    cases he
    obtain ⟨k, hk, he⟩ := Option.map_eq_some_iff.1 h
    cases he
    split at hk <;> cases hk <;> first | exact .inl rfl | exact .inr rfl | exact absurd ho (by decide)

/-- What is neither a blank nor a comment, and begins neither a word, nor a quoted text, nor a parameter,
nor a number, is a symbol or an illegal character. -/
theorem next_symbol (hb : isBlank c = false) (hc : ¬(c = '-' ∧ rest.head? = some '-'))
    (hw : ¬isWordStart c) (hd : c ≠ doubleQuote) (hs : c ≠ singleQuote) (hp : c ≠ '$')
    (hn : ¬startsNumber (c :: rest)) :
    next c rest = match TokenKind.ofSymbol? (c :: rest) with
      | some (kind, size) => (symbol kind, size)
      | none => (illegal, c.utf8Size) := by
  have hdigit : c.isDigit = false := by
    cases h : c.isDigit with
    | false => rfl
    | true => exact absurd (by simp [startsNumber, h]) hn
  rw [next]
  cases TokenKind.ofSymbol? (c :: rest) <;>
    simp only [hb, hc, hw, hd, hs, hp, hn, hdigit, Bool.false_eq_true, if_false]

end RawToken

namespace Scanner

open Lexeme

/-! ### Skipping blanks and comments -/

/-- Going over a raw token that takes the characters for which `p` holds. -/
theorem seek_takeWhile (p : Char → Bool) (c : Cursor) :
    c.seek (c.offset + byteSize (c.ahead.takeWhile p)) = c.advance (c.ahead.takeWhile p).length := by
  rw [← c.seek_offset_add, take_length_takeWhile]

/-- Blanks and comments are skipped one raw token after the other. -/
theorem skipTrivia_eq {n : Nat} {c : Cursor} (h : c.ahead.length ≤ n) :
    skipTrivia n c = c.advance (blankWidth false c.ahead) := by
  induction n generalizing c with
  | zero =>
    have ha : c.ahead = [] := List.length_eq_zero_iff.1 (by omega)
    rw [ha, skipTrivia]
    exact c.advance_zero.symm
  | succ n ih =>
    -- A raw token of the characters for which `p` holds is skipped, and then the rest.
    have hskip : ∀ (p : Char → Bool) (x : Char) (rest : List Char), c.ahead = x :: rest → p x →
        skipTrivia n (c.seek (c.offset + byteSize (c.ahead.takeWhile p))) =
          c.advance ((c.ahead.takeWhile p).length + blankWidth false (c.ahead.dropWhile p)) := by
      intro p x rest ha hp
      have hdrop : (c.advance (c.ahead.takeWhile p).length).ahead = c.ahead.dropWhile p :=
        drop_length_takeWhile p c.ahead
      rw [seek_takeWhile, ih, hdrop, Cursor.advance_advance]
      rw [hdrop, ha, List.dropWhile_cons_of_pos hp]
      have := (rest.dropWhile_sublist p).length_le
      rw [ha, List.length_cons] at h
      omega
    cases ha : c.ahead with
    | nil =>
      rw [skipTrivia, ha]
      exact c.advance_zero.symm
    | cons x rest =>
      rw [skipTrivia, ha, RawToken.next?]
      dsimp only
      by_cases hb : isBlank x
      · have := hskip isBlank x rest ha hb
        rw [ha] at this
        rw [RawToken.next_blanks hb, blankWidth_eq_blanks, ← this]
        rfl
      by_cases hc : x = '-' ∧ rest.head? = some '-'
      · obtain ⟨rfl, hd⟩ := hc
        obtain ⟨rest, rfl⟩ := List.head?_eq_some_iff.1 hd
        have := hskip (· != '\n') '-' _ ha rfl
        rw [ha] at this
        rw [RawToken.next_comment, blankWidth_dashes, blankWidth_eq_comment, ← this]
        rfl
      · have hzero : blankWidth false (x :: rest) = 0 := by
          rw [blankWidth, if_neg (by simp), if_neg hb, if_neg hc]
        rw [RawToken.isTrivia_next (by simpa using hb) hc, hzero, c.advance_zero]
        rfl

/-! ### Readings -/

variable {s : Scanner}

/-- Takes a lexeme from the front of the text. -/
def take (s : Scanner) (l : Lexeme) : Token × Scanner :=
  let cursor := s.cursor.advance l.width
  (⟨l.kind, String.ofList l.lit, s.cursor.pos, ⟨s.cursor.offset, cursor.offset⟩⟩,
    ⟨cursor, if l.kind = .blank then s.last else some l.kind⟩)

/-- What is read where the lexeme is at the front. -/
def Reading.ofLexeme (s : Scanner) (l : Lexeme) : Reading :=
  ⟨l.kind, l.lit, s.offset + byteSize (s.cursor.ahead.take l.width)⟩

theorem emit_ofLexeme (s : Scanner) (l : Lexeme) : s.emit (.ofLexeme s l) = s.take l := by
  simp only [emit, Reading.ofLexeme, offset, Cursor.seek_offset_add]
  rfl

theorem textUpTo_take (s : Scanner) (n : Nat) :
    s.textUpTo (s.offset + byteSize (s.cursor.ahead.take n)) = s.cursor.ahead.take n :=
  s.cursor.slice_ahead n

/-- The text of what was read is the source text itself. -/
theorem reading_verbatim (s : Scanner) (kind : TokenKind) (n : Nat) :
    let stop := s.offset + byteSize (s.cursor.ahead.take n)
    (⟨kind, s.textUpTo stop, stop⟩ : Reading) =
      .ofLexeme s (verbatim kind n s.cursor.ahead) := by
  simp only [textUpTo_take]
  rfl

/-- A quoted text is read as a lexeme. -/
theorem reading_quoted {quote : Char} (hone : quote.utf8Size = 1)
    (ha : s.cursor.ahead = quote :: rest) (kind : TokenKind) :
    Reading.quoted kind (Quoted.decode quote rest).2
        (s.offset + (1 + (Quoted.decode quote rest).1)) =
      .ofLexeme s (quoted kind quote rest) := by
  rw [Quoted.decode_eq hone, quoted]
  rcases Quoted.read quote rest with ⟨body, width⟩
  cases body <;> simp [Reading.quoted, Reading.ofLexeme, ha, hone]

/-- A regular expression is read as a lexeme. -/
theorem reading_regex (ha : s.cursor.ahead = '/' :: rest) :
    Reading.regex (RegexBody.decode rest).2 (s.offset + 1 + (RegexBody.decode rest).1) =
      .ofLexeme s (regex rest) := by
  have hone : '/'.utf8Size = 1 := rfl
  rw [RegexBody.decode_eq, regex]
  rcases RegexBody.read rest with ⟨body, width⟩
  cases body <;> simp [Reading.regex, Reading.ofLexeme, ha, hone, Nat.add_assoc]

/-- Blanks and comments are read as one lexeme. -/
theorem reading_trivia {raw : RawToken} {size : Nat}
    (hr : RawToken.next? s.cursor.ahead = some (raw, size)) (ht : raw.isTrivia) :
    s.reading raw (s.offset + size) =
      .ofLexeme s (verbatim .blank (blankWidth false s.cursor.ahead) s.cursor.ahead) := by
  have hlength : (s.cursor.seek (s.offset + size)).ahead.length ≤ s.cursor.ahead.length := by
    rw [Cursor.seek, if_pos (show s.cursor.offset ≤ s.offset + size from Nat.le_add_right _ _)]
    exact (List.drop_sublist _ _).length_le
  -- The raw token is the first one of those that are skipped.
  have hskip : skipTrivia (s.cursor.seek (s.offset + size)).ahead.length
      (s.cursor.seek (s.offset + size)) = s.cursor.advance (blankWidth false s.cursor.ahead) := by
    rw [skipTrivia_eq le_rfl, ← skipTrivia_eq hlength, ← skipTrivia_eq (Nat.le_succ _), skipTrivia,
      hr]
    simp only [ht, if_true]
    rfl
  have hverbatim := s.reading_verbatim .blank (blankWidth false s.cursor.ahead)
  cases raw with
  | blanks | comment =>
    rw [← hverbatim, reading]
    simp only [hskip, Cursor.offset_advance]
    rfl
  | word | quotedName | string | numeral | fraction | param | symbol | illegal => cases ht

/-- A sign is read as a lexeme, with the number behind it or without. -/
theorem reading_sign {op : Operator} {size : Nat} (ha : s.cursor.ahead = c :: rest)
    (hc : c = '+' ∨ c = '-') (hs : TokenKind.ofSymbol? (c :: rest) = some (.op op, size)) :
    s.signOrOperator (.op op) (s.offset + size) =
      .ofLexeme s ((number? (!s.afterOperand) (c :: rest)).getD (Lexeme.symbol (c :: rest))) := by
  have hsize : size = 1 := by
    rcases hc with rfl | rfl <;> cases hs <;> rfl
  subst hsize
  have hone : c.utf8Size = 1 := by
    rcases hc with rfl | rfl <;> rfl
  have hstop : s.offset + 1 = s.offset + byteSize (s.cursor.ahead.take 1) := by
    rw [ha, List.take_succ_cons, byteSize_cons, hone]
    rfl
  have hbehind : (s.cursor.seek (s.offset + 1)).ahead = rest := by
    rw [hstop, offset, Cursor.seek_offset_add]
    simp [Cursor.advance, ha]
  have hnone : numeral? (c :: rest) = none := by
    refine RawToken.numeral?_of_not_startsNumber ?_
    rcases hc with rfl | rfl <;> exact Bool.false_ne_true
  rw [signOrOperator]
  simp only [hbehind]
  split_ifs with hn
  · obtain ⟨hn, ho⟩ := Bool.and_eq_true_iff.1 hn
    obtain ⟨kind, width, hk⟩ := RawToken.exists_numeral?_of_startsNumber hn
    have hl : number? (!s.afterOperand) (c :: rest) =
        some (verbatim kind (width + 1) s.cursor.ahead) := by
      rw [number?, if_pos ⟨ho, hc⟩, hk, ha]
      rfl
    have hwidth : s.offset + 1 + byteSize (rest.take width) =
        s.offset + byteSize (s.cursor.ahead.take (width + 1)) := by
      rw [ha, List.take_succ_cons, byteSize_cons, hone, Nat.add_assoc]
    cases rest with
    | nil => cases hn
    | cons d rest =>
      obtain ⟨raw, hnext, -, hraw⟩ := RawToken.next_of_numeral hk
      rw [hl, RawToken.next?, hnext]
      simp only [hwidth]
      rw [Option.getD_some, ← reading_verbatim]
      rcases hraw with ⟨f, rfl, rfl⟩ | ⟨rfl, rfl⟩
      · cases f <;> rfl
      · rfl
  · have hl : number? (!s.afterOperand) (c :: rest) = none := by
      rw [number?]
      split_ifs with hs
      · rw [RawToken.numeral?_of_not_startsNumber fun h => hn (by simp [h, hs.1])]
        rfl
      · rw [hnone]
        rfl
    rw [hl, Option.getD_none, Lexeme.symbol, hs, hstop]
    rfl

/-- A bare word is read as a lexeme. -/
theorem reading_word (ha : s.cursor.ahead = text) :
    s.reading .word (s.offset + byteSize (text.takeWhile isWordPart)) =
      .ofLexeme s (Lexeme.word text) := by
  subst ha
  have htext := take_length_takeWhile isWordPart s.cursor.ahead
  rw [reading, word, ← htext, textUpTo_take, htext]
  split <;> simp [Reading.ofLexeme, bare, *]

/-- A number without a sign is read as a lexeme. -/
theorem reading_number {raw : RawToken} {size : Nat} (ha : s.cursor.ahead = c :: rest)
    (hn : RawToken.startsNumber (c :: rest)) (hr : RawToken.next c rest = (raw, size)) :
    s.reading raw (s.offset + size) =
      .ofLexeme s ((number? (!s.afterOperand) (c :: rest)).getD (Lexeme.symbol (c :: rest))) := by
  obtain ⟨kind, width, hk⟩ := RawToken.exists_numeral?_of_startsNumber hn
  obtain ⟨raw', hnext, -, hraw⟩ := RawToken.next_of_numeral hk
  cases hnext.symm.trans hr
  have hsign : ¬(c = '+' ∨ c = '-') := by
    rintro (rfl | rfl) <;> exact nomatch hn
  rw [number?, if_neg fun h => hsign h.2, hk, Option.map_some, Option.getD_some, ← ha,
    ← reading_verbatim]
  rcases hraw with ⟨f, rfl, rfl⟩ | ⟨rfl, rfl⟩ <;> rfl

/-- A symbol or an illegal character is read as a lexeme. -/
theorem reading_symbol {raw : RawToken} {size : Nat} (ha : s.cursor.ahead = c :: rest)
    (hn : ¬RawToken.startsNumber (c :: rest))
    (hr : (match TokenKind.ofSymbol? (c :: rest) with
      | some (kind, size) => (.symbol kind, size)
      | none => (.illegal, c.utf8Size)) = (raw, size)) :
    s.reading raw (s.offset + size) =
      .ofLexeme s ((number? (!s.afterOperand) (c :: rest)).getD (Lexeme.symbol (c :: rest))) := by
  by_cases hsign : c = '+' ∨ c = '-'
  · rcases hsign with rfl | rfl <;> cases hr
    · exact reading_sign ha (.inl rfl) rfl
    · exact reading_sign ha (.inr rfl) rfl
  have hnumber : number? (!s.afterOperand) (c :: rest) = none := by
    rw [number?, if_neg fun h => hsign h.2, RawToken.numeral?_of_not_startsNumber hn]
    rfl
  rw [hnumber, Option.getD_none, Lexeme.symbol]
  cases hk : TokenKind.ofSymbol? (c :: rest) with
  | some k =>
    obtain ⟨kind, _⟩ := k
    rw [hk] at hr
    cases hr
    have hne : ¬(kind = .op .add ∨ kind = .op .sub) := by
      rintro (rfl | rfl)
      · exact hsign (RawToken.sign_of_symbol hk (.inl rfl))
      · exact hsign (RawToken.sign_of_symbol hk (.inr rfl))
    rw [reading, if_neg hne]
    simp [Reading.ofLexeme, bare, ha, RawToken.byteSize_symbol hk]
  | none =>
    rw [hk] at hr
    cases hr
    have hverbatim := s.reading_verbatim .illegal 1
    rw [ha, List.take_succ_cons, List.take_zero, byteSize_cons, byteSize_nil, Nat.add_zero]
      at hverbatim
    rw [← hverbatim, reading, peek?, Cursor.peek?, ha]
    rfl

/-- Where there are neither blanks nor comments, the raw token is read as a lexeme. -/
theorem reading_significant {raw : RawToken} {size : Nat} {l : Lexeme}
    (ha : s.cursor.ahead = c :: rest) (hb : isBlank c = false)
    (hc : ¬(c = '-' ∧ rest.head? = some '-')) (hr : RawToken.next c rest = (raw, size))
    (hl : next? s.afterOperand (c :: rest) = some l) :
    s.reading raw (s.offset + size) = .ofLexeme s l := by
  have hzero : blankWidth false (c :: rest) = 0 := by
    rw [blankWidth, if_neg (by simp), if_neg (by simpa using hb), if_neg hc]
  rw [next?, if_neg (not_not.2 hzero)] at hl
  split_ifs at hl with hw hd hs hp <;> cases hl
  · cases (RawToken.next_word hb hc hw).symm.trans hr
    exact reading_word ha
  · subst hd
    cases (RawToken.next_doubleQuote rest).symm.trans hr
    exact reading_quoted rfl ha .ident
  · subst hs
    cases (RawToken.next_singleQuote rest).symm.trans hr
    exact reading_quoted rfl ha .string
  · subst hp
    cases (RawToken.next_dollar rest).symm.trans hr
    rw [← ha]
    exact s.reading_verbatim .param _
  · by_cases hn : RawToken.startsNumber (c :: rest)
    · exact reading_number ha hn hr
    · exact reading_symbol ha hn ((RawToken.next_symbol hb hc hw hd hs hp hn).symm.trans hr)

/-- What a raw token is read as is the lexeme at the front. -/
theorem reading_eq {raw : RawToken} {size : Nat} {l : Lexeme}
    (hr : RawToken.next? s.cursor.ahead = some (raw, size))
    (hl : next? s.afterOperand s.cursor.ahead = some l) :
    s.reading raw (s.offset + size) = .ofLexeme s l := by
  cases ha : s.cursor.ahead with
  | nil =>
    rw [ha] at hr
    cases hr
  | cons c rest =>
    by_cases hw : blankWidth false (c :: rest) = 0
    · rw [ha] at hr hl
      obtain ⟨hb, hc⟩ : isBlank c = false ∧ ¬(c = '-' ∧ rest.head? = some '-') := by
        rw [blankWidth, if_neg (by simp)] at hw
        split_ifs at hw with hb hc
        exact ⟨by simpa using hb, hc⟩
      exact reading_significant ha hb hc (Option.some.inj hr) hl
    · have ht : raw.isTrivia := by
        rw [ha] at hr
        have hraw := RawToken.isTrivia_next_of_blankWidth hw
        rwa [Option.some.inj hr] at hraw
      rw [ha, next?, if_pos hw] at hl
      cases hl
      rw [← ha]
      exact reading_trivia hr ht

/-- Reading a token takes a lexeme. -/
theorem scan_eq (s : Scanner) : s.scan = match next? s.afterOperand s.cursor.ahead with
    | none => (s.eof, s)
    | some l => s.take l := by
  cases hr : RawToken.next? s.cursor.ahead with
  | none =>
    have ha : s.cursor.ahead = [] := by
      cases ha : s.cursor.ahead with
      | nil => rfl
      | cons c rest =>
        rw [ha] at hr
        cases hr
    rw [scan, hr, ha]
    rfl
  | some r =>
    obtain ⟨raw, size⟩ := r
    cases hl : next? s.afterOperand s.cursor.ahead with
    | none =>
      cases ha : s.cursor.ahead with
      | nil =>
        rw [ha] at hr
        cases hr
      | cons c rest =>
        rw [ha, next?] at hl
        split_ifs at hl
    | some l =>
      rw [scan, hr]
      exact (congrArg s.emit (reading_eq hr hl)).trans (s.emit_ofLexeme l)

/-- Reading a regular expression takes a lexeme. -/
theorem scanRegex_eq (s : Scanner) : s.scanRegex = match s.cursor.ahead with
    | '/' :: rest => s.take (regex rest)
    | _ => s.scan := by
  have hslash (rest : List Char) (ha : s.cursor.ahead = '/' :: rest) :
      s.scanRegex = s.take (regex rest) := by
    rw [scanRegex, ha]
    exact (congrArg s.emit (reading_regex ha)).trans (s.emit_ofLexeme _)
  have hother (h : ∀ rest, s.cursor.ahead ≠ '/' :: rest) : s.scanRegex = s.scan := by
    rw [scanRegex]
    split
    · next ha => exact absurd ha (h _)
    · rfl
  split
  · next rest ha => exact hslash rest ha
  · next h => exact hother h

end Scanner

end InfluxQL
