import InfluxQL.Proofs.Numeric.Decimal
import InfluxQL.Proofs.Token.Lookahead
import InfluxQL.Syntax.Render
import Mathlib.Tactic.SplitIfs

/-!
# How written tokens are read

Each way of writing a token is read back as this token, whatever follows that cannot belong to it.

* `Lexeme.Spells`, `Lexeme.Spells.next?`: names, in quotes or not;
* `Lexeme.next?_quoteString`, `Lexeme.next?_ofInteger`, `Lexeme.next?_ofDouble`: literals;
* `Lexeme.next?_reserved`: reserved words;
* `Lexeme.Delimited`: what stands behind an operand.
-/

namespace InfluxQL

/-- The kinds of token that can be the first of an operand, parameters aside. -/
def TokenKind.startsOperand : TokenKind → Bool
  | ident | number | integer | string | bool _ | leftParen => true
  | _ => false

namespace Quoted

/-! ### Quoted texts -/

theorem escape_cons (quote c : Char) (value : List Char) : escape quote (c :: value) =
    (if c = '\n' then ['\\', 'n'] else if c = '\\' ∨ c = quote then ['\\', c] else [c]) ++
      escape quote value := rfl

/-- What stands for a character between quotes is read as this character. -/
theorem read_escaped {quote : Char} (hq : quote = singleQuote ∨ quote = doubleQuote) (c : Char)
    (value rest : List Char) :
    ∃ written, escape quote (c :: value) = written ++ escape quote value ∧
      read quote (written ++ rest) =
        ((read quote rest).1.push c, (read quote rest).2 + written.length) := by
  have hn : quote ≠ '\n' ∧ quote ≠ '\\' := by
    rcases hq with rfl | rfl <;> decide
  refine ⟨_, escape_cons .., ?_⟩
  split_ifs with h₁ h₂
  · subst h₁
    rw [List.cons_append, List.cons_append, read_pair hn.2.symm rfl]
    rfl
  · have he : escaped? c = some c := by
      have hcn : c ≠ 'n' := by
        rintro rfl
        rcases h₂ with h | rfl
        · cases h
        · rcases hq with h | h <;> cases h
      rw [escaped?, if_neg hcn, if_pos]
      rcases h₂ with rfl | rfl
      · exact .inl rfl
      · exact .inr hq
    rw [List.cons_append, List.cons_append, read_pair hn.2.symm he]
    rfl
  · rw [not_or] at h₂
    rw [List.singleton_append, read_cons h₂.2 h₁ h₂.1]
    rfl

/-- **A value is read back as it is written between quotes.** -/
theorem read_escape {quote : Char} (hq : quote = singleQuote ∨ quote = doubleQuote)
    (value rest : List Char) : read quote (escape quote value ++ quote :: rest) =
      (.closed value, (escape quote value).length + 1) := by
  induction value with
  | nil =>
    rw [escape, List.flatMap_nil, List.nil_append, read_quote]
    rfl
  | cons c value ih =>
    obtain ⟨written, he, hr⟩ := read_escaped hq c value (escape quote value ++ quote :: rest)
    rw [he, List.append_assoc, hr, ih]
    simp [Body.push]
    omega

/-- A word is written between quotes as it is. -/
theorem escape_of_isWordPart {name : List Char} (h : ∀ c ∈ name, isWordPart c) :
    escape doubleQuote name = name := by
  induction name with
  | nil => rfl
  | cons c name ih =>
    rw [List.forall_mem_cons] at h
    have hc : c ≠ '\n' ∧ ¬(c = '\\' ∨ c = doubleQuote) := by
      refine ⟨?_, ?_⟩
      · rintro rfl
        exact absurd h.1 (by decide)
      · rintro (rfl | rfl) <;> exact absurd h.1 (by decide)
    rw [escape_cons, if_neg hc.1, if_neg hc.2, ih h.2]
    rfl

end Quoted

namespace Lexeme

/-! ### Words and names -/

/-- Nothing of a bare word stands at the front. -/
def NoWordPart (text : List Char) : Prop :=
  ∀ c ∈ text.head?, isWordPart c = false

theorem takeWhile_append_of_head {p : Char → Bool} {s rest : List Char} (hs : ∀ c ∈ s, p c)
    (hr : ∀ c ∈ rest.head?, p c = false) : (s ++ rest).takeWhile p = s := by
  rw [List.takeWhile_append_of_pos hs]
  cases rest with
  | nil => simp
  | cons c rest => simp [hr c rfl]

/-- What starts with neither a blank nor a dash is no blank. -/
theorem blankWidth_cons {c : Char} (hb : isBlank c = false) (hd : c ≠ '-') (rest : List Char) :
    blankWidth false (c :: rest) = 0 := by
  rw [blankWidth, if_neg (by simp), if_neg (by simp [hb]), if_neg (by simp [hd])]

theorem not_isBlank_of_isWordStart {c : Char} (h : isWordStart c) : isBlank c = false := by
  rw [Bool.eq_false_iff]
  intro hb
  simp only [isBlank, Bool.or_eq_true, beq_iff_eq] at hb
  rcases hb with ((rfl | rfl) | rfl) | rfl <;> exact absurd h (by decide)

theorem next?_isWordStart (b : Bool) {c : Char} (h : isWordStart c) (rest : List Char) :
    next? b (c :: rest) = some (word (c :: rest)) := by
  have hd : c ≠ '-' := by
    rintro rfl
    exact absurd h (by decide)
  rw [next?, if_neg (by simp [blankWidth_cons (not_isBlank_of_isWordStart h) hd]), if_pos h]

theorem forall_mem_of_isWord {name : List Char} (h : isWord name) : ∀ c ∈ name, isWordPart c := by
  cases name with
  | nil => cases h
  | cons c name =>
    simp only [isWord, Bool.and_eq_true, List.all_eq_true] at h
    exact List.forall_mem_cons.2 ⟨isWordPart_of_isWordStart h.1, h.2⟩

/-- A bare word is read to its end. -/
theorem next?_word (b : Bool) {name rest : List Char} (h : isWord name) (hr : NoWordPart rest) :
    next? b (name ++ rest) = some (match TokenKind.ofWord? name with
      | some kind => bare kind name.length
      | none => ⟨.ident, name, name.length⟩) := by
  have ht := takeWhile_append_of_head (forall_mem_of_isWord h) hr
  cases name with
  | nil => cases h
  | cons c name =>
    simp only [isWord, Bool.and_eq_true] at h
    have hw := next?_isWordStart b h.1 (name ++ rest)
    rw [word, ← List.cons_append, ht] at hw
    exact hw

theorem isWord_reserved : ∀ k ∈ TokenKind.reserved, isWord k.text.toList := by
  decide +kernel

/-- A reserved word. -/
theorem next?_reserved (b : Bool) {k : TokenKind} (hk : k ∈ TokenKind.reserved)
    {rest : List Char} (hr : NoWordPart rest) :
    next? b (k.text.toList ++ rest) = some ⟨k, [], k.text.toList.length⟩ := by
  rw [next?_word b (isWord_reserved k hk) hr, TokenKind.ofWord?_text k hk]
  rfl

/-- A truth value. -/
theorem next?_boolean (b value : Bool) {rest : List Char} (hr : NoWordPart rest) :
    next? b ((Atom.boolean value).render ++ rest) =
      some ⟨.bool value, [], (Atom.boolean value).render.length⟩ := by
  have hword : isWord (Atom.boolean value).render ∧
      TokenKind.ofWord? (Atom.boolean value).render = some (.bool value) := by
    cases value <;> decide
  rw [next?_word b hword.1 hr, hword.2]
  rfl

theorem next?_quoted (b : Bool) (rest : List Char) :
    next? b (doubleQuote :: rest) = some (quoted .ident doubleQuote rest) := rfl

/-- The text is a name, in quotes or not, but in quotes where it must be. -/
def Spells (text : List Char) (name : String) : Prop :=
  ∃ quoted : Bool, (identNeedsQuotes name.toList → quoted) ∧
    text = quoteSegment quoted name.toList

theorem spells_renderName (name : String) : Spells (renderName name) name :=
  ⟨_, id, rfl⟩

/-- A name that need not be in quotes is a bare word, and stands for itself. -/
theorem bare_of_not_identNeedsQuotes {name : List Char} (h : ¬identNeedsQuotes name) :
    isWord name ∧ TokenKind.ofWord? name = none ∧ quoteSegment false name = name := by
  simp only [identNeedsQuotes, Bool.not_eq_true, Bool.or_eq_false_iff, Option.isSome_eq_false_iff,
    Option.isNone_iff_eq_none, Bool.not_eq_false'] at h
  refine ⟨h.2, h.1, ?_⟩
  simp [quoteSegment, Quoted.escape_of_isWordPart (forall_mem_of_isWord h.2)]

/-- A name, however it is written. -/
theorem Spells.next? {text rest : List Char} {name : String} (h : Spells text name) (b : Bool)
    (hr : NoWordPart rest) :
    Lexeme.next? b (text ++ rest) = some ⟨.ident, name.toList, text.length⟩ := by
  obtain ⟨quoted, hq, rfl⟩ := h
  cases quoted with
  | true =>
    have := Quoted.read_escape (.inr rfl) name.toList rest
    simp [quoteSegment, next?_quoted, Lexeme.quoted, this]
  | false =>
    obtain ⟨hword, hbare, he⟩ := bare_of_not_identNeedsQuotes (by simpa using hq)
    rw [he, next?_word b hword hr, hbare]

/-- A name starts with a letter, an underscore or a quote. -/
theorem Spells.eq_cons {text : List Char} {name : String} (h : Spells text name) :
    ∃ c rest, text = c :: rest ∧ (isWordStart c ∨ c = doubleQuote) := by
  obtain ⟨quoted, hq, rfl⟩ := h
  cases quoted with
  | true => exact ⟨_, _, rfl, .inr rfl⟩
  | false =>
    obtain ⟨hword, -, he⟩ := bare_of_not_identNeedsQuotes (by simpa using hq)
    rw [he]
    cases hn : name.toList with
    | nil => rw [hn] at hword; cases hword
    | cons c rest =>
      rw [hn, isWord, Bool.and_eq_true] at hword
      exact ⟨c, rest, rfl, .inl hword.1⟩

/-- A name as it stands alone. -/
theorem next?_renderName (b : Bool) (name : String) {rest : List Char} (hr : NoWordPart rest) :
    next? b (renderName name ++ rest) = some ⟨.ident, name.toList, (renderName name).length⟩ :=
  (spells_renderName name).next? b hr

/-- A string. -/
theorem next?_quoteString (b : Bool) (value rest : List Char) :
    next? b (quoteString value ++ rest) =
      some ⟨.string, value, (quoteString value).length⟩ := by
  have hn : next? b (quoteString value ++ rest) = some (quoted .string singleQuote
      (Quoted.escape singleQuote value ++ [singleQuote] ++ rest)) := rfl
  have := Quoted.read_escape (.inl rfl) value rest
  rw [hn]
  simp [quoted, this, quoteString]

/-! ### Punctuation -/

theorem digitWidth_append {s rest : List Char} (hs : ∀ c ∈ s, c.isDigit)
    (hr : ∀ c ∈ rest.head?, c.isDigit = false) : digitWidth (s ++ rest) = s.length := by
  rw [digitWidth, takeWhile_append_of_head hs hr]

section Punctuation

variable (b : Bool) (rest : List Char)

theorem next?_leftParen : next? b ('(' :: rest) = some ⟨.leftParen, [], 1⟩ := by
  cases b <;> rfl

theorem next?_rightParen : next? b (')' :: rest) = some ⟨.rightParen, [], 1⟩ := by
  cases b <;> rfl

theorem next?_comma : next? b (',' :: rest) = some ⟨.comma, [], 1⟩ := by
  cases b <;> rfl

theorem next?_semicolon : next? b (';' :: rest) = some ⟨.semicolon, [], 1⟩ := by
  cases b <;> rfl

theorem next?_slash : next? b ('/' :: rest) = some ⟨.op .div, [], 1⟩ := by
  cases b <;> rfl

/-- A dollar sign, and the word behind it. -/
theorem next?_dollar : next? b ('$' :: rest) =
    some ⟨.param, '$' :: rest.takeWhile isWordPart, (rest.takeWhile isWordPart).length + 1⟩ := by
  have h : next? b ('$' :: rest) =
      some (verbatim .param ((rest.takeWhile isWordPart).length + 1) ('$' :: rest)) := by
    cases b <;> rfl
  rw [h, verbatim, List.take_succ_cons, ← List.prefix_iff_eq_take.1 (List.takeWhile_prefix _)]

theorem next?_doubleColon : next? b (':' :: ':' :: rest) = some ⟨.doubleColon, [], 2⟩ := by
  cases b <;> rfl

/-- A dot that does not start a number. -/
theorem next?_dot (h : ∀ c ∈ rest.head?, c.isDigit = false) :
    next? b ('.' :: rest) = some ⟨.dot, [], 1⟩ := by
  have hn : numeral? ('.' :: rest) = none := by
    have hw : digitWidth ('.' :: rest) = 0 := rfl
    have hf : digitWidth rest = 0 := digitWidth_append (s := []) (by simp) h
    simp [numeral?, hw, hf]
  have hnum : number? (!b) ('.' :: rest) = none := by
    simp [number?, hn]
  have hd : next? b ('.' :: rest) =
      some ((number? (!b) ('.' :: rest)).getD (symbol ('.' :: rest))) := rfl
  rw [hd, hnum]
  rfl

/-- An operator with a blank behind it, where an operand ends before it. -/
theorem next?_operator (op : Operator) : next? true (op.text.toList ++ ' ' :: rest) =
    some ⟨.op op, [], op.text.toList.length⟩ := by
  cases op <;> rfl

end Punctuation

/-! ### What stands behind an operand -/

/-- What follows is a blank, a closing parenthesis, a comma, a semicolon, or the end. -/
def Delimited (text : List Char) : Prop :=
  ∀ c ∈ text.head?, c = ' ' ∨ c = ')' ∨ c = ',' ∨ c = ';'

theorem delimited_nil : Delimited [] := by
  simp [Delimited]

theorem delimited_cons {c : Char} {text : List Char} (h : c = ' ' ∨ c = ')' ∨ c = ',' ∨ c = ';') :
    Delimited (c :: text) := by
  simpa [Delimited] using h

theorem Delimited.noWordPart {text : List Char} (h : Delimited text) : NoWordPart text := by
  intro c hc
  rcases h c hc with rfl | rfl | rfl | rfl <;> rfl

theorem Delimited.not_isDigit {text : List Char} (h : Delimited text) :
    ∀ c ∈ text.head?, c.isDigit = false := by
  intro c hc
  rcases h c hc with rfl | rfl | rfl | rfl <;> rfl

theorem Delimited.head?_ne {text : List Char} (h : Delimited text) : text.head? ≠ some '.' := by
  intro hc
  rcases h '.' hc with h | h | h | h <;> exact absurd h (by decide)

/-- The token behind an operand is none that an operand can go on with. -/
theorem Delimited.nextKind_mem (b : Bool) {text : List Char} (h : Delimited text) :
    nextKind b text ∈ [.eof, .blank, .rightParen, .comma, .semicolon] := by
  cases text with
  | nil => simp [nextKind, next?]
  | cons c text =>
    rcases h c rfl with rfl | rfl | rfl | rfl
    · have hw : blankWidth false (' ' :: text) ≠ 0 := by simp [blankWidth, isBlank]
      simp [nextKind, next?_of_blank b hw, verbatim]
    · simp [nextKind, next?_rightParen]
    · simp [nextKind, next?_comma]
    · simp [nextKind, next?_semicolon]

theorem Delimited.nextKind_ne (b : Bool) {text : List Char} (h : Delimited text) {k : TokenKind}
    (hk : k ∉ [TokenKind.eof, .blank, .rightParen, .comma, .semicolon]) : nextKind b text ≠ k :=
  fun he => hk (he ▸ h.nextKind_mem b)

/-! ### Numbers -/

section Numbers

variable {s rest : List Char}

theorem numeral?_integer (hs : Decimal.IsDigits s) (hr : Delimited rest) :
    numeral? (s ++ rest) = some (.integer, s.length) := by
  have hw := digitWidth_append hs.2 hr.not_isDigit
  unfold numeral?
  simp only [hw, List.drop_left]
  rw [if_neg, if_pos (by simpa using hs.1)]
  rw [Decidable.not_not]
  split
  · exact absurd rfl hr.head?_ne
  · rfl

theorem numeral?_number {whole fraction : List Char} (hw : ∀ c ∈ whole, c.isDigit)
    (hf : Decimal.IsDigits fraction) (hr : Delimited rest) :
    numeral? (whole ++ '.' :: fraction ++ rest) =
      some (.number, (whole ++ '.' :: fraction).length) := by
  have hd : digitWidth (whole ++ '.' :: (fraction ++ rest)) = whole.length :=
    digitWidth_append hw (by simp)
  have hfr := digitWidth_append hf.2 hr.not_isDigit
  have hl : fraction.length ≠ 0 := by simpa using hf.1
  rw [List.append_assoc, List.cons_append]
  unfold numeral?
  simp only [hd, List.drop_left, hfr, List.length_append, List.length_cons]
  rw [if_pos hl, Nat.add_assoc, Nat.add_comm 1]

/-- A number with a sign or without one, where no operand ends before it. -/
theorem next?_signed {k : TokenKind} {text : List Char} (hs : ∀ c ∈ s.head?, c.isDigit ∨ c = '.')
    (hn : numeral? (s ++ rest) = some (k, s.length)) (hne : s ≠ [])
    (ht : text = s ∨ ∃ sign, (sign = '-' ∨ sign = '+') ∧ text = sign :: s) :
    next? false (text ++ rest) = some ⟨k, text, text.length⟩ := by
  cases s with
  | nil => exact absurd rfl hne
  | cons d s =>
    have hd := hs d rfl
    have hne : ∀ c, c.isDigit = false → c ≠ '.' → d ≠ c := by
      rintro c hc hdot rfl
      rcases hd with hd | rfl
      · rw [hd] at hc
        cases hc
      · exact hdot rfl
    have hstart : isWordStart d = false := by
      rcases hd with hd | rfl
      · exact not_isWordStart_of_isDigit hd
      · decide
    have hb : isBlank d = false := by
      simp [isBlank, hne ' ' rfl, hne '\t' rfl, hne '\r' rfl, hne '\n' rfl]
    rcases ht with rfl | ⟨sign, hsign, rfl⟩
    · rw [List.cons_append, next?,
        if_neg (by simp [blankWidth_cons hb (hne '-' rfl (by decide))]), if_neg (by simp [hstart]),
        if_neg (hne _ rfl (by decide)), if_neg (hne _ rfl (by decide)),
        if_neg (hne _ rfl (by decide)), number?,
        if_neg (by simp [hne '+' rfl (by decide), hne '-' rfl (by decide)]), ← List.cons_append, hn]
      simp [verbatim]
    · have hw : blankWidth false (sign :: d :: (s ++ rest)) = 0 := by
        rcases hsign with rfl | rfl <;> simp [blankWidth, isBlank, hne '-' rfl (by decide)]
      have hnumber : number? true (sign :: d :: (s ++ rest)) =
          some ⟨k, sign :: d :: s, (d :: s).length + 1⟩ := by
        rw [number?, if_pos ⟨rfl, hsign.symm⟩, ← List.cons_append, hn]
        simp [verbatim]
      rw [List.cons_append, List.cons_append, next?, if_neg (by simp [hw])]
      rcases hsign with rfl | rfl <;>
        rw [if_neg (by decide), if_neg (by decide), if_neg (by decide), if_neg (by decide),
          Bool.not_false, hnumber] <;> rfl

/-- An integer, where no operand ends before it. -/
theorem next?_ofInteger (n : Int64) (hr : Delimited rest) :
    next? false (Decimal.ofInteger n ++ rest) =
      some ⟨.integer, Decimal.ofInteger n, (Decimal.ofInteger n).length⟩ := by
  obtain ⟨s, hs, he⟩ := Decimal.ofInteger_eq n
  have hd : ∀ c ∈ s.head?, c.isDigit ∨ c = '.' :=
    fun c hc => .inl (hs.2 c (List.mem_of_mem_head? hc))
  exact next?_signed hd (numeral?_integer hs hr) hs.1 (he.imp_right fun h => ⟨'-', .inl rfl, h⟩)

/-- A finite double, where no operand ends before it. -/
theorem next?_ofDouble {x : Double} (hx : x.isFinite) (hr : Delimited rest) :
    next? false (Decimal.ofDouble x ++ rest) =
      some ⟨.number, Decimal.ofDouble x, (Decimal.ofDouble x).length⟩ := by
  obtain ⟨whole, fraction, hw, hf, he⟩ := Decimal.ofDouble_eq hx
  refine next?_signed (fun c hc => .inl (hw.2 c ?_)) (numeral?_number hw.2 hf hr) (by simp)
    (he.imp_right fun h => ⟨'-', .inl rfl, h⟩)
  cases whole with
  | nil => exact absurd rfl hw.1
  | cons d whole => exact List.mem_of_mem_head? hc

end Numbers

/-! ### The start of an operand -/

theorem pastBlank_of_startsOperand {b : Bool} {text : List Char}
    (h : (nextKind b text).startsOperand) : pastBlank text = text :=
  pastBlank_of_nextKind fun hk => by rw [hk] at h; cases h

/-- The first character of an operand is no blank and no slash. -/
theorem head?_of_startsOperand {b : Bool} {text : List Char}
    (h : (nextKind b text).startsOperand) :
    (∀ c ∈ text.head?, isBlank c = false) ∧ text.head? ≠ some '/' := by
  cases text with
  | nil => simp
  | cons c text =>
    constructor
    · rintro _ ⟨⟩
      rw [Bool.eq_false_iff]
      intro hc
      have hw : blankWidth false (c :: text) ≠ 0 := by simp [blankWidth, hc]
      rw [nextKind_of_lexeme (next?_of_blank b hw)] at h
      cases h
    · rintro ⟨⟩
      rw [nextKind_of_lexeme (l := bare (.op .div) 1) (by cases b <;> rfl)] at h
      cases h

end Lexeme

end InfluxQL
