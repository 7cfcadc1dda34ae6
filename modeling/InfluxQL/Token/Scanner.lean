import InfluxQL.Text.Cursor
import InfluxQL.Token.Basic
import InfluxQL.Token.RawToken

/-!
# The scanner

A `Scanner` reads a source text token by token. It remembers the kind of the last token that was
no blank, because that decides what a sign is.

* Blanks and comments that follow one another are one token.
* A sign is part of the number right after it, unless an operand ends before the sign.
* A character that begins nothing else is a token of its own.

* `Scanner.scan`: the next token;
* `Scanner.scanRegex`: the next token where the grammar wants a regular expression;
* `Scanner.rewind`: the same scanner at another byte offset;
* `tokenize`: all tokens of a text, the end of the text included.
-/

namespace InfluxQL

/-- A reading position, and the kind of the last token that was no blank. -/
structure Scanner where
  cursor : Cursor
  last : Option TokenKind
  deriving DecidableEq, Repr, Inhabited

namespace Scanner

/-- The scanner at the beginning of a text. -/
def start (text : List Char) : Scanner :=
  ⟨Cursor.start text, none⟩

/-- The whole text. -/
def source (s : Scanner) : List Char :=
  s.cursor.source

/-- The byte offset of the next character. -/
def offset (s : Scanner) : Nat :=
  s.cursor.offset

/-- The next character. -/
def peek? (s : Scanner) : Option Char :=
  s.cursor.peek?

/-- The place of a byte offset. -/
def posAt (s : Scanner) (bytes : Nat) : Pos :=
  s.cursor.posAt bytes

/-- Goes to a byte offset. What the last token was is not forgotten. -/
def rewind (s : Scanner) (bytes : Nat) : Scanner :=
  { s with cursor := s.cursor.seek bytes }

/-- Does the last token end an operand? -/
def afterOperand (s : Scanner) : Bool :=
  s.last.any TokenKind.endsOperand

/-- What was read: the kind of the token, its text, and the byte behind it. -/
structure Reading where
  kind : TokenKind
  lit : List Char
  stop : Nat
  deriving DecidableEq, Repr

/-- What stands behind an opening quote: a token of the given kind if it is well-formed. -/
def Reading.quoted (kind : TokenKind) : Quoted.Body → (stop : Nat) → Reading
  | .closed value => .mk kind value
  | .badEscape text => .mk .badEscape text
  | .unterminated value => .mk .badString value

/-- What stands behind an opening slash where a regular expression is wanted. -/
def Reading.regex : RegexBody → (stop : Nat) → Reading
  | .closed pattern => .mk .regex pattern
  | .unterminated pattern => .mk .badRegex pattern
  | .loneBackslash => .mk .badEscape ['\\']

/-- The text from where the scanner is up to a byte. -/
def textUpTo (s : Scanner) (stop : Nat) : List Char :=
  slice s.source s.offset stop

/-- Moves behind the blanks and comments that follow, or the first `n` of them. -/
def skipTrivia : (n : Nat) → Cursor → Cursor
  | 0, c => c
  | n + 1, c =>
    match RawToken.next? c.ahead with
    | some (raw, size) => if raw.isTrivia then skipTrivia n (c.seek (c.offset + size)) else c
    | none => c

/-- A sign, which ends at the byte `stop`: the number right behind it belongs to it, unless an operand
ends before the sign. -/
def signOrOperator (s : Scanner) (kind : TokenKind) (stop : Nat) : Reading :=
  let behind := s.cursor.seek stop
  if RawToken.startsNumber behind.ahead && !s.afterOperand then
    match RawToken.next? behind.ahead with
    | some (raw, size) =>
      let read := if raw = .numeral false then .integer else .number
      ⟨read, s.textUpTo (stop + size), stop + size⟩
    | none => ⟨.number, s.textUpTo stop, stop⟩
  else ⟨kind, [], stop⟩

/-- What the raw token at the front is read as, if it ends at the byte `stop`. An illegal character is
a token, wherever the raw token ends. -/
def reading (s : Scanner) (raw : RawToken) (stop : Nat) : Reading :=
  match raw with
  | .blanks | .comment =>
    let behind := s.cursor.seek stop
    let stop := (skipTrivia behind.ahead.length behind).offset
    ⟨.blank, s.textUpTo stop, stop⟩
  | .word =>
    match TokenKind.ofWord? (s.textUpTo stop) with
    | some kind => ⟨kind, [], stop⟩
    | none => ⟨.ident, s.textUpTo stop, stop⟩
  | .quotedName body => .quoted .ident body stop
  | .string body => .quoted .string body stop
  | .numeral fractional => ⟨if fractional then .number else .integer, s.textUpTo stop, stop⟩
  | .fraction => ⟨.number, s.textUpTo stop, stop⟩
  | .param => ⟨.param, s.textUpTo stop, stop⟩
  | .symbol kind =>
    if kind = .op .add ∨ kind = .op .sub then s.signOrOperator kind stop else ⟨kind, [], stop⟩
  | .illegal =>
    let stop := s.offset + (s.peek?.map Char.utf8Size).getD 0
    ⟨.illegal, s.textUpTo stop, stop⟩

/-- The token of what was read, and the scanner behind it. -/
def emit (s : Scanner) (r : Reading) : Token × Scanner :=
  (⟨r.kind, String.ofList r.lit, s.posAt s.offset, ⟨s.offset, r.stop⟩⟩,
    ⟨s.cursor.seek r.stop, if r.kind = .blank then s.last else some r.kind⟩)

/-- The token for the end of the text. -/
def eof (s : Scanner) : Token :=
  ⟨.eof, "", s.posAt s.offset, ⟨s.offset, s.offset⟩⟩

/-- Reads the next token. -/
def scan (s : Scanner) : Token × Scanner :=
  match RawToken.next? s.cursor.ahead with
  | none => (s.eof, s)
  | some (raw, size) => s.emit (s.reading raw (s.offset + size))

/-- Reads the next token, taking a slash for the start of a regular expression. -/
def scanRegex (s : Scanner) : Token × Scanner :=
  match s.cursor.ahead with
  | '/' :: rest =>
    let (size, body) := RegexBody.decode rest
    s.emit (.regex body (s.offset + 1 + size))
  | _ => s.scan

/-- The tokens up to the end of the text, or the first `n`. -/
def tokens : Nat → Scanner → List Token
  | 0, _ => []
  | n + 1, s =>
    let (t, s) := s.scan
    if t.kind = .eof then [t] else t :: tokens n s

end Scanner

/-- All tokens of a text. The last one is the end of the text, and no other is; since every other
token takes at least one character, there is at most one token more than there are characters. -/
def tokenize (source : String) : List Token :=
  (Scanner.start source.toList).tokens (source.toList.length + 1)

end InfluxQL
