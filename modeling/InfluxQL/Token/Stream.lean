import InfluxQL.Token.Scanner

/-!
# Tokens with one step back

A `TokenStream` reads tokens from a scanner and can give back the one it read last.

* `TokenStream.scan`, `TokenStream.unscan`: the next token; the last one put back;
* `TokenStream.scanSignificant`, `TokenStream.skipBlank`: reading past a blank;
* `TokenStream.scanRegex`: a token that was put back is read anew, so that a slash that was taken
  for a division can still open a regular expression;
* `TokenStream.peek?`: the next character.
-/

namespace InfluxQL

/-- A scanner, the token that was put back, and the token that can be. -/
structure TokenStream where
  scanner : Scanner
  pending : Option Token
  prev : Option Token
  deriving DecidableEq, Repr, Inhabited

namespace TokenStream

/-- The stream at the beginning of a text. -/
def start (text : List Char) : TokenStream :=
  ⟨Scanner.start text, none, none⟩

/-- The byte offset of the next token. -/
def offset (s : TokenStream) : Nat :=
  match s.pending with
  | some t => t.span.start
  | none => s.scanner.offset

/-- The next token, blanks included. -/
def scan (s : TokenStream) : Token × TokenStream :=
  match s.pending with
  | some t => (t, ⟨s.scanner, none, some t⟩)
  | none =>
    let (t, scanner) := s.scanner.scan
    (t, ⟨scanner, none, some t⟩)

/-- Puts the last token back. There is only one to put back: a second time does nothing. -/
def unscan (s : TokenStream) : TokenStream :=
  match s.prev with
  | some t => ⟨s.scanner, some t, none⟩
  | none => s

/-- The next token that is no blank. Blanks never follow one another, so skipping one is enough. -/
def scanSignificant (s : TokenStream) : Token × TokenStream :=
  let (t, s) := s.scan
  if t.kind = .blank then s.scan else (t, s)

/-- Skips a blank. -/
def skipBlank (s : TokenStream) : TokenStream :=
  let (t, s) := s.scan
  if t.kind = .blank then s else s.unscan

/-- The next token, with a slash taken for the start of a regular expression. -/
def scanRegex (s : TokenStream) : Token × TokenStream :=
  let scanner := match s.pending with
    | some t => s.scanner.rewind t.span.start
    | none => s.scanner
  let (t, scanner) := scanner.scanRegex
  (t, ⟨scanner, none, some t⟩)

/-- The next character of the source. -/
def peek? (s : TokenStream) : Option Char :=
  match s.pending with
  | some t => if t.kind = .eof then none else (s.scanner.cursor.seek t.span.start).peek?
  | none => s.scanner.peek?

end TokenStream

end InfluxQL
