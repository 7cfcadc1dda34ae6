import InfluxQL.Token.Kind
import InfluxQL.Text.Position
import InfluxQL.Text.Word

/-!
# Quoted names and strings

A string stands in single quotes and a name that is no bare word in double quotes. Between the
quotes a backslash and one of `n`, a backslash, a single or a double quote stand for a newline or
for the second character itself; a newline is never part of a quoted text.

* `Quoted.decode`: what a quoted text means that follows an opening quote, and how many bytes it
  takes;
* `Quoted.escape`: the text between the quotes for a given value;
* `quoteString`, `quoteIdent`: strings and dotted names as they are written.
-/

namespace InfluxQL

/-- The quote around strings. -/
def singleQuote : Char := '\x27'

/-- The quote around names. -/
def doubleQuote : Char := '\x22'

namespace Quoted

/-- What follows an opening quote. -/
inductive Body
  /-- The closing quote was found. -/
  | closed (value : List Char)
  /-- A backslash stands before a character that it cannot escape; the text is that of the two. -/
  | badEscape (text : List Char)
  /-- The line or the text ends before the closing quote. -/
  | unterminated (value : List Char)
  deriving DecidableEq, Repr

/-- The character that a backslash and `c` stand for. -/
def escaped? (c : Char) : Option Char :=
  if c = 'n' then some '\n'
  else if c = '\\' ∨ c = singleQuote ∨ c = doubleQuote then some c
  else none

/-- Reads the characters of what follows an opening `quote`, each with the byte where it starts, behind
those that stand for `value`. The number counts the bytes taken, up to `size` in all. -/
def decodeFrom (quote : Char) (size : Nat) (value : List Char) : List (Nat × Char) → Nat × Body
  | [] => (size, .unterminated value)
  | (i, c) :: rest =>
    if c = quote then (i + 1, .closed value)
    else if c = '\n' then (i, .unterminated value)
    else if c = '\\' then
      match rest with
      | [] => (size, .unterminated value)
      | (j, e) :: rest =>
        match escaped? e with
        | none => (j + e.utf8Size, .badEscape ['\\', e])
        | some meant => decodeFrom quote size (value ++ [meant]) rest
    else decodeFrom quote size (value ++ [c]) rest

/-- Reads what follows an opening `quote`. The number counts the bytes taken, the closing quote
included; a newline is not taken, and a backslash at the very end is. -/
def decode (quote : Char) (rest : List Char) : Nat × Body :=
  decodeFrom quote (byteSize rest) [] (charIndices 0 rest)

/-- A value as it is written between quotes of the given kind. -/
def escape (quote : Char) (value : List Char) : List Char :=
  value.flatMap fun c =>
    if c = '\n' then ['\\', 'n']
    else if c = '\\' ∨ c = quote then ['\\', c]
    else [c]

end Quoted

/-- A string between single quotes. -/
def quoteString (value : List Char) : List Char :=
  singleQuote :: (Quoted.escape singleQuote value ++ [singleQuote])

/-- Must a name be quoted? It must when it is no bare word, or is reserved. -/
def identNeedsQuotes (name : List Char) : Bool :=
  (TokenKind.ofWord? name).isSome || !isWord name

/-- A segment of a name, between double quotes if `quoted`. -/
def quoteSegment (quoted : Bool) (name : List Char) : List Char :=
  let quote := if quoted then [doubleQuote] else []
  quote ++ Quoted.escape doubleQuote name ++ quote

/-- A dotted name. The last segment is quoted where it must be; of the others those that are not
empty are quoted always, so that an empty one leaves nothing but its dot. -/
def quoteIdent : List (List Char) → List Char
  | [] => []
  | [name] => quoteSegment (identNeedsQuotes name) name
  | name :: rest => quoteSegment (!name.isEmpty) name ++ '.' :: quoteIdent rest

end InfluxQL
