import InfluxQL.Diagnostic
import InfluxQL.Token.Stream

/-!
# Productions

A `Production` reads a part of a text from a token stream, or fails with an error; there is no way
back from an error. The rules of the grammar are built from the steps of the stream and from
`Production.loop`, the only repetition. A repetition is given a number of rounds; each round reads
some of the text, so the length of the text is enough.
-/

namespace InfluxQL

/-- Reads a value from a token stream. -/
abbrev Production (α : Type) : Type :=
  StateT TokenStream (Except ParseError) α

namespace Production

variable {α β : Type}

/-- The next token, blanks included. -/
def scan : Production Token :=
  fun s => .ok s.scan

/-- Puts the last token back. -/
def unscan : Production Unit :=
  fun s => .ok ((), s.unscan)

/-- The next token that is no blank. -/
def scanSignificant : Production Token :=
  fun s => .ok s.scanSignificant

/-- Skips a blank. -/
def skipBlank : Production Unit :=
  fun s => .ok ((), s.skipBlank)

/-- The next token, with a slash taken for the start of a regular expression. -/
def scanRegex : Production Token :=
  fun s => .ok s.scanRegex

/-- The next character. -/
def peek? : Production (Option Char) :=
  fun s => .ok (s.peek?, s)

/-- Fails. -/
def fail (e : ParseError) : Production α :=
  fun _ => .error e

/-- Fails at a token. -/
def failAt (t : Token) (cause : Cause) : Production α :=
  fail (.atToken t cause)

/-- Fails because another token was expected. -/
def unexpected (t : Token) (expected : List String) : Production α :=
  fail (.unexpected t expected)

/-- Fails for want of steps, at the beginning of the text. -/
def outOfSteps : Production α :=
  fail ⟨.outOfSteps, ⟨0, 0⟩, ⟨0, 0⟩⟩

/-- Runs `body` from `b` on until it answers, for at most `rounds` rounds. -/
def loop (body : β → Production (β ⊕ α)) : (rounds : Nat) → β → Production α
  | 0, _ => outOfSteps
  | n + 1, b => do
    match ← body b with
    | .inl b => loop body n b
    | .inr a => pure a

/-- Runs a production on a text. What is behind the part that it reads does not matter. -/
def run (p : Production α) (source : List Char) : Except ParseError α :=
  match p (TokenStream.start source) with
  | .ok (a, _) => .ok a
  | .error e => .error e

end Production

end InfluxQL
