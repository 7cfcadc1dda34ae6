import InfluxQL.Proofs.Token.Characters
import InfluxQL.Token.RawToken

/-!
# Lexemes

A lexeme is what the front of a text reads as: a kind of token, its text, and the number of
characters it takes. There is one function for each sort of lexeme; `Lexeme.next?` picks among
them by the first characters.

* Blanks and comments that follow one another are one lexeme.
* A sign is part of the number right after it, unless an operand ends before the sign.
* Of the symbols the longest that fits is taken.
* A character that begins nothing else is a lexeme of its own.
-/

namespace InfluxQL

/-- A sort of token, its text, and the number of characters it takes. -/
structure Lexeme where
  kind : TokenKind
  lit : List Char
  width : Nat
  deriving DecidableEq, Repr

namespace Lexeme

/-- A lexeme without a text of its own. -/
def bare (kind : TokenKind) (width : Nat) : Lexeme :=
  ⟨kind, [], width⟩

/-- A lexeme whose text is the source text itself. -/
def verbatim (kind : TokenKind) (width : Nat) (text : List Char) : Lexeme :=
  ⟨kind, text.take width, width⟩

/-- The length of the blanks and comments at the front. A comment starts with two dashes and lasts
to the end of the line; `inComment` says that the text starts within one. -/
def blankWidth (inComment : Bool) : List Char → Nat
  | [] => 0
  | c :: rest =>
    if inComment then blankWidth (c != '\n') rest + 1
    else if isBlank c then blankWidth false rest + 1
    else if c = '-' ∧ rest.head? = some '-' then blankWidth true rest + 1
    else 0

/-- The number of digits at the front. -/
def digitWidth (text : List Char) : Nat :=
  (text.takeWhile Char.isDigit).length

/-- The number without a sign at the front: its kind and its length. A point belongs to it only if
a digit follows. -/
def numeral? (text : List Char) : Option (TokenKind × Nat) :=
  let whole := digitWidth text
  let fraction := match text.drop whole with
    | '.' :: rest => digitWidth rest
    | _ => 0
  if fraction ≠ 0 then some (.number, whole + 1 + fraction)
  else if whole ≠ 0 then some (.integer, whole)
  else none

/-- The bare word at the front: a reserved word or a name. -/
def word (text : List Char) : Lexeme :=
  let name := text.takeWhile isWordPart
  match TokenKind.ofWord? name with
  | some kind => bare kind name.length
  | none => ⟨.ident, name, name.length⟩

/-- What follows an opening quote: a token of the given kind if it is well-formed. -/
def quoted (kind : TokenKind) (quote : Char) (rest : List Char) : Lexeme :=
  match Quoted.read quote rest with
  | (.closed value, width) => ⟨kind, value, width + 1⟩
  | (.badEscape text, width) => ⟨.badEscape, text, width + 1⟩
  | (.unterminated value, width) => ⟨.badString, value, width + 1⟩

/-- What follows an opening slash where a regular expression is wanted. -/
def regex (rest : List Char) : Lexeme :=
  match RegexBody.read rest with
  | (.closed pattern, width) => ⟨.regex, pattern, width + 1⟩
  | (.unterminated pattern, width) => ⟨.badRegex, pattern, width + 1⟩
  | (.loneBackslash, width) => ⟨.badEscape, ['\\'], width + 1⟩

/-- The number at the front, with its sign. A sign counts as such only if `signed`. -/
def number? (signed : Bool) (text : List Char) : Option Lexeme :=
  match text with
  | [] => none
  | c :: rest =>
    if signed ∧ (c = '+' ∨ c = '-') then
      (numeral? rest).map fun (kind, width) => verbatim kind (width + 1) text
    else
      (numeral? text).map fun (kind, width) => verbatim kind width text

/-- A symbol, or else a character that begins nothing. -/
def symbol (text : List Char) : Lexeme :=
  match TokenKind.ofSymbol? text with
  | some (kind, width) => bare kind width
  | none => verbatim .illegal 1 text

/-- The lexeme at the front of a text, if there is any text. `operandBefore` says that the last
significant token ends an operand. -/
def next? (operandBefore : Bool) (text : List Char) : Option Lexeme :=
  match text with
  | [] => none
  | c :: rest =>
    if blankWidth false text ≠ 0 then some (verbatim .blank (blankWidth false text) text)
    else if isWordStart c then some (word text)
    else if c = doubleQuote then some (quoted .ident c rest)
    else if c = singleQuote then some (quoted .string c rest)
    else if c = '$' then some (verbatim .param ((rest.takeWhile isWordPart).length + 1) text)
    else some ((number? (!operandBefore) text).getD (symbol text))

end Lexeme

end InfluxQL
