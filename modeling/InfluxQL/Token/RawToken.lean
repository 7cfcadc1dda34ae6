import InfluxQL.Token.Quoted
import InfluxQL.Token.RegexBody

/-!
# Raw tokens

A raw token is the longest piece at the front of a text that belongs together whatever stands before
it. Reserved words are not told from names yet, nor the sign of a number from an operator, and blanks
and comments are pieces of their own.

* `RawToken.next?`: the raw token at the front of a text, and the number of bytes it takes;
* `TokenKind.ofSymbol?`: of the symbols the longest that fits.
-/

namespace InfluxQL

/-- The blank characters. -/
def isBlank (c : Char) : Bool :=
  c == ' ' || c == '\t' || c == '\r' || c == '\n'

/-- The symbol at the front of a text: its kind and its length. -/
def TokenKind.ofSymbol? : List Char → Option (TokenKind × Nat)
  | '=' :: '~' :: _ => some (.op .matching, 2)
  | '!' :: '~' :: _ => some (.op .notMatching, 2)
  | '!' :: '=' :: _ => some (.op .notEq, 2)
  | '<' :: '>' :: _ => some (.op .notEq, 2)
  | '<' :: '=' :: _ => some (.op .lessEq, 2)
  | '>' :: '=' :: _ => some (.op .greaterEq, 2)
  | ':' :: ':' :: _ => some (.doubleColon, 2)
  | c :: _ =>
    (match c with
      | '=' => some (.op .eq)
      | '<' => some (.op .lt)
      | '>' => some (.op .gt)
      | '+' => some (.op .add)
      | '-' => some (.op .sub)
      | '*' => some (.op .mul)
      | '/' => some (.op .div)
      | '(' => some .leftParen
      | ')' => some .rightParen
      | ',' => some .comma
      | ':' => some .colon
      | ';' => some .semicolon
      | '.' => some .dot
      | _ => none : Option TokenKind).map fun kind => (kind, 1)
  | [] => none

/-- A piece of a text. -/
inductive RawToken
  | blanks
  | comment
  | word
  | quotedName (body : Quoted.Body)
  | string (body : Quoted.Body)
  /-- Digits, with a point and more digits if `fractional`. -/
  | numeral (fractional : Bool)
  /-- A point and digits. -/
  | fraction
  | param
  | symbol (kind : TokenKind)
  /-- A character that begins nothing. -/
  | illegal
  deriving DecidableEq, Repr

namespace RawToken

/-- Blanks and comments stand between tokens. -/
def isTrivia : RawToken → Bool
  | blanks | comment => true
  | _ => false

/-- Starts the text with a digit, or with a point and a digit? -/
def startsNumber : List Char → Bool
  | c :: rest => c.isDigit || c == '.' && rest.head?.any Char.isDigit
  | [] => false

/-- The bytes of the fraction behind some digits: those of a point and the digits behind it, if there
are any. -/
def fractionSize : List Char → Nat
  | '.' :: rest =>
    if rest.head?.any Char.isDigit then 1 + byteSize (rest.takeWhile Char.isDigit) else 0
  | _ => 0

/-- The raw token at the front of a text that starts with `c`, and the number of bytes it takes. -/
def next (c : Char) (rest : List Char) : RawToken × Nat :=
  let text := c :: rest
  if isBlank c then (blanks, byteSize (text.takeWhile isBlank))
  else if c = '-' ∧ rest.head? = some '-' then (comment, byteSize (text.takeWhile (· != '\n')))
  else if isWordStart c then (word, byteSize (text.takeWhile isWordPart))
  else if c = doubleQuote then
    let (size, body) := Quoted.decode c rest
    (quotedName body, 1 + size)
  else if c = singleQuote then
    let (size, body) := Quoted.decode c rest
    (string body, 1 + size)
  else if c = '$' then (param, 1 + byteSize (rest.takeWhile isWordPart))
  else if c.isDigit then
    let size := fractionSize (text.dropWhile Char.isDigit)
    (numeral (size != 0), byteSize (text.takeWhile Char.isDigit) + size)
  else if startsNumber text then (fraction, 1 + byteSize (rest.takeWhile Char.isDigit))
  else
    match TokenKind.ofSymbol? text with
    | some (kind, size) => (symbol kind, size)
    | none => (illegal, c.utf8Size)

/-- The raw token at the front of a text, if there is any text, and the number of bytes it takes. -/
def next? : List Char → Option (RawToken × Nat)
  | [] => none
  | c :: rest => some (next c rest)

end RawToken

end InfluxQL
