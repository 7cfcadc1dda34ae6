import InfluxQL.Json.Basic

/-!
# JSON texts

* `Json.read?`: the value that a text stands for.

The text must be one value with blanks around it. All members of an object are kept.
-/

namespace InfluxQL

namespace Json

/-- Drops blanks. -/
def dropBlanks (text : List Char) : List Char :=
  text.dropWhile fun c => c == ' ' || c == '\t' || c == '\n' || c == '\r'

/-- The value of a hexadecimal digit. -/
def hexDigit? (c : Char) : Option Nat :=
  if c.isDigit then some (c.toNat - '0'.toNat)
  else if 'a' ≤ c ∧ c ≤ 'f' then some (c.toNat - 'a'.toNat + 10)
  else if 'A' ≤ c ∧ c ≤ 'F' then some (c.toNat - 'A'.toNat + 10)
  else none

/-- The four hexadecimal digits at the front. -/
def hexUnit? : List Char → Option (Nat × List Char)
  | a :: b :: c :: d :: rest => do
    let a ← hexDigit? a
    let b ← hexDigit? b
    let c ← hexDigit? c
    let d ← hexDigit? d
    some (((a * 16 + b) * 16 + c) * 16 + d, rest)
  | _ => none

/-- The character of an escape with hexadecimal digits: one unit, or the two of a pair. -/
def hexChar? (text : List Char) : Option (Char × List Char) := do
  let (unit, rest) ← hexUnit? text
  if 0xD800 ≤ unit ∧ unit < 0xDC00 then
    match rest with
    | '\\' :: 'u' :: rest =>
      let (low, rest) ← hexUnit? rest
      if 0xDC00 ≤ low ∧ low < 0xE000 then
        some (Char.ofNat (0x10000 + (unit - 0xD800) * 0x400 + (low - 0xDC00)), rest)
      else none
    | _ => none
  else if 0xDC00 ≤ unit ∧ unit < 0xE000 then none
  else some (Char.ofNat unit, rest)

/-- What stands for itself, or for a control character, after a backslash. -/
def simpleEscape? : Char → Option Char
  | '\\' => some '\\'
  | '/' => some '/'
  | '\x22' => some '\x22'
  | 'b' => some '\x08'
  | 'f' => some '\x0c'
  | 'n' => some '\n'
  | 'r' => some '\r'
  | 't' => some '\t'
  | _ => none

/-- Reads at most `n` characters of a string up to its closing quote. -/
def stringBody? : Nat → List Char → Option (List Char × List Char)
  | 0, _ => none
  | _, [] => none
  | n + 1, c :: text =>
    if c = '\x22' then some ([], text)
    else if c = '\\' then
      match text with
      | 'u' :: text => do
        let (c, text) ← hexChar? text
        let (value, rest) ← stringBody? n text
        some (c :: value, rest)
      | e :: text => do
        let c ← simpleEscape? e
        let (value, rest) ← stringBody? n text
        some (c :: value, rest)
      | [] => none
    else if c.toNat < 0x20 then none
    else do
      let (value, rest) ← stringBody? n text
      some (c :: value, rest)

/-- The string at the front. -/
def string? : List Char → Option (String × List Char)
  | '\x22' :: text =>
    (stringBody? (text.length + 1) text).map fun (value, rest) => (String.ofList value, rest)
  | _ => none

/-- The digits at the front, of which there must be some. -/
def digits? (text : List Char) : Option (List Char × List Char) :=
  match text.takeWhile Char.isDigit with
  | [] => none
  | d :: ds => some (d :: ds, text.dropWhile Char.isDigit)

/-- The digits after a point at the front, if there is one. -/
def fraction? : List Char → Option (List Char × List Char)
  | '.' :: text => digits? text
  | text => some ([], text)

/-- The exponent at the front, if there is one. -/
def exponent? : List Char → Option (Option Int × List Char)
  | c :: text =>
    if c = 'e' ∨ c = 'E' then do
      let negative := text.head? = some '-'
      let text := if negative ∨ text.head? = some '+' then text.drop 1 else text
      let (ds, rest) ← digits? text
      let n : Int := Nat.ofDigitChars 10 ds 0
      some (some (if negative then -n else n), rest)
    else some (none, c :: text)
  | [] => some (none, [])

/-- The number at the front. It has no zeros in front of its other digits. -/
def numeral? (text : List Char) : Option (Numeral × List Char) := do
  let negative := text.head? = some '-'
  let (whole, rest) ← digits? (if negative then text.drop 1 else text)
  if whole.head? = some '0' ∧ whole.length ≠ 1 then none
  else
    let (fraction, rest) ← fraction? rest
    let (exponent, rest) ← exponent? rest
    some (⟨negative, whole, fraction, exponent⟩, rest)

/-- Cuts a word off the front. -/
def expect (word : String) (value : Json) (text : List Char) : Option (Json × List Char) :=
  if word.toList.isPrefixOf text then some (value, text.drop word.length) else none

/-- The key at the front and the colon behind it. -/
def key? (text : List Char) : Option (String × List Char) := do
  let (key, rest) ← string? (dropBlanks text)
  match dropBlanks rest with
  | ':' :: rest => some (key, rest)
  | _ => none

mutual

/-- The value at the front, after blanks, and the text behind it. No value of a text nests deeper
than the text is long, so its length is bound enough for `n`. -/
def value? : Nat → List Char → Option (Json × List Char)
  | 0, _ => none
  | n + 1, text =>
    match dropBlanks text with
    | '\x22' :: text => (string? ('\x22' :: text)).map fun (s, rest) => (.string s, rest)
    | '[' :: text =>
      let text := dropBlanks text
      if text.head? = some ']' then some (.array [], text.tail)
      else (elements? n text).map fun (es, rest) => (.array es, rest)
    | '\x7b' :: text =>
      let text := dropBlanks text
      if text.head? = some '\x7d' then some (.object [], text.tail)
      else (members? n text).map fun (ms, rest) => (.object ms, rest)
    | 'n' :: text => expect "null" .null ('n' :: text)
    | 't' :: text => expect "true" (.bool true) ('t' :: text)
    | 'f' :: text => expect "false" (.bool false) ('f' :: text)
    | text => (numeral? text).map fun (x, rest) => (.number x, rest)

/-- The elements of an array up to its closing bracket. -/
def elements? : Nat → List Char → Option (List Json × List Char)
  | 0, _ => none
  | n + 1, text => do
    let (e, rest) ← value? n text
    match dropBlanks rest with
    | ',' :: rest =>
      let (es, rest) ← elements? n rest
      some (e :: es, rest)
    | ']' :: rest => some ([e], rest)
    | _ => none

/-- The members of an object up to its closing brace. -/
def members? : Nat → List Char → Option (List (String × Json) × List Char)
  | 0, _ => none
  | n + 1, text => do
    let (key, rest) ← key? text
    let (v, rest) ← value? n rest
    match dropBlanks rest with
    | ',' :: rest =>
      let (ms, rest) ← members? n rest
      some ((key, v) :: ms, rest)
    | '\x7d' :: rest => some ([(key, v)], rest)
    | _ => none

end

/-- The value that a text stands for. -/
def read? (text : String) : Option Json :=
  match value? (text.toList.length + 1) text.toList with
  | some (v, rest) => if dropBlanks rest = [] then some v else none
  | none => none

end Json

end InfluxQL
