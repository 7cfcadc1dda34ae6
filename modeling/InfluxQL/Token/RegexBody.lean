import InfluxQL.Text.Position

/-!
# The text between the slashes of a regular expression

Only the slash is escaped for the sake of the delimiters: a backslash and a slash stand for a
slash, and every other backslash keeps the character after it and stays in the pattern.

* `RegexBody.decode`: the pattern that follows an opening slash, and how many bytes it takes;
* `RegexBody.escape`: a pattern as it is written between slashes.
-/

namespace InfluxQL

/-- What follows the opening slash of a regular expression. -/
inductive RegexBody
  /-- The closing slash was found. -/
  | closed (pattern : List Char)
  /-- The text ends before the closing slash. -/
  | unterminated (pattern : List Char)
  /-- The text ends with a backslash that has nothing to escape. -/
  | loneBackslash
  deriving DecidableEq, Repr

namespace RegexBody

/-- Reads the characters of what follows an opening slash, each with the byte where it starts, behind
those that stand for `pattern`. The number counts the bytes taken, up to `size` in all. -/
def decodeFrom (size : Nat) (pattern : List Char) : List (Nat × Char) → Nat × RegexBody
  | [] => (size, unterminated pattern)
  | (i, c) :: rest =>
    if c = '/' then (i + 1, closed pattern)
    else if c = '\\' then
      match rest with
      | [] => (size, loneBackslash)
      | (_, e) :: rest =>
        decodeFrom size (pattern ++ if e = '/' then ['/'] else ['\\', e]) rest
    else decodeFrom size (pattern ++ [c]) rest

/-- Reads what follows an opening slash. The number counts the bytes taken, the closing slash
included. -/
def decode (rest : List Char) : Nat × RegexBody :=
  decodeFrom (byteSize rest) [] (charIndices 0 rest)

/-- A pattern as it is written between slashes. -/
def escape (pattern : List Char) : List Char :=
  pattern.flatMap fun c => if c = '/' then ['\\', '/'] else [c]

end RegexBody

/-- A regular expression between slashes. -/
def quoteRegex (pattern : List Char) : List Char :=
  '/' :: (RegexBody.escape pattern ++ ['/'])

end InfluxQL
