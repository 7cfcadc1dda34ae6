import InfluxQL.Text.Position
import InfluxQL.Token.Kind

/-!
# Tokens

A `Token` is a kind, the text that the kind does not imply, and the place in the source that it
was read from.
-/

namespace InfluxQL

/-- A token. `lit` holds the decoded value of a quoted name, a string or a regular expression, the
written form of numbers, parameters, blanks and illegal characters, and nothing for words,
operators and punctuation. -/
structure Token where
  kind : TokenKind
  lit : String
  pos : Pos
  span : Span
  deriving DecidableEq, Repr, Inhabited

/-- How messages name a token: by its own text if it has one, else by its kind. -/
def Token.text (t : Token) : String :=
  if t.lit = "" then t.kind.text else t.lit

end InfluxQL
