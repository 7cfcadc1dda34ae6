import InfluxQL.Aggregate
import InfluxQL.Token.Basic
import InfluxQL.Token.Quoted

/-!
# What is wrong with a text

A `ParseError` is a cause and the place in the source that it is about. The wording is in
`ParseError.message`; `ParseError.report` fits the error to a source text that is shown with it.
-/

namespace InfluxQL

/-- Why a text could not be parsed. -/
inductive Cause
  /-- A token stands where only the expected ones may. -/
  | unexpected (found : String) (expected : List String)
  /-- An integer is beyond 64 bits. -/
  | integerRange
  /-- A string has no closing quote. -/
  | unterminatedString (value : String)
  /-- A backslash stands before a character that it cannot escape. -/
  | badEscape (escape : String)
  /-- A regular expression has no closing slash. -/
  | unterminatedRegex (pattern : String)
  /-- A regular expression does not compile; the text is what its compiler says about it. -/
  | badPattern (text : String)
  /-- A parameter has no name. -/
  | emptyParam
  /-- No value is given for a parameter. -/
  | missingParam (name : String)
  /-- The value given for a parameter is of a sort that cannot be bound. -/
  | unbindableParam (typeName : String)
  /-- A dotted name has too many segments. -/
  | tooManySegments (segments : List String)
  /-- An operator stands in a field that belongs in a `WHERE` clause. -/
  | conditionInField (op : Operator)
  /-- The aggregates of a statement are wrong. -/
  | semantic (fault : SemanticError)
  /-- A fault in the words of whoever reports it. -/
  | described (text : String)
  /-- The parser was not allowed enough steps. -/
  | outOfSteps
  deriving DecidableEq, Repr, Inhabited

/-- The wording of a cause. -/
def Cause.text : Cause → String
  | unexpected found expected =>
    "found " ++ found ++ ", expected " ++ String.intercalate ", " expected
  | integerRange => "unable to parse integer"
  | unterminatedString value => "unterminated string: " ++ value
  | badEscape escape => "bad escape: " ++ escape
  | unterminatedRegex pattern => "bad regex: " ++ pattern
  | badPattern text => text
  | emptyParam => "empty bound parameter"
  | missingParam name => "missing parameter: " ++ name
  | unbindableParam typeName => "unable to bind parameter with type " ++ typeName
  | tooManySegments segments =>
    "too many segments in " ++ String.ofList (quoteIdent (segments.map String.toList))
  | conditionInField op =>
    "invalid operator " ++ op.text
      ++ " in SELECT clause; operator is intended for WHERE clause"
  | semantic fault => fault.message
  | described text => text
  | outOfSteps => "too many steps"

/-- A fault and the place that it is about. -/
structure ParseError where
  cause : Cause
  pos : Pos
  span : Span
  deriving DecidableEq, Repr, Inhabited

/-- A mark on a part of the source: what it says, the byte where it starts, and its length. -/
structure Label where
  text : String
  offset : Nat
  length : Nat
  isPrimary : Bool
  deriving DecidableEq, Repr, Inhabited

namespace ParseError

/-- A fault at a token. -/
def atToken (t : Token) (cause : Cause) : ParseError :=
  ⟨cause, t.pos, t.span⟩

/-- A token that stands where only the expected ones may. -/
def unexpected (t : Token) (expected : List String) : ParseError :=
  atToken t (.unexpected t.text expected)

/-- The wording of an error, its place included. -/
def message (e : ParseError) : String :=
  e.cause.text ++ " at " ++ e.pos.text

/-- The wording of an error that is not about an unexpected token, without its place. -/
def messageText? (e : ParseError) : Option String :=
  match e.cause with
  | .unexpected .. => none
  | cause => some cause.text

/-- The name under which errors of this sort are known. -/
def code : String :=
  "influxql::parse"

/-- The marks on the source: one, on the span of the error. -/
def labels (e : ParseError) : List Label :=
  [⟨"here", e.span.start, e.span.length, true⟩]

/-- The error as it is shown with a source text: its span does not leave the text. -/
def report (e : ParseError) (source : String) : ParseError :=
  { e with span := e.span.clamp (byteSize source.toList) }

end ParseError

end InfluxQL
