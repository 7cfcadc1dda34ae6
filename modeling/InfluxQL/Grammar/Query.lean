import InfluxQL.Grammar.Select
import InfluxQL.Pattern
import InfluxQL.Syntax.Render

/-!
# Parsing texts

    query     ::= [ statement ] ( ";" [ statement ] )*
    statement ::= select

Main definitions: `parseQuery`, `parseStatement` and `parseExpr`, which give the tree of a text or
the first error in it. Only `parseQuery` reads its text to the end.
-/

namespace InfluxQL

namespace Grammar

open Production

variable [PatternCompiler]

/-- A statement. -/
def statement (params : Params) (steps : Nat) : Production Statement := do
  let t ← scanSignificant
  if t.kind = .keyword .SELECT then
    let s ← select params steps t
    pure (.select s)
  else unexpected t ["SELECT"]

/-- The statements read so far, and whether another one may follow at once. -/
structure Statements where
  statements : List Statement
  separated : Bool

/-- A semicolon or a statement behind what has been read, or the end of the text. -/
def furtherStatement (params : Params) (steps : Nat) (s : Statements) :
    Production (Statements ⊕ Query) := do
  let t ← scanSignificant
  match t.kind with
  | .eof => pure (.inr ⟨s.statements⟩)
  | .semicolon => pure (.inl { s with separated := true })
  | _ =>
    if s.separated then
      unscan
      let x ← statement params steps
      pure (.inl ⟨s.statements ++ [x], false⟩)
    else unexpected t [";"]

/-- A query. -/
def query (params : Params) (steps : Nat) : Production Query :=
  loop (furtherStatement params steps) steps ⟨[], true⟩

/-- The steps that are enough for a text: every round of a repetition, and every expression within
another, takes at least one character. -/
def stepsFor (source : List Char) : Nat :=
  source.length + 1

end Grammar

variable [PatternCompiler]

/-- The tree of a text of any number of statements with semicolons between them. -/
def parseQuery (source : String) (params : Params) : Except ParseError Query :=
  (Grammar.query params (Grammar.stepsFor source.toList)).run source.toList

/-- The tree of the statement at the beginning of a text. -/
def parseStatement (source : String) (params : Params) : Except ParseError Statement :=
  (Grammar.statement params (Grammar.stepsFor source.toList)).run source.toList

/-- The tree of the expression at the beginning of a text. -/
def parseExpr (source : String) (params : Params) : Except ParseError Expr :=
  (Grammar.expression params (Grammar.stepsFor source.toList)).run source.toList

end InfluxQL
