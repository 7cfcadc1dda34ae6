import InfluxQL.Syntax.Expr

/-!
# Queries and statements

A query is a list of statements; the only statement is `SELECT`. Equality of all of them is that of
their parts, with numbers compared as numbers.
-/

namespace InfluxQL

/-- An expression to be selected, and the name it gets. -/
structure Field where
  expr : Expr
  name : Option String
  deriving BEq, Repr, Inhabited

/-- A reference to the measurements of a given name, or to those whose names match a regular
expression. An empty retention policy stands for the default one of the database. -/
structure Measurement where
  database : Option String
  retentionPolicy : Option String
  name : Option String
  regex : Option String
  deriving DecidableEq, Repr, Inhabited

/-- What a statement reads from. -/
inductive Source
  | measurement (m : Measurement)
  deriving DecidableEq, Repr, Inhabited

/-- A `SELECT` statement. It is raw when no field holds a call. -/
structure Select where
  fields : List Field
  sources : List Source
  condition : Option Expr
  isRaw : Bool
  deriving BEq, Repr, Inhabited

/-- A statement. -/
inductive Statement
  | select (s : Select)
  deriving BEq, Repr, Inhabited

/-- The statements of a text. -/
structure Query where
  statements : List Statement
  deriving BEq, Repr, Inhabited

/-- The measurement of a given name. -/
def Measurement.named (name : String) : Measurement :=
  ⟨none, none, some name, none⟩

end InfluxQL
