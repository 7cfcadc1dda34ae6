import InfluxQL.Numeric.Decimal
import InfluxQL.Syntax.Statement
import InfluxQL.Token.Quoted
import InfluxQL.Token.RegexBody

/-!
# Trees as texts

How a tree is written in the query language.

* Operations have a blank on both sides of the operator, and no parentheses but those of the tree.
* Names are quoted where they must be, strings always; a slash in a regular expression is escaped.
* Fields, sources and arguments are separated by a comma and a blank, statements by a semicolon and
  a newline.
-/

namespace InfluxQL

/-- The parts with a comma and a blank between them. -/
def commaSeparated (parts : List (List Char)) : List Char :=
  List.intercalate ", ".toList parts

/-- A name that stands alone. -/
def renderName (name : String) : List Char :=
  quoteIdent [name.toList]

/-- A reference, with the type that it declares. -/
def VarRef.render (v : VarRef) : List Char :=
  renderName v.name ++
    if v.type = .unknown then [] else "::".toList ++ v.type.text.toList

/-- An atom. -/
def Atom.render : Atom → List Char
  | var v => v.render
  | string value => quoteString value.toList
  | number value => Decimal.ofDouble value
  | integer value => Decimal.ofInteger value
  | boolean value => if value then "true".toList else "false".toList
  | regex pattern => quoteRegex pattern.toList

mutual

/-- An expression. -/
def Expr.render : Expr → List Char
  | atom a => a.render
  | call name args => renderName name ++ '(' :: (commaSeparated (renderAll args) ++ [')'])
  | binary op l r => l.render ++ ' ' :: (op.text.toList ++ ' ' :: r.render)
  | paren e => '(' :: (e.render ++ [')'])

/-- Each expression of a list. -/
def Expr.renderAll : List Expr → List (List Char)
  | [] => []
  | e :: rest => e.render :: renderAll rest

end

theorem Expr.renderAll_eq_map (es : List Expr) : Expr.renderAll es = es.map Expr.render := by
  induction es with
  | nil => simp [Expr.renderAll]
  | cons e rest ih => simp [Expr.renderAll, ih]

/-- A field. -/
def Field.render (f : Field) : List Char :=
  f.expr.render ++
    match f.name with
    | none => []
    | some name => " AS ".toList ++ renderName name

/-- A measurement. After a database a retention policy that is empty or missing leaves nothing but
its dot. -/
def Measurement.render (m : Measurement) : List Char :=
  let database := match m.database with
    | none => []
    | some name => renderName name ++ ['.']
  let policy := match m.retentionPolicy with
    | none => []
    | some name => if name ≠ "" ∨ m.database = none then renderName name else []
  let dot := if m.database.isSome ∨ m.retentionPolicy.isSome then ['.'] else []
  let measured := match m.name, m.regex with
    | some name, _ => renderName name
    | none, some pattern => quoteRegex pattern.toList
    | none, none => []
  database ++ policy ++ dot ++ measured

/-- A source. -/
def Source.render : Source → List Char
  | measurement m => m.render

/-- A `SELECT` statement. -/
def Select.render (s : Select) : List Char :=
  "SELECT ".toList ++ commaSeparated (s.fields.map Field.render)
    ++ " FROM ".toList ++ commaSeparated (s.sources.map Source.render)
    ++ match s.condition with
      | none => []
      | some e => " WHERE ".toList ++ e.render

/-- A statement. -/
def Statement.render : Statement → List Char
  | select s => s.render

/-- A query. -/
def Query.render (q : Query) : List Char :=
  List.intercalate ";\n".toList (q.statements.map Statement.render)

/-- The text of an expression. -/
def Expr.text (e : Expr) : String :=
  String.ofList e.render

/-- The text of a source. -/
def Source.text (s : Source) : String :=
  String.ofList s.render

/-- The text of a statement. -/
def Statement.text (s : Statement) : String :=
  String.ofList s.render

/-- The text of a query. -/
def Query.text (q : Query) : String :=
  String.ofList q.render

end InfluxQL
