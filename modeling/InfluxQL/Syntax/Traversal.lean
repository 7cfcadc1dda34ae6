import InfluxQL.Syntax.Statement

/-!
# Walking through trees

A `Visitor` has a hook for each sort of node. A hook gets the node and the walk through its
children, which it may run before, after, or not at all; a hook that is not given only walks. What
a walk can do besides is up to the monad: keep a state, or stop with an exception.

* `Visitor.visitQuery`, `Visitor.visitStatement`, `Visitor.visitExpr`: the walks from a root;
* children are visited in the order of the text: statements; fields, sources and condition;
  operands and arguments from left to right;
* `Expr.inspect`: the walk that does one thing at every expression;
* `Expr.containsCall`, `Expr.firstCondition?`: walks that stop at the first expression of a sort.
-/

namespace InfluxQL

/-- What to do at each sort of node, given the walk through its children. -/
structure Visitor (m : Type → Type) where
  query : Query → m Unit → m Unit := fun _ walk => walk
  statement : Statement → m Unit → m Unit := fun _ walk => walk
  select : Select → m Unit → m Unit := fun _ walk => walk
  field : Field → m Unit → m Unit := fun _ walk => walk
  source : Source → m Unit → m Unit := fun _ walk => walk
  measurement : Measurement → m Unit → m Unit := fun _ walk => walk
  expr : Expr → m Unit → m Unit := fun _ walk => walk

namespace Visitor

variable {m : Type → Type} [Monad m] (v : Visitor m)

mutual

/-- Visits an expression. -/
def visitExpr : Expr → m Unit
  | .atom a => v.expr (.atom a) (pure ())
  | .call name args => v.expr (.call name args) (visitExprs args)
  | .binary op l r => v.expr (.binary op l r) (do visitExpr l; visitExpr r)
  | .paren e => v.expr (.paren e) (visitExpr e)

/-- Visits the expressions of a list. -/
def visitExprs : List Expr → m Unit
  | [] => pure ()
  | e :: rest => do visitExpr e; visitExprs rest

end

/-- Visits a field. -/
def visitField (f : Field) : m Unit :=
  v.field f (v.visitExpr f.expr)

/-- Visits a source. -/
def visitSource : Source → m Unit
  | .measurement x => v.source (.measurement x) (v.measurement x (pure ()))

/-- Visits a `SELECT` statement. -/
def visitSelect (s : Select) : m Unit :=
  v.select s do
    s.fields.forM v.visitField
    s.sources.forM v.visitSource
    s.condition.forM v.visitExpr

/-- Visits a statement. -/
def visitStatement : Statement → m Unit
  | .select s => v.statement (.select s) (v.visitSelect s)

/-- Visits a query. -/
def visitQuery (q : Query) : m Unit :=
  v.query q (q.statements.forM v.visitStatement)

end Visitor

namespace Expr

/-- Runs `f` on an expression and on all below it, parents first and left to right. -/
def inspect {m : Type → Type} [Monad m] (f : Expr → m Unit) (e : Expr) : m Unit :=
  let v : Visitor m := { expr := fun e walk => do f e; walk }
  v.visitExpr e

/-- Is there a call in the expression? -/
def containsCall (e : Expr) : Bool :=
  let look (x : Expr) : Except Unit Unit := if x.isCall then .error () else .ok ()
  !(e.inspect look).isOk

/-- The first operator in the expression that belongs in a `WHERE` clause. -/
def firstCondition? (e : Expr) : Option Operator :=
  let look (x : Expr) : Except Operator Unit :=
    match x.ownCondition? with
    | some op => .error op
    | none => .ok ()
  match e.inspect look with
  | .error op => some op
  | .ok _ => none

end Expr

end InfluxQL
