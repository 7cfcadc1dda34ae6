import InfluxQL.Syntax.Statement

/-!
# Changing trees in place

A `MutVisitor` walks through a tree like a `Visitor` and may change it. A walk may stop at any node:
this node and all after it are then left alone, and what was changed before stays changed.

* `Edit`: what to do with the content of an expression;
* `Progress`, `Walk`: how far a walk came, and what came out of it;
* `MutVisitor`: the hooks of a walk, one for each sort of node;
* `MutVisitor.visitQuery`, `MutVisitor.visitStatement`, `MutVisitor.visitExpr`: the walks from a root;
* `Transformer`: a visitor that changes expressions before it walks on, or stops at one, and that
  replaces measurements.
-/

namespace InfluxQL

/-- A change to what a single expression holds. Parentheses hold nothing of their own. -/
structure Edit where
  atom : Atom → Atom := id
  callName : String → String := id
  operator : Operator → Operator := id

/-- How far a walk came: it goes on with a state, or it has stopped with an answer. -/
inductive Progress (σ β : Type)
  | going (state : σ)
  | stopped (answer : β) (state : σ)
  deriving DecidableEq, Repr

/-- The state that a walk has reached. -/
def Progress.state {σ β : Type} : Progress σ β → σ
  | going s => s
  | stopped _ s => s

/-- The answer of a walk that has stopped. -/
def Progress.answer? {σ β : Type} : Progress σ β → Option β
  | going _ => none
  | stopped b _ => some b

/-- A walk that makes a value. -/
abbrev Walk (σ β α : Type) : Type :=
  StateM (Progress σ β) α

/-- Leaves a value alone once the walk has stopped. -/
def Walk.unlessStopped {σ β α : Type} (a : α) (walk : Walk σ β α) : Walk σ β α :=
  fun p => match p with
  | .stopped b s => (a, .stopped b s)
  | .going s => walk (.going s)

/-- What to do at each sort of node, given the walk through the children. A hook may change the node
before this walk, which then goes through the children of the changed node, and again after it; it may
also do without the walk. Before the walk, only the content of an expression can be changed, so that
the walk comes to an end. A measurement has no children. -/
structure MutVisitor (σ β : Type) where
  query : Query → (Query → Walk σ β Query) → Walk σ β Query := fun q walk => walk q
  statement : Statement → (Statement → Walk σ β Statement) → Walk σ β Statement :=
    fun s walk => walk s
  select : Select → (Select → Walk σ β Select) → Walk σ β Select := fun s walk => walk s
  field : Field → (Field → Walk σ β Field) → Walk σ β Field := fun f walk => walk f
  source : Source → (Source → Walk σ β Source) → Walk σ β Source := fun s walk => walk s
  measurement : Measurement → Walk σ β Measurement := pure
  expr : Expr → (Edit → Walk σ β Expr) → Walk σ β Expr := fun _ walk => walk {}

namespace MutVisitor

variable {σ β : Type} (v : MutVisitor σ β)

mutual

/-- Visits an expression. -/
def visitExpr : Expr → Walk σ β Expr
  | .atom a => .unlessStopped (.atom a) (v.expr (.atom a) fun edit => pure (.atom (edit.atom a)))
  | .call name args => .unlessStopped (.call name args) (v.expr (.call name args) fun edit => do
    let args ← visitExprs args
    pure (.call (edit.callName name) args))
  | .binary op l r => .unlessStopped (.binary op l r) (v.expr (.binary op l r) fun edit => do
    let l ← visitExpr l
    let r ← visitExpr r
    pure (.binary (edit.operator op) l r))
  | .paren e => .unlessStopped (.paren e) (v.expr (.paren e) fun _ => do
    let e ← visitExpr e
    pure (.paren e))

/-- Visits the expressions of a list. -/
def visitExprs : List Expr → Walk σ β (List Expr)
  | [] => pure []
  | e :: rest => do
    let e ← visitExpr e
    let rest ← visitExprs rest
    pure (e :: rest)

end

/-- Walks through the expression of a field. -/
def walkField (f : Field) : Walk σ β Field := do
  let e ← v.visitExpr f.expr
  pure { f with expr := e }

/-- Visits a field. -/
def visitField (f : Field) : Walk σ β Field :=
  .unlessStopped f (v.field f v.walkField)

/-- Visits a measurement. -/
def visitMeasurement (m : Measurement) : Walk σ β Measurement :=
  .unlessStopped m (v.measurement m)

/-- Walks through the measurement of a source. -/
def walkSource : Source → Walk σ β Source
  | .measurement m => do
    let m ← v.visitMeasurement m
    pure (.measurement m)

/-- Visits a source. -/
def visitSource (s : Source) : Walk σ β Source :=
  .unlessStopped s (v.source s v.walkSource)

/-- Walks through fields, then sources, then the condition. -/
def walkSelect (s : Select) : Walk σ β Select := do
  let fields ← s.fields.mapM v.visitField
  let sources ← s.sources.mapM v.visitSource
  let condition ← s.condition.mapM v.visitExpr
  pure { s with fields := fields, sources := sources, condition := condition }

/-- Visits a `SELECT` statement. -/
def visitSelect (s : Select) : Walk σ β Select :=
  .unlessStopped s (v.select s v.walkSelect)

/-- Walks through a statement. -/
def walkStatement : Statement → Walk σ β Statement
  | .select s => do
    let s ← v.visitSelect s
    pure (.select s)

/-- Visits a statement. -/
def visitStatement (s : Statement) : Walk σ β Statement :=
  .unlessStopped s (v.statement s v.walkStatement)

/-- Walks through the statements of a query. -/
def walkQuery (q : Query) : Walk σ β Query := do
  let statements ← q.statements.mapM v.visitStatement
  pure ⟨statements⟩

/-- Visits a query. -/
def visitQuery (q : Query) : Walk σ β Query :=
  .unlessStopped q (v.query q v.walkQuery)

end MutVisitor

/-- What to do at expressions and measurements: at an expression, change it or stop; at a
measurement, replace it. -/
structure Transformer (σ β : Type) where
  expr : Expr → σ → Except β Edit × σ
  measurement : Measurement → σ → Measurement × σ

namespace Transformer

variable {σ β : Type} (r : Transformer σ β)

/-- What becomes of a node, whose children `walk` goes through after the change. -/
def atNode (e : Expr) (walk : Edit → Walk σ β Expr) : Walk σ β Expr :=
  fun p => match p with
  | .stopped b s => (e, .stopped b s)
  | .going s =>
    match r.expr e s with
    | (.error b, s) => (e, .stopped b s)
    | (.ok edit, s) => walk edit (.going s)

/-- What becomes of a measurement. -/
def atMeasurement (m : Measurement) : Walk σ β Measurement :=
  fun p => match p with
  | .stopped b s => (m, .stopped b s)
  | .going s =>
    let (m, s) := r.measurement m s
    (m, .going s)

/-- The visitor with these two hooks. -/
def visitor : MutVisitor σ β where
  expr := r.atNode
  measurement := r.atMeasurement

/-- Walks through an expression. -/
def transformExpr : Expr → Walk σ β Expr :=
  r.visitor.visitExpr

/-- Walks through a statement. -/
def transformStatement : Statement → Walk σ β Statement :=
  r.visitor.visitStatement

/-- Walks through a query. -/
def transformQuery : Query → Walk σ β Query :=
  r.visitor.visitQuery

end Transformer

end InfluxQL
