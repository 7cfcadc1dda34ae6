import InfluxQL.Proofs.Syntax.Traversal
import InfluxQL.Syntax.Transform

/-!
# What a changing walk visits

A visitor that may change a tree comes to the nodes in the order in which one does that may not. If it
only looks at them, then the tree is left as it is, and it looks at one node of the listing after the
other until it stops.

* `MutVisitor.visit`: the walk from a node of any sort;
* `MutVisitor.looking`: the visitor that does one thing at every node, and changes nothing;
* `MutVisitor.visit_looking`: its walk is a repetition along the listing, and so along what a `Visitor`
  comes to.
-/

namespace InfluxQL

namespace Walk

variable {σ β α : Type}

@[simp] theorem unlessStopped_stopped (a : α) (walk : Walk σ β α) (b : β) (s : σ) :
    unlessStopped a walk (.stopped b s) = (a, .stopped b s) := rfl

@[simp] theorem unlessStopped_going (a : α) (walk : Walk σ β α) (s : σ) :
    unlessStopped a walk (.going s) = walk (.going s) := rfl

/-- Does something at a node unless the walk has stopped. -/
def look (f : Node → Walk σ β Unit) (n : Node) : Walk σ β Unit :=
  unlessStopped () (f n)

/-- Does something at one node after the other, and gives a value. -/
def lookAlong (f : Node → Walk σ β Unit) (ns : List Node) (a : α) : Walk σ β α := do
  forM ns (look f)
  pure a

variable {f : Node → Walk σ β Unit}

theorem forM_look_stopped (ns : List Node) (b : β) (s : σ) :
    (forM ns (look f) : Walk σ β Unit) (.stopped b s) = ((), .stopped b s) := by
  induction ns with
  | nil => rfl
  | cons n ns ih => exact ih

/-- What is done at a node and then at those below is done along the listing. -/
theorem unlessStopped_look {n : Node} {a : α} {walk : Walk σ β α}
    (h : walk = lookAlong f (n.children.flatMap Node.listing) a) :
    unlessStopped a (do f n; walk) = lookAlong f n.listing a := by
  rw [h, Node.listing_eq, lookAlong, lookAlong, List.forM_cons]
  funext p
  cases p with
  | going s => rfl
  | stopped b s =>
    have hstopped := forM_look_stopped (f := f) (n.children.flatMap Node.listing) b s
    rw [unlessStopped_stopped]
    exact (congrArg (fun x : Unit × Progress σ β => (a, x.2)) hstopped).symm

theorem mapM_look (node : α → Node) {walk : α → Walk σ β α} {as : List α}
    (h : ∀ a ∈ as, walk a = lookAlong f (node a).listing a) :
    as.mapM walk = lookAlong f ((as.map node).flatMap Node.listing) as := by
  induction as with
  | nil => rfl
  | cons a as ih =>
    rw [List.forall_mem_cons] at h
    rw [List.mapM_cons, h.1, ih h.2, List.map_cons, List.flatMap_cons]
    simp only [lookAlong, List.forM_append, bind_assoc, pure_bind]

end Walk

namespace MutVisitor

variable {σ β : Type}

/-- Visits a node. -/
def visit (v : MutVisitor σ β) : Node → Walk σ β Node
  | .query q => Node.query <$> v.visitQuery q
  | .statement s => Node.statement <$> v.visitStatement s
  | .select s => Node.select <$> v.visitSelect s
  | .field f => Node.field <$> v.visitField f
  | .source s => Node.source <$> v.visitSource s
  | .measurement m => Node.measurement <$> v.visitMeasurement m
  | .expr e => Node.expr <$> v.visitExpr e

theorem visitExprs_eq_mapM (v : MutVisitor σ β) (es : List Expr) :
    v.visitExprs es = es.mapM v.visitExpr := by
  induction es with
  | nil => rfl
  | cons e es ih => rw [visitExprs, ih, List.mapM_cons]

/-- The visitor that does one thing at every node before it walks on, and changes nothing. -/
def looking (f : Node → Walk σ β Unit) : MutVisitor σ β where
  query q walk := do f (.query q); walk q
  statement s walk := do f (.statement s); walk s
  select s walk := do f (.select s); walk s
  field x walk := do f (.field x); walk x
  source s walk := do f (.source s); walk s
  measurement m := do f (.measurement m); pure m
  expr e walk := do f (.expr e); walk {}

section Looking

variable (f : Node → Walk σ β Unit)

theorem visitExpr_looking (e : Expr) :
    (looking f).visitExpr e = .lookAlong f (Node.expr e).listing e := by
  induction e with
  | atom a =>
    rw [visitExpr]
    exact Walk.unlessStopped_look rfl
  | call name args ih =>
    rw [visitExpr]
    refine Walk.unlessStopped_look (n := .expr (.call name args)) ?_
    rw [visitExprs_eq_mapM, Walk.mapM_look .expr ih]
    simp only [Walk.lookAlong, Node.children, bind_assoc, pure_bind]
    rfl
  | binary op l r ihl ihr =>
    rw [visitExpr]
    refine Walk.unlessStopped_look (n := .expr (.binary op l r)) ?_
    rw [ihl, ihr, Node.children, List.flatMap_cons, List.flatMap_singleton]
    simp only [Walk.lookAlong, List.forM_append, bind_assoc, pure_bind]
    rfl
  | paren e ih =>
    rw [visitExpr]
    refine Walk.unlessStopped_look (n := .expr (.paren e)) ?_
    rw [ih, Node.children, List.flatMap_singleton]
    simp only [Walk.lookAlong, bind_assoc, pure_bind]

theorem visitField_looking (x : Field) :
    (looking f).visitField x = .lookAlong f (Node.field x).listing x := by
  refine Walk.unlessStopped_look (n := .field x) ?_
  rw [walkField, visitExpr_looking, Node.children, List.flatMap_singleton]
  simp only [Walk.lookAlong, bind_assoc, pure_bind]

theorem visitMeasurement_looking (m : Measurement) :
    (looking f).visitMeasurement m = .lookAlong f (Node.measurement m).listing m :=
  Walk.unlessStopped_look rfl

theorem visitSource_looking (x : Source) :
    (looking f).visitSource x = .lookAlong f (Node.source x).listing x := by
  refine Walk.unlessStopped_look (n := .source x) ?_
  cases x
  rw [walkSource, visitMeasurement_looking, Node.children, List.flatMap_singleton]
  simp only [Walk.lookAlong, bind_assoc, pure_bind]

theorem visitSelect_looking (s : Select) :
    (looking f).visitSelect s = .lookAlong f (Node.select s).listing s := by
  refine Walk.unlessStopped_look (n := .select s) ?_
  have hcondition : s.condition.mapM (looking f).visitExpr =
      .lookAlong f ((s.condition.toList.map Node.expr).flatMap Node.listing) s.condition := by
    cases s.condition with
    | none => rfl
    | some e =>
      rw [Option.mapM_some, visitExpr_looking, Option.toList_some, List.map_cons, List.map_nil,
        List.flatMap_singleton]
      simp only [Walk.lookAlong, map_eq_pure_bind, bind_assoc, pure_bind]
  rw [walkSelect, Walk.mapM_look .field fun x _ => visitField_looking f x,
    Walk.mapM_look .source fun x _ => visitSource_looking f x, hcondition, Node.children,
    List.flatMap_append, List.flatMap_append]
  simp only [Walk.lookAlong, List.forM_append, bind_assoc, pure_bind]

theorem visitStatement_looking (s : Statement) :
    (looking f).visitStatement s = .lookAlong f (Node.statement s).listing s := by
  refine Walk.unlessStopped_look (n := .statement s) ?_
  cases s
  rw [walkStatement, visitSelect_looking, Node.children, List.flatMap_singleton]
  simp only [Walk.lookAlong, bind_assoc, pure_bind]

theorem visitQuery_looking (q : Query) :
    (looking f).visitQuery q = .lookAlong f (Node.query q).listing q := by
  refine Walk.unlessStopped_look (n := .query q) ?_
  rw [walkQuery, Walk.mapM_look .statement fun x _ => visitStatement_looking f x, Node.children]
  simp only [Walk.lookAlong, bind_assoc, pure_bind]

/-- **A visitor that may change a tree comes to the same nodes as one that may not**, in the same
order, until it stops. If it changes none of them, then the tree is left as it is. -/
theorem visit_looking (n : Node) : (looking f).visit n =
    (Visitor.guided (Walk.look f) fun _ => false).visit n >>= fun _ => pure n := by
  rw [Visitor.visit_guided, Node.reached_none]
  cases n with
  | query q => exact (congrArg _ (visitQuery_looking f q)).trans (map_bind ..)
  | statement s => exact (congrArg _ (visitStatement_looking f s)).trans (map_bind ..)
  | select s => exact (congrArg _ (visitSelect_looking f s)).trans (map_bind ..)
  | field x => exact (congrArg _ (visitField_looking f x)).trans (map_bind ..)
  | source x => exact (congrArg _ (visitSource_looking f x)).trans (map_bind ..)
  | measurement m => exact (congrArg _ (visitMeasurement_looking f m)).trans (map_bind ..)
  | expr e => exact (congrArg _ (visitExpr_looking f e)).trans (map_bind ..)

end Looking

end MutVisitor

end InfluxQL
