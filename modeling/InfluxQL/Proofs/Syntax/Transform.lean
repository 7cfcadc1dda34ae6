import InfluxQL.Proofs.Syntax.MutVisitor

/-!
# What a walk changes

A walk that changes nodes and stops at an expression changes those that a visitor comes to before. Each of
them is changed once, by what was found there, and the tree keeps its shape.

* `Transformer.rewriter`: changes expressions and measurements up to the expression with a given number;
* `Transformer.Rewritten`: the labels of trees before and after such a walk;
* `Transformer.Rewrites`: a walk leads from the one to the other, and counts the expressions;
* `Transformer.transform_rewriter`: which nodes are changed.
-/

namespace InfluxQL

/-- The expression with its own content changed. -/
def Edit.apply (edit : Edit) : Expr → Expr
  | .atom a => .atom (edit.atom a)
  | .call name args => .call (edit.callName name) args
  | .binary op l r => .binary (edit.operator op) l r
  | .paren e => .paren e

namespace Node

/-- Is the node an expression? -/
def isExpr : Node → Bool
  | expr _ => true
  | _ => false

/-- The number of expressions in trees. -/
def exprs (ns : List Node) : Nat :=
  (ns.flatMap listing).countP isExpr

/-- The node with its own content changed, if it is an expression or a measurement. -/
def edited (f : Expr → Edit) (g : Measurement → Measurement) : Node → Node
  | expr e => expr ((f e).apply e)
  | measurement m => measurement (g m)
  | n => n

theorem exprs_append (xs ys : List Node) : exprs (xs ++ ys) = exprs xs + exprs ys := by
  rw [exprs, List.flatMap_append, List.countP_append, exprs, exprs]

theorem exprs_singleton (n : Node) : exprs [n] = n.isExpr.toNat + exprs n.children := by
  rw [exprs, List.flatMap_singleton, listing_eq, List.countP_cons, exprs, Nat.add_comm]
  cases n.isExpr <;> rfl

/-- The nodes of a tree, in the order in which a visitor comes to them. -/
def visited (n : Node) : List Node :=
  (((Visitor.recorder [] none).visit n).run []).2

theorem visited_eq (n : Node) : n.visited = n.listing := by
  rw [visited, Visitor.recorder, Visitor.visit_guided, Visitor.forM_record_none, List.nil_append]
  simp only [List.not_mem_nil, decide_false]
  exact reached_none n

end Node

namespace Transformer

/-- Walks through a tree. -/
def transform {σ β : Type} (r : Transformer σ β) : Node → StateM (Progress σ β) Node :=
  r.visitor.visit

/-- Changes expressions and measurements, and stops at expression number `k`. -/
def rewriter (f : Expr → Edit) (g : Measurement → Measurement) (k : Nat) : Transformer Nat Unit where
  expr e seen := (if seen + 1 = k then .error () else .ok (f e), seen + 1)
  measurement m seen := (g m, seen)

variable {f : Expr → Edit} {g : Measurement → Measurement} {k : Nat}

/-! ### Labels before and after -/

variable (f g k) in
/-- The labels of nodes of which those are changed that come before expression number `k`. So many
expressions came before them. -/
def relabelled (seen : Nat) : List Node → List NodeLabel
  | [] => []
  | x :: xs =>
    let seen := seen + x.isExpr.toNat
    (if seen < k then x.edited f g else x).label :: relabelled seen xs

theorem add_countP_cons (seen : Nat) (x : Node) (xs : List Node) :
    seen + (x :: xs).countP Node.isExpr = seen + x.isExpr.toNat + xs.countP Node.isExpr := by
  rw [List.countP_cons, Nat.add_assoc, Nat.add_comm (xs.countP _)]
  cases x.isExpr <;> rfl

/-- From expression number `k` on nothing is changed. -/
theorem relabelled_of_le {seen : Nat} (h : k ≤ seen) (xs : List Node) :
    relabelled f g k seen xs = xs.map Node.label := by
  induction xs generalizing seen with
  | nil => rfl
  | cons x xs ih =>
    have hle : k ≤ seen + x.isExpr.toNat := Nat.le_add_right_of_le h
    rw [relabelled, if_neg (Nat.not_lt.2 hle), ih hle, List.map_cons]

theorem relabelled_append (seen : Nat) (xs ys : List Node) : relabelled f g k seen (xs ++ ys) =
    relabelled f g k seen xs ++ relabelled f g k (seen + xs.countP Node.isExpr) ys := by
  induction xs generalizing seen with
  | nil => rfl
  | cons x xs ih =>
    rw [List.cons_append, relabelled, relabelled, ih, add_countP_cons, List.cons_append]

/-- Whether a node is changed can be told from the expressions up to it. -/
theorem relabelled_eq_mapIdx (seen : Nat) (xs : List Node) : relabelled f g k seen xs =
    xs.mapIdx fun i x =>
      (if seen + (xs.take (i + 1)).countP Node.isExpr < k then x.edited f g else x).label := by
  induction xs generalizing seen with
  | nil => rfl
  | cons x xs ih =>
    rw [relabelled, ih, List.mapIdx_cons]
    simp only [List.take_succ_cons, add_countP_cons, List.take_zero, List.countP_nil, Nat.add_zero]

variable (f g k) in
/-- The second trees are the first ones, changed before expression number `k`. -/
structure Rewritten (seen : Nat) (before after : List Node) : Prop where
  length : after.length = before.length
  labels : after.flatMap Node.labels = relabelled f g k seen (before.flatMap Node.listing)

namespace Rewritten

variable {seen : Nat}

theorem nil : Rewritten f g k seen [] [] :=
  ⟨rfl, rfl⟩

theorem append {xs xs' ys ys' : List Node} (hx : Rewritten f g k seen xs xs')
    (hy : Rewritten f g k (seen + Node.exprs xs) ys ys') :
    Rewritten f g k seen (xs ++ ys) (xs' ++ ys') where
  length := by rw [List.length_append, List.length_append, hx.length, hy.length]
  labels := by
    rw [List.flatMap_append, List.flatMap_append, hx.labels, hy.labels, relabelled_append, Node.exprs]

theorem refl (h : k ≤ seen) (ns : List Node) : Rewritten f g k seen ns ns where
  length := rfl
  labels := by
    rw [relabelled_of_le h, List.map_flatMap]
    rfl

/-- A tree is changed if the content of its root and the trees below are. -/
theorem singleton {n n' : Node}
    (hlabel : n'.label = (if seen + n.isExpr.toNat < k then n.edited f g else n).label)
    (h : Rewritten f g k (seen + n.isExpr.toNat) n.children n'.children) :
    Rewritten f g k seen [n] [n'] where
  length := rfl
  labels := by
    rw [List.flatMap_singleton, List.flatMap_singleton, Node.labels_eq, Node.listing_eq, relabelled,
      hlabel, h.labels]

/-- A node that is no expression nor measurement keeps its content. -/
theorem parent {n n' : Node} (hexpr : n.isExpr = false) (hedited : n.edited f g = n)
    (hlabel : n'.label = n.label) (h : Rewritten f g k seen n.children n'.children) :
    Rewritten f g k seen [n] [n'] := by
  refine singleton ?_ ?_
  · rw [hedited, ite_self, hlabel]
  · rw [hexpr]
    exact h

end Rewritten

/-! ### Walks -/

/-- How far a walk came after so many expressions, if it stops at expression number `k`. -/
def reach (k seen : Nat) : Progress Nat Unit :=
  if seen < k then .going seen else .stopped () k

theorem reach_of_le {seen : Nat} (h : k ≤ seen) : reach k seen = .stopped () k :=
  if_neg (Nat.not_lt.2 h)

/-- Two steps of a walk, one after the other. -/
theorem bind_of_eq {σ α γ : Type} {p : StateM σ α} {q : α → StateM σ γ} {s s' : σ} {a : α}
    (h : p s = (a, s')) : (p >>= q) s = q a s' := by
  show (match p s with | (a, s) => q a s) = _
  rw [h]

theorem map_of_eq {σ α γ : Type} {p : StateM σ α} {h : α → γ} {s s' : σ} {a : α}
    (hp : p s = (a, s')) : (h <$> p) s = (h a, s') := by
  show (match p s with | (a, s) => (h a, s)) = _
  rw [hp]

variable (f g k) in
/-- From a value with the given trees the walk makes one with trees changed before expression number `k`,
and it counts the expressions. -/
def Rewrites {α : Type} (trees : α → List Node) (a : α) (walk : Walk Nat Unit α) : Prop :=
  ∀ seen, ∃ a', walk (reach k seen) = (a', reach k (seen + Node.exprs (trees a))) ∧
    Rewritten f g k seen (trees a) (trees a')

namespace Rewrites

section Lists

variable {α : Type} {node : α → Node} {walk : α → Walk Nat Unit α}

theorem mapM {as : List α} (h : ∀ a ∈ as, Rewrites f g k (fun a => [node a]) a (walk a)) :
    Rewrites f g k (·.map node) as (as.mapM walk) := by
  induction as with
  | nil => exact fun seen => ⟨[], rfl, .nil⟩
  | cons a as ih =>
    intro seen
    rw [List.forall_mem_cons] at h
    obtain ⟨a', hrun, ha⟩ := h.1 seen
    obtain ⟨as', hruns, has⟩ := ih h.2 (seen + Node.exprs [node a])
    refine ⟨a' :: as', ?_, ha.append has⟩
    have hcount : Node.exprs ((a :: as).map node) =
        Node.exprs [node a] + Node.exprs (as.map node) := Node.exprs_append [node a] (as.map node)
    rw [hcount, ← Nat.add_assoc, List.mapM_cons]
    exact (bind_of_eq hrun).trans (bind_of_eq hruns)

theorem mapM_option (o : Option α) (h : ∀ a, Rewrites f g k (fun a => [node a]) a (walk a)) :
    Rewrites f g k (·.toList.map node) o (o.mapM walk) := by
  intro seen
  cases o with
  | none => exact ⟨none, rfl, .nil⟩
  | some a =>
    obtain ⟨a', hrun, ha⟩ := h a seen
    rw [Option.mapM_some]
    exact ⟨some a', map_of_eq hrun, ha⟩

end Lists

/-- A walk that has stopped leaves everything alone. -/
theorem unlessStopped {α : Type} {trees : α → List Node} {a : α} {walk : Walk Nat Unit α}
    (h : Rewrites f g k trees a walk) : Rewrites f g k trees a (Walk.unlessStopped a walk) := by
  intro seen
  by_cases hseen : seen < k
  · obtain ⟨a', hrun, ha⟩ := h seen
    refine ⟨a', ?_, ha⟩
    rw [← hrun, reach, if_pos hseen]
    rfl
  · have hle : k ≤ seen := Nat.not_lt.1 hseen
    refine ⟨a, ?_, .refl hle _⟩
    rw [reach_of_le hle, reach_of_le (Nat.le_add_right_of_le hle)]
    rfl

/-- At an expression the walk changes what it holds and goes on to those below, unless it stops. -/
theorem atNode {e : Expr} {walk : Edit → Walk Nat Unit Expr}
    (h : ∀ edit seen, ∃ e',
      walk edit (reach k seen) = (e', reach k (seen + Node.exprs (Node.expr e).children)) ∧
        (Node.expr e').label = (Node.expr (edit.apply e)).label ∧
        Rewritten f g k seen (Node.expr e).children (Node.expr e').children) :
    Rewrites f g k (fun e => [.expr e]) e ((rewriter f g k).atNode e walk) := by
  intro seen
  have hcount : Node.exprs [.expr e] = 1 + Node.exprs (Node.expr e).children :=
    Node.exprs_singleton _
  by_cases hseen : seen + 1 < k
  · obtain ⟨e', hrun, hlabel, hchildren⟩ := h (f e) (seen + 1)
    refine ⟨e', ?_, .singleton ?_ hchildren⟩
    · have hgo : (rewriter f g k).atNode e walk (reach k seen) = walk (f e) (reach k (seen + 1)) := by
        rw [reach, if_pos (by omega), reach, if_pos hseen, Transformer.atNode, rewriter]
        simp only [if_neg (Nat.ne_of_lt hseen)]
      rw [hgo, hrun, hcount, Nat.add_assoc]
    · exact hlabel.trans (congrArg Node.label (if_pos hseen).symm)
  · have hle : k ≤ seen + (Node.expr e).isExpr.toNat := Nat.not_lt.1 hseen
    refine ⟨e, ?_, .singleton (congrArg Node.label (if_neg hseen).symm) (.refl hle _)⟩
    rw [hcount, reach_of_le (by omega : k ≤ seen + (1 + _))]
    rcases Nat.lt_or_ge seen k with hlt | hge
    · obtain rfl : seen + 1 = k := by omega
      rw [reach, if_pos hlt, Transformer.atNode, rewriter]
      simp only [↓reduceIte]
    · rw [reach_of_le hge]
      rfl

/-- At a node that is no expression nor measurement the walk goes on to those below. -/
theorem parent {α : Type} {node : α → Node} {a : α} {walk : Walk Nat Unit α}
    (hexpr : (node a).isExpr = false) (hedited : (node a).edited f g = node a)
    (h : ∀ seen, ∃ a', walk (reach k seen) = (a', reach k (seen + Node.exprs (node a).children)) ∧
      (node a').label = (node a).label ∧
      Rewritten f g k seen (node a).children (node a').children) :
    Rewrites f g k (fun a => [node a]) a walk := by
  intro seen
  obtain ⟨a', hrun, hlabel, hchildren⟩ := h seen
  refine ⟨a', ?_, .parent hexpr hedited hlabel hchildren⟩
  rw [hrun, Node.exprs_singleton, hexpr, Bool.toNat_false, Nat.zero_add]

variable (f g k)

theorem visitExpr (e : Expr) :
    Rewrites f g k (fun e => [.expr e]) e ((rewriter f g k).visitor.visitExpr e) := by
  induction e with
  | atom a =>
    rw [MutVisitor.visitExpr]
    refine unlessStopped ?_
    exact atNode fun edit seen => ⟨.atom (edit.atom a), rfl, rfl, .nil⟩
  | call name args ih =>
    rw [MutVisitor.visitExpr, MutVisitor.visitExprs_eq_mapM]
    refine unlessStopped ?_
    refine atNode fun edit seen => ?_
    obtain ⟨args', hrun, hargs⟩ := mapM ih seen
    have hlen : args'.length = args.length := by
      simpa using hargs.length
    refine ⟨.call (edit.callName name) args', bind_of_eq hrun, ?_, hargs⟩
    exact congrArg (NodeLabel.call _) hlen
  | binary op l r ihl ihr =>
    rw [MutVisitor.visitExpr]
    refine unlessStopped ?_
    refine atNode fun edit seen => ?_
    obtain ⟨l', hrunl, hl⟩ := ihl seen
    obtain ⟨r', hrunr, hr⟩ := ihr (seen + Node.exprs [.expr l])
    refine ⟨.binary (edit.operator op) l' r', ?_, rfl, hl.append hr⟩
    have hcount : Node.exprs (Node.expr (.binary op l r)).children =
        Node.exprs [.expr l] + Node.exprs [.expr r] := Node.exprs_append [.expr l] [.expr r]
    rw [hcount, ← Nat.add_assoc]
    exact (bind_of_eq hrunl).trans (bind_of_eq hrunr)
  | paren e ih =>
    rw [MutVisitor.visitExpr]
    refine unlessStopped ?_
    refine atNode fun edit seen => ?_
    obtain ⟨e', hrun, he⟩ := ih seen
    exact ⟨.paren e', bind_of_eq hrun, rfl, he⟩

theorem visitField (x : Field) :
    Rewrites f g k (fun x => [.field x]) x ((rewriter f g k).visitor.visitField x) := by
  refine unlessStopped ?_
  refine parent rfl rfl fun seen => ?_
  obtain ⟨e', hrun, he⟩ := visitExpr f g k x.expr seen
  exact ⟨{ x with expr := e' }, bind_of_eq hrun, rfl, he⟩

theorem visitMeasurement (m : Measurement) :
    Rewrites f g k (fun m => [.measurement m]) m ((rewriter f g k).visitor.visitMeasurement m) := by
  refine unlessStopped ?_
  intro seen
  have hcount : Node.exprs [.measurement m] = 0 := Node.exprs_singleton _
  rw [hcount, Nat.add_zero]
  by_cases hseen : seen < k
  · refine ⟨g m, ?_, .singleton (congrArg Node.label (if_pos hseen).symm) .nil⟩
    rw [reach, if_pos hseen]
    rfl
  · refine ⟨m, ?_, .singleton (congrArg Node.label (if_neg hseen).symm) .nil⟩
    rw [reach, if_neg hseen]
    rfl

theorem visitSource (x : Source) :
    Rewrites f g k (fun x => [.source x]) x ((rewriter f g k).visitor.visitSource x) := by
  cases x with
  | measurement m =>
    refine unlessStopped ?_
    refine parent rfl rfl fun seen => ?_
    obtain ⟨m', hrun, hm⟩ := visitMeasurement f g k m seen
    exact ⟨.measurement m', bind_of_eq hrun, rfl, hm⟩

theorem visitSelect (s : Select) :
    Rewrites f g k (fun s => [.select s]) s ((rewriter f g k).visitor.visitSelect s) := by
  refine unlessStopped ?_
  refine parent rfl rfl fun seen => ?_
  obtain ⟨fields, hrun₁, hfields⟩ := mapM (fun x _ => visitField f g k x) seen
  obtain ⟨sources, hrun₂, hsources⟩ := mapM (fun x _ => visitSource f g k x)
    (seen + Node.exprs (s.fields.map .field))
  obtain ⟨condition, hrun₃, hcondition⟩ := mapM_option s.condition (visitExpr f g k)
    (seen + Node.exprs (s.fields.map .field) + Node.exprs (s.sources.map .source))
  have hcount : Node.exprs (Node.select s).children = Node.exprs (s.fields.map .field) +
      (Node.exprs (s.sources.map .source) + Node.exprs (s.condition.toList.map .expr)) := by
    rw [Node.children, Node.exprs_append, Node.exprs_append]
  refine ⟨{ s with fields := fields, sources := sources, condition := condition }, ?_, ?_, ?_⟩
  · rw [hcount, ← Nat.add_assoc, ← Nat.add_assoc]
    exact (bind_of_eq hrun₁).trans ((bind_of_eq hrun₂).trans (bind_of_eq hrun₃))
  · have hfieldCount : fields.length = s.fields.length := by
      simpa using hfields.length
    have hsourceCount : sources.length = s.sources.length := by
      simpa using hsources.length
    have hsome : condition.isSome = s.condition.isSome := by
      have hlen := hcondition.length
      cases condition <;> cases hs : s.condition <;> simp [hs] at hlen ⊢
    simp only [Node.label, hfieldCount, hsourceCount, hsome]
  · exact hfields.append (hsources.append hcondition)

theorem visitStatement (s : Statement) :
    Rewrites f g k (fun s => [.statement s]) s ((rewriter f g k).visitor.visitStatement s) := by
  cases s with
  | select s =>
    refine unlessStopped ?_
    refine parent rfl rfl fun seen => ?_
    obtain ⟨s', hrun, hs⟩ := visitSelect f g k s seen
    exact ⟨.select s', bind_of_eq hrun, rfl, hs⟩

theorem visitQuery (q : Query) :
    Rewrites f g k (fun q => [.query q]) q ((rewriter f g k).visitor.visitQuery q) := by
  refine unlessStopped ?_
  refine parent rfl rfl fun seen => ?_
  obtain ⟨statements, hrun, hstatements⟩ := mapM (fun s _ => visitStatement f g k s) seen
  refine ⟨⟨statements⟩, bind_of_eq hrun, ?_, hstatements⟩
  have hlen : statements.length = q.statements.length := by
    simpa using hstatements.length
  exact congrArg NodeLabel.query hlen

/-- What holds of a walk holds of the same walk on nodes. -/
theorem map {α : Type} {node : α → Node} {a : α} {walk : Walk Nat Unit α}
    (h : Rewrites f g k (fun a => [node a]) a walk) :
    Rewrites f g k (fun n => [n]) (node a) (node <$> walk) := fun seen => by
  obtain ⟨a', hrun, ha⟩ := h seen
  exact ⟨node a', map_of_eq hrun, ha⟩

/-- A walk through any tree rewrites it. -/
theorem transform (n : Node) : Rewrites f g k (fun n => [n]) n ((rewriter f g k).transform n) := by
  cases n with
  | query q => exact map f g k (visitQuery f g k q)
  | statement s => exact map f g k (visitStatement f g k s)
  | select s => exact map f g k (visitSelect f g k s)
  | field x => exact map f g k (visitField f g k x)
  | source x => exact map f g k (visitSource f g k x)
  | measurement m => exact map f g k (visitMeasurement f g k m)
  | expr e => exact map f g k (visitExpr f g k e)

end Rewrites

/-- **A walk that changes nodes and stops changes those before the stop, each once.** -/
theorem transform_rewriter (f : Expr → Edit) (g : Measurement → Measurement) {k : Nat} (hk : 1 ≤ k)
    (n : Node) :
    let changed := (((rewriter f g k).transform n).run (.going 0)).1
    let labels := n.visited.mapIdx fun i x =>
      (if (n.visited.take (i + 1)).countP Node.isExpr < k then x.edited f g else x).label
    changed.visited.map Node.label = labels ∧
      ∀ m : Node, m.visited.map Node.label = labels → m = changed := by
  intro changed labels
  obtain ⟨n', hrun, hn⟩ := Rewrites.transform f g k n 0
  have hchanged : changed = n' := by
    have hpos : 0 < k := hk
    rw [reach, if_pos hpos] at hrun
    exact congrArg Prod.fst hrun
  have hlabels : changed.visited.map Node.label = labels := by
    have h := hn.labels
    rw [List.flatMap_singleton, List.flatMap_singleton, relabelled_eq_mapIdx] at h
    simp only [Nat.zero_add] at h
    rw [hchanged, Node.visited_eq]
    simp only [labels, Node.visited_eq]
    exact h
  refine ⟨hlabels, fun m hm => Node.eq_of_labels ?_⟩
  rw [← hlabels, Node.visited_eq, Node.visited_eq] at hm
  exact hm

/-- In `SELECT a + f(b) AS x FROM m WHERE c` the condition is the fifth expression. -/
theorem transform_rewriter_before_condition :
    let f : Expr → Edit := fun _ => { callName := (· ++ "_x"), operator := fun _ => .sub }
    let g : Measurement → Measurement := fun m => { m with database := some "db" }
    let name (text : String) : Expr := .atom (.var ⟨text, .unknown⟩)
    let select (op : Operator) (call : String) (m : Measurement) : Select :=
      ⟨[⟨.binary op (name "a") (.call call [name "b"]), some "x"⟩], [.measurement m],
        some (.call "h" []), false⟩
    1 ≤ 5 ∧
      (((rewriter f g 5).transform (.select (select .add "f" (.named "m")))).run (.going 0)).1 =
        .select (select .sub "f_x" { Measurement.named "m" with database := some "db" }) := by
  intro f g name select
  refine ⟨by decide, ((transform_rewriter f g (by decide) _).2 _ ?_).symm⟩
  simp only [Node.visited_eq, Node.listing_eq, Node.children, select, name, Option.toList_some,
    List.map_cons, List.map_nil, List.flatMap_cons, List.flatMap_nil, List.cons_append, List.nil_append]
  rfl

end Transformer

end InfluxQL
