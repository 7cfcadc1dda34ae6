import InfluxQL.Proofs.Syntax.Node
import InfluxQL.Proofs.Syntax.Tree
import InfluxQL.Syntax.Traversal

/-!
# What a walk visits

A visitor comes to the nodes of a tree in the order of its listing. If it does something at each node, and
at some nodes does not walk on, then it does this along the list of the nodes that are reached. In a monad
that can stop, it stops where this list does.

* `Visitor.visit`, `Visitor.visit_eq`: the walk from a node of any sort, told from the walks from its
  children;
* `Node.reached`: the nodes of a tree that stand in none that is passed by;
* `Visitor.visit_guided`: a walk is a repetition along these nodes;
* `Visitor.recorder`, `Visitor.recorder_visit`: a walk that keeps a record and stops when it is full;
* `Expr.inspect_eq_forM`: the walk that does one thing at every expression.
-/

namespace InfluxQL

namespace Visitor

variable {m : Type → Type} [Monad m]

/-- Visits a node. -/
def visit (v : Visitor m) : Node → m Unit
  | .query q => v.visitQuery q
  | .statement s => v.visitStatement s
  | .select s => v.visitSelect s
  | .field f => v.visitField f
  | .source s => v.visitSource s
  | .measurement x => v.measurement x (pure ())
  | .expr e => v.visitExpr e

/-- What to do at a node, given the walk through its children. -/
def on (v : Visitor m) : Node → m Unit → m Unit
  | .query q => v.query q
  | .statement s => v.statement s
  | .select s => v.select s
  | .field f => v.field f
  | .source s => v.source s
  | .measurement x => v.measurement x
  | .expr e => v.expr e

theorem visitExprs_eq_forM (v : Visitor m) (es : List Expr) : v.visitExprs es = forM es v.visitExpr := by
  induction es with
  | nil => rfl
  | cons e rest ih => rw [visitExprs, ih, List.forM_cons]

/-- At a node a visitor does what is to be done there, and walks through the children one after the
other. -/
theorem visit_eq [LawfulMonad m] (v : Visitor m) (n : Node) :
    v.visit n = v.on n (forM n.children v.visit) := by
  have hsingle : ∀ c, forM [c] v.visit = v.visit c := fun c => by
    rw [List.forM_cons, List.forM_nil, bind_pure]
  cases n with
  | query q =>
    rw [Node.children, List.forM_map]
    rfl
  | statement s =>
    cases s
    rw [Node.children, hsingle]
    rfl
  | select s =>
    rw [Node.children, List.forM_append, List.forM_append, List.forM_map, List.forM_map, List.forM_map]
    show v.visitSelect s = _
    rw [visitSelect]
    cases s.condition with
    | none => rfl
    | some e =>
      rw [Option.toList_some, List.forM_cons, List.forM_nil, bind_pure]
      rfl
  | field f =>
    rw [Node.children, hsingle]
    rfl
  | source x =>
    cases x
    rw [Node.children, hsingle]
    rfl
  | measurement x => rfl
  | expr e =>
    cases e with
    | atom a => rfl
    | call name args =>
      rw [Node.children, List.forM_map]
      show v.visitExpr _ = _
      rw [visitExpr, visitExprs_eq_forM]
      rfl
    | binary op l r =>
      rw [Node.children, List.forM_cons, hsingle]
      show v.visitExpr _ = _
      rw [visitExpr]
      rfl
    | paren e =>
      rw [Node.children, hsingle]
      show v.visitExpr _ = _
      rw [visitExpr]
      rfl

/-- The visitor that does the same at nodes of every sort. -/
def uniform (on : Node → m Unit → m Unit) : Visitor m where
  query q := on (.query q)
  statement s := on (.statement s)
  select s := on (.select s)
  field f := on (.field f)
  source s := on (.source s)
  measurement x := on (.measurement x)
  expr e := on (.expr e)

omit [Monad m] in
@[simp] theorem on_uniform (on : Node → m Unit → m Unit) : (uniform on).on = on := by
  funext n
  cases n <;> rfl

/-- The visitor that does one thing at every node, and passes some nodes by: it does not walk through
their children. -/
def guided (f : Node → m Unit) (skip : Node → Bool) : Visitor m :=
  uniform fun n walk => do
    f n
    if skip n then pure () else walk

end Visitor

/-! ### The nodes that are reached -/

/-- The node stands in none that is passed by. -/
def PlacedNode.isReached (skip : Node → Bool) (p : PlacedNode) : Bool :=
  p.above.all (!skip ·)

namespace Node

variable {skip : Node → Bool} {above : List Node}

/-- Of a node that stands in those of `above`, and all below it, those that stand in none that is passed
by. -/
def reachedBelow (skip : Node → Bool) (above : List Node) (n : Node) : List Node :=
  ((n.placed above).filter (·.isReached skip)).map PlacedNode.node

/-- The nodes of a tree that stand in none that is passed by, in the order of the listing. -/
def reached (skip : Node → Bool) (n : Node) : List Node :=
  n.reachedBelow skip []

/-- Nothing is reached that stands in a node that is passed by. -/
theorem reachedBelow_of_mem {x : Node} (hx : x ∈ above) (hskip : skip x) (n : Node) :
    n.reachedBelow skip above = [] := by
  rw [reachedBelow, List.map_eq_nil_iff, List.filter_eq_nil_iff]
  intro p hp hreached
  have h := List.all_eq_true.1 hreached x (subset_above hp hx)
  rw [hskip] at h
  cases h

/-- A node is reached if it stands in none that is passed by, and if it is not passed by itself, then so
are its children. -/
theorem reachedBelow_eq (h : ∀ x ∈ above, skip x = false) (n : Node) : n.reachedBelow skip above =
    n :: if skip n then [] else n.children.flatMap (reachedBelow skip (n :: above)) := by
  have hself : PlacedNode.isReached skip ⟨n, above⟩ := by
    simpa [PlacedNode.isReached] using h
  rw [reachedBelow, placed_eq, List.filter_cons_of_pos hself, List.map_cons, List.filter_flatMap,
    List.map_flatMap]
  split
  · next hn =>
    refine congrArg _ (List.flatMap_eq_nil_iff.2 fun c _ => ?_)
    exact reachedBelow_of_mem List.mem_cons_self hn c
  · rfl

/-- If no node is passed by, all are reached. -/
theorem reached_none (n : Node) : n.reached (fun _ => false) = n.listing := by
  rw [reached, reachedBelow, List.filter_eq_self.2 fun p _ => ?_]
  · rfl
  · simp [PlacedNode.isReached]

end Node

/-! ### Walks as repetitions -/

namespace Visitor

section Guided

variable {m : Type → Type} [Monad m] [LawfulMonad m]

/-- To repeat something for each list of a list of lists is to repeat it for all of them together. -/
theorem forM_eq_forM_flatMap {α β : Type} {g : α → m Unit} {f : β → m Unit} {l : α → List β}
    {as : List α} (h : ∀ a ∈ as, g a = forM (l a) f) : forM as g = forM (as.flatMap l) f := by
  induction as with
  | nil => rfl
  | cons a as ih =>
    rw [List.forall_mem_cons] at h
    rw [List.forM_cons, List.flatMap_cons, List.forM_append, h.1, ih h.2]

theorem visit_guided_below (f : Node → m Unit) {skip : Node → Bool} {above : List Node}
    (h : ∀ x ∈ above, skip x = false) (n : Node) :
    (guided f skip).visit n = forM (n.reachedBelow skip above) f := by
  induction n using Node.induction generalizing above with
  | step n ih =>
    rw [visit_eq, Node.reachedBelow_eq h, List.forM_cons, guided, on_uniform]
    refine congrArg (f n >>= ·) (funext fun _ => ?_)
    cases hn : skip n with
    | true => rfl
    | false =>
      have hbelow : ∀ x ∈ n :: above, skip x = false := List.forall_mem_cons.2 ⟨hn, h⟩
      exact forM_eq_forM_flatMap fun c hc => ih c hc hbelow

/-- A walk that does one thing at every node, and passes some by, does this along the list of the nodes
that are reached. -/
theorem visit_guided (f : Node → m Unit) (skip : Node → Bool) (n : Node) :
    (guided f skip).visit n = forM (n.reached skip) f :=
  visit_guided_below f (by simp) n

end Guided

/-! ### A walk that keeps a record -/

/-- Keeps a record of nodes, and may stop. -/
abbrev Recording : Type → Type :=
  ExceptT Unit (StateM (List Node))

/-- Adds a node to the record, and stops when the record is full. -/
def record (full : Option Nat) (n : Node) : Recording Unit := do
  modify (· ++ [n])
  if some (← get).length = full then throw ()

/-- The visitor that adds every node to the record, stops when the record is full, and does not walk
through the children of a node of the given sorts. -/
def recorder (skip : List Hook) (full : Option Nat) : Visitor Recording :=
  guided (record full) fun n => n.hook ∈ skip

theorem run_record (full : Option Nat) (n : Node) (seen : List Node) : (record full n).run seen =
    (if some (seen ++ [n]).length = full then .error () else .ok (), seen ++ [n]) := by
  have hrun : (record full n).run seen =
      (if some (seen ++ [n]).length = full then throw () else pure () : Recording Unit).run
        (seen ++ [n]) := rfl
  rw [hrun]
  split <;> rfl

theorem run_record_bind (full : Option Nat) (n : Node) (p : Recording Unit) (seen : List Node) :
    (record full n >>= fun _ => p).run seen =
      if some (seen ++ [n]).length = full then (.error (), seen ++ [n]) else p.run (seen ++ [n]) := by
  have hrun : (record full n >>= fun _ => p).run seen =
      ExceptT.bindCont (fun _ => p) ((record full n).run seen).1 ((record full n).run seen).2 := rfl
  rw [hrun, run_record]
  split <;> rfl

/-- A record that never is full takes all nodes. -/
theorem forM_record_none (ns seen : List Node) :
    (forM ns (record none)).run seen = (.ok (), seen ++ ns) := by
  induction ns generalizing seen with
  | nil =>
    rw [List.append_nil]
    rfl
  | cons n ns ih =>
    rw [List.forM_cons, run_record_bind, if_neg nofun, ih, List.append_assoc, List.singleton_append]

/-- A record takes nodes until it is full. -/
theorem forM_record_some {full : Nat} {seen : List Node} (h : seen.length < full) (ns : List Node) :
    (forM ns (record (some full))).run seen =
      (if full ≤ (seen ++ ns).length then .error () else .ok (), (seen ++ ns).take full) := by
  induction ns generalizing seen with
  | nil =>
    rw [List.append_nil, if_neg (by omega), List.take_of_length_le (by omega)]
    rfl
  | cons n ns ih =>
    have hlen : (seen ++ [n]).length = seen.length + 1 := List.length_append
    rw [List.forM_cons, run_record_bind, List.append_cons seen n ns]
    split
    · next hfull =>
      have hle : (seen ++ [n]).length ≤ (seen ++ [n] ++ ns).length :=
        (List.prefix_append _ _).length_le
      rw [← Option.some.inj hfull, List.take_left, if_pos hle]
    · next hfull =>
      rw [Option.some.injEq] at hfull
      exact ih (by omega)

/-- **A walk that stops is cut short, and nothing changes before the cut.** -/
theorem recorder_visit (skip : List Hook) (n : Node) :
    let events := n.reached fun x => x.hook ∈ skip
    ((recorder skip none).visit n).run [] = (.ok (), events) ∧
      ∀ stop, 1 ≤ stop → ((recorder skip (some stop)).visit n).run [] =
        (if stop ≤ events.length then .error () else .ok (), events.take stop) := by
  intro events
  refine ⟨?_, fun stop hstop => ?_⟩
  · rw [recorder, visit_guided]
    exact forM_record_none events []
  · rw [recorder, visit_guided]
    have hnil : ([] : List Node).length < stop := hstop
    exact forM_record_some hnil events

/-- In `SELECT f(x) FROM m WHERE y` fields are passed by, and the fifth node is the measurement. -/
theorem recorder_visit_passing_fields :
    let call := Expr.call "f" [.atom (.var ⟨"x", .unknown⟩)]
    let condition := Expr.atom (.var ⟨"y", .unknown⟩)
    let select : Select := ⟨[⟨call, none⟩], [.measurement (.named "m")], some condition, false⟩
    let (answer, seen) := ((recorder [.field] (some 5)).visit (.statement (.select select))).run []
    1 ≤ 5 ∧ answer = .error () ∧
      seen.map Node.hook = [.statement, .select, .field, .source, .measurement] := by
  intro call condition select
  rw [(recorder_visit [.field] (.statement (.select select))).2 5 (by decide)]
  have hreached : Node.reached (fun x => x.hook ∈ [Hook.field]) (.statement (.select select)) =
      [.statement (.select select), .select select, .field ⟨call, none⟩,
        .source (.measurement (.named "m")), .measurement (.named "m"), .expr condition] := by
    simp [Node.reached, Node.reachedBelow_eq, Node.children, Node.hook, select, condition]
  rw [hreached]
  exact ⟨by decide, rfl, rfl⟩

end Visitor

namespace Expr

variable {m : Type → Type} [Monad m] [LawfulMonad m]

/-- The walk that does one thing at every expression does it along the list of the expressions. -/
theorem inspect_eq_forM (f : Expr → m Unit) (e : Expr) : e.inspect f = forM e.preorder f := by
  induction e with
  | atom a =>
    rw [preorder, List.forM_cons, List.forM_nil]
    rfl
  | call name args ih =>
    rw [preorder, preorderAll_eq_flatMap, List.forM_cons, ← Visitor.forM_eq_forM_flatMap ih]
    show (do f (call name args); Visitor.visitExprs _ args) = _
    rw [Visitor.visitExprs_eq_forM]
    rfl
  | binary op l r ihl ihr =>
    rw [preorder, List.forM_cons, List.forM_append, ← ihl, ← ihr]
    rfl
  | paren e ih =>
    rw [preorder, List.forM_cons, ← ih]
    rfl

theorem containsCall_eq (e : Expr) : e.containsCall = e.preorder.any isCall := by
  rw [containsCall, inspect_eq_forM]
  induction e.preorder with
  | nil => rfl
  | cons x xs ih =>
    rw [List.any_cons, ← ih, List.forM_cons]
    cases x.isCall <;> rfl

theorem firstCondition?_eq (e : Expr) : e.firstCondition? = e.preorder.findSome? ownCondition? := by
  rw [firstCondition?, inspect_eq_forM]
  induction e.preorder with
  | nil => rfl
  | cons x xs ih =>
    rw [List.findSome?_cons, ← ih, List.forM_cons]
    cases x.ownCondition? <;> rfl

end Expr

end InfluxQL
