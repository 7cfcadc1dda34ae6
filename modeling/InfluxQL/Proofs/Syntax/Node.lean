import InfluxQL.Syntax.Statement
import Mathlib.Data.List.Basic

/-!
# The nodes of a tree

A tree is made of nodes of seven sorts, and a node together with all below it is a tree again. What is
said here about one node and its children holds for trees of every sort.

* `Node`, `Node.hook`: a node, and its sort;
* `Node.children`: the nodes right below a node, in the order of the text;
* `Node.induction`: induction on a tree, with an assumption for each child of a node;
* `Node.placed`: a node and all below it, each with those that it stands in;
* `Node.listing`: the same without these: the pre-order listing of a tree;
* `Node.label`: what a node itself holds, and how many children it has;
* `Node.eq_of_labels`: the labels in the listing of a tree tell the tree.
-/

namespace InfluxQL

/-- The sorts of nodes. -/
inductive Hook
  | query
  | statement
  | select
  | field
  | source
  | measurement
  | expr
  deriving DecidableEq, Repr

/-- A node, with all that is below it. -/
inductive Node
  | query (q : Query)
  | statement (s : Statement)
  | select (s : Select)
  | field (f : Field)
  | source (s : Source)
  | measurement (m : Measurement)
  | expr (e : Expr)

namespace Node

/-- The sort of a node. -/
def hook : Node → Hook
  | query _ => .query
  | statement _ => .statement
  | select _ => .select
  | field _ => .field
  | source _ => .source
  | measurement _ => .measurement
  | expr _ => .expr

/-- The nodes right below a node, in the order of the text: statements; fields, sources and condition;
operands and arguments from left to right. -/
def children : Node → List Node
  | query q => q.statements.map statement
  | statement (.select s) => [select s]
  | select s => s.fields.map field ++ (s.sources.map source ++ s.condition.toList.map expr)
  | field f => [expr f.expr]
  | source (.measurement m) => [measurement m]
  | measurement _ => []
  | expr (.atom _) => []
  | expr (.call _ args) => args.map expr
  | expr (.binary _ l r) => [expr l, expr r]
  | expr (.paren e) => [expr e]

theorem sizeOf_lt_of_mem_children {n c : Node} (h : c ∈ n.children) : sizeOf c < sizeOf n := by
  cases n with
  | query q =>
    obtain ⟨x, hx, rfl⟩ := List.mem_map.1 h
    have := List.sizeOf_lt_of_mem hx
    cases q
    simp only [query.sizeOf_spec, statement.sizeOf_spec, Query.mk.sizeOf_spec] at *
    omega
  | statement s =>
    cases s
    obtain rfl := List.mem_singleton.1 h
    simp only [statement.sizeOf_spec, select.sizeOf_spec, Statement.select.sizeOf_spec]
    omega
  | select s =>
    cases s
    simp only [children, List.mem_append, List.mem_map, Option.mem_toList] at h
    simp only [select.sizeOf_spec, Select.mk.sizeOf_spec]
    rcases h with ⟨x, hx, rfl⟩ | ⟨x, hx, rfl⟩ | ⟨x, hx, rfl⟩
    · have := List.sizeOf_lt_of_mem hx
      simp only [field.sizeOf_spec]
      omega
    · have := List.sizeOf_lt_of_mem hx
      simp only [source.sizeOf_spec]
      omega
    · obtain rfl := Option.mem_def.1 hx
      simp only [expr.sizeOf_spec, Option.some.sizeOf_spec]
      omega
  | field f =>
    cases f
    obtain rfl := List.mem_singleton.1 h
    simp only [field.sizeOf_spec, Field.mk.sizeOf_spec, expr.sizeOf_spec]
    omega
  | source s =>
    cases s
    obtain rfl := List.mem_singleton.1 h
    simp only [source.sizeOf_spec, Source.measurement.sizeOf_spec, measurement.sizeOf_spec]
    omega
  | measurement m => cases h
  | expr e =>
    cases e with
    | atom a => cases h
    | call name args =>
      obtain ⟨x, hx, rfl⟩ := List.mem_map.1 h
      have := List.sizeOf_lt_of_mem hx
      simp only [expr.sizeOf_spec, Expr.call.sizeOf_spec]
      omega
    | binary op l r =>
      simp only [children, List.mem_cons, List.not_mem_nil, or_false] at h
      simp only [expr.sizeOf_spec, Expr.binary.sizeOf_spec]
      rcases h with rfl | rfl
      · simp only [expr.sizeOf_spec]
        omega
      · simp only [expr.sizeOf_spec]
        omega
    | paren e =>
      obtain rfl := List.mem_singleton.1 h
      simp only [expr.sizeOf_spec, Expr.paren.sizeOf_spec]
      omega

/-- Induction on a tree, with an assumption for each child of a node. -/
@[elab_as_elim]
theorem induction {P : Node → Prop} (step : ∀ n, (∀ c ∈ n.children, P c) → P n) (n : Node) : P n :=
  step n fun c hc =>
    have := sizeOf_lt_of_mem_children hc
    induction step c
termination_by sizeOf n

end Node

/-- A node, and those that it stands in, the nearest first. -/
structure PlacedNode where
  node : Node
  above : List Node

namespace Node

/-- A node that stands in those of `above`, and all below it: parents first, and children in the order
of the text. -/
def placed (above : List Node) (n : Node) : List PlacedNode :=
  ⟨n, above⟩ :: n.children.attach.flatMap fun c =>
    have := sizeOf_lt_of_mem_children c.2
    c.1.placed (n :: above)
termination_by sizeOf n

theorem placed_eq (above : List Node) (n : Node) :
    n.placed above = ⟨n, above⟩ :: n.children.flatMap (placed (n :: above)) := by
  rw [placed, List.flatMap_def, List.flatMap_def, List.attach_map_val (f := placed (n :: above))]

/-- A node and all below it: parents first, and children in the order of the text. -/
def listing (n : Node) : List Node :=
  (n.placed []).map PlacedNode.node

theorem map_node_placed (above : List Node) (n : Node) :
    (n.placed above).map PlacedNode.node = n.listing := by
  induction n using Node.induction generalizing above with
  | step n ih =>
    rw [listing, placed_eq, placed_eq, List.map_cons, List.map_cons, List.map_flatMap, List.map_flatMap]
    refine congrArg _ (List.flatMap_congr fun c hc => ?_)
    rw [ih c hc, ih c hc]

/-- The listing of a tree begins with its root; the listings of the children follow. -/
theorem listing_eq (n : Node) : n.listing = n :: n.children.flatMap listing := by
  rw [listing, placed_eq, List.map_cons, List.map_flatMap]
  exact congrArg _ (List.flatMap_congr fun c _ => map_node_placed _ c)

/-- What stands in a node is listed with this among those above it. -/
theorem subset_above {above : List Node} {n : Node} {p : PlacedNode} (h : p ∈ n.placed above) :
    above ⊆ p.above := by
  induction n using Node.induction generalizing above with
  | step n ih =>
    rw [placed_eq, List.mem_cons, List.mem_flatMap] at h
    rcases h with rfl | ⟨c, hc, h⟩
    · exact List.Subset.refl _
    · exact List.subset_of_cons_subset (ih c hc h)

end Node

/-- What a node itself holds, and how many children it has. -/
inductive NodeLabel
  | query (statements : Nat)
  | statement
  | select (fields sources : Nat) (condition isRaw : Bool)
  | field (name : Option String)
  | source
  | measurement (m : Measurement)
  | atom (a : Atom)
  | call (name : String) (args : Nat)
  | binary (op : Operator)
  | paren
  deriving DecidableEq

/-- The number of children that a label tells. -/
def NodeLabel.arity : NodeLabel → Nat
  | query n => n
  | select fields sources condition _ => fields + (sources + condition.toNat)
  | call _ args => args
  | binary _ => 2
  | statement | field _ | source | paren => 1
  | measurement _ | atom _ => 0

namespace Node

/-- What a node itself holds, and how many children it has. -/
def label : Node → NodeLabel
  | query q => .query q.statements.length
  | statement (.select _) => .statement
  | select s => .select s.fields.length s.sources.length s.condition.isSome s.isRaw
  | field f => .field f.name
  | source (.measurement _) => .source
  | measurement m => .measurement m
  | expr (.atom a) => .atom a
  | expr (.call name args) => .call name args.length
  | expr (.binary op _ _) => .binary op
  | expr (.paren _) => .paren

/-- The labels in the listing of a tree. -/
def labels (n : Node) : List NodeLabel :=
  n.listing.map label

theorem labels_eq (n : Node) : n.labels = n.label :: n.children.flatMap labels := by
  rw [labels, listing_eq, List.map_cons, List.map_flatMap]
  rfl

/-! ### Labels tell the tree -/

theorem length_children (n : Node) : n.children.length = n.label.arity := by
  cases n with
  | select s =>
    obtain ⟨fields, sources, _ | c, isRaw⟩ := s <;> simp [children, label, NodeLabel.arity]
  | statement s =>
    cases s
    rfl
  | source x =>
    cases x
    rfl
  | expr e => cases e <;> simp [children, label, NodeLabel.arity]
  | _ => simp [children, label, NodeLabel.arity]

/-- The statement that a node is. -/
def statement? : Node → Option Statement
  | statement s => some s
  | _ => none

/-- The field that a node is. -/
def field? : Node → Option Field
  | field f => some f
  | _ => none

/-- The source that a node is. -/
def source? : Node → Option Source
  | source x => some x
  | _ => none

/-- The expression that a node is. -/
def expr? : Node → Option Expr
  | expr e => some e
  | _ => none

/-- The node with a label and children. -/
def assemble? : NodeLabel → List Node → Option Node
  | .query _, cs => some (query ⟨cs.filterMap statement?⟩)
  | .statement, [select s] => some (statement (.select s))
  | .select _ _ _ isRaw, cs =>
    some (select ⟨cs.filterMap field?, cs.filterMap source?, (cs.filterMap expr?).head?, isRaw⟩)
  | .field name, [expr e] => some (field ⟨e, name⟩)
  | .source, [measurement m] => some (source (.measurement m))
  | .measurement m, [] => some (measurement m)
  | .atom a, [] => some (expr (.atom a))
  | .call name _, cs => some (expr (.call name (cs.filterMap expr?)))
  | .binary op, [expr l, expr r] => some (expr (.binary op l r))
  | .paren, [expr e] => some (expr (.paren e))
  | _, _ => none

theorem assemble?_label_children (n : Node) : assemble? n.label n.children = some n := by
  cases n with
  | query q =>
    simp [label, children, assemble?, List.filterMap_map, statement?, Function.comp_def]
  | statement s =>
    cases s
    rfl
  | select s =>
    simp [label, children, assemble?, List.filterMap_append, List.filterMap_map, field?, source?, expr?,
      Function.comp_def]
  | source x =>
    cases x
    rfl
  | expr e =>
    cases e with
    | call name args =>
      simp [label, children, assemble?, List.filterMap_map, expr?, Function.comp_def]
    | _ => rfl
  | _ => rfl

/-- A node is told by its label and its children. -/
theorem eq_of_label_children {n m : Node} (h : n.label = m.label) (hc : n.children = m.children) :
    n = m := by
  have heq := assemble?_label_children n
  rw [h, hc, assemble?_label_children] at heq
  exact (Option.some.inj heq).symm

/-- No list of labels of trees continues in two ways. -/
theorem flatMap_labels_inj {cs ds : List Node} {rest rest' : List NodeLabel}
    (hcs : ∀ c ∈ cs, ∀ d rest rest', c.labels ++ rest = d.labels ++ rest' → c = d ∧ rest = rest')
    (hlen : cs.length = ds.length) (h : cs.flatMap labels ++ rest = ds.flatMap labels ++ rest') :
    cs = ds ∧ rest = rest' := by
  induction cs generalizing ds with
  | nil =>
    obtain rfl := List.length_eq_zero_iff.1 hlen.symm
    exact ⟨rfl, h⟩
  | cons c cs ih =>
    obtain ⟨d, ds, rfl⟩ := List.exists_cons_of_length_eq_add_one hlen.symm
    rw [List.forall_mem_cons] at hcs
    rw [List.flatMap_cons, List.flatMap_cons, List.append_assoc, List.append_assoc] at h
    obtain ⟨hcd, htail⟩ := hcs.1 d _ _ h
    obtain ⟨hds, hrest⟩ := ih hcs.2 (Nat.succ.inj hlen) htail
    exact ⟨congrArg₂ _ hcd hds, hrest⟩

/-- No listing of labels is the beginning of another. -/
theorem labels_append_inj {n m : Node} {rest rest' : List NodeLabel}
    (h : n.labels ++ rest = m.labels ++ rest') : n = m ∧ rest = rest' := by
  induction n using Node.induction generalizing m rest rest' with
  | step n ih =>
    rw [labels_eq, labels_eq, List.cons_append, List.cons_append] at h
    obtain ⟨hlabel, h⟩ := List.cons.inj h
    have hlen : n.children.length = m.children.length := by
      rw [length_children, length_children, hlabel]
    obtain ⟨hc, hrest⟩ := flatMap_labels_inj (fun c hc d _ _ => ih c hc) hlen h
    exact ⟨eq_of_label_children hlabel hc, hrest⟩

/-- **The labels in the listing of a tree tell the tree.** -/
theorem eq_of_labels {n m : Node} (h : n.labels = m.labels) : n = m := by
  have happend : n.labels ++ [] = m.labels ++ [] := congrArg (· ++ []) h
  exact (labels_append_inj happend).1

end Node

end InfluxQL
