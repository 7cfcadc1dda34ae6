import InfluxQL.Aggregate
import InfluxQL.Params
import InfluxQL.Proofs.Syntax.Traversal

/-!
# Trees with holes for parameters

A template is a tree in which a hole stands wherever the literal for a parameter belongs. What a
statement is checked for can be told from its template and from the sorts of the values alone.

* `Params.literal?`: the literal for the value of a parameter;
* `Params.SameSorts`: the same parameters with values of the same sorts;
* `Template.fill`: the tree in which the holes are filled from given parameters;
* `ExprTemplate.fill_ofChain`: a chain may be filled before or after its tree is built;
* `ExprTemplate.firstCondition?_fill`, `ExprTemplate.containsCall_fill`,
  `SelectTemplate.validate_fill`: what does not depend on the values.
-/

namespace InfluxQL

/-! ### Values as literals -/

/-- The literal for a value, if the value can be bound. -/
def ParamValue.literal? : ParamValue → Option Atom
  | boolean b => some (.boolean b)
  | integer n => some (.integer n)
  | float x => some (.number x)
  | string s => some (.string s)
  | list _ | null => none

namespace Params

/-- The literal for the value of a parameter, if there is one that can be bound. -/
def literal? (p : Params) (name : String) : Option Atom :=
  (p.get? name).bind ParamValue.literal?

/-- The same parameters have values, and each has one of the same sort. -/
def SameSorts (p p' : Params) : Prop :=
  ∀ name, (p.get? name).map ParamValue.typeName = (p'.get? name).map ParamValue.typeName

theorem SameSorts.refl (p : Params) : p.SameSorts p :=
  fun _ => rfl

theorem SameSorts.get?_none {p p' : Params} (h : p.SameSorts p') {name : String}
    (hv : p.get? name = none) : p'.get? name = none := by
  have hn := h name
  rwa [hv, Option.map_none, eq_comm, Option.map_eq_none_iff] at hn

theorem SameSorts.get?_some {p p' : Params} (h : p.SameSorts p') {name : String} {v : ParamValue}
    (hv : p.get? name = some v) : ∃ v', p'.get? name = some v' ∧ v.typeName = v'.typeName := by
  have hn := h name
  rw [hv, Option.map_some, eq_comm, Option.map_eq_some_iff] at hn
  obtain ⟨v', hv', ht⟩ := hn
  exact ⟨v', hv', ht.symm⟩

end Params

/-- Values of the same sort are both literals or both none, and nothing tells these literals apart
where aggregates are checked. -/
theorem ParamValue.literal?_of_typeName {v v' : ParamValue} (h : v.typeName = v'.typeName) :
    v.literal?.map (fun a => (Expr.atom a).isNumeral) =
      v'.literal?.map (fun a => (Expr.atom a).isNumeral) := by
  cases v <;> cases v' <;> first | rfl | simp [typeName] at h

theorem ParamValue.isSome_literal?_of_typeName {v v' : ParamValue} (h : v.typeName = v'.typeName) :
    v.literal?.isSome = v'.literal?.isSome := by
  have := congrArg Option.isSome (literal?_of_typeName h)
  rwa [Option.isSome_map, Option.isSome_map] at this

/-- A literal is no reference. -/
theorem ParamValue.usage_literal {v : ParamValue} {a : Atom} (h : v.literal? = some a)
    (u : Usage) : (Expr.atom a).usage u = .ok u := by
  cases v <;> cases h <;> rfl

/-! ### Templates -/

/-- A place in the source where a parameter stands. -/
structure Hole where
  name : String
  /-- The byte where the dollar sign stands. -/
  offset : Nat
  deriving DecidableEq, Repr

/-- Data with holes in it, and what it becomes when the holes are filled. -/
class Template (τ : Type) (α : outParam Type) where
  fill : τ → Params → α
  holes : τ → List Hole

/-- The literal in a hole. Where nothing can be bound, it does not matter. -/
def Hole.fill (h : Hole) (p : Params) : Atom :=
  (p.literal? h.name).getD default

/-- In a hole whose parameter can be bound is the literal for its value. -/
theorem Hole.exists_literal {p q : Params} {h : Hole} (hb : (p.literal? h.name).isSome)
    (hq : p.SameSorts q) : ∃ v, q.get? h.name = some v ∧ v.literal? = some (h.fill q) := by
  obtain ⟨a, ha⟩ := Option.isSome_iff_exists.1 hb
  obtain ⟨v, hv, hl⟩ := Option.bind_eq_some_iff.1 ha
  obtain ⟨v', hv', hs⟩ := hq.get?_some hv
  obtain ⟨a', hl'⟩ : ∃ a', v'.literal? = some a' := by
    rw [← Option.isSome_iff_exists, ← ParamValue.isSome_literal?_of_typeName hs, hl]
    rfl
  refine ⟨v', hv', ?_⟩
  rw [Hole.fill, Params.literal?, hv', Option.bind_some, hl', Option.getD_some]

/-- An expression with holes among its literals. -/
inductive ExprTemplate
  | atom (a : Atom)
  | hole (h : Hole)
  | call (name : String) (args : List ExprTemplate)
  | binary (op : Operator) (lhs rhs : ExprTemplate)
  | paren (inner : ExprTemplate)

namespace ExprTemplate

mutual

/-- The expression with its holes filled. -/
def fill : ExprTemplate → Params → Expr
  | atom a, _ => .atom a
  | hole h, p => .atom (h.fill p)
  | call name args, p => .call name (fillAll args p)
  | binary op l r, p => .binary op (l.fill p) (r.fill p)
  | paren t, p => .paren (t.fill p)

/-- Each expression of a list with its holes filled. -/
def fillAll : List ExprTemplate → Params → List Expr
  | [], _ => []
  | t :: rest, p => t.fill p :: fillAll rest p

end

mutual

/-- The holes in the order of the text. -/
def holes : ExprTemplate → List Hole
  | atom _ => []
  | hole h => [h]
  | call _ args => holesAll args
  | binary _ l r => l.holes ++ r.holes
  | paren t => t.holes

/-- The holes of a list of expressions. -/
def holesAll : List ExprTemplate → List Hole
  | [] => []
  | t :: rest => t.holes ++ holesAll rest

end

instance : Template ExprTemplate Expr := ⟨fill, holes⟩

theorem fillAll_eq_map (ts : List ExprTemplate) (p : Params) :
    fillAll ts p = ts.map (fill · p) := by
  induction ts with
  | nil => simp [fillAll]
  | cons t rest ih => simp [fillAll, ih]

theorem holesAll_eq_flatMap (ts : List ExprTemplate) : holesAll ts = ts.flatMap holes := by
  induction ts with
  | nil => simp [holesAll]
  | cons t rest ih => simp [holesAll, ih]

/-! ### Chains -/

/-- Puts `op rhs` behind an expression, as for expressions without holes. -/
def insert (t : ExprTemplate) (op : Operator) (rhs : ExprTemplate) : ExprTemplate :=
  match t with
  | binary o l r =>
    if o.precedence < op.precedence then binary o l (r.insert op rhs)
    else binary op (binary o l r) rhs
  | t => binary op t rhs

/-- The tree of a chain of operands with operators between them. -/
def ofChain (first : ExprTemplate) (ops : List (Operator × ExprTemplate)) : ExprTemplate :=
  ops.foldl (fun t (op, rhs) => t.insert op rhs) first

theorem fill_insert (t : ExprTemplate) (op : Operator) (rhs : ExprTemplate) (p : Params) :
    (t.insert op rhs).fill p = (t.fill p).insert op (rhs.fill p) := by
  fun_induction insert t op rhs with
  | case1 o l r h ih => rw [fill, fill, Expr.insert, if_pos h, ih]
  | case2 o l r h => rw [fill, fill, Expr.insert, if_neg h]
  | case3 t h =>
    rw [fill]
    cases t with
    | binary o l r => exact absurd rfl (h o l r)
    | atom | hole | call | paren => simp [fill, Expr.insert]

theorem holes_insert (t : ExprTemplate) (op : Operator) (rhs : ExprTemplate) :
    (t.insert op rhs).holes = t.holes ++ rhs.holes := by
  fun_induction insert t op rhs with
  | case1 o l r h ih => rw [holes, ih, holes, List.append_assoc]
  | case2 o l r h => rw [holes]
  | case3 t h => rw [holes]

theorem fill_ofChain (first : ExprTemplate) (ops : List (Operator × ExprTemplate)) (p : Params) :
    (ofChain first ops).fill p =
      .ofChain (first.fill p) (ops.map fun x => (x.1, x.2.fill p)) := by
  induction ops generalizing first with
  | nil => rfl
  | cons x ops ih =>
    rw [ofChain, List.foldl_cons, ← ofChain, ih, fill_insert]
    rfl

theorem holes_ofChain (first : ExprTemplate) (ops : List (Operator × ExprTemplate)) :
    (ofChain first ops).holes = first.holes ++ ops.flatMap (·.2.holes) := by
  induction ops generalizing first with
  | nil => simp [ofChain]
  | cons x ops ih =>
    rw [ofChain, List.foldl_cons, ← ofChain, ih, holes_insert, List.flatMap_cons,
      List.append_assoc]

/-! ### What does not depend on the values -/

section Values

variable {p p' : Params}

theorem preorder_map_fill {γ : Type} {g : Expr → γ}
    (hg : ∀ t : ExprTemplate, g (t.fill p) = g (t.fill p')) :
    ∀ t : ExprTemplate, (t.fill p).preorder.map g = (t.fill p').preorder.map g
  | atom a => by simp only [fill]
  | hole h => by simpa [fill, Expr.preorder] using hg (hole h)
  | call name args => by
    have ih : ∀ t ∈ args, (t.fill p).preorder.map g = (t.fill p').preorder.map g :=
      fun t _ => preorder_map_fill hg t
    have hself : g (.call name (args.map (fill · p))) = g (.call name (args.map (fill · p'))) := by
      simpa [fill, fillAll_eq_map] using hg (call name args)
    simp only [fill, fillAll_eq_map, Expr.preorder, Expr.preorderAll_eq_flatMap, List.map_cons,
      List.map_flatMap, List.flatMap_map, hself]
    rw [List.flatMap_def, List.flatMap_def, List.map_congr_left ih]
  | binary op l r => by
    have hself := hg (binary op l r)
    rw [fill, fill] at hself
    simp only [fill, Expr.preorder, List.map_cons, List.map_append, hself, preorder_map_fill hg l,
      preorder_map_fill hg r]
  | paren t => by
    have hself := hg (paren t)
    rw [fill, fill] at hself
    simp only [fill, Expr.preorder, List.map_cons, hself, preorder_map_fill hg t]

/-- Filling holes adds no calls. -/
theorem containsCall_fill (t : ExprTemplate) :
    (t.fill p).containsCall = (t.fill p').containsCall := by
  have h : (t.fill p).preorder.map Expr.isCall = (t.fill p').preorder.map Expr.isCall :=
    preorder_map_fill (fun t => by cases t <;> rfl) t
  have hmap (e : Expr) : e.containsCall = (e.preorder.map Expr.isCall).any id := by
    rw [Expr.containsCall_eq, List.any_map]
    rfl
  rw [hmap, hmap, h]

/-- Filling holes adds no operators. -/
theorem firstCondition?_fill (t : ExprTemplate) :
    (t.fill p).firstCondition? = (t.fill p').firstCondition? := by
  have h :
      (t.fill p).preorder.map Expr.ownCondition? = (t.fill p').preorder.map Expr.ownCondition? :=
    preorder_map_fill (fun t => by cases t <;> rfl) t
  have hmap (e : Expr) :
      e.firstCondition? = (e.preorder.map Expr.ownCondition?).findSome? id := by
    rw [Expr.firstCondition?_eq, List.findSome?_map]
    rfl
  rw [hmap, hmap, h]

/-- The literals of one hole, from values of the same sort. -/
theorem literal?_sameSorts (h : p.SameSorts p') (name : String) :
    (p.literal? name).map (fun a => (Expr.atom a).isNumeral) =
      (p'.literal? name).map (fun a => (Expr.atom a).isNumeral) := by
  unfold Params.literal?
  cases hv : p.get? name with
  | none => rw [h.get?_none hv]
  | some v =>
    obtain ⟨v', hv', ht⟩ := h.get?_some hv
    rw [hv', Option.bind_some, Option.bind_some, ParamValue.literal?_of_typeName ht]

theorem usage_literal {name : String} {a : Atom} (h : p.literal? name = some a) (u : Usage) :
    (Expr.atom a).usage u = .ok u := by
  obtain ⟨v, -, hv⟩ := Option.bind_eq_some_iff.1 h
  exact ParamValue.usage_literal hv u

theorem isNumeral_fill (h : p.SameSorts p') (t : ExprTemplate) :
    (t.fill p).isNumeral = (t.fill p').isNumeral := by
  cases t with
  | hole x =>
    have hl := congrArg (Option.getD · (Expr.atom default).isNumeral) (literal?_sameSorts h x.name)
    simp only [Option.getD_map] at hl
    rw [fill, fill]
    exact hl
  | atom | call | binary | paren => simp only [fill, Expr.isNumeral]

theorem usage_hole (h : p.SameSorts p') (x : Hole) (u : Usage) :
    ((hole x).fill p).usage u = ((hole x).fill p').usage u := by
  have hl := literal?_sameSorts h x.name
  simp only [fill, Hole.fill]
  cases ha : p.literal? x.name with
  | none =>
    rw [ha, Option.map_none, eq_comm, Option.map_eq_none_iff] at hl
    rw [hl]
  | some a =>
    rw [ha, Option.map_some, eq_comm, Option.map_eq_some_iff] at hl
    obtain ⟨a', ha', -⟩ := hl
    rw [ha', Option.getD_some, Option.getD_some, usage_literal ha, usage_literal ha']

theorem argumentFault?_fill (h : p.SameSorts p') (name : String) (args : List ExprTemplate) :
    argumentFault? name (args.map (fill · p)) = argumentFault? name (args.map (fill · p')) := by
  unfold argumentFault?
  simp only [List.length_map]
  match args with
  | [] | [_] | _ :: _ :: _ :: _ => rfl
  | [_, t] => simp only [List.map_cons, List.map_nil, isNumeral_fill h t]

theorem usageAll_fill {ts : List ExprTemplate}
    (h : ∀ t ∈ ts, ∀ u, (t.fill p).usage u = (t.fill p').usage u) (u : Usage) :
    Expr.usageAll u (ts.map (fill · p)) = Expr.usageAll u (ts.map (fill · p')) := by
  induction ts generalizing u with
  | nil => rfl
  | cons t ts ih =>
    rw [List.forall_mem_cons] at h
    simp only [List.map_cons, Expr.usageAll, h.1 u]
    cases (t.fill p').usage u with
    | error fault => rfl
    | ok u => exact ih h.2 u

/-- The aggregates of an expression are checked without a look at the values. -/
theorem usage_fill (h : p.SameSorts p') :
    ∀ (t : ExprTemplate) (u : Usage), (t.fill p).usage u = (t.fill p').usage u
  | atom a, u => by simp only [fill]
  | hole x, u => usage_hole h x u
  | call name args, u => by
    have hargs : Expr.usageAll u (args.map (fill · p)) = Expr.usageAll u (args.map (fill · p')) :=
      usageAll_fill (fun t _ => usage_fill h t) u
    simp only [fill, fillAll_eq_map, Expr.usage, argumentFault?_fill h, hargs]
  | binary op l r, u => by
    simp only [fill, Expr.usage, usage_fill h l u]
    cases (l.fill p').usage u with
    | error fault => rfl
    | ok u => exact usage_fill h r u
  | paren t, u => by
    simp only [fill, Expr.usage, usage_fill h t u]

end Values

end ExprTemplate

section Instances

variable {τ α υ β : Type} [Template τ α] [Template υ β]

instance : Template Operator Operator := ⟨fun op _ => op, fun _ => []⟩

instance : Template (List τ) (List α) :=
  ⟨fun ts p => ts.map (Template.fill · p), fun ts => ts.flatMap Template.holes⟩

instance : Template (Option τ) (Option α) :=
  ⟨fun t p => t.map (Template.fill · p), fun t => t.toList.flatMap Template.holes⟩

instance : Template (τ × υ) (α × β) :=
  ⟨fun t p => (Template.fill t.1 p, Template.fill t.2 p),
    fun t => Template.holes t.1 ++ Template.holes t.2⟩

instance : Template (τ ⊕ υ) (α ⊕ β) :=
  ⟨fun t p => t.map (Template.fill · p) (Template.fill · p), Sum.elim Template.holes Template.holes⟩

end Instances

/-! ### Statements -/

/-- A field with holes. -/
structure FieldTemplate where
  expr : ExprTemplate
  name : Option String

/-- A `SELECT` statement with holes in its fields and its condition. -/
structure SelectTemplate where
  fields : List FieldTemplate
  sources : List Source
  condition : Option ExprTemplate
  isRaw : Bool

/-- A statement with holes. -/
inductive StatementTemplate
  | select (s : SelectTemplate)

/-- A query with holes. -/
structure QueryTemplate where
  statements : List StatementTemplate

instance : Template FieldTemplate Field :=
  ⟨fun t p => ⟨t.expr.fill p, t.name⟩, fun t => t.expr.holes⟩

instance : Template SelectTemplate Select :=
  ⟨fun t p => ⟨Template.fill t.fields p, t.sources, Template.fill t.condition p, t.isRaw⟩,
    fun t => Template.holes t.fields ++ Template.holes t.condition⟩

instance : Template StatementTemplate Statement where
  fill | .select s, p => .select (Template.fill s p)
  holes | .select s => Template.holes s

instance : Template QueryTemplate Query :=
  ⟨fun t p => ⟨Template.fill t.statements p⟩, fun t => Template.holes t.statements⟩

/-- The query with its holes filled. -/
def QueryTemplate.fill (t : QueryTemplate) (p : Params) : Query :=
  Template.fill t p

/-- The holes in the order of the text. -/
def QueryTemplate.holes (t : QueryTemplate) : List Hole :=
  Template.holes t

section Values

variable {p p' : Params}

/-- Whether a statement is raw does not depend on the values. -/
theorem FieldTemplate.any_containsCall_fill (ts : List FieldTemplate) :
    (Template.fill ts p).any (·.expr.containsCall) =
      (Template.fill ts p').any (·.expr.containsCall) := by
  simp only [Template.fill, List.any_map, Function.comp_def]
  exact congrArg ts.any (funext fun t => ExprTemplate.containsCall_fill t.expr)

/-- Whether the aggregates of a statement are in order depends on nothing but sorts. -/
theorem SelectTemplate.validate_fill (h : p.SameSorts p') (t : SelectTemplate) :
    (Template.fill t p).validate = (Template.fill t p').validate := by
  have hfields (q : Params) : (Template.fill t q).fields.map Field.expr =
      (t.fields.map FieldTemplate.expr).map (·.fill q) := by
    simp [Template.fill]
  rw [Select.validate, Select.validate, hfields, hfields,
    ExprTemplate.usageAll_fill fun x _ => ExprTemplate.usage_fill h x]

end Values

end InfluxQL
