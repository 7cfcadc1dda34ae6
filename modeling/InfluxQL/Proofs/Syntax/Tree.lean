import InfluxQL.Syntax.Statement

/-!
# Trees as a whole

* `Expr.induction`: induction on an expression, with an assumption for each argument of a call;
* `Expr.Everywhere`: what holds of an expression and of all below it;
* `Expr.equal_self`: a tree without a NaN equals itself.
-/

namespace InfluxQL

namespace Expr

/-- Induction on an expression, with an assumption for each argument of a call. -/
@[elab_as_elim, induction_eliminator]
theorem induction {P : Expr → Prop} (atom : ∀ a, P (.atom a))
    (call : ∀ name args, (∀ e ∈ args, P e) → P (.call name args))
    (binary : ∀ op l r, P l → P r → P (.binary op l r)) (paren : ∀ e, P e → P (.paren e)) :
    ∀ e, P e
  | .atom a => atom a
  | .call name args => call name args fun e _ => induction atom call binary paren e
  | .binary op l r =>
    binary op l r (induction atom call binary paren l) (induction atom call binary paren r)
  | .paren e => paren e (induction atom call binary paren e)

/-- The property holds of the expression and of all below it. -/
def Everywhere (P : Expr → Prop) (e : Expr) : Prop :=
  ∀ x ∈ e.preorder, P x

section Everywhere

variable {P Q : Expr → Prop}

@[simp] theorem everywhere_atom (a : Atom) : (atom a).Everywhere P ↔ P (atom a) := by
  simp [Everywhere, preorder]

@[simp] theorem everywhere_call (name : String) (args : List Expr) :
    (call name args).Everywhere P ↔ P (call name args) ∧ ∀ e ∈ args, e.Everywhere P := by
  simp only [Everywhere, preorder, preorderAll_eq_flatMap, List.mem_cons, List.mem_flatMap,
    forall_eq_or_imp, forall_exists_index, and_imp]
  exact and_congr_right fun _ => ⟨fun h e he x hx => h x e he hx, fun h x e he hx => h e he x hx⟩

@[simp] theorem everywhere_binary (op : Operator) (l r : Expr) :
    (binary op l r).Everywhere P ↔ P (binary op l r) ∧ l.Everywhere P ∧ r.Everywhere P := by
  simp only [Everywhere, preorder, List.mem_cons, List.mem_append, or_imp, forall_and, forall_eq]

@[simp] theorem everywhere_paren (e : Expr) :
    (paren e).Everywhere P ↔ P (paren e) ∧ e.Everywhere P := by
  simp [Everywhere, preorder]

theorem Everywhere.self {e : Expr} (h : e.Everywhere P) : P e := by
  cases e <;> simp at h <;> simp [h]

theorem Everywhere.mono {e : Expr} (h : e.Everywhere P) (hpq : ∀ x, P x → Q x) :
    e.Everywhere Q :=
  fun x hx => hpq x (h x hx)

/-- What holds everywhere in an expression holds everywhere in those below it. -/
theorem Everywhere.of_mem {e x : Expr} (he : e.Everywhere P) (hx : x ∈ e.preorder) :
    x.Everywhere P := by
  induction e with
  | atom a =>
    simp only [preorder, List.mem_singleton] at hx
    exact hx ▸ he
  | call name args ih =>
    simp only [preorder, preorderAll_eq_flatMap, List.mem_cons, List.mem_flatMap] at hx
    rcases hx with rfl | ⟨y, hy, hx⟩
    · exact he
    · exact ih y hy (((everywhere_call ..).1 he).2 y hy) hx
  | binary op l r ihl ihr =>
    obtain ⟨-, hl, hr⟩ := (everywhere_binary ..).1 he
    simp only [preorder, List.mem_cons, List.mem_append] at hx
    rcases hx with rfl | hx | hx
    · exact he
    · exact ihl hl hx
    · exact ihr hr hx
  | paren y ih =>
    simp only [preorder, List.mem_cons] at hx
    rcases hx with rfl | hx
    · exact he
    · exact ih ((everywhere_paren y).1 he).2 hx

end Everywhere

/-! ### Equality with itself -/

/-- The expression is no NaN. -/
def IsNumber : Expr → Prop
  | atom (.number x) => x.isNaN = false
  | _ => True

theorem equalAll_self {es : List Expr} (h : ∀ e ∈ es, e.equal e) : equalAll es es := by
  induction es with
  | nil => rfl
  | cons e rest ih =>
    rw [List.forall_mem_cons] at h
    simp [equalAll, h.1, ih h.2]

/-- A tree without a NaN equals itself. -/
theorem equal_self {e : Expr} (h : e.Everywhere IsNumber) : e.equal e := by
  induction e with
  | atom a =>
    cases a with
    | number x =>
      have hx : x.isNaN = false := (everywhere_atom _).1 h
      simp [equal, Atom.equal, Double.equal_self, hx]
    | _ => simp [equal, Atom.equal]
  | call name args ih =>
    have ha := ((everywhere_call ..).1 h).2
    simp [equal, equalAll_self fun e he => ih e he (ha e he)]
  | binary op l r ihl ihr =>
    obtain ⟨-, hl, hr⟩ := (everywhere_binary ..).1 h
    simp [equal, ihl hl, ihr hr]
  | paren e ih =>
    simp [equal, ih ((everywhere_paren _).1 h).2]

end Expr

/-- All expressions of a statement that are not part of another one. -/
def Select.roots (s : Select) : List Expr :=
  s.fields.map Field.expr ++ s.condition.toList

/-- All expressions of a statement that are not part of another one. -/
def Statement.roots : Statement → List Expr
  | select s => s.roots

/-- All expressions of a query that are not part of another one. -/
def Query.roots (q : Query) : List Expr :=
  q.statements.flatMap Statement.roots

theorem beq_self_of_forall_mem {α : Type} [BEq α] {l : List α} (h : ∀ a ∈ l, a == a) :
    l == l := by
  induction l with
  | nil => rfl
  | cons a l ih =>
    rw [List.forall_mem_cons] at h
    simp [h.1, ih h.2]

theorem Field.beq_self {f : Field} (h : f.expr.equal f.expr) : f == f := by
  have he : (f.expr == f.expr) = true := h
  change instBEqField.beq f f = true
  simp only [instBEqField.beq, he, BEq.rfl, Bool.and_self]

theorem Select.beq_self {s : Select} (h : ∀ e ∈ s.roots, e.equal e) : s == s := by
  simp only [roots, List.forall_mem_append, List.forall_mem_map] at h
  have hf := beq_self_of_forall_mem fun f hf => Field.beq_self (h.1 f hf)
  have hc : (s.condition == s.condition) = true := by
    cases hc : s.condition with
    | none => rfl
    | some e => exact h.2 e (by simp [hc])
  change instBEqSelect.beq s s = true
  simp only [instBEqSelect.beq, hf, hc, BEq.rfl, Bool.and_self]

/-- A query without a NaN equals itself. -/
theorem Query.beq_self {q : Query} (h : ∀ e ∈ q.roots, e.Everywhere Expr.IsNumber) :
    q == q := by
  have hs : (q.statements == q.statements) = true := by
    refine beq_self_of_forall_mem fun x hx => ?_
    cases x with
    | select s =>
      refine Select.beq_self fun e he => Expr.equal_self (h e ?_)
      exact List.mem_flatMap.2 ⟨_, hx, he⟩
  change instBEqQuery.beq q q = true
  simp only [instBEqQuery.beq, hs]

end InfluxQL
