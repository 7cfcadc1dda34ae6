import InfluxQL.Proofs.Grammar.Operands
import InfluxQL.Proofs.Syntax.Equality
import InfluxQL.Proofs.Syntax.Tree

/-!
# What the references of an expression are read from

* `Expr.references`: the references in an expression, in the order of the text;
* `Grammar.ReferencesRead`: they are read one after the other;
* `parseExpr_references`: the dots of each.
-/

namespace InfluxQL

namespace Expr

/-- The reference that the expression is. -/
def reference? : Expr → Option VarRef
  | atom (.var v) => some v
  | _ => none

/-- The references in an expression, in the order of the text. -/
def references (e : Expr) : List VarRef :=
  e.preorder.filterMap reference?

theorem mem_references {e : Expr} {v : VarRef} :
    v ∈ e.references ↔ atom (.var v) ∈ e.preorder := by
  rw [references, List.mem_filterMap]
  constructor
  · rintro ⟨x, hx, hv⟩
    unfold reference? at hv
    split at hv <;> cases hv
    exact hx
  · exact fun h => ⟨_, h, rfl⟩

@[simp] theorem references_var (v : VarRef) : (atom (.var v)).references = [v] := rfl

theorem references_literal {a : Atom} (h : ∀ v, a ≠ .var v) : (atom a).references = [] := by
  cases a <;> first | rfl | exact absurd rfl (h _)

@[simp] theorem references_call (name : String) (args : List Expr) :
    (call name args).references = args.flatMap references := by
  rw [references, preorder, preorderAll_eq_flatMap, List.filterMap_cons_none rfl,
    List.filterMap_flatMap]
  rfl

@[simp] theorem references_binary (op : Operator) (l r : Expr) :
    (binary op l r).references = l.references ++ r.references := by
  rw [references, preorder, List.filterMap_cons_none rfl, List.filterMap_append]
  rfl

@[simp] theorem references_paren (e : Expr) : (paren e).references = e.references := by
  rw [references, preorder, List.filterMap_cons_none rfl]
  rfl

/-- What is inserted is behind all references. -/
theorem references_insert (op : Operator) (e rhs : Expr) :
    (e.insert op rhs).references = e.references ++ rhs.references := by
  induction e with
  | binary o l r _ ih =>
    rw [insert]
    split
    · simp [ih]
    · simp
  | atom | call | paren => simp [insert]

theorem references_ofChain (first : Expr) (ops : List (Operator × Expr)) :
    (ofChain first ops).references = first.references ++ ops.flatMap fun x => x.2.references := by
  induction ops generalizing first with
  | nil => simp [ofChain]
  | cons x ops ih =>
    show (ofChain (first.insert x.1 x.2) ops).references = _
    rw [ih, references_insert, List.flatMap_cons, List.append_assoc]

end Expr

namespace Grammar

open Production Scanner

/-- The references of an expression are read one after the other. -/
def ReferencesRead (c : Scanner) (e : Expr) (c' : Scanner) : Prop :=
  c.ReadsInTurn ReferenceRead e.references c'

variable {c c' : Scanner} {e : Expr}

theorem ReferencesRead.of_nil (he : e.references = []) (h : c.Reaches c') :
    ReferencesRead c e c' := by
  rw [ReferencesRead, he]
  exact .done h

theorem ArgumentRead.references (h : ArgumentRead ReferencesRead c e c') :
    ReferencesRead c e c' := by
  cases h with
  | regex behind => exact .of_nil rfl behind
  | nested before expr => exact expr.after before

theorem OperandRead.references (h : OperandRead ReferencesRead c e c') :
    ReferencesRead c e c' := by
  cases h with
  | literal novar behind => exact .of_nil (Expr.references_literal novar) behind
  | reference ref => exact .single ref
  | call arguments =>
    rw [ReferencesRead, Expr.references_call]
    exact arguments.flatMap ArgumentRead.references
  | paren before expr behind =>
    rw [ReferencesRead, Expr.references_paren]
    exact (expr.after before).trans behind

theorem OperationRead.references {x : Operator × Expr}
    (h : OperationRead ReferencesRead c x c') : ReferencesRead c x.2 c' := by
  cases h with
  | regex _ behind => exact .of_nil rfl behind
  | operand _ before operand => exact operand.references.after before

variable [PatternCompiler]

/-- The references of every expression are read one after the other. -/
theorem expression_references (params : Params) (n : Nat) (c : Scanner) :
    (expression params n).ComesTo c (ReferencesRead c) := by
  refine expression_comesTo params (fun {c d c' first ops} hfirst hops => ?_) n c
  rw [ReferencesRead, Expr.references_ofChain]
  exact (hfirst.references.append (hops.flatMap OperationRead.references)).after
    c.reaches_pastBlank

end Grammar

end InfluxQL
