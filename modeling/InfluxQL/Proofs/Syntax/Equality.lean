import InfluxQL.Diagnostic
import InfluxQL.Syntax.Statement

/-!
# Equality of trees can be decided

Two trees are equal as trees if they are built alike; `==` is coarser where zeros are concerned, and no
NaN is `==` to itself. With these instances, what a text is parsed to can be computed.

* `Expr.decEq`: equality of expressions, by recursion on both;
* `decidableEqExcept`: equality of what a parser answers.
-/

namespace InfluxQL

namespace Expr

mutual

/-- Are two expressions the same tree? -/
def decEq : (x y : Expr) → Decidable (x = y)
  | atom a, atom b => decidable_of_iff (a = b) (by simp)
  | call m xs, call n ys =>
    match decEqAll xs ys with
    | isTrue h => decidable_of_iff (m = n) (by simp [h])
    | isFalse h => isFalse (by simp [h])
  | binary o l r, binary p l' r' =>
    match decEq l l', decEq r r' with
    | isTrue h, isTrue h' => decidable_of_iff (o = p) (by simp [h, h'])
    | isFalse h, _ => isFalse (by simp [h])
    | _, isFalse h => isFalse (by simp [h])
  | paren x, paren y =>
    match decEq x y with
    | isTrue h => isTrue (by simp [h])
    | isFalse h => isFalse (by simp [h])
  | atom _, call .. | atom _, binary .. | atom _, paren _ => isFalse (by simp)
  | call .., atom _ | call .., binary .. | call .., paren _ => isFalse (by simp)
  | binary .., atom _ | binary .., call .. | binary .., paren _ => isFalse (by simp)
  | paren _, atom _ | paren _, call .. | paren _, binary .. => isFalse (by simp)

/-- Are two lists of expressions the same? -/
def decEqAll : (xs ys : List Expr) → Decidable (xs = ys)
  | [], [] => isTrue rfl
  | x :: xs, y :: ys =>
    match decEq x y, decEqAll xs ys with
    | isTrue h, isTrue h' => isTrue (by simp [h, h'])
    | isFalse h, _ => isFalse (by simp [h])
    | _, isFalse h => isFalse (by simp [h])
  | [], _ :: _ | _ :: _, [] => isFalse (by simp)

end

instance : DecidableEq Expr :=
  decEq

end Expr

deriving instance DecidableEq for Field, Select, Statement, Query

instance decidableEqExcept {ε α : Type} [DecidableEq ε] [DecidableEq α] : DecidableEq (Except ε α)
  | .ok x, .ok y => decidable_of_iff (x = y) (by simp)
  | .error d, .error e => decidable_of_iff (d = e) (by simp)
  | .ok _, .error _ | .error _, .ok _ => isFalse (by simp)

end InfluxQL
