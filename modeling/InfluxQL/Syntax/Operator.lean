/-!
# Binary operators

The fourteen operators, how each is written, and how tightly it binds: from `OR`, the loosest,
to `*` and `/`, the tightest.
-/

namespace InfluxQL

/-- A binary operator. -/
inductive Operator
  | add
  | sub
  | mul
  | div
  | and
  | or
  | eq
  | notEq
  | matching
  | notMatching
  | lt
  | lessEq
  | gt
  | greaterEq
  deriving DecidableEq, Repr, Inhabited

namespace Operator

/-- Every operator, once. -/
def all : List Operator :=
  [add, sub, mul, div, and, or, eq, notEq, matching, notMatching, lt, lessEq, gt, greaterEq]

theorem mem_all (o : Operator) : o ∈ all := by
  cases o <;> decide

/-- The way an operator is written. -/
def text : Operator → String
  | add => "+"
  | sub => "-"
  | mul => "*"
  | div => "/"
  | and => "AND"
  | or => "OR"
  | eq => "="
  | notEq => "!="
  | matching => "=~"
  | notMatching => "!~"
  | lt => "<"
  | lessEq => "<="
  | gt => ">"
  | greaterEq => ">="

/-- How tightly an operator binds; a greater number binds tighter. -/
def precedence : Operator → Nat
  | or => 1
  | and => 2
  | eq | notEq | matching | notMatching | lt | lessEq | gt | greaterEq => 4
  | add | sub => 5
  | mul | div => 6

/-- The operators whose right side is a regular expression. -/
def isMatch : Operator → Bool
  | matching | notMatching => true
  | _ => false

/-- The operators that compare or join truth values. They belong in a `WHERE` clause. -/
def isCondition : Operator → Bool
  | add | sub | mul | div => false
  | _ => true

/-- Different operators are written differently. -/
theorem text_injective {o o' : Operator} (h : o.text = o'.text) : o = o' := by
  cases o <;> cases o' <;> first | rfl | exact absurd h (by decide)

end Operator

end InfluxQL
