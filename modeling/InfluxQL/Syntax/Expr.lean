import InfluxQL.Numeric.Double
import InfluxQL.Syntax.Operator

/-!
# Expressions

An expression is an *atom* (a reference or a literal), a call, a binary operation or an expression
in parentheses. Trees carry no positions and are plain values.

* `Expr.insert`, `Expr.ofChain`: the tree of operands with operators between them, built by adding
  one operator and its right operand after the other as precedence demands;
* `Expr.preorder`: an expression and all below it, parents first and left to right;
* `Expr.equal`: equality of trees, with numbers compared as numbers.
-/

namespace InfluxQL

/-- The type that a reference may declare. -/
inductive DataType
  | unknown
  | float
  | integer
  | string
  | boolean
  deriving DecidableEq, Repr, Inhabited

namespace DataType

/-- The name of a type. -/
def text : DataType → String
  | unknown => "unknown"
  | float => "float"
  | integer => "integer"
  | string => "string"
  | boolean => "boolean"

/-- The types that can be declared. -/
def declarable : List DataType :=
  [float, integer, string, boolean]

/-- The type with a given name. Only ASCII letters have a case here. -/
def ofName? (name : List Char) : Option DataType :=
  let small := String.ofList (name.map Char.toLower)
  declarable.find? (·.text = small)

end DataType

/-- A reference to a field or a tag. The segments of a dotted name are joined by dots. -/
structure VarRef where
  name : String
  type : DataType
  deriving DecidableEq, Repr, Inhabited

/-- An expression without parts: a reference or a literal. -/
inductive Atom
  | var (v : VarRef)
  | string (value : String)
  | number (value : Double)
  | integer (value : Int64)
  | boolean (value : Bool)
  | regex (pattern : String)
  deriving DecidableEq, Repr, Inhabited

/-- Equality of atoms, with doubles compared as numbers. -/
def Atom.equal : Atom → Atom → Bool
  | number x, number y => x.equal y
  | a, b => a == b

/-- An expression. -/
inductive Expr
  | atom (a : Atom)
  | call (name : String) (args : List Expr)
  | binary (op : Operator) (lhs rhs : Expr)
  | paren (inner : Expr)
  deriving Repr, Inhabited

namespace Expr

/-- Puts `op rhs` behind an expression: below every operation on the right edge that binds less
tightly, and above all the rest. -/
def insert (e : Expr) (op : Operator) (rhs : Expr) : Expr :=
  match e with
  | binary o l r =>
    if o.precedence < op.precedence then binary o l (r.insert op rhs)
    else binary op (binary o l r) rhs
  | e => binary op e rhs

/-- The tree of a chain of operands with operators between them. -/
def ofChain (first : Expr) (ops : List (Operator × Expr)) : Expr :=
  ops.foldl (fun e (op, rhs) => e.insert op rhs) first

mutual

/-- The expression and all below it, parents first and left to right. -/
def preorder : Expr → List Expr
  | atom a => [atom a]
  | call name args => call name args :: preorderAll args
  | binary op l r => binary op l r :: (preorder l ++ preorder r)
  | paren e => paren e :: preorder e

/-- All expressions of a list and all below them. -/
def preorderAll : List Expr → List Expr
  | [] => []
  | e :: rest => preorder e ++ preorderAll rest

end

/-- Is the expression itself a call? -/
def isCall : Expr → Bool
  | call .. => true
  | _ => false

/-- The operator of the expression itself, if that belongs in a `WHERE` clause. -/
def ownCondition? : Expr → Option Operator
  | binary op _ _ => if op.isCondition then some op else none
  | _ => none

mutual

/-- Equality of trees, with doubles compared as numbers. -/
def equal : Expr → Expr → Bool
  | atom a, atom b => a.equal b
  | call name args, call name' args' => name == name' && equalAll args args'
  | binary op l r, binary op' l' r' => op == op' && equal l l' && equal r r'
  | paren e, paren e' => equal e e'
  | _, _ => false

/-- Equality of lists of trees. -/
def equalAll : List Expr → List Expr → Bool
  | [], [] => true
  | e :: rest, e' :: rest' => equal e e' && equalAll rest rest'
  | _, _ => false

end

instance : BEq Expr := ⟨equal⟩

theorem preorderAll_eq_flatMap (es : List Expr) : preorderAll es = es.flatMap preorder := by
  induction es with
  | nil => simp [preorderAll]
  | cons e rest ih => simp [preorderAll, ih]

end Expr

end InfluxQL
