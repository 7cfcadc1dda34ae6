import InfluxQL.Syntax.Statement

/-!
# Aggregates in the fields of a statement

An aggregate collapses many points into one value. In the fields of a statement

* every aggregate call needs one argument, and `percentile` two, the second of which is a number;
* aggregate calls and references to single points exclude each other.

What stands inside an aggregate call is its input and is looked at no further. Main definition:
`Select.validate`, which reports the first fault in the order of the text, and a mixture last.
-/

namespace InfluxQL

/-- The names of the aggregates. -/
def aggregates : List String :=
  ["count", "distinct", "first", "last", "max", "mean", "median", "min", "mode", "spread",
    "stddev", "sum", "percentile"]

/-- Is this the name of an aggregate? -/
def isAggregate (name : String) : Bool :=
  aggregates.contains name

/-- What is wrong with the aggregates of a statement. -/
inductive SemanticError
  /-- Aggregates stand beside references to single points. -/
  | mixedAggregates
  /-- An aggregate has too few or too many arguments. -/
  | argumentCount (name : String) (expected got : Nat)
  /-- The second argument of `percentile` is no number. -/
  | percentileArgument
  deriving DecidableEq, Repr, Inhabited

/-- The wording of a fault. -/
def SemanticError.message : SemanticError → String
  | mixedAggregates => "mixing aggregate and non-aggregate queries is not supported"
  | argumentCount name expected got =>
    "invalid number of arguments for " ++ name ++ ", expected " ++ toString expected ++ ", got "
      ++ toString got
  | percentileArgument => "expected float argument in percentile()"

/-- Is the expression a number literal? -/
def Expr.isNumeral : Expr → Bool
  | atom (.number _) | atom (.integer _) => true
  | _ => false

/-- The fault in the arguments of an aggregate call, if there is one. -/
def argumentFault? (name : String) (args : List Expr) : Option SemanticError :=
  if name = "percentile" then
    match args with
    | [_, p] => if p.isNumeral then none else some .percentileArgument
    | _ => some (.argumentCount name 2 args.length)
  else if args.length = 1 then none
  else some (.argumentCount name 1 args.length)

/-- Which of the two that exclude each other have been seen. -/
structure Usage where
  aggregate : Bool
  reference : Bool
  deriving DecidableEq, Repr, Inhabited

mutual

/-- What has been seen after one more expression. -/
def Expr.usage (u : Usage) : Expr → Except SemanticError Usage
  | atom (.var _) => .ok { u with reference := true }
  | atom _ => .ok u
  | call name args =>
    if isAggregate name then
      match argumentFault? name args with
      | some fault => .error fault
      | none => .ok { u with aggregate := true }
    else usageAll u args
  | binary _ l r =>
    match l.usage u with
    | .error fault => .error fault
    | .ok u => r.usage u
  | paren e => e.usage u

/-- What has been seen after a list of expressions. -/
def Expr.usageAll (u : Usage) : List Expr → Except SemanticError Usage
  | [] => .ok u
  | e :: rest =>
    match e.usage u with
    | .error fault => .error fault
    | .ok u => usageAll u rest

end

/-- Checks the aggregates in the fields of a statement. -/
def Select.validate (s : Select) : Except SemanticError Unit :=
  match Expr.usageAll ⟨false, false⟩ (s.fields.map Field.expr) with
  | .error fault => .error fault
  | .ok u => if u.aggregate && u.reference then .error .mixedAggregates else .ok ()

/-- Checks a statement. -/
def Statement.validate : Statement → Except SemanticError Unit
  | select s => s.validate

end InfluxQL
