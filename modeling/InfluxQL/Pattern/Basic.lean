import InfluxQL.Unicode.CodeSet

/-!
# Regular expressions

* `Pattern`: a regular expression as it is written, with its groups, repetitions and flags;
* `Pattern.depth`: how deeply its parts are nested.
-/

namespace InfluxQL

/-- A regular expression. -/
inductive Pattern
  /-- Nothing at all, as on either side of a lone bar. -/
  | empty
  /-- Flags for the rest of the group around them. -/
  | setFlags
  /-- A condition on a place, such as the start of the text. -/
  | assertion
  /-- One character out of a set, which may be written with brackets nested to some depth. -/
  | oneOf (set : Unicode.CodeSet) (brackets : Nat)
  /-- A number of times the same, without an upper bound if `most` is missing. -/
  | repeated (body : Pattern) (least : Nat) (most : Option Nat)
  | group (captures : Bool) (body : Pattern)
  /-- Two or more parts, one behind the other. -/
  | sequence (parts : List Pattern)
  /-- Two or more alternatives. -/
  | choice (branches : List Pattern)
  deriving Repr, Inhabited

namespace Pattern

/-- The pattern of some parts, one behind the other. -/
def ofParts : List Pattern → Pattern
  | [] => empty
  | [p] => p
  | ps => sequence ps

/-- The pattern of some alternatives. -/
def ofBranches : List Pattern → Pattern
  | [p] => p
  | ps => choice ps

mutual

/-- The number of groups, repetitions, sequences, choices and brackets around the innermost part. -/
def depth : Pattern → Nat
  | empty | setFlags | assertion => 0
  | oneOf _ brackets => brackets
  | repeated p _ _ => p.depth + 1
  | group _ p => p.depth + 1
  | sequence ps => depthAll ps + 1
  | choice ps => depthAll ps + 1

/-- The greatest depth of some patterns. -/
def depthAll : List Pattern → Nat
  | [] => 0
  | p :: rest => max p.depth (depthAll rest)

end

end Pattern

end InfluxQL
