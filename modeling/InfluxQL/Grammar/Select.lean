import InfluxQL.Grammar.Expression
import InfluxQL.Syntax.Traversal

/-!
# SELECT statements

    select    ::= "SELECT" field ( "," field )* "FROM" source ( "," source )* [ "WHERE" expression ]
    field     ::= expression [ "AS" ident ]
    source    ::= regex | name [ regex ]

A name before a regular expression ends with a dot and qualifies it. The comma after a field follows
it with at most one blank. In fields there are no operators that compare or join truth values, and
the aggregates in them are checked when the statement has been read.
-/

namespace InfluxQL.Grammar

open Production

variable [PatternCompiler]

/-- The name that a field gets, if there is one. -/
def fieldName? : Production (Option String) := do
  let t ← scanSignificant
  if t.kind = .keyword .AS then
    let name ← ident
    pure (some name)
  else
    unscan
    pure none

/-- A field. -/
def field (params : Params) (steps : Nat) : Production Field := do
  let first ← scanSignificant
  unscan
  let e ← expression params steps
  match e.firstCondition? with
  | some op => failAt first (.conditionInField op)
  | none =>
    let name ← fieldName?
    skipBlank
    pure ⟨e, name⟩

/-- A field behind those read so far; a comma behind it asks for a further one, and anything
else ends the fields. -/
def furtherField (params : Params) (steps : Nat) (fields : List Field) :
    Production (List Field ⊕ List Field) := do
  let f ← field params steps
  let t ← scan
  if t.kind = .comma then pure (.inl (fields ++ [f]))
  else
    unscan
    pure (.inr (fields ++ [f]))

/-- The measurement that a name and a regular expression refer to. -/
def measurementOf : List String → Option String → Measurement
  | [name], none => ⟨none, none, some name, none⟩
  | [policy], regex => ⟨none, some policy, none, regex⟩
  | [policy, name], none => ⟨none, some policy, some name, none⟩
  | [database, policy], regex => ⟨some database, some policy, none, regex⟩
  | database :: policy :: name :: _, _ => ⟨some database, some policy, some name, none⟩
  | [], regex => ⟨none, none, none, regex⟩

/-- A source. A name with three segments is complete; a shorter one may qualify a regular
expression. -/
def source (steps : Nat) : Production Source := do
  match ← regex? with
  | some p => pure (.measurement (measurementOf [] (some p)))
  | none =>
    let names ← dottedName steps
    if names.length = maxSegments then pure (.measurement (measurementOf names none))
    else
      let p ← regex?
      pure (.measurement (measurementOf names p))

/-- A source behind those read so far, if a comma stands behind it, and else the end of the
sources. -/
def furtherSource (steps : Nat) (sources : List Source) :
    Production (List Source ⊕ List Source) := do
  let s ← source steps
  let t ← scanSignificant
  if t.kind = .comma then pure (.inl (sources ++ [s]))
  else
    unscan
    pure (.inr (sources ++ [s]))

/-- The condition of a statement, if there is one. -/
def condition? (params : Params) (steps : Nat) : Production (Option Expr) := do
  let t ← scanSignificant
  if t.kind = .keyword .WHERE then
    let e ← expression params steps
    pure (some e)
  else
    unscan
    pure none

/-- A statement whose first word, `first`, has been read. -/
def select (params : Params) (steps : Nat) (first : Token) : Production Select := do
  let fields ← loop (furtherField params steps) steps []
  let t ← scanSignificant
  if t.kind = .keyword .FROM then
    let sources ← loop (furtherSource steps) steps []
    let condition ← condition? params steps
    let s : Select := ⟨fields, sources, condition, !fields.any (·.expr.containsCall)⟩
    match s.validate with
    | .ok _ => pure s
    | .error fault => failAt first (.semantic fault)
  else unexpected t ["FROM"]

end InfluxQL.Grammar
