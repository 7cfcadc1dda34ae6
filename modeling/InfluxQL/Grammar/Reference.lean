import InfluxQL.Grammar.Production

/-!
# Names

A dotted name has at most three segments. A segment between two dots may be empty, and the name
ends before a slash or a colon even if a dot stands before it:

    name ::= ident ( "." [ ident ] )*

* `Grammar.ident`: a single name;
* `Grammar.segments`: a dotted name whose first segment has been read.
-/

namespace InfluxQL.Grammar

open Production

/-- The token of a single name. -/
def identToken : Production Token := do
  let t ← scanSignificant
  if t.kind = .ident then pure t else unexpected t ["identifier"]

/-- A single name. -/
def ident : Production String := do
  let t ← identToken
  pure t.lit

/-- The segments of a name read so far, and the byte where it ends. -/
structure Segments where
  names : List String
  stop : Nat
  deriving Repr

/-- Reads a dot and the segment behind it, if there is one. -/
def segment (s : Segments) : Production (Segments ⊕ Segments) := do
  let t ← scan
  if t.kind = .dot then
    match ← peek? with
    | some '/' | some ':' => pure (.inr ⟨s.names, t.span.stop⟩)
    | some '.' => pure (.inl ⟨s.names ++ [""], t.span.stop⟩)
    | _ =>
      let t ← identToken
      pure (.inl ⟨s.names ++ [t.lit], t.span.stop⟩)
  else
    unscan
    pure (.inr s)

/-- A dotted name has no more segments than this. -/
def maxSegments : Nat :=
  3

/-- The segments of a dotted name that starts with the token `first`. -/
def segments (steps : Nat) (first : Token) : Production (List String) := do
  let s ← loop segment steps ⟨[first.lit], first.span.stop⟩
  if s.names.length ≤ maxSegments then pure s.names
  else fail ⟨.tooManySegments s.names, first.pos, ⟨first.span.start, s.stop⟩⟩

/-- A dotted name. -/
def dottedName (steps : Nat) : Production (List String) := do
  let first ← identToken
  segments steps first

end InfluxQL.Grammar
