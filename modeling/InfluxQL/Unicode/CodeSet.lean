import InfluxQL.Unicode.CaseTable
import InfluxQL.Unicode.ClassTable

/-!
# Sets of code points

A set is a list of ranges, by first and last member, in increasing order and with gaps between
them.

* `inRanges`: is a character in one of some ranges;
* `CodeSet.union`, `complement` and what follows from them;
* `CodeSet.foldCase`: the set with all characters that differ from a member in case alone.
-/

namespace InfluxQL.Unicode

/-- Does a code point lie in one of the ranges? -/
def inRanges (ranges : List (Nat × Nat)) (c : Char) : Bool :=
  ranges.any fun (first, last) => first ≤ c.toNat && c.toNat ≤ last

/-- A set of code points, as ranges in increasing order with gaps between them. -/
structure CodeSet where
  ranges : List (Nat × Nat)
  deriving DecidableEq, Repr, Inhabited

namespace CodeSet

/-- The last code point. -/
def lastCode : Nat := 0x10FFFF

/-- Puts the code points from `first` to `last` among ranges. -/
def insertRange (first last : Nat) : List (Nat × Nat) → List (Nat × Nat)
  | [] => [(first, last)]
  | (a, b) :: rest =>
    if last + 1 < a then (first, last) :: (a, b) :: rest
    else if b + 1 < first then (a, b) :: insertRange first last rest
    else insertRange (min first a) (max last b) rest

/-- The code points from `start` on that lie in none of the ranges. -/
def gaps (start : Nat) : List (Nat × Nat) → List (Nat × Nat)
  | [] => if start ≤ lastCode then [(start, lastCode)] else []
  | (a, b) :: rest =>
    if start < a then (start, a - 1) :: gaps (b + 1) rest else gaps (b + 1) rest

/-- No code point. -/
def empty : CodeSet := ⟨[]⟩

/-- The code points from `first` to `last`. -/
def interval (first last : Nat) : CodeSet := ⟨[(first, last)]⟩

/-- A single character. -/
def single (c : Char) : CodeSet := interval c.toNat c.toNat

/-- The characters of some ranges, given in any order. -/
def ofRanges (rs : List (Nat × Nat)) : CodeSet :=
  ⟨rs.foldr (fun (a, b) => insertRange a b) []⟩

/-- The code points of both sets together. -/
def union (s t : CodeSet) : CodeSet :=
  ⟨s.ranges.foldr (fun (a, b) => insertRange a b) t.ranges⟩

/-- The code points that are not in the set. -/
def complement (s : CodeSet) : CodeSet :=
  ⟨gaps 0 s.ranges⟩

/-- The code points that both sets share. -/
def inter (s t : CodeSet) : CodeSet :=
  (s.complement.union t.complement).complement

/-- The code points of the first set that are not in the second. -/
def diff (s t : CodeSet) : CodeSet :=
  s.inter t.complement

/-- The code points that are in one of the sets, and not in both. -/
def symmDiff (s t : CodeSet) : CodeSet :=
  (s.diff t).union (t.diff s)

end CodeSet

/-- The run that leads back. -/
def CaseRun.reverse (r : CaseRun) : CaseRun :=
  ⟨(r.first + r.shift).toNat, (r.last + r.shift).toNat, r.step, -r.shift⟩

/-- Where a run leads from the code points of a range. Only runs to a neighbour skip code points, so
that those between two members of the run are taken along without harm. -/
def CaseRun.image? (r : CaseRun) (first last : Nat) : Option (Nat × Nat) :=
  let low := r.first + (first - r.first + r.step - 1) / r.step * r.step
  let high := r.first + (min last r.last - r.first) / r.step * r.step
  if low ≤ min last r.last ∧ r.first ≤ last then
    some ((low + r.shift).toNat, (high + r.shift).toNat)
  else none

namespace CodeSet

/-- The set with all that the runs lead to from its members. -/
def along (runs : List CaseRun) (s : CodeSet) : CodeSet :=
  (ofRanges (s.ranges.flatMap fun (a, b) => runs.filterMap (·.image? a b))).union s

/-- The set with all characters that differ from a member in case alone: down to the lower-case
letters first, and from there to all forms of them. -/
def foldCase (s : CodeSet) : CodeSet :=
  let runs := lowercaseRuns ++ caseVariants
  (s.along runs).along (runs.map CaseRun.reverse)

end CodeSet

end InfluxQL.Unicode
