import InfluxQL.Pattern.Basic
import InfluxQL.Unicode.Encoding

/-!
# The size of compiled patterns

A pattern compiles to two automata over bytes, one that reads forwards and notes where groups start
and end, and one that reads backwards. Each is a table of *states*. A state takes 32 bytes, and more
if several ways lead on: 8 bytes for each that reads a byte, 4 for each that reads nothing.

* `Program.ofSet`: the automata for one character out of a set;
* `Pattern.program`: those for a whole pattern;
* `Program.size`: the greater of their sizes.
-/

namespace InfluxQL

/-- What is known of the automata for a pattern: their sizes in bytes, and what that of a larger
pattern depends on. -/
structure Program where
  forward : Nat
  backward : Nat
  /-- There is nothing to do: such a part leaves no trace in a sequence. -/
  idle : Bool
  /-- Each match has at least one character. -/
  consumes : Bool
  /-- No match has a character. -/
  still : Bool
  /-- The characters of which a match is one, where that is all there is to it. -/
  set? : Option Unicode.CodeSet
  deriving Repr, Inhabited

namespace Program

open Unicode (CodeSet ByteRange)

/-- The size of `n` states with `ways` ways between them that read nothing, where a state with one
way on counts for none. -/
def states (n ways : Nat) : Nat :=
  32 * n + 4 * ways

/-- The size of a state that reads one out of several byte ranges. -/
def reading (ranges : Nat) : Nat :=
  32 + 8 * ranges

/-- Adds to both sizes. -/
def grow (p : Program) (size : Nat) : Program :=
  { p with forward := p.forward + size, backward := p.backward + size }

/-- Puts the same program `n` times behind one another. -/
def times (p : Program) (n : Nat) : Program :=
  { p with forward := n * p.forward, backward := n * p.backward }

/-- Sequences in increasing order, gathered by the byte range with which they start. -/
def gather : List (List ByteRange) → List (ByteRange × List (List ByteRange))
  | [] => []
  | [] :: rest => gather rest
  | (r :: tail) :: rest =>
    match gather rest with
    | (r', tails) :: more =>
      if r = r' then (r, tail :: tails) :: more else (r, [tail]) :: (r', tails) :: more
    | [] => [(r, [tail])]

/-- What is still to be read in each place of sequences of at most `n` bytes, the ends left out. -/
def places : Nat → List (List ByteRange) → List (List (List ByteRange))
  | 0, _ => []
  | n + 1, sequences =>
    match gather sequences with
    | [] => []
    | starts => sequences :: starts.flatMap fun (_, tails) => places n tails

/-- The sum of some sizes. -/
def total (sizes : List Nat) : Nat :=
  sizes.foldr (· + ·) 0

/-- The size of the forward automaton for one of some sequences. Places at which the same is still
to be read share a state. -/
def forwardSize (sequences : List (List ByteRange)) : Nat :=
  states 1 0 + total ((places 4 sequences).eraseDups.map fun s => reading (gather s).length)

/-- The size of the backward automaton for one of some sequences. There is a state for each byte
range of a sequence, shared by those that start alike. -/
def backwardSize (sequences : List (List ByteRange)) : Nat :=
  states 2 sequences.length
    + total ((places 4 sequences).map fun s => states (gather s).length 0)

/-- One character out of a set. A single one is spelled out, a byte a state; ASCII takes one state
that reads a byte, and one behind it. -/
def ofSet (set : CodeSet) : Program :=
  let sizes : Nat × Nat :=
    match set.ranges with
    | [] => (states 1 0 + reading 0, states 1 0 + reading 0)
    | [(a, b)] =>
      if a = b then
        let size := states (Char.ofNat a).utf8Size 0
        (size, size)
      else ofRanges
    | _ => ofRanges
  ⟨sizes.1, sizes.2, false, !set.ranges.isEmpty, false, some set⟩
where
  /-- The sizes for two characters or more. -/
  ofRanges : Nat × Nat :=
    if set.ranges.all (·.2 < 0x80) then
      let size := states 1 0 + reading set.ranges.length
      (size, size)
    else (forwardSize set.sequences, backwardSize set.sequences)

/-- Nothing to do. -/
def nothing : Program :=
  ⟨states 1 0, states 1 0, true, false, true, none⟩

/-- A condition on a place. -/
def assertion : Program :=
  ⟨states 1 0, states 1 0, false, false, true, none⟩

/-- A group. Only the forward automaton notes where it starts and ends. -/
def capture (p : Program) : Program :=
  { p with forward := p.forward + states 2 0, idle := false, set? := none }

/-- One program behind the other, idle ones left out. -/
def sequence (ps : List Program) : Program :=
  match ps.filter (!·.idle) with
  | [] => nothing
  | [p] => p
  | ps =>
    ⟨total (ps.map forward), total (ps.map backward), false, ps.any consumes, ps.all still, none⟩

/-- Two or more alternatives. Those for one character each are one set. -/
def choice (ps : List Program) : Program :=
  match ps.mapM set? with
  | some sets => ofSet (sets.foldl CodeSet.union .empty)
  | none =>
    grow ⟨total (ps.map forward), total (ps.map backward), false, ps.all consumes, ps.all still,
      none⟩ (states 2 ps.length)

/-- A number of times the same: what must be there is repeated, what may be there is guarded, and a
loop goes back to its start. Without characters, once is as good as often. -/
def repeated (p : Program) (least : Nat) (most : Option Nat) : Program :=
  let least := if p.still then min least 1 else least
  let most := if p.still then some (min (most.getD 1) 1) else most
  let q : Program :=
    { p with idle := false, consumes := p.consumes && least != 0, set? := none }
  match least, most with
  | 0, some 0 => nothing
  | 1, some 1 => p
  | 0, some 1 => q.grow (states 2 2)
  | 0, none => q.grow (if p.consumes then states 1 2 else states 3 4)
  | n + 1, none => (q.times (n + 1)).grow (states 1 2)
  | n, some m =>
    if n = m then q.times n
    else
      let further := ((p.grow (states 1 2)).times (m - n)).grow (states (if n = 0 then 2 else 1) 0)
      { q with
        forward := n * p.forward + further.forward
        backward := n * p.backward + further.backward }

/-- The size of the larger automaton. Both skip bytes before a match and have a state for its end;
the forward one notes where the match starts and ends. -/
def size (p : Program) : Nat :=
  let around := states 2 2 + reading 1 + states 1 0
  max (p.forward + states 2 0 + around) (p.backward + around)

end Program

namespace Pattern

mutual

/-- The program for a pattern. -/
def program : Pattern → Program
  | empty | setFlags => .nothing
  | assertion => .assertion
  | oneOf set _ => .ofSet set
  | repeated p least most => p.program.repeated least most
  | group captures p => if captures then p.program.capture else p.program
  | sequence ps => .sequence (programs ps)
  | choice ps => .choice (programs ps)

/-- The programs for some patterns. -/
def programs : List Pattern → List Program
  | [] => []
  | p :: rest => p.program :: programs rest

end

end Pattern

end InfluxQL
