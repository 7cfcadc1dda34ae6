import InfluxQL.Unicode.CodeSet

/-!
# Characters and classes of characters in patterns

* `Escape`, `escape?`: what a backslash and the character behind it stand for;
* `CharClass`: a class in brackets, as a set of characters and the depth of its notation;
* `CharClass.read?`: reads a class, which may hold other classes, ranges, named classes and the
  operations `&&`, `--` and `~~`.
-/

namespace InfluxQL.Pattern

open Unicode (CodeSet)

/-- The flags that change how a pattern is read. -/
structure Flags where
  /-- Blanks and comments may stand between the parts. -/
  spaced : Bool
  /-- Letters stand for all their forms. -/
  anyCase : Bool
  deriving DecidableEq, Repr, Inhabited

/-- The blanks that may stand between the parts of a pattern. -/
def isSpace (c : Char) : Bool :=
  Unicode.inRanges Unicode.blankRanges c

/-- Drops blanks and comments, which last from a `#` to the end of the line. -/
def dropSpace (inComment : Bool) : List Char → List Char
  | [] => []
  | c :: rest =>
    if inComment then dropSpace (c != '\n') rest
    else if isSpace c then dropSpace false rest
    else if c = '#' then dropSpace true rest
    else c :: rest

/-- Drops blanks and comments where they may stand between the parts. -/
def Flags.drop (flags : Flags) (text : List Char) : List Char :=
  if flags.spaced then dropSpace false text else text

/-- The characters that a set of characters stands for. -/
def Flags.forms (flags : Flags) (set : CodeSet) : CodeSet :=
  if flags.anyCase then set.foldCase else set

/-- What an escape stands for. -/
inductive Escape
  | literal (c : Char)
  | oneOf (set : CodeSet)
  | assertion
  deriving DecidableEq, Repr

/-- The meaning of a backslash and `c`: the classes of digits, blanks and word characters,
assertions on words and ends, control characters, and any other ASCII character that is neither a
letter nor a digit for itself. -/
def escape? (c : Char) : Option Escape :=
  if "AzbB<>".toList.contains c then some .assertion
  else
    match c with
    | 'd' => some (.oneOf ⟨Unicode.digitRanges⟩)
    | 's' => some (.oneOf ⟨Unicode.blankRanges⟩)
    | 'w' => some (.oneOf ⟨Unicode.wordRanges⟩)
    | 'D' => some (.oneOf (CodeSet.complement ⟨Unicode.digitRanges⟩))
    | 'S' => some (.oneOf (CodeSet.complement ⟨Unicode.blankRanges⟩))
    | 'W' => some (.oneOf (CodeSet.complement ⟨Unicode.wordRanges⟩))
    | 'a' => some (.literal '\x07')
    | 't' => some (.literal '\t')
    | 'n' => some (.literal '\n')
    | 'v' => some (.literal '\x0b')
    | 'f' => some (.literal '\x0c')
    | 'r' => some (.literal '\r')
    | _ => if c.toNat < 0x80 && !c.isAlphanum then some (.literal c) else none

/-- A class of characters: its members, and how deeply its notation is nested. -/
structure CharClass where
  set : CodeSet
  depth : Nat
  deriving DecidableEq, Repr

namespace CharClass

/-- The operations on classes. -/
inductive Operation
  | both
  | without
  | eitherNotBoth
  deriving DecidableEq, Repr

/-- The result of an operation. -/
def Operation.apply : Operation → CodeSet → CodeSet → CodeSet
  | both => CodeSet.inter
  | without => CodeSet.diff
  | eitherNotBoth => CodeSet.symmDiff

/-- The members that stand side by side in a class. Two or more are one level deeper. -/
def ofItems : List CharClass → CharClass
  | [] => ⟨.empty, 0⟩
  | [c] => c
  | cs => ⟨cs.foldl (fun s c => s.union c.set) .empty, (cs.foldl (fun n c => max n c.depth) 0) + 1⟩

/-- A class whose closing bracket is still to come: the operation that has been read, with the class
before it, and what stands behind that operation. -/
structure Draft where
  negated : Bool
  before : Option (CharClass × Operation)
  items : List CharClass

/-- Adds a member. -/
def Draft.add (d : Draft) (c : CharClass) : Draft :=
  { d with items := c :: d.items }

/-- What has been read, as one class. Operations are done from left to right. -/
def Draft.body (d : Draft) : CharClass :=
  let right := ofItems d.items
  match d.before with
  | none => right
  | some (left, op) => ⟨op.apply left.set right.set, max left.depth right.depth + 1⟩

/-- Goes on behind an operation. -/
def Draft.operate (d : Draft) (op : Operation) : Draft :=
  ⟨d.negated, some (d.body, op), []⟩

/-- The class at its closing bracket. -/
def Draft.close (d : Draft) (flags : Flags) : CharClass :=
  let set := flags.forms d.body.set
  ⟨if d.negated then set.complement else set, d.body.depth + 1⟩

/-- One character of a class, and the text after it. -/
def item? : List Char → Option (Escape × List Char)
  | [] => none
  | '\\' :: c :: rest => (escape? c).map (·, rest)
  | ['\\'] => none
  | c :: rest => some (.literal c, rest)

/-- The classes that are written like `[:alpha:]`. -/
def named : List (String × List (Nat × Nat)) :=
  [("alnum", [(0x30, 0x39), (0x41, 0x5A), (0x61, 0x7A)]), ("alpha", [(0x41, 0x5A), (0x61, 0x7A)]),
    ("ascii", [(0, 0x7F)]), ("blank", [(0x09, 0x09), (0x20, 0x20)]),
    ("cntrl", [(0, 0x1F), (0x7F, 0x7F)]), ("digit", [(0x30, 0x39)]), ("graph", [(0x21, 0x7E)]),
    ("lower", [(0x61, 0x7A)]), ("print", [(0x20, 0x7E)]),
    ("punct", [(0x21, 0x2F), (0x3A, 0x40), (0x5B, 0x60), (0x7B, 0x7E)]),
    ("space", [(0x09, 0x0D), (0x20, 0x20)]), ("upper", [(0x41, 0x5A)]),
    ("word", [(0x30, 0x39), (0x41, 0x5A), (0x5F, 0x5F), (0x61, 0x7A)]),
    ("xdigit", [(0x30, 0x39), (0x41, 0x46), (0x61, 0x66)])]

/-- Cuts off a named class, which may be negated, of which `[:` has been read. -/
def named? (text : List Char) : Option (CodeSet × List Char) :=
  let negated := text.head? = some '^'
  let text := if negated then text.drop 1 else text
  let name := text.takeWhile (· != ':')
  match named.lookup (String.ofList name), text.drop name.length with
  | some ranges, ':' :: ']' :: rest =>
    some (if negated then CodeSet.complement ⟨ranges⟩ else ⟨ranges⟩, rest)
  | _, _ => none

/-- One character of a class, or a range of two that are in order. -/
def range? (flags : Flags) (text : List Char) : Option (CodeSet × List Char) := do
  let (first, rest) ← item? text
  let rest := flags.drop rest
  let beyond := flags.drop (rest.drop 1)
  if rest.head? = some '-' ∧ beyond.head? ≠ some ']' ∧ beyond.head? ≠ some '-' then
    let (last, rest) ← item? beyond
    match first, last with
    | .literal a, .literal b =>
      if a.toNat ≤ b.toNat then some (.interval a.toNat b.toNat, rest) else none
    | _, _ => none
  else
    match first with
    | .assertion => none
    | .oneOf set => some (set, rest)
    | .literal c => some (.single c, rest)

/-- What stands after the opening bracket of a class: a caret, then dashes that stand for
themselves or else a bracket that does. -/
def opened (flags : Flags) (text : List Char) : Draft × List Char :=
  let text := flags.drop text
  let negated := text.head? = some '^'
  let text := if negated then flags.drop (text.drop 1) else text
  if text.head? = some '-' then
    let dashes := text.takeWhile fun c => c == '-' || (flags.spaced && isSpace c)
    let items := List.replicate (dashes.count '-') ⟨.single '-', 0⟩
    (⟨negated, none, items⟩, text.drop dashes.length)
  else if text.head? = some ']' then (⟨negated, none, [⟨.single ']', 0⟩]⟩, text.drop 1)
  else (⟨negated, none, []⟩, text)

/-- Reads to the end of the outermost class, in at most `n` steps. The drafts are those of the
innermost class and of the ones around it. -/
def readFrom? (flags : Flags) :
    Nat → Draft → List Draft → List Char → Option (CharClass × List Char)
  | 0, _, _, _ => none
  | n + 1, draft, outside, text =>
    match flags.drop text with
    | [] => none
    | ']' :: rest =>
      match outside with
      | [] => some (draft.close flags, rest)
      | outer :: outside => readFrom? flags n (outer.add (draft.close flags)) outside rest
    | '&' :: '&' :: rest => readFrom? flags n (draft.operate .both) outside rest
    | '-' :: '-' :: rest => readFrom? flags n (draft.operate .without) outside rest
    | '~' :: '~' :: rest => readFrom? flags n (draft.operate .eitherNotBoth) outside rest
    | '[' :: rest =>
      match (if rest.head? = some ':' then named? (rest.drop 1) else none) with
      | some (set, rest) => readFrom? flags n (draft.add ⟨set, 0⟩) outside rest
      | none =>
        let (inner, rest) := opened flags rest
        readFrom? flags n inner (draft :: outside) rest
    | text => do
      let (set, rest) ← range? flags text
      readFrom? flags n (draft.add ⟨set, 0⟩) outside rest

/-- Reads a class whose opening bracket has been read, and gives the text after it. -/
def read? (flags : Flags) (text : List Char) : Option (CharClass × List Char) :=
  let (draft, rest) := opened flags text
  readFrom? flags (rest.length + 1) draft [] rest

end CharClass

end InfluxQL.Pattern
