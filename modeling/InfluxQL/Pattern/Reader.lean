import InfluxQL.Pattern.Basic
import InfluxQL.Pattern.CharClass

/-!
# Reading regular expressions

`Pattern.ofText?` reads a pattern from left to right and refuses

* a group or a class that is not closed, or a closing parenthesis that opens nothing;
* a repetition with nothing before it, with bounds out of order, or not closed;
* look-around, back-references and other unknown escapes;
* a range of characters out of order, unknown or repeated flags, and group names that are missing,
  malformed or used twice.

Patterns know literals, `.`, `^`, `$`, alternatives, groups (also named, or with flags), nested
classes, repetitions (also lazy, and one on top of the other) and the escapes of `escape?`. With
the flag `x` blanks and comments may stand between the parts. Code points in hexadecimal and
Unicode properties are no part of this language.
-/

namespace InfluxQL.Pattern

open Unicode (CodeSet)

/-- A decimal number below `2 ^ 32` with blanks around it, and the text after it. -/
def count? (text : List Char) : Option (Nat × List Char) :=
  let text := text.dropWhile isSpace
  let digits := text.takeWhile Char.isDigit
  let n := Nat.ofDigitChars 10 digits 0
  if digits.isEmpty || UInt32.size ≤ n then none
  else some (n, (text.drop digits.length).dropWhile isSpace)

/-- The bounds of a repetition, of which the opening brace has been read, and the text after them.
They must be in order. -/
def bounds? (flags : Flags) (text : List Char) : Option ((Nat × Option Nat) × List Char) := do
  let (low, rest) ← count? (flags.drop text)
  match rest with
  | '}' :: rest => some ((low, some low), rest)
  | ',' :: rest =>
    match flags.drop rest with
    | '}' :: rest => some ((low, none), rest)
    | rest =>
      let (high, rest) ← count? rest
      match rest with
      | '}' :: rest => if low ≤ high then some ((low, some high), rest) else none
      | _ => none
  | _ => none

/-- Drops the question mark that makes a repetition lazy. -/
def dropLazy (text : List Char) : List Char :=
  if text.head? = some '?' then text.drop 1 else text

/-- May a group name have this character? Beyond ASCII all do. -/
def isNameChar (first : Bool) (c : Char) : Bool :=
  if first then isLetter c else isLetter c || c.isDigit || c == '.' || c == '[' || c == ']'
where
  /-- Letters and the underscore. -/
  isLetter (c : Char) : Bool := c.isAlpha || c == '_' || 0x80 ≤ c.toNat

/-- A group name and the text after its closing angle. -/
def groupName? (text : List Char) : Option (List Char × List Char) :=
  match text.takeWhile (· != '>'), text.dropWhile (· != '>') with
  | c :: name, _ :: rest =>
    if isNameChar true c && name.all (isNameChar false) then some (c :: name, rest) else none
  | _, _ => none

/-- The flags after a list of letters: each letter stands at most once, and those after a dash, of
which there is at most one and not at the end, are cleared. -/
def Flags.change? (flags : Flags) (letters : List Char) : Option Flags :=
  let set := letters.takeWhile (· != '-')
  let cleared := letters.drop set.length
  let now (c : Char) (before : Bool) : Bool := set.contains c || (before && !cleared.contains c)
  if letters.all ("imsUuRx-".toList.contains ·) && decide letters.Nodup && cleared != ['-'] then
    some ⟨now 'x' flags.spaced, now 'i' flags.anyCase⟩
  else none

/-- A group as it opens. -/
inductive Opening
  /-- A group, perhaps with a name, and the flags within it. -/
  | group (captures : Bool) (name : Option (List Char)) (flags : Flags)
  /-- Flags for the rest of the group around them. -/
  | flags (flags : Flags)
  deriving DecidableEq, Repr

/-- Reads what follows an opening parenthesis. -/
def opening? (flags : Flags) (text : List Char) : Option (Opening × List Char) :=
  match flags.drop text with
  | '?' :: '=' :: _ | '?' :: '!' :: _ | '?' :: '<' :: '=' :: _ | '?' :: '<' :: '!' :: _ => none
  | '?' :: 'P' :: '<' :: rest | '?' :: '<' :: rest =>
    (groupName? rest).map fun (name, rest) => (.group true (some name) flags, rest)
  | '?' :: rest =>
    let letters := rest.takeWhile fun c => c != ':' && c != ')'
    match flags.change? letters, rest.drop letters.length with
    | some inner, ':' :: rest => some (.group false none inner, rest)
    | some inner, ')' :: rest => if letters.isEmpty then none else some (.flags inner, rest)
    | _, _ => none
  | rest => some (.group true none flags, rest)

/-- A group that is still open: the flags around it, whether it captures, and what stands before it
in the group around it, last part and last branch first. -/
structure Frame where
  flags : Flags
  captures : Bool
  parts : List Pattern
  branches : List Pattern

/-- How far a pattern has been read: the flags, the parts of the current branch and the branches
before it, last ones first, the open groups, and the group names that were used. -/
structure Draft where
  flags : Flags
  parts : List Pattern
  branches : List Pattern
  outside : List Frame
  names : List (List Char)

namespace Draft

/-- Adds a part. -/
def add (d : Draft) (p : Pattern) : Draft :=
  { d with parts := p :: d.parts }

/-- Adds a part that stands for one character. -/
def addCharacter (d : Draft) (set : CodeSet) : Draft :=
  d.add (.oneOf set 0)

/-- Starts another branch. -/
def branch (d : Draft) : Draft :=
  { d with parts := [], branches := ofParts d.parts.reverse :: d.branches }

/-- What has been read in the innermost open group. -/
def body (d : Draft) : Pattern :=
  ofBranches d.branch.branches.reverse

/-- Opens a group. -/
def openGroup (d : Draft) (captures : Bool) (name : Option (List Char)) (flags : Flags) : Draft :=
  ⟨flags, [], [], ⟨d.flags, captures, d.parts, d.branches⟩ :: d.outside, name.toList ++ d.names⟩

/-- Closes the innermost open group. -/
def closeGroup? (d : Draft) : Option Draft :=
  match d.outside with
  | [] => none
  | f :: outside =>
    some ⟨f.flags, .group f.captures d.body :: f.parts, f.branches, outside, d.names⟩

/-- Repeats the last part, which must not be flags. -/
def repeatLast? (d : Draft) (least : Nat) (most : Option Nat) : Option Draft :=
  match d.parts with
  | [] | .setFlags :: _ => none
  | p :: rest => some { d with parts := .repeated p least most :: rest }

end Draft

/-- Reads the next part of a pattern, of which there is at least one character. -/
def part? (d : Draft) : List Char → Option (Draft × List Char)
  | [] => none
  | '(' :: rest => do
    match ← opening? d.flags rest with
    | (.flags flags, rest) => some ({ d.add .setFlags with flags := flags }, rest)
    | (.group captures name flags, rest) =>
      if name.any d.names.contains then none else some (d.openGroup captures name flags, rest)
  | ')' :: rest => d.closeGroup?.map (·, rest)
  | '|' :: rest => some (d.branch, rest)
  | '[' :: rest =>
    (CharClass.read? d.flags rest).map fun (c, rest) => (d.add (.oneOf c.set c.depth), rest)
  | '?' :: rest => (d.repeatLast? 0 (some 1)).map (·, dropLazy rest)
  | '*' :: rest => (d.repeatLast? 0 none).map (·, dropLazy rest)
  | '+' :: rest => (d.repeatLast? 1 none).map (·, dropLazy rest)
  | '{' :: rest => do
    let ((least, most), rest) ← bounds? d.flags rest
    (d.repeatLast? least most).map (·, dropLazy (d.flags.drop rest))
  | '.' :: rest => some (d.addCharacter (CodeSet.single '\n').complement, rest)
  | '^' :: rest | '$' :: rest => some (d.add .assertion, rest)
  | ['\\'] => none
  | '\\' :: c :: rest => do
    match ← escape? c with
    | .literal c => some (d.addCharacter (d.flags.forms (.single c)), rest)
    | .oneOf set => some (d.addCharacter set, rest)
    | .assertion => some (d.add .assertion, rest)
  | c :: rest => some (d.addCharacter (d.flags.forms (.single c)), rest)

/-- Reads at most `n` parts of a pattern, to its end, where all groups must be closed. -/
def readFrom? : Nat → Draft → List Char → Option Pattern
  | n, d, text =>
    match n, d.flags.drop text with
    | _, [] => if d.outside.isEmpty then some d.body else none
    | 0, _ => none
    | n + 1, text =>
      match part? d text with
      | none => none
      | some (d, rest) => readFrom? n d rest

/-- Reads a pattern, which has no more parts than characters. -/
def ofText? (text : List Char) : Option Pattern :=
  readFrom? text.length ⟨⟨false, false⟩, [], [], [], []⟩ text

end InfluxQL.Pattern
