import InfluxQL.Unicode.CodeSet

/-!
# Lower case of texts

The full Unicode lower case, independent of language:

* most characters have at most one lower-case form, which `lowercaseRuns` holds;
* the capital dotted `I` (U+0130) becomes an `i` and a combining dot above;
* the capital sigma becomes a final sigma at the end of a word and a plain one elsewhere. It ends a
  word when a cased letter stands before it and none after it, case-ignorable characters left aside.
-/

namespace InfluxQL.Unicode

/-- The lower-case form of a code point that one run describes. -/
def CaseRun.shifted? (r : CaseRun) (n : Nat) : Option Nat :=
  if r.first ≤ n ∧ n ≤ r.last ∧ (n - r.first) % r.step = 0 then some (n + r.shift).toNat else none

/-- The one-character lower-case form, which for most characters is the character itself. -/
def lowerChar (c : Char) : Char :=
  if c.toNat < 0x80 then c.toLower
  else ((lowercaseRuns.findSome? (·.shifted? c.toNat)).map Char.ofNat).getD c

/-- A letter with a case. -/
def isCased (c : Char) : Bool :=
  inRanges casedRanges c

/-- A character that may stand within a word without being a letter of it. -/
def isCaseIgnorable (c : Char) : Bool :=
  inRanges caseIgnorableRanges c

/-- Is the first character that is not case-ignorable a cased letter? -/
def reachesCased (text : List Char) : Bool :=
  (text.find? (!isCaseIgnorable ·)).any isCased

/-- The lower case of a character between what stands before it, nearest first, and after it. -/
def lowerBetween (before : List Char) (c : Char) (after : List Char) : List Char :=
  if c = 'Σ' then
    if reachesCased before && !reachesCased after then ['ς'] else ['σ']
  else if c = 'İ' then ['i', '\u0307']
  else [lowerChar c]

/-- The lower case of a text that stands after `before`, which is given nearest character first. -/
def lowercaseAfter (before : List Char) : List Char → List Char
  | [] => []
  | c :: rest => lowerBetween before c rest ++ lowercaseAfter (c :: before) rest

/-- The lower case of a text. -/
def lowercase (text : List Char) : List Char :=
  lowercaseAfter [] text

end InfluxQL.Unicode
