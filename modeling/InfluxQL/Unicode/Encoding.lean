import InfluxQL.Unicode.CodeSet

/-!
# UTF-8 encodings of a set of characters

The encodings of the characters from a set are those of some *sequences*, each of one to four
ranges of byte values: one byte out of each range, in that order.

* `CodeSet.sequences`: the sequences of a set, in increasing order and without overlap.
-/

namespace InfluxQL.Unicode

/-- First and last of the byte values that may stand in one place. -/
abbrev ByteRange := Nat × Nat

/-- The byte values that continue an encoding: each of them holds a digit to the base 64. -/
def continuation : ByteRange := (0x80, 0xBF)

/-- The sequences for the numbers from `first` to `last`, written with `n` digits to the base 64
after a leading one, to which `mark` is added. -/
def digitSequences : Nat → Nat → Nat → Nat → List (List ByteRange)
  | 0, mark, first, last => [[(mark + first, mark + last)]]
  | n + 1, mark, first, last =>
    let unit := 64 ^ (n + 1)
    let a := first / unit
    let b := last / unit
    let within (lead low high : Nat) : List (List ByteRange) :=
      (digitSequences n 0x80 low high).map ((mark + lead, mark + lead) :: ·)
    if a = b then within a (first % unit) (last % unit)
    else
      let low := if first % unit = 0 then a else a + 1
      let high := if last % unit = unit - 1 then b else b - 1
      (if low = a then [] else within a (first % unit) (unit - 1))
        ++ (if low ≤ high then
          [(mark + low, mark + high) :: List.replicate (n + 1) continuation] else [])
        ++ (if high = b then [] else within b 0 (last % unit))

/-- A range of characters whose encodings have the same length. -/
structure EncodingForm where
  first : Nat
  last : Nat
  /-- The number of continuation bytes. -/
  digits : Nat
  /-- What is added to the leading digit. -/
  mark : Nat

/-- All characters by the length of their encodings. Surrogates are no characters. -/
def encodingForms : List EncodingForm :=
  [⟨0, 0x7F, 0, 0⟩, ⟨0x80, 0x7FF, 1, 0xC0⟩, ⟨0x800, 0xD7FF, 2, 0xE0⟩, ⟨0xE000, 0xFFFF, 2, 0xE0⟩,
    ⟨0x10000, 0x10FFFF, 3, 0xF0⟩]

/-- The sequences of the characters from `first` to `last` that have a given form. -/
def EncodingForm.sequences (f : EncodingForm) (first last : Nat) : List (List ByteRange) :=
  let low := max first f.first
  let high := min last f.last
  if low ≤ high then digitSequences f.digits f.mark low high else []

/-- The sequences of the characters of a set. -/
def CodeSet.sequences (s : CodeSet) : List (List ByteRange) :=
  s.ranges.flatMap fun (first, last) => encodingForms.flatMap (·.sequences first last)

end InfluxQL.Unicode
