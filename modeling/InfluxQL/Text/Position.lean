/-!
# Places in a source text

* `Pos`: a line and a character of that line, both counted from zero;
* `Span`: a range of UTF-8 bytes;
* `byteSize` and `Pos.after`: where a text ends that starts at the very beginning;
* `charIndices`, `slice`: the bytes where the characters of a text start; the part between two bytes.
-/

namespace InfluxQL

/-- A place in a text: `char` counts Unicode characters since the start of the line. -/
structure Pos where
  line : Nat
  char : Nat
  deriving DecidableEq, Repr, Inhabited

/-- People count lines and characters from one. -/
def Pos.text (p : Pos) : String :=
  "line " ++ toString (p.line + 1) ++ ", char " ++ toString (p.char + 1)

/-- The bytes from `start` up to, and not including, `stop`. -/
structure Span where
  start : Nat
  stop : Nat
  deriving DecidableEq, Repr, Inhabited

/-- The number of bytes in the span; none when it ends before it starts. -/
def Span.length (s : Span) : Nat :=
  s.stop - s.start

/-- The part of the span that lies within a text of `size` bytes. A span that starts beyond the
text becomes the empty span at its end. -/
def Span.clamp (s : Span) (size : Nat) : Span :=
  let start := min s.start size
  ⟨start, max (min s.stop size) start⟩

/-- The number of UTF-8 bytes of a text. -/
def byteSize : List Char → Nat
  | [] => 0
  | c :: text => c.utf8Size + byteSize text

@[simp] theorem byteSize_nil : byteSize [] = 0 := rfl

@[simp] theorem byteSize_cons (c : Char) (text : List Char) :
    byteSize (c :: text) = c.utf8Size + byteSize text := rfl

@[simp] theorem byteSize_append (s t : List Char) :
    byteSize (s ++ t) = byteSize s + byteSize t := by
  induction s with
  | nil => simp
  | cons c s ih => simp [ih, Nat.add_assoc]

@[simp] theorem byteSize_reverse (s : List Char) : byteSize s.reverse = byteSize s := by
  induction s with
  | nil => rfl
  | cons c s ih => simp [ih, Nat.add_comm]

/-- The characters of a text, each with the byte where it starts, if the text starts at `start`. -/
def charIndices (start : Nat) : List Char → List (Nat × Char)
  | [] => []
  | c :: text => (start, c) :: charIndices (start + c.utf8Size) text

/-- The place reached after a text, given with its last character first. -/
def Pos.after (behind : List Char) : Pos :=
  ⟨behind.count '\n', (behind.takeWhile (· != '\n')).length⟩

/-- How many characters of a text its first `bytes` bytes hold. -/
def charsWithin (bytes : Nat) : List Char → Nat
  | [] => 0
  | c :: text => if bytes = 0 then 0 else charsWithin (bytes - c.utf8Size) text + 1

/-- The first bytes of `s ++ t`, as many as `s` has, hold the characters of `s`. -/
theorem charsWithin_byteSize (s t : List Char) : charsWithin (byteSize s) (s ++ t) = s.length := by
  induction s with
  | nil => cases t <;> simp [charsWithin]
  | cons c s ih =>
    have := c.utf8Size_pos
    simp [charsWithin, ih]
    omega

/-- The bytes of a text from `start` up to, and not including, `stop`. -/
def slice (text : List Char) (start stop : Nat) : List Char :=
  (text.take (charsWithin stop text)).drop (charsWithin start text)

/-- The bytes between two parts of a text are those of the part between them. -/
theorem slice_append (front part behind : List Char) :
    slice (front ++ part ++ behind) (byteSize front) (byteSize front + byteSize part) = part := by
  have hstart : charsWithin (byteSize front) (front ++ part ++ behind) = front.length := by
    rw [List.append_assoc, charsWithin_byteSize]
  have hstop : charsWithin (byteSize front + byteSize part) (front ++ part ++ behind) =
      (front ++ part).length := by
    rw [← byteSize_append, charsWithin_byteSize]
  rw [slice, hstart, hstop, List.take_left, List.drop_left]

end InfluxQL
