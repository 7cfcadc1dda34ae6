import InfluxQL.Text.LineIndex

/-!
# A reading position in a source text

A `Cursor` splits the text in two: what lies behind it, nearest character first, and what lies
ahead. It keeps count of its byte offset, and knows the lines of the text to find a place in it.

* `Cursor.start`, `Cursor.advance`, `Cursor.retreat`: the beginning of a text, and some characters
  further on or back;
* `Cursor.seek`: the same text from a given byte offset;
* `source_advance`, `source_retreat`, `source_seek`: moving never changes the text;
* `Cursor.pos_eq`: the place of a cursor depends on the part behind it alone.
-/

namespace InfluxQL

/-- A text cut in two at the reading position. -/
structure Cursor where
  behind : List Char
  ahead : List Char
  /-- The byte offset of the next character. -/
  offset : Nat
  /-- The lines of the whole text. -/
  lines : LineIndex
  offset_eq : offset = byteSize behind
  lines_eq : lines = .ofText (behind.reverse ++ ahead)
  deriving DecidableEq

namespace Cursor

/-- The cursor between two parts of a text. -/
def between (behind ahead : List Char) : Cursor :=
  ⟨behind, ahead, byteSize behind, .ofText (behind.reverse ++ ahead), rfl, rfl⟩

instance : Repr Cursor := ⟨fun c n => reprPrec (c.behind, c.ahead) n⟩

instance : Inhabited Cursor := ⟨between [] []⟩

/-- A cursor is given by the two parts of its text. -/
theorem ext_parts {c d : Cursor} (hb : c.behind = d.behind) (ha : c.ahead = d.ahead) : c = d := by
  obtain ⟨b, a, o, l, rfl, rfl⟩ := c
  obtain ⟨b', a', o', l', rfl, rfl⟩ := d
  simp_all

/-- The cursor at the beginning of a text. -/
def start (text : List Char) : Cursor :=
  ⟨[], text, 0, .ofText text, rfl, rfl⟩

/-- The whole text. -/
def source (c : Cursor) : List Char :=
  c.behind.reverse ++ c.ahead

/-- The place of the byte `offset` of the text. -/
def posAt (c : Cursor) (offset : Nat) : Pos :=
  c.lines.pos c.source offset

/-- The place of the next character. -/
def pos (c : Cursor) : Pos :=
  c.posAt c.offset

/-- The place of a cursor depends on the part behind it alone. -/
theorem pos_eq (c : Cursor) : c.pos = Pos.after c.behind := by
  rw [pos, posAt, c.lines_eq, c.offset_eq]
  exact LineIndex.pos_ofText c.behind c.ahead

theorem pos_start (text : List Char) : (start text).pos = ⟨0, 0⟩ :=
  pos_eq _

/-- The next character. -/
def peek? (c : Cursor) : Option Char :=
  c.ahead.head?

/-- Moves `n` characters on, or to the end of the text. -/
def advance (c : Cursor) (n : Nat) : Cursor where
  behind := (c.ahead.take n).reverse ++ c.behind
  ahead := c.ahead.drop n
  offset := c.offset + byteSize (c.ahead.take n)
  lines := c.lines
  offset_eq := by simp [c.offset_eq, Nat.add_comm]
  lines_eq := by simp [c.lines_eq]

/-- Moves `n` characters back, or to the beginning of the text. -/
def retreat (c : Cursor) (n : Nat) : Cursor where
  behind := c.behind.drop n
  ahead := (c.behind.take n).reverse ++ c.ahead
  offset := c.offset - byteSize (c.behind.take n)
  lines := c.lines
  offset_eq := by
    rw [c.offset_eq, ← List.take_append_drop n c.behind, byteSize_append]
    simp
  lines_eq := by
    rw [c.lines_eq, ← List.append_assoc, ← List.reverse_append, List.take_append_drop]

/-- How many characters at the front of a text take no more than `bytes` bytes together. -/
def charsUpTo (bytes : Nat) : List Char → Nat
  | [] => 0
  | c :: text => if c.utf8Size ≤ bytes then charsUpTo (bytes - c.utf8Size) text + 1 else 0

/-- The cursor at a byte offset of the same text. -/
def seek (c : Cursor) (bytes : Nat) : Cursor :=
  if c.offset ≤ bytes then c.advance (charsWithin (bytes - c.offset) c.ahead)
  else c.retreat (charsUpTo (c.offset - bytes) c.behind)

@[simp] theorem source_start (text : List Char) : (start text).source = text := rfl

@[simp] theorem source_advance (c : Cursor) (n : Nat) : (c.advance n).source = c.source := by
  simp [source, advance]

@[simp] theorem source_retreat (c : Cursor) (n : Nat) : (c.retreat n).source = c.source := by
  simp only [source, retreat, ← List.append_assoc, ← List.reverse_append, List.take_append_drop]

@[simp] theorem source_seek (c : Cursor) (bytes : Nat) : (c.seek bytes).source = c.source := by
  unfold seek
  split <;> simp

theorem byteSize_reverse_behind (c : Cursor) : byteSize c.behind.reverse = c.offset := by
  rw [byteSize_reverse, c.offset_eq]

/-- What is ahead lasts from the reading position to the end of the text. -/
theorem offset_add_byteSize_ahead (c : Cursor) : c.offset + byteSize c.ahead = byteSize c.source := by
  rw [source, byteSize_append, byteSize_reverse_behind]

/-- What is ahead is the source text from the reading position on. -/
theorem slice_ahead (c : Cursor) (n : Nat) :
    slice c.source c.offset (c.offset + byteSize (c.ahead.take n)) = c.ahead.take n := by
  have hsource : c.source = c.behind.reverse ++ c.ahead.take n ++ c.ahead.drop n := by
    rw [List.append_assoc, List.take_append_drop, source]
  rw [hsource, ← byteSize_reverse_behind, slice_append]

theorem offset_advance (c : Cursor) (n : Nat) :
    (c.advance n).offset = c.offset + byteSize (c.ahead.take n) := rfl

/-- The characters of `s` take no more bytes than `s` has, and one more character would. -/
theorem charsUpTo_byteSize (s t : List Char) : charsUpTo (byteSize s) (s ++ t) = s.length := by
  induction s with
  | nil =>
    cases t with
    | nil => rfl
    | cons c t =>
      have := c.utf8Size_pos
      simp [charsUpTo]
      omega
  | cons c s ih => simp [charsUpTo, ih]

/-- Seeking the offset of a cursor of the same text gives that cursor back. -/
theorem seek_offset {c d : Cursor} (h : c.source = d.source) : c.seek d.offset = d := by
  simp only [source] at h
  unfold seek
  split
  · rename_i hle
    rw [c.offset_eq, d.offset_eq] at hle
    rcases List.append_eq_append_iff.1 h with ⟨s, hs, ha⟩ | ⟨s, hs, ha⟩
    · have hd : d.behind = s.reverse ++ c.behind := by
        rw [← d.behind.reverse_reverse, hs]; simp
      have hn : charsWithin (d.offset - c.offset) c.ahead = s.length := by
        rw [c.offset_eq, d.offset_eq, hd, ha]
        simpa using charsWithin_byteSize s d.ahead
      rw [hn]
      apply ext_parts
      · simp [advance, ha, hd]
      · simp [advance, ha]
    · have hc : c.behind = s.reverse ++ d.behind := by
        rw [← c.behind.reverse_reverse, hs]; simp
      have hs0 : byteSize s = 0 := by
        rw [hc] at hle
        simp at hle
        omega
      have hs1 : s = [] := by
        cases s with
        | nil => rfl
        | cons x s =>
          have := x.utf8Size_pos
          simp at hs0
          omega
      subst hs1
      have hcd : c = d := ext_parts (by simpa using hc) (by simpa using ha.symm)
      subst hcd
      simp only [Nat.sub_self]
      apply ext_parts <;> cases hca : c.ahead <;> simp [advance, charsWithin, hca]
  · rename_i hgt
    rw [c.offset_eq, d.offset_eq] at hgt
    rcases List.append_eq_append_iff.1 h with ⟨s, hs, ha⟩ | ⟨s, hs, ha⟩
    · have hd : d.behind = s.reverse ++ c.behind := by
        rw [← d.behind.reverse_reverse, hs]; simp
      rw [hd] at hgt
      simp at hgt
    · have hc : c.behind = s.reverse ++ d.behind := by
        rw [← c.behind.reverse_reverse, hs]; simp
      have hn : charsUpTo (c.offset - d.offset) c.behind = s.length := by
        rw [c.offset_eq, d.offset_eq, hc]
        simpa using charsUpTo_byteSize s.reverse d.behind
      rw [hn]
      apply ext_parts
      · simp [retreat, hc]
      · simp [retreat, hc, ha]

/-- A cursor is given by its text and its byte offset. -/
theorem eq_of_offset {c d : Cursor} (h : c.source = d.source) (ho : c.offset = d.offset) : c = d := by
  rw [← seek_offset (c := c) (d := c) rfl, ho, seek_offset h]

end Cursor

end InfluxQL
