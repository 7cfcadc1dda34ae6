import InfluxQL.Text.Position

/-!
# The lines of a source text

A `LineIndex` knows the bytes at which the lines of a text start. The line of a byte is the last one
that starts no later, and its place in the line is the number of characters since that start.

* `LineIndex.ofText`: the lines of a text;
* `LineIndex.pos`: the place of a byte;
* `LineIndex.pairwise_starts_ofText`: the starts are in order, so that a search can halve them;
* `LineIndex.pos_ofText`: the place of a byte is the one that counting from the beginning leads to.
-/

namespace InfluxQL

/-- The bytes right behind the newlines of a text that starts at the byte `start`. -/
def newlineEnds (start : Nat) : List Char → List Nat
  | [] => []
  | c :: text =>
    if c = '\n' then (start + 1) :: newlineEnds (start + c.utf8Size) text
    else newlineEnds (start + c.utf8Size) text

/-- The bytes at which the lines of a text start. -/
structure LineIndex where
  starts : List Nat
  deriving DecidableEq, Repr, Inhabited

namespace LineIndex

/-- The lines of a text: the first one starts with it, and the others behind newlines. -/
def ofText (text : List Char) : LineIndex :=
  ⟨0 :: newlineEnds 0 text⟩

/-- The number of lines that start no later than at the byte `offset`. -/
def startedBy (lines : LineIndex) (offset : Nat) : Nat :=
  (lines.starts.takeWhile (· ≤ offset)).length

/-- The place of the byte `offset` of the text. -/
def pos (lines : LineIndex) (source : List Char) (offset : Nat) : Pos :=
  let line := lines.startedBy offset - 1
  ⟨line, (slice source (lines.starts.getD line 0) offset).length⟩

end LineIndex

/-! ### The starts of lines -/

theorem newlineEnds_append (start : Nat) (s t : List Char) :
    newlineEnds start (s ++ t) = newlineEnds start s ++ newlineEnds (start + byteSize s) t := by
  induction s generalizing start with
  | nil => rfl
  | cons c s ih =>
    rw [List.cons_append, newlineEnds, newlineEnds, ih, byteSize_cons, Nat.add_assoc]
    split <;> rfl

theorem length_newlineEnds (start : Nat) (text : List Char) :
    (newlineEnds start text).length = text.count '\n' := by
  induction text generalizing start with
  | nil => rfl
  | cons c text ih =>
    rw [newlineEnds, List.count_cons]
    split <;> simp_all

/-- A line starts behind the start of the text, and no later than where the text ends. -/
theorem bounds_of_mem_newlineEnds {start n : Nat} {text : List Char}
    (h : n ∈ newlineEnds start text) : start < n ∧ n ≤ start + byteSize text := by
  induction text generalizing start with
  | nil => cases h
  | cons c text ih =>
    have hpos := c.utf8Size_pos
    have hrest : n ∈ newlineEnds (start + c.utf8Size) text →
        start < n ∧ n ≤ start + byteSize (c :: text) := by
      intro h
      have := ih h
      rw [byteSize_cons]
      omega
    rw [newlineEnds] at h
    split at h
    · rcases List.mem_cons.1 h with rfl | h
      · rw [byteSize_cons]
        omega
      · exact hrest h
    · exact hrest h

theorem pairwise_newlineEnds (start : Nat) (text : List Char) :
    (newlineEnds start text).Pairwise (· < ·) := by
  induction text generalizing start with
  | nil => exact .nil
  | cons c text ih =>
    rw [newlineEnds]
    split
    · next hc =>
      refine List.pairwise_cons.2 ⟨fun n hn => ?_, ih _⟩
      have hone : c.utf8Size = 1 := by rw [hc]; rfl
      rw [hone] at hn
      exact (bounds_of_mem_newlineEnds hn).1
    · exact ih _

namespace LineIndex

/-- The starts of the lines of a text are in order. -/
theorem pairwise_starts_ofText (text : List Char) : (ofText text).starts.Pairwise (· < ·) :=
  List.pairwise_cons.2
    ⟨fun _ hn => (bounds_of_mem_newlineEnds hn).1, pairwise_newlineEnds 0 text⟩

/-- The last line of a text, which is given with its last character first, starts behind its last
newline. -/
theorem getLast_starts (behind : List Char) :
    (0 :: newlineEnds 0 behind.reverse).getLast (List.cons_ne_nil _ _) =
      byteSize (behind.dropWhile (· != '\n')) := by
  induction behind with
  | nil => rfl
  | cons c behind ih =>
    simp only [List.reverse_cons, newlineEnds_append, byteSize_reverse, Nat.zero_add]
    by_cases hc : c = '\n'
    · subst hc
      have hone : '\n'.utf8Size = 1 := rfl
      simp [newlineEnds, List.getLast_cons, hone, Nat.add_comm]
    · simpa [newlineEnds, hc] using ih

variable {behind ahead : List Char}

theorem takeWhile_starts_ofText (behind ahead : List Char) :
    (ofText (behind.reverse ++ ahead)).starts.takeWhile (· ≤ byteSize behind) =
      0 :: newlineEnds 0 behind.reverse := by
  have hbehind : ∀ n ∈ 0 :: newlineEnds 0 behind.reverse, (decide (n ≤ byteSize behind)) = true := by
    intro n hn
    rcases List.mem_cons.1 hn with rfl | hn
    · exact decide_eq_true (Nat.zero_le _)
    · have := (bounds_of_mem_newlineEnds hn).2
      rw [byteSize_reverse, Nat.zero_add] at this
      exact decide_eq_true this
  have hahead : (newlineEnds (byteSize behind) ahead).takeWhile (· ≤ byteSize behind) = [] := by
    cases hn : newlineEnds (byteSize behind) ahead with
    | nil => rfl
    | cons n rest =>
      have := (bounds_of_mem_newlineEnds (hn ▸ List.mem_cons_self : n ∈ newlineEnds _ _)).1
      exact List.takeWhile_cons_of_neg (by simpa using this)
  rw [ofText, newlineEnds_append, Nat.zero_add, byteSize_reverse, ← List.cons_append,
    List.takeWhile_append_of_pos hbehind, hahead, List.append_nil]

theorem startedBy_ofText (behind ahead : List Char) :
    (ofText (behind.reverse ++ ahead)).startedBy (byteSize behind) = behind.count '\n' + 1 := by
  rw [startedBy, takeWhile_starts_ofText, List.length_cons, length_newlineEnds, List.count_reverse]

/-- The line of a place starts behind the last newline before it. -/
theorem getD_starts_ofText (behind ahead : List Char) :
    (ofText (behind.reverse ++ ahead)).starts.getD (behind.count '\n') 0 =
      byteSize (behind.dropWhile (· != '\n')) := by
  have hlength : (0 :: newlineEnds 0 behind.reverse).length = behind.count '\n' + 1 := by
    rw [List.length_cons, length_newlineEnds, List.count_reverse]
  have hlt : behind.count '\n' < (0 :: newlineEnds 0 behind.reverse).length := by omega
  rw [← getLast_starts, List.getLast_eq_getElem, ofText, newlineEnds_append, ← List.cons_append,
    List.getD_eq_getElem?_getD, List.getElem?_append_left hlt, List.getElem?_eq_getElem hlt]
  simp [hlength]

/-- The place of a byte is the one that counting from the beginning leads to. -/
theorem pos_ofText (behind ahead : List Char) :
    (ofText (behind.reverse ++ ahead)).pos (behind.reverse ++ ahead) (byteSize behind) =
      Pos.after behind := by
  have hline : behind.reverse =
      (behind.dropWhile (· != '\n')).reverse ++ (behind.takeWhile (· != '\n')).reverse := by
    rw [← List.reverse_append, List.takeWhile_append_dropWhile]
  have hsize : byteSize behind = byteSize (behind.dropWhile (· != '\n')).reverse +
      byteSize (behind.takeWhile (· != '\n')).reverse := by
    rw [← byteSize_reverse behind, hline, byteSize_append]
  have hslice : slice (behind.reverse ++ ahead) (byteSize (behind.dropWhile (· != '\n')))
      (byteSize behind) = (behind.takeWhile (· != '\n')).reverse := by
    rw [hsize, hline, ← byteSize_reverse (behind.dropWhile _), slice_append]
  rw [pos, startedBy_ofText, Nat.add_sub_cancel, getD_starts_ofText, hslice, List.length_reverse]
  rfl

end LineIndex

end InfluxQL
