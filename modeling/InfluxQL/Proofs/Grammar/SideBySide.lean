import InfluxQL.Proofs.Grammar.Alike
import InfluxQL.Proofs.Grammar.Course
import InfluxQL.Proofs.Token.Replacement

/-!
# Scanners side by side

Two texts that begin or end alike are read side by side by two scanners, one of each.

* `Scanner.SameFront`: before a common front of the texts, which go on with different tails behind it;
* `Scanner.SameAhead`: before the same text;
* `Likeness.ofLexeme`, `Likeness.ofSameAhead`: how the next tokens then correspond.
-/

namespace InfluxQL

namespace Scanner

variable {front tail other : List Char} {c c' : Scanner} {l : Lexeme}

/-! ### Before a common front -/

/-- Both scanners have the same text behind them, and before them the same rest of the front, and then
`tail` on the left and `other` on the right. -/
structure SameFront (front tail other : List Char) (c c' : Scanner) : Prop where
  behind_eq : c'.cursor.behind = c.cursor.behind
  afterOperand_eq : c'.afterOperand = c.afterOperand
  rest : ∃ rest, c.cursor.behind.reverse ++ rest = front ∧ c.cursor.ahead = rest ++ tail ∧
    c'.cursor.ahead = rest ++ other

namespace SameFront

theorem start (front tail other : List Char) :
    SameFront front tail other (Scanner.start (front ++ tail)) (Scanner.start (front ++ other)) :=
  ⟨rfl, rfl, front, rfl, rfl, rfl⟩

theorem source_eq (h : SameFront front tail other c c') : c.source = front ++ tail := by
  obtain ⟨rest, hfront, ha, -⟩ := h.rest
  rw [source, Cursor.source, ha, ← List.append_assoc, hfront]

theorem cursor_eq (h : SameFront front tail other c c') :
    c'.cursor.offset = c.cursor.offset ∧ c'.cursor.pos = c.cursor.pos := by
  rw [c'.cursor.offset_eq, c'.cursor.pos_eq, h.behind_eq, c.cursor.offset_eq, c.cursor.pos_eq]
  exact ⟨rfl, rfl⟩

/-- What is left of the front, and how many bytes it takes. -/
theorem exists_rest (h : SameFront front tail other c c') : ∃ rest, rest <:+ front ∧
    c.offset + byteSize rest = byteSize front ∧ c.cursor.ahead = rest ++ tail ∧
      c'.cursor.ahead = rest ++ other := by
  obtain ⟨rest, hfront, ha, ha'⟩ := h.rest
  refine ⟨rest, ⟨_, hfront⟩, ?_, ha, ha'⟩
  rw [← hfront, byteSize_append, Cursor.byteSize_reverse_behind, offset]

theorem offset_lt (h : SameFront front tail other c c') (hne : c.cursor.ahead ≠ tail) :
    c.offset < byteSize front := by
  obtain ⟨rest, -, hoffset, ha, -⟩ := h.exists_rest
  have hpos : 0 < byteSize rest := by
    refine byteSize_pos ?_
    rintro rfl
    exact hne ha
  omega

/-- A lexeme that ends in the front is taken on both sides. -/
theorem take (h : SameFront front tail other c c') {rest : List Char}
    (ha : c.cursor.ahead = rest ++ tail) (ha' : c'.cursor.ahead = rest ++ other)
    (hw : l.width ≤ rest.length) :
    (c'.take l).1 = (c.take l).1 ∧ SameFront front tail other (c.take l).2 (c'.take l).2 := by
  have htake : c.cursor.ahead.take l.width = rest.take l.width := by
    rw [ha, List.take_append_of_le_length hw]
  have htake' : c'.cursor.ahead.take l.width = rest.take l.width := by
    rw [ha', List.take_append_of_le_length hw]
  have hrest : c.cursor.behind.reverse ++ rest = front := by
    obtain ⟨rest', hfront, hrest, -⟩ := h.rest
    rw [List.append_cancel_right (ha.symm.trans hrest), hfront]
  obtain ⟨hoffset, hpos⟩ := h.cursor_eq
  refine ⟨?_, ?_, afterOperand_take h.afterOperand_eq l, rest.drop l.width, ?_, ?_, ?_⟩
  · simp only [Scanner.take, Cursor.offset_advance, hoffset, hpos, htake, htake']
  · simp [Scanner.take, Cursor.advance, htake, htake', h.behind_eq]
  · simp [Scanner.take, Cursor.advance, htake, ← hrest]
  · simp [Scanner.take, Cursor.advance, ha, List.drop_append_of_le_length hw]
  · simp [Scanner.take, Cursor.advance, ha', List.drop_append_of_le_length hw]

/-- A regular expression that ends in the front is taken on both sides. -/
theorem regex (h : SameFront front tail other c c') (hne : tail ≠ []) {rest rest' : List Char}
    (ha : c.cursor.ahead = '/' :: rest) (ha' : c'.cursor.ahead = '/' :: rest')
    (hlt : c.offset < byteSize front) (hle : (c.regex rest).2.offset ≤ byteSize front) :
    (c'.regex rest').1 = (c.regex rest).1 ∧
      SameFront front tail other (c.regex rest).2 (c'.regex rest').2 := by
  obtain ⟨ahead, -, hoffset, hc, hc'⟩ := h.exists_rest
  obtain ⟨x, ahead, rfl⟩ : ∃ x t, ahead = x :: t := by
    refine List.exists_cons_of_ne_nil ?_
    rintro rfl
    exact Nat.ne_of_lt hlt hoffset
  obtain ⟨rfl, rfl⟩ : '/' = x ∧ rest = ahead ++ tail := by
    simpa using ha.symm.trans hc
  obtain rfl : rest' = ahead ++ other := by
    simpa using ha'.symm.trans hc'
  have hwidth : (Lexeme.regex (ahead ++ tail)).width ≤ ahead.length + 1 := by
    refine width_le_of_offset_le hc ?_ (Nat.le_trans hle (Nat.le_of_eq hoffset.symm))
    rw [Lexeme.regex_width, List.cons_append, List.length_cons]
    exact Nat.succ_le_succ (Lexeme.regexRead_width _)
  rw [Scanner.regex, Scanner.regex, Lexeme.regex_replace hne hwidth other]
  exact h.take hc hc' hwidth

end SameFront

/-- Before the same lexeme a blank is skipped on both sides or on neither. -/
theorem pastBlank_rel {R : Scanner → Scanner → Prop}
    (hl : Lexeme.next? c.afterOperand c.cursor.ahead = some l)
    (hl' : Lexeme.next? c'.afterOperand c'.cursor.ahead = some l) (h : R c c')
    (hr : R (c.take l).2 (c'.take l).2) : R c.pastBlank c'.pastBlank := by
  unfold Scanner.pastBlank
  rw [scan_of_lexeme hl, scan_of_lexeme hl']
  show R (if l.kind = .blank then _ else _) (if l.kind = .blank then _ else _)
  split
  · exact hr
  · exact h

/-! ### Before the same text -/

/-- The same text is ahead, and operands have just ended on both sides or on neither. -/
structure SameAhead (c c' : Scanner) : Prop where
  ahead_eq : c'.cursor.ahead = c.cursor.ahead
  afterOperand_eq : c'.afterOperand = c.afterOperand

theorem SameAhead.take (h : SameAhead c c') (l : Lexeme) : SameAhead (c.take l).2 (c'.take l).2 where
  ahead_eq := by simp [Scanner.take, Cursor.advance, h.ahead_eq]
  afterOperand_eq := afterOperand_take h.afterOperand_eq l

/-- The next tokens are the same, but for their places. -/
theorem SameAhead.scan (h : SameAhead c c') : c'.scan.1.kind = c.scan.1.kind ∧
    c'.scan.1.lit = c.scan.1.lit ∧ SameAhead c.scan.2 c'.scan.2 := by
  cases hl : Lexeme.next? c.afterOperand c.cursor.ahead with
  | none =>
    have ha := Lexeme.next?_eq_none_iff.1 hl
    rw [scan_of_end ha, scan_of_end (h.ahead_eq.trans ha)]
    exact ⟨rfl, rfl, h⟩
  | some l =>
    have hl' : Lexeme.next? c'.afterOperand c'.cursor.ahead = some l := by
      rw [h.afterOperand_eq, h.ahead_eq, hl]
    rw [scan_of_lexeme hl, scan_of_lexeme hl']
    exact ⟨rfl, rfl, h.take l⟩

theorem SameAhead.pastBlank (h : SameAhead c c') : SameAhead c.pastBlank c'.pastBlank := by
  obtain ⟨hkind, -, hrest⟩ := h.scan
  unfold Scanner.pastBlank
  rw [hkind]
  split
  · exact hrest
  · exact h

end Scanner

namespace Likeness

open Scanner

variable {L : Likeness} {c c' : Scanner} {l : Lexeme}

/-- The next lexeme is the same on both sides. -/
theorem ofLexeme (hl : Lexeme.next? c.afterOperand c.cursor.ahead = some l)
    (hl' : Lexeme.next? c'.afterOperand c'.cursor.ahead = some l)
    (hplace : L.place (c.take l).1 (c'.take l).1) (hr : L.rel (c.take l).2 (c'.take l).2) :
    L.Heads c c' ∧ L.EndsAlike c c' := by
  have hs : L.Same c.scan.1 c'.scan.1 := by
    rw [scan_of_lexeme hl, scan_of_lexeme hl']
    exact ⟨rfl, rfl, hplace⟩
  rw [← scan_of_lexeme hl, ← scan_of_lexeme hl'] at hr
  exact ⟨.same hs hr, .ofSame hs hr⟩

/-- If a blank is the next character on both sides or on neither, it is skipped on both or on neither,
unless the left run goes astray there. -/
theorem lost_or_pastBlankCharacter
    (hblank : c'.cursor.ahead.head?.any isBlank = c.cursor.ahead.head?.any isBlank)
    (hpast : L.Lost c ∨ L.rel c.pastBlank c'.pastBlank) (h : L.rel c c') :
    (c.cursor.ahead.head?.any isBlank ∧ L.Lost c) ∨
      L.rel c.pastBlankCharacter c'.pastBlankCharacter := by
  unfold pastBlankCharacter
  rw [hblank]
  by_cases hb : c.cursor.ahead.head?.any isBlank
  · rw [if_pos hb, if_pos hb]
    exact hpast.imp_left fun hlost => ⟨hb, hlost⟩
  · rw [if_neg hb, if_neg hb]
    exact .inr h

section SameAhead

variable (hplace : ∀ t t', L.place t t') (hrel : ∀ {d d' : Scanner}, SameAhead d d' → L.rel d d')
include hplace hrel

theorem ofSameAhead (h : SameAhead c c') : L.Heads c c' ∧ L.EndsAlike c c' := by
  obtain ⟨hkind, hlit, hrest⟩ := h.scan
  have hs : L.Same c.scan.1 c'.scan.1 := ⟨hkind, hlit, hplace _ _⟩
  exact ⟨.same hs (hrel hrest), .ofSame hs (hrel hrest)⟩

theorem regexHeads_ofSameAhead {rest rest' : List Char} (h : SameAhead c c')
    (ha : c.cursor.ahead = '/' :: rest) (ha' : c'.cursor.ahead = '/' :: rest') :
    L.RegexHeads c c' rest rest' := by
  rw [h.ahead_eq, ha] at ha'
  cases ha'
  exact .same ⟨rfl, rfl, hplace _ _⟩ (hrel (h.take _))

end SameAhead

end Likeness

end InfluxQL
