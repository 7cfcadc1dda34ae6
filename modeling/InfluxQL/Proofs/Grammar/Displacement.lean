import InfluxQL.Proofs.Grammar.Alike
import InfluxQL.Proofs.Grammar.Progress

/-!
# The same text further on

A text that stands behind another, on a line of its own, reads as it does alone: the trees are the
same, and errors are displaced by the text before. With no text before, this says that more steps
than enough make no difference.

* `ParseError.displaced`: an error in the text behind another;
* `Likeness.displacement`, `Likeness.displacement_lawful`: the likeness;
* `Grammar.query_displaced`: the statement for queries;
* `Grammar.query_run_of_le`: the number of steps does not matter.
-/

namespace InfluxQL

open Production Scanner TokenStream

/-- The place in a text that stands behind another, which ends with its line. -/
def Pos.displaced (before : List Char) (p : Pos) : Pos :=
  ⟨p.line + before.count '\n', p.char⟩

/-- The bytes in a text that stands behind another. -/
def Span.displaced (before : List Char) (s : Span) : Span :=
  ⟨s.start + byteSize before, s.stop + byteSize before⟩

/-- The error in a text that stands behind another, which ends with its line. -/
def ParseError.displaced (before : List Char) (e : ParseError) : ParseError :=
  ⟨e.cause, e.pos.displaced before, e.span.displaced before⟩

/-- The text is empty, or its last character, which comes first here, ends its line. -/
def EndsLine (before : List Char) : Prop :=
  ∀ c ∈ before.head?, c = '\n'

theorem Pos.after_append_of_endsLine {before : List Char} (h : EndsLine before)
    (behind : List Char) : Pos.after (behind ++ before) = (Pos.after behind).displaced before := by
  have hnot : ∀ c ∈ before.head?, (c != '\n') = false := by
    intro c hc
    rw [h c hc]
    rfl
  rw [Pos.after, List.count_append, Lexeme.takeWhile_append_of_not_head hnot]
  rfl

namespace Scanner

/-- The scanner on the right reads the same text, which stands behind another there. -/
structure Displaced (before : List Char) (c c' : Scanner) : Prop where
  ahead_eq : c'.cursor.ahead = c.cursor.ahead
  afterOperand_eq : c'.afterOperand = c.afterOperand
  behind_eq : c'.cursor.behind = c.cursor.behind ++ before

variable {before : List Char} {c c' : Scanner}

theorem Displaced.offset_eq (h : Displaced before c c') :
    c'.cursor.offset = c.cursor.offset + byteSize before := by
  rw [c'.cursor.offset_eq, h.behind_eq, byteSize_append, c.cursor.offset_eq]

theorem Displaced.pos_eq (h : Displaced before c c') (hb : EndsLine before) :
    c'.cursor.pos = c.cursor.pos.displaced before := by
  rw [c'.cursor.pos_eq, h.behind_eq, Pos.after_append_of_endsLine hb, c.cursor.pos_eq]

theorem Displaced.take (h : Displaced before c c') (l : Lexeme) :
    Displaced before (c.take l).2 (c'.take l).2 where
  ahead_eq := by simp [Scanner.take, Cursor.advance, h.ahead_eq]
  afterOperand_eq := afterOperand_take h.afterOperand_eq l
  behind_eq := by simp [Scanner.take, Cursor.advance, h.ahead_eq, h.behind_eq]

end Scanner

namespace Likeness

/-- The same text behind another. -/
def displacement (before : List Char) : Likeness where
  rel := Displaced before
  near := Displaced before
  place t t' := t'.pos = t.pos.displaced before ∧ t'.span = t.span.displaced before
  errors e e' := e' = e.displaced before
  fails e := e.cause = .outOfSteps
  misses _ _ := False
  params _ := True

variable {before : List Char} (hb : EndsLine before) {c c' : Scanner}
include hb

theorem displacement_take (h : Displaced before c c') (l : Lexeme) :
    (displacement before).Same (c.take l).1 (c'.take l).1 where
  kind_eq := rfl
  lit_eq := rfl
  place := by
    refine ⟨h.pos_eq hb, ?_⟩
    simp only [Scanner.take, Span.displaced, Cursor.offset_advance, h.offset_eq, h.ahead_eq,
      Nat.add_right_comm]

theorem displacement_scan (h : Displaced before c c') :
    (displacement before).Same c.scan.1 c'.scan.1 ∧ Displaced before c.scan.2 c'.scan.2 := by
  cases hl : Lexeme.next? c.afterOperand c.cursor.ahead with
  | none =>
    have ha := Lexeme.next?_eq_none_iff.1 hl
    have ha' : c'.cursor.ahead = [] := by rw [h.ahead_eq, ha]
    rw [scan_of_end ha, scan_of_end ha']
    refine ⟨⟨rfl, rfl, h.pos_eq hb, ?_⟩, h⟩
    simp only [Scanner.eof, Scanner.offset, Span.displaced, h.offset_eq]
  | some l =>
    have hl' : Lexeme.next? c'.afterOperand c'.cursor.ahead = some l := by
      rw [h.afterOperand_eq, h.ahead_eq, hl]
    rw [scan_of_lexeme hl, scan_of_lexeme hl']
    exact ⟨displacement_take hb h l, h.take l⟩

theorem displacement_pastBlank (h : Displaced before c c') :
    Displaced before c.pastBlank c'.pastBlank := by
  obtain ⟨hs, hr⟩ := displacement_scan hb h
  unfold pastBlank
  rw [hs.kind_eq]
  split
  · exact hr
  · exact h

theorem displacement_heads (h : Displaced before c c') : (displacement before).Heads c c' :=
  .same (displacement_scan hb h).1 (displacement_scan hb h).2

theorem displacement_lawful : (displacement before).Lawful where
  errors_of_place cause := by
    rintro ⟨ht, hs⟩ ⟨_, hs'⟩
    simp [displacement, ParseError.displaced, ht, hs, hs', Span.displaced]
  fails_outOfSteps he := he
  near_of_rel h := h
  apart h := h.elim
  heads h := .inr (displacement_heads hb h)
  regexHeads h ha ha' := by
    rw [h.ahead_eq, ha] at ha'
    cases ha'
    exact .same (displacement_take hb h _) (h.take _)
  pastBlank h := .inr (displacement_pastBlank hb h)
  pastBlankCharacter h :=
    .inr (.inr (.inl (pastBlankCharacter_rel (by rw [h.ahead_eq]) (displacement_pastBlank hb h) h)))
  nextCharacter h := .inr fun _ _ => by rw [h.ahead_eq]

theorem displacement_keepsEnds : (displacement before).KeepsEnds := by
  intro c c' h _
  obtain ⟨hs, hr⟩ := displacement_scan hb h
  exact .inr (.ofSame hs hr)

end Likeness

namespace Grammar

variable [PatternCompiler]
variable {before : List Char} (params : Params) {n n' m m' : Nat}

/-- A query of the text behind another, with at least as many steps. The statements that have been
read before stand before its own. -/
theorem query_displaced (hb : EndsLine before) {c c' : Scanner} {s s' : TokenStream}
    (h : Displaced before c c') (hs : GoesOn c s) (hs' : GoesOn c' s') (hn : n ≤ n') (hm : m ≤ m')
    {st st' : Statements} {earlier : List Statement} (hst : ReadBehind earlier st st') :
    (∃ e, loop (furtherStatement params n) m st s = .error e ∧ e.cause = .outOfSteps) ∨
    (∃ q s₁ s₁', loop (furtherStatement params n) m st s = .ok (q, s₁) ∧
      loop (furtherStatement params n') m' st' s' = .ok (⟨earlier ++ q.statements⟩, s₁')) ∨
    ∃ e, loop (furtherStatement params n) m st s = .error e ∧
      loop (furtherStatement params n') m' st' s' = .error (e.displaced before) := by
  have halike : (Likeness.displacement before).Alike
      (fun q q' => q'.statements = earlier ++ q.statements)
      (Trace.loop .statement (furtherStatementTrace params n) m st)
      (loop (furtherStatement params n') m' st') :=
    query_alike (Likeness.displacement_lawful hb) hn trivial (Likeness.displacement_keepsEnds hb) hst hm
  have halike := halike c c' s s' h hs hs'
  generalize loop (furtherStatement params n) m st s = o at halike
  generalize loop (furtherStatement params n') m' st' s' = o' at halike
  cases halike with
  | ok hq => exact .inr (.inl ⟨_, _, _, rfl, by rw [← hq.1]⟩)
  | error he => exact .inr (.inr ⟨_, rfl, by rw [he]⟩)
  | astray h =>
    rcases h with ⟨e, rfl, he⟩ | ⟨_, _, _, _, _, _, hm⟩
    · exact .inl ⟨e, rfl, he⟩
    · exact hm.elim

/-- More steps than are enough make no difference. -/
theorem query_run_of_le {text : List Char} (h : stepsFor text ≤ n) :
    (query params n).run text = (query params (stepsFor text)).run text := by
  have hself : Displaced [] (Scanner.start text) (Scanner.start text) := ⟨rfl, rfl, rfl⟩
  have hnone : ReadBehind [] ⟨[], true⟩ ⟨[], true⟩ := ⟨rfl, rfl⟩
  have hnil : EndsLine [] := by
    rintro _ ⟨⟩
  rcases query_displaced params hnil hself (.clear none) (.clear none) h h hnone with
    ⟨e, he, hsteps⟩ | ⟨q, s₁, s₁', hq, hq'⟩ | ⟨e, he, he'⟩
  · exact absurd hsteps (cause_ne_of_run (query_spends params _) (run_eq_error.2 he))
  · exact (run_eq_ok.2 ⟨s₁', hq'⟩).trans (run_eq_ok.2 ⟨s₁, hq⟩).symm
  · exact (run_eq_error.2 he').trans (run_eq_error.2 he).symm

end Grammar

end InfluxQL
