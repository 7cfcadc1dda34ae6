import InfluxQL.Proofs.Grammar.Appended
import InfluxQL.Proofs.Grammar.SideBySide

/-!
# The text that is ahead

What is read depends on the text ahead, and on whether an operand has just ended; what is behind only
tells the places. So an expression within a text is the expression at the beginning of the text that is
left there.

* `Likeness.remainder`, `Likeness.remainder_lawful`: the likeness;
* `Grammar.expression_within`: the statement for expressions.
-/

namespace InfluxQL

open Production Scanner TokenStream

namespace Scanner

variable {c c' : Scanner}

/-- A scanner that is further on in its text has fewer characters ahead. -/
theorem offset_lt_of_left_lt (hsource : c'.cursor.source = c.cursor.source) (hle : c.offset ≤ c'.offset)
    (h : c'.left < c.left) : c.offset < c'.offset := by
  refine Nat.lt_of_le_of_ne hle fun heq => ?_
  have hbytes : byteSize c'.cursor.behind.reverse = byteSize c.cursor.behind.reverse := by
    rw [Cursor.byteSize_reverse_behind, Cursor.byteSize_reverse_behind]
    exact heq.symm
  have hahead := (append_inj_of_byteSize hsource hbytes).2
  rw [left, left, hahead] at h
  exact Nat.lt_irrefl _ h

end Scanner

namespace Likeness

/-- The same text ahead. -/
def remainder : Likeness where
  rel := SameAhead
  near := SameAhead
  place _ _ := True
  errors _ _ := True
  fails e := e.cause = .outOfSteps
  misses _ _ := False
  params _ := True

theorem remainder_lawful : remainder.Lawful where
  errors_of_place _ _ _ := trivial
  fails_outOfSteps he := he
  near_of_rel h := h
  apart h := h.elim
  heads h := .inr (ofSameAhead (fun _ _ => trivial) id h).1
  regexHeads h ha ha' := regexHeads_ofSameAhead (fun _ _ => trivial) id h ha ha'
  pastBlank h := .inr h.pastBlank
  pastBlankCharacter h :=
    .inr (.inr (.inl (pastBlankCharacter_rel (by rw [h.ahead_eq]) h.pastBlank h)))
  nextCharacter h := .inr fun _ _ => by rw [h.ahead_eq]

end Likeness

namespace Grammar

variable [PatternCompiler]
variable {params : Params} {n : Nat} {c : Scanner} {s : TokenStream} {e : Expr}

/-- **An expression within a text.** Where an operand can stand, the expression is read that stands at
the beginning of the text ahead, and behind it the text goes on. -/
theorem expression_within (hs : GoesOn c s) (hf : c.afterOperand = false)
    (hn : stepsFor c.cursor.ahead ≤ n)
    (he : (expression params (stepsFor c.cursor.ahead)).run c.cursor.ahead = .ok e) :
    ∃ s', expression params n s = .ok (e, s') ∧
      ∃ c', GoesOn c' s' ∧ c'.source = c.source ∧ c.offset < c'.offset := by
  obtain ⟨s₁, hs₁⟩ := run_eq_ok.1 he
  have hsame : SameAhead (Scanner.start c.cursor.ahead) c := ⟨rfl, hf⟩
  have halike : Likeness.remainder.Alike Eq (expressionTrace params _) (expression params n) :=
    .ofNear Likeness.remainder_lawful (expression_alike Likeness.remainder_lawful trivial hn)
  have hmeets := halike _ _ _ _ hsame (.clear none) hs
  change Likeness.remainder.Meets _ _ _ (expression params _ (TokenStream.start c.cursor.ahead)) _
    at hmeets
  rw [hs₁] at hmeets
  obtain ⟨s', hrun⟩ : ∃ s', expression params n s = .ok (e, s') := by
    generalize expression params n s = o at hmeets
    cases hmeets with
    | ok ha => exact ⟨_, by rw [← ha.1]⟩
    | astray h =>
      rcases h with ⟨e, he, -⟩ | ⟨_, _, _, _, _, _, hm⟩
      · cases he
      · exact hm.elim
  refine ⟨s', hrun, ?_⟩
  obtain ⟨c₁, hpasses, hend⟩ := (expressionTrace params n).passes hs
  have hgoes₁ := hend _ _ hrun
  have hleaves := expression_spends params n c s hs (Nat.lt_of_lt_of_le (Nat.lt_succ_self _) hn)
  rw [hrun] at hleaves
  obtain ⟨c', hgoes, hleft⟩ := hleaves
  -- Both are where the stream goes on, but the one is known to be further on, and the other to be
  -- on the way.
  have hcursor := hgoes.cursor_eq hgoes₁
  have hsource : c'.source = c.source := (congrArg Cursor.source hcursor).trans hpasses.source_eq
  have hle : c.offset ≤ c'.offset :=
    hpasses.offset_le.trans_eq (congrArg Cursor.offset hcursor).symm
  exact ⟨c', hgoes, hsource, offset_lt_of_left_lt hsource hle hleft⟩

end Grammar

end InfluxQL
