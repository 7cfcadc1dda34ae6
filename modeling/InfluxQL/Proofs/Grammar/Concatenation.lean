import InfluxQL.Proofs.Grammar.Displacement
import InfluxQL.Proofs.Grammar.Progress
import InfluxQL.Proofs.Token.Spelling

/-!
# Queries one after the other

Behind a query, a line of its own with a semicolon starts another. The first text is read as if it
ended before that line, and the second as if it stood alone, but for the places of its errors.

* `Likeness.continuation`: a text, and the same text with such a line behind it;
* `Grammar.query_continues`: the statements of the first text are read, and then the semicolon;
* `parseQuery_append`: the query of both texts.
-/

namespace InfluxQL

open Production Scanner TokenStream

namespace Lexeme

/-- A comment that reaches the end ends with the line that stands behind. -/
theorem blankWidth_append_newline {inComment : Bool} {text : List Char} (rest : List Char)
    (h : blankWidth inComment text = text.length) :
    blankWidth inComment (text ++ '\n' :: rest) = text.length + 1 + blankWidth false rest := by
  have hnewline : ∀ b, blankWidth b ('\n' :: rest) = blankWidth false rest + 1 := by
    rintro (_ | _) <;> rfl
  rw [blankWidth_append_of_blank h, hnewline, Nat.add_assoc, Nat.add_comm 1]

end Lexeme

namespace Scanner

/-- The text on the right is `first`, a line of its own with a semicolon, and `rest`. The left one
is `first` alone, or the end of the line has been skipped. -/
structure Continues (first rest : List Char) (c c' : Scanner) : Prop where
  source_eq : c'.cursor.source = first ++ '\n' :: ';' :: rest
  afterOperand_eq : c'.afterOperand = c.afterOperand
  ahead : c'.cursor.ahead = c.cursor.ahead ++ '\n' :: ';' :: rest ∨
    c.cursor.ahead = [] ∧ c'.cursor.ahead = ';' :: rest

variable {first rest : List Char} {c c' : Scanner}

theorem breaks_newline : Lexeme.Breaks ('\n' :: rest) := by
  rintro c ⟨⟩
  exact .inl rfl

theorem parted_newline (text : List Char) : Lexeme.Parted text ('\n' :: rest) := by
  rintro - ⟨⟩

/-- A lexeme that is there on both sides is taken on both. -/
theorem Continues.take (h : Continues first rest c c')
    (ha : c'.cursor.ahead = c.cursor.ahead ++ '\n' :: ';' :: rest) {l : Lexeme}
    (hw : l.width ≤ c.cursor.ahead.length) : Continues first rest (c.take l).2 (c'.take l).2 where
  source_eq := by simp [Scanner.take, h.source_eq]
  afterOperand_eq := afterOperand_take h.afterOperand_eq l
  ahead := .inl (by simp [Scanner.take, Cursor.advance, ha, List.drop_append_of_le_length hw])

theorem Continues.pastBlank (h : Continues first rest c c') :
    Continues first rest c.pastBlank c'.pastBlank where
  source_eq := by rw [moves_pastBlank.source_eq, h.source_eq]
  afterOperand_eq := by
    rw [afterOperand_pastBlank, afterOperand_pastBlank, h.afterOperand_eq]
  ahead := by
    rw [ahead_pastBlank, ahead_pastBlank]
    rcases h.ahead with ha | ⟨ha, ha'⟩
    · rw [ha]
      by_cases hw : Lexeme.blankWidth false c.cursor.ahead = c.cursor.ahead.length
      · refine .inr ⟨by simp [Lexeme.pastBlank, hw], ?_⟩
        rw [Lexeme.pastBlank, Lexeme.blankWidth_append_newline _ hw]
        simp [Lexeme.blankWidth, isBlank, List.drop_append]
      · rw [Lexeme.pastBlank, Lexeme.pastBlank,
          Lexeme.blankWidth_append (parted_newline _) hw,
          List.drop_append_of_le_length (Lexeme.blankWidth_le false _)]
        exact .inl rfl
    · rw [ha, ha']
      exact .inr ⟨rfl, rfl⟩

theorem Continues.pastBlankCharacter (h : Continues first rest c c') :
    Continues first rest c.pastBlankCharacter c'.pastBlankCharacter := by
  unfold Scanner.pastBlankCharacter
  rcases h.ahead with ha | ⟨ha, ha'⟩
  · by_cases hc : c.cursor.ahead = []
    · -- The end is on the left, and the line that goes on is on the right.
      have hself : c.pastBlank = c := by
        rw [Scanner.pastBlank, scan_of_end hc]
        rfl
      have hblank : c'.cursor.ahead.head?.any isBlank := by
        rw [ha, hc]
        rfl
      have hnone : c.cursor.ahead.head?.any isBlank = false := by
        rw [hc]
        rfl
      rw [if_pos hblank, if_neg (by rw [hnone]; decide)]
      simpa only [hself] using h.pastBlank
    · have hhead : c'.cursor.ahead.head? = c.cursor.ahead.head? := by
        rw [ha, List.head?_append, List.head?_eq_some_head hc]
        rfl
      rw [hhead]
      split
      · exact h.pastBlank
      · exact h
  · have hnone : c.cursor.ahead.head?.any isBlank = false := by
      rw [ha]
      rfl
    have hnone' : c'.cursor.ahead.head?.any isBlank = false := by
      rw [ha']
      rfl
    rwa [if_neg (by rw [hnone]; decide), if_neg (by rw [hnone']; decide)]

/-- Behind a newline there are the same blanks, but for this one. -/
theorem pastBlank_newline {text : List Char} (h : c.cursor.ahead = '\n' :: text) :
    c.pastBlank = (⟨c.cursor.advance 1, c.last⟩ : Scanner).pastBlank := by
  rw [pastBlank_eq, pastBlank_eq]
  refine congrArg (Scanner.mk · c.last) (Cursor.ext_parts ?_ ?_) <;>
    simp [Cursor.advance, h, Lexeme.blankWidth, isBlank]

/-- Before the semicolon the first text and the newline have been read. -/
theorem behind_of_semicolon (hsource : c.cursor.source = first ++ '\n' :: ';' :: rest)
    (hahead : c.cursor.ahead = ';' :: rest) : c.cursor.behind = '\n' :: first.reverse := by
  rw [Cursor.source, hahead] at hsource
  have h : c.cursor.behind.reverse = first ++ ['\n'] :=
    List.append_cancel_right (hsource.trans (by simp : _ = _ ++ ';' :: rest))
  rw [← c.cursor.behind.reverse_reverse, h]
  simp

/-- Behind the semicolon and the newline the other text is read. -/
theorem displaced_behind_semicolon {second : List Char}
    (hsource : c.cursor.source = first ++ '\n' :: ';' :: '\n' :: second)
    (hahead : c.cursor.ahead = ';' :: '\n' :: second) :
    c.scan.2.cursor.ahead = '\n' :: second ∧
      Displaced ('\n' :: ';' :: '\n' :: first.reverse) (start second)
        ⟨c.scan.2.cursor.advance 1, c.scan.2.last⟩ := by
  have hbehind := behind_of_semicolon hsource hahead
  rw [scan_of_lexeme (by rw [hahead]; exact Lexeme.next?_semicolon _ _)]
  refine ⟨?_, ?_, rfl, ?_⟩ <;> simp [take, start, Cursor.start, Cursor.advance, hahead, hbehind]

end Scanner

namespace Likeness

/-- A text, and the same text with a line of its own and a semicolon behind it. -/
def continuation (first rest : List Char) : Likeness where
  rel := Continues first rest
  near := Continues first rest
  place _ _ := True
  errors _ _ := True
  fails _ := True
  misses _ _ := False
  params _ := True

variable {first rest : List Char} {c c' : Scanner}

/-- Where the left text has not ended, the next tokens are the same, or neither can be taken and
neither is an end or a semicolon. -/
theorem continuation_scan (h : Continues first rest c c') (hne : c.cursor.ahead ≠ []) :
    (continuation first rest).Same c.scan.1 c'.scan.1 ∧ Continues first rest c.scan.2 c'.scan.2 ∨
    c.scan.1.kind.isIdle ∧ c'.scan.1.kind.isIdle ∧
      ∀ k, k = .eof ∨ k = .semicolon → c.scan.1.kind ≠ k ∧ c'.scan.1.kind ≠ k := by
  rcases h.ahead with ha | ⟨ha, -⟩
  · obtain ⟨l, hl⟩ := Option.ne_none_iff_exists'.1
      (mt (Lexeme.next?_eq_none_iff (b := c.afterOperand)).1 hne)
    rcases Lexeme.next?_append (b := c.afterOperand) breaks_newline
      (parted_newline c.cursor.ahead) hne with heq | ⟨l₁, l', hl₁, hl', hbehind⟩
    · have hl' : Lexeme.next? c'.afterOperand c'.cursor.ahead = some l := by
        rw [h.afterOperand_eq, ha, heq, hl]
      rw [scan_of_lexeme hl, scan_of_lexeme hl']
      exact .inl ⟨⟨rfl, rfl, trivial⟩, h.take ha (Lexeme.width_le hl)⟩
    · rw [← ha, ← h.afterOperand_eq] at hl'
      rw [hl] at hl₁
      cases hl₁
      rw [scan_of_lexeme hl, scan_of_lexeme hl']
      show _ ∨ l.kind.isIdle ∧ l'.kind.isIdle ∧ ∀ k, _ → l.kind ≠ k ∧ l'.kind ≠ k
      rcases hbehind.kinds with ⟨hk, hk'⟩ | ⟨hk, -, hbroken⟩
      · rw [hk, hk']
        exact .inr ⟨rfl, rfl, by rintro _ (rfl | rfl) <;> exact ⟨nofun, nofun⟩⟩
      · have hbroken := hbroken rfl
        refine .inr ⟨by rw [hk]; rfl, TokenKind.isIdle_of_isBroken hbroken, ?_⟩
        rintro _ (rfl | rfl) <;> refine ⟨by rw [hk]; nofun, ?_⟩ <;> rintro he <;>
          rw [he] at hbroken <;> cases hbroken
  · exact absurd ha hne

theorem continuation_heads (h : Continues first rest c c') : (continuation first rest).Heads c c' := by
  by_cases hne : c.cursor.ahead = []
  · refine .idle (by rw [scan_of_end hne]; rfl) ?_ fun _ _ => trivial
    rcases h.ahead with ha | ⟨-, ha⟩
    · have hblank : Lexeme.blankWidth false c'.cursor.ahead ≠ 0 := by
        rw [ha, hne]
        simp [Lexeme.blankWidth, isBlank]
      rw [scan_of_lexeme (Lexeme.next?_of_blank _ hblank)]
      rfl
    · rw [scan_of_lexeme (by rw [ha]; exact Lexeme.next?_semicolon _ _)]
      rfl
  · rcases continuation_scan h hne with ⟨hs, hr⟩ | ⟨hl, hr, -⟩
    · exact .same hs hr
    · exact .idle hl hr fun _ _ => trivial

/-- Before its end the left text ends, and has its semicolons, where the right one does. -/
theorem continuation_endsAlike (h : Continues first rest c c') (hne : c.cursor.ahead ≠ []) :
    (continuation first rest).EndsAlike c c' := by
  rcases continuation_scan h hne with ⟨hs, hr⟩ | ⟨-, -, hends⟩
  · exact .ofSame hs hr
  · exact .ofNe hends

theorem continuation_lawful : (continuation first rest).Lawful where
  errors_of_place _ _ _ := trivial
  fails_outOfSteps _ := trivial
  near_of_rel h := h
  apart h := h.elim
  heads h := .inr (continuation_heads h)
  regexHeads {c c' text text'} h ha ha' := by
    by_cases hk : (Lexeme.regex text).kind = .regex
    · rcases h.ahead with hc | ⟨hc, -⟩
      · have htext : text' = text ++ '\n' :: ';' :: rest := by
          rw [ha', ha] at hc
          exact List.tail_eq_of_cons_eq hc
        have hregex : Lexeme.regex text' = Lexeme.regex text := by
          rw [htext, Lexeme.regex_append hk]
        have hwidth : (Lexeme.regex text).width ≤ c.cursor.ahead.length := by
          rw [ha, Lexeme.regex_width]
          exact Nat.succ_le_succ (Lexeme.regexRead_width _)
        refine .same ?_ ?_
        · rw [Scanner.regex, Scanner.regex, hregex]
          exact ⟨rfl, rfl, trivial⟩
        · rw [Scanner.regex, Scanner.regex, hregex]
          exact h.take hc hwidth
      · rw [ha] at hc
        cases hc
    · exact .failed hk fun _ => trivial
  pastBlank h := .inr h.pastBlank
  pastBlankCharacter h := .inr (.inr (.inl h.pastBlankCharacter))
  nextCharacter {c c'} h := by
    refine .inr fun x hx => ?_
    rcases h.ahead with ha | ⟨ha, ha'⟩
    · rw [ha]
      cases c.cursor.ahead with
      | nil => rcases hx with _ | ⟨_, _ | ⟨_, _ | ⟨_, ⟨⟩⟩⟩⟩ <;> simp
      | cons y text => simp
    · rw [ha, ha']
      rcases hx with _ | ⟨_, _ | ⟨_, _ | ⟨_, ⟨⟩⟩⟩⟩ <;> simp

end Likeness

/-- A round of a repetition that does not end it. -/
theorem Production.loop_of_inl {α β : Type} {body : β → Production (β ⊕ α)} {b b' : β}
    {s s' : TokenStream} (h : body b s = .ok (.inl b', s')) (m : Nat) :
    loop body (m + 1) b s = loop body m b' s' := by
  rw [loop]
  exact bind_of_ok h

namespace Grammar

variable [PatternCompiler]
variable {first rest : List Char} {params : Params} {n n' : Nat} {c c' : Scanner} {s s' s₁ : TokenStream}

theorem furtherStatement_of_goesOn (hs : GoesOn c s) (st : Statements) :
    furtherStatement params n st s =
      behindStatements params n st c.pastBlank.scan.1 (justRead c.pastBlank) := by
  rw [furtherStatement_eq]
  show behindStatements params n st s.scanSignificant.1 s.scanSignificant.2 = _
  rw [hs.scanSignificant_eq]

omit [PatternCompiler] in
theorem ReadBehind.eq_of_nil {st st' : Statements} (h : ReadBehind [] st st') : st' = st := by
  obtain ⟨statements, separated⟩ := st
  obtain ⟨statements', separated'⟩ := st'
  obtain ⟨rfl, rfl⟩ := h
  rfl

/-- Only the end of the text ends a query. -/
theorem kind_eof_of_behindStatements {st : Statements} {t : Token} {q : Query}
    (h : behindStatements params n st t s = .ok (.inr q, s₁)) : t.kind = .eof := by
  unfold behindStatements at h
  split_ifs at h with heof hsemicolon hseparated
  · exact heof
  · cases h
  · obtain ⟨_, _, _, h⟩ := bind_eq_ok.1 h
    obtain ⟨x, _, _, h⟩ := bind_eq_ok.1 h
    cases h
  · cases h

/-- What follows a statement in the first text: another that is read on both sides, or the end on
the left and the semicolon on the right. -/
theorem furtherStatement_continues (hn : n ≤ n') (h : Continues first rest c c') (hs : GoesOn c s)
    (hs' : GoesOn c' s') {st : Statements} {r : Statements ⊕ Query}
    (hrun : furtherStatement params n st s = .ok (r, s₁)) :
    (∃ st₁ c₁ c₁' s₁', r = .inl st₁ ∧ furtherStatement params n' st s' = .ok (.inl st₁, s₁') ∧
      Continues first rest c₁ c₁' ∧ GoesOn c₁ s₁ ∧ GoesOn c₁' s₁') ∨
    (∃ c₁', r = .inr ⟨st.statements⟩ ∧
      c₁'.cursor.source = first ++ '\n' :: ';' :: rest ∧ c₁'.cursor.ahead = ';' :: rest ∧
      furtherStatement params n' st s' = .ok (.inl ⟨st.statements, true⟩, justRead c₁')) := by
  have hp := h.pastBlank
  rw [furtherStatement_of_goesOn hs] at hrun
  rw [furtherStatement_of_goesOn hs']
  by_cases hend : c.pastBlank.cursor.ahead = []
  · have hsemicolon : c'.pastBlank.cursor.ahead = ';' :: rest := by
      rcases hp.ahead with ha | ⟨-, ha⟩
      · have hblank := Lexeme.blankWidth_pastBlank c'.cursor.ahead
        rw [← ahead_pastBlank, ha, hend] at hblank
        cases hblank
      · exact ha
    have hkind : c'.pastBlank.scan.1.kind = .semicolon := by
      rw [scan_of_lexeme (by rw [hsemicolon]; exact Lexeme.next?_semicolon _ _)]
      rfl
    have hr : r = .inr ⟨st.statements⟩ := by
      rw [behindStatements, if_pos (kind_scan_eq_eof.2 hend)] at hrun
      cases hrun
      rfl
    refine .inr ⟨c'.pastBlank, hr, hp.source_eq, hsemicolon, ?_⟩
    rw [behindStatements, if_neg (by rw [hkind]; nofun), if_pos hkind]
    rfl
  · have hne : c.pastBlank.scan.1.kind ≠ .eof := mt kind_scan_eq_eof.1 hend
    have hL : (Likeness.continuation first rest).Lawful := Likeness.continuation_lawful
    have hst : ReadBehind [] st st := ⟨rfl, rfl⟩
    have hf : (Likeness.continuation first rest).Follows _ (behindStatementsHeld params n st _)
        (behindStatements params n' st c'.pastBlank.scan.1) c.pastBlank c'.pastBlank :=
      behindStatements_follows hL hn trivial hp (Likeness.continuation_heads hp)
        (Likeness.continuation_endsAlike hp hend) hst
    rw [Likeness.Follows, hrun] at hf
    generalize behindStatements params n' st c'.pastBlank.scan.1 (justRead c'.pastBlank) = o at hf ⊢
    cases hf with
    | ok hv _ hg hg' =>
      obtain ⟨hv, hr⟩ := hv
      cases hv with
      | inl hst => exact .inl ⟨_, _, _, _, rfl, by rw [hst.eq_of_nil], hr, hg, hg'⟩
      | inr hq => exact absurd (kind_eof_of_behindStatements hrun) hne
    | astray h =>
      rcases h with ⟨e, he, -⟩ | ⟨_, _, _, _, _, _, hm⟩
      · cases he
      · exact hm.elim

/-- When the first text has been read, so have its statements and the semicolon behind it. -/
theorem query_continues (hn : n ≤ n') {m : Nat} (m' : Nat) (h : Continues first rest c c')
    (hs : GoesOn c s) (hs' : GoesOn c' s') {st : Statements} {q : Query}
    (hrun : loop (furtherStatement params n) m st s = .ok (q, s₁)) :
    ∃ c₁' j, c₁'.cursor.source = first ++ '\n' :: ';' :: rest ∧ c₁'.cursor.ahead = ';' :: rest ∧
      m' ≤ j ∧ loop (furtherStatement params n') (m + m') st s' =
        loop (furtherStatement params n') j ⟨q.statements, true⟩ (justRead c₁') := by
  induction m generalizing c c' s s' st with
  | zero => cases hrun
  | succ m ih =>
    obtain ⟨r, s₂, hr, hrun⟩ := bind_eq_ok.1 hrun
    rw [Nat.succ_add]
    rcases furtherStatement_continues hn h hs hs' hr with
      ⟨st₁, c₁, c₁', s₁', rfl, hr', h₁, hg, hg'⟩ | ⟨c₁', rfl, hsource, hsemicolon, hr'⟩
    · rw [loop_of_inl hr']
      exact ih h₁ hg hg' hrun
    · cases hrun
      rw [loop_of_inl hr']
      exact ⟨c₁', m + m', hsource, hsemicolon, Nat.le_add_left _ _, rfl⟩

/-- The newline behind the semicolon is no part of what follows. -/
theorem query_newline {d : Scanner} (hs : GoesOn d s) {text : List Char}
    (hd : d.cursor.ahead = '\n' :: text) (m : Nat) (st : Statements) :
    loop (furtherStatement params n) m st s =
      loop (furtherStatement params n) m st ⟨⟨d.cursor.advance 1, d.last⟩, none, none⟩ := by
  cases m with
  | zero => rfl
  | succ m =>
    show Except.bind (furtherStatement params n st s) _ =
      Except.bind (furtherStatement params n st _) _
    rw [furtherStatement_of_goesOn hs, furtherStatement_of_goesOn (.clear none),
      pastBlank_newline hd]

/-- Behind a text whose query has been read the other text is read, displaced. -/
theorem query_append {first : List Char} (second : List Char) {q : Query}
    (hrun : query params (stepsFor first) (TokenStream.start first) = .ok (q, s₁)) :
    let whole := first ++ '\n' :: ';' :: '\n' :: second
    let own := query params (stepsFor second) (TokenStream.start second)
    let behind := query params (stepsFor whole) (TokenStream.start whole)
    (∃ e, own = .error e ∧ e.cause = .outOfSteps) ∨
    (∃ q' s₂ s₂', own = .ok (q', s₂) ∧ behind = .ok (⟨q.statements ++ q'.statements⟩, s₂')) ∨
    ∃ e, own = .error e ∧ behind = .error (e.displaced ('\n' :: ';' :: '\n' :: first.reverse)) := by
  intro whole own behind
  have hsteps : stepsFor whole = stepsFor first + (stepsFor second + 2) := by
    simp only [whole, stepsFor, List.length_append, List.length_cons]
    omega
  have hstart : Continues first ('\n' :: second) (Scanner.start first) (Scanner.start whole) :=
    ⟨rfl, rfl, .inl rfl⟩
  obtain ⟨c₁, j, hsource, hahead, hj, hloop⟩ := query_continues
    (show stepsFor first ≤ stepsFor whole by omega) (stepsFor second + 2) hstart
    (.clear none) (.clear none) hrun
  obtain ⟨hnewline, hdisplaced⟩ := displaced_behind_semicolon hsource hahead
  have hbehind : behind = loop (furtherStatement params (stepsFor whole)) j ⟨q.statements, true⟩
      ⟨⟨c₁.scan.2.cursor.advance 1, c₁.scan.2.last⟩, none, none⟩ := by
    rw [← query_newline (goesOn_justRead c₁) hnewline, ← hloop, ← hsteps]
    rfl
  rw [hbehind]
  exact query_displaced params (by rintro c ⟨⟩; rfl) hdisplaced (.clear none) (.clear none) (by omega)
    (by omega) ⟨(List.append_nil _).symm, rfl⟩

end Grammar

theorem utf8ByteSize_eq_byteSize (s : String) : s.utf8ByteSize = byteSize s.toList := by
  have h : ∀ text : List Char, (String.ofList text).utf8ByteSize = byteSize text := by
    intro text
    induction text with
    | nil => rfl
    | cons c text ih =>
      rw [String.ofList_cons, String.utf8ByteSize_append, String.utf8ByteSize_singleton, ih,
        byteSize_cons]
  rw [← h, String.ofList_toList]

/-- Behind a query, and a line of its own with a semicolon, a text reads as it does alone: its
statements follow those of the query, or its error is found further on. -/
theorem parseQuery_append [PatternCompiler] {first : String} {params : Params} {q : Query}
    (h : parseQuery first params = .ok q) (second : String) :
    parseQuery (first ++ "\n;\n" ++ second) params =
      match parseQuery second params with
      | .ok q' => .ok ⟨q.statements ++ q'.statements⟩
      | .error e => .error ⟨e.cause, ⟨e.pos.line + 2 + first.toList.count '\n', e.pos.char⟩,
          ⟨e.span.start + first.utf8ByteSize + 3, e.span.stop + first.utf8ByteSize + 3⟩⟩ := by
  obtain ⟨s₁, hrun⟩ := run_eq_ok.1 h
  have hsource : (first ++ "\n;\n" ++ second).toList =
      first.toList ++ '\n' :: ';' :: '\n' :: second.toList := by
    simp
  have hown : parseQuery second params =
    (Grammar.query params (Grammar.stepsFor second.toList)).run second.toList := rfl
  have hbehind : parseQuery (first ++ "\n;\n" ++ second) params =
    (Grammar.query params (Grammar.stepsFor (first ++ "\n;\n" ++ second).toList)).run
      (first ++ "\n;\n" ++ second).toList := rfl
  rw [hsource] at hbehind
  rcases Grammar.query_append second.toList hrun with
    ⟨e, he, hc⟩ | ⟨q', s₂, s₂', hq, hq'⟩ | ⟨e, he, he'⟩
  · exact absurd hc (parseQuery_cause_ne (run_eq_error.2 he))
  · rw [hbehind, hown, run_eq_ok.2 ⟨_, hq⟩, run_eq_ok.2 ⟨_, hq'⟩]
  · rw [hbehind, hown, run_eq_error.2 he, run_eq_error.2 he', utf8ByteSize_eq_byteSize]
    have hline : e.pos.line + ('\n' :: ';' :: '\n' :: first.toList.reverse).count '\n' =
        e.pos.line + 2 + first.toList.count '\n' := by
      simp
      omega
    have hbyte : ∀ k, k + byteSize ('\n' :: ';' :: '\n' :: first.toList.reverse) =
        k + byteSize first.toList + 3 := by
      intro k
      have hnewline : '\n'.utf8Size = 1 := rfl
      have hsemicolon : ';'.utf8Size = 1 := rfl
      rw [byteSize_cons, byteSize_cons, byteSize_cons, byteSize_reverse, hnewline, hsemicolon]
      omega
    simp only [ParseError.displaced, Pos.displaced, Span.displaced, hline, hbyte]

/-- A query that ends within a comment, and behind it a text that ends too early. -/
theorem parseQuery_append_unfinished :
    let first := "SELECT \"é\"\nFROM c --"
    let s : Select := ⟨[⟨.atom (.var ⟨"é", .unknown⟩), none⟩],
      [.measurement ⟨none, none, some "c", none⟩], none, true⟩
    parseQuery first .empty = .ok ⟨[.select s]⟩ ∧
      parseQuery (first ++ "\n;\n" ++ "SELECT a FROM") .empty =
        .error ⟨.unexpected "EOF" ["identifier"], ⟨3, 13⟩, ⟨37, 37⟩⟩ := by
  intro first s
  have h : parseQuery first .empty = .ok ⟨[.select s]⟩ := by
    cbv
  have herror : parseQuery "SELECT a FROM" .empty =
      .error ⟨.unexpected "EOF" ["identifier"], ⟨0, 13⟩, ⟨13, 13⟩⟩ := by
    cbv
  refine ⟨h, ?_⟩
  have hlines : first.toList.count '\n' = 1 := by
    decide +kernel
  have hbytes : first.utf8ByteSize = 21 := by
    decide +kernel
  rw [parseQuery_append h, herror]
  simp only [hlines, hbytes]

end InfluxQL
