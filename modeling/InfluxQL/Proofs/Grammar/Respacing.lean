import InfluxQL.Proofs.Grammar.BrokenTokens
import InfluxQL.Proofs.Grammar.Concatenation
import InfluxQL.Proofs.Grammar.LetterCase
import InfluxQL.Proofs.Grammar.SideBySide
import InfluxQL.Proofs.Token.OperandEnd

/-!
# Other blanks and comments

A gap between two parts of a text is made of blanks and comments. Where a run is given a gap as one
token, another gap can stand for it, and the query is the same. Only where a regular expression or the
end of a call may follow does it matter how a gap begins: there a comment is not skipped.

The two runs go side by side: first before the same rest of the front, then each before its gap, or one
of them before its gap and the other behind, and then before the same text again. They part only if a
token goes on over the beginning of the gap, or is broken off there; and then the gap is not given as a
token of its own.

* `Lexeme.IsGap`: the texts that are made of blanks and comments;
* `Token.Bars`: no token starts at a byte any more when the token has been read;
* `Likeness.respacing`, `Likeness.respacing_lawful`: the likeness;
* `Grammar.not_bars_of_given`: a run that is given the gap is given no token that bars it;
* `parseQuery_respaced`: the statement for queries.
-/

namespace InfluxQL

open Production Scanner TokenStream

namespace Lexeme

variable {gap back : List Char}

/-- A text of blanks, and of comments with the newlines that end them. -/
inductive IsGap : List Char → Prop
  | nil : IsGap []
  | blank {c : Char} {gap : List Char} (blank : isBlank c) (behind : IsGap gap) : IsGap (c :: gap)
  | comment {body gap : List Char} (line : '\n' ∉ body) (behind : IsGap gap) :
      IsGap ('-' :: '-' :: (body ++ '\n' :: gap))

/-- Behind a gap there may be further blanks. -/
theorem IsGap.blankWidth_append (h : IsGap gap) (rest : List Char) :
    blankWidth false (gap ++ rest) = gap.length + blankWidth false rest := by
  induction h with
  | nil => exact (Nat.zero_add _).symm
  | blank hc _ ih =>
    rw [List.cons_append, blankWidth, if_neg Bool.false_ne_true, if_pos hc, ih, List.length_cons]
    omega
  | @comment body gap hline _ ih =>
    have hnewline : ∀ inComment, blankWidth inComment ('\n' :: (gap ++ rest)) =
        gap.length + blankWidth false rest + 1 := by
      rintro (_ | _) <;> simp [blankWidth, isBlank, ih]
    have hbody := blankWidth_append_of_blank (blankWidth_comment hline) ('\n' :: (gap ++ rest))
    rw [hnewline] at hbody
    simp [blankWidth, isBlank, hbody]
    omega

/-- A gap, and a text that starts with no further blank. -/
structure GapBefore (gap back : List Char) : Prop where
  isGap : IsGap gap
  ne_nil : gap ≠ []
  whole : blankWidth false back = 0

namespace GapBefore

theorem blankWidth_eq (h : GapBefore gap back) : blankWidth false (gap ++ back) = gap.length := by
  rw [h.isGap.blankWidth_append, h.whole, Nat.add_zero]

theorem blankWidth_ne_zero (h : GapBefore gap back) : blankWidth false (gap ++ back) ≠ 0 := by
  rw [h.blankWidth_eq]
  exact mt List.length_eq_zero_iff.1 h.ne_nil

theorem pastBlank_eq (h : GapBefore gap back) : pastBlank (gap ++ back) = back := by
  rw [pastBlank, h.blankWidth_eq, List.drop_left]

theorem breaks (h : GapBefore gap back) : Breaks (gap ++ back) :=
  breaks_of_blankWidth h.blankWidth_ne_zero

theorem append_ne_nil (h : GapBefore gap back) : gap ++ back ≠ [] :=
  List.append_ne_nil_of_left_ne_nil h.ne_nil back

end GapBefore

/-- Both gaps begin with a blank, or both with a comment. -/
def BeginAlike (gap other : List Char) : Prop :=
  other.head?.any isBlank = gap.head?.any isBlank

/-- The text starts a regular expression or ends a call. Where one of them may follow, a blank is only
skipped if it does not begin with a comment. -/
def TellsComments (text : List Char) : Prop :=
  text.head? = some '/' ∨ text.head? = some ')'

instance (text : List Char) : Decidable (TellsComments text) :=
  inferInstanceAs (Decidable (_ ∨ _))

end Lexeme

/-! ### Where no gap starts any more -/

/-- The token goes on over the byte, or it is broken and ends there. -/
def Token.Bars (byte : Nat) (t : Token) : Prop :=
  t.span.start < byte ∧ (byte < t.span.stop ∨ t.kind.isBroken ∧ t.span.stop = byte)

namespace Scanner

variable {byte : Nat} {c d : Scanner} {ev : Event} {evs : List Event}

/-- No token that starts at the byte is read from here on, unless one is read behind a broken one. -/
def Barred (byte : Nat) (c : Scanner) : Prop :=
  c.scan.1.Bars byte ∨ byte < c.offset

theorem barred_of_bars {u : Use} {t : Token} (hm : c.Moves (.given u t) d) (ht : t.Bars byte)
    (hbreaks : ¬(Event.given u t).breaks) : Barred byte d := by
  cases hm with
  | returned => exact .inl ht
  | taken =>
    refine .inr ?_
    rcases ht.2 with hlt | ⟨hk, -⟩
    · rwa [stop_scan] at hlt
    · exact absurd hk hbreaks
  | regex =>
    refine .inr ?_
    rcases ht.2 with hlt | ⟨hk, -⟩
    · exact hlt
    · exact absurd hk hbreaks

theorem Barred.moves (h : Barred byte c) (hm : c.Moves ev d) (hbreaks : ¬ev.breaks) :
    Barred byte d := by
  rcases h with h | h
  · cases hm with
    | starts | peeked => exact .inl h
    | returned => exact .inl h
    | taken => exact barred_of_bars (.taken c _) h hbreaks
    | regex ha =>
      -- A slash alone neither goes on over a byte nor is it broken.
      obtain ⟨hstart, hstop⟩ := h
      rw [scan_of_lexeme (by rw [ha]; exact Lexeme.next?_slash _ _)] at hstart hstop
      rcases hstop with hlt | ⟨hk, -⟩
      · have hone : byteSize (c.cursor.ahead.take 1) = 1 := by
          rw [ha]
          rfl
        simp only [take, Cursor.offset_advance, hone] at hstart hlt
        omega
      · cases hk
  · exact .inr (Nat.lt_of_lt_of_le h hm.offset_le)

theorem Barred.passes (h : Barred byte c) (hp : c.Passes evs d) (hbreaks : ∀ ev ∈ evs, ¬ev.breaks) :
    Barred byte d := by
  induction hp with
  | done => exact h
  | step hm _ ih =>
    obtain ⟨hev, hevs⟩ := List.forall_mem_cons.1 hbreaks
    exact ih (h.moves hm hev) hevs

theorem not_barred_of_offset_eq (h : c.offset = byte) : ¬Barred byte c := by
  rintro (⟨hlt, -⟩ | hlt)
  · rw [start_scan] at hlt
    exact Nat.ne_of_lt hlt h
  · exact Nat.ne_of_gt hlt h

/-- Where a token is given that starts at the byte, no token is given that bars it. -/
theorem not_bars_of_given {α : Type} {o : Except ParseError (α × TokenStream)} {c₀ c e : Scanner}
    {before behind : List Event} {u u' : Use} {t t' : Token} (hhalts : Halts evs o)
    (hpasses : c₀.Passes evs e) (hgiven : .given u t ∈ evs) (ht : t.span.start = byte)
    (hsplit : evs = before ++ .given u' t' :: behind) (hp : c₀.Passes before c) :
    ¬t'.Bars byte := by
  intro hbars
  obtain ⟨d, _, before', behind', hsplit', hp', hm, -⟩ := hpasses.exists_of_mem hgiven
  have hd : d.offset = byte := hm.start_eq.symm.trans ht
  have hc : c.offset < byte := by
    rw [hsplit] at hpasses
    obtain ⟨_, hm', -⟩ := hpasses.behind_inv hp
    exact hm'.start_eq ▸ hbars.1
  rcases events_order (hsplit.symm.trans hsplit') with ⟨rfl, -⟩ | ⟨between, rfl⟩ | ⟨between, rfl⟩
  · rw [hp.unique hp'] at hc
    omega
  · -- From the token that bars the byte on it stays barred.
    rw [hsplit'] at hhalts
    obtain ⟨hbreaks, hbetween⟩ := List.forall_mem_cons.1 fun ev hev =>
      hhalts.not_breaks ev (List.mem_append_right _ hev)
    obtain ⟨_, hm', hp'⟩ := hp'.behind_inv hp
    exact not_barred_of_offset_eq hd ((barred_of_bars hm' hbars hbreaks).passes hp' hbetween)
  · obtain ⟨_, hm', hp⟩ := hp.behind_inv hp'
    have hle := Nat.le_trans hm'.offset_le hp.offset_le
    omega

end Scanner

/-! ### The two texts -/

/-- A text with a gap, and the text with another gap. -/
structure Respacing where
  front : List Char
  gap : List Char
  other : List Char
  back : List Char
  left : Lexeme.GapBefore gap back
  right : Lexeme.GapBefore other back
  noDash : front.getLast? ≠ some '-'

namespace Respacing

variable (x : Respacing)

/-- The byte at which the gaps start. -/
def byte : Nat :=
  byteSize x.front

/-- How the gap begins makes no difference. -/
def Harmless : Prop :=
  Lexeme.BeginAlike x.gap x.other ∨ ¬Lexeme.TellsComments x.back

end Respacing

namespace Scanner

variable {x : Respacing} {c c' : Scanner}

/-- Both scanners are before the same rest of the front, or before the same text. -/
inductive Respaced (x : Respacing) (c c' : Scanner) : Prop
  | before (h : SameFront x.front (x.gap ++ x.back) (x.other ++ x.back) c c')
  | behind (h : SameAhead c c')

/-- One of the scanners is before its gap, and the other behind. -/
inductive HalfRespaced (x : Respacing) (c c' : Scanner) : Prop
  | left (ahead : c.cursor.ahead = x.gap ++ x.back) (ahead' : c'.cursor.ahead = x.back)
      (operand : c'.afterOperand = c.afterOperand)
  | right (ahead : c.cursor.ahead = x.back) (ahead' : c'.cursor.ahead = x.other ++ x.back)
      (operand : c'.afterOperand = c.afterOperand)

/-- A scanner before a gap. -/
theorem kind_scan_of_gap {gap back : List Char} (h : Lexeme.GapBefore gap back)
    (ha : c.cursor.ahead = gap ++ back) : c.scan.1.kind = .blank := by
  rw [scan_of_lexeme (Lexeme.next?_of_blank _ (by rw [ha]; exact h.blankWidth_ne_zero))]
  rfl

theorem pastBlank_of_gap {gap back : List Char} (h : Lexeme.GapBefore gap back)
    (ha : c.cursor.ahead = gap ++ back) : c.pastBlank.cursor.ahead = back := by
  rw [ahead_pastBlank, ha, h.pastBlank_eq]

/-- A scanner behind a gap. -/
theorem pastBlank_of_back {gap back : List Char} (h : Lexeme.GapBefore gap back)
    (ha : c.cursor.ahead = back) : c.pastBlank.cursor.ahead = back := by
  rw [ahead_pastBlank, ha, Lexeme.pastBlank_eq_self h.whole]

/-- Only before a closing parenthesis is its token next. -/
theorem kind_scan_ne_rightParen (h : c.cursor.ahead.head? ≠ some ')') :
    c.scan.1.kind ≠ .rightParen := by
  intro hk
  cases hl : Lexeme.next? c.afterOperand c.cursor.ahead with
  | none =>
    rw [scan_of_end (Lexeme.next?_eq_none_iff.1 hl)] at hk
    cases hk
  | some l =>
    rw [scan_of_lexeme hl] at hk
    exact h (Lexeme.head?_of_kind_rightParen hl hk)

/-- Behind the gaps the texts are the same. -/
theorem HalfRespaced.pastBlank (h : HalfRespaced x c c') : SameAhead c.pastBlank c'.pastBlank := by
  cases h with
  | left ha ha' ho =>
    refine ⟨?_, by simpa using ho⟩
    rw [pastBlank_of_gap x.left ha, pastBlank_of_back x.left ha']
  | right ha ha' ho =>
    refine ⟨?_, by simpa using ho⟩
    rw [pastBlank_of_gap x.right ha', pastBlank_of_back x.right ha]

/-- Of two gaps that do not begin alike the one that begins with a blank is skipped. -/
theorem HalfRespaced.ofGaps (hleft : c.cursor.ahead = x.gap ++ x.back)
    (hright : c'.cursor.ahead = x.other ++ x.back) (ho : c'.afterOperand = c.afterOperand)
    (hne : ¬Lexeme.BeginAlike x.gap x.other) :
    HalfRespaced x c.pastBlankCharacter c'.pastBlankCharacter := by
  unfold pastBlankCharacter
  rw [hleft, hright, List.head?_append_of_ne_nil _ x.left.ne_nil,
    List.head?_append_of_ne_nil _ x.right.ne_nil]
  cases hb : x.gap.head?.any isBlank with
  | true =>
    rw [if_pos rfl, if_neg fun hb' => hne (hb'.trans hb.symm)]
    exact .right (pastBlank_of_gap x.left hleft) hright (by simpa using ho)
  | false =>
    have hb' : x.other.head?.any isBlank :=
      Bool.of_not_eq_false fun hb' => hne (hb'.trans hb.symm)
    rw [if_neg Bool.false_ne_true, if_pos hb']
    exact .left hleft (pastBlank_of_gap x.right hright) (by simpa using ho)

/-- A token of the front that does not end there, or is broken and ends there, bars the gap. -/
theorem bars_of_scan {rest tail : List Char} {l : Lexeme} (hne : rest ≠ [])
    (hoffset : c.offset + byteSize rest = byteSize x.front) (ha : c.cursor.ahead = rest ++ tail)
    (hl : Lexeme.next? c.afterOperand c.cursor.ahead = some l)
    (hw : l.width = rest.length → l.kind.isBroken) (hle : rest.length ≤ l.width) :
    c.scan.1.Bars x.byte := by
  have hpos := byteSize_pos hne
  have hbyte : x.byte = byteSize x.front := rfl
  have hstart : c.scan.1.span.start = c.offset := start_scan c
  refine ⟨by omega, ?_⟩
  rw [scan_of_lexeme hl]
  rcases Nat.lt_or_eq_of_le hle with hlt | heq
  · refine .inl (Decidable.byContradiction fun hstop => ?_)
    have hwidth : l.width ≤ (rest ++ tail).length := ha ▸ Lexeme.width_le hl
    have hend : (c.take l).2.offset = (c.take l).1.span.stop := rfl
    have := width_le_of_offset_le ha hwidth (by omega)
    omega
  · refine .inr ⟨hw heq.symm, ?_⟩
    have hstop : (c.take l).1.span.stop = c.offset + byteSize (c.cursor.ahead.take l.width) := rfl
    rw [hstop, ha, ← heq, List.take_left, hoffset, hbyte]

/-- Before its end the next lexeme of the front is the same on both sides and ends there, or bars the
gap. -/
theorem bars_or_next {rest : List Char} (hsuffix : rest <:+ x.front) (hne : rest ≠ [])
    (hoffset : c.offset + byteSize rest = byteSize x.front)
    (ha : c.cursor.ahead = rest ++ (x.gap ++ x.back))
    (ha' : c'.cursor.ahead = rest ++ (x.other ++ x.back)) (ho : c'.afterOperand = c.afterOperand) :
    c.scan.1.Bars x.byte ∨ ∃ l, Lexeme.next? c.afterOperand c.cursor.ahead = some l ∧
      Lexeme.next? c'.afterOperand c'.cursor.ahead = some l ∧ l.width ≤ rest.length := by
  have hparted : ∀ tail, Lexeme.Parted rest tail := by
    intro tail hdash
    obtain ⟨before, hfront⟩ := hsuffix
    refine absurd ?_ x.noDash
    rw [← hfront, List.getLast?_append_of_ne_nil _ hne, hdash]
  have hsome : Lexeme.next? c.afterOperand c.cursor.ahead ≠ none :=
    mt Lexeme.next?_eq_none_iff.1 (by simp [ha, hne])
  obtain ⟨l, hl⟩ := Option.ne_none_iff_exists'.1 hsome
  by_cases hend : rest.length ≤ l.width ∧ (l.width = rest.length → l.kind.isBroken)
  · exact .inl (bars_of_scan hne hoffset ha hl hend.2 hend.1)
  have hle : l.width ≤ rest.length := Nat.le_of_not_lt fun hlt => hend ⟨by omega, by omega⟩
  refine .inr ⟨l, hl, ?_, hle⟩
  rw [ha] at hl
  rw [ho, ha']
  refine Lexeme.next?_exchange x.left.breaks x.right.breaks (hparted _) (hparted _) hl hle fun heq => ?_
  refine ⟨fun hblank => ?_, fun hbroken => hend ⟨Nat.le_of_eq heq.symm, fun _ => hbroken⟩⟩
  -- A blank would go on with the gap.
  rw [Lexeme.next?_of_blank _ ((Lexeme.kind_eq_blank_iff hl).1 hblank)] at hl
  cases hl
  have hwidth := Lexeme.blankWidth_replace x.left.append_ne_nil heq (x.gap ++ x.back)
  have hgap := x.left.blankWidth_ne_zero
  have heq : Lexeme.blankWidth false (rest ++ (x.gap ++ x.back)) = rest.length := heq
  omega

/-- Where two scanners can be that are before the same rest of the front. -/
inductive FrontCases (x : Respacing) (c c' : Scanner) : Prop
  /-- Both are before their gaps. -/
  | gap (offset : c.offset = x.byte) (left : c.cursor.ahead = x.gap ++ x.back)
      (right : c'.cursor.ahead = x.other ++ x.back)
  /-- Both are within the front. -/
  | within (lt : c.offset < x.byte) (head : c'.cursor.ahead.head? = c.cursor.ahead.head?)
      (next : c.scan.1.Bars x.byte ∨ ∃ l, Lexeme.next? c.afterOperand c.cursor.ahead = some l ∧
        Lexeme.next? c'.afterOperand c'.cursor.ahead = some l ∧
          SameFront x.front (x.gap ++ x.back) (x.other ++ x.back) (c.take l).2 (c'.take l).2)

theorem frontCases (h : SameFront x.front (x.gap ++ x.back) (x.other ++ x.back) c c') :
    FrontCases x c c' := by
  obtain ⟨rest, hsuffix, hoffset, ha, ha'⟩ := h.exists_rest
  by_cases hne : rest = []
  · subst hne
    exact .gap hoffset ha ha'
  · have hpos := byteSize_pos hne
    refine .within (Nat.lt_of_lt_of_eq (Nat.lt_add_of_pos_right hpos) hoffset) ?_ ?_
    · rw [ha, ha', List.head?_append_of_ne_nil _ hne, List.head?_append_of_ne_nil _ hne]
    · refine (bars_or_next hsuffix hne hoffset ha ha' h.afterOperand_eq).imp_right ?_
      rintro ⟨l, hl, hl', hw⟩
      exact ⟨l, hl, hl', (h.take ha ha' hw).2⟩

end Scanner

namespace Likeness

/-- A text with a gap, and the text with another gap. A run goes astray that is given a token that bars
the gap, or that looks before the gap at a character that matters. -/
def respacing (x : Respacing) : Likeness where
  rel := Respaced x
  near c c' := Respaced x c c' ∨ HalfRespaced x c c'
  apart c c' := HalfRespaced x c c' ∧ ¬Lexeme.TellsComments x.back
  place _ _ := True
  errors _ _ := True
  fails e := e.cause = .outOfSteps
  misses c ev := (∃ u t, ev = .given u t ∧ t.Bars x.byte) ∨
    ev = .peeked ∧ c.offset = x.byte ∧ ¬x.Harmless
  params _ := True

variable {x : Respacing} {c c' : Scanner}

theorem lost_of_bars (h : c.scan.1.Bars x.byte) : (respacing x).Lost c :=
  fun _ => .inl ⟨_, _, rfl, h⟩

theorem respacing_scan (h : Respaced x c c') :
    (respacing x).Lost c ∨ (respacing x).Heads c c' ∧ (respacing x).EndsAlike c c' := by
  cases h with
  | before h =>
    cases frontCases h with
    | gap _ hleft hright =>
      have hkind := kind_scan_of_gap x.left hleft
      have hkind' := kind_scan_of_gap x.right hright
      refine .inr ⟨.idle (by rw [hkind]; rfl) (by rw [hkind']; rfl) fun _ _ => trivial, .ofNe ?_⟩
      rw [hkind, hkind']
      rintro _ (rfl | rfl) <;> exact ⟨by decide, by decide⟩
    | within _ _ hnext =>
      rcases hnext with hbars | ⟨l, hl, hl', hr⟩
      · exact .inl (lost_of_bars hbars)
      · exact .inr (ofLexeme hl hl' trivial (.before hr))
  | behind h => exact .inr (ofSameAhead (fun _ _ => trivial) Respaced.behind h)

theorem respacing_regexHeads {rest rest' : List Char} (h : Respaced x c c')
    (ha : c.cursor.ahead = '/' :: rest) (ha' : c'.cursor.ahead = '/' :: rest') :
    (respacing x).RegexHeads c c' rest rest' := by
  cases h with
  | before h =>
    cases frontCases h with
    | gap _ hleft =>
      refine absurd ?_ (x.left.breaks.head?_ne_of_mem (x := '/') (by simp))
      rw [← hleft, ha]
      rfl
    | within hlt =>
      by_cases hover : x.byte < (c.regex rest).2.offset
      · exact .lost (.inl ⟨_, _, rfl, hlt, .inl hover⟩)
      · obtain ⟨ht, hr⟩ := h.regex x.left.append_ne_nil ha ha' hlt (Nat.le_of_not_lt hover)
        exact .same ⟨by rw [ht], by rw [ht], trivial⟩ (.before hr)
  | behind h => exact regexHeads_ofSameAhead (fun _ _ => trivial) Respaced.behind h ha ha'

theorem respacing_pastBlank (h : Respaced x c c' ∨ HalfRespaced x c c') :
    (respacing x).Lost c ∨ Respaced x c.pastBlank c'.pastBlank := by
  rcases h with h | h
  · cases h with
    | before h =>
      cases frontCases h with
      | gap _ hleft hright =>
        refine .inr (.behind ⟨?_, by simpa using h.afterOperand_eq⟩)
        rw [pastBlank_of_gap x.left hleft, pastBlank_of_gap x.right hright]
      | within _ _ hnext =>
        rcases hnext with hbars | ⟨l, hl, hl', hr⟩
        · exact .inl (lost_of_bars hbars)
        · exact .inr (pastBlank_rel hl hl' (.before h) (.before hr))
    | behind h => exact .inr (.behind h.pastBlank)
  · exact .inr (.behind h.pastBlank)

/-- Before gaps that do not begin alike only one side skips its gap. -/
theorem respacing_pastBlankCharacter (h : Respaced x c c') :
    (respacing x).misses c .peeked ∨
      (c.cursor.ahead.head?.any isBlank ∧ (respacing x).Lost c) ∨
        (respacing x).Loose c.pastBlankCharacter c'.pastBlankCharacter := by
  have hsame : c'.cursor.ahead.head?.any isBlank = c.cursor.ahead.head?.any isBlank →
      (c.cursor.ahead.head?.any isBlank ∧ (respacing x).Lost c) ∨
        (respacing x).Loose c.pastBlankCharacter c'.pastBlankCharacter := fun hhead =>
    (lost_or_pastBlankCharacter (L := respacing x) hhead (respacing_pastBlank (.inl h)) h).imp_right
      Or.inl
  have h' := h
  cases h' with
  | before h' =>
    cases frontCases h' with
    | gap hoffset hleft hright =>
      by_cases halike : Lexeme.BeginAlike x.gap x.other
      · refine .inr (hsame ?_)
        rw [hleft, hright, List.head?_append_of_ne_nil _ x.left.ne_nil,
          List.head?_append_of_ne_nil _ x.right.ne_nil, halike]
      by_cases htells : Lexeme.TellsComments x.back
      · exact .inl (.inr ⟨rfl, hoffset, fun hor => hor.elim halike fun hnot => hnot htells⟩)
      · exact .inr (.inr (.inr ⟨.ofGaps hleft hright h'.afterOperand_eq halike, htells⟩))
    | within _ hhead => exact .inr (hsame (by rw [hhead]))
  | behind h' => exact .inr (hsame (by rw [h'.ahead_eq]))

theorem respacing_apart (h : HalfRespaced x c c') (htells : ¬Lexeme.TellsComments x.back) :
    (respacing x).Apart c c' := by
  obtain ⟨hslash, hparen⟩ := not_or.1 htells
  have hnear : (respacing x).near c c' := .inr h
  cases h with
  | left ha ha' =>
    have hkind : c.scan.1.kind ≠ .rightParen := by
      rw [kind_scan_of_gap x.left ha]
      decide
    exact ⟨hnear, ⟨ha ▸ x.left.breaks.head?_ne_of_mem (by simp), ha' ▸ hslash⟩, hkind,
      kind_scan_ne_rightParen (ha' ▸ hparen)⟩
  | right ha ha' =>
    have hkind : c'.scan.1.kind ≠ .rightParen := by
      rw [kind_scan_of_gap x.right ha']
      decide
    exact ⟨hnear, ⟨ha ▸ hslash, ha' ▸ x.right.breaks.head?_ne_of_mem (by simp)⟩,
      kind_scan_ne_rightParen (ha ▸ hparen), hkind⟩

theorem respacing_lawful : (respacing x).Lawful where
  errors_of_place _ _ _ := trivial
  fails_outOfSteps he := he
  near_of_rel h := .inl h
  apart h := respacing_apart h.1 h.2
  heads h := (respacing_scan h).imp_right And.left
  regexHeads h ha ha' := respacing_regexHeads h ha ha'
  pastBlank h := respacing_pastBlank h
  pastBlankCharacter h := respacing_pastBlankCharacter h
  nextCharacter h := by
    refine .inr fun y hy => ?_
    cases h with
    | before h =>
      cases frontCases h with
      | gap _ hleft hright =>
        rw [hleft, hright]
        exact iff_of_false (x.right.breaks.head?_ne_of_mem hy) (x.left.breaks.head?_ne_of_mem hy)
      | within _ hhead => rw [hhead]
    | behind h => rw [h.ahead_eq]

theorem respacing_keepsEnds : (respacing x).KeepsEnds :=
  fun h _ => (respacing_scan h).imp_right And.right

end Likeness

namespace Grammar

variable [PatternCompiler]
variable {x : Respacing} {params : Params} {n n' : Nat} {u : Use} {t : Token}

/-- A query with a gap that is given and one with another gap, with at least as many steps. -/
theorem query_respaced (hn : n ≤ n') (hsteps : stepsFor (x.front ++ (x.gap ++ x.back)) ≤ n)
    (hgiven : .given u t ∈ (queryTrace params n).events
      (TokenStream.start (x.front ++ (x.gap ++ x.back))))
    (ht : t.span.start = x.byte)
    (hpeeks : ∀ before behind d, (queryTrace params n).events
        (TokenStream.start (x.front ++ (x.gap ++ x.back))) = before ++ .peeked :: behind →
      (Scanner.start (x.front ++ (x.gap ++ x.back))).Passes before d → d.offset = x.byte →
        x.Harmless) (q : Query) :
    (query params n).run (x.front ++ (x.gap ++ x.back)) = .ok q ↔
      (query params n').run (x.front ++ (x.other ++ x.back)) = .ok q := by
  have hstart : Respaced x (Scanner.start (x.front ++ (x.gap ++ x.back)))
      (Scanner.start (x.front ++ (x.other ++ x.back))) := .before (.start _ _ _)
  refine query_run_iff Likeness.respacing_lawful hn trivial Likeness.respacing_keepsEnds hstart hsteps
    (fun _ he => he) (fun before d ev behind hsplit hd hmisses => ?_) q
  rcases hmisses with ⟨u', t', rfl, hbars⟩ | ⟨rfl, hoffset, hharmful⟩
  · obtain ⟨e, hpasses, -⟩ := (queryTrace params n).passes (c := Scanner.start _) (.clear none)
    exact not_bars_of_given (query_halts _) hpasses hgiven ht hsplit hd hbars
  · exact hharmful (hpeeks before behind d hsplit hd hoffset)

/-- The token of a gap that ends where the gap does shows that no further blank follows. -/
theorem blankWidth_eq_zero_of_given {front gap back : List Char} (hgap : Lexeme.IsGap gap)
    (hne : gap ≠ []) (hgiven : .given u t ∈
      (queryTrace params n).events (TokenStream.start (front ++ (gap ++ back))))
    (ht : t.span = ⟨byteSize front, byteSize front + byteSize gap⟩) :
    Lexeme.blankWidth false back = 0 := by
  obtain ⟨e, hpasses, -⟩ := (queryTrace params n).passes (c := Scanner.start (front ++ (gap ++ back)))
    (.clear none)
  obtain ⟨d, _, _, _, -, hd, hm, -⟩ := hpasses.exists_of_mem hgiven
  have hahead : d.cursor.ahead = gap ++ back := by
    have hsource : d.source = front ++ (gap ++ back) := hd.source_eq
    refine (append_inj_of_byteSize hsource ?_).2
    rw [Cursor.byteSize_reverse_behind]
    exact hm.start_eq.symm.trans (congrArg Span.start ht)
  have hwidth : Lexeme.blankWidth false d.cursor.ahead =
      gap.length + Lexeme.blankWidth false back := by
    rw [hahead, hgap.blankWidth_append]
  have hpos := List.length_pos_of_ne_nil hne
  have hscan := scan_of_lexeme (Lexeme.next?_of_blank d.afterOperand (by omega))
  have hend : d.scan.2.offset = d.offset + byteSize gap := by
    have hstop := congrArg Span.stop ht
    have hstart := hm.start_eq.symm.trans (congrArg Span.start ht)
    cases hm with
    | taken | returned =>
      rw [← stop_scan, hstart]
      exact hstop
    | regex ha =>
      refine absurd ?_ (scan_slash ha).1
      rw [hscan]
      rfl
  rw [hscan] at hend
  have hle : Lexeme.blankWidth false d.cursor.ahead ≤ gap.length :=
    width_le_of_offset_le hahead (hahead ▸ Lexeme.blankWidth_le false _) (Nat.le_of_eq hend)
  omega

end Grammar

/-- While the query of the text is read, the next character is looked at before the byte. -/
def PeeksAt [PatternCompiler] (source : String) (params : Params) (byte : Nat) : Prop :=
  ∃ before behind d, queryEvents source params = before ++ .peeked :: behind ∧
    (Scanner.start source.toList).Passes before d ∧ d.offset = byte

/-- **Where blanks and comments are given as one token, others can stand for them:** if one of the texts
is a query, then so is the other, and it is the same. Where the next character is looked at before them
both have to begin with a blank, or both with a comment, if a regular expression or the end of a call
comes next. -/
theorem parseQuery_respaced [PatternCompiler] {front gap other back : String} {params : Params}
    {u : Use} {t : Token}
    (hfront : front.toList.getLast? ≠ some '-') (hgap : Lexeme.IsGap gap.toList)
    (hother : Lexeme.IsGap other.toList) (hne : gap ≠ "") (hne' : other ≠ "")
    (hgiven : .given u t ∈ queryEvents (front ++ gap ++ back) params)
    (hspan : t.span = ⟨front.utf8ByteSize, front.utf8ByteSize + gap.utf8ByteSize⟩)
    (hpeeks : PeeksAt (front ++ gap ++ back) params front.utf8ByteSize →
      Lexeme.BeginAlike gap.toList other.toList ∨ ¬Lexeme.TellsComments back.toList) (q : Query) :
    parseQuery (front ++ gap ++ back) params = .ok q ↔
      parseQuery (front ++ other ++ back) params = .ok q := by
  have htext : ∀ g : String, (front ++ g ++ back).toList =
      front.toList ++ (g.toList ++ back.toList) := by
    simp
  have hnil : ∀ {g : String}, g ≠ "" → g.toList ≠ [] := by
    simp
  rw [utf8ByteSize_eq_byteSize, utf8ByteSize_eq_byteSize] at hspan
  rw [utf8ByteSize_eq_byteSize] at hpeeks
  unfold PeeksAt at hpeeks
  unfold queryEvents at hgiven hpeeks
  rw [htext] at hgiven hpeeks
  have hwhole := Grammar.blankWidth_eq_zero_of_given hgap (hnil hne) hgiven hspan
  let x : Respacing := ⟨front.toList, gap.toList, other.toList, back.toList, ⟨hgap, hnil hne, hwhole⟩,
    ⟨hother, hnil hne', hwhole⟩, hfront⟩
  have hsteps := Grammar.query_run_of_le params (Nat.le_max_right
    (Grammar.stepsFor (x.front ++ (x.gap ++ x.back))) (Grammar.stepsFor (x.front ++ (x.other ++ x.back))))
  rw [parseQuery, parseQuery, htext, htext, ← hsteps]
  refine Grammar.query_respaced (x := x) (Nat.le_max_left _ _) (Nat.le_refl _) hgiven ?_ ?_ q
  · rw [hspan]
    rfl
  · exact fun before behind d hsplit hd hoffset => hpeeks ⟨before, behind, d, hsplit, hd, hoffset⟩

/-- At the start of a source two comments for two blanks, behind a name in quotes. -/
theorem parseQuery_respaced_comments :
    let t : Token := ⟨.blank, " \t", ⟨0, 15⟩, ⟨16, 18⟩⟩
    let q : Query := ⟨[.select ⟨[⟨.atom (.var ⟨"é", .unknown⟩), none⟩],
      [.measurement ⟨none, none, some "m", none⟩], none, true⟩]⟩
    .given (.taken false) t ∈ queryEvents ("SELECT \"é\" FROM" ++ " \t" ++ "m") Params.empty ∧
      parseQuery ("SELECT \"é\" FROM" ++ " \t" ++ "m") Params.empty = .ok q ∧
      parseQuery ("SELECT \"é\" FROM" ++ "--é\n--\n" ++ "m") Params.empty = .ok q := by
  intro t q
  have hgiven : .given (.taken false) t ∈
      queryEvents ("SELECT \"é\" FROM" ++ " \t" ++ "m") Params.empty := by
    decide +kernel
  have hleft : parseQuery ("SELECT \"é\" FROM" ++ " \t" ++ "m") Params.empty = .ok q := by
    cbv
  have hgap : Lexeme.IsGap " \t".toList := .blank (by decide) (.blank (by decide) .nil)
  have hother : Lexeme.IsGap "--é\n--\n".toList :=
    @Lexeme.IsGap.comment ['é'] _ (by decide) (@Lexeme.IsGap.comment [] _ (by decide) .nil)
  refine ⟨hgiven, hleft, (parseQuery_respaced (by decide) hgap hother (by decide) (by decide) hgiven
    (by decide +kernel) (fun _ => .inr (by decide)) q).1 hleft⟩

/-- Where a source starts a comment hides the regular expression behind it, and a blank does not. -/
theorem parseQuery_respaced_slash :
    let t : Token := ⟨.blank, "--c\n", ⟨0, 13⟩, ⟨13, 17⟩⟩
    "SELECT a FROM".toList.getLast? ≠ some '-' ∧
      Lexeme.IsGap "--c\n".toList ∧ Lexeme.IsGap " ".toList ∧
      .given (.taken false) t ∈ queryEvents ("SELECT a FROM" ++ "--c\n" ++ "/x/") Params.empty ∧
      parseQuery ("SELECT a FROM" ++ "--c\n" ++ "/x/") Params.empty =
        .error ⟨.unexpected "/" ["identifier"], ⟨1, 0⟩, ⟨17, 18⟩⟩ ∧
      parseQuery ("SELECT a FROM" ++ " " ++ "/x/") Params.empty =
        .ok ⟨[.select ⟨[⟨.atom (.var ⟨"a", .unknown⟩), none⟩],
          [.measurement ⟨none, none, none, some "x"⟩], none, true⟩]⟩ := by
  refine ⟨by decide, @Lexeme.IsGap.comment ['c'] _ (by decide) .nil, .blank (by decide) .nil, ?_, ?_, ?_⟩
  · decide +kernel
  · cbv
  · cbv

end InfluxQL
