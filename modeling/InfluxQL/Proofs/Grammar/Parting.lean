import InfluxQL.Proofs.Grammar.Alike
import InfluxQL.Proofs.Grammar.OperandEnd
import InfluxQL.Proofs.Grammar.Progress
import InfluxQL.Proofs.Token.Replacement

/-!
# Two texts that part behind an operand

Two texts are the same up to where an operand ends. Behind it the one goes on with a blank, and the other
with a blank or with an operator at once. On the way to this place both read alike, although it is in
sight there: the token behind the operand is looked at to see that the operand ends.

* `Scanner.Parting`: what stands behind the operand in the two texts;
* `Scanner.Beside`: a scanner before the place, and one of the other text;
* `Likeness.parting`: two scanners read alike if the left one still comes to the place;
* `Likeness.AlikeFrom.arrives`: what is read on the left up to the place is read on the right.
-/

namespace InfluxQL

open Production Scanner TokenStream

namespace Scanner

variable {c d fork c' : Scanner} {ev : Event} {other : List Char}

/-! ### Scanners on the way -/

theorem Moves.reaches (h : c.Moves ev d) : c.Reaches d :=
  ⟨_, h.passes⟩

theorem exists_rest_take (l : Lexeme) : ∃ rest, c.cursor.ahead = rest ++ (c.take l).2.cursor.ahead ∧
    (c.take l).2.cursor.behind = rest.reverse ++ c.cursor.behind :=
  ⟨c.cursor.ahead.take l.width, (List.take_append_drop _ _).symm, rfl⟩

/-- What lies between two scanners is ahead of the one and behind the other. -/
theorem Reaches.exists_rest (h : c.Reaches d) : ∃ rest, c.cursor.ahead = rest ++ d.cursor.ahead ∧
    d.cursor.behind = rest.reverse ++ c.cursor.behind := by
  obtain ⟨evs, h⟩ := h
  induction h with
  | done => exact ⟨[], rfl, rfl⟩
  | @step c d' _ _ _ hm _ ih =>
    obtain ⟨rest, ha, hb⟩ := ih
    obtain ⟨front, ha', hb'⟩ : ∃ front, c.cursor.ahead = front ++ d'.cursor.ahead ∧
        d'.cursor.behind = front.reverse ++ c.cursor.behind := by
      cases hm with
      | starts | peeked | returned => exact ⟨[], rfl, rfl⟩
      | taken =>
        cases hl : Lexeme.next? c.afterOperand c.cursor.ahead with
        | none =>
          rw [scan_of_end (Lexeme.next?_eq_none_iff.1 hl)]
          exact ⟨[], rfl, rfl⟩
        | some l =>
          rw [scan_of_lexeme hl]
          exact exists_rest_take l
      | regex => exact exists_rest_take _
    exact ⟨front ++ rest, by rw [ha', ha, List.append_assoc], by simp [hb, hb']⟩

theorem Reaches.left_le (h : c.Reaches d) : d.left ≤ c.left := by
  obtain ⟨rest, ha, -⟩ := h.exists_rest
  rw [left, left, ha, List.length_append]
  exact Nat.le_add_left _ _

/-- Who comes to another scanner comes there behind the next token, or behind a regular expression. -/
theorem Reaches.cases (h : c.Reaches d) : c = d ∨ c.scan.2.Reaches d ∨
    ∃ rest, c.cursor.ahead = '/' :: rest ∧ (c.regex rest).2.Reaches d := by
  obtain ⟨evs, h⟩ := h
  induction h with
  | done => exact .inl rfl
  | step hm hrest ih =>
    cases hm with
    | starts | peeked | returned => exact ih
    | taken => exact .inr (.inl ⟨_, hrest⟩)
    | regex ha => exact .inr (.inr ⟨_, ha, _, hrest⟩)

/-- With as much text ahead it is the same scanner, unless this is none. -/
theorem Reaches.eq_of_left (h : c.Reaches d) (hl : c.left = d.left) (hne : d.cursor.ahead ≠ []) :
    c = d := by
  have hahead : c.cursor.ahead ≠ [] := by
    intro hc
    rw [left, left, hc] at hl
    exact hne (List.length_eq_zero_iff.1 hl.symm)
  rcases h.cases with rfl | h | ⟨rest, ha, h⟩
  · rfl
  · have hlt := left_scan_lt (mt kind_scan_eq_eof.1 hahead)
    have := h.left_le
    omega
  · have hle := h.left_le
    have hpos : 0 < c.left := List.length_pos_of_ne_nil hahead
    rw [regex, left_take, Lexeme.regex_width] at hle
    omega

/-! ### Where the texts part -/

/-- An operand ends at the place `fork`. A blank stands behind it there; `other` begins with a blank as
well, or with an operator. -/
structure Parting (fork : Scanner) (other : List Char) : Prop where
  behind : fork.BehindOperand
  blank : Lexeme.blankWidth false fork.cursor.ahead ≠ 0
  follows : Lexeme.FollowsOperand other
  first : fork.cursor.ahead.head?.any isBlank ∨ other.head? = fork.cursor.ahead.head?

/-- Before the place there is the same rest on both sides, with `other` behind it on the right. -/
structure Beside (fork : Scanner) (other : List Char) (c c' : Scanner) : Prop where
  afterOperand_eq : c'.afterOperand = c.afterOperand
  rest : ∃ rest, c.cursor.ahead = rest ++ fork.cursor.ahead ∧ c'.cursor.ahead = rest ++ other

namespace Parting

variable (P : Parting fork other)
include P

theorem ahead_ne_nil : fork.cursor.ahead ≠ [] := fun h => P.blank (by rw [h]; rfl)

/-- Behind the blank the place has been left. -/
theorem not_reaches_pastBlank : ¬fork.pastBlank.Reaches fork := by
  intro h
  have heq := h.eq_of_left (Nat.le_antisymm left_pastBlank_le h.left_le) P.ahead_ne_nil
  refine P.blank ?_
  rw [← heq, ahead_pastBlank, Lexeme.blankWidth_pastBlank]

theorem kind_scan_fork : fork.scan.1.kind = .blank := by
  rw [scan_of_lexeme (Lexeme.next?_of_blank _ P.blank)]
  rfl

/-- Before the place there is a firm rest, and the next lexeme ends in it, or ends an operand with it. -/
theorem exists_lexeme (h : c.Reaches fork) (hne : c ≠ fork) (hb : Beside fork other c c') :
    ∃ rest l, Lexeme.EndsFirm rest ∧ c.cursor.ahead = rest ++ fork.cursor.ahead ∧
      c'.cursor.ahead = rest ++ other ∧ Lexeme.next? c.afterOperand c.cursor.ahead = some l ∧
      l.width ≤ rest.length ∧ (l.width = rest.length → l.kind.endsOperand) := by
  obtain ⟨rest, ha, ha'⟩ := hb.rest
  obtain ⟨rest', hrest, hbehind⟩ := h.exists_rest
  obtain rfl : rest' = rest := List.append_cancel_right (hrest.symm.trans ha)
  have hleft : c.left = rest'.length + fork.left := by
    rw [left, ha, List.length_append, left]
  have hpos : rest' ≠ [] := by
    rintro rfl
    exact hne (h.eq_of_left (by simpa using hleft) P.ahead_ne_nil)
  have hfirm : Lexeme.EndsFirm rest' := by
    obtain ⟨x, hx, hf⟩ := P.behind.firm
    refine ⟨x, ?_, hf⟩
    rw [hbehind, List.head?_append, List.head?_reverse] at hx
    rw [List.getLast?_eq_some_getLast hpos] at hx ⊢
    exact hx
  have hahead : c.cursor.ahead ≠ [] := by
    simp [ha, hpos]
  obtain ⟨l, hl⟩ := Option.ne_none_iff_exists'.1
    (mt (Lexeme.next?_eq_none_iff (b := c.afterOperand)).1 hahead)
  refine ⟨rest', l, hfirm, ha, ha', hl, ?_⟩
  rcases h.cases with rfl | h | ⟨r, hslash, h⟩
  · exact absurd rfl hne
  · have hle := h.left_le
    have hwidth := Lexeme.width_le hl
    rw [scan_of_lexeme hl, left_take] at hle
    have hlen : c.cursor.ahead.length = c.left := rfl
    refine ⟨by omega, fun heq => ?_⟩
    have hfork : c.scan.2 = fork := by
      refine h.eq_of_left ?_ P.ahead_ne_nil
      rw [scan_of_lexeme hl, left_take]
      omega
    have hafter := P.behind.afterOperand
    rw [← hfork, scan_of_lexeme hl] at hafter
    by_cases hk : l.kind = .blank
    · -- Behind a blank there is none, but one stands at the place.
      have hkind : c.scan.1.kind = .blank := by
        rw [scan_of_lexeme hl]
        exact hk
      refine absurd ?_ P.blank
      rw [← hfork, ← pastBlank_of_blank hkind, ahead_pastBlank, Lexeme.blankWidth_pastBlank]
    · simpa [Scanner.take, afterOperand, hk] using hafter
  · -- A slash, which may start a regular expression, is shorter than that.
    have hl' : l = ⟨.op .div, [], 1⟩ := by
      rw [hslash, Lexeme.next?_slash] at hl
      exact (Option.some.inj hl).symm
    have hr : r ≠ [] := by
      rintro rfl
      have hlen := congrArg List.length (hslash.symm.trans ha)
      have hrest := List.length_pos_of_ne_nil hpos
      have hahead := List.length_pos_of_ne_nil P.ahead_ne_nil
      rw [List.length_singleton, List.length_append] at hlen
      omega
    have hle := h.left_le
    have hread := Lexeme.regexRead_pos hr
    rw [regex, left_take, Lexeme.regex_width] at hle
    have := List.length_pos_of_ne_nil P.ahead_ne_nil
    have hlen : fork.cursor.ahead.length = fork.left := rfl
    rw [hl']
    exact ⟨by show 1 ≤ _; omega, fun heq => by change 1 = _ at heq; omega⟩

omit P in
/-- A lexeme that ends before the place is taken on both sides. -/
theorem take (hb : Beside fork other c c') {rest : List Char}
    (ha : c.cursor.ahead = rest ++ fork.cursor.ahead) (ha' : c'.cursor.ahead = rest ++ other)
    {l : Lexeme} (hw : l.width ≤ rest.length) : Beside fork other (c.take l).2 (c'.take l).2 where
  afterOperand_eq := afterOperand_take hb.afterOperand_eq l
  rest := by
    refine ⟨rest.drop l.width, ?_, ?_⟩
    · simp [Scanner.take, Cursor.advance, ha, List.drop_append_of_le_length hw]
    · simp [Scanner.take, Cursor.advance, ha', List.drop_append_of_le_length hw]

/-- Before the place the next tokens are the same. -/
theorem scan (h : c.Reaches fork) (hne : c ≠ fork) (hb : Beside fork other c c') :
    c'.scan.1.kind = c.scan.1.kind ∧ c'.scan.1.lit = c.scan.1.lit ∧
      Beside fork other c.scan.2 c'.scan.2 := by
  obtain ⟨rest, l, hfirm, ha, ha', hl, hw, hend⟩ := P.exists_lexeme h hne hb
  have hl' : Lexeme.next? c'.afterOperand c'.cursor.ahead = some l := by
    rw [hb.afterOperand_eq, ha']
    refine Lexeme.next?_exchange (Lexeme.breaks_of_blankWidth P.blank) P.follows.breaks
      (hfirm.parted _) (hfirm.parted _) (ha ▸ hl) hw fun heq => ?_
    have hidle := TokenKind.isIdle_of_endsOperand (hend heq)
    refine ⟨(TokenKind.ne_of_isIdle rfl hidle).symm, fun hbroken => ?_⟩
    rw [TokenKind.isIdle_of_isBroken hbroken] at hidle
    cases hidle
  rw [scan_of_lexeme hl, scan_of_lexeme hl']
  exact ⟨rfl, rfl, take hb ha ha' hw⟩

theorem pastBlank (h : c.Reaches fork) (hne : c ≠ fork) (hb : Beside fork other c c') :
    Beside fork other c.pastBlank c'.pastBlank := by
  obtain ⟨hk, -, hscan⟩ := P.scan h hne hb
  unfold Scanner.pastBlank
  rw [hk]
  split
  · exact hscan
  · exact hb

theorem head?_eq (h : c.Reaches fork) (hne : c ≠ fork) (hb : Beside fork other c c') :
    c'.cursor.ahead.head? = c.cursor.ahead.head? := by
  obtain ⟨rest, l, hfirm, ha, ha', -⟩ := P.exists_lexeme h hne hb
  rw [ha, ha', List.head?_append_of_ne_nil _ hfirm.ne_nil, List.head?_append_of_ne_nil _ hfirm.ne_nil]

omit P in
theorem ahead_of_eq (hb : Beside fork other fork c') : c'.cursor.ahead = other := by
  obtain ⟨rest, ha, ha'⟩ := hb.rest
  obtain rfl : rest = [] := List.append_left_eq_self.1 ha.symm
  exact ha'

/-- At the place the right scanner is before a blank or an operator. -/
theorem kind_scan_of_eq (hb : Beside fork other fork c') :
    c'.scan.1.kind = .blank ∨ ∃ op, c'.scan.1.kind = .op op := by
  have hafter : c'.afterOperand = true := hb.afterOperand_eq.trans P.behind.afterOperand
  have hkind : c'.scan.1.kind = Lexeme.nextKind true other := by
    rw [← ahead_of_eq hb, ← hafter]
    cases hl : Lexeme.next? c'.afterOperand c'.cursor.ahead with
    | none =>
      rw [scan_of_end (Lexeme.next?_eq_none_iff.1 hl), Lexeme.nextKind, hl]
      rfl
    | some l =>
      rw [scan_of_lexeme hl, Lexeme.nextKind_of_lexeme hl]
      rfl
  rw [hkind]
  exact P.follows.next

end Parting

end Scanner

namespace Likeness

/-- Two texts that part behind an operand. A run that does not come to this place has gone astray. -/
def parting (fork : Scanner) (other : List Char) : Likeness where
  rel c c' := c.Reaches fork → Beside fork other c c'
  near c c' := c.Reaches fork → Beside fork other c c'
  place _ _ := True
  errors _ _ := True
  fails _ := True
  misses c ev := ∀ d, c.Moves ev d → ¬d.Reaches fork
  params _ := True

variable {fork c c' : Scanner} {other : List Char}

theorem parting_misses {ev : Event} (h : ¬c.Reaches fork) : (parting fork other).misses c ev :=
  fun _ hm hd => h (hm.reaches.trans hd)

theorem parting_lost (h : ¬c.Reaches fork) : (parting fork other).Lost c :=
  fun _ => parting_misses h

variable (P : Parting fork other)
include P

theorem parting_heads (h : (parting fork other).rel c c') :
    (parting fork other).Lost c ∨ (parting fork other).Heads c c' := by
  by_cases hreach : c.Reaches fork
  · have hb := h hreach
    by_cases hne : c = fork
    · subst hne
      rcases P.kind_scan_of_eq hb with hk | hop
      · exact .inr (.idle (by rw [P.kind_scan_fork]; rfl) (by rw [hk]; rfl) fun _ _ => trivial)
      · exact .inr (.joined P.kind_scan_fork hop (fun _ _ => trivial) fun _ => trivial)
    · obtain ⟨hk, hlit, hscan⟩ := P.scan hreach hne hb
      exact .inr (.same ⟨hk, hlit, trivial⟩ fun _ => hscan)
  · exact .inl (parting_lost hreach)

theorem parting_pastBlank (h : (parting fork other).near c c') :
    (parting fork other).Lost c ∨ (parting fork other).rel c.pastBlank c'.pastBlank := by
  by_cases hreach : c.Reaches fork
  · by_cases hne : c = fork
    · subst hne
      exact .inr fun hback => absurd hback P.not_reaches_pastBlank
    · exact .inr fun _ => P.pastBlank hreach hne (h hreach)
  · exact .inl (parting_lost hreach)

theorem parting_pastBlankCharacter (h : (parting fork other).rel c c') :
    (parting fork other).rel c.pastBlankCharacter c'.pastBlankCharacter := by
  intro hback
  have hreach : c.Reaches fork := by
    refine Reaches.trans ?_ hback
    unfold pastBlankCharacter
    split
    · exact reaches_pastBlank c
    · exact .refl c
  have hb := h hreach
  unfold pastBlankCharacter at hback ⊢
  by_cases hne : c = fork
  · subst hne
    by_cases hblank : c.cursor.ahead.head?.any isBlank
    · rw [if_pos hblank] at hback
      exact absurd hback P.not_reaches_pastBlank
    · have hhead := P.first.resolve_left hblank
      rw [Parting.ahead_of_eq hb, hhead, if_neg hblank, if_neg hblank]
      exact hb
  · rw [P.head?_eq hreach hne hb]
    split
    · exact P.pastBlank hreach hne hb
    · exact hb

/-- A regular expression that ends before the place is read on both sides. -/
theorem parting_regexHeads {rest rest' : List Char} (h : (parting fork other).rel c c')
    (ha : c.cursor.ahead = '/' :: rest) (ha' : c'.cursor.ahead = '/' :: rest') :
    (parting fork other).RegexHeads c c' rest rest' := by
  by_cases hback : (c.regex rest).2.Reaches fork
  · have hb := h ((reaches_regex ha).trans hback)
    obtain ⟨front, hc, hc'⟩ := hb.rest
    cases front with
    | nil =>
      refine absurd ?_ ((Lexeme.breaks_of_blankWidth P.blank).head?_ne_of_mem (x := '/') (by simp))
      rw [List.nil_append] at hc
      rw [← hc, ha]
      rfl
    | cons x front =>
      obtain ⟨rfl, rfl⟩ : '/' = x ∧ rest = front ++ fork.cursor.ahead := by
        simpa using ha.symm.trans hc
      obtain rfl : rest' = front ++ other := by
        simpa using ha'.symm.trans hc'
      have hwidth : (Lexeme.regex (front ++ fork.cursor.ahead)).width ≤ front.length + 1 := by
        have hle := hback.left_le
        rw [Scanner.regex, left_take] at hle
        have hpos := List.length_pos_of_ne_nil P.ahead_ne_nil
        have hlen : c.left = (front.length + 1) + fork.left := by
          rw [left, hc, List.length_append, List.length_cons, left]
        change 0 < fork.left at hpos
        omega
      have hregex := Lexeme.regex_replace P.ahead_ne_nil hwidth other
      refine .same ?_ fun _ => ?_
      · rw [Scanner.regex, Scanner.regex, hregex]
        exact ⟨rfl, rfl, trivial⟩
      · rw [Scanner.regex, Scanner.regex, hregex]
        exact Parting.take hb hc hc' hwidth
  · refine .lost fun d hm => ?_
    rw [hm.unique (.regex ha)]
    exact hback

theorem parting_lawful : (parting fork other).Lawful where
  errors_of_place _ _ _ := trivial
  fails_outOfSteps _ := trivial
  near_of_rel h := h
  apart h := h.elim
  heads h := parting_heads P h
  regexHeads h ha ha' := parting_regexHeads P h ha ha'
  pastBlank h := parting_pastBlank P h
  pastBlankCharacter h := .inr (.inr (.inl (parting_pastBlankCharacter P h)))
  nextCharacter {c c'} h := by
    by_cases hreach : c.Reaches fork
    · refine .inr fun x hx => ?_
      by_cases hne : c = fork
      · subst hne
        rw [Parting.ahead_of_eq (h hreach)]
        exact iff_of_false (P.follows.breaks.head?_ne_of_mem hx)
          ((Lexeme.breaks_of_blankWidth P.blank).head?_ne_of_mem hx)
      · rw [P.head?_eq hreach hne (h hreach)]
    · exact .inl (parting_misses hreach)

omit P in
/-- What is read on the left up to the place is read on the right. -/
theorem AlikeFrom.arrives {α α' : Type} {R : Scanner → Scanner → Prop}
    {Q : α → α' → Scanner → Scanner → Prop} {p : Production α} {p' : Production α'} {T : Trace p}
    (h : (parting fork other).AlikeFrom R Q T p') {s s' s₁ : TokenStream} {a : α} (hr : R c c')
    (hs : GoesOn c s) (hs' : GoesOn c' s') (hrun : p s = .ok (a, s₁))
    (hp : c.Passes (T.events s) fork) :
    ∃ a' s₁' c₁', p' s' = .ok (a', s₁') ∧ Q a a' fork c₁' ∧ GoesOn c₁' s₁' := by
  have hmeets := h c c' s s' hr hs hs'
  rw [hrun] at hmeets
  generalize ho : p' s' = o at hmeets
  cases hmeets with
  | ok hq hpass _ hgo =>
    obtain rfl := hpass.unique hp
    exact ⟨_, _, _, rfl, hq, hgo⟩
  | astray hastray =>
    -- Everything on the way to the place leads there.
    rcases hastray with ⟨e, he, -⟩ | ⟨before, d, ev, behind, hevs, hd, hm⟩
    · cases he
    · rw [hevs] at hp
      obtain ⟨d', hd', hbehind⟩ := hp.append_inv
      obtain rfl := hd.unique hd'
      obtain ⟨d₁, hmove, hbehind⟩ := hbehind.cons_inv
      exact absurd ⟨_, hbehind⟩ (hm d₁ hmove)

end Likeness

end InfluxQL
