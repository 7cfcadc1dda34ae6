import InfluxQL.Proofs.Grammar.SideBySide
import InfluxQL.Proofs.Token.LetterCase

/-!
# Queries in other letters

The case of letters does not matter in reserved words, in the names of types and in those of calls.
Every other token must be written as before.

A run of the text reads the same tokens as a run of the other, but for the names of types and calls.
These are never read as anything else: what is done at a place between two tokens that are taken one
right after the other is that the second is taken.

* `Recased`: the second text is the first in other letters, where their case does not matter;
* `Likeness.recasing`, `Likeness.recasing_lawful`: the likeness;
* `parseQuery_recased`: the statement for queries.
-/

namespace InfluxQL

open Production Scanner TokenStream

/-! ### Tokens whose case does not matter -/

/-- The token that is read, if one is. -/
def Event.token? : Event → Option Token
  | given _ t => some t
  | _ => none

/-- The tokens are taken, one right after the other. -/
def TakesInTurn (evs : List Event) (t u : Token) : Prop :=
  [.given (.taken false) t, .given (.taken false) u] <:+: evs

instance (evs : List Event) (t u : Token) : Decidable (TakesInTurn evs t u) :=
  inferInstanceAs (Decidable (_ <:+: _))

/-- The token is a reserved word, the name of a type or the name of a call. -/
def IsCaseless (evs : List Event) (t : Token) : Prop :=
  t.kind.isReserved ∨ t.kind = .ident ∧ ∃ u ∈ evs.filterMap Event.token?,
    u.kind = .doubleColon ∧ TakesInTurn evs u t ∨ u.kind = .leftParen ∧ TakesInTurn evs t u

instance (evs : List Event) (t : Token) : Decidable (IsCaseless evs t) :=
  inferInstanceAs (Decidable (_ ∨ _))

/-- The second text has the same letters as the first, up to their case, and each token that is read is
written as before, unless it is a bare word whose case does not matter. -/
structure Recased [PatternCompiler] (source source' : String) (params : Params) : Prop where
  letters : SameLetters source.toList source'.toList
  tokens : ∀ t ∈ (queryEvents source params).filterMap Event.token?,
    isWord (t.span.part source.toList) ∧ IsCaseless (queryEvents source params) t ∨
      t.span.part source'.toList = t.span.part source.toList

instance [PatternCompiler] (source source' : String) (params : Params) :
    Decidable (Recased source source' params) :=
  decidable_of_iff (_ ∧ _) ⟨fun h => ⟨h.1, h.2⟩, fun h => ⟨h.1, h.2⟩⟩

/-- Behind a token of the text there is one scanner only. -/
theorem Scanner.eq_behind_scan {c d : Scanner} (hs : c.source = d.source) (h : c.scan.1 = d.scan.1)
    (hk : d.scan.1.kind.isIdle = false) : c.scan.2 = d.scan.2 := by
  have hsource : c.scan.2.source = d.scan.2.source :=
    (source_scan c).trans (hs.trans (source_scan d).symm)
  have hoffset : c.scan.2.offset = d.scan.2.offset := by
    rw [← stop_scan, h, stop_scan]
  have hcursor : c.scan.2.cursor = d.scan.2.cursor := Cursor.eq_of_offset hsource hoffset
  have hlast : c.scan.2.last = d.scan.2.last := by
    rw [last_scan (congrArg Token.kind h) hk, last_scan rfl hk]
  cases hc : c.scan.2
  cases hd : d.scan.2
  simp_all

/-- A text, the same text in other letters, and what happens while it is read. -/
structure Recasing where
  text : List Char
  text' : List Char
  events : List Event
  stop : Scanner
  letters : SameLetters text text'
  passes : (Scanner.start text).Passes events stop
  tokens : ∀ t ∈ events.filterMap Event.token?,
    isWord (t.span.part text) ∧ IsCaseless events t ∨ t.span.part text' = t.span.part text

namespace Recasing

variable {x : Recasing} {c c' d : Scanner} {t u : Token} {ev : Event}

/-- The event happens at the scanner while the text is read. -/
def Happens (x : Recasing) (c : Scanner) (ev : Event) : Prop :=
  ∃ before behind, x.events = before ++ ev :: behind ∧ (Scanner.start x.text).Passes before c

theorem Happens.source_eq (h : x.Happens c ev) : c.source = x.text := by
  obtain ⟨before, behind, -, hp⟩ := h
  exact hp.source_eq

theorem Happens.mem {u : Use} (h : x.Happens c (.given u t)) :
    t ∈ x.events.filterMap Event.token? := by
  obtain ⟨before, behind, hevs, -⟩ := h
  rw [hevs]
  simp [Event.token?]

/-- Two tokens that are taken in turn are taken at one place, and between them nothing else happens. -/
theorem exists_of_takesInTurn (h : TakesInTurn x.events t u) (ht : t.kind ≠ .eof)
    (hu : u.kind ≠ .eof) : ∃ d, d.scan.1 = t ∧ d.scan.2.scan.1 = u ∧
      x.Happens d (.given (.taken false) t) ∧
      ∀ e ev, x.Happens e ev → e.offset = d.scan.2.offset → ev ≠ .given (.taken false) t →
        ev = .given (.taken false) u := by
  obtain ⟨before, behind, hevs⟩ := h
  rw [List.append_assoc, List.cons_append, List.cons_append, List.nil_append] at hevs
  have hpasses := x.passes
  rw [← hevs] at hpasses
  obtain ⟨d, hd, hpasses⟩ := hpasses.append_inv
  obtain ⟨d₁, hm, hpasses⟩ := hpasses.cons_inv
  obtain ⟨d₂, hm', -⟩ := hpasses.cons_inv
  have hboth := And.intro hm hm'
  cases hm with
  | taken =>
    cases hm' with
    | taken =>
      refine ⟨d, rfl, rfl, ⟨before, _, hevs.symm, hd⟩, ?_⟩
      rintro e ev ⟨before', behind', hevs', he⟩ hoffset hne
      exact Passes.adjacent (hevs.trans hevs') hne.symm hd hboth.1 (offset_lt_scan ht) hboth.2
        (offset_lt_scan hu) he hoffset

/-- Of two events one happens first. -/
theorem Happens.order {e : Scanner} {ev' : Event} (h : x.Happens d ev) (h' : x.Happens e ev') :
    d = e ∧ ev = ev' ∨ (∃ d₁, d.Moves ev d₁ ∧ d₁.offset ≤ e.offset) ∨
      ∃ e₁, e.Moves ev' e₁ ∧ e₁.offset ≤ d.offset := by
  obtain ⟨before, behind, hevs, hd⟩ := h
  obtain ⟨before', behind', hevs', he⟩ := h'
  rcases Passes.order (hevs.symm.trans hevs') hd he with hsame | ⟨d₁, _, hm, hp⟩ | ⟨e₁, _, hm, hp⟩
  · exact .inl hsame
  · exact .inr (.inl ⟨d₁, hm, hp.offset_le⟩)
  · exact .inr (.inr ⟨e₁, hm, hp.offset_le⟩)

/-- The scanners are at the same place of the two texts. -/
structure Aligned (x : Recasing) (c c' : Scanner) : Prop where
  source_eq : c.cursor.source = x.text
  source_eq' : c'.cursor.source = x.text'
  behind : SameLetters c.cursor.behind c'.cursor.behind
  ahead : SameLetters c.cursor.ahead c'.cursor.ahead
  afterOperand_eq : c'.afterOperand = c.afterOperand

/-- Lexemes of the same kind and length lead to the same place. -/
theorem Aligned.take (h : x.Aligned c c') {l l' : Lexeme} (hk : l'.kind = l.kind)
    (hw : l'.width = l.width) : x.Aligned (c.take l).2 (c'.take l').2 where
  source_eq := (Cursor.source_advance _ _).trans h.source_eq
  source_eq' := (Cursor.source_advance _ _).trans h.source_eq'
  behind := by
    show SameLetters ((c.cursor.ahead.take l.width).reverse ++ c.cursor.behind)
      ((c'.cursor.ahead.take l'.width).reverse ++ c'.cursor.behind)
    rw [hw]
    exact List.rel_append (List.forall₂_reverse_iff.2 (h.ahead.take l.width)) h.behind
  ahead := by
    show SameLetters (c.cursor.ahead.drop l.width) (c'.cursor.ahead.drop l'.width)
    rw [hw]
    exact h.ahead.drop l.width
  afterOperand_eq := by
    have ho := h.afterOperand_eq
    unfold Scanner.afterOperand at ho ⊢
    simp only [Scanner.take, hk]
    split
    · exact ho
    · rfl

/-- What the lexeme is written as in either text. -/
theorem Aligned.part_take (h : x.Aligned c c') (l : Lexeme) :
    (c.take l).1.span.part x.text = c.cursor.ahead.take l.width ∧
      (c.take l).1.span.part x.text' = c'.cursor.ahead.take l.width := by
  have hoffset : c.cursor.offset = c'.cursor.offset := by
    rw [c.cursor.offset_eq, c'.cursor.offset_eq, h.behind.byteSize_eq]
  rw [← h.source_eq, ← h.source_eq']
  constructor
  · exact Span.part_source rfl rfl
  · refine Span.part_source hoffset ?_
    rw [(h.ahead.take l.width).byteSize_eq, ← hoffset]
    rfl

theorem Aligned.pastBlank (h : x.Aligned c c') : x.Aligned c.pastBlank c'.pastBlank := by
  have hwidth := Lexeme.blankWidth_sameLetters h.ahead false
  rw [pastBlank_eq, pastBlank_eq, hwidth]
  have htaken := h.take (l := ⟨.blank, [], Lexeme.blankWidth false c.cursor.ahead⟩) rfl rfl
  exact htaken

end Recasing

namespace Likeness

open Recasing

/-- The text, and the same in other letters. -/
def recasing (x : Recasing) : Likeness where
  rel := x.Aligned
  near := x.Aligned
  place _ _ := True
  errors _ _ := True
  fails e := e.cause = .outOfSteps
  misses c ev := ¬x.Happens c ev
  params _ := True

variable {x : Recasing} {c c' : Scanner} {u : Token}

/-- Behind the name of a call the parenthesis is not put back. -/
theorem stuck_of_call (hs : c.source = x.text) (hk : c.scan.1.kind = .ident)
    (hu : u.kind = .leftParen) (h : TakesInTurn x.events c.scan.1 u) :
    (recasing x).Stuck c.scan.2 := by
  obtain ⟨d, hd, hdu, hfirst, hnext⟩ :=
    exists_of_takesInTurn h (by rw [hk]; decide) (by rw [hu]; decide)
  rw [eq_behind_scan (hfirst.source_eq.trans hs.symm) hd (by rw [hk]; rfl)] at hdu hnext
  refine ⟨by rw [hdu, hu], fun hreturned => ?_⟩
  have hsecond := hnext _ _ hreturned rfl (by simp)
  cases hsecond

/-- No blank is skipped before the name of a type. -/
theorem not_sought_of_type (hk : c.scan.1.kind = .ident) (hu : u.kind = .doubleColon)
    (h : TakesInTurn x.events u c.scan.1) : ¬(recasing x).Sought c := by
  rintro ⟨b, rfl, hb⟩
  have hb : x.Happens b (.given b.blankUse b.scan.1) := not_not.1 hb
  obtain ⟨d, hd, hdt, hfirst, hnext⟩ :=
    exists_of_takesInTurn h (by rw [hu]; decide) (by rw [hk]; decide)
  have hlt := offset_lt_scan (c := d) (by rw [hd, hu]; decide)
  have hoffset : b.pastBlank.offset = d.scan.2.offset := by
    have hstart := start_scan d.scan.2
    rw [hdt, start_scan] at hstart
    exact hstart
  unfold blankUse at hb
  by_cases hblank : b.scan.1.kind = .blank
  · -- The blank and the two colons would end at the same byte.
    rw [if_pos hblank] at hb
    rw [pastBlank_of_blank hblank] at hoffset
    have hlt' := offset_lt_scan (c := b) (by rw [hblank]; decide)
    rcases hfirst.order hb with ⟨rfl, -⟩ | ⟨d₁, hm, hle⟩ | ⟨b₁, hm, hle⟩
    · rw [hd, hu] at hblank
      cases hblank
    · subst hd
      rw [hm.unique (.taken d false)] at hle
      omega
    · rw [hm.unique (.taken b false)] at hle
      omega
  · rw [if_neg hblank] at hb
    rw [pastBlank_of_ne_blank hblank] at hoffset
    have hsecond := hnext _ _ hb hoffset (by simp)
    cases hsecond

/-- A bare word is the same reserved word, or the name of the same type and of the same call. -/
theorem recasing_word (h : x.Aligned c c') {n : Nat} (hword : isWord (c.cursor.ahead.take n))
    (hcase : IsCaseless x.events c.scan.1) :
    (recasing x).Heads c c' ∧ (recasing x).EndsAlike c c' := by
  obtain ⟨hl, -⟩ := Lexeme.next?_word_sameLetters h.ahead hword c.afterOperand
  obtain ⟨-, hl'⟩ := Lexeme.next?_word_sameLetters h.ahead hword c'.afterOperand
  obtain ⟨hkind, hwidth, hlit⟩ := Lexeme.word_sameLetters h.ahead
  have hscan := scan_of_lexeme hl
  have hscan' := scan_of_lexeme hl'
  have hr : x.Aligned c.scan.2 c'.scan.2 := by
    rw [hscan, hscan']
    exact h.take hkind hwidth
  by_cases hident : (Lexeme.word c.cursor.ahead).kind = .ident
  · have hleft : c.scan.1.kind = .ident := by
      rw [hscan]
      exact hident
    have hright : c'.scan.1.kind = .ident := by
      rw [hscan']
      exact hkind.trans hident
    have htype : DataType.ofName? c'.scan.1.lit.toList = DataType.ofName? c.scan.1.lit.toList := by
      rw [hscan, hscan']
      simpa [Scanner.take] using hlit.ofName?_eq
    have hcall : Unicode.lowercase c'.scan.1.lit.toList = Unicode.lowercase c.scan.1.lit.toList := by
      rw [hscan, hscan']
      simpa [Scanner.take] using Lexeme.lowercase_word h.ahead
    have huse : (recasing x).Sought c → (recasing x).Stuck c.scan.2 := by
      intro hsought
      rcases hcase with hreserved | ⟨-, u, -, ⟨hu, hturn⟩ | ⟨hu, hturn⟩⟩
      · rw [hleft] at hreserved
        cases hreserved
      · exact absurd hsought (not_sought_of_type hleft hu hturn)
      · exact stuck_of_call h.source_eq hleft hu hturn
    refine ⟨.renamed hleft hright (fun _ _ => trivial) hr htype hcall huse, .ofNe ?_⟩
    rw [hleft, hright]
    rintro _ (rfl | rfl) <;> exact ⟨by decide, by decide⟩
  · have hlit' : (Lexeme.word c'.cursor.ahead).lit = (Lexeme.word c.cursor.ahead).lit := by
      rw [Lexeme.lit_word_of_ne_ident hident,
        Lexeme.lit_word_of_ne_ident (by rw [hkind]; exact hident)]
    have hs : (recasing x).Same c.scan.1 c'.scan.1 := by
      rw [hscan, hscan']
      exact ⟨hkind, congrArg String.ofList hlit', trivial⟩
    exact ⟨.same hs hr, .ofSame hs hr⟩

/-- Whatever is read next, it is the same, or a word whose case does not matter. -/
theorem recasing_scan (h : x.Aligned c c') :
    (recasing x).Lost c ∨ (recasing x).Heads c c' ∧ (recasing x).EndsAlike c c' := by
  by_cases hread : ∃ u, x.Happens c (.given u c.scan.1)
  · obtain ⟨u, hread⟩ := hread
    refine .inr ?_
    cases hl : Lexeme.next? c.afterOperand c.cursor.ahead with
    | none =>
      have hend := Lexeme.next?_eq_none_iff.1 hl
      have hend' : c'.cursor.ahead = [] := by
        have hahead := h.ahead
        rw [hend] at hahead
        exact List.forall₂_nil_left_iff.1 hahead
      have hs : (recasing x).Same c.scan.1 c'.scan.1 := by
        rw [scan_of_end hend, scan_of_end hend']
        exact ⟨rfl, rfl, trivial⟩
      have hr : x.Aligned c.scan.2 c'.scan.2 := by
        rw [scan_of_end hend, scan_of_end hend']
        exact h
      exact ⟨.same hs hr, .ofSame hs hr⟩
    | some l =>
      obtain ⟨hpart, hpart'⟩ := h.part_take l
      rw [← scan_of_lexeme hl] at hpart hpart'
      rcases x.tokens _ hread.mem with ⟨hword, hcase⟩ | hkept
      · rw [hpart] at hword
        exact recasing_word h hword hcase
      · rw [hpart, hpart'] at hkept
        refine ofLexeme hl ?_ trivial (h.take rfl rfl)
        rw [h.afterOperand_eq]
        exact Lexeme.next?_of_take_eq h.ahead hl hkept.symm
  · exact .inl fun u hhappens => hread ⟨u, hhappens⟩

/-- A regular expression is written as before. -/
theorem recasing_regexHeads {rest rest' : List Char} (h : x.Aligned c c')
    (ha : c.cursor.ahead = '/' :: rest) (ha' : c'.cursor.ahead = '/' :: rest') :
    (recasing x).RegexHeads c c' rest rest' := by
  by_cases hread : x.Happens c (.given .regex (c.regex rest).1)
  · obtain ⟨hpart, hpart'⟩ := h.part_take (Lexeme.regex rest)
    rw [ha] at hpart
    rw [ha'] at hpart'
    have hkept : ('/' :: rest).take (Lexeme.regex rest).width =
        ('/' :: rest').take (Lexeme.regex rest).width := by
      rcases x.tokens _ hread.mem with ⟨hword, -⟩ | hkept
      · -- No bare word begins with a slash.
        change isWord ((c.take (Lexeme.regex rest)).1.span.part x.text) at hword
        rw [hpart, Lexeme.regex_width, List.take_succ_cons] at hword
        cases hword
      · exact hpart.symm.trans (hkept.symm.trans hpart')
    have hahead := h.ahead
    rw [ha, ha'] at hahead
    have hregex := Lexeme.regex_of_take_eq (List.forall₂_cons.1 hahead).2 hkept
    refine .same ?_ ?_
    · rw [Scanner.regex, Scanner.regex, hregex]
      exact ⟨rfl, rfl, trivial⟩
    · rw [Scanner.regex, Scanner.regex, hregex]
      exact h.take rfl rfl
  · exact .lost hread

theorem recasing_lawful : (recasing x).Lawful where
  errors_of_place _ _ _ := trivial
  fails_outOfSteps he := he
  near_of_rel h := h
  apart h := h.elim
  heads h := (recasing_scan h).imp_right And.left
  regexHeads h ha ha' := recasing_regexHeads h ha ha'
  pastBlank h := .inr h.pastBlank
  pastBlankCharacter h :=
    .inr (.inr (.inl (pastBlankCharacter_rel h.ahead.isBlank_head?_eq h.pastBlank h)))
  nextCharacter h := by
    refine .inr fun y hy => h.ahead.head?_iff ?_
    simp only [List.mem_cons, List.not_mem_nil, or_false] at hy
    rcases hy with rfl | rfl | rfl <;> rfl

theorem recasing_keepsEnds : (recasing x).KeepsEnds :=
  fun h _ => (recasing_scan h).imp_right And.right

end Likeness

namespace Grammar

variable [PatternCompiler]
variable (params : Params) {n : Nat}

/-- A query, and the same in other letters. -/
theorem query_recased (x : Recasing) (hsteps : stepsFor x.text ≤ n)
    (hevents : (queryTrace params n).events (TokenStream.start x.text) = x.events) (q : Query) :
    (query params n).run x.text = .ok q ↔ (query params n).run x.text' = .ok q := by
  have hstart : x.Aligned (Scanner.start x.text) (Scanner.start x.text') :=
    ⟨rfl, rfl, .nil, x.letters, rfl⟩
  refine query_run_iff Likeness.recasing_lawful (Nat.le_refl n) trivial Likeness.recasing_keepsEnds
    hstart hsteps (fun _ he => he) (fun before d ev behind hsplit hd hmisses => ?_) q
  exact hmisses ⟨before, behind, hevents.symm.trans hsplit, hd⟩

end Grammar

/-- **The case of letters does not matter in reserved words, and in the names of types and of calls:**
if one of the texts is a query, then so is the other, and it is the same. -/
theorem parseQuery_recased [PatternCompiler] {source source' : String} {params : Params}
    (h : Recased source source' params) (q : Query) :
    parseQuery source params = .ok q ↔ parseQuery source' params = .ok q := by
  obtain ⟨c, hc⟩ := (Grammar.query_ends params (Grammar.stepsFor source.toList)
    source.toList).exists_course (Nat.le_refl 4)
  have hsteps : Grammar.stepsFor source'.toList = Grammar.stepsFor source.toList :=
    congrArg (· + 1) h.letters.length_eq.symm
  have hrecased := Grammar.query_recased params
    ⟨source.toList, source'.toList, queryEvents source params, c, h.letters, hc.passes, h.tokens⟩
    (Nat.le_refl _) rfl q
  rw [parseQuery, parseQuery, hsteps]
  exact hrecased

/-- Words of each sort in other letters. The names in and out of quotes, and the regular expression, stay
as they are. -/
theorem parseQuery_recased_words :
    let source := "select Mean(v::FLOAT) from \"Cpu\" where Host =~ /A/ and a = true"
    let source' := "SELECT mEAN(v::Float) FROM \"Cpu\" WHERE Host =~ /A/ AND a = TRUE"
    Recased source source' Params.empty ∧ ∃ q, parseQuery source Params.empty = .ok q ∧
      parseQuery source' Params.empty = .ok q ∧
      q.text = "SELECT mean(v::float) FROM Cpu WHERE Host =~ /A/ AND a = true" := by
  intro source source'
  have hrecased : Recased source source' Params.empty := by
    decide +kernel
  have htext : (parseQuery source Params.empty).toOption.map Query.text =
      some "SELECT mean(v::float) FROM Cpu WHERE Host =~ /A/ AND a = true" := by
    decide +kernel
  refine ⟨hrecased, ?_⟩
  cases hq : parseQuery source Params.empty with
  | error e =>
    rw [hq] at htext
    cases htext
  | ok q =>
    rw [hq] at htext
    exact ⟨q, rfl, (parseQuery_recased hrecased q).1 hq, Option.some.inj htext⟩

end InfluxQL
