import InfluxQL.Proofs.Grammar.ErrorPlaces
import InfluxQL.Proofs.Grammar.SideBySide

/-!
# What an unexpected token is decided by

A token that is given as unexpected is decided by the text up to its end: behind that any other text
can stand, on a new line, and the error is the same.

Both runs read the same text up to that end. If the first one goes on behind it, then the token that it
calls unexpected lies behind it as well, for that is the last one that it is given.

* `Scanner.Beyond`, `Scanner.Oversteps`: the next significant token ends behind a byte; an event
  shows that one does;
* `Likeness.truncation`: a text, and the same text with another end;
* `Grammar.query_truncated`: the statement for queries, for lists of characters;
* `parseQuery_unexpected`: the statement for queries.
-/

namespace InfluxQL

open Production Scanner TokenStream

/-- The token that starts at a byte of the text. -/
def tokenAt (source : List Char) (byte : Nat) : Token :=
  ((Scanner.start source).rewind byte).scan.1

namespace Scanner

variable {stop : Nat} {c d c' : Scanner} {ev : Event} {evs : List Event}

/-! ### Behind a byte -/

/-- The next token that is no blank ends behind the byte. -/
def Beyond (stop : Nat) (c : Scanner) : Prop :=
  stop < c.pastBlank.scan.1.span.stop

/-- The event shows that the text up to the byte is left. -/
def Oversteps (stop : Nat) (c : Scanner) (ev : Event) : Prop :=
  Beyond stop c ∨ ∃ u t, ev = .given u t ∧ stop < t.span.stop

theorem beyond_pastBlank : Beyond stop c.pastBlank ↔ Beyond stop c := by
  rw [Beyond, pastBlank_pastBlank, Beyond]

theorem beyond_iff_of_ne_blank (h : c.scan.1.kind ≠ .blank) :
    Beyond stop c ↔ stop < c.scan.1.span.stop := by
  rw [Beyond, pastBlank_of_ne_blank h]

/-- Before the end of the text each token ends behind where the scanner is. -/
theorem lt_stop_scan (hs : stop < byteSize c.source) (h : stop ≤ c.offset) :
    stop < c.scan.1.span.stop := by
  have hcovers := covers_scan (s := c) rfl
  by_cases hk : c.scan.1.kind = .eof
  · have hend := hcovers.eof_iff.1 hk
    have := offset_le_scan (c := c)
    rw [stop_scan]
    omega
  · have hlt := hcovers.nonempty hk
    rw [hcovers.start_eq] at hlt
    omega

theorem beyond_of_le (hs : stop < byteSize c.source) (h : stop ≤ c.offset) : Beyond stop c := by
  refine lt_stop_scan ?_ (Nat.le_trans h moves_pastBlank.offset_le)
  rwa [source, moves_pastBlank.source_eq]

/-- If the next significant token ends behind the byte, then so does one that is read instead of it. -/
theorem Beyond.moves (hs : stop < byteSize c.source) (h : Beyond stop c) (hm : c.Moves ev d) :
    Beyond stop d ∧ ∀ u t, ev = .given u t → t.kind ≠ .blank → stop < t.span.stop := by
  have hsource : stop < byteSize d.source := by
    rwa [source, hm.source_eq]
  cases hm with
  | starts | peeked =>
    refine ⟨h, ?_⟩
    rintro _ _ ⟨⟩
  | returned =>
    refine ⟨h, ?_⟩
    rintro _ _ ⟨⟩ hk
    exact (beyond_iff_of_ne_blank hk).1 h
  | taken =>
    by_cases hk : c.scan.1.kind = .blank
    · refine ⟨?_, ?_⟩
      · rwa [← pastBlank_of_blank hk, beyond_pastBlank]
      · rintro _ _ ⟨⟩ hk'
        exact absurd hk hk'
    · have hlt := (beyond_iff_of_ne_blank hk).1 h
      refine ⟨beyond_of_le hsource (stop_scan ▸ Nat.le_of_lt hlt), ?_⟩
      rintro _ _ ⟨⟩ -
      exact hlt
  | regex ha =>
    obtain ⟨hk, hle⟩ := scan_slash ha
    have hlt := (beyond_iff_of_ne_blank hk).1 h
    rw [stop_scan] at hlt
    refine ⟨beyond_of_le hsource (by omega), ?_⟩
    rintro _ _ ⟨⟩ -
    exact Nat.lt_of_lt_of_le hlt hle

/-- Behind a token that ends behind the byte. If it is put back, it comes next again. -/
theorem beyond_of_given {u : Use} {t : Token} (hs : stop < byteSize c.source)
    (hm : c.Moves (.given u t) d) (hlt : stop < t.span.stop) : Beyond stop d := by
  have hsource : stop < byteSize d.source := by
    rwa [source, hm.source_eq]
  cases hm with
  | taken => exact beyond_of_le hsource (stop_scan ▸ Nat.le_of_lt hlt)
  | regex => exact beyond_of_le hsource (Nat.le_of_lt hlt)
  | returned =>
    by_cases hk : c.scan.1.kind = .blank
    · rw [← beyond_pastBlank, pastBlank_of_blank hk]
      refine beyond_of_le ?_ (stop_scan ▸ Nat.le_of_lt hlt)
      rwa [source, source_scan]
    · exact (beyond_iff_of_ne_blank hk).2 hlt

/-- Behind an event that shows it the text up to the byte has been left. -/
theorem Oversteps.moves (hs : stop < byteSize c.source) (h : Oversteps stop c ev)
    (hm : c.Moves ev d) :
    Beyond stop d ∧ ∀ u t, ev = .given u t → t.kind ≠ .blank → stop < t.span.stop := by
  rcases h with hb | ⟨u, t, rfl, hlt⟩
  · exact hb.moves hs hm
  · refine ⟨beyond_of_given hs hm hlt, ?_⟩
    rintro _ _ ⟨⟩ -
    exact hlt

/-- From then on every token but a blank ends behind the byte. -/
theorem Oversteps.passes (hs : stop < byteSize c.source) (h : Oversteps stop c ev)
    (hp : c.Passes (ev :: evs) c') {u : Use} {t : Token} (ht : .given u t ∈ ev :: evs)
    (hk : t.kind ≠ .blank) : stop < t.span.stop := by
  induction evs generalizing c ev with
  | nil =>
    obtain ⟨d, hm, -⟩ := hp.cons_inv
    exact (h.moves hs hm).2 u t (List.mem_singleton.1 ht).symm hk
  | cons ev' evs ih =>
    obtain ⟨d, hm, hp⟩ := hp.cons_inv
    obtain ⟨hb, hgiven⟩ := h.moves hs hm
    rcases List.mem_cons.1 ht with ht | ht
    · exact hgiven u t ht.symm hk
    · refine ih ?_ (.inl hb) hp ht
      rwa [source, hm.source_eq]

/-- Whether a blank is given is for the text to say. -/
theorem kind_eq_blank_of_moves {u : Use} {t : Token} (hm : c.Moves (.given u t) d)
    (ht : t.kind = .blank) : (tokenAt c.source t.span.start).kind = .blank := by
  have hwidth : Lexeme.blankWidth false c.cursor.ahead ≠ 0 := by
    have hscan : c.scan.1.kind = .blank → Lexeme.blankWidth false c.cursor.ahead ≠ 0 := by
      intro hk
      cases hl : Lexeme.next? c.afterOperand c.cursor.ahead with
      | none =>
        rw [scan_of_end (Lexeme.next?_eq_none_iff.1 hl)] at hk
        cases hk
      | some l =>
        rw [scan_of_lexeme hl] at hk
        exact (Lexeme.kind_eq_blank_iff hl).1 hk
    cases hm with
    | taken | returned => exact hscan ht
    | regex => exact absurd ht (Lexeme.regex_kind_ne_blank _)
  have hcursor : ((start c.source).rewind t.span.start).cursor = c.cursor := by
    rw [hm.start_eq]
    exact Cursor.seek_offset (Cursor.source_start _)
  rw [tokenAt, scan_of_lexeme (Lexeme.next?_of_blank _ (by rwa [hcursor]))]
  rfl

/-! ### Another end -/

variable {text tail other : List Char}

/-- Before the end of the common text both scanners are before the same characters. -/
theorem SameFront.exists_front (h : SameFront text tail other c c') (hne : tail ≠ [])
    (hb : ¬Beyond (byteSize text) c) : ∃ rest, rest ≠ [] ∧ c.offset + byteSize rest = byteSize text ∧
      c.cursor.ahead = rest ++ tail ∧ c'.cursor.ahead = rest ++ other := by
  obtain ⟨rest, -, hoffset, ha, ha'⟩ := h.exists_rest
  have hsize : byteSize text < byteSize c.source := by
    rw [h.source_eq, byteSize_append]
    exact Nat.lt_add_of_pos_right (byteSize_pos hne)
  refine ⟨rest, ?_, hoffset, ha, ha'⟩
  rintro rfl
  exact hb (beyond_of_le hsize (Nat.le_of_eq hoffset.symm))

/-- Before the end of the common text the next lexeme on the left ends in it, and before its end if it
is a blank. -/
theorem SameFront.exists_lexeme (h : SameFront text tail other c c') (hne : tail ≠ [])
    (hb : ¬Beyond (byteSize text) c) : ∃ rest l, c.cursor.ahead = rest ++ tail ∧
      c'.cursor.ahead = rest ++ other ∧ Lexeme.next? c.afterOperand (rest ++ tail) = some l ∧
      l.width ≤ rest.length ∧ (l.kind = .blank → l.width < rest.length) := by
  obtain ⟨rest, -, hoffset, ha, ha'⟩ := h.exists_front hne hb
  have hsize : byteSize text < byteSize c.source := by
    rw [h.source_eq, byteSize_append]
    exact Nat.lt_add_of_pos_right (byteSize_pos hne)
  have hsome : Lexeme.next? c.afterOperand (rest ++ tail) ≠ none :=
    mt Lexeme.next?_eq_none_iff.1 (by simp [hne])
  obtain ⟨l, hl⟩ := Option.ne_none_iff_exists'.1 hsome
  have hscan : c.scan = c.take l := scan_of_lexeme (by rw [ha, hl])
  have hkind : c.scan.1.kind = l.kind := by
    rw [hscan]
    rfl
  have hle : c.scan.2.offset ≤ byteSize text → l.width ≤ rest.length := by
    intro hle
    rw [hscan] at hle
    exact width_le_of_offset_le ha (Lexeme.width_le hl) (by omega)
  by_cases hk : l.kind = .blank
  · -- Behind a blank that ended with the common text the next token would end behind it.
    have hlt : c.scan.2.offset < byteSize text := by
      refine Decidable.byContradiction fun hge => hb (beyond_pastBlank.1 ?_)
      rw [pastBlank_of_blank (hkind.trans hk)]
      exact beyond_of_le (by rwa [source, source_scan]) (Nat.le_of_not_lt hge)
    have hne' : l.width ≠ rest.length := by
      intro heq
      have hstop : c.scan.2.offset = c.offset + byteSize (c.cursor.ahead.take l.width) := by
        rw [hscan]
        rfl
      rw [ha, heq, List.take_left] at hstop
      omega
    have hw := hle (Nat.le_of_lt hlt)
    exact ⟨rest, l, ha, ha', hl, hw, fun _ => by omega⟩
  · have hstop := mt (beyond_iff_of_ne_blank (hkind ▸ hk)).2 hb
    rw [stop_scan] at hstop
    exact ⟨rest, l, ha, ha', hl, hle (Nat.le_of_not_lt hstop), fun hblank => absurd hblank hk⟩

variable (hr : Lexeme.Replaces other tail)
include hr

/-- Before the end of the common text the next tokens are the same. -/
theorem SameFront.scan (h : SameFront text tail other c c') (hb : ¬Beyond (byteSize text) c) :
    c'.scan.1 = c.scan.1 ∧ SameFront text tail other c.scan.2 c'.scan.2 := by
  obtain ⟨rest, l, ha, ha', hl, hw, hblank⟩ := h.exists_lexeme hr.ne_nil hb
  have hl' := Lexeme.next?_replace hr hl hw hblank
  rw [← h.afterOperand_eq, ← ha'] at hl'
  rw [← ha] at hl
  rw [scan_of_lexeme hl, scan_of_lexeme hl']
  exact h.take ha ha' hw

theorem SameFront.pastBlank (h : SameFront text tail other c c')
    (hb : ¬Beyond (byteSize text) c) : SameFront text tail other c.pastBlank c'.pastBlank := by
  obtain ⟨ht, hscan⟩ := h.scan hr hb
  unfold Scanner.pastBlank
  rw [ht]
  split
  · exact hscan
  · exact h

theorem SameFront.head?_eq (h : SameFront text tail other c c') (hb : ¬Beyond (byteSize text) c) :
    c'.cursor.ahead.head? = c.cursor.ahead.head? := by
  obtain ⟨rest, hne, -, ha, ha'⟩ := h.exists_front hr.ne_nil hb
  rw [ha, ha', List.head?_append_of_ne_nil _ hne, List.head?_append_of_ne_nil _ hne]

end Scanner

namespace Likeness

/-- A text with one end and with another. A run that leaves the common text has gone astray. -/
def truncation (text tail other : List Char) : Likeness where
  rel := SameFront text tail other
  near := SameFront text tail other
  place t t' := t'.pos = t.pos ∧ t'.span = t.span
  errors e e' := e' = e
  fails e := e.cause = .outOfSteps
  misses := Oversteps (byteSize text)
  params _ := True

variable {text tail other : List Char} {c c' : Scanner}

theorem truncation_same {t t' : Token} (h : t' = t) : (truncation text tail other).Same t t' := by
  subst h
  exact ⟨rfl, rfl, rfl, rfl⟩

variable (hr : Lexeme.Replaces other tail)
include hr

theorem truncation_heads (h : SameFront text tail other c c') :
    (truncation text tail other).Lost c ∨ (truncation text tail other).Heads c c' := by
  by_cases hb : Beyond (byteSize text) c
  · exact .inl fun _ => .inl hb
  · obtain ⟨ht, hscan⟩ := h.scan hr hb
    exact .inr (.same (truncation_same ht) hscan)

/-- A regular expression that ends in the common text is read on both sides. -/
theorem truncation_regexHeads {rest rest' : List Char} (h : SameFront text tail other c c')
    (ha : c.cursor.ahead = '/' :: rest) (ha' : c'.cursor.ahead = '/' :: rest') :
    (truncation text tail other).RegexHeads c c' rest rest' := by
  by_cases hb : Beyond (byteSize text) c
  · exact .lost (.inl hb)
  by_cases hlt : byteSize text < (c.regex rest).2.offset
  · exact .lost (.inr ⟨_, _, rfl, hlt⟩)
  obtain ⟨front, hne, hoffset, -, -⟩ := h.exists_front hr.ne_nil hb
  have hpos := byteSize_pos hne
  obtain ⟨ht, hrel⟩ := h.regex hr.ne_nil ha ha' (by omega) (Nat.le_of_not_lt hlt)
  exact .same (truncation_same ht) hrel

theorem truncation_lawful : (truncation text tail other).Lawful where
  errors_of_place cause := by
    rintro ⟨hpos, hspan⟩ ⟨-, hspan'⟩
    simp [truncation, hpos, hspan, hspan']
  fails_outOfSteps he := he
  near_of_rel h := h
  apart h := h.elim
  heads h := truncation_heads hr h
  regexHeads h ha ha' := truncation_regexHeads hr h ha ha'
  pastBlank {c _} h := by
    by_cases hb : Beyond (byteSize text) c
    · exact .inl fun _ => .inl hb
    · exact .inr (h.pastBlank hr hb)
  pastBlankCharacter {c c'} h := by
    by_cases hb : Beyond (byteSize text) c
    · exact .inl (.inl hb)
    · have hblank := congrArg (Option.any isBlank) (h.head?_eq hr hb)
      exact .inr (.inr (.inl (pastBlankCharacter_rel hblank (h.pastBlank hr hb) h)))
  nextCharacter {c _} h := by
    by_cases hb : Beyond (byteSize text) c
    · exact .inl (.inl hb)
    · exact .inr fun _ _ => by rw [h.head?_eq hr hb]

theorem truncation_keepsEnds : (truncation text tail other).KeepsEnds := by
  intro c c' h _
  by_cases hb : Beyond (byteSize text) c
  · exact .inl fun _ => .inl hb
  · obtain ⟨ht, hscan⟩ := h.scan hr hb
    exact .inr (.ofSame (truncation_same ht) hscan)

end Likeness

/-- A run that ends with an unexpected token does not leave the text up to the end of that token. -/
theorem ParseError.Blames.not_oversteps {source : List Char} {e : ParseError} {c c₁ d : Scanner}
    {evs before behind : List Event} {ev : Event} {found : String} {expected : List String}
    (he : e.Blames evs) (hcause : e.cause = .unexpected found expected) (hs : c.source = source)
    (hstop : e.span.stop < byteSize source) (hblank : (tokenAt source e.span.start).kind ≠ .blank)
    (hp : c.Passes evs d) (hevs : evs = before ++ ev :: behind) (hc₁ : c.Passes before c₁) :
    ¬Oversteps e.span.stop c₁ ev := by
  intro hover
  cases he with
  | unexpected last error =>
    -- The unexpected token is the last one that was given, so it is given then or later.
    subst error
    have hmem := mem_of_last (last.symm.trans hevs)
    rw [hevs] at hp
    obtain ⟨c₁', hc₁', hrest⟩ := hp.append_inv
    obtain rfl := hc₁.unique hc₁'
    obtain ⟨d', d'', _, _, -, hd', hm, -⟩ := hrest.exists_of_mem hmem
    have hsource : c₁.source = source := hc₁.source_eq.trans hs
    have hsource' : d'.source = source := hd'.source_eq.trans hsource
    have hkind := mt (kind_eq_blank_of_moves hm) (by rwa [hsource'])
    exact Nat.lt_irrefl _ (hover.passes (by rwa [hsource]) hrest hmem hkind)
  | spans hne => exact hne _ _ hcause
  | outOfSteps h =>
    rw [hcause] at h
    cases h

namespace Grammar

variable [PatternCompiler]

/-- An error about an unexpected token stays the same when another text stands behind that token. -/
theorem query_truncated {text tail other : List Char} (hr : Lexeme.Replaces other tail)
    {params : Params} {n n' : Nat} (hn : n ≤ n') {e : ParseError} {found : String}
    {expected : List String} (h : (query params n).run (text ++ tail) = .error e)
    (hcause : e.cause = .unexpected found expected) (hstop : e.span.stop = byteSize text)
    (hblank : (tokenAt (text ++ tail) e.span.start).kind ≠ .blank) :
    (query params n').run (text ++ other) = .error e := by
  have hstart := SameFront.start text tail other
  have hlt : e.span.stop < byteSize (text ++ tail) := by
    rw [hstop, byteSize_append]
    exact Nat.lt_add_of_pos_right (byteSize_pos hr.ne_nil)
  have hsource : (Scanner.start (text ++ tail)).source = text ++ tail := rfl
  have halike : (Likeness.truncation text tail other).Alike _ (queryTrace params n) (query params n') :=
    query_alike (Likeness.truncation_lawful hr) hn trivial (Likeness.truncation_keepsEnds hr)
      (⟨rfl, rfl⟩ : ReadBehind [] ⟨[], true⟩ ⟨[], true⟩) hn
  have hmeets := halike _ _ _ _ hstart (.clear none) (.clear none)
  have hends := query_ends params n (text ++ tail)
  have hrun : query params n (TokenStream.start (text ++ tail)) = .error e := run_eq_error.1 h
  rw [hrun] at hends
  obtain ⟨hblames, d, hd⟩ := hends
  change Likeness.Meets _ _ _ _ (query params n (TokenStream.start (text ++ tail)))
    (query params n' (TokenStream.start (text ++ other))) at hmeets
  rw [hrun] at hmeets
  refine run_eq_error.2 ?_
  generalize query params n' (TokenStream.start (text ++ other)) = o at hmeets
  cases hmeets with
  | error he => exact congrArg _ he
  | astray h =>
    rcases h with ⟨e', he, hfails⟩ | ⟨before, c₁, ev, behind, hevs, hc₁, hover⟩
    · cases he
      exact absurd (hcause.symm.trans hfails) nofun
    · have hover : Oversteps e.span.stop c₁ ev := hstop ▸ hover
      exact absurd hover (hblames.not_oversteps hcause hsource hlt hblank hd.passes hevs hc₁)

end Grammar

/-- An unexpected token before the end of the text is decided by the text up to its end, unless it is a
blank: any other text can stand behind it, on a new line, and the error is the same. -/
theorem parseQuery_unexpected [PatternCompiler] {source : String} {params : Params} {e : ParseError}
    {found : String}
    {expected : List String} (h : parseQuery source params = .error e)
    (hcause : e.cause = .unexpected found expected) (hstop : e.span.stop < source.utf8ByteSize)
    (hblank : (tokenAt source.toList e.span.start).kind ≠ .blank) :
    ∃ front tail : String, source = front ++ tail ∧ front.utf8ByteSize = e.span.stop ∧
      ∀ rest, parseQuery (front ++ "\n" ++ rest) params = .error e := by
  obtain ⟨front, tail, hsource, hbytes⟩ := (pointsInto_of_parse (.inl h)).1.stop_boundary
  have hne : tail ≠ [] := by
    rintro rfl
    rw [utf8ByteSize_eq_byteSize, hsource, List.append_nil] at hstop
    omega
  refine ⟨String.ofList front, String.ofList tail, ?_, ?_, fun rest => ?_⟩
  · rw [← String.ofList_append, ← hsource, String.ofList_toList]
  · rw [utf8ByteSize_eq_byteSize, String.toList_ofList, hbytes]
  · have hlist : (String.ofList front ++ "\n" ++ rest).toList = front ++ '\n' :: rest.toList := by
      simp
    have hreplaces : Lexeme.Replaces ('\n' :: rest.toList) tail :=
      ⟨⟨_, _, rfl, rfl⟩, fun _ => rfl, hne⟩
    show (Grammar.query params _).run _ = _
    rw [hlist, ← Grammar.query_run_of_le params (Nat.le_max_right (Grammar.stepsFor source.toList) _)]
    refine Grammar.query_truncated hreplaces (Nat.le_max_left (Grammar.stepsFor source.toList) _) ?_
      hcause hbytes.symm ?_
    · rw [← hsource]
      exact h
    · rwa [← hsource]

/-- A name where a source should end, behind a character of two bytes and before a string that is not
closed. -/
theorem parseQuery_unexpected_name :
    let source := "SELECT \"é\" FROM m n 'open"
    let e : ParseError := ⟨.unexpected "n" [";"], ⟨0, 18⟩, ⟨19, 20⟩⟩
    parseQuery source .empty = .error e ∧
      ∃ front tail : String, source = front ++ tail ∧ front.utf8ByteSize = e.span.stop ∧
        ∀ rest, parseQuery (front ++ "\n" ++ rest) .empty = .error e := by
  intro source e
  have h : parseQuery source .empty = .error e := by
    cbv
  have hstop : e.span.stop < source.utf8ByteSize := by
    decide +kernel
  have hkind : (tokenAt source.toList e.span.start).kind ≠ .blank := by
    decide +kernel
  exact ⟨h, parseQuery_unexpected h rfl hstop hkind⟩

end InfluxQL
