import InfluxQL.Proofs.Grammar.ExpressionReading

/-!
# Sources are read back from their texts

The segments of a name are read one by one; an empty one between two dots leaves nothing but its
dots. Main result: `Grammar.source_reads`.
-/

namespace InfluxQL

namespace Grammar

open Production Lexeme

variable {b : Bool} {text rest word : List Char}

/-! ### Segments -/

/-- No name starts with one of the characters that end a dotted name or leave a segment empty. -/
theorem head?_append_of_spells {name : String} (h : Spells word name) (rest : List Char) :
    ∃ c, (word ++ rest).head? = some c ∧ c.isDigit = false ∧ c ≠ '/' ∧ c ≠ ':' ∧ c ≠ '.' := by
  obtain ⟨c, text, he, hc⟩ := h.eq_cons
  refine ⟨c, by rw [he]; rfl, ?_⟩
  have hd : c.isDigit = false := by
    rw [Bool.eq_false_iff]
    intro hd
    rcases hc with hc | rfl
    · rw [not_isWordStart_of_isDigit hd] at hc
      cases hc
    · exact absurd hd (by decide)
  refine ⟨hd, ?_, ?_, ?_⟩ <;> rintro rfl <;> rcases hc with hc | hc <;> exact absurd hc (by decide)

theorem noWordPart_dot (text : List Char) : NoWordPart ('.' :: text) := by
  rintro c ⟨⟩
  rfl

/-- A name that stands alone. -/
theorem identToken_reads {name : String} (h : Spells word name)
    (ht : pastBlank text = word ++ rest) (hr : NoWordPart rest) :
    identToken.ReadsWith b text (fun t => t.lit = name) true rest := by
  refine .significantWord _ ht (h.next? b hr) (by decide) fun t hk hl => ?_
  rw [if_pos hk]
  exact .pure (by simpa using hl)

theorem pastBlank_append_of_spells {name : String} (h : Spells word name) (hr : NoWordPart rest) :
    pastBlank (word ++ rest) = word ++ rest :=
  pastBlank_of_nextKind (b := false) (by simp [nextKind, h.next? false hr])

section Segment

variable {names : List String} {s : Segments}

/-- A dot and a name. -/
theorem segment_reads (hs : s.names = names) {name : String} (hw : Spells word name)
    (hr : NoWordPart rest) : (segment s).ReadsWith b ('.' :: (word ++ rest))
      (fun r => ∃ s', r = .inl s' ∧ s'.names = names ++ [name]) true rest := by
  obtain ⟨c, hc, hd, hslash, hcolon, hdot⟩ := head?_append_of_spells hw rest
  refine .word ['.'] (next?_dot b _ (by simp [hc, hd])) (by decide) fun t hk _ => ?_
  rw [if_pos hk, List.append_eq]
  refine .peek? ?_
  rw [hc]
  split
  · next h => exact absurd (Option.some.inj h) hslash
  · next h => exact absurd (Option.some.inj h) hcolon
  · next h => exact absurd (Option.some.inj h) hdot
  · exact (identToken_reads hw (pastBlank_append_of_spells hw hr) hr).bind fun t' ht =>
      .pure ⟨_, rfl, by rw [hs, ht]⟩

/-- A dot before another one, with an empty name between them. -/
theorem segment_reads_empty (hs : s.names = names) :
    (segment s).ReadsWith b ('.' :: '.' :: rest)
      (fun r => ∃ s', r = .inl s' ∧ s'.names = names ++ [""]) false ('.' :: rest) := by
  refine .word ['.'] (next?_dot b _ (by simp)) (by decide) fun t hk _ => ?_
  rw [if_pos hk]
  exact .peek? (.pure ⟨_, rfl, by rw [hs]⟩)

/-- A dot before a regular expression, which ends the name. -/
theorem segment_reads_slash (hs : s.names = names) :
    (segment s).ReadsWith b ('.' :: '/' :: rest)
      (fun r => ∃ s', r = .inr s' ∧ s'.names = names) false ('/' :: rest) := by
  refine .word ['.'] (next?_dot b _ (by simp)) (by decide) fun t hk _ => ?_
  rw [if_pos hk]
  exact .peek? (.pure ⟨_, rfl, hs⟩)

/-- No dot. -/
theorem segment_reads_stop (hs : s.names = names) (hr : nextKind b rest ≠ .dot) :
    (segment s).ReadsWith b rest (fun r => ∃ s', r = .inr s' ∧ s'.names = names) b rest :=
  .lookPast hr (.pure ⟨_, rfl, hs⟩)

end Segment

/-- From `names` on, the segments up to `total` are read in at most `m` rounds. -/
def SegmentsRead (m : Nat) (b : Bool) (text : List Char) (names total : List String) (b' : Bool)
    (rest : List Char) : Prop :=
  ∀ s : Segments, s.names = names →
    (loop segment m s).ReadsWith b text (fun r => r.names = total) b' rest

section Segments

variable {m : Nat} {b' : Bool} {names total : List String} {rest' : List Char}

theorem SegmentsRead.name {name : String} (hw : Spells word name) (hr : NoWordPart rest)
    (h : SegmentsRead m true rest (names ++ [name]) total b' rest') :
    SegmentsRead (m + 1) b ('.' :: (word ++ rest)) names total b' rest' :=
  fun _ hs => .round (segment_reads hs hw hr) h

theorem SegmentsRead.empty (h : SegmentsRead m false ('.' :: rest) (names ++ [""]) total b' rest') :
    SegmentsRead (m + 1) b ('.' :: '.' :: rest) names total b' rest' :=
  fun _ hs => .round (segment_reads_empty hs) h

theorem SegmentsRead.slash :
    SegmentsRead (m + 1) b ('.' :: '/' :: rest) names names false ('/' :: rest) := by
  intro s hs
  rw [loop]
  refine (segment_reads_slash hs).bind ?_
  rintro _ ⟨s', rfl, hs'⟩
  exact .pure hs'

theorem SegmentsRead.stop (hr : nextKind b rest ≠ .dot) :
    SegmentsRead (m + 1) b rest names names b rest := by
  intro s hs
  rw [loop]
  refine (segment_reads_stop hs hr).bind ?_
  rintro _ ⟨s', rfl, hs'⟩
  exact .pure hs'

/-- A segment between two dots may be left out if it is empty. -/
theorem SegmentsRead.middle {name : String} (hw : Spells word name ∨ word = [] ∧ name = "")
    (h : ∀ b, SegmentsRead m b ('.' :: rest) (names ++ [name]) total b' rest') :
    SegmentsRead (m + 1) b ('.' :: (word ++ '.' :: rest)) names total b' rest' := by
  rcases hw with hw | ⟨rfl, rfl⟩
  · exact .name hw (noWordPart_dot _) (h true)
  · exact .empty (h false)

theorem spells_or_empty (name : String) :
    Spells (if name ≠ "" then renderName name else []) name ∨
      (if name ≠ "" then renderName name else []) = [] ∧ name = "" := by
  split
  · exact .inl (spells_renderName name)
  · next hn => exact .inr ⟨rfl, Decidable.not_not.1 hn⟩

end Segments

theorem dottedName_reads {n : Nat} {first : String} {total : List String} {b' : Bool}
    {rest' : List Char} (hfirst : Spells word first) (hw : NoWordPart rest)
    (h : SegmentsRead n true rest [first] total b' rest') (hl : total.length ≤ maxSegments) :
    (dottedName n).Reads false (word ++ rest) total b' rest' := by
  refine (identToken_reads hfirst (pastBlank_append_of_spells hfirst hw) hw).bind fun t ht => ?_
  refine (h ⟨[t.lit], t.span.stop⟩ (by rw [ht])).bind fun s hs => ?_
  rw [hs, if_pos hl]
  exact .pure rfl

/-! ### Sources -/

/-- What stands behind a source: no slash, also behind a blank. -/
structure EndsSource (rest : List Char) : Prop where
  delimited : Delimited rest
  noSlash : (pastBlankCharacter rest).head? ≠ some '/'

theorem pastBlank_pastBlankCharacter (text : List Char) :
    pastBlank (pastBlankCharacter text) = pastBlank text := by
  unfold pastBlankCharacter
  split
  · exact pastBlank_pastBlank text
  · rfl

/-- A source that starts with a name: what comes behind the dotted name decides what it is. -/
theorem source_reads_of_segments [PatternCompiler] {n : Nat} {first : String}
    {total : List String} {b' b'' : Bool}
    {rest' rest'' : List Char} {x : Source} (hfirst : Spells word first) (hw : NoWordPart rest)
    (h : SegmentsRead n true rest [first] total b' rest') (hl : total.length ≤ maxSegments)
    (hx : (if total.length = maxSegments then pure (.measurement (measurementOf total none))
      else do
        let p ← regex?
        pure (.measurement (measurementOf total p)) : Production Source).Reads b' rest' x b''
      rest'') :
    (source n).Reads false (' ' :: (word ++ rest)) x b'' rest'' := by
  have hk : (nextKind false (word ++ rest)).startsOperand := by
    rw [nextKind_of_lexeme (hfirst.next? false hw)]
    rfl
  refine (regex?_reads_none (pastBlankCharacter_of_startsOperand hk).2
    (head?_of_startsOperand hk).2).bind ?_
  exact (dottedName_reads hfirst hw h hl).bind hx

/-- Sources are read back behind a blank. -/
theorem source_reads [PatternCompiler] {n : Nat} (hn : 3 ≤ n) {x : Source} (hx : x.Canonical)
    (hr : EndsSource rest) : ∃ rest', pastBlank rest' = pastBlank rest ∧
      (source n).Reads false (' ' :: (x.render ++ rest)) x true rest' := by
  obtain ⟨m⟩ := x
  obtain ⟨n, rfl⟩ := Nat.exists_eq_add_of_le' hn
  have hdot : nextKind true rest ≠ .dot := hr.delimited.nextKind_ne true (by decide)
  have hnone : regex?.Reads true rest none true (pastBlankCharacter rest) :=
    regex?_reads_none rfl hr.noSlash
  have hsome : ∀ {p : String}, ReadablePattern p →
      regex?.Reads false (quoteRegex p.toList ++ rest) (some p) true rest :=
    fun hp => regex?_reads hp (pastBlankCharacter_quoteRegex ..).1
  cases hx with
  | named name =>
    have ht : (Source.measurement ⟨none, none, some name, none⟩).render ++ rest =
        renderName name ++ rest := by
      simp [Source.render, Measurement.render]
    rw [ht]
    refine ⟨_, pastBlank_pastBlankCharacter rest, ?_⟩
    exact source_reads_of_segments (spells_renderName name) hr.delimited.noWordPart (.stop hdot)
      (by simp [maxSegments]) (hnone.bind (.pure rfl))
  | qualified policy name =>
    have ht : (Source.measurement ⟨none, some policy, some name, none⟩).render ++ rest =
        renderName policy ++ '.' :: (renderName name ++ rest) := by
      simp [Source.render, Measurement.render]
    rw [ht]
    refine ⟨_, pastBlank_pastBlankCharacter rest, ?_⟩
    exact source_reads_of_segments (spells_renderName policy) (noWordPart_dot _)
      (.name (spells_renderName name) hr.delimited.noWordPart (.stop hdot)) (by simp [maxSegments])
      (hnone.bind (.pure rfl))
  | complete database policy name =>
    have ht : (Source.measurement ⟨some database, some policy, some name, none⟩).render ++ rest =
        renderName database ++ '.' :: ((if policy ≠ "" then renderName policy else []) ++
          '.' :: (renderName name ++ rest)) := by
      simp [Source.render, Measurement.render]
    rw [ht]
    refine ⟨rest, rfl, ?_⟩
    exact source_reads_of_segments (spells_renderName database) (noWordPart_dot _)
      (.middle (spells_or_empty policy) fun b =>
        .name (spells_renderName name) hr.delimited.noWordPart (.stop hdot))
      (by simp [maxSegments]) (.pure _)
  | matching hp =>
    exact ⟨rest, rfl, (regex?_reads hp (pastBlankCharacter_quoteRegex ..).2).bind (.pure rfl)⟩
  | @matchingIn policy p hp =>
    have ht : (Source.measurement ⟨none, some policy, none, some p⟩).render ++ rest =
        renderName policy ++ '.' :: (quoteRegex p.toList ++ rest) := by
      simp [Source.render, Measurement.render]
    rw [ht]
    exact ⟨rest, rfl, source_reads_of_segments (spells_renderName policy) (noWordPart_dot _) .slash
      (by simp [maxSegments]) ((hsome hp).bind (.pure rfl))⟩
  | @matchingInBoth database policy p hp =>
    have ht : (Source.measurement ⟨some database, some policy, none, some p⟩).render ++ rest =
        renderName database ++ '.' :: ((if policy ≠ "" then renderName policy else []) ++
          '.' :: (quoteRegex p.toList ++ rest)) := by
      simp [Source.render, Measurement.render]
    rw [ht]
    exact ⟨rest, rfl, source_reads_of_segments (spells_renderName database) (noWordPart_dot _)
      (.middle (spells_or_empty policy) fun b => .slash) (by simp [maxSegments])
      ((hsome hp).bind (.pure rfl))⟩

end Grammar

end InfluxQL
