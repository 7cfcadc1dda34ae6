import InfluxQL.Proofs.Token.Lookahead

/-!
# Where parameters stand

A token for a parameter shows where in the source the parameter stands, and under which name.

* `ParameterAt`: a parameter stands at a byte of a text;
* `TokenStream.Within`: the stream reads a given source, and the tokens that it holds show where
  their parameters stand. Every step of a stream keeps this.
-/

namespace InfluxQL

/-- A dollar sign stands at the byte `offset` of the text, and the word behind it is `name`. -/
def ParameterAt (source : List Char) (name : String) (offset : Nat) : Prop :=
  ∃ u v, source = u ++ '$' :: v ∧ byteSize u = offset ∧
    name = String.ofList (v.takeWhile isWordPart)

namespace Token

/-- The name of the parameter that the token stands for. -/
def parameterName (t : Token) : String :=
  String.ofList (t.lit.toList.drop 1)

/-- If the token stands for a parameter, that parameter is in the source. -/
def IsWithin (source : List Char) (t : Token) : Prop :=
  t.kind = .param → ParameterAt source t.parameterName t.span.start

end Token

theorem Lexeme.regex_kind_ne_param (rest : List Char) : (regex rest).kind ≠ .param := by
  unfold regex
  split <;> simp

/-- The lexeme of a parameter is a dollar sign and the word behind it. -/
theorem Lexeme.eq_of_param {b : Bool} {text : List Char} {l : Lexeme} (h : next? b text = some l)
    (hk : l.kind = .param) :
    ∃ rest, text = '$' :: rest ∧ l.lit = '$' :: rest.takeWhile isWordPart := by
  have hb : blankWidth false text = 0 := Decidable.byContradiction fun hw => by
    rw [(kind_eq_blank_iff h).2 hw] at hk
    cases hk
  rcases next?_cases h hb with ho | ⟨rest, rfl, rfl⟩
  · rw [hk] at ho
    cases ho
  · refine ⟨rest, rfl, ?_⟩
    rw [verbatim, List.take_succ_cons, ← List.prefix_iff_eq_take.1 (List.takeWhile_prefix _)]

namespace Scanner

variable (c : Scanner)

theorem isWithin_scan : c.scan.1.IsWithin c.cursor.source := by
  cases hl : Lexeme.next? c.afterOperand c.cursor.ahead with
  | none =>
    rw [scan_of_end (Lexeme.next?_eq_none_iff.1 hl)]
    rintro ⟨⟩
  | some l =>
    rw [scan_of_lexeme hl]
    intro hk
    obtain ⟨rest, ha, hlit⟩ := Lexeme.eq_of_param hl hk
    refine ⟨c.cursor.behind.reverse, rest, ?_, ?_, ?_⟩
    · rw [Cursor.source, ha]
    · exact c.cursor.byteSize_reverse_behind
    · simp [Token.parameterName, take, hlit]

theorem source_scanRegex : c.scanRegex.2.cursor.source = c.cursor.source := by
  rw [scanRegex_eq]
  split
  · simp [take]
  · exact c.source_scan

theorem isWithin_scanRegex : c.scanRegex.1.IsWithin c.cursor.source := by
  rw [scanRegex_eq]
  split
  · next rest _ => exact fun hk => absurd hk (Lexeme.regex_kind_ne_param rest)
  · exact c.isWithin_scan

end Scanner

namespace TokenStream

/-- The stream reads the given source, and the tokens that it holds show where their parameters
stand. -/
structure Within (source : List Char) (s : TokenStream) : Prop where
  source_eq : s.scanner.cursor.source = source
  pending : ∀ t ∈ s.pending, t.IsWithin source
  prev : ∀ t ∈ s.prev, t.IsWithin source

theorem within_start (source : List Char) : Within source (start source) where
  source_eq := rfl
  pending := by simp [start]
  prev := by simp [start]

variable {source : List Char} {s : TokenStream}

/-- The stream behind a token that it has just read. -/
theorem within_of_read {c : Scanner} {t : Token} (hc : c.cursor.source = source)
    (ht : t.IsWithin source) : Within source ⟨c, none, some t⟩ where
  source_eq := hc
  pending := by simp
  prev := by simpa using ht

theorem Within.scan (h : Within source s) : s.scan.1.IsWithin source ∧ Within source s.scan.2 := by
  obtain ⟨rfl, hp, -⟩ := h
  unfold TokenStream.scan
  split
  · next t ht => exact ⟨hp t ht, within_of_read rfl (hp t ht)⟩
  · exact ⟨s.scanner.isWithin_scan, within_of_read s.scanner.source_scan s.scanner.isWithin_scan⟩

theorem Within.unscan (h : Within source s) : Within source s.unscan := by
  unfold TokenStream.unscan
  split
  · next t ht => exact ⟨h.source_eq, by simpa using h.prev t ht, by simp⟩
  · exact h

theorem Within.scanSignificant (h : Within source s) :
    s.scanSignificant.1.IsWithin source ∧ Within source s.scanSignificant.2 := by
  unfold TokenStream.scanSignificant
  dsimp only
  split
  · exact h.scan.2.scan
  · exact h.scan

theorem Within.skipBlank (h : Within source s) : Within source s.skipBlank := by
  unfold TokenStream.skipBlank
  dsimp only
  split
  · exact h.scan.2
  · exact h.scan.2.unscan

theorem Within.scanRegex (h : Within source s) : Within source s.scanRegex.2 := by
  obtain ⟨rfl, -, -⟩ := h
  unfold TokenStream.scanRegex
  split
  · next t _ =>
    have hs : (s.scanner.rewind t.span.start).cursor.source = s.scanner.cursor.source :=
      Cursor.source_seek _ _
    have ht := (s.scanner.rewind t.span.start).isWithin_scanRegex
    rw [hs] at ht
    exact within_of_read (((s.scanner.rewind _).source_scanRegex).trans hs) ht
  · exact within_of_read s.scanner.source_scanRegex s.scanner.isWithin_scanRegex

end TokenStream

end InfluxQL
