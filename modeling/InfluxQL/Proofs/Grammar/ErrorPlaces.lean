import InfluxQL.Proofs.Grammar.Concatenation
import InfluxQL.Proofs.Grammar.Course

/-!
# Errors point into the text

The place of an error is that of a token that was read, or reaches from one token to a later one. So
it lies in the text, and starts and ends where characters do.

* `ParseError.PointsInto`: the error is about a part of the text;
* `ParseError.Blames.pointsInto`: an error about tokens that were given is about a part of the text;
* `pointsInto_of_parse`: the statement for queries, statements and expressions.
-/

namespace InfluxQL

open Production Scanner TokenStream

/-- The error is about a part of the text: the bytes of its span, which starts in the line and at
the character that the error tells. -/
structure ParseError.PointsInto (e : ParseError) (source : String) : Prop where
  start_le_stop : e.span.start ≤ e.span.stop
  stop_le : e.span.stop ≤ source.utf8ByteSize
  start_boundary : IsBoundary source.toList e.span.start
  stop_boundary : IsBoundary source.toList e.span.stop
  pos_eq : ∀ before after : String, source = before ++ after → before.utf8ByteSize = e.span.start →
    e.pos = ⟨before.toList.count '\n', (before.toList.reverse.takeWhile (· != '\n')).length⟩

theorem IsBoundary.le {text : List Char} {byte : Nat} (h : IsBoundary text byte) :
    byte ≤ byteSize text := by
  obtain ⟨before, after, rfl, rfl⟩ := h
  rw [byteSize_append]
  exact Nat.le_add_right _ _

/-- From where a token starts to where one ends that is given at the same time or later. -/
theorem pointsInto_of_covers {source : String} {e : ParseError} {c c' d d' : Scanner} {t t' : Token}
    (ht : Covers source.toList c t c') (ht' : Covers source.toList d t' d')
    (hcd : c.offset ≤ d'.offset) (hpos : e.pos = t.pos)
    (hspan : e.span = ⟨t.span.start, t'.span.stop⟩) : e.PointsInto source where
  start_le_stop := by
    rw [hspan, ht.start_eq, ht'.stop_eq]
    exact hcd
  stop_le := by
    rw [hspan, utf8ByteSize_eq_byteSize]
    exact ht'.stop_boundary.le
  start_boundary := by
    rw [hspan]
    exact ht.start_boundary
  stop_boundary := by
    rw [hspan]
    exact ht'.stop_boundary
  pos_eq before after hsource hbytes := by
    rw [hspan, utf8ByteSize_eq_byteSize] at hbytes
    rw [hpos]
    exact ht.pos_eq _ _ (by rw [hsource, String.toList_append]) hbytes

/-- An error about tokens that were given, unless the steps were not enough. -/
theorem ParseError.Blames.pointsInto {source : String} {e : ParseError} {h : List Event}
    {c : Scanner} (he : e.Blames h) (hp : (Scanner.start source.toList).Passes h c)
    (hsteps : e.cause ≠ .outOfSteps) : e.PointsInto source := by
  cases he with
  | unexpected last error =>
    subst last error
    obtain ⟨d, hd, hlast⟩ := hp.append_inv
    obtain ⟨d', hm, -⟩ := hlast.cons_inv
    obtain ⟨c', hc, hle⟩ := hm.covers hd.source_eq
    exact pointsInto_of_covers hc hc hle rfl rfl
  | @spans t _ pos start hspans =>
    -- The first token is given at `d`, the other at `d₁`, which is no earlier.
    obtain ⟨before, u, behind, t', rfl, ⟨u', hmem⟩, hstop⟩ := hspans
    obtain ⟨d, hd, hrest⟩ := hp.append_inv
    obtain ⟨_, hm, -⟩ := hrest.cons_inv
    obtain ⟨d₁, _, _, _, -, hd₁, hm₁, -⟩ := hrest.exists_of_mem hmem
    obtain ⟨c', hc, -⟩ := hm.covers hd.source_eq
    obtain ⟨c₁', hc₁, hle⟩ := hm₁.covers (hd₁.source_eq.trans hd.source_eq)
    refine pointsInto_of_covers hc hc₁ (Nat.le_trans hd₁.offset_le hle) pos ?_
    rw [← start, hstop]
  | outOfSteps cause => exact absurd cause hsteps

/-- What a run that has failed was about. -/
theorem pointsInto_of_run {α : Type} {p : Production α} {T : Trace p} {source : String}
    {φ : α → List Event → Scanner → Prop} {least : α → Nat} {e : ParseError}
    (hT : T.Leads (Scanner.start source.toList) φ [] (Scanner.start source.toList))
    (hp : p.Spends (Grammar.stepsFor source.toList) least)
    (h : p.run source.toList = .error e) : e.PointsInto source := by
  have hends := hT.run
  rw [Production.run_eq_error.1 h] at hends
  obtain ⟨hblames, c, hc⟩ := hends
  exact hblames.pointsInto hc.passes (Production.cause_ne_of_run hp h)

/-- The error of a text that is no query, no statement or no expression points into the text. Shown
with the text it stays as it is, and its marks lie in the text. -/
theorem pointsInto_of_parse [PatternCompiler] {source : String} {params : Params} {e : ParseError}
    (h : parseQuery source params = .error e ∨ parseStatement source params = .error e ∨
      parseExpr source params = .error e) :
    e.PointsInto source ∧ e.report source = e ∧
      ∀ l ∈ (e.report source).labels, l.offset = e.span.start ∧
        l.offset + l.length = e.span.stop ∧ l.offset + l.length ≤ source.utf8ByteSize := by
  have hstart := Course.start (Scanner.start source.toList)
  have hinto : e.PointsInto source := by
    rcases h with h | h | h
    · exact pointsInto_of_run (Grammar.query_leads (hstart.mono (by omega)))
        (Grammar.query_spends params _) h
    · exact pointsInto_of_run (Grammar.statement_leads (hstart.mono (by omega)))
        Grammar.statement_spends h
    · exact pointsInto_of_run (Grammar.expression_leads params _ (hstart.mono (by omega)) rfl)
        (Grammar.expression_spends params _) h
  have hle := hinto.start_le_stop
  have hsize := hinto.stop_le
  have hreport : e.report source = e := by
    obtain ⟨cause, pos, span⟩ := e
    obtain ⟨start, stop⟩ := span
    rw [utf8ByteSize_eq_byteSize] at hsize
    simp only [ParseError.report, Span.clamp]
    dsimp only at hle hsize
    rw [Nat.min_eq_left (Nat.le_trans hle hsize), Nat.min_eq_left hsize, Nat.max_eq_left hle]
  refine ⟨hinto, hreport, fun l hl => ?_⟩
  rw [hreport] at hl
  obtain rfl := List.mem_singleton.1 hl
  have hstop : e.span.start + e.span.length = e.span.stop := Nat.add_sub_cancel' hle
  exact ⟨rfl, hstop, hstop ▸ hsize⟩

/-- A name with too many segments behind a line break, with characters of two bytes and an empty
segment. -/
theorem pointsInto_of_parse_segments :
    let source := "SELECT\n\"é\".a..\"ü\" FROM m"
    let e : ParseError := ⟨.tooManySegments ["é", "a", "", "ü"], ⟨1, 0⟩, ⟨7, 19⟩⟩
    parseQuery source .empty = .error e ∧ e.PointsInto source ∧ e.report source = e ∧
      ∀ l ∈ (e.report source).labels, l.offset = e.span.start ∧
        l.offset + l.length = e.span.stop ∧ l.offset + l.length ≤ source.utf8ByteSize := by
  intro source e
  have h : parseQuery source .empty = .error e := by
    cbv
  exact ⟨h, pointsInto_of_parse (.inl h)⟩

end InfluxQL
