import InfluxQL.Proofs.Grammar.DottedNames
import InfluxQL.Proofs.Grammar.QueryReading
import InfluxQL.Proofs.Syntax.Equality

/-!
# Names are read back from their segments

An empty segment in front of a dot is written as nothing. Behind another dot this is understood, but a
name cannot start with a dot. So the segments of a name are read back from what is written for them,
unless there are several and the first is empty.

* `Grammar.renderSegments`: what is written for the segments of a name;
* `Grammar.segmentsRead_renderSegments`: the segments behind the first are read back;
* `Grammar.source_reads_renderSegments`, `Grammar.source_fails`: names where a source is wanted;
* `parseStatement_quoteIdent`: names in the `FROM` clause of a statement.
-/

namespace InfluxQL

namespace Grammar

open Production Lexeme

variable {b : Bool} {text rest : List Char} {params : Params} {n : Nat} {names more : List String}

/-! ### How the segments are written -/

/-- The segments of a name with dots between them, as they are written. -/
def renderSegments (names : List String) : List Char :=
  quoteIdent (names.map String.toList)

/-- A segment that is not the last one is written in quotes, or is left out if it is empty. -/
theorem renderSegments_cons (name : String) (hmore : more ≠ []) : ∃ word,
    renderSegments (name :: more) = word ++ '.' :: renderSegments more ∧
      (Spells word name ∨ word = [] ∧ name = "") := by
  obtain ⟨next, more, rfl⟩ := List.exists_cons_of_ne_nil hmore
  refine ⟨quoteSegment (!name.toList.isEmpty) name.toList, rfl, ?_⟩
  by_cases hname : name = ""
  · subst hname
    exact .inr ⟨rfl, rfl⟩
  · refine .inl ⟨_, fun _ => ?_, rfl⟩
    simpa using hname

theorem length_le_renderSegments (names : List String) :
    names.length ≤ (renderSegments names).length + 1 := by
  induction names with
  | nil => exact Nat.zero_le _
  | cons name more ih =>
    by_cases hmore : more = []
    · simp [hmore]
    · obtain ⟨word, he, -⟩ := renderSegments_cons name hmore
      rw [he]
      simp only [List.length_cons, List.length_append]
      omega

theorem renderSegments_empty_cons (hmore : more ≠ []) :
    renderSegments ("" :: more) = '.' :: renderSegments more := by
  obtain ⟨next, more, rfl⟩ := List.exists_cons_of_ne_nil hmore
  rfl

theorem not_isDigit_of_spells {word : List Char} {name : String} (h : Spells word name)
    (rest : List Char) : ∀ c ∈ (word ++ rest).head?, c.isDigit = false := by
  intro c hc
  obtain ⟨d, hd, hdigit, -⟩ := head?_append_of_spells h rest
  rw [hd] at hc
  exact Option.some.inj hc ▸ hdigit

/-- What is written starts with no digit. -/
theorem not_isDigit_renderSegments (hnames : names ≠ []) (rest : List Char) :
    ∀ c ∈ (renderSegments names ++ rest).head?, c.isDigit = false := by
  obtain ⟨name, more, rfl⟩ := List.exists_cons_of_ne_nil hnames
  by_cases hmore : more = []
  · subst hmore
    exact not_isDigit_of_spells (spells_renderName name) rest
  · obtain ⟨word, he, hw | ⟨rfl, -⟩⟩ := renderSegments_cons name hmore
    · rw [he, List.append_assoc]
      exact not_isDigit_of_spells hw _
    · rw [he]
      rintro _ ⟨⟩
      rfl

/-! ### How they are read -/

/-- The segments behind the first one are read back. -/
theorem segmentsRead_renderSegments (hmore : more ≠ []) (hw : NoWordPart rest)
    (hdot : nextKind true rest ≠ .dot) (hn : more.length < n) :
    SegmentsRead n b ('.' :: (renderSegments more ++ rest)) names (names ++ more) true rest := by
  induction more generalizing names n b with
  | nil => exact absurd rfl hmore
  | cons name more ih =>
    obtain ⟨n, rfl⟩ : ∃ k, n = k + 2 := ⟨n - 2, by simp only [List.length_cons] at hn; omega⟩
    by_cases hlast : more = []
    · subst hlast
      exact .name (spells_renderName name) hw (.stop hdot)
    · obtain ⟨word, he, hword⟩ := renderSegments_cons name hlast
      rw [he, List.append_assoc]
      refine .middle hword fun b => ?_
      have hnext : SegmentsRead (n + 1) b ('.' :: (renderSegments more ++ rest)) (names ++ [name])
          (names ++ [name] ++ more) true rest :=
        ih hlast (by simp only [List.length_cons] at hn; omega)
      simpa using hnext

/-- A name that starts with a dot is not read. -/
theorem dottedName_fails (h : pastBlank text = '.' :: rest)
    (hd : ∀ c ∈ rest.head?, c.isDigit = false) :
    (dottedName n).FailsWith b text (.unexpected "." ["identifier"]) := by
  refine .bind (.significantWord ['.'] h (next?_dot b rest hd) (by decide) fun t hk hlit => ?_)
  have ht : t.text = "." := by
    rw [Token.text, hk, if_pos hlit]
    rfl
  rw [if_neg (by rw [hk]; decide), ← ht]
  exact .unexpected

/-- Nor is it read where a source is wanted. -/
theorem source_fails [PatternCompiler] (hd : ∀ c ∈ rest.head?, c.isDigit = false) :
    (source n).FailsWith b (' ' :: '.' :: rest) (.unexpected "." ["identifier"]) := by
  have hregex : regex?.Reads b (' ' :: '.' :: rest) none b ('.' :: rest) :=
    regex?_reads_none rfl (by simp)
  exact hregex.fails (.bind (dottedName_fails (pastBlank_eq_self rfl) hd))

/-! ### Statements -/

/-- The field `v`. -/
def fieldV : Field :=
  ⟨.atom (.var ⟨"v", .unknown⟩), none⟩

/-- The statement that selects this field from given sources. -/
def selectFrom (sources : List Source) : Select :=
  ⟨[fieldV], sources, none, true⟩

theorem select_text_eq (text : List Char) : "SELECT v FROM ".toList ++ text =
    Keyword.SELECT.text.toList ++ ' ' :: (fieldV.render ++ fromClause text) := rfl

theorem fieldV_reads [PatternCompiler] (hn : 1 < n) (text : List Char) :
    (loop (furtherField params n) n []).Reads false (' ' :: (fieldV.render ++ fromClause text))
      [fieldV] true (Keyword.FROM.text.toList ++ ' ' :: text) := by
  have hregular : fieldV.expr.Everywhere Expr.Regular :=
    (Expr.everywhere_atom ..).2 ⟨trivial, trivial, trivial, trivial⟩
  have hcanonical : fieldV.Canonical := ⟨⟨hregular, rfl⟩, rfl⟩
  have hfinite : fieldV.expr.Everywhere Expr.FiniteNumber := (Expr.everywhere_atom ..).2 trivial
  have hfields : ∀ f ∈ [fieldV], f.Canonical ∧ f.expr.Everywhere Expr.FiniteNumber :=
    List.forall_mem_singleton.2 ⟨hcanonical, hfinite⟩
  exact fields_reads hfields hn n (by simp only [List.length_nil]; omega) []

/-- The statement is read if its sources are, up to the end of the text. -/
theorem statement_reads_selectFrom [PatternCompiler] (hn : 1 < n) {sources : List Source}
    (h : (loop (furtherSource n) n []).Reads false (' ' :: text) sources true []) :
    (statement params n).Reads false ("SELECT v FROM ".toList ++ text)
      (.select (selectFrom sources)) true [] := by
  have hcondition : (condition? params n).Reads true [] none true [] :=
    condition?_reads (c := none) (by simp) (by simp) (Nat.zero_lt_of_lt hn) (.inl rfl)
  rw [select_text_eq]
  refine .significantWord _ (pastBlank_eq_self rfl) (next?_keyword false .SELECT (noWordPart_space _))
    (by decide) fun t hk _ => ?_
  rw [if_pos hk]
  refine Reads.bind ?_ (.pure rfl)
  refine (fieldV_reads hn text).bind (.significantWord _ (pastBlank_eq_self rfl)
    (next?_keyword true .FROM (noWordPart_space _)) (by decide) fun t hk _ => ?_)
  rw [if_pos hk]
  exact h.bind (hcondition.bind (.pure rfl))

/-- The statement is not read if its sources are not. -/
theorem statement_fails_selectFrom [PatternCompiler] (hn : 1 < n) {cause : Cause}
    (h : (loop (furtherSource n) n []).FailsWith false (' ' :: text) cause) :
    (statement params n).FailsWith false ("SELECT v FROM ".toList ++ text) cause := by
  rw [select_text_eq]
  refine .significantWord _ (pastBlank_eq_self rfl) (next?_keyword false .SELECT (noWordPart_space _))
    (by decide) fun t hk _ => ?_
  rw [if_pos hk]
  refine .bind ((fieldV_reads hn text).fails (.significantWord _ (pastBlank_eq_self rfl)
    (next?_keyword true .FROM (noWordPart_space _)) (by decide) fun t hk _ => ?_))
  rw [if_pos hk]
  exact h.bind

/-! ### What is written for a name is read, or is not -/

section Names

variable (hnames : names ≠ []) (hlen : names.length ≤ maxSegments)
  (hfirst : names.length = 1 ∨ names.head? ≠ some "")

include hnames hfirst

/-- What is written for a name starts with its first segment. -/
theorem exists_spells_renderSegments (hw : NoWordPart rest) (hdot : nextKind true rest ≠ .dot)
    (hn : names.length ≤ n) :
    ∃ first word rest', renderSegments names ++ rest = word ++ rest' ∧ Spells word first ∧
      NoWordPart rest' ∧ SegmentsRead n true rest' [first] names true rest := by
  obtain ⟨first, more, rfl⟩ := List.exists_cons_of_ne_nil hnames
  by_cases hmore : more = []
  · subst hmore
    obtain ⟨n, rfl⟩ := Nat.exists_eq_add_of_le' hn
    exact ⟨first, _, rest, rfl, spells_renderName first, hw, .stop hdot⟩
  · obtain ⟨word, he, hword⟩ := renderSegments_cons first hmore
    have hspells : Spells word first := by
      rcases hword with hword | ⟨-, rfl⟩
      · exact hword
      · rcases hfirst with h | h
        · exact absurd (List.length_eq_zero_iff.1 (Nat.succ.inj h)) hmore
        · exact absurd rfl h
    refine ⟨first, word, '.' :: (renderSegments more ++ rest), ?_, hspells, noWordPart_dot _,
      segmentsRead_renderSegments hmore hw hdot hn⟩
    rw [he, List.append_assoc, List.cons_append]

include hlen

/-- The name is read back. -/
theorem dottedName_reads_renderSegments (hw : NoWordPart rest) (hdot : nextKind true rest ≠ .dot)
    (hn : names.length ≤ n) :
    (dottedName n).Reads false (renderSegments names ++ rest) names true rest := by
  obtain ⟨first, word, rest', he, hspells, hw', h⟩ :=
    exists_spells_renderSegments hnames hfirst hw hdot hn
  rw [he]
  exact dottedName_reads hspells hw' h hlen

/-- The name is read back where a source is wanted. -/
theorem source_reads_renderSegments [PatternCompiler] (hr : EndsSource rest) (hn : names.length ≤ n) :
    ∃ rest', pastBlank rest' = pastBlank rest ∧
      (source n).Reads false (' ' :: (renderSegments names ++ rest))
        (.measurement (measurementOf names none)) true rest' := by
  obtain ⟨first, word, rest', he, hspells, hw, h⟩ := exists_spells_renderSegments hnames hfirst
    hr.delimited.noWordPart (hr.delimited.nextKind_ne true (by decide)) hn
  rw [he]
  by_cases h3 : names.length = maxSegments
  · refine ⟨rest, rfl, source_reads_of_segments hspells hw h hlen ?_⟩
    rw [if_pos h3]
    exact .pure _
  · refine ⟨_, pastBlank_pastBlankCharacter rest, source_reads_of_segments hspells hw h hlen ?_⟩
    rw [if_neg h3]
    exact (regex?_reads_none rfl hr.noSlash).bind (.pure rfl)

/-- The name is read back if it stands alone. -/
theorem dottedName_run_renderSegments :
    (dottedName (stepsFor (renderSegments names))).run (renderSegments names) = .ok names := by
  have h : (dottedName (stepsFor (renderSegments names))).Reads false (renderSegments names ++ [])
      names true [] :=
    dottedName_reads_renderSegments hnames hlen hfirst delimited_nil.noWordPart (by decide)
      (length_le_renderSegments names)
  rw [List.append_nil] at h
  exact h.run

/-- The name is read back in a statement. -/
theorem statement_run_renderSegments [PatternCompiler] (hn : maxSegments ≤ n) :
    (statement params n).run ("SELECT v FROM ".toList ++ renderSegments names) =
      .ok (.select (selectFrom [.measurement (measurementOf names none)])) := by
  have hend : EndsSource [] := ⟨delimited_nil, by simp [pastBlankCharacter]⟩
  obtain ⟨rest, hrest, h⟩ := source_reads_renderSegments hnames hlen hfirst hend (hlen.trans hn)
  rw [List.append_nil] at h
  obtain ⟨m, rfl⟩ := Nat.exists_eq_add_of_le' hn
  have hsources : (loop (furtherSource (m + 3)) (m + 3) []).Reads false
      (' ' :: renderSegments names) [.measurement (measurementOf names none)] true [] :=
    Reads.lastRound (h.bind (.lookPastSignificant hrest (by decide) (.pure rfl))) rfl
  exact (statement_reads_selectFrom (Nat.lt_of_lt_of_le (by decide) hn) hsources).run

end Names

/-- A name is not read in a statement if the first of several segments is empty. -/
theorem statement_run_empty [PatternCompiler] (hmore : more ≠ []) (hn : 1 < n) :
    ∃ e, (statement params n).run ("SELECT v FROM ".toList ++ renderSegments ("" :: more)) =
      .error e ∧ e.cause = .unexpected "." ["identifier"] := by
  have hdigit := not_isDigit_renderSegments hmore []
  rw [List.append_nil] at hdigit
  rw [renderSegments_empty_cons hmore]
  obtain ⟨m, rfl⟩ := Nat.exists_eq_add_of_lt hn
  exact (statement_fails_selectFrom hn (.round (.bind (source_fails hdigit)))).run

end Grammar

open Grammar in
/-- **Which names are read back from what is written for their segments.** Let the segments have been
read from some text. What is written for them is read back, alone and as the source of a statement, if
there is only one or the first is not empty. Otherwise it starts with a dot, where an identifier is
wanted. -/
theorem parseStatement_quoteIdent [PatternCompiler] {source : List Char} {steps : Nat}
    {names : List String}
    (h : (dottedName steps).run source = .ok names) (params : Params) :
    let text := String.ofList (quoteIdent (names.map String.toList))
    (names.length = 1 ∨ names.head? ≠ some "" →
      (dottedName (stepsFor text.toList)).run text.toList = .ok names ∧
        parseStatement ("SELECT v FROM " ++ text) params =
          .ok (.select (selectFrom [.measurement (measurementOf names none)]))) ∧
      (1 < names.length → names.head? = some "" →
        ∃ e, parseStatement ("SELECT v FROM " ++ text) params = .error e ∧
          e.cause = .unexpected "." ["identifier"]) := by
  obtain ⟨_, _, hread⟩ := (dottedName_comesTo steps _).run h
  obtain ⟨hpos, hlen⟩ := hread.length_le
  have hnames : names ≠ [] := List.length_pos_iff.1 hpos
  intro text
  have htext : text.toList = renderSegments names := String.toList_ofList
  have hsource : ("SELECT v FROM " ++ text).toList =
      "SELECT v FROM ".toList ++ renderSegments names := by
    rw [String.toList_append, htext]
  have hsteps : maxSegments ≤ stepsFor ("SELECT v FROM ".toList ++ renderSegments names) := by
    simp [stepsFor, maxSegments]
  rw [parseStatement, hsource, htext]
  refine ⟨fun hfirst => ⟨dottedName_run_renderSegments hnames hlen hfirst,
    statement_run_renderSegments hnames hlen hfirst hsteps⟩, fun hmore hempty => ?_⟩
  obtain ⟨more, rfl⟩ := List.head?_eq_some_iff.1 hempty
  have hne : more ≠ [] := by
    rintro rfl
    exact absurd hmore (by decide)
  exact statement_run_empty hne (Nat.lt_of_lt_of_le (by decide) hsteps)

open Grammar in
/-- Three segments, of which one is a reserved word and one is empty. -/
theorem parseStatement_quoteIdent_three :
    let names := ["select", "", "b"]
    let text := String.ofList (quoteIdent (names.map String.toList))
    (dottedName 4).run "\"select\"..b".toList = .ok names ∧
      (names.length = 1 ∨ names.head? ≠ some "" →
        (dottedName (stepsFor text.toList)).run text.toList = .ok names ∧
          parseStatement ("SELECT v FROM " ++ text) .empty =
            .ok (.select (selectFrom [.measurement (measurementOf names none)]))) ∧
      (1 < names.length → names.head? = some "" →
        ∃ e, parseStatement ("SELECT v FROM " ++ text) .empty = .error e ∧
          e.cause = .unexpected "." ["identifier"]) := by
  intro names text
  have h : (dottedName 4).run "\"select\"..b".toList = .ok names := by
    decide +kernel
  exact ⟨h, parseStatement_quoteIdent h .empty⟩

open Grammar in
/-- The first of two segments is empty. -/
theorem parseStatement_quoteIdent_empty :
    let names := ["", "b"]
    let text := String.ofList (quoteIdent (names.map String.toList))
    parseStatement "SELECT v FROM \"\".b" .empty =
        .ok (.select (selectFrom [.measurement (measurementOf names none)])) ∧
      text = ".b" ∧ parseStatement ("SELECT v FROM " ++ text) .empty =
        .error ⟨.unexpected "." ["identifier"], ⟨0, 14⟩, ⟨14, 15⟩⟩ := by
  exact ⟨by decide +kernel, by decide +kernel, by decide +kernel⟩

end InfluxQL
