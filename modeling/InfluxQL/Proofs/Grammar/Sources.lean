import InfluxQL.Proofs.Grammar.DottedNames
import InfluxQL.Proofs.Syntax.Equality

/-!
# What the sources of a statement are read from

A source is a regular expression, or a dotted name, which a regular expression may follow. Whether a dot
stands before the regular expression is not looked at: it follows the name directly, behind the dot that
ends the name, or behind blanks.

* `Grammar.RegexRead`, `Grammar.SourceRead`: what a regular expression and a source are read from;
* `Grammar.RegexRead.dots_eq`: the dots of a name that a regular expression follows;
* `parseStatement_sources`: the sources of a statement.
-/

namespace InfluxQL

theorem Scanner.reaches_pastBlankCharacter (c : Scanner) : c.Reaches c.pastBlankCharacter := by
  unfold pastBlankCharacter
  split
  · exact c.reaches_pastBlank
  · exact .refl c

namespace Grammar

open Production Scanner

variable {c c' d : Scanner} {taken : List Token} {names : List String} {p : String}

/-! ### Regular expressions -/

/-- A regular expression is read, here or behind blanks. -/
inductive RegexRead : Scanner → String → Scanner → Prop
  | intro {c d : Scanner} {rest : List Char} (skip : d = c.pastBlankCharacter)
      (ahead : d.cursor.ahead = '/' :: rest) (kind : (d.regex rest).1.kind = .regex) :
      RegexRead c (d.regex rest).1.lit (d.regex rest).2

theorem RegexRead.reaches (h : RegexRead c p c') : c.Reaches c' := by
  cases h with
  | intro skip ahead _ =>
    subst skip
    exact c.reaches_pastBlankCharacter.trans (reaches_regex ahead)

/-- A regular expression is only read before a slash or a blank. -/
theorem RegexRead.head? (h : RegexRead c p c') :
    c.cursor.ahead.head? = some '/' ∨ c.cursor.ahead.head?.any isBlank := by
  cases h with
  | intro skip ahead _ =>
    subst skip
    unfold Scanner.pastBlankCharacter at ahead
    split at ahead
    · next hb => exact .inr hb
    · exact .inl (by rw [ahead]; rfl)

theorem skipBlankCharacter_comesTo (c : Scanner) :
    skipBlankCharacter.ComesTo c fun _ d => d = c.pastBlankCharacter := by
  rw [skipBlankCharacter_eq]
  refine .peek? ?_
  unfold Scanner.pastBlankCharacter
  split
  · exact .skipBlank
  · exact .pure rfl

variable [PatternCompiler]

theorem regexLiteral_comesTo (t : Token) (c : Scanner) :
    (regexLiteral t).ComesTo c fun p c' => c' = c ∧ t.kind = .regex ∧ p = some t.lit := by
  unfold regexLiteral
  split
  · next hk =>
    refine .bind (ψ := fun p d => d = c ∧ p = t.lit) ?_ ?_
    · rcases compiles_or_error t.lit with hc | ⟨text, he⟩
      · rw [pattern_of_compiles hc]
        exact .pure ⟨rfl, rfl⟩
      · rw [pattern_of_error he]
        exact .failAt
    · rintro _ _ ⟨rfl, rfl⟩
      exact .pure ⟨rfl, hk, rfl⟩
  · exact .failAt
  · exact .failAt
  · exact .unexpected

/-- A regular expression is read, or no slash follows. -/
theorem regex?_comesTo (c : Scanner) : regex?.ComesTo c fun p? c' =>
    (∃ p, p? = some p ∧ RegexRead c p c') ∨
      p? = none ∧ c' = c.pastBlankCharacter ∧ c'.cursor.ahead.head? ≠ some '/' := by
  rw [regex?_eq]
  refine (skipBlankCharacter_comesTo c).next fun _ => .atSlash (fun rest ahead => ?_) fun h =>
    .pure (.inr ⟨rfl, rfl, h⟩)
  refine (regexLiteral_comesTo _ _).mono ?_
  rintro p? c' ⟨rfl, hk, rfl⟩
  exact .inl ⟨_, rfl, .intro rfl ahead hk⟩

omit [PatternCompiler] in
/-- **The dots of a name that a regular expression follows.** Either one dot more than stand between the
segments is read, directly before the slash; or there is no dot between the last segment, which is not
empty, and the regular expression. -/
theorem RegexRead.dots_eq (h : NameRead c taken names d) (hp : RegexRead d p c') :
    dots taken = names.length ∧ DotDropped taken d ∧ d.cursor.ahead.head? = some '/' ∨
      dots taken + 1 = names.length ∧ ∀ t ∈ taken.getLast?, t.kind = .ident := by
  -- The next character excludes a further dot and a colon.
  have hhead := hp.head?
  rcases h.dots_eq with ⟨hd, hlast | hnext⟩ | ⟨hd, hdrop⟩
  · exact .inr ⟨hd, hlast⟩
  · rw [hnext] at hhead
    exact absurd hhead (by decide)
  · refine .inl ⟨hd, hdrop, ?_⟩
    rcases hdrop.1 with hslash | hcolon
    · exact hslash
    · rw [hcolon] at hhead
      exact absurd hhead (by decide)

/-! ### Sources -/

/-- A source is read: a regular expression, a name, or a name and a regular expression. -/
inductive SourceRead : Scanner → Source → Scanner → Prop
  | pattern {c c' : Scanner} {p : String} (regex : RegexRead c p c') :
      SourceRead c (.measurement (measurementOf [] (some p))) c'
  | name {c d c' : Scanner} {taken : List Token} {names : List String}
      (name : NameRead c.pastBlank taken names d) (behind : d.Reaches c')
      (last : names.length = maxSegments ∨ c'.cursor.ahead.head? ≠ some '/') :
      SourceRead c (.measurement (measurementOf names none)) c'
  | qualified {c d c' : Scanner} {taken : List Token} {names : List String} {p : String}
      (name : NameRead c.pastBlank taken names d) (few : names.length < maxSegments)
      (regex : RegexRead d p c') : SourceRead c (.measurement (measurementOf names (some p))) c'

omit [PatternCompiler] in
theorem SourceRead.reaches {x : Source} (h : SourceRead c x c') : c.Reaches c' := by
  cases h with
  | pattern regex => exact regex.reaches
  | name name behind _ => exact c.reaches_pastBlank.trans (name.reaches.trans behind)
  | qualified name _ regex => exact c.reaches_pastBlank.trans (name.reaches.trans regex.reaches)

theorem source_comesTo (steps : Nat) (c : Scanner) :
    (source steps).ComesTo c (SourceRead c) := by
  refine (regex?_comesTo c).bind ?_
  rintro _ _ (⟨p, rfl, hp⟩ | ⟨rfl, rfl, -⟩)
  · exact .pure (.pattern hp)
  · refine (dottedName_comesTo steps _).bind ?_
    rintro names d ⟨taken, hname⟩
    rw [Scanner.pastBlank_pastBlankCharacter] at hname
    refine .ite (fun h3 => .pure (.name hname (.refl d) (.inl h3))) fun h3 => ?_
    refine (regex?_comesTo d).bind ?_
    rintro _ c' (⟨p, rfl, hp⟩ | ⟨rfl, rfl, hslash⟩)
    · exact .pure (.qualified hname (Nat.lt_of_le_of_ne hname.length_le.2 h3) hp)
    · exact .pure (.name hname d.reaches_pastBlankCharacter (.inr hslash))

/-- Sources are read one after the other. -/
def SourcesRead (c : Scanner) (sources : List Source) (c' : Scanner) : Prop :=
  c.ReadsInTurn SourceRead sources c'

theorem furtherSource_comesTo (steps : Nat) {sources : List Source}
    (h : SourcesRead c sources d) :
    (furtherSource steps sources).ComesTo d (Sum.elim (SourcesRead c) (SourcesRead c)) := by
  refine (source_comesTo steps d).bind fun x d' hx => ?_
  have hread : SourcesRead c (sources ++ [x]) d' := h.append (.single hx)
  exact .lookForSignificant (fun _ => .pure (hread.trans d'.reaches_significant))
    fun _ => .pure (hread.trans d'.reaches_pastBlank)

theorem select_comesTo (params : Params) (steps : Nat) (first : Token) (c : Scanner) :
    (select params steps first).ComesTo c fun s c' => SourcesRead c s.sources c' := by
  refine ((Trace.loop .field (furtherFieldTrace params steps) steps []).comesTo c).bind
    fun fields d hd => .expectSignificant fun _ => ?_
  have hstart : c.Reaches d.pastBlank.scan.2 := hd.trans d.reaches_significant
  refine .bind (.loop (fun _ _ h => furtherSource_comesTo steps h) steps (.done hstart))
    fun sources d' hsources => ?_
  refine ((conditionTrace params steps).comesTo d').bind fun condition c' hc' => ?_
  dsimp only
  split
  · exact .pure (hsources.trans hc')
  · exact .failAt

theorem statement_comesTo (params : Params) (steps : Nat) (c : Scanner) :
    (statement params steps).ComesTo c fun x c' =>
      ∃ s, x = .select s ∧ SourcesRead c s.sources c' := by
  refine .expectSignificant fun _ => (select_comesTo params steps _ _).bind fun s c' hs => ?_
  exact .pure ⟨s, rfl, hs.after c.reaches_significant⟩

end Grammar

end InfluxQL
