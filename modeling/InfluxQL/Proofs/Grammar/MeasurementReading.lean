import InfluxQL.Proofs.Grammar.NameReading
import InfluxQL.Proofs.Syntax.Equality

/-!
# Measurements are read back from a list of their texts

A measurement refers to a name or to a pattern, and a database and a retention policy may qualify it.
A database that stands without a policy is written like one with the empty policy, and this is how it
is read; otherwise each measurement comes back as it was.

* `Measurement.Refers`: the measurements that are written;
* `Measurement.completed`: what is read for one;
* `parseStatement_measurements`: lists of measurements in the `FROM` clause of a statement.
-/

namespace InfluxQL

namespace Measurement

/-- The same measurement, with the empty policy in a database that stands without one. -/
def completed (m : Measurement) : Measurement :=
  if m.database.isSome ∧ m.retentionPolicy = none then { m with retentionPolicy := some "" } else m

/-- A missing policy behind a database is written like an empty one. -/
theorem render_completed (m : Measurement) : m.completed.render = m.render := by
  obtain ⟨_ | database, _ | policy, name, regex⟩ := m <;> simp [completed, render]

variable [PatternCompiler]

/-- Exactly one of a name and a pattern is given, and the pattern compiles and can stand between
slashes. -/
structure Refers (m : Measurement) : Prop where
  one : (m.name.isSome ^^ m.regex.isSome) = true
  readable : ∀ p ∈ m.regex, ReadablePattern p

/-- A measurement has a name or a pattern that can stand between slashes. -/
theorem Refers.exists_eq {m : Measurement} (h : m.Refers) :
    (∃ database policy name, m = ⟨database, policy, some name, none⟩) ∨
    ∃ database policy p, m = ⟨database, policy, none, some p⟩ ∧ ReadablePattern p := by
  obtain ⟨database, policy, name, regex⟩ := m
  have hone := h.one
  cases name with
  | some name =>
    cases regex with
    | some p => cases hone
    | none => exact .inl ⟨database, policy, name, rfl⟩
  | none =>
    cases regex with
    | some p => exact .inr ⟨database, policy, p, rfl, h.readable p rfl⟩
    | none => cases hone

/-- With the policy that is read for it a measurement is canonical. -/
theorem canonical_completed {m : Measurement} (h : m.Refers) : m.completed.Canonical := by
  obtain ⟨database, policy, name, rfl⟩ | ⟨database, policy, p, rfl, hp⟩ := h.exists_eq
  · rcases database with _ | database <;> rcases policy with _ | policy
    · exact .named name
    · exact .qualified policy name
    · exact .complete database "" name
    · exact .complete database policy name
  · rcases database with _ | database <;> rcases policy with _ | policy
    · exact .matching hp
    · exact .matchingIn policy hp
    · exact .matchingInBoth database "" hp
    · exact .matchingInBoth database policy hp

end Measurement

namespace Grammar

variable [PatternCompiler]

/-- A statement that selects from canonical sources is read back. -/
theorem statement_run_sources {params : Params} {n : Nat} {x : Source} {xs : List Source}
    (hx : ∀ y ∈ x :: xs, y.Canonical) (hn : 3 ≤ n) (hxs : xs.length < n) :
    (statement params n).run
        ("SELECT v FROM ".toList ++ commaSeparated ((x :: xs).map Source.render)) =
      .ok (.select (selectFrom (x :: xs))) := by
  have hend : EndsSources [] := ⟨⟨Lexeme.delimited_nil, by simp [pastBlankCharacter]⟩, by decide⟩
  have hsources := sources_reads hn hx hend n hxs []
  rw [List.append_nil, ← commaSeparated_cons] at hsources
  exact (statement_reads_selectFrom (Nat.lt_of_lt_of_le (by decide) hn) hsources).run

end Grammar

open Grammar in
/-- **Measurements of any shape are read back.** From the texts of any measurements, separated by
commas, the same measurements are read, but that a database without a retention policy gets the empty
one. -/
theorem parseStatement_measurements [PatternCompiler] {ms : List Measurement} (hne : ms ≠ [])
    (h : ∀ m ∈ ms, m.Refers) (params : Params) :
    parseStatement
        ("SELECT v FROM " ++ ", ".intercalate (ms.map fun m => (Source.measurement m).text)) params =
      .ok (.select (selectFrom (ms.map fun m => .measurement m.completed))) := by
  let sources := ms.map fun m => Source.measurement m.completed
  have hrender : ms.map (fun m => (Source.measurement m).text.toList) =
      sources.map Source.render := by
    simp only [sources, List.map_map]
    refine List.map_congr_left fun m _ => ?_
    simp only [Source.text, String.toList_ofList, Function.comp, Source.render,
      Measurement.render_completed]
  have htext : ("SELECT v FROM " ++
      ", ".intercalate (ms.map fun m => (Source.measurement m).text)).toList =
      "SELECT v FROM ".toList ++ commaSeparated (sources.map Source.render) := by
    rw [String.toList_append, String.toList_intercalate, List.map_map, ← hrender]
    rfl
  have hcanonical : ∀ y ∈ sources, y.Canonical := by
    simp only [sources, List.forall_mem_map]
    exact fun m hm => Measurement.canonical_completed (h m hm)
  obtain ⟨x, xs, hx⟩ : ∃ x xs, sources = x :: xs :=
    List.exists_cons_of_ne_nil (mt List.map_eq_nil_iff.1 hne)
  have hlength := length_le_renderFurther (xs.map Source.render)
  rw [parseStatement, htext]
  show _ = Except.ok (Statement.select (selectFrom sources))
  rw [hx] at hcanonical ⊢
  refine statement_run_sources hcanonical (by simp [stepsFor]) ?_
  rw [List.map_cons, commaSeparated_cons]
  simp only [stepsFor, List.length_append, List.length_map] at hlength ⊢
  omega

open Grammar in
/-- A database without a policy, a policy that is empty, and a pattern with a slash in it. -/
theorem parseStatement_measurements_three :
    let ms : List Measurement := [⟨some "d\n", none, some "from", none⟩,
      ⟨none, some "", some "", none⟩, ⟨some "", none, none, some "a/b"⟩]
    (ms ≠ [] ∧ ∀ m ∈ ms, m.Refers) ∧
      parseStatement "SELECT v FROM \"d\\n\"..\"from\", \"\".\"\", \"\"../a\\/b/" .empty =
        .ok (.select (selectFrom [.measurement ⟨some "d\n", some "", some "from", none⟩,
          .measurement ⟨none, some "", some "", none⟩,
          .measurement ⟨some "", some "", none, some "a/b"⟩])) := by
  intro ms
  have hp : ReadablePattern "a/b" := by
    refine ⟨by cbv, RegexBody.writable_iff.2 ?_⟩
    simp [RegexBody.WritableFrom]
  have h : ∀ m ∈ ms, m.Refers := by
    simp only [ms, List.forall_mem_cons]
    refine ⟨⟨rfl, by simp⟩, ⟨rfl, by simp⟩, ⟨rfl, ?_⟩, by simp⟩
    rintro p ⟨⟩
    exact hp
  have hne : ms ≠ [] := List.cons_ne_nil _ _
  exact ⟨⟨hne, h⟩, parseStatement_measurements hne h .empty⟩

/-- A pattern that ends with a backslash cannot be written between slashes, whatever it is compiled with,
though it can be compiled if the backslash stands in a comment. -/
theorem parseStatement_measurements_backslash :
    let p := "(?x)#\\"
    let m : Measurement := ⟨none, none, none, some p⟩
    let text := ", ".intercalate ([m].map fun m => (Source.measurement m).text)
    Compiles p ∧ RegexBody.SlashesClear p.toList ∧
      ∀ [PatternCompiler] x, parseStatement ("SELECT v FROM " ++ text) .empty ≠ .ok x := by
  intro p m text
  refine ⟨by cbv, ?_, ?_⟩
  · intro s t h
    have hm : '/' ∈ p.toList := by simp [h]
    exact absurd hm (by decide)
  · intro _ x
    have h : parseStatement ("SELECT v FROM " ++ text) .empty =
        .error ⟨.unterminatedRegex "(?x)#/", ⟨0, 14⟩, ⟨14, 22⟩⟩ := by
      cbv
    simp [h]

end InfluxQL
