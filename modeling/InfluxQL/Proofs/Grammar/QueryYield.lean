import InfluxQL.Grammar.Query
import InfluxQL.Proofs.Grammar.Yield

/-!
# What the productions of statements yield

Every query that is read is canonical (`Grammar.query_yields_canonical`).
-/

namespace InfluxQL

namespace Grammar

open Production

variable [PatternCompiler]

/-! ### Sources -/

omit [PatternCompiler] in
/-- A dotted name has one to three segments. -/
theorem segments_yields (steps : Nat) (first : Token) :
    (segments steps first).Yields fun names => names ≠ [] ∧ names.length ≤ maxSegments := by
  refine .bind (ψ := fun s => s.names ≠ []) ?_ fun s hs => ?_
  · refine .loop (ψ := fun s => s.names ≠ []) (fun s hs => .after fun t => ?_) steps (by simp)
    split
    · refine .after fun c => ?_
      split
      · exact .pure hs
      · exact .pure hs
      · exact .pure (by simp)
      · exact .after fun t => .pure (by simp)
    · exact .after fun _ => .pure hs
  · split
    · next h => exact .pure ⟨hs, h⟩
    · exact .fail

theorem canonical_measurementOf {names : List String} {regex : Option String}
    (hn : names ≠ [] ∨ regex ≠ none) (hl : names.length ≤ maxSegments)
    (h3 : names.length = maxSegments → regex = none) (hr : ∀ p ∈ regex, ReadablePattern p) :
    (measurementOf names regex).Canonical := by
  match names, regex, hr with
  | [], none, _ => simp at hn
  | [], some p, hr => exact .matching (hr p rfl)
  | [name], none, _ => exact .named name
  | [policy], some p, hr => exact .matchingIn policy (hr p rfl)
  | [policy, name], none, _ => exact .qualified policy name
  | [database, policy], some p, hr => exact .matchingInBoth database policy (hr p rfl)
  | [database, policy, name], regex, _ => exact .complete database policy name
  | _ :: _ :: _ :: _ :: _, _, _ =>
    simp only [List.length_cons, maxSegments] at hl
    omega

theorem source_yields (steps : Nat) : (source steps).Yields Source.Canonical := by
  refine .bind regex?_yields fun p? hp => ?_
  split
  · next p =>
    exact .pure (canonical_measurementOf (.inr (by simp)) (by simp) (by simp [maxSegments]) hp)
  · refine .bind (.after fun first => segments_yields steps first) fun names hn => ?_
    split
    · exact .pure (canonical_measurementOf (.inl hn.1) hn.2 (fun _ => rfl) (by simp))
    · next h3 =>
      refine .bind regex?_yields fun p? hp => .pure ?_
      exact canonical_measurementOf (.inl hn.1) hn.2 (fun h => absurd h h3) hp

/-! ### Statements -/

theorem field_yields (params : Params) (steps : Nat) :
    (field params steps).Yields Field.Canonical := by
  refine .after fun first => .after fun _ => ?_
  refine .bind (expression_yields_canonical params steps) fun e he => ?_
  split
  · exact .failAt
  · next hc => exact .after fun name => .after fun _ => .pure ⟨he, hc⟩

theorem fields_yields (params : Params) (steps : Nat) :
    (loop (furtherField params steps) steps []).Yields
      fun fields => fields ≠ [] ∧ ∀ f ∈ fields, f.Canonical := by
  refine .loop (ψ := fun fields => ∀ f ∈ fields, f.Canonical) (fun fields hf => ?_) steps (by simp)
  refine .bind (field_yields params steps) fun f hc => .after fun t => ?_
  split
  · exact .pure (forall_mem_snoc hf hc)
  · exact .after fun _ => .pure ⟨by simp, forall_mem_snoc hf hc⟩

theorem sources_yields (steps : Nat) : (loop (furtherSource steps) steps []).Yields
    fun sources => sources ≠ [] ∧ ∀ x ∈ sources, x.Canonical := by
  refine .loop (ψ := fun sources => ∀ x ∈ sources, x.Canonical) (fun sources hs => ?_) steps
    (by simp)
  refine .bind (source_yields steps) fun x hx => .after fun t => ?_
  split
  · exact .pure (forall_mem_snoc hs hx)
  · exact .after fun _ => .pure ⟨by simp, forall_mem_snoc hs hx⟩

theorem condition?_yields (params : Params) (steps : Nat) :
    (condition? params steps).Yields fun c => ∀ e ∈ c, e.Canonical := by
  refine .after fun t => ?_
  split
  · refine .bind (expression_yields_canonical params steps) fun e he => .pure ?_
    rintro _ ⟨⟩
    exact he
  · exact .after fun _ => .pure (by simp)

theorem select_yields_canonical (params : Params) (steps : Nat) (first : Token) :
    (select params steps first).Yields Select.Canonical := by
  refine .bind (fields_yields params steps) fun fields hf => .after fun t => ?_
  split
  · refine .bind (sources_yields steps) fun sources hs => ?_
    refine .bind (condition?_yields params steps) fun condition hc => ?_
    dsimp only
    split
    · next hv => exact .pure ⟨hf, hs, hc, rfl, hv⟩
    · exact .failAt
  · exact .unexpected

theorem statement_yields_canonical (params : Params) (steps : Nat) :
    (statement params steps).Yields Statement.Canonical := by
  refine .after fun t => ?_
  split
  · exact .bind (select_yields_canonical params steps t) fun s hs => .pure hs
  · exact .unexpected

/-- **Every query that is read is canonical.** -/
theorem query_yields_canonical (params : Params) (steps : Nat) :
    (query params steps).Yields Query.Canonical := by
  refine .loop (ψ := fun s => Query.Canonical ⟨s.statements⟩) (fun s hs => .after fun t => ?_) steps
    (by simp [Query.Canonical])
  split
  · exact .pure hs
  · exact .pure hs
  · split
    · exact .after fun _ => .bind (statement_yields_canonical params steps) fun x hx =>
        .pure (forall_mem_snoc hs hx)
    · exact .unexpected

end Grammar

end InfluxQL
