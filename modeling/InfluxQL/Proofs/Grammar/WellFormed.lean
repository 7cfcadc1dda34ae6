import InfluxQL.Proofs.Grammar.QueryYield
import InfluxQL.Proofs.Syntax.Traversal

/-!
# What every parsed statement satisfies

Whoever works on a parsed statement may rely on what the grammar has checked. A statement is
`Select.WellFormed` if

* it has fields and sources;
* the operators in its fields are the arithmetic ones, at any depth;
* it is marked as raw exactly if there is no call in its fields;
* each measurement is given either by name or by pattern, and by a retention policy if by a
  database;
* the names of its calls are in lower case;
* its aggregates are in order.

Main result: `parseQuery_wellFormed`.
-/

namespace InfluxQL

/-- The operators that compute a number from two. -/
def Operator.arithmetic : List Operator :=
  [.add, .sub, .mul, .div]

theorem Operator.mem_arithmetic {op : Operator} : op ∈ arithmetic ↔ op.isCondition = false := by
  cases op <;> decide

namespace Expr

theorem firstCondition?_eq_none_iff {e : Expr} :
    e.firstCondition? = none ↔ ∀ op l r, binary op l r ∈ e.preorder → op ∈ Operator.arithmetic := by
  rw [firstCondition?_eq, List.findSome?_eq_none_iff]
  constructor
  · intro h op l r hm
    have hop := h _ hm
    rw [Operator.mem_arithmetic]
    simpa [ownCondition?] using hop
  · intro h x hx
    cases x with
    | binary op l r =>
      have hop := Operator.mem_arithmetic.1 (h op l r hx)
      simp [ownCondition?, hop]
    | _ => rfl

theorem containsCall_eq_false_iff {e : Expr} :
    e.containsCall = false ↔ ∀ name args, call name args ∉ e.preorder := by
  rw [containsCall_eq, List.any_eq_false]
  constructor
  · exact fun h name args hm => h _ hm rfl
  · intro h x hx
    cases x with
    | call name args => exact absurd hx (h name args)
    | _ => simp [isCall]

end Expr

/-- The measurement is given either by name or by pattern, and in a database only with a retention
policy, which may be empty. -/
structure Measurement.WellFormed (m : Measurement) : Prop where
  nameOrRegex : (m.name.isSome ∧ m.regex = none) ∨ (m.name = none ∧ m.regex.isSome)
  policyOfDatabase : m.database.isSome → m.retentionPolicy.isSome

theorem Measurement.Canonical.wellFormed [PatternCompiler] {m : Measurement} (h : m.Canonical) :
    m.WellFormed := by
  cases h <;> exact ⟨by simp, by simp⟩

/-- What those who work on a parsed statement may rely on. -/
structure Select.WellFormed (s : Select) : Prop where
  hasFields : s.fields ≠ []
  hasSources : s.sources ≠ []
  arithmeticFields : ∀ f ∈ s.fields, ∀ op l r,
    .binary op l r ∈ f.expr.preorder → op ∈ Operator.arithmetic
  isRaw_iff : s.isRaw ↔ ∀ f ∈ s.fields, ∀ name args, .call name args ∉ f.expr.preorder
  measurements : ∀ m, .measurement m ∈ s.sources → m.WellFormed
  lowerCaseCalls : ∀ e ∈ s.roots, ∀ name args, .call name args ∈ e.preorder →
    Unicode.lowercase name.toList = name.toList
  valid : s.validate = .ok ()

theorem Select.Canonical.wellFormed [PatternCompiler] {s : Select} (h : s.Canonical) : s.WellFormed := by
  obtain ⟨hfields, hf⟩ := h.fields
  obtain ⟨hsources, hx⟩ := h.sources
  have hroots : ∀ e ∈ s.roots, e.Canonical := by
    rw [roots, List.forall_mem_append, List.forall_mem_map]
    exact ⟨fun f hm => (hf f hm).expr, fun e hm => h.condition e (Option.mem_toList.1 hm)⟩
  refine ⟨hfields, hsources, ?_, ?_, ?_, ?_, h.valid⟩
  · exact fun f hm => Expr.firstCondition?_eq_none_iff.1 (hf f hm).noCondition
  · simp only [h.isRaw, Bool.not_eq_true', List.any_eq_false, Bool.not_eq_true,
      Expr.containsCall_eq_false_iff]
  · exact fun m hm => Measurement.Canonical.wellFormed (hx _ hm)
  · intro e he name args hm
    exact ((hroots e he).regular _ hm).lowerCaseCall

/-- **What every parsed statement satisfies.** Every statement of a query that is read from any
text, with whatever parameters, is well-formed. -/
theorem parseQuery_wellFormed [PatternCompiler] {source : String} {params : Params} {q : Query}
    (h : parseQuery source params = .ok q) :
    ∀ s, .select s ∈ q.statements → s.WellFormed := by
  have hq : q.Canonical := (Grammar.query_yields_canonical _ _).run h
  exact fun s hs => Select.Canonical.wellFormed (hq _ hs)

/-- A call in parentheses with its name in capitals, and a pattern in a database. -/
theorem parseQuery_wellFormed_call :
    let source := "SELECT (MAX(v)) FROM d../x/"
    let s : Select := ⟨[⟨.paren (.call "max" [.atom (.var ⟨"v", .unknown⟩)]), none⟩],
      [.measurement ⟨some "d", some "", none, some "x"⟩], none, false⟩
    parseQuery source .empty = .ok ⟨[.select s]⟩ ∧ s.WellFormed := by
  intro source s
  have h : parseQuery source .empty = .ok ⟨[.select s]⟩ := by
    cbv
  exact ⟨h, parseQuery_wellFormed h s (List.mem_singleton.2 rfl)⟩

end InfluxQL
