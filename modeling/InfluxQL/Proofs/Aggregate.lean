import InfluxQL.Grammar.Query
import InfluxQL.Proofs.Syntax.Equality
import InfluxQL.Proofs.Syntax.Tree
import Mathlib.Data.List.Basic

/-!
# What the check of aggregates means

The check walks through the fields, and does not enter the aggregate calls that it meets. So it is about
the *exposed* expressions, those that stand in no aggregate call.

* `Occurrence`, `Expr.occurrences`: an expression, and all below it, each with those that it stands in;
* `Expr.exposed`: the exposed ones among them;
* `Aggregate.Accepts`, `Aggregate.Faulty`: which arguments an aggregate takes, and what is wrong with
  others;
* `Expr.usage_eq_foldlM`: the walk looks at one exposed expression after the other;
* `Aggregate.Verdict`: what is to be said of the exposed expressions.

Main results: `Select.validate_eq_iff`, which says what the check answers, and `Select.accepts_or_nested`,
which says what may be relied on when it is passed.
-/

namespace InfluxQL

/-- An expression, and those that it stands in, the nearest first. -/
structure Occurrence where
  expr : Expr
  outer : List Expr

namespace Expr

/-! ### Occurrences -/

mutual

/-- An expression that stands in those of `outer`, and all below it, parents first and left to right. -/
def occurrences (outer : List Expr) : Expr → List Occurrence
  | atom a => [⟨atom a, outer⟩]
  | call name args => ⟨call name args, outer⟩ :: occurrencesAll (call name args :: outer) args
  | binary op l r => ⟨binary op l r, outer⟩ ::
      (occurrences (binary op l r :: outer) l ++ occurrences (binary op l r :: outer) r)
  | paren e => ⟨paren e, outer⟩ :: occurrences (paren e :: outer) e

/-- The expressions of a list that stand in those of `outer`, and all below them. -/
def occurrencesAll (outer : List Expr) : List Expr → List Occurrence
  | [] => []
  | e :: rest => occurrences outer e ++ occurrencesAll outer rest

end

theorem occurrencesAll_eq_flatMap (outer es : List Expr) :
    occurrencesAll outer es = es.flatMap (occurrences outer) := by
  induction es with
  | nil => rfl
  | cons e rest ih => rw [occurrencesAll, ih, List.flatMap_cons]

/-- All expressions below another one occur, in the order of the text. -/
theorem map_expr_occurrences (outer : List Expr) (e : Expr) :
    (e.occurrences outer).map Occurrence.expr = e.preorder := by
  induction e generalizing outer with
  | atom a => rfl
  | call name args ih =>
    rw [occurrences, preorder, occurrencesAll_eq_flatMap, preorderAll_eq_flatMap, List.map_cons,
      List.map_flatMap]
    exact congrArg _ (List.flatMap_congr fun e he => ih e he _)
  | binary op l r ihl ihr => rw [occurrences, preorder, List.map_cons, List.map_append, ihl, ihr]
  | paren e ih => rw [occurrences, preorder, List.map_cons, ih]

/-- What an expression stands in, all below it stand in. -/
theorem subset_outer {outer : List Expr} {e : Expr} {o : Occurrence}
    (h : o ∈ e.occurrences outer) : outer ⊆ o.outer := by
  induction e generalizing outer with
  | atom a =>
    rw [occurrences, List.mem_singleton] at h
    exact h ▸ List.Subset.refl _
  | call name args ih =>
    rw [occurrences, occurrencesAll_eq_flatMap, List.mem_cons, List.mem_flatMap] at h
    rcases h with rfl | ⟨e, he, h⟩
    · exact List.Subset.refl _
    · exact List.subset_of_cons_subset (ih e he h)
  | binary op l r ihl ihr =>
    rw [occurrences, List.mem_cons, List.mem_append] at h
    rcases h with rfl | h | h
    · exact List.Subset.refl _
    · exact List.subset_of_cons_subset (ihl h)
    · exact List.subset_of_cons_subset (ihr h)
  | paren e ih =>
    rw [occurrences, List.mem_cons] at h
    rcases h with rfl | h
    · exact List.Subset.refl _
    · exact List.subset_of_cons_subset (ih h)

/-- Is the expression itself a call of an aggregate? -/
def isAggregateCall : Expr → Bool
  | call name _ => isAggregate name
  | _ => false

end Expr

/-- Does the expression stand in no aggregate call? -/
def Occurrence.isExposed (o : Occurrence) : Bool :=
  o.outer.all (!·.isAggregateCall)

namespace Expr

/-! ### Exposed expressions -/

/-- Of an expression that stands in those of `outer`, and all below it, those that stand in no aggregate
call. -/
def exposed (outer : List Expr) (e : Expr) : List Expr :=
  ((e.occurrences outer).filter Occurrence.isExposed).map Occurrence.expr

theorem exposed_sublist (outer : List Expr) (e : Expr) : (e.exposed outer).Sublist e.preorder := by
  rw [← map_expr_occurrences outer]
  exact List.filter_sublist.map _

/-- Nothing that stands in an aggregate call is exposed. -/
theorem exposed_of_mem {outer : List Expr} {x : Expr} (hx : x ∈ outer) (ha : x.isAggregateCall)
    (e : Expr) : e.exposed outer = [] := by
  rw [exposed, List.map_eq_nil_iff, List.filter_eq_nil_iff]
  intro o ho hexp
  have h := List.all_eq_true.1 hexp x (subset_outer ho hx)
  rw [ha] at h
  cases h

section Exposed

variable {outer : List Expr} (h : ∀ x ∈ outer, x.isAggregateCall = false)

include h

theorem isExposed_mk (e : Expr) : Occurrence.isExposed ⟨e, outer⟩ := by
  simpa [Occurrence.isExposed] using h

theorem exposed_atom (a : Atom) : (atom a).exposed outer = [atom a] := by
  simp [exposed, occurrences, isExposed_mk h]

theorem exposed_call (name : String) (args : List Expr) : (call name args).exposed outer =
    call name args :: if isAggregate name then []
      else args.flatMap (exposed (call name args :: outer)) := by
  rw [exposed, occurrences, occurrencesAll_eq_flatMap, List.filter_cons_of_pos (isExposed_mk h _),
    List.map_cons, List.filter_flatMap, List.map_flatMap]
  split
  · next ha =>
    have hcall : (call name args).isAggregateCall := ha
    exact congrArg _ (List.flatMap_eq_nil_iff.2 fun e _ =>
      exposed_of_mem List.mem_cons_self hcall e)
  · rfl

theorem exposed_binary (op : Operator) (l r : Expr) : (binary op l r).exposed outer =
    binary op l r :: (l.exposed (binary op l r :: outer) ++ r.exposed (binary op l r :: outer)) := by
  simp [exposed, occurrences, isExposed_mk h]

theorem exposed_paren (e : Expr) :
    (paren e).exposed outer = paren e :: e.exposed (paren e :: outer) := by
  simp [exposed, occurrences, isExposed_mk h]

end Exposed

/-- The expression is in the list, or stands in an argument of an aggregate call of the list. -/
def Covered (es : List Expr) (x : Expr) : Prop :=
  x ∈ es ∨ ∃ name args, call name args ∈ es ∧ isAggregate name ∧ ∃ a ∈ args, x ∈ a.preorder

theorem Covered.mono {es es' : List Expr} {x : Expr} (h : Covered es x) (hsub : es ⊆ es') :
    Covered es' x :=
  h.imp (hsub ·) fun ⟨name, args, hm, hrest⟩ => ⟨name, args, hsub hm, hrest⟩

/-- What is not exposed stands in an argument of an aggregate call that is. -/
theorem covered_of_mem {outer : List Expr} (h : ∀ x ∈ outer, x.isAggregateCall = false)
    {e x : Expr} (hx : x ∈ e.preorder) : Covered (e.exposed outer) x := by
  induction e generalizing outer with
  | atom a =>
    rw [exposed_atom h]
    exact .inl hx
  | call name args ih =>
    rw [preorder, preorderAll_eq_flatMap, List.mem_cons, List.mem_flatMap] at hx
    rw [exposed_call h]
    rcases hx with rfl | ⟨a, ha, hx⟩
    · exact .inl List.mem_cons_self
    · split
      · next hname => exact .inr ⟨name, args, List.mem_cons_self, hname, a, ha, hx⟩
      · next hname =>
        have hcall : ∀ x ∈ call name args :: outer, x.isAggregateCall = false :=
          List.forall_mem_cons.2 ⟨Bool.eq_false_iff.2 hname, h⟩
        refine (ih a ha hcall hx).mono fun y hy => List.mem_cons_of_mem _ ?_
        exact List.mem_flatMap.2 ⟨a, ha, hy⟩
  | binary op l r ihl ihr =>
    have hbin : ∀ x ∈ binary op l r :: outer, x.isAggregateCall = false :=
      List.forall_mem_cons.2 ⟨rfl, h⟩
    rw [preorder, List.mem_cons, List.mem_append] at hx
    rw [exposed_binary h]
    rcases hx with rfl | hx | hx
    · exact .inl List.mem_cons_self
    · exact (ihl hbin hx).mono fun y hy => List.mem_cons_of_mem _ (List.mem_append_left _ hy)
    · exact (ihr hbin hx).mono fun y hy => List.mem_cons_of_mem _ (List.mem_append_right _ hy)
  | paren e ih =>
    have hparen : ∀ x ∈ paren e :: outer, x.isAggregateCall = false :=
      List.forall_mem_cons.2 ⟨rfl, h⟩
    rw [preorder, List.mem_cons] at hx
    rw [exposed_paren h]
    rcases hx with rfl | hx
    · exact .inl List.mem_cons_self
    · exact (ih hparen hx).mono fun y hy => List.mem_cons_of_mem _ hy

theorem isNumeral_iff {e : Expr} :
    e.isNumeral ↔ (∃ x, e = atom (.number x)) ∨ ∃ n, e = atom (.integer n) := by
  unfold isNumeral
  split <;> simp_all

end Expr

namespace Aggregate

/-! ### Arguments -/

/-- The aggregate takes these arguments. -/
inductive Accepts : String → List Expr → Prop
  | single {name : String} (other : name ≠ "percentile") (e : Expr) : Accepts name [e]
  | number (e : Expr) (x : Double) : Accepts "percentile" [e, .atom (.number x)]
  | integer (e : Expr) (n : Int64) : Accepts "percentile" [e, .atom (.integer n)]

/-- This is wrong with the arguments of the aggregate. -/
inductive Faulty : String → List Expr → SemanticError → Prop
  | single {name : String} {args : List Expr} (other : name ≠ "percentile")
      (count : args.length ≠ 1) : Faulty name args (.argumentCount name 1 args.length)
  | count {args : List Expr} (count : args.length ≠ 2) :
      Faulty "percentile" args (.argumentCount "percentile" 2 args.length)
  | numeral {e p : Expr} (number : ∀ x, p ≠ .atom (.number x))
      (integer : ∀ n, p ≠ .atom (.integer n)) : Faulty "percentile" [e, p] .percentileArgument

section Arguments

variable {name : String} {args : List Expr} {fault fault' : SemanticError}

theorem argumentFault?_cases (name : String) (args : List Expr) :
    argumentFault? name args = none ∧ Accepts name args ∨
      ∃ fault, argumentFault? name args = some fault ∧ Faulty name args fault := by
  unfold argumentFault?
  split
  · next hn =>
    subst hn
    split
    · next e p =>
      split
      · next hp =>
        rcases Expr.isNumeral_iff.1 hp with ⟨x, rfl⟩ | ⟨n, rfl⟩
        · exact .inl ⟨rfl, .number e x⟩
        · exact .inl ⟨rfl, .integer e n⟩
      · next hp =>
        rw [Expr.isNumeral_iff, not_or, not_exists, not_exists] at hp
        exact .inr ⟨_, rfl, .numeral hp.1 hp.2⟩
    · next hargs =>
      refine .inr ⟨_, rfl, .count fun hlen => ?_⟩
      obtain ⟨e, p, rfl⟩ := List.length_eq_two.1 hlen
      exact hargs e p rfl
  · next hn =>
    split
    · next hlen =>
      obtain ⟨e, rfl⟩ := List.length_eq_one_iff.1 hlen
      exact .inl ⟨rfl, .single hn e⟩
    · next hlen => exact .inr ⟨_, rfl, .single hn hlen⟩

theorem Faulty.not_accepts (h : Faulty name args fault) : ¬Accepts name args := by
  intro ha
  cases ha with
  | single other e =>
    cases h with
    | single _ count => exact count rfl
    | count _ => exact other rfl
  | number e x =>
    cases h with
    | single other _ => exact other rfl
    | count count => exact count rfl
    | numeral number _ => exact number x rfl
  | integer e n =>
    cases h with
    | single other _ => exact other rfl
    | count count => exact count rfl
    | numeral _ integer => exact integer n rfl

theorem Faulty.unique (h : Faulty name args fault) (h' : Faulty name args fault') :
    fault = fault' := by
  cases h <;> cases h' <;> simp_all

theorem argumentFault?_eq_none_iff : argumentFault? name args = none ↔ Accepts name args := by
  rcases argumentFault?_cases name args with ⟨hn, ha⟩ | ⟨fault, hs, hf⟩
  · exact iff_of_true hn ha
  · exact iff_of_false (by simp [hs]) hf.not_accepts

theorem argumentFault?_eq_some_iff :
    argumentFault? name args = some fault ↔ Faulty name args fault := by
  rcases argumentFault?_cases name args with ⟨hn, ha⟩ | ⟨fault', hs, hf⟩
  · exact iff_of_false (by simp [hn]) fun hf => hf.not_accepts ha
  · rw [hs, Option.some_inj]
    exact ⟨fun h => h ▸ hf, hf.unique⟩

end Arguments

/-! ### The verdict -/

/-- All aggregate calls of a list have arguments that they take. -/
def Accepted (es : List Expr) : Prop :=
  ∀ name args, .call name args ∈ es → isAggregate name → Accepts name args

/-- There is an aggregate call in a list. -/
def HasAggregate (es : List Expr) : Prop :=
  ∃ name args, .call name args ∈ es ∧ isAggregate name

/-- There is a reference in a list. -/
def HasReference (es : List Expr) : Prop :=
  ∃ v, .atom (.var v) ∈ es

/-- What is to be said of exposed expressions: the fault in the arguments of the first aggregate call
that has one, or else that there is a mixture, or nothing. -/
inductive Verdict (es : List Expr) : Except SemanticError Unit → Prop
  | faulty {before after args : List Expr} {name : String} {fault : SemanticError}
      (first : es = before ++ .call name args :: after) (aggregate : isAggregate name)
      (earlier : Accepted before) (faulty : Faulty name args fault) : Verdict es (.error fault)
  | mixed (accepted : Accepted es) (aggregate : HasAggregate es) (reference : HasReference es) :
      Verdict es (.error .mixedAggregates)
  | valid (accepted : Accepted es) (apart : ¬(HasAggregate es ∧ HasReference es)) :
      Verdict es (.ok ())

section Verdict

variable {e : Expr} {es : List Expr}

theorem accepted_cons : Accepted (e :: es) ↔ Accepted [e] ∧ Accepted es := by
  simp only [Accepted, List.mem_cons, List.not_mem_nil, or_false, or_imp, forall_and]

theorem hasAggregate_cons : HasAggregate (e :: es) ↔ HasAggregate [e] ∨ HasAggregate es := by
  simp only [HasAggregate, List.mem_cons, List.not_mem_nil, or_false, or_and_right, exists_or]

theorem hasReference_cons : HasReference (e :: es) ↔ HasReference [e] ∨ HasReference es := by
  simp only [HasReference, List.mem_cons, List.not_mem_nil, or_false, exists_or]

theorem accepted_or_faulty (es : List Expr) : Accepted es ∨
    ∃ before name args after fault, es = before ++ .call name args :: after ∧ isAggregate name ∧
      Accepted before ∧ Faulty name args fault := by
  induction es with
  | nil => exact .inl fun name args h => absurd h List.not_mem_nil
  | cons e es ih =>
    by_cases he : Accepted [e]
    · rcases ih with h | ⟨before, name, args, after, fault, rfl, ha, hb, hf⟩
      · exact .inl (accepted_cons.2 ⟨he, h⟩)
      · exact .inr ⟨e :: before, name, args, after, fault, rfl, ha, accepted_cons.2 ⟨he, hb⟩, hf⟩
    · simp only [Accepted, List.mem_singleton, not_forall] at he
      obtain ⟨name, args, rfl, ha, hn⟩ := he
      rcases argumentFault?_cases name args with ⟨-, h⟩ | ⟨fault, -, hf⟩
      · exact absurd h hn
      · exact .inr ⟨[], name, args, es, fault, rfl, ha, fun _ _ h => absurd h List.not_mem_nil, hf⟩

theorem exists_verdict (es : List Expr) : ∃ r, Verdict es r := by
  rcases accepted_or_faulty es with h | ⟨before, name, args, after, fault, hes, ha, hb, hf⟩
  · by_cases hm : HasAggregate es ∧ HasReference es
    · exact ⟨_, .mixed h hm.1 hm.2⟩
    · exact ⟨_, .valid h hm⟩
  · exact ⟨_, .faulty hes ha hb hf⟩

end Verdict

end Aggregate

open Aggregate

/-! ### The walk -/

/-- What has been seen after one more exposed expression. -/
def Usage.step (u : Usage) : Expr → Except SemanticError Usage
  | .atom (.var _) => .ok { u with reference := true }
  | .call name args =>
    if isAggregate name then
      match argumentFault? name args with
      | some fault => .error fault
      | none => .ok { u with aggregate := true }
    else .ok u
  | _ => .ok u

namespace Expr

theorem usageAll_eq_foldlM (u : Usage) {es : List Expr} {f : Expr → List Expr}
    (h : ∀ e ∈ es, ∀ u : Usage, e.usage u = (f e).foldlM Usage.step u) :
    usageAll u es = (es.flatMap f).foldlM Usage.step u := by
  induction es generalizing u with
  | nil => rfl
  | cons e rest ih =>
    rw [List.forall_mem_cons] at h
    rw [usageAll, List.flatMap_cons, List.foldlM_append, h.1 u]
    cases (f e).foldlM Usage.step u with
    | error fault => rfl
    | ok u => exact ih u h.2

/-- **The walk looks at one exposed expression after the other.** -/
theorem usage_eq_foldlM {outer : List Expr} (h : ∀ x ∈ outer, x.isAggregateCall = false) (e : Expr)
    (u : Usage) : e.usage u = (e.exposed outer).foldlM Usage.step u := by
  induction e generalizing outer u with
  | atom a =>
    rw [exposed_atom h]
    cases a <;> rfl
  | call name args ih =>
    rw [exposed_call h, usage, List.foldlM_cons, Usage.step]
    split
    · cases argumentFault? name args <;> rfl
    · next ha =>
      have hcall : ∀ x ∈ call name args :: outer, x.isAggregateCall = false :=
        List.forall_mem_cons.2 ⟨Bool.eq_false_iff.2 ha, h⟩
      exact usageAll_eq_foldlM u fun e he u => ih e he hcall u
  | binary op l r ihl ihr =>
    have hbin : ∀ x ∈ binary op l r :: outer, x.isAggregateCall = false :=
      List.forall_mem_cons.2 ⟨rfl, h⟩
    rw [exposed_binary h, usage, ihl hbin, List.foldlM_cons]
    change _ = List.foldlM Usage.step u _
    rw [List.foldlM_append]
    cases (l.exposed (binary op l r :: outer)).foldlM Usage.step u with
    | error fault => rfl
    | ok u => exact ihr hbin u
  | paren e ih =>
    have hparen : ∀ x ∈ paren e :: outer, x.isAggregateCall = false :=
      List.forall_mem_cons.2 ⟨rfl, h⟩
    rw [exposed_paren h, usage, ih hparen]
    rfl

end Expr

/-- What has been seen after the expressions of a list. -/
structure Usage.Sees (es : List Expr) (u u' : Usage) : Prop where
  aggregate_iff : u'.aggregate ↔ u.aggregate ∨ HasAggregate es
  reference_iff : u'.reference ↔ u.reference ∨ HasReference es

namespace Usage

theorem step_of_accepted {e : Expr} (h : Accepted [e]) (u : Usage) :
    ∃ u', u.step e = .ok u' ∧ Sees [e] u u' := by
  unfold step
  split
  · exact ⟨_, rfl, by simp [HasAggregate], by simp [HasReference]⟩
  · next name args =>
    split
    · next ha =>
      rw [argumentFault?_eq_none_iff.2 (h name args List.mem_cons_self ha)]
      refine ⟨_, rfl, ?_, by simp [HasReference]⟩
      simpa using .inr ⟨name, args, List.mem_cons_self, ha⟩
    · next ha => exact ⟨_, rfl, by simp [HasAggregate, ha], by simp [HasReference]⟩
  · next hv hc =>
    have hagg : ¬HasAggregate [e] := by
      rintro ⟨name, args, hm, -⟩
      exact hc name args (List.mem_singleton.1 hm).symm
    have href : ¬HasReference [e] := by
      rintro ⟨v, hm⟩
      exact hv v (List.mem_singleton.1 hm).symm
    exact ⟨_, rfl, by simp [hagg], by simp [href]⟩

theorem foldlM_step_of_accepted {es : List Expr} (h : Accepted es) (u : Usage) :
    ∃ u', es.foldlM step u = .ok u' ∧ Sees es u u' := by
  induction es generalizing u with
  | nil => exact ⟨u, rfl, by simp [HasAggregate], by simp [HasReference]⟩
  | cons e es ih =>
    obtain ⟨he, hes⟩ := accepted_cons.1 h
    obtain ⟨u₁, h₁, hs₁⟩ := step_of_accepted he u
    obtain ⟨u₂, h₂, hs₂⟩ := ih hes u₁
    refine ⟨u₂, ?_, ?_, ?_⟩
    · rw [List.foldlM_cons, h₁]
      exact h₂
    · rw [hasAggregate_cons, hs₂.aggregate_iff, hs₁.aggregate_iff, or_assoc]
    · rw [hasReference_cons, hs₂.reference_iff, hs₁.reference_iff, or_assoc]

/-- The walk ends at the first fault. -/
theorem foldlM_step_of_faulty {before after args : List Expr} {name : String}
    {fault : SemanticError} (ha : isAggregate name) (hb : Accepted before)
    (hf : Faulty name args fault) (u : Usage) :
    (before ++ .call name args :: after).foldlM step u = .error fault := by
  obtain ⟨u', hu, -⟩ := foldlM_step_of_accepted hb u
  have hstep : u'.step (.call name args) = .error fault := by
    rw [step, if_pos ha, argumentFault?_eq_some_iff.2 hf]
  rw [List.foldlM_append, hu]
  change List.foldlM step u' _ = _
  rw [List.foldlM_cons, hstep]
  rfl

end Usage

/-! ### Statements -/

namespace Select

/-- The exposed expressions of the fields, in the order of the text. -/
def exposed (s : Select) : List Expr :=
  s.fields.flatMap fun f => f.expr.exposed []

theorem usageAll_eq_foldlM (s : Select) (u : Usage) :
    Expr.usageAll u (s.fields.map Field.expr) = s.exposed.foldlM Usage.step u := by
  have h : ∀ e : Expr, ∀ u : Usage, e.usage u = (e.exposed []).foldlM Usage.step u :=
    Expr.usage_eq_foldlM (List.forall_mem_nil _)
  rw [Expr.usageAll_eq_foldlM u fun e _ => h e, List.flatMap_map]
  rfl

theorem validate_of_verdict {s : Select} {r : Except SemanticError Unit}
    (h : Verdict s.exposed r) : s.validate = r := by
  rw [validate, usageAll_eq_foldlM]
  cases h with
  | faulty first aggregate earlier faulty =>
    rw [first, Usage.foldlM_step_of_faulty aggregate earlier faulty]
  | mixed accepted aggregate reference =>
    obtain ⟨u, hu, hs⟩ := Usage.foldlM_step_of_accepted accepted ⟨false, false⟩
    have ha : u.aggregate := hs.aggregate_iff.2 (.inr aggregate)
    have hr : u.reference := hs.reference_iff.2 (.inr reference)
    rw [hu]
    simp [ha, hr]
  | valid accepted apart =>
    obtain ⟨u, hu, hs⟩ := Usage.foldlM_step_of_accepted accepted ⟨false, false⟩
    have hn : (u.aggregate && u.reference) = false := by
      simpa [← Bool.not_eq_true, hs.aggregate_iff, hs.reference_iff] using apart
    rw [hu]
    simp [hn]

theorem verdict_validate (s : Select) : Verdict s.exposed s.validate := by
  obtain ⟨r, hr⟩ := exists_verdict s.exposed
  rwa [validate_of_verdict hr]

/-- **What the check of aggregates answers.** The answer is the verdict on the exposed expressions of the
fields, and depends on nothing else in the statement. -/
theorem validate_eq_iff (s : Select) : (∀ r, s.validate = r ↔ Verdict s.exposed r) ∧
    ∀ s' : Select, s'.fields.map Field.expr = s.fields.map Field.expr → s'.validate = s.validate := by
  refine ⟨fun r => ⟨fun h => h ▸ s.verdict_validate, validate_of_verdict⟩, fun s' h => ?_⟩
  rw [validate, validate, h]

/-- The first fault is in the second field, behind a reference and before another fault. -/
theorem validate_eq_iff_count :
    let a : Expr := .atom (.var ⟨"a", .unknown⟩)
    let b : Expr := .atom (.var ⟨"b", .unknown⟩)
    let count : Expr := .paren (.call "count" [b, .call "max" []])
    let es : List Expr := [.call "abs" [a], .binary .add count (.call "sum" [])]
    let s : Select := ⟨es.map (⟨·, none⟩), [.measurement (.named "cpu")], none, false⟩
    let s' : Select := ⟨es.map (⟨·, some "x"⟩), [], some a, true⟩
    let fault := Except.error (.argumentCount "count" 1 2)
    s'.fields.map Field.expr = s.fields.map Field.expr ∧
      (s.validate = fault ↔ Verdict s.exposed fault) ∧ s'.validate = s.validate ∧
      s.validate = fault := by
  intro a b count es s s' fault
  have hfields : s'.fields.map Field.expr = s.fields.map Field.expr := rfl
  exact ⟨hfields, (validate_eq_iff s).1 fault, (validate_eq_iff s).2 s' hfields, by decide +kernel⟩

/-- **What may be relied on in a statement that has passed the check.** Each aggregate call in its fields
has arguments that it takes, or else stands in an argument of another one that has. -/
theorem accepts_or_nested {s : Select} (h : s.validate = .ok ()) : ∀ f ∈ s.fields, ∀ name args,
    .call name args ∈ f.expr.preorder → isAggregate name → Accepts name args ∨
      ∃ name' args', .call name' args' ∈ f.expr.preorder ∧ isAggregate name' ∧
        Accepts name' args' ∧ ∃ a ∈ args', .call name args ∈ a.preorder := by
  intro f hf name args hm ha
  have hverdict : Verdict s.exposed (.ok ()) := h ▸ s.verdict_validate
  have haccepted : Accepted (f.expr.exposed []) := by
    cases hverdict with
    | valid accepted _ =>
      exact fun n as hn => accepted n as (List.mem_flatMap.2 ⟨f, hf, hn⟩)
  rcases Expr.covered_of_mem (List.forall_mem_nil _) hm with hx | ⟨name', args', hx, ha', harg⟩
  · exact .inl (haccepted name args hx ha)
  · have hm' := (Expr.exposed_sublist _ _).mem hx
    exact .inr ⟨name', args', hm', ha', haccepted name' args' hx ha', harg⟩

/-- Two aggregate calls in one expression, and another one in one of them. -/
theorem accepts_or_nested_percentile :
    let a : Expr := .atom (.var ⟨"a", .unknown⟩)
    let e : Expr := .binary .div (.call "percentile" [.call "max" [], .atom (.integer 90)])
      (.call "abs" [.call "sum" [a]])
    let s : Select := ⟨[⟨e, none⟩], [.measurement (.named "cpu")], none, false⟩
    s.validate = .ok () ∧ ∀ f ∈ s.fields, ∀ name args,
      .call name args ∈ f.expr.preorder → isAggregate name → Accepts name args ∨
        ∃ name' args', .call name' args' ∈ f.expr.preorder ∧ isAggregate name' ∧
          Accepts name' args' ∧ ∃ a ∈ args', .call name args ∈ a.preorder := by
  intro a e s
  have h : s.validate = .ok () := by
    decide +kernel
  exact ⟨h, accepts_or_nested h⟩

/-- Within an aggregate call, an aggregate with too many arguments passes the check, and is parsed. -/
theorem accepts_or_nested_count :
    let source := "SELECT mean(count(a, b)) FROM cpu"
    let args : List Expr := [.atom (.var ⟨"a", .unknown⟩), .atom (.var ⟨"b", .unknown⟩)]
    let f : Field := ⟨.call "mean" [.call "count" args], none⟩
    let s : Select := ⟨[f], [.measurement (.named "cpu")], none, false⟩
    parseStatement source .empty = .ok (.select s) ∧ s.validate = .ok () ∧
      .call "count" args ∈ f.expr.preorder ∧ isAggregate "count" ∧ ¬Accepts "count" args := by
  intro source args f s
  have hmem : .call "count" args ∈ f.expr.preorder := List.mem_cons_of_mem _ List.mem_cons_self
  have hfault : Faulty "count" args (.argumentCount "count" 1 2) := .single (by decide) (by decide)
  exact ⟨by decide +kernel, by decide +kernel, hmem, by decide +kernel, hfault.not_accepts⟩

end Select

end InfluxQL
