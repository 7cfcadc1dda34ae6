import InfluxQL.Proofs.Grammar.Trace
import InfluxQL.Proofs.Syntax.Template
import InfluxQL.Proofs.Token.Parameter

/-!
# Runs for values of the same sorts

A production is run for all parameters with values of the same sorts. Either all runs fail with one
error, or else all read one template, and each fills it from its own parameters. A run takes the tokens
of parameters one after the other, and these leave the holes of the template in this order.

* `Event.hole?`, `holesOf`: the holes for the parameters that are taken;
* `Production.Uniform`: the runs fail alike or read one template;
* `Production.Trace.Uniform`, `Production.Held.Uniform`: they do so from every stream on, with one rule
  for each step and for each way of putting productions together.
-/

namespace InfluxQL

/-! ### Holes -/

/-- The hole for the parameter whose token is taken. -/
def Event.hole? : Event → Option Hole
  | given (.taken _) t => if t.kind = .param then some ⟨t.parameterName, t.span.start⟩ else none
  | _ => none

/-- The holes for the parameters whose tokens are taken. -/
def holesOf (evs : List Event) : List Hole :=
  evs.filterMap Event.hole?

theorem holesOf_append (evs evs' : List Event) : holesOf (evs ++ evs') = holesOf evs ++ holesOf evs' :=
  List.filterMap_append ..

/-- The hole is where the source has a parameter that can be bound. -/
structure Hole.Sound (source : List Char) (p : Params) (h : Hole) : Prop where
  place : ParameterAt source h.name h.offset
  bindable : (p.literal? h.name).isSome

/-- Data without holes. -/
structure Plain (α : Type) where
  value : α

instance {α : Type} : Template (Plain α) α := ⟨fun t _ => t.value, fun _ => []⟩

namespace Template

variable {τ α : Type} [Template τ α]

theorem holes_singleton (t : τ) : holes [t] = holes t :=
  List.append_nil _

theorem holes_snoc (ts : List τ) (t : τ) : holes (ts ++ [t]) = holes ts ++ holes t := by
  simp only [holes, List.flatMap_append, List.flatMap_cons, List.flatMap_nil, List.append_nil]

theorem holes_some (t : τ) : holes (some t) = holes t :=
  List.append_nil _

theorem fill_snoc (ts : List τ) (t : τ) (q : Params) :
    fill ts q ++ [fill t q] = fill (ts ++ [t]) q := by
  simp only [fill, List.map_append, List.map_cons, List.map_nil]

theorem holes_call (name : String) (ts : List ExprTemplate) :
    holes (ExprTemplate.call name ts) = holes ts :=
  ExprTemplate.holesAll_eq_flatMap ts

theorem fill_call (name : String) (ts : List ExprTemplate) (q : Params) :
    fill (ExprTemplate.call name ts) q = .call name (fill ts q) := by
  simp only [fill, ExprTemplate.fill, ExprTemplate.fillAll_eq_map]

end Template

namespace Production

open TokenStream

variable {α β τ υ : Type} [Template τ α] [Template υ β]

section Runs

variable (source : List Char) (σ : Params) (τ : Type) [Template τ α] (held : List Hole)

/-- For all parameters with values of the same sorts as in `σ` the outcome is one error, or else it is
one template, filled from these parameters. Its holes are those that were held before and those for the
parameters that are taken, which can be bound. -/
def Uniform (evs : Params → List Event) (o : Params → Except ParseError (α × TokenStream)) : Prop :=
  (∃ e, ∀ q, σ.SameSorts q → o q = .error e) ∨
  ∃ (t : τ) (read : List Hole) (s' : TokenStream), Template.holes t = held ++ read ∧
    (∀ h ∈ read, h.Sound source σ) ∧ Within source s' ∧
    ∀ q, σ.SameSorts q → o q = .ok (Template.fill t q, s') ∧ holesOf (evs q) = read

/-- From every stream on the runs fail alike or read one template. -/
def Trace.Uniform {p : Params → Production α} (T : ∀ q, Trace (p q)) : Prop :=
  ∀ s, Within source s → Production.Uniform source σ τ held (fun q => (T q).events s) fun q => p q s

/-- The same when the token has just been read. -/
def Held.Uniform {p : Params → Production α} (H : ∀ q, Held (p q)) (t : Token) : Prop :=
  ∀ s, Within source s →
    Production.Uniform source σ τ held (fun q => .given (H q).use t :: (H q).events s) fun q => p q s

end Runs

variable {source : List Char} {σ : Params} {held : List Hole} {p p' : Params → Production α}
  {T : ∀ q, Trace (p q)} {U : ∀ q, Trace (p' q)}

/-- Something happens first, but no parameter is taken. -/
theorem Uniform.cons {evs : Params → List Event} {o : Params → Except ParseError (α × TokenStream)}
    {ev : Params → Event} (hev : ∀ q, (ev q).hole? = none) (h : Uniform source σ τ held evs o) :
    Uniform source σ τ held (fun q => ev q :: evs q) o := by
  refine h.imp_right ?_
  rintro ⟨t, read, s', ht, hread, hs', hq⟩
  refine ⟨t, read, s', ht, hread, hs', fun q hs => ⟨(hq q hs).1, ?_⟩⟩
  rw [← (hq q hs).2]
  exact List.filterMap_cons_none (hev q)

namespace Trace.Uniform

theorem congr (hT : Trace.Uniform source σ τ held T) (h : ∀ q, p q = p' q) :
    Trace.Uniform source σ τ held fun q => (T q).congr (h q) := by
  obtain rfl : p = p' := funext h
  exact hT

/-- Only parameters with values of the same sorts matter. -/
theorem of_eq (hU : Trace.Uniform source σ τ held U) (h : ∀ q, σ.SameSorts q → ∀ s,
    p q s = p' q s ∧ (T q).events s = (U q).events s) : Trace.Uniform source σ τ held T := by
  intro s hs
  rcases hU s hs with ⟨e, he⟩ | ⟨t, read, s', ht, hread, hs', hq⟩
  · exact .inl ⟨e, fun q hsame => (h q hsame s).1.trans (he q hsame)⟩
  · refine .inr ⟨t, read, s', ht, hread, hs', fun q hsame => ?_⟩
    dsimp only
    rw [(h q hsame s).1, (h q hsame s).2]
    exact hq q hsame

theorem pure {f : Params → α} (t : τ) (ht : Template.holes t = held)
    (hf : ∀ q, f q = Template.fill t q) : Trace.Uniform source σ τ held fun q => Trace.pure (f q) :=
  fun s hs => .inr ⟨t, [], s, by rw [ht, List.append_nil], List.forall_mem_nil _, hs,
    fun q _ => ⟨congrArg (fun a => Except.ok (a, s)) (hf q), rfl⟩⟩

theorem fail {e : ParseError} : Trace.Uniform source σ τ held fun _ =>
    (Trace.fail e : Trace (Production.fail e : Production α)) :=
  fun _ _ => .inl ⟨e, fun _ _ => rfl⟩

/-- A production that leaves the stream alone and has nothing to do with parameters. -/
theorem still {p : Production α} {h : ∀ s a s', p s = .ok (a, s') → s' = s} :
    Trace.Uniform source σ (Plain α) [] fun _ => Trace.still h := by
  intro s hs
  cases hp : p s with
  | error e => exact .inl ⟨e, fun _ _ => hp⟩
  | ok r =>
    obtain rfl := h s r.1 r.2 hp
    exact .inr ⟨⟨r.1⟩, [], r.2, rfl, List.forall_mem_nil _, hs, fun _ _ => ⟨hp, rfl⟩⟩

/-- The second production goes on with the holes of the first, and perhaps with others. -/
theorem bind_of_holes {p : Params → Production β} {T : ∀ q, Trace (p q)}
    {f : Params → β → Production α} {U : ∀ q x, Trace (f q x)} {before : List Hole}
    (hT : Trace.Uniform source σ υ before T)
    (hU : ∀ (t : υ) (read : List Hole), Template.holes t = before ++ read →
      Trace.Uniform source σ τ (held ++ read) fun q => U q (Template.fill t q)) :
    Trace.Uniform source σ τ held fun q => (T q).bind (U q) := by
  intro s hs
  rcases hT s hs with ⟨e, he⟩ | ⟨t, read, s', ht, hread, hs', hq⟩
  · refine .inl ⟨e, fun q hsame => ?_⟩
    simp only [Bind.bind, StateT.bind, he q hsame, Except.bind]
  · have hbind (q : Params) (hsame : σ.SameSorts q) :
        (p q >>= f q) s = f q (Template.fill t q) s' := by
      simp only [Bind.bind, StateT.bind, (hq q hsame).1, Except.bind]
    rcases hU t read ht s' hs' with ⟨e, he⟩ | ⟨t', read', s'', ht', hread', hs'', hq'⟩
    · exact .inl ⟨e, fun q hsame => (hbind q hsame).trans (he q hsame)⟩
    · refine .inr ⟨t', read ++ read', s'', by rw [ht', List.append_assoc],
        List.forall_mem_append.2 ⟨hread, hread'⟩, hs'', fun q hsame => ?_⟩
      refine ⟨(hbind q hsame).trans (hq' q hsame).1, ?_⟩
      simp only [Trace.bind, (hq q hsame).1, holesOf_append, (hq q hsame).2, (hq' q hsame).2]

theorem bind {p : Params → Production β} {T : ∀ q, Trace (p q)}
    {f : Params → β → Production α} {U : ∀ q x, Trace (f q x)} (hT : Trace.Uniform source σ υ [] T)
    (hU : ∀ t : υ, Trace.Uniform source σ τ (held ++ Template.holes t) fun q =>
      U q (Template.fill t q)) : Trace.Uniform source σ τ held fun q => (T q).bind (U q) :=
  hT.bind_of_holes fun t read ht => by
    obtain rfl : read = Template.holes t := ht.symm
    exact hU t

/-- The first production has the holes in its hands that are held. -/
theorem onward {p : Params → Production β} {T : ∀ q, Trace (p q)}
    {f : Params → β → Production α} {U : ∀ q x, Trace (f q x)}
    (hT : Trace.Uniform source σ υ held T)
    (hU : ∀ t : υ, Trace.Uniform source σ τ (Template.holes t) fun q => U q (Template.fill t q)) :
    Trace.Uniform source σ τ held fun q => (T q).bind (U q) :=
  hT.bind_of_holes fun t read ht => by
    rw [← ht]
    exact hU t

/-- The first production has nothing to do with parameters. -/
theorem after {p : Params → Production β} {T : ∀ q, Trace (p q)} {f : Params → β → Production α}
    {U : ∀ q x, Trace (f q x)} (hT : Trace.Uniform source σ (Plain β) [] T)
    (hU : ∀ x, Trace.Uniform source σ τ held fun q => U q x) :
    Trace.Uniform source σ τ held fun q => (T q).bind (U q) :=
  hT.bind fun x => by
    rw [show Template.holes x = [] from rfl, List.append_nil]
    exact hU x.value

theorem mark {m : Mark} (hT : Trace.Uniform source σ τ held T) :
    Trace.Uniform source σ τ held fun q => (T q).mark m :=
  fun s hs => (hT s hs).cons fun _ => rfl

/-- A choice that does not depend on values. -/
theorem ite {c : Prop} [Decidable c] (hT : c → Trace.Uniform source σ τ held T)
    (hU : ¬c → Trace.Uniform source σ τ held U) :
    Trace.Uniform source σ τ held fun q =>
      (Trace.ite (T q) (U q) : Trace (if c then p q else p' q)) := by
  by_cases hc : c
  · simp only [Trace.ite, dif_pos hc]
    exact (hT hc).congr fun _ => (if_pos hc).symm
  · simp only [Trace.ite, dif_neg hc]
    exact (hU hc).congr fun _ => (if_neg hc).symm

theorem skipBlank : Trace.Uniform source σ (Plain Unit) [] fun _ => Trace.skipBlank := by
  intro s hs
  refine .inr ⟨⟨()⟩, [], s.skipBlank, rfl, List.forall_mem_nil _, hs.skipBlank, fun _ _ => ⟨rfl, ?_⟩⟩
  refine List.filterMap_cons_none ?_
  by_cases hk : s.scan.1.kind = .blank
  · rw [if_pos hk, Event.hole?, if_neg (by rw [hk]; nofun)]
  · rw [if_neg hk]
    rfl

theorem peek? : Trace.Uniform source σ (Plain (Option Char)) [] fun _ => Trace.peek? :=
  fun s hs => .inr ⟨⟨s.peek?⟩, [], s, rfl, List.forall_mem_nil _, hs, fun _ _ => ⟨rfl, rfl⟩⟩

/-- Reading the next token, which shows where its parameter stands. -/
theorem next {f : Params → Token → Production α} {H : ∀ q t, Held (f q t)}
    (hH : ∀ t, t.IsWithin source → Held.Uniform source σ τ held (fun q => H q t) t) :
    Trace.Uniform source σ τ held fun q => Trace.next (H q) :=
  fun s hs => hH s.scan.1 hs.scan.1 s.scan.2 hs.scan.2

theorem significant {f : Params → Token → Production α} {H : ∀ q t, Held (f q t)}
    (hH : ∀ t, t.IsWithin source → Held.Uniform source σ τ held (fun q => H q t) t) :
    Trace.Uniform source σ τ held fun q => Trace.significant (H q) :=
  .congr (.after skipBlank fun _ => .next hH) fun _ => (scanSignificant_bind _).symm

end Trace.Uniform

namespace Held.Uniform

variable {t : Token}

theorem congr {H : ∀ q, Held (p q)} (hH : Held.Uniform source σ τ held H t) (h : ∀ q, p q = p' q) :
    Held.Uniform source σ τ held (fun q => (H q).congr (h q)) t := by
  obtain rfl : p = p' := funext h
  exact hH

/-- A token that is no parameter is taken. -/
theorem take (ht : t.kind ≠ .param) (hT : Trace.Uniform source σ τ held T) :
    Held.Uniform source σ τ held (fun q => Held.take (T q)) t :=
  fun s hs => (hT s hs).cons fun _ => if_neg ht

/-- A token is taken, and if it is a parameter, then the production fails at once. -/
theorem takeStill {p : Production α} {h : ∀ s a s', p s = .ok (a, s') → s' = s}
    (hp : t.kind = .param → ∀ s, ∃ e, p s = .error e) :
    Held.Uniform source σ (Plain α) [] (fun _ => Held.take (.still h)) t := by
  by_cases ht : t.kind = .param
  · intro s _
    obtain ⟨e, he⟩ := hp ht s
    exact .inl ⟨e, fun _ _ => he⟩
  · exact take ht .still

theorem fail {e : ParseError} : Held.Uniform source σ τ held (fun _ =>
    (Held.take (.fail e) : Held (Production.fail e : Production α))) t :=
  fun _ _ => .inl ⟨e, fun _ _ => rfl⟩

theorem putBack (hT : Trace.Uniform source σ τ held T) :
    Held.Uniform source σ τ held (fun q => Held.putBack (T q)) t :=
  fun s hs => (hT s.unscan hs.unscan).cons fun _ => rfl

theorem ite {c : Prop} [Decidable c] {H : ∀ q, Held (p q)} {K : ∀ q, Held (p' q)}
    (hH : c → Held.Uniform source σ τ held H t) (hK : ¬c → Held.Uniform source σ τ held K t) :
    Held.Uniform source σ τ held
      (fun q => (Held.ite (H q) (K q) : Held (if c then p q else p' q))) t := by
  by_cases hc : c
  · simp only [Held.ite, dif_pos hc]
    exact (hH hc).congr fun _ => (if_pos hc).symm
  · simp only [Held.ite, dif_neg hc]
    exact (hK hc).congr fun _ => (if_neg hc).symm

end Held.Uniform

namespace Trace.Uniform

variable {k : TokenKind} {y : Params → Token → Production α} {V : ∀ q t, Trace (y q t)}
  {expected : List String}

theorem lookFor (hk : k ≠ .param) (hV : ∀ t, Trace.Uniform source σ τ held fun q => V q t)
    (hU : Trace.Uniform source σ τ held U) :
    Trace.Uniform source σ τ held fun q => Trace.lookFor (k := k) (V q) (U q) :=
  .next fun t _ => .ite (fun ht => .take (ht ▸ hk) (hV t)) fun _ => .putBack hU

theorem lookForSignificant (hk : k ≠ .param) (hV : ∀ t, Trace.Uniform source σ τ held fun q => V q t)
    (hU : Trace.Uniform source σ τ held U) :
    Trace.Uniform source σ τ held fun q => Trace.lookForSignificant (k := k) (V q) (U q) :=
  .significant fun t _ => .ite (fun ht => .take (ht ▸ hk) (hV t)) fun _ => .putBack hU

theorem expect (hk : k ≠ .param) (hV : ∀ t, Trace.Uniform source σ τ held fun q => V q t) :
    Trace.Uniform source σ τ held fun q => (Trace.expect (V q) : Trace (scan >>= fun t =>
      if t.kind = k then y q t else unexpected t expected)) :=
  .next fun t _ => .ite (fun ht => .take (ht ▸ hk) (hV t)) fun _ => .fail

theorem expectSignificant (hk : k ≠ .param) (hV : ∀ t, Trace.Uniform source σ τ held fun q => V q t) :
    Trace.Uniform source σ τ held fun q => (Trace.expectSignificant (V q) :
      Trace (scanSignificant >>= fun t => if t.kind = k then y q t else unexpected t expected)) :=
  .significant fun t _ => .ite (fun ht => .take (ht ▸ hk) (hV t)) fun _ => .fail

/-- A repetition, if its rounds do not depend on values. -/
theorem loop {m : Mark} {body : Params → β → Production (β ⊕ α)} {V : ∀ q b, Trace (body q b)}
    (hV : ∀ t : υ, Trace.Uniform source σ (υ ⊕ τ) (Template.holes t) fun q =>
      V q (Template.fill t q)) (n : Nat) (t : υ) :
    Trace.Uniform source σ τ (Template.holes t) fun q =>
      Trace.loop m (V q) n (Template.fill t q) := by
  -- By induction on the rounds that are left.
  induction n generalizing t with
  | zero => exact fail
  | succ n ih =>
    refine (hV t).mark.onward fun r => ?_
    cases r with
    | inl t' => exact ih t'
    | inr a => exact pure a rfl fun _ => rfl

theorem atSlash {f : Params → Token → Production α} {V : ∀ q t, Trace (f q t)}
    (hV : ∀ t, Trace.Uniform source σ τ held fun q => V q t) (hU : Trace.Uniform source σ τ held U) :
    Trace.Uniform source σ τ held fun q => Trace.atSlash (V q) (U q) := by
  intro s hs
  refine .cons (fun _ => rfl) ?_
  by_cases hslash : s.peek? = some '/'
  · simp only [Production.atSlash, if_pos hslash]
    exact (hV s.scanRegex.1 s.scanRegex.2 hs.scanRegex).cons fun _ => rfl
  · simp only [Production.atSlash, if_neg hslash]
    exact hU s hs

end Trace.Uniform

end Production

end InfluxQL
