import InfluxQL.Grammar.Expression
import InfluxQL.Proofs.Syntax.Canonical
import InfluxQL.Proofs.Token.SlashedBody
import InfluxQL.Proofs.Unicode.Lowercase

/-!
# What productions yield

`P.Yields φ` says that whatever the production `P` reads, from whatever stream, has the property
`φ`. The rules follow the way productions are put together. With them:

* `Grammar.operand_yields`: the shapes of an operand;
* `Grammar.chain_yields`: the shapes of a chain, in which regular expressions stand exactly behind
  the operators that match one;
* `Grammar.expression_yields_canonical`: the tree of every expression is canonical.
-/

namespace InfluxQL

namespace Production

variable {α β : Type} {φ : α → Prop} {ψ : β → Prop}

/-- A part of a sequence succeeds if both of its steps do. -/
theorem bind_eq_ok {p : Production β} {f : β → Production α} {s s'' : TokenStream} {a : α} :
    (p >>= f) s = .ok (a, s'') ↔ ∃ x s', p s = .ok (x, s') ∧ f x s' = .ok (a, s'') := by
  simp only [Bind.bind, StateT.bind]
  cases h : p s with
  | error e => simp [Except.bind]
  | ok r =>
    simp only [Except.bind, Except.ok.injEq]
    exact ⟨fun h => ⟨r.1, r.2, rfl, h⟩, by rintro ⟨x, s', rfl, h'⟩; exact h'⟩

/-- The rest of a sequence goes on from where its first step has led. -/
theorem bind_of_ok {p : Production β} {f : β → Production α} {s s' : TokenStream} {b : β}
    (h : p s = .ok (b, s')) : (p >>= f) s = f b s' := by
  show (p s).bind _ = _
  rw [h]
  rfl

theorem bind_of_error {p : Production β} {f : β → Production α} {s : TokenStream} {e : ParseError}
    (h : p s = .error e) : (p >>= f) s = .error e := by
  show (p s).bind _ = _
  rw [h]
  rfl

/-- Only the outcome of the first step matters to the rest. -/
theorem bind_of_eq {p q : Production β} {f : β → Production α} {s s' : TokenStream} (h : p s = q s') :
    (p >>= f) s = (q >>= f) s' := by
  show (p s).bind _ = (q s').bind _
  rw [h]

/-- Every value that the production reads has the property. -/
def Yields (p : Production α) (φ : α → Prop) : Prop :=
  ∀ s a s', p s = .ok (a, s') → φ a

theorem Yields.mono {p : Production α} {χ : α → Prop} (h : p.Yields φ) (hc : ∀ a, φ a → χ a) :
    p.Yields χ :=
  fun s a s' hs => hc a (h s a s' hs)

theorem Yields.and {p : Production α} {χ : α → Prop} (h : p.Yields φ) (h' : p.Yields χ) :
    p.Yields fun a => φ a ∧ χ a :=
  fun s a s' hs => ⟨h s a s' hs, h' s a s' hs⟩

theorem Yields.pure {a : α} (h : φ a) : (Pure.pure a : Production α).Yields φ := by
  rintro s _ _ ⟨⟩
  exact h

theorem Yields.bind {p : Production β} {f : β → Production α} (hp : p.Yields ψ)
    (hf : ∀ x, ψ x → (f x).Yields φ) : (p >>= f).Yields φ := by
  intro s a s'' h
  obtain ⟨x, s', hx, ha⟩ := bind_eq_ok.1 h
  exact hf x (hp s x s' hx) s' a s'' ha

/-- A step of which nothing needs to be known. -/
theorem Yields.after {p : Production β} {f : β → Production α} (hf : ∀ x, (f x).Yields φ) :
    (p >>= f).Yields φ :=
  .bind (ψ := fun _ => True) (fun _ _ _ _ => trivial) fun x _ => hf x

theorem Yields.fail {e : ParseError} : (fail e : Production α).Yields φ := by
  rintro s a s' ⟨⟩

theorem Yields.failAt {t : Token} {cause : Cause} :
    (failAt t cause : Production α).Yields φ :=
  .fail

theorem Yields.unexpected {t : Token} {expected : List String} :
    (unexpected t expected : Production α).Yields φ :=
  .fail

theorem Yields.outOfSteps : (outOfSteps : Production α).Yields φ :=
  .fail

/-- A repetition yields what its last round does, if every other round keeps the invariant. -/
theorem Yields.loop {body : β → Production (β ⊕ α)} (h : ∀ b, ψ b → (body b).Yields (Sum.elim ψ φ))
    (n : Nat) {b : β} (hb : ψ b) : (loop body n b).Yields φ := by
  induction n generalizing b with
  | zero => exact .outOfSteps
  | succ n ih =>
    rw [Production.loop]
    refine (h b hb).bind fun r hr => ?_
    cases r with
    | inl b' => exact ih hr
    | inr a => exact .pure hr

theorem Yields.run {p : Production α} (h : p.Yields φ) {source : List Char} {a : α}
    (hr : p.run source = .ok a) : φ a := by
  unfold Production.run at hr
  split at hr <;> cases hr
  next hs => exact h _ _ _ hs

end Production

/-! ### Regular expressions -/

namespace Grammar

open Production

theorem scanRegex_yields :
    scanRegex.Yields fun t => t.kind = .regex → RegexBody.Writable t.lit.toList := by
  rintro s t s' ⟨⟩
  exact Scanner.writable_of_scanRegex

variable [PatternCompiler]

/-- A regular expression that is read can be written. -/
theorem regex?_yields : regex?.Yields fun p => ∀ r ∈ p, ReadablePattern r := by
  unfold regex?
  refine .after fun _ => .after fun c => ?_
  split
  · refine .bind scanRegex_yields fun t ht => ?_
    split
    · next hk =>
      refine .bind (ψ := ReadablePattern) ?_ fun p hp => .pure ?_
      · rcases compiles_or_error t.lit with hc | ⟨text, he⟩
        · rw [pattern_of_compiles hc]
          exact .pure ⟨hc, ht hk⟩
        · rw [pattern_of_error he]
          exact .failAt
      · rintro r ⟨⟩
        exact hp
    · exact .failAt
    · exact .failAt
    · exact .unexpected
  · refine .pure ?_
    rintro r ⟨⟩

/-! ### Operands -/

/-- The shapes of an argument, if expressions on their own have a property. -/
def IsArgument (φ : Expr → Prop) (e : Expr) : Prop :=
  (∃ p, e = .atom (.regex p) ∧ ReadablePattern p) ∨ φ e

/-- The shapes of an operand, if expressions on their own have a property. -/
def IsOperand (φ : Expr → Prop) : Expr → Prop
  | .atom a => (Expr.atom a).isRegex = false
  | .call name args =>
    Unicode.lowercase name.toList = name.toList ∧ ∀ e ∈ args, IsArgument φ e
  | .binary .. => False
  | .paren e => φ e

/-- The shapes of a right operand. -/
def IsOperation (φ : Expr → Prop) (x : Operator × Expr) : Prop :=
  if x.1.isMatch then ∃ p, x.2 = .atom (.regex p) ∧ ReadablePattern p else IsOperand φ x.2

omit [PatternCompiler] in
/-- All elements have a property, and so does the one that is added. -/
theorem forall_mem_snoc {α : Type} {φ : α → Prop} {l : List α} {a : α} (hl : ∀ x ∈ l, φ x)
    (ha : φ a) : ∀ x ∈ l ++ [a], φ x :=
  List.forall_mem_append.2 ⟨hl, List.forall_mem_singleton.2 ha⟩

section Operands

variable {φ : Expr → Prop} {nested : Production Expr} (hn : nested.Yields φ) (params : Params)
  (steps : Nat)

omit [PatternCompiler] in
theorem bound_yields (t : Token) :
    (bound params t).Yields fun a => (Expr.atom a).isRegex = false := by
  unfold bound
  dsimp only
  split
  · exact .failAt
  · split <;> first | exact .failAt | exact .pure rfl

include hn

theorem argument_yields : (argument nested).Yields (IsArgument φ) := by
  refine .bind regex?_yields fun p? hp => ?_
  split
  · next p => exact .pure (.inl ⟨p, rfl, hp p rfl⟩)
  · exact hn.mono fun _ => .inr

theorem arguments_yields {first : Expr} (hf : IsArgument φ first) :
    (arguments steps nested first).Yields fun args => ∀ e ∈ args, IsArgument φ e := by
  refine .bind (ψ := fun args => ∀ e ∈ args, IsArgument φ e) ?_ fun args ha => .after fun t => ?_
  · refine .loop (ψ := fun args => ∀ e ∈ args, IsArgument φ e) ?_ steps (by simpa using hf)
    refine fun args ha => .after fun t => ?_
    split
    · exact .bind (argument_yields hn) fun e he => .pure (forall_mem_snoc ha he)
    · exact .after fun _ => .pure ha
  · split
    · exact .pure ha
    · exact .unexpected

theorem callArguments_yields :
    (callArguments steps nested).Yields fun args => ∀ e ∈ args, IsArgument φ e := by
  refine .bind regex?_yields fun p? hp => ?_
  split
  · next p => exact arguments_yields hn steps (.inl ⟨p, rfl, hp p rfl⟩)
  · refine .after fun t => ?_
    split
    · exact .pure (by simp)
    · exact .after fun _ => .bind hn fun e he => arguments_yields hn steps (.inr he)

theorem callOrReference_yields (first : Token) :
    (callOrReference steps nested first).Yields (IsOperand φ) := by
  refine .after fun t => ?_
  split
  · refine .bind (callArguments_yields hn steps) fun args ha => .pure ⟨?_, ha⟩
    rw [String.toList_ofList, Unicode.lowercase_lowercase]
  · exact .after fun _ => .after fun v => .pure rfl

/-- What an operand looks like. -/
theorem operand_yields : (operand params steps nested).Yields (IsOperand φ) := by
  refine .after fun t => ?_
  split
  · refine .bind hn fun e he => .after fun t => ?_
    split
    · exact .pure he
    · exact .unexpected
  · exact callOrReference_yields hn steps t
  · exact .pure rfl
  · exact .pure rfl
  · split
    · exact .pure rfl
    · exact .failAt
  · exact .pure rfl
  · exact .bind (bound_yields params t) fun a ha => .pure ha
  · exact .failAt
  · exact .failAt
  · exact .unexpected

theorem rightOperand_yields (op : Operator) : (rightOperand params steps nested op).Yields
    fun rhs => IsOperation φ (op, rhs) := by
  unfold rightOperand IsOperation
  split
  · refine .after fun _ => .bind regex?_yields fun p? hp => ?_
    split
    · next p => exact .pure ⟨p, rfl, hp p rfl⟩
    · exact .after fun t => .unexpected
  · exact operand_yields hn params steps

/-- What a chain looks like. -/
theorem chain_yields : (chain params steps nested).Yields fun x =>
    IsOperand φ x.1 ∧ ∀ y ∈ x.2, IsOperation φ y := by
  refine .bind (operand_yields hn params steps) fun first hf => ?_
  refine .bind (ψ := fun ops => ∀ y ∈ ops, IsOperation φ y) ?_ fun ops ho => .pure ⟨hf, ho⟩
  refine .loop (ψ := fun ops => ∀ y ∈ ops, IsOperation φ y) ?_ steps (by simp)
  refine fun ops ho => .after fun t => ?_
  split
  · exact .after fun _ => .pure ho
  · next op _ =>
    exact .bind (rightOperand_yields hn params steps op) fun rhs hr => .pure (forall_mem_snoc ho hr)

end Operands

/-! ### Expressions -/

/-- A property of expressions on their own that the trees of all chains have. -/
theorem expression_yields {φ : Expr → Prop} (h : ∀ first ops, IsOperand φ first →
    (∀ y ∈ ops, IsOperation φ y) → φ (.ofChain first ops)) (params : Params) (n : Nat) :
    (expression params n).Yields φ := by
  induction n with
  | zero => exact .outOfSteps
  | succ n ih =>
    rw [expression]
    exact .bind (chain_yields ih params n) fun x hx => .pure (h x.1 x.2 hx.1 hx.2)

section Canonical

open InfluxQL.Expr

theorem IsArgument.regular {e : Expr} (h : IsArgument Canonical e) :
    e.Everywhere Regular ∧ (e.isRegex ∨ e.startsWithRegex = false) := by
  rcases h with ⟨p, rfl, hp⟩ | h
  · exact ⟨(everywhere_atom _).2 ⟨trivial, trivial, hp, trivial⟩, .inl rfl⟩
  · exact ⟨h.regular, .inr h.start⟩

theorem IsOperand.regular {e : Expr} (h : IsOperand Canonical e) :
    e.Everywhere Regular ∧ e.operator? = none ∧ e.isRegex = false := by
  cases e with
  | atom a =>
    refine ⟨(everywhere_atom _).2 ⟨trivial, trivial, ?_, trivial⟩, rfl, h⟩
    cases a <;> trivial
  | call name args =>
    obtain ⟨hl, ha⟩ := h
    have hself : Regular (.call name args) :=
      ⟨trivial, fun e he => (ha e he).regular.2, trivial, hl⟩
    exact ⟨(everywhere_call ..).2 ⟨hself, fun e he => (ha e he).regular.1⟩, rfl, rfl⟩
  | binary op l r => exact h.elim
  | paren e =>
    have hc : e.Canonical := h
    have hself : Regular (.paren e) := ⟨trivial, hc.start, trivial, trivial⟩
    exact ⟨(everywhere_paren _).2 ⟨hself, hc.regular⟩, rfl, rfl⟩

theorem IsOperation.regular {x : Operator × Expr} (h : IsOperation Canonical x) :
    x.2.Everywhere Regular ∧ x.2.operator? = none ∧ x.2.isRegex = x.1.isMatch := by
  unfold IsOperation at h
  split at h
  · next hm =>
    obtain ⟨p, hx, hp⟩ := h
    rw [hx, hm]
    exact ⟨(everywhere_atom _).2 ⟨trivial, trivial, hp, trivial⟩, rfl, rfl⟩
  · next hm =>
    obtain ⟨hr, ho, hx⟩ := h.regular
    exact ⟨hr, ho, hx.trans (by simpa using hm)⟩

/-- **Every tree that is read is canonical.** -/
theorem expression_yields_canonical (params : Params) (n : Nat) :
    (expression params n).Yields Canonical := by
  refine expression_yields (fun first ops hf ho => ?_) params n
  obtain ⟨hr, hn, hx⟩ := hf.regular
  exact canonical_ofChain ⟨hr, by rw [startsWithRegex_of_operator? hn, hx]⟩
    fun x hx => (ho x hx).regular

end Canonical

end Grammar

end InfluxQL
