import InfluxQL.Proofs.Grammar.Alike
import InfluxQL.Proofs.Grammar.OperandEnd

/-!
# An expression up to its last operand

An expression ends when the next token is no operator. This token is only looked at; up to it an operand
has been read, and the operators with their operands behind it. What is read so far does not depend on
what comes next, and another text can go on with another operator there.

* `Production.firstRounds`: the rounds of a repetition that do not end it;
* `Production.exists_firstRounds_of_loop`, `Production.loop_of_firstRounds`: a repetition is such
  rounds and one that ends it;
* `Grammar.chainOf`: an operand, and so many operators and operands behind it;
* `Grammar.exists_chainOf_of_expression`, `Grammar.expression_of_chainOf`: an expression begins so;
* `Grammar.chainOf_ends`, `Grammar.chainOf_alike`: it comes to the end of an operand, and texts that
  read alike are alike in it.
-/

namespace InfluxQL

open Production Scanner TokenStream

namespace Production

variable {α β : Type} {body : β → Production (β ⊕ α)} {b b' : β} {s s' s₁ : TokenStream} {a : α}
  {n j : Nat}

/-- So many rounds of a repetition. It fails if one of them ends the repetition. -/
def firstRounds (body : β → Production (β ⊕ α)) : (n : Nat) → β → Production β
  | 0, b => pure b
  | n + 1, b => do
    match ← body b with
    | .inl b => firstRounds body n b
    | .inr _ => outOfSteps

/-- A repetition that succeeds is some rounds, and then the one that ends it. -/
theorem exists_firstRounds_of_loop (h : loop body n b s = .ok (a, s')) : ∃ j < n, ∃ b₁ s₁,
    firstRounds body j b s = .ok (b₁, s₁) ∧ body b₁ s₁ = .ok (.inr a, s') := by
  induction n generalizing b s with
  | zero => cases h
  | succ n ih =>
    obtain ⟨r, s₁, hr, h⟩ := bind_eq_ok.1 h
    cases r with
    | inl b₁ =>
      obtain ⟨j, hj, b₂, s₂, hrounds, hlast⟩ := ih h
      exact ⟨j + 1, by omega, b₂, s₂, bind_eq_ok.2 ⟨_, _, hr, hrounds⟩, hlast⟩
    | inr a' =>
      cases h
      exact ⟨0, by omega, b, s, rfl, hr⟩

/-- Behind some rounds a repetition goes on with the rest of its rounds. -/
theorem loop_of_firstRounds (h : firstRounds body j b s = .ok (b', s₁)) (m : Nat) :
    loop body (j + m) b s = loop body m b' s₁ := by
  induction j generalizing b s with
  | zero =>
    cases h
    rw [Nat.zero_add]
  | succ j ih =>
    obtain ⟨r, s₂, hr, h⟩ := bind_eq_ok.1 h
    cases r with
    | inl b₂ =>
      rw [Nat.succ_add_eq_add_succ, ← ih h, ← Nat.succ_add_eq_add_succ, Nat.succ_add, loop]
      exact bind_of_ok hr
    | inr a => cases h

/-- A repetition that is allowed no more rounds than do not end it lacks steps. -/
theorem loop_of_le_firstRounds (h : firstRounds body j b s = .ok (b', s₁)) (hn : n ≤ j) :
    ∃ e, loop body n b s = .error e ∧ e.cause = .outOfSteps := by
  induction n generalizing j b s with
  | zero => exact ⟨_, rfl, rfl⟩
  | succ n ih =>
    obtain ⟨j, rfl⟩ : ∃ k, j = k + 1 := ⟨j - 1, by omega⟩
    obtain ⟨r, s₂, hr, h⟩ := bind_eq_ok.1 h
    cases r with
    | inl b₂ =>
      rw [loop, bind_of_ok hr]
      exact ih h (by omega)
    | inr a => cases h

namespace Trace

/-- The rounds of a repetition leave no marks. -/
def firstRounds (T : ∀ b, Trace (body b)) : (n : Nat) → (b : β) → Trace (Production.firstRounds body n b)
  | 0, b => .pure b
  | n + 1, b => (T b).bind fun
    | .inl b => firstRounds T n b
    | .inr _ => .fail _

/-- What happens in the round behind some others happens in the repetition. -/
theorem mem_events_loop {T : ∀ b, Trace (body b)} {m : Mark} {ev : Event} (hj : j < n)
    (h : Production.firstRounds body j b s = .ok (b', s₁)) (hev : ev ∈ (T b').events s₁) :
    ev ∈ (Trace.loop m T n b).events s := by
  obtain ⟨n, rfl⟩ : ∃ k, n = k + 1 := ⟨n - 1, by omega⟩
  induction j generalizing n b s with
  | zero =>
    cases h
    exact List.mem_append_left _ (List.mem_cons_of_mem _ hev)
  | succ j ih =>
    obtain ⟨n, rfl⟩ : ∃ k, n = k + 1 := ⟨n - 1, by omega⟩
    obtain ⟨r, s₂, hr, h⟩ := bind_eq_ok.1 h
    cases r with
    | inl b₂ =>
      refine List.mem_append_right _ ?_
      rw [hr]
      exact ih h n (by omega)
    | inr a => cases h

end Trace

/-- Some rounds come to where each of them comes to. -/
theorem ComesTo.firstRounds {ψ : β → Scanner → Prop} {c : Scanner}
    (h : ∀ b d, ψ b d → (body b).ComesTo d (Sum.elim ψ fun _ _ => True)) (n : Nat) {b : β} (hb : ψ b c) :
    (firstRounds body n b).ComesTo c ψ := by
  induction n generalizing b c with
  | zero => exact .pure hb
  | succ n ih =>
    refine (h b c hb).bind fun r d hr => ?_
    cases r with
    | inl b' => exact ih hr
    | inr a => exact .fail

end Production

/-- The same number of rounds on both sides. -/
theorem Likeness.AlikeFrom.firstRounds {L : Likeness} (hL : L.Lawful) {α α' β β' : Type}
    {I : β → β' → Scanner → Scanner → Prop} {Q : α → α' → Scanner → Scanner → Prop}
    {body : β → Production (β ⊕ α)} {body' : β' → Production (β' ⊕ α')} {U : ∀ b, Trace (body b)}
    (h : ∀ b b', L.AlikeFrom (I b b')
      (fun r r' c c' => Sum.LiftRel (fun b b' => I b b' c c') (fun a a' => Q a a' c c') r r')
      (U b) (body' b'))
    (n : Nat) (b : β) (b' : β') :
    L.AlikeFrom (I b b') I (Trace.firstRounds U n b) (Production.firstRounds body' n b') := by
  induction n generalizing b b' with
  | zero => exact .pure fun _ _ hr => hr
  | succ n ih =>
    refine (h b b').bind fun r r' => ?_
    cases r with
    | inl b₁ =>
      intro c c' s s' hr
      cases hr with
      | inl hb => exact ih _ _ c c' s s' hb
    | inr a => exact .outOfSteps hL

namespace Grammar

open Likeness

variable [PatternCompiler]
variable {params : Params} {n n' j : Nat} {nested nested' : Production Expr}

/-- An operand, and so many operators with their operands behind it. -/
def chainOf (params : Params) (steps : Nat) (nested : Production Expr) (j : Nat) :
    Production (Expr × List (Operator × Expr)) := do
  let first ← operand params steps nested
  let ops ← firstRounds (operation params steps nested) j []
  pure (first, ops)

def chainOfTrace (params : Params) (steps : Nat) (T : Trace nested) (j : Nat) :
    Trace (chainOf params steps nested j) :=
  (operandTrace params steps T).bind fun _ =>
    (Trace.firstRounds (operationTrace params steps T) j []).bind fun _ => .pure _

variable {s s' s₁ : TokenStream} {first e : Expr} {ops ops' : List (Operator × Expr)}

/-- An expression that is read is the tree of a chain, behind which no operator comes. -/
theorem exists_chainOf_of_expression (h : expression params (n + 1) s = .ok (e, s')) :
    ∃ j < n, ∃ first ops s₁, chainOf params n (expression params n) j s = .ok ((first, ops), s₁) ∧
      ∃ ops', operation params n (expression params n) ops s₁ = .ok (.inr ops', s') ∧
        e = .ofChain first ops' := by
  obtain ⟨⟨first, ops'⟩, s₂, hchain, he⟩ := bind_eq_ok.1 h
  obtain ⟨_, s₁, hfirst, hchain⟩ := bind_eq_ok.1 hchain
  obtain ⟨_, s₃, hloop, hpair⟩ := bind_eq_ok.1 hchain
  cases hpair
  cases he
  obtain ⟨j, hj, ops, s₄, hrounds, hlast⟩ := exists_firstRounds_of_loop hloop
  refine ⟨j, hj, first, ops, s₄, ?_, ops', hlast, rfl⟩
  exact bind_eq_ok.2 ⟨_, _, hfirst, bind_eq_ok.2 ⟨_, _, hrounds, rfl⟩⟩

/-- Behind a chain an expression goes on with the rest of its rounds. -/
theorem expression_of_chainOf (m : Nat)
    (h : chainOf params (j + m) (expression params (j + m)) j s = .ok ((first, ops), s₁)) :
    expression params (j + m + 1) s =
      (loop (operation params (j + m) (expression params (j + m))) m ops >>= fun ops =>
        pure (.ofChain first ops)) s₁ := by
  obtain ⟨_, s₂, hfirst, hchain⟩ := bind_eq_ok.1 h
  obtain ⟨_, s₃, hrounds, hpair⟩ := bind_eq_ok.1 hchain
  cases hpair
  have hloop := loop_of_firstRounds hrounds m
  rw [expression, chain]
  simp only [Bind.bind, StateT.bind] at hloop ⊢
  rw [hfirst]
  simp only [Except.bind, hloop]
  cases loop (operation params (j + m) (expression params (j + m))) m ops s₁ <;> rfl

/-- What happens behind a chain happens in the expression. -/
theorem mem_events_of_chainOf (hj : j < n)
    (h : chainOf params n (expression params n) j s = .ok ((first, ops), s₁)) {ev : Event}
    (hev : ev ∈ (operationTrace params n (expressionTrace params n) ops).events s₁) :
    ev ∈ (expressionTrace params (n + 1)).events s := by
  obtain ⟨_, s₂, hfirst, hchain⟩ := bind_eq_ok.1 h
  obtain ⟨_, s₃, hrounds, hpair⟩ := bind_eq_ok.1 hchain
  cases hpair
  refine List.mem_append_left _ (List.mem_append_right _ ?_)
  rw [hfirst]
  exact List.mem_append_left _ (Trace.mem_events_loop hj hrounds hev)

theorem operation_ends (T : Trace nested) (ops : List (Operator × Expr)) (c : Scanner) :
    (operation params n nested ops).ComesTo c
      (Sum.elim (fun _ c' => OperandEnds c') fun _ _ => True) := by
  refine .significant ?_
  generalize c.pastBlank.scan.1.kind.operator? = op
  cases op with
  | none => exact .putBack (.pure trivial)
  | some op => exact .take ((rightOperand_ends T op _).bind fun _ _ hd => .pure hd)

/-- **Behind the last operand an operand ends.** -/
theorem chainOf_ends (T : Trace nested) (c : Scanner) :
    (chainOf params n nested j).ComesTo c fun _ c' => OperandEnds c' := by
  refine (operand_ends T c).bind fun first d hd => ?_
  exact (ComesTo.firstRounds (fun ops d _ => operation_ends T ops d) j hd).bind fun ops d hd => .pure hd

theorem chainOf_alike {L : Likeness} (hL : L.Lawful) (hn : n ≤ n') {T : Trace nested}
    (hT : L.AlikeFrom L.near (Joint Eq L.rel) T nested') (hparams : L.params params) (j : Nat) :
    L.AlikeFrom L.near (Joint Eq L.near) (chainOfTrace params n T j) (chainOf params n' nested' j) := by
  refine (operand_alike hL hn hT hparams).bind fun first first' => .joint fun hfirst => ?_
  have hops := AlikeFrom.firstRounds hL (operation_alike hL hn hT hparams) j [] []
  refine (hops.mono (fun _ _ hr => ⟨rfl, hr⟩) fun _ _ _ _ h => h).bind fun ops ops' =>
    .joint fun hops => ?_
  rw [hfirst, hops]
  exact .pure fun _ _ hr => ⟨rfl, hr⟩

end Grammar

end InfluxQL
