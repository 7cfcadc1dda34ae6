import InfluxQL.Proofs.Syntax.Tree

/-!
# Trees that respect precedence

The *spine* of a tree is the chain of operands and operators that it was built from: its binary
operations, read from left to right, but nothing within parentheses or calls.

* `Expr.BindsInOrder`: at a binary operation, the operations below bind tightly enough;
* `Expr.insert` adds to the end of the spine (`Expr.spine_insert`) and respects precedence
  (`Expr.Everywhere.insert`);
* `Expr.eq_of_spine_eq`: there is only one tree with a given spine that respects precedence;
* `Expr.exists_takeWhile_of_mem_operations`: what stands on the right of an operation in it.
-/

namespace InfluxQL

namespace Expr

/-- The operator of the expression itself, if it is a binary operation. -/
def operator? : Expr → Option Operator
  | binary op _ _ => some op
  | _ => none

/-- At a binary operation, an operation on the left binds at least as tightly, and one on the right
binds tighter. -/
def BindsInOrder : Expr → Prop
  | binary op l r =>
    (∀ o ∈ l.operator?, op.precedence ≤ o.precedence) ∧
      ∀ o ∈ r.operator?, op.precedence < o.precedence
  | _ => True

/-- The first operand of a chain, and the operators behind it with their right operands. -/
def spine : Expr → Expr × List (Operator × Expr)
  | binary op l r => (l.spine.1, l.spine.2 ++ (op, r.spine.1) :: r.spine.2)
  | e => (e, [])

theorem spine_of_operator? {e : Expr} (h : e.operator? = none) : e.spine = (e, []) := by
  cases e <;> first | rfl | cases h

/-! ### Adding to the end of a chain -/

variable {e rhs : Expr} {op : Operator}

/-- What is inserted is the last of the spine. -/
theorem spine_insert (hr : rhs.operator? = none) (e : Expr) :
    (e.insert op rhs).spine = (e.spine.1, e.spine.2 ++ [(op, rhs)]) := by
  induction e with
  | binary o l r _ ih =>
    rw [insert]
    split
    · simp [spine, ih]
    · simp [spine, spine_of_operator? hr]
  | atom | call | paren => simp [insert, spine, spine_of_operator? hr]

/-- The operator of the expression stays on top, or the new one does. -/
theorem mem_operator?_insert {o : Operator} (h : o ∈ (e.insert op rhs).operator?) :
    o ∈ e.operator? ∨ o = op := by
  cases e with
  | binary o' l r =>
    rw [insert] at h
    split at h
    · exact .inl h
    · exact .inr (Option.mem_some.1 h).symm
  | atom | call | paren => exact .inr (Option.mem_some.1 h).symm

theorem Everywhere.insert (he : e.Everywhere BindsInOrder) (hr : rhs.Everywhere BindsInOrder)
    (hn : rhs.operator? = none) : (e.insert op rhs).Everywhere BindsInOrder := by
  induction e with
  | binary o l r _ ih =>
    obtain ⟨⟨hol, hor⟩, hl, hr'⟩ := (everywhere_binary ..).1 he
    rw [Expr.insert]
    split
    · next ho =>
      refine (everywhere_binary ..).2 ⟨⟨hol, fun o' h => ?_⟩, hl, ih hr'⟩
      rcases mem_operator?_insert h with h | rfl
      · exact hor o' h
      · exact ho
    · next ho =>
      refine (everywhere_binary ..).2 ⟨⟨fun o' h => ?_, by simp [hn]⟩, he, hr⟩
      cases Option.mem_some.1 h
      omega
  | atom | call | paren =>
    exact (everywhere_binary ..).2 ⟨⟨by simp [operator?], by simp [hn]⟩, he, hr⟩

theorem Everywhere.insert_of_binary {P : Expr → Prop} (hb : ∀ o l r, P (binary o l r))
    (he : e.Everywhere P) (hr : rhs.Everywhere P) : (e.insert op rhs).Everywhere P := by
  induction e with
  | binary o l r _ ih =>
    obtain ⟨-, hl, hr'⟩ := (everywhere_binary ..).1 he
    rw [Expr.insert]
    split
    · exact (everywhere_binary ..).2 ⟨hb .., hl, ih hr'⟩
    · exact (everywhere_binary ..).2 ⟨hb .., he, hr⟩
  | atom | call | paren => exact (everywhere_binary ..).2 ⟨hb .., he, hr⟩

/-! ### Whole chains -/

variable {ops : List (Operator × Expr)}

theorem ofChain_append (first : Expr) (ops ops' : List (Operator × Expr)) :
    ofChain first (ops ++ ops') = ofChain (ofChain first ops) ops' := by
  simp [ofChain]

theorem ofChain_cons (first : Expr) (ops : List (Operator × Expr)) :
    ofChain first ((op, rhs) :: ops) = ofChain (first.insert op rhs) ops := rfl

theorem spine_ofChain (hops : ∀ x ∈ ops, x.2.operator? = none) (e : Expr) :
    (ofChain e ops).spine = (e.spine.1, e.spine.2 ++ ops) := by
  induction ops generalizing e with
  | nil => simp [ofChain]
  | cons x ops ih =>
    rw [List.forall_mem_cons] at hops
    rw [ofChain_cons, ih hops.2, spine_insert hops.1]
    simp

/-- What holds of every binary operation, and everywhere in the operands, holds everywhere in the
tree of a chain. -/
theorem Everywhere.ofChain {P : Expr → Prop} (hb : ∀ o l r, P (binary o l r)) (he : e.Everywhere P)
    (hops : ∀ x ∈ ops, x.2.Everywhere P) : (ofChain e ops).Everywhere P := by
  induction ops generalizing e with
  | nil => exact he
  | cons x ops ih =>
    rw [List.forall_mem_cons] at hops
    exact ih (he.insert_of_binary hb hops.1) hops.2

/-- What holds everywhere in a tree holds everywhere in the operands of its spine. -/
theorem Everywhere.spine {P : Expr → Prop} (he : e.Everywhere P) :
    e.spine.1.Everywhere P ∧ ∀ x ∈ e.spine.2, x.2.Everywhere P := by
  induction e with
  | binary op l r ihl ihr =>
    obtain ⟨-, hl, hr⟩ := (everywhere_binary ..).1 he
    obtain ⟨hl, hls⟩ := ihl hl
    obtain ⟨hr, hrs⟩ := ihr hr
    rw [Expr.spine]
    exact ⟨hl, List.forall_mem_append.2 ⟨hls, List.forall_mem_cons.2 ⟨hr, hrs⟩⟩⟩
  | atom | call | paren => exact ⟨he, fun _ hx => nomatch hx⟩

/-! ### The spine determines the tree -/

/-- No operation of a spine binds less tightly than the one on top. -/
theorem precedence_le_of_mem_spine (he : e.Everywhere BindsInOrder) {o : Operator}
    (ho : o ∈ e.operator?) {x : Operator × Expr} (hx : x ∈ e.spine.2) :
    o.precedence ≤ x.1.precedence := by
  induction e generalizing o with
  | binary op l r ihl ihr =>
    obtain ⟨⟨hl, hr⟩, hel, her⟩ := (everywhere_binary ..).1 he
    cases Option.mem_some.1 ho
    simp only [spine, List.mem_append, List.mem_cons] at hx
    rcases hx with hx | rfl | hx
    · cases hol : l.operator? with
      | none => simp [spine_of_operator? hol] at hx
      | some o =>
        have := ihl hel hol hx
        have := hl o hol
        omega
    · exact Nat.le_refl _
    · cases hor : r.operator? with
      | none => simp [spine_of_operator? hor] at hx
      | some o =>
        have := ihr her hor hx
        have := hr o hor
        omega
  | atom | call | paren => cases ho

/-- If the operation on top binds tightly enough, then so does every other one of the spine. -/
theorem le_precedence_of_mem_spine (he : e.Everywhere BindsInOrder) {n : Nat}
    (h : ∀ o ∈ e.operator?, n ≤ o.precedence) : ∀ x ∈ e.spine.2, n ≤ x.1.precedence := by
  intro x hx
  cases ho : e.operator? with
  | none => simp [spine_of_operator? ho] at hx
  | some o => exact Nat.le_trans (h o ho) (precedence_le_of_mem_spine he ho hx)

/-- Operations that all bind tighter than the one on top are added to its right side. -/
theorem ofChain_binary {l r : Expr} (h : ∀ x ∈ ops, op.precedence < x.1.precedence) :
    ofChain (binary op l r) ops = binary op l (ofChain r ops) := by
  induction ops generalizing r with
  | nil => rfl
  | cons x ops ih =>
    rw [List.forall_mem_cons] at h
    rw [ofChain_cons, ofChain_cons, insert, if_pos h.1, ih h.2]

/-- A tree that respects precedence is the tree of its spine. -/
theorem ofChain_spine (he : e.Everywhere BindsInOrder) : ofChain e.spine.1 e.spine.2 = e := by
  induction e with
  | binary op l r ihl ihr =>
    obtain ⟨⟨hl, hr⟩, hel, her⟩ := (everywhere_binary ..).1 he
    have hins : l.insert op r.spine.1 = binary op l r.spine.1 := by
      cases l with
      | binary o l₁ l₂ =>
        have := hl o rfl
        rw [insert, if_neg (by omega)]
      | atom | call | paren => rfl
    have hops : ∀ x ∈ r.spine.2, op.precedence < x.1.precedence := le_precedence_of_mem_spine her hr
    rw [spine, ofChain_append, ihl hel, ofChain_cons, hins, ofChain_binary hops, ihr her]
  | atom | call | paren => rfl

/-- **Only one tree with a given spine respects precedence.** -/
theorem eq_of_spine_eq {e' : Expr} (he : e.Everywhere BindsInOrder)
    (he' : e'.Everywhere BindsInOrder) (h : e.spine = e'.spine) : e = e' := by
  rw [← ofChain_spine he, ← ofChain_spine he', h]

/-! ### The right side of an operation -/

/-- The binary operations that a chain is made into, but none within parentheses or calls. -/
def operations : Expr → List Expr
  | binary op l r => binary op l r :: (l.operations ++ r.operations)
  | _ => []

variable {l r : Expr}

/-- On the right of an operation stands the tree of the operand behind its operator and of the
operations that follow, as long as they bind tighter. -/
theorem exists_spine_of_mem_operations (he : e.Everywhere BindsInOrder)
    (h : binary op l r ∈ e.operations) :
    ∃ before after, e.spine.2 = before ++ (op, r.spine.1) :: (r.spine.2 ++ after) ∧
      (∀ x ∈ r.spine.2, op.precedence < x.1.precedence) ∧
      ∀ x ∈ after.head?, x.1.precedence ≤ op.precedence := by
  induction e with
  | binary o l' r' ihl ihr =>
    obtain ⟨⟨hl, hr⟩, hel, her⟩ := (everywhere_binary ..).1 he
    simp only [operations, List.mem_cons, List.mem_append] at h
    rcases h with h | h | h
    · cases h
      exact ⟨l.spine.2, [], by simp [spine], le_precedence_of_mem_spine her hr, by simp⟩
    · -- Behind the operations on the left comes the one on top, which binds no tighter than they do.
      obtain ⟨before, after, hspine, htight, hafter⟩ := ihl hel h
      refine ⟨before, after ++ (o, r'.spine.1) :: r'.spine.2, by simp [spine, hspine], htight, ?_⟩
      cases after with
      | cons x after => exact hafter
      | nil =>
        rintro _ ⟨⟩
        exact le_precedence_of_mem_spine hel hl (op, r.spine.1) (by simp [hspine])
    · obtain ⟨before, after, hspine, htight, hafter⟩ := ihr her h
      exact ⟨l'.spine.2 ++ (o, r'.spine.1) :: before, after, by simp [spine, hspine], htight, hafter⟩
  | atom | call | paren => cases h

/-- Of what follows the operand behind an operator, the operations up to the first that does not bind
tighter stand on its right. -/
theorem exists_takeWhile_of_mem_operations (he : e.Everywhere BindsInOrder)
    (h : binary op l r ∈ e.operations) :
    ∃ before behind, e.spine.2 = before ++ (op, r.spine.1) :: behind ∧
      r.spine.2 = behind.takeWhile fun x => op.precedence < x.1.precedence := by
  obtain ⟨before, after, hspine, htight, hafter⟩ := exists_spine_of_mem_operations he h
  refine ⟨before, r.spine.2 ++ after, hspine, ?_⟩
  rw [List.takeWhile_append_of_pos (by simpa using htight)]
  cases after with
  | nil => simp
  | cons x after => simp [hafter x rfl]

end Expr

end InfluxQL
