import InfluxQL.Proofs.Grammar.Operands
import InfluxQL.Proofs.Grammar.Precedence
import InfluxQL.Proofs.Grammar.WellFormed
import InfluxQL.Proofs.Syntax.Equality

/-!
# What an operator matches

Behind an operator that matches a pattern a regular expression is read, and nothing else. But it is an
operand like others: an arithmetic operator that follows binds tighter than the match and takes it away,
so that the regular expression is the first operand of what is matched.

* `Expr.StandsIn`: the expressions that were read as chains of their own;
* `Expr.exists_mem_operations`: each operation of a tree belongs to one of these chains;
* `Grammar.ChainReadFrom`, `Grammar.expression_readThroughoutFrom`: the chains are read from the text;
* `parseExpr_matchOperand`: what stands on the right of a match.
-/

namespace InfluxQL

namespace Expr

variable {e x : Expr} {op : Operator} {l r : Expr}

/-- The expressions that stand on their own directly below an expression: what is in parentheses, and the
arguments of a call. -/
def enclosed : Expr → List Expr
  | paren e => [e]
  | call _ args => args
  | _ => []

/-- The expression stands on its own in another: it is all of it, or in parentheses, or an argument of
a call. -/
def StandsIn (x e : Expr) : Prop :=
  x = e ∨ ∃ y ∈ e.preorder, x ∈ y.enclosed

theorem StandsIn.everywhere {P : Expr → Prop} (h : x.StandsIn e) (he : e.Everywhere P) :
    x.Everywhere P := by
  rcases h with rfl | ⟨y, hy, hx⟩
  · exact he
  · have hy := he.of_mem hy
    cases y with
    | call name args => exact ((everywhere_call ..).1 hy).2 x hx
    | paren y =>
      rw [List.mem_singleton.1 hx]
      exact ((everywhere_paren y).1 hy).2
    | atom | binary => cases hx

/-- Every operation belongs to the chain of an expression that stands on its own. -/
theorem exists_mem_operations (h : binary op l r ∈ e.preorder) :
    ∃ x : Expr, x.StandsIn e ∧ binary op l r ∈ x.operations := by
  induction e with
  | atom a => simp [preorder] at h
  | call name args ih =>
    simp only [preorder, preorderAll_eq_flatMap, List.mem_cons, List.mem_flatMap] at h
    rcases h with h | ⟨e, he, h⟩
    · cases h
    · obtain ⟨x, rfl | ⟨y, hy, hx⟩, hmem⟩ := ih e he h
      · exact ⟨x, .inr ⟨_, List.mem_cons_self, he⟩, hmem⟩
      · refine ⟨x, .inr ⟨y, ?_, hx⟩, hmem⟩
        simp only [preorder, preorderAll_eq_flatMap, List.mem_cons, List.mem_flatMap]
        exact .inr ⟨e, he, hy⟩
  | binary o l' r' ihl ihr =>
    simp only [preorder, List.mem_cons, List.mem_append] at h
    rcases h with h | h | h
    · cases h
      exact ⟨_, .inl rfl, List.mem_cons_self⟩
    · obtain ⟨x, rfl | ⟨y, hy, hx⟩, hmem⟩ := ihl h
      · exact ⟨_, .inl rfl, by simp [operations, hmem]⟩
      · exact ⟨x, .inr ⟨y, by simp [preorder, hy], hx⟩, hmem⟩
    · obtain ⟨x, rfl | ⟨y, hy, hx⟩, hmem⟩ := ihr h
      · exact ⟨_, .inl rfl, by simp [operations, hmem]⟩
      · exact ⟨x, .inr ⟨y, by simp [preorder, hy], hx⟩, hmem⟩
  | paren e ih =>
    simp only [preorder, List.mem_cons] at h
    rcases h with h | h
    · cases h
    · obtain ⟨x, rfl | ⟨y, hy, hx⟩, hmem⟩ := ih h
      · exact ⟨x, .inr ⟨_, List.mem_cons_self, List.mem_cons_self⟩, hmem⟩
      · exact ⟨x, .inr ⟨y, by simp [preorder, hy], hx⟩, hmem⟩

/-- An expression whose leftmost operand is a regular expression is one itself if nothing follows. -/
theorem isRegex_iff_of_spine (h : r.spine.1.isRegex) : r.isRegex ↔ r.spine.2 = [] := by
  cases r with
  | binary op l r => simp [isRegex, spine]
  | _ => simpa [spine] using h

end Expr

/-- The arithmetic operators are those that bind tighter than a match. -/
theorem Operator.precedence_lt_iff_of_isMatch {op o : Operator} (h : op.isMatch) :
    op.precedence < o.precedence ↔ o ∈ arithmetic := by
  cases op <;> cases h <;> cases o <;> decide

namespace Grammar

open Production TokenStream

variable [PatternCompiler]
variable {params : Params} {c c' d : Scanner} {e x : Expr}

/-! ### The chains of a text -/

/-- The expression is read as a chain on the way from a scanner. -/
def ChainReadFrom (params : Params) (c : Scanner) (x : Expr) : Prop :=
  ∃ d n s s', c.Reaches d ∧ GoesOn d s ∧ PartRead params n s (.chain x) s'

/-- Below an expression, all that stands on its own is a regular expression or is read as a chain on the
way from a scanner. -/
def EnclosedReadFrom (params : Params) (c : Scanner) (x : Expr) : Prop :=
  ∀ y ∈ x.enclosed, y.isRegex ∨ ChainReadFrom params c y

/-- The expression is read as a chain on the way from one scanner to the other, and so is everything that
stands on its own within it. -/
structure ReadThroughoutFrom (params : Params) (c : Scanner) (e : Expr) (c' : Scanner) : Prop where
  reaches : c.Reaches c'
  chain : ChainReadFrom params c e
  enclosed : e.Everywhere (EnclosedReadFrom params c)

theorem ChainReadFrom.after (hx : ChainReadFrom params d x) (h : c.Reaches d) :
    ChainReadFrom params c x := by
  obtain ⟨d', n, s, s', hd, hs⟩ := hx
  exact ⟨d', n, s, s', h.trans hd, hs⟩

theorem EnclosedReadFrom.after (hx : EnclosedReadFrom params d x) (h : c.Reaches d) :
    EnclosedReadFrom params c x :=
  fun y hy => (hx y hy).imp_right fun hy => hy.after h

theorem ArgumentRead.enclosed (h : ArgumentRead (ReadThroughoutFrom params) c e c') :
    (e.isRegex ∨ ChainReadFrom params c e) ∧ e.Everywhere (EnclosedReadFrom params c) := by
  cases h with
  | regex => exact ⟨.inl rfl, by simp [EnclosedReadFrom, Expr.enclosed]⟩
  | nested before expr =>
    exact ⟨.inr (expr.chain.after before), expr.enclosed.mono fun _ hx => hx.after before⟩

theorem ArgumentRead.enclosed_of_mem {args : List Expr}
    (h : c.ReadsInTurn (ArgumentRead (ReadThroughoutFrom params)) args c') (he : e ∈ args) :
    (e.isRegex ∨ ChainReadFrom params c e) ∧ e.Everywhere (EnclosedReadFrom params c) := by
  obtain ⟨d, d', hd, hr⟩ := h.exists_of_mem (ArgumentRead.reaches (·.reaches)) he
  obtain ⟨hself, hbelow⟩ := hr.enclosed
  exact ⟨hself.imp_right fun hx => hx.after hd, hbelow.mono fun _ hx => hx.after hd⟩

theorem OperandRead.enclosed (h : OperandRead (ReadThroughoutFrom params) c e c') :
    e.Everywhere (EnclosedReadFrom params c) := by
  cases h with
  | literal | reference => simp [EnclosedReadFrom, Expr.enclosed]
  | call arguments =>
    have hread := fun y hy => ArgumentRead.enclosed_of_mem (e := y) arguments hy
    exact (Expr.everywhere_call ..).2 ⟨fun y hy => (hread y hy).1, fun y hy => (hread y hy).2⟩
  | paren before expr _ =>
    refine (Expr.everywhere_paren _).2 ⟨?_, expr.enclosed.mono fun _ hx => hx.after before⟩
    simpa [EnclosedReadFrom, Expr.enclosed] using .inr (expr.chain.after before)

theorem OperationRead.enclosed {x : Operator × Expr}
    (h : OperationRead (ReadThroughoutFrom params) c x c') :
    x.2.Everywhere (EnclosedReadFrom params c) := by
  cases h with
  | regex => simp [EnclosedReadFrom, Expr.enclosed]
  | operand _ before operand => exact operand.enclosed.mono fun _ hx => hx.after before

theorem OperationRead.reaches {x : Operator × Expr}
    (h : OperationRead (ReadThroughoutFrom params) c x c') : c.Reaches c' := by
  cases h with
  | regex _ behind => exact behind
  | operand _ before operand => exact before.trans (operand.reaches (·.reaches))

theorem expression_readThroughoutFrom (params : Params) (n : Nat) (c : Scanner) :
    (expression params n).ComesTo c (ReadThroughoutFrom params c) := by
  induction n generalizing c with
  | zero => exact .fail
  | succ n ih =>
    -- That the expression itself is read as a chain is a fact about the stream from which it is read,
    -- which is no longer known where the chain ends.
    have hread : (expression params (n + 1)).ComesTo c fun e c' =>
        c.Reaches c' ∧ e.Everywhere (EnclosedReadFrom params c) := by
      refine (chain_comesTo ih c).bind ?_
      rintro ⟨first, ops⟩ c' ⟨d, hfirst, hops⟩
      have hd := c.reaches_pastBlank.trans (hfirst.reaches (·.reaches))
      refine .pure ⟨hd.trans (hops.reaches OperationRead.reaches), ?_⟩
      refine .ofChain (fun _ _ _ => by simp [EnclosedReadFrom, Expr.enclosed])
        (hfirst.enclosed.mono fun _ hx => hx.after c.reaches_pastBlank) fun x hx => ?_
      obtain ⟨d₁, d₂, hd₁, hr⟩ := hops.exists_of_mem OperationRead.reaches hx
      exact hr.enclosed.mono fun _ hx => hx.after (hd.trans hd₁)
    have hchain := hread.and fun s e s' hs h =>
      (⟨c, n + 1, s, s', .refl c, hs, .chain_of_expression h⟩ : ChainReadFrom params c e)
    refine hchain.mono ?_
    rintro e c' ⟨⟨hc, he⟩, hself⟩
    exact ⟨hc, hself, he⟩

/-- What stands on its own in an expression, and is no regular expression, is read as a chain. -/
theorem ReadThroughoutFrom.chainReadFrom (he : ReadThroughoutFrom params c e c')
    (hx : x.StandsIn e) (hr : x.isRegex = false) : ChainReadFrom params c x := by
  rcases hx with rfl | ⟨y, hy, hx⟩
  · exact he.chain
  · rcases he.enclosed y hy x hx with h | h
    · rw [hr] at h
      cases h
    · exact h

end Grammar

open Grammar in
/-- **What stands on the right of a match.** It is the tree of the regular expression that was read
behind the operator and of the arithmetic operators, with their operands, that follow it up to the first
other one. So it is the regular expression itself unless an arithmetic operator follows. -/
theorem parseExpr_matchOperand [PatternCompiler] {source : String} {params : Params} {e : Expr}
    (h : parseExpr source params = .ok e) {op : Operator} {l r : Expr} (hop : op.isMatch)
    (hmem : .binary op l r ∈ e.preorder) :
    ∃ x : Expr, x.StandsIn e ∧ ChainReadFrom params (Scanner.start source.toList) x ∧
      ∃ before p behind, x.spine.2 = before ++ (op, .atom (.regex p)) :: behind ∧
        r = .ofChain (.atom (.regex p)) (behind.takeWhile fun y => y.1 ∈ Operator.arithmetic) ∧
        r.spine.1 = .atom (.regex p) ∧
        (r.isRegex ↔ ∀ y ∈ behind.head?, y.1 ∉ Operator.arithmetic) := by
  have hregular := ((expression_yields_canonical params _).run h).regular
  obtain ⟨c', hread⟩ := (expression_readThroughoutFrom params _ _).run h
  obtain ⟨x, hx, hxr⟩ := Expr.exists_mem_operations hmem
  have hxregex : x.isRegex = false := by
    cases x <;> first | rfl | cases hxr
  obtain ⟨hself, -, hr⟩ := (Expr.everywhere_binary ..).1 (hregular.of_mem hmem)
  have hstart : r.spine.1.isRegex := (hself.regexInPlace : r.startsWithRegex = _).trans hop
  obtain ⟨p, hp⟩ := Expr.exists_of_isRegex hstart
  obtain ⟨before, behind, hspine, hright⟩ := Expr.exists_takeWhile_of_mem_operations
    (hx.everywhere (hregular.mono fun _ h => h.bindsInOrder)) hxr
  simp only [Operator.precedence_lt_iff_of_isMatch hop] at hright
  refine ⟨x, hx, hread.chainReadFrom hx hxregex, before, p, behind, hp ▸ hspine, ?_, hp, ?_⟩
  · rw [← hright, ← hp, Expr.ofChain_spine (hr.mono fun _ h => h.bindsInOrder)]
  · rw [Expr.isRegex_iff_of_spine hstart, hright]
    cases behind <;> simp [List.takeWhile_cons]

open Grammar in
/-- In a call, a product and a difference follow the pattern, and then an operator that binds less
tightly than the match. -/
theorem parseExpr_matchOperand_difference :
    let source := "f(a !~ /x/ * 2 - b OR c)"
    let v (name : String) : Expr := .atom (.var ⟨name, .unknown⟩)
    let r : Expr := .binary .sub (.binary .mul (.atom (.regex "x")) (.atom (.integer 2))) (v "b")
    let e : Expr := .call "f" [.binary .or (.binary .notMatching (v "a") r) (v "c")]
    (parseExpr source .empty = .ok e ∧ Operator.notMatching.isMatch ∧
      .binary .notMatching (v "a") r ∈ e.preorder) ∧
    ∃ x : Expr, x.StandsIn e ∧ ChainReadFrom .empty (Scanner.start source.toList) x ∧
      ∃ before p behind, x.spine.2 = before ++ (.notMatching, .atom (.regex p)) :: behind ∧
        r = .ofChain (.atom (.regex p)) (behind.takeWhile fun y => y.1 ∈ Operator.arithmetic) ∧
        r.spine.1 = .atom (.regex p) ∧
        (r.isRegex ↔ ∀ y ∈ behind.head?, y.1 ∉ Operator.arithmetic) := by
  intro source v r e
  have h : parseExpr source .empty = .ok e := by
    decide +kernel
  have hmem : .binary .notMatching (v "a") r ∈ e.preorder := by
    simp [e, Expr.preorder, Expr.preorderAll]
  exact ⟨⟨h, rfl, hmem⟩, parseExpr_matchOperand h rfl hmem⟩

/-- A sum takes the pattern away from the match. -/
theorem parseExpr_matchOperand_sum :
    let a : Expr := .atom (.var ⟨"a", .unknown⟩)
    let r : Expr := .binary .add (.atom (.regex "x")) (.atom (.integer 1))
    let e : Expr := .binary .matching a r
    parseExpr "a =~ /x/ + 1" .empty = .ok e ∧ .binary .matching a r ∈ e.preorder ∧
      Operator.matching.isMatch ∧ r.isRegex = false := by
  intro a r e
  have h : parseExpr "a =~ /x/ + 1" .empty = .ok e := by
    decide +kernel
  exact ⟨h, List.mem_cons_self, rfl, rfl⟩

end InfluxQL
