import InfluxQL.Proofs.Grammar.DottedNames

/-!
# What the operands of an expression are read from

An expression is a chain of operands, and what is in parentheses or is an argument of a call is an
expression again. So what holds of the operands follows from what holds of the expressions within them,
which is the relation `R` of this file: it says how these are read on the way from one scanner to another.

* `Grammar.ArgumentRead`, `Grammar.OperandRead`, `Grammar.OperationRead`: what a chain is made of;
* `Grammar.chain_comesTo`: the operands of a chain are read one after the other;
* `Grammar.expression_comesTo`: what holds of the tree of a chain holds of every expression.
-/

namespace InfluxQL

namespace Grammar

open Production Scanner

/-- An argument of a call is read: a regular expression, or an expression. -/
inductive ArgumentRead (R : Scanner → Expr → Scanner → Prop) : Scanner → Expr → Scanner → Prop
  | regex {c c' : Scanner} {p : String} (behind : c.Reaches c') :
      ArgumentRead R c (.atom (.regex p)) c'
  | nested {c d c' : Scanner} {e : Expr} (before : c.Reaches d) (expr : R d e c') :
      ArgumentRead R c e c'

/-- An operand is read. -/
inductive OperandRead (R : Scanner → Expr → Scanner → Prop) : Scanner → Expr → Scanner → Prop
  | literal {c c' : Scanner} {a : Atom} (novar : ∀ v, a ≠ .var v) (behind : c.Reaches c') :
      OperandRead R c (.atom a) c'
  | reference {c c' : Scanner} {v : VarRef} (ref : ReferenceRead c v c') :
      OperandRead R c (.atom (.var v)) c'
  | call {c c' : Scanner} {name : String} {args : List Expr}
      (arguments : c.ReadsInTurn (ArgumentRead R) args c') : OperandRead R c (.call name args) c'
  | paren {c d d' c' : Scanner} {e : Expr} (before : c.Reaches d) (expr : R d e d')
      (behind : d'.Reaches c') : OperandRead R c (.paren e) c'

/-- The right operand of an operator is read: a regular expression for an operator that matches one, and
else an operand. -/
inductive OperationRead (R : Scanner → Expr → Scanner → Prop) :
    Scanner → Operator × Expr → Scanner → Prop
  | regex {c c' : Scanner} {op : Operator} {p : String} (isMatch : op.isMatch)
      (behind : c.Reaches c') : OperationRead R c (op, .atom (.regex p)) c'
  | operand {c d c' : Scanner} {op : Operator} {e : Expr} (noMatch : ¬op.isMatch)
      (before : c.Reaches d) (operand : OperandRead R d e c') : OperationRead R c (op, e) c'

section Reaches

variable {R : Scanner → Expr → Scanner → Prop} {c c' : Scanner} {e : Expr}
  (hR : ∀ {c e c'}, R c e c' → c.Reaches c')
include hR

theorem ArgumentRead.reaches (h : ArgumentRead R c e c') : c.Reaches c' := by
  cases h with
  | regex behind => exact behind
  | nested before expr => exact before.trans (hR expr)

theorem OperandRead.reaches (h : OperandRead R c e c') : c.Reaches c' := by
  cases h with
  | literal _ behind => exact behind
  | reference ref => exact ref.reaches
  | call arguments => exact arguments.reaches (ArgumentRead.reaches hR)
  | paren before expr behind => exact before.trans ((hR expr).trans behind)

end Reaches

variable {R : Scanner → Expr → Scanner → Prop} {c d : Scanner} {params : Params} {steps : Nat}
  {nested : Production Expr}

theorem bound_yields_literal (params : Params) (t : Token) :
    (bound params t).Yields fun a => ∀ v, a ≠ .var v := by
  unfold bound
  dsimp only
  split
  · exact .failAt
  · split
    · exact .failAt
    · exact .pure nofun
    · exact .pure nofun
    · exact .pure nofun
    · exact .pure nofun
    · exact .failAt

/-- An operand that is a single token is a literal. -/
theorem tokenOperand_yields_literal (params : Params) (t : Token) :
    (tokenOperand params t).Yields fun e => ∃ a, e = .atom a ∧ ∀ v, a ≠ .var v := by
  unfold tokenOperand
  split
  · exact .pure ⟨_, rfl, nofun⟩
  · exact .pure ⟨_, rfl, nofun⟩
  · split
    · exact .pure ⟨_, rfl, nofun⟩
    · exact .failAt
  · exact .pure ⟨_, rfl, nofun⟩
  · exact .bind (bound_yields_literal params t) fun a ha => .pure ⟨a, rfl, ha⟩
  · exact .failAt
  · exact .failAt
  · exact .unexpected

variable [PatternCompiler]

theorem matchOperand_comesTo (c : Scanner) :
    matchOperand.ComesTo c fun e c' => (∃ p, e = .atom (.regex p)) ∧ c.Reaches c' := by
  refine ComesTo.skipBlank.next fun _ => (regexTrace.comesTo _).bind fun p d hd => ?_
  split
  · exact .pure ⟨⟨_, rfl⟩, c.reaches_pastBlank.trans hd⟩
  · exact .significant (.take .unexpected)

section Nested

variable (hn : ∀ c, nested.ComesTo c (R c))
include hn

theorem argument_comesTo (c : Scanner) : (argument nested).ComesTo c (ArgumentRead R c) := by
  refine (regexTrace.comesTo c).bind fun p d hd => ?_
  split
  · exact .pure (.regex hd)
  · exact (hn d).mono fun e c' he => .nested hd he

theorem furtherArgument_comesTo {args : List Expr} (h : c.ReadsInTurn (ArgumentRead R) args d) :
    (furtherArgument nested args).ComesTo d
      (Sum.elim (c.ReadsInTurn (ArgumentRead R)) (c.ReadsInTurn (ArgumentRead R))) := by
  refine .lookForSignificant (fun _ => ?_) fun _ => .pure (h.trans d.reaches_pastBlank)
  refine (argument_comesTo hn _).bind fun e d' he => .pure ?_
  exact (h.trans d.reaches_significant).append (.single he)

/-- The arguments of a call are read behind the first. -/
theorem arguments_comesTo (first : Expr) (h : ArgumentRead R c first d) :
    (arguments steps nested first).ComesTo d (c.ReadsInTurn (ArgumentRead R)) := by
  refine .bind (.loop (fun args d h => furtherArgument_comesTo hn h) steps (.single h)) ?_
  exact fun args d hargs => .expect fun _ => .pure (hargs.trans (reaches_scan d))

theorem callArguments_comesTo (c : Scanner) :
    (callArguments steps nested).ComesTo c (c.ReadsInTurn (ArgumentRead R)) := by
  refine (regexTrace.comesTo c).bind fun p d hd => ?_
  split
  · exact arguments_comesTo hn _ (.regex hd)
  · refine .lookFor (fun _ => .pure (.done (hd.trans (reaches_scan d)))) fun _ => ?_
    exact (hn d).bind fun e d' he => arguments_comesTo hn e (.nested hd he)

theorem callOrReference_comesTo (c : Scanner) (hk : c.scan.1.kind = .ident) :
    (callOrReference steps nested c.scan.1).ComesTo c.scan.2 (OperandRead R c) := by
  refine .lookFor (fun _ => ?_) fun _ => ?_
  · refine (callArguments_comesTo hn _).bind fun args c' hargs => .pure (.call ?_)
    exact hargs.after ((reaches_scan c).trans (reaches_scan _))
  · exact (reference_comesTo steps c hk).bind fun v c' hv => .pure (.reference hv)

theorem operand_comesTo (c : Scanner) :
    (operand params steps nested).ComesTo c (OperandRead R c.pastBlank) := by
  rw [operand_eq]
  refine .significant (.take (.ite (fun _ => ?_) fun _ => .ite (fun hident => ?_) fun _ => ?_))
  · refine (hn _).bind fun e d he => .expectSignificant fun _ => .pure ?_
    exact .paren (reaches_scan _) he d.reaches_significant
  · exact callOrReference_comesTo hn _ hident
  · refine (((tokenOperandTrace params _).comesTo _).and_yields
      (tokenOperand_yields_literal params _)).mono ?_
    rintro _ c' ⟨hc', a, rfl, ha⟩
    exact .literal ha ((reaches_scan _).trans hc')

theorem rightOperand_comesTo (op : Operator) (c : Scanner) :
    (rightOperand params steps nested op).ComesTo c fun e c' => OperationRead R c (op, e) c' := by
  refine .ite (fun hm => (matchOperand_comesTo c).mono ?_) fun hm => (operand_comesTo hn c).mono ?_
  · rintro _ c' ⟨⟨p, rfl⟩, hc'⟩
    exact .regex hm hc'
  · exact fun e c' he => .operand hm c.reaches_pastBlank he

/-- **The operands of a chain are read one after the other.** -/
theorem chain_comesTo (c : Scanner) : (chain params steps nested).ComesTo c fun x c' =>
    ∃ d, OperandRead R c.pastBlank x.1 d ∧ d.ReadsInTurn (OperationRead R) x.2 c' := by
  refine (operand_comesTo hn c).bind fun first d hfirst => ?_
  refine .bind (.loop (ψ := d.ReadsInTurn (OperationRead R)) ?_ steps (.done (.refl d)))
    fun ops c' hops => .pure ⟨d, hfirst, hops⟩
  intro ops d' hops
  refine .significant ?_
  split
  · exact .putBack (.pure (hops.trans d'.reaches_pastBlank))
  · next op _ =>
    refine .take ((rightOperand_comesTo hn op _).bind fun rhs c' hrhs => .pure ?_)
    exact (hops.trans d'.reaches_significant).append (.single hrhs)

end Nested

/-- What holds of the tree of a chain, if it holds of the expressions within its operands, holds of every
expression. -/
theorem expression_comesTo (params : Params)
    (hchain : ∀ {c d c' first ops}, OperandRead R c.pastBlank first d →
      d.ReadsInTurn (OperationRead R) ops c' → R c (.ofChain first ops) c')
    (n : Nat) (c : Scanner) : (expression params n).ComesTo c (R c) := by
  induction n generalizing c with
  | zero => exact .fail
  | succ n ih =>
    refine (chain_comesTo ih c).bind ?_
    rintro x c' ⟨d, hfirst, hops⟩
    exact .pure (hchain hfirst hops)

end Grammar

end InfluxQL
