import InfluxQL.Grammar.Query
import InfluxQL.Proofs.Grammar.Trace
import InfluxQL.Proofs.Syntax.Equality

/-!
# Precedence of what is parsed

The tree of an expression has the operands and operators that were read, in the order in which they
were read, and it is the only such tree that respects precedence.

* `Grammar.Part`, `Grammar.PartRead`: how a text is read part by part, without a tree: an expression is a
  chain, and what stands in parentheses or is an argument of a call is another one, which is read where
  the parenthesis, the comma or the name before it has been read;
* `Grammar.PartRead.chain_of_expression`: this is how the spines of an expression are read;
* `Grammar.PartRead.unique`: only one tree that respects precedence is read so;
* `parseExpr_precedence`: the statement for a whole text.
-/

namespace InfluxQL

namespace Grammar

open Production

/-- What is read of an expression. -/
inductive Part
  /-- An expression on its own: an operand and the operations behind it. -/
  | chain (e : Expr)
  | operand (e : Expr)
  /-- Operators with their right operands, one behind the other. -/
  | operations (ops : List (Operator × Expr))
  | argument (e : Expr)
  /-- The arguments of a call, and the parenthesis that closes it. -/
  | arguments (args : List Expr)
  /-- The same where an argument has been read. -/
  | further (args : List Expr)

/-- Which part it is. -/
def Part.sort : Part → Nat
  | chain _ => 0
  | operand _ => 1
  | operations _ => 2
  | argument _ => 3
  | arguments _ => 4
  | further _ => 5

/-- The trees of the part respect precedence. -/
def Part.BindsInOrder : Part → Prop
  | chain e | operand e | argument e => e.Everywhere Expr.BindsInOrder
  | operations ops => ∀ x ∈ ops, x.2.Everywhere Expr.BindsInOrder
  | arguments args | further args => ∀ e ∈ args, e.Everywhere Expr.BindsInOrder

variable [PatternCompiler]

/-- The part is read from the first stream, which leaves the second. Names, literals and regular
expressions are read by their rules; that of a name takes the number of steps, which is one less for
each chain within another. -/
inductive PartRead (params : Params) : Nat → TokenStream → Part → TokenStream → Prop
  | chain {n : Nat} {s s₁ s' : TokenStream} {e : Expr}
      (first : PartRead params n s (.operand e.spine.1) s₁)
      (behind : PartRead params n s₁ (.operations e.spine.2) s') :
      PartRead params (n + 1) s (.chain e) s'
  | paren {n : Nat} {s s₁ s₂ s' : TokenStream} {t u : Token} {e : Expr}
      (next : s.scanSignificant = (t, s₁)) (left : t.kind = .leftParen)
      (inner : PartRead params n s₁ (.chain e) s₂)
      (behind : s₂.scanSignificant = (u, s')) (right : u.kind = .rightParen) :
      PartRead params n s (.operand (.paren e)) s'
  | call {n : Nat} {s s₁ s₂ s' : TokenStream} {t u : Token} {args : List Expr}
      (next : s.scanSignificant = (t, s₁)) (name : t.kind = .ident)
      (behind : s₁.scan = (u, s₂)) (left : u.kind = .leftParen)
      (inner : PartRead params n s₂ (.arguments args) s') :
      PartRead params n s (.operand (.call (String.ofList (Unicode.lowercase t.lit.toList)) args)) s'
  | reference {n : Nat} {s s₁ s₂ s' : TokenStream} {t u : Token} {v : VarRef}
      (next : s.scanSignificant = (t, s₁)) (name : t.kind = .ident)
      (behind : s₁.scan = (u, s₂)) (other : u.kind ≠ .leftParen)
      (ref : reference n t s₂.unscan = .ok (v, s')) :
      PartRead params n s (.operand (.atom (.var v))) s'
  | literal {n : Nat} {s s₁ s' : TokenStream} {t : Token} {e : Expr}
      (next : s.scanSignificant = (t, s₁)) (other : t.kind ≠ .leftParen) (noname : t.kind ≠ .ident)
      (token : tokenOperand params t s₁ = .ok (e, s')) : PartRead params n s (.operand e) s'
  | none {n : Nat} {s s₁ : TokenStream} {t : Token}
      (next : s.scanSignificant = (t, s₁)) (other : t.kind.operator? = none) :
      PartRead params n s (.operations []) s₁.unscan
  | operation {n : Nat} {s s₁ s₂ s' : TokenStream} {t : Token} {op : Operator} {e : Expr}
      {ops : List (Operator × Expr)}
      (next : s.scanSignificant = (t, s₁)) (operator : t.kind.operator? = some op)
      (plain : ¬op.isMatch) (right : PartRead params n s₁ (.operand e) s₂)
      (behind : PartRead params n s₂ (.operations ops) s') :
      PartRead params n s (.operations ((op, e) :: ops)) s'
  | matching {n : Nat} {s s₁ s₂ s' : TokenStream} {t : Token} {op : Operator} {p : String}
      {ops : List (Operator × Expr)}
      (next : s.scanSignificant = (t, s₁)) (operator : t.kind.operator? = some op)
      (isMatch : op.isMatch) (regex : regex? s₁.skipBlank = .ok (some p, s₂))
      (behind : PartRead params n s₂ (.operations ops) s') :
      PartRead params n s (.operations ((op, .atom (.regex p)) :: ops)) s'
  | regex {n : Nat} {s s' : TokenStream} {p : String} (regex : regex? s = .ok (some p, s')) :
      PartRead params n s (.argument (.atom (.regex p))) s'
  | nested {n : Nat} {s s₁ s' : TokenStream} {e : Expr} (noregex : regex? s = .ok (none, s₁))
      (inner : PartRead params n s₁ (.chain e) s') : PartRead params n s (.argument e) s'
  | empty {n : Nat} {s s₁ s' : TokenStream} {t : Token} (noregex : regex? s = .ok (none, s₁))
      (next : s₁.scan = (t, s')) (right : t.kind = .rightParen) :
      PartRead params n s (.arguments []) s'
  | firstRegex {n : Nat} {s s₁ s' : TokenStream} {p : String} {args : List Expr}
      (regex : regex? s = .ok (some p, s₁)) (behind : PartRead params n s₁ (.further args) s') :
      PartRead params n s (.arguments (.atom (.regex p) :: args)) s'
  | first {n : Nat} {s s₁ s₂ s₃ s' : TokenStream} {t : Token} {e : Expr} {args : List Expr}
      (noregex : regex? s = .ok (none, s₁)) (next : s₁.scan = (t, s₂)) (other : t.kind ≠ .rightParen)
      (inner : PartRead params n s₂.unscan (.chain e) s₃)
      (behind : PartRead params n s₃ (.further args) s') :
      PartRead params n s (.arguments (e :: args)) s'
  | closed {n : Nat} {s s₁ s' : TokenStream} {t u : Token} (next : s.scanSignificant = (t, s₁))
      (other : t.kind ≠ .comma) (behind : s₁.unscan.scan = (u, s')) (right : u.kind = .rightParen) :
      PartRead params n s (.further []) s'
  | comma {n : Nat} {s s₁ s₂ s' : TokenStream} {t : Token} {e : Expr} {args : List Expr}
      (next : s.scanSignificant = (t, s₁)) (comma : t.kind = .comma)
      (argument : PartRead params n s₁ (.argument e) s₂)
      (behind : PartRead params n s₂ (.further args) s') :
      PartRead params n s (.further (e :: args)) s'

namespace PartRead

variable {params : Params} {n : Nat} {nested : Production Expr} {s s' s'' : TokenStream}

/-! ### Expressions are read part by part -/

section Nested

variable (hn : ∀ {s e s'}, nested s = .ok (e, s') → PartRead params n s (.chain e) s')
include hn

theorem argument_of_ok {e : Expr} (h : argument nested s = .ok (e, s')) :
    PartRead params n s (.argument e) s' := by
  obtain ⟨p?, s₁, hp, h⟩ := bind_eq_ok.1 h
  cases p? with
  | some p =>
    cases h
    exact .regex hp
  | none => exact .nested hp (hn h)

/-- The arguments behind the first, and the parenthesis: each round reads a comma and an argument. -/
theorem further_of_ok {m : Nat} {before args : List Expr}
    (h : (loop (furtherArgument nested) m before >>= fun args => Production.scan >>= fun t =>
      if t.kind = .rightParen then pure args else unexpected t [")"]) s = .ok (args, s')) :
    ∃ read, args = before ++ read ∧ PartRead params n s (.further read) s' := by
  induction m generalizing s before with
  | zero => cases h
  | succ m ih =>
    rw [loop, bind_assoc] at h
    obtain ⟨r, s₃, hround, h⟩ := bind_eq_ok.1 h
    obtain ⟨t, s₁, ht, hround⟩ := bind_eq_ok.1 hround
    replace ht : s.scanSignificant = (t, s₁) := Except.ok.inj ht
    split_ifs at hround with hk
    · obtain ⟨e, s₂, he, hround⟩ := bind_eq_ok.1 hround
      cases hround
      obtain ⟨read, rfl, hread⟩ := ih h
      exact ⟨e :: read, by simp, .comma ht hk (argument_of_ok hn he) hread⟩
    · cases hround
      obtain ⟨_, _, hpure, h⟩ := bind_eq_ok.1 h
      cases hpure
      obtain ⟨u, s₂, hu, h⟩ := bind_eq_ok.1 h
      replace hu : s₁.unscan.scan = (u, s₂) := Except.ok.inj hu
      split_ifs at h with hr
      · cases h
        exact ⟨[], by simp, .closed ht hk hu hr⟩
      · cases h

theorem arguments_of_ok {m : Nat} {args : List Expr}
    (h : callArguments m nested s = .ok (args, s')) : PartRead params n s (.arguments args) s' := by
  obtain ⟨p?, s₁, hp, h⟩ := bind_eq_ok.1 h
  cases p? with
  | some p =>
    obtain ⟨read, rfl, hread⟩ := further_of_ok hn h
    exact .firstRegex hp hread
  | none =>
    obtain ⟨t, s₂, ht, h⟩ := bind_eq_ok.1 h
    replace ht : s₁.scan = (t, s₂) := Except.ok.inj ht
    split_ifs at h with hr
    · cases h
      exact .empty hp ht hr
    · obtain ⟨_, _, hu, h⟩ := bind_eq_ok.1 h
      cases hu
      obtain ⟨e, s₃, he, h⟩ := bind_eq_ok.1 h
      obtain ⟨read, rfl, hread⟩ := further_of_ok hn h
      exact .first hp ht hr (hn he) hread

theorem operand_of_ok {e : Expr} (h : operand params n nested s = .ok (e, s')) :
    PartRead params n s (.operand e) s' := by
  rw [operand_eq] at h
  obtain ⟨t, s₁, ht, h⟩ := bind_eq_ok.1 h
  replace ht : s.scanSignificant = (t, s₁) := Except.ok.inj ht
  split_ifs at h with hleft hname
  · obtain ⟨e, s₂, he, h⟩ := bind_eq_ok.1 h
    obtain ⟨u, s₃, hu, h⟩ := bind_eq_ok.1 h
    replace hu : s₂.scanSignificant = (u, s₃) := Except.ok.inj hu
    split_ifs at h with hright
    · cases h
      exact .paren ht hleft (hn he) hu hright
    · cases h
  · obtain ⟨u, s₂, hu, h⟩ := bind_eq_ok.1 h
    replace hu : s₁.scan = (u, s₂) := Except.ok.inj hu
    split_ifs at h with hparen
    · obtain ⟨args, s₃, hargs, h⟩ := bind_eq_ok.1 h
      cases h
      exact .call ht hname hu hparen (arguments_of_ok hn hargs)
    · obtain ⟨_, _, hun, h⟩ := bind_eq_ok.1 h
      cases hun
      obtain ⟨v, s₃, hv, h⟩ := bind_eq_ok.1 h
      cases h
      exact .reference ht hname hu hparen hv
  · exact .literal ht hleft hname h

/-- Behind an operand: each round reads an operator and its right operand. -/
theorem operations_of_ok {m : Nat} {before ops : List (Operator × Expr)}
    (h : loop (Grammar.operation params n nested) m before s = .ok (ops, s')) :
    ∃ read, ops = before ++ read ∧ PartRead params n s (.operations read) s' := by
  induction m generalizing s before with
  | zero => cases h
  | succ m ih =>
    rw [loop] at h
    obtain ⟨r, s₃, hround, h⟩ := bind_eq_ok.1 h
    obtain ⟨t, s₁, ht, hround⟩ := bind_eq_ok.1 hround
    replace ht : s.scanSignificant = (t, s₁) := Except.ok.inj ht
    cases hk : t.kind.operator? with
    | none =>
      rw [hk] at hround
      cases hround
      cases h
      exact ⟨[], by simp, .none ht hk⟩
    | some op =>
      rw [hk] at hround
      obtain ⟨rhs, s₂, hright, hround⟩ := bind_eq_ok.1 hround
      cases hround
      obtain ⟨read, rfl, hread⟩ := ih h
      refine ⟨(op, rhs) :: read, by simp, ?_⟩
      unfold rightOperand at hright
      split_ifs at hright with hm
      · obtain ⟨_, _, hblank, hright⟩ := bind_eq_ok.1 hright
        cases hblank
        obtain ⟨p?, s₄, hp, hright⟩ := bind_eq_ok.1 hright
        cases p? with
        | none =>
          obtain ⟨_, _, -, hright⟩ := bind_eq_ok.1 hright
          cases hright
        | some p =>
          cases hright
          exact .matching ht hk hm hp hread
      · exact .operation ht hk hm (operand_of_ok hn hright) hread

end Nested

/-- **An expression is read part by part, and its spine is what is read.** -/
theorem chain_of_expression {e : Expr} (h : expression params n s = .ok (e, s')) :
    PartRead params n s (.chain e) s' := by
  induction n generalizing s e s' with
  | zero => cases h
  | succ n ih =>
    obtain ⟨⟨first, ops⟩, s₂, hchain, he⟩ := bind_eq_ok.1 h
    cases he
    obtain ⟨hfirst, hops⟩ := chain_yields (expression_yields_canonical params n) params n _ _ _ hchain
    have hspine : (Expr.ofChain first ops).spine = (first, ops) := by
      rw [Expr.spine_ofChain fun x hx => (hops x hx).regular.2.1,
        Expr.spine_of_operator? hfirst.regular.2.1]
      rfl
    obtain ⟨_, s₁, hread, hchain⟩ := bind_eq_ok.1 hchain
    obtain ⟨_, s₃, hreads, hchain⟩ := bind_eq_ok.1 hchain
    cases hchain
    obtain ⟨read, rfl, hreads⟩ := operations_of_ok ih hreads
    apply PartRead.chain
    · rw [hspine]
      exact operand_of_ok ih hread
    · rw [hspine]
      exact hreads

/-! ### Only one tree is read -/

/-- **What is read is determined by the text,** once its trees respect precedence. -/
theorem unique {x y : Part} (h : PartRead params n s x s') (h' : PartRead params n s y s'')
    (hsort : x.sort = y.sort) (hx : x.BindsInOrder) (hy : y.BindsInOrder) : x = y ∧ s' = s'' := by
  induction h generalizing y s'' with
  | chain first behind ihf ihb =>
    cases h' with
    | chain first' behind' =>
      obtain ⟨hf, rfl⟩ := ihf first' rfl hx.spine.1 hy.spine.1
      obtain ⟨hb, rfl⟩ := ihb behind' rfl hx.spine.2 hy.spine.2
      injection hf with hf
      injection hb with hb
      exact ⟨congrArg Part.chain (Expr.eq_of_spine_eq hx hy (Prod.ext hf hb)), rfl⟩
    | _ => cases hsort
  | paren next left inner behind right ih =>
    cases h' with
    | paren next' _ inner' behind' _ =>
      cases next.symm.trans next'
      obtain ⟨he, rfl⟩ :=
        ih inner' rfl ((Expr.everywhere_paren _).1 hx).2 ((Expr.everywhere_paren _).1 hy).2
      cases he
      cases behind.symm.trans behind'
      exact ⟨rfl, rfl⟩
    | _ => simp_all [Part.sort]
  | call next name behind left inner ih =>
    cases h' with
    | call next' name' behind' left' inner' =>
      cases next.symm.trans next'
      cases behind.symm.trans behind'
      obtain ⟨he, rfl⟩ :=
        ih inner' rfl ((Expr.everywhere_call ..).1 hx).2 ((Expr.everywhere_call ..).1 hy).2
      cases he
      exact ⟨rfl, rfl⟩
    | _ => simp_all [Part.sort]
  | reference next name behind other ref =>
    cases h' with
    | reference next' name' behind' other' ref' =>
      cases next.symm.trans next'
      cases behind.symm.trans behind'
      cases ref.symm.trans ref'
      exact ⟨rfl, rfl⟩
    | _ => simp_all [Part.sort]
  | literal next other noname token =>
    cases h' with
    | literal next' _ _ token' =>
      cases next.symm.trans next'
      cases token.symm.trans token'
      exact ⟨rfl, rfl⟩
    | _ => simp_all [Part.sort]
  | none next other =>
    cases h' with
    | none next' _ =>
      cases next.symm.trans next'
      exact ⟨rfl, rfl⟩
    | _ => simp_all [Part.sort]
  | operation next operator plain right behind ihr ihb =>
    cases h' with
    | operation next' operator' _ right' behind' =>
      cases next.symm.trans next'
      cases operator.symm.trans operator'
      rw [Part.BindsInOrder, List.forall_mem_cons] at hx hy
      obtain ⟨hr, rfl⟩ := ihr right' rfl hx.1 hy.1
      obtain ⟨hb, rfl⟩ := ihb behind' rfl hx.2 hy.2
      cases hr
      cases hb
      exact ⟨rfl, rfl⟩
    | _ => simp_all [Part.sort]
  | matching next operator isMatch regex behind ih =>
    cases h' with
    | matching next' operator' _ regex' behind' =>
      cases next.symm.trans next'
      cases operator.symm.trans operator'
      cases regex.symm.trans regex'
      rw [Part.BindsInOrder, List.forall_mem_cons] at hx hy
      obtain ⟨hb, rfl⟩ := ih behind' rfl hx.2 hy.2
      cases hb
      exact ⟨rfl, rfl⟩
    | _ => simp_all [Part.sort]
  | regex regex =>
    cases h' with
    | regex regex' =>
      cases regex.symm.trans regex'
      exact ⟨rfl, rfl⟩
    | _ => simp_all [Part.sort]
  | nested noregex inner ih =>
    cases h' with
    | nested noregex' inner' =>
      cases noregex.symm.trans noregex'
      obtain ⟨he, rfl⟩ := ih inner' rfl hx hy
      cases he
      exact ⟨rfl, rfl⟩
    | _ => simp_all [Part.sort]
  | empty noregex next right =>
    cases h' with
    | empty noregex' next' _ =>
      cases noregex.symm.trans noregex'
      cases next.symm.trans next'
      exact ⟨rfl, rfl⟩
    | _ => simp_all [Part.sort]
  | firstRegex regex behind ih =>
    cases h' with
    | firstRegex regex' behind' =>
      cases regex.symm.trans regex'
      rw [Part.BindsInOrder, List.forall_mem_cons] at hx hy
      obtain ⟨hb, rfl⟩ := ih behind' rfl hx.2 hy.2
      cases hb
      exact ⟨rfl, rfl⟩
    | _ => simp_all [Part.sort]
  | first noregex next other inner behind ihi ihb =>
    cases h' with
    | first noregex' next' _ inner' behind' =>
      cases noregex.symm.trans noregex'
      cases next.symm.trans next'
      rw [Part.BindsInOrder, List.forall_mem_cons] at hx hy
      obtain ⟨hi, rfl⟩ := ihi inner' rfl hx.1 hy.1
      obtain ⟨hb, rfl⟩ := ihb behind' rfl hx.2 hy.2
      cases hi
      cases hb
      exact ⟨rfl, rfl⟩
    | _ => simp_all [Part.sort]
  | closed next other behind right =>
    cases h' with
    | closed next' _ behind' _ =>
      cases next.symm.trans next'
      cases behind.symm.trans behind'
      exact ⟨rfl, rfl⟩
    | _ => simp_all [Part.sort]
  | comma next comma argument behind iha ihb =>
    cases h' with
    | comma next' _ argument' behind' =>
      cases next.symm.trans next'
      rw [Part.BindsInOrder, List.forall_mem_cons] at hx hy
      obtain ⟨ha, rfl⟩ := iha argument' rfl hx.1 hy.1
      obtain ⟨hb, rfl⟩ := ihb behind' rfl hx.2 hy.2
      cases ha
      cases hb
      exact ⟨rfl, rfl⟩
    | _ => simp_all [Part.sort]

end PartRead

end Grammar

open Grammar in
/-- **The tree of an expression has the operands and operators that were read, in this order, and is
the only such tree that respects precedence.** Everything that stands on its own within it is read the
same way, at its place in the text. -/
theorem parseExpr_precedence [PatternCompiler] {source : String} {params : Params} {e : Expr}
    (h : parseExpr source params = .ok e) :
    e.Everywhere Expr.BindsInOrder ∧
      (∃ s', PartRead params (stepsFor source.toList) (TokenStream.start source.toList) (.chain e) s') ∧
      (∀ e' : Expr, e'.Everywhere Expr.BindsInOrder → e'.spine = e.spine → e' = e) ∧
      ∀ e' s', PartRead params (stepsFor source.toList) (TokenStream.start source.toList)
        (.chain e') s' → e'.Everywhere Expr.BindsInOrder → e' = e := by
  have hb := ((expression_yields_canonical params _).run h).regular.mono fun _ hx => hx.bindsInOrder
  obtain ⟨s', hread⟩ : ∃ s', PartRead params (stepsFor source.toList)
      (TokenStream.start source.toList) (.chain e) s' := by
    unfold parseExpr Production.run at h
    split at h <;> cases h
    next hs => exact ⟨_, .chain_of_expression hs⟩
  refine ⟨hb, ⟨s', hread⟩, fun e' he' hs => Expr.eq_of_spine_eq he' hb hs, fun e' s'' hread' he' => ?_⟩
  obtain ⟨he, -⟩ := hread'.unique hread rfl he' hb
  injection he

open Grammar in
/-- The product is below the second of the two differences, and in the call another chain is read. -/
theorem parseExpr_precedence_differences :
    let v (name : String) : Expr := .atom (.var ⟨name, .unknown⟩)
    let source := "a-b*f(c+d*1)-(e)"
    let call : Expr := .call "f" [.binary .add (v "c") (.binary .mul (v "d") (.atom (.integer 1)))]
    let e : Expr := .binary .sub (.binary .sub (v "a") (.binary .mul (v "b") call)) (.paren (v "e"))
    parseExpr source .empty = .ok e ∧ e.Everywhere Expr.BindsInOrder ∧
      ∃ s', PartRead .empty (stepsFor source.toList) (TokenStream.start source.toList)
        (.chain e) s' := by
  intro v source call e
  have h : parseExpr source .empty = .ok e := by
    decide +kernel
  obtain ⟨hb, hread, -⟩ := parseExpr_precedence h
  exact ⟨h, hb, hread⟩

end InfluxQL
