import InfluxQL.Grammar.Query
import InfluxQL.Proofs.Grammar.Reading
import InfluxQL.Proofs.Syntax.Canonical
import InfluxQL.Proofs.Token.Spelling

/-!
# How expressions are laid out

What a reader of a text finds at the front of an expression and of its parts, and behind them.

* `Grammar.pastBlankCharacter`: where a regular expression is looked for;
* `Grammar.reference_reads`: a name is read with the type that it declares;
* `Grammar.renderFurther`, `Grammar.renderOperations`: the texts of all parts of a list but the first, and
  of the operators of a chain with their right operands;
* `Grammar.Starts`: the text of an expression starts like an operand.
-/

namespace InfluxQL.Grammar

open Production Lexeme

variable {b : Bool} {text rest : List Char}

/-! ### Blanks in front of a pattern -/

/-- The text behind the blanks at its front, if its first character is one. -/
def pastBlankCharacter (text : List Char) : List Char :=
  if text.head?.any isBlank then pastBlank text else text

theorem skipBlankCharacter_reads :
    skipBlankCharacter.Reads b text () b (pastBlankCharacter text) := by
  refine .peek? ?_
  cases text with
  | nil => exact .pure rfl
  | cons c text =>
    rw [pastBlankCharacter, List.head?_cons, Option.any_some]
    dsimp only
    by_cases hc : isBlank c
    · rw [if_pos hc, if_pos hc]
      exact Reads.skipBlank
    · rw [if_neg hc, if_neg hc]
      exact .pure rfl

theorem pastBlankCharacter_quoteRegex (p rest : List Char) :
    pastBlankCharacter (quoteRegex p ++ rest) = quoteRegex p ++ rest ∧
      pastBlankCharacter (' ' :: (quoteRegex p ++ rest)) = quoteRegex p ++ rest :=
  ⟨rfl, rfl⟩

theorem pastBlankCharacter_of_startsOperand (h : (nextKind b text).startsOperand) :
    pastBlankCharacter text = text ∧ pastBlankCharacter (' ' :: text) = text := by
  constructor
  · rw [pastBlankCharacter, if_neg]
    cases text with
    | nil => simp
    | cons c text => simpa using (head?_of_startsOperand h).1 c rfl
  · simp [pastBlankCharacter, isBlank, pastBlank_space, pastBlank_of_startsOperand h]

/-! ### Names and types -/

section Names

variable {steps : Nat}

/-- A name of one segment. -/
theorem segments_reads (hs : 0 < steps) (first : Token) (hr : nextKind b text ≠ .dot) :
    (segments steps first).Reads b text [first.lit] b text := by
  obtain ⟨n, rfl⟩ := Nat.exists_eq_add_of_lt hs
  have hloop : (loop segment (0 + n + 1) ⟨[first.lit], first.span.stop⟩).Reads b text
      ⟨[first.lit], first.span.stop⟩ b text := by
    exact Reads.lastRound (.lookPast hr (.pure rfl)) rfl
  exact hloop.bind (.pure rfl)

theorem DataType.next?_text {type : DataType} (h : type ≠ .unknown) (hr : NoWordPart rest) :
    next? b (type.text.toList ++ rest) =
      some ⟨.ident, type.text.toList, type.text.toList.length⟩ := by
  have hw : isWord type.text.toList ∧ TokenKind.ofWord? type.text.toList = none := by
    cases type <;> first | exact absurd rfl h | decide
  rw [next?_word b hw.1 hr, hw.2]

theorem reference_reads (hs : 0 < steps) {v : VarRef} {first : Token} (hf : first.lit = v.name)
    (hr : Delimited rest) : (reference steps first).Reads true
      ((if v.type = .unknown then [] else "::".toList ++ v.type.text.toList) ++ rest) v true
        rest := by
  obtain ⟨name, type⟩ := v
  have hname : String.intercalate "." [first.lit] = name := by
    simpa using hf
  split
  · next ht =>
    cases ht
    refine (segments_reads hs first (hr.nextKind_ne true (by decide))).bind ?_
    rw [hname]
    exact .lookPast (hr.nextKind_ne true (by decide)) (.pure rfl)
  · next ht =>
    have hc := next?_doubleColon true (type.text.toList ++ rest)
    refine (segments_reads hs first (by rw [List.append_assoc]; simp [nextKind, hc])).bind ?_
    rw [hname, List.append_assoc]
    refine .word "::".toList hc (by decide) fun t hk _ => ?_
    rw [if_pos hk]
    refine .word type.text.toList (DataType.next?_text ht hr.noWordPart) (by decide)
      fun t hk hl => ?_
    have hn : (if t.kind = .ident then DataType.ofName? t.lit.toList else none) = some type := by
      rw [if_pos hk, hl, String.toList_ofList]
      cases type <;> first | exact absurd rfl ht | decide
    rw [hn]
    exact .pure rfl

/-- What follows a name that stands alone, up to a type that it declares. -/
theorem noWordPart_of_type (type : DataType) (hr : Delimited rest) :
    NoWordPart ((if type = .unknown then [] else "::".toList ++ type.text.toList) ++ rest) := by
  split
  · exact hr.noWordPart
  · rintro c ⟨⟩
    rfl

theorem nextKind_type_ne_leftParen (type : DataType) (hr : Delimited rest) :
    nextKind true ((if type = .unknown then [] else "::".toList ++ type.text.toList) ++ rest) ≠
      .leftParen := by
  split
  · exact hr.nextKind_ne true (by decide)
  · rw [List.append_assoc]
    simp [nextKind, next?_doubleColon true (type.text.toList ++ rest)]

end Names

/-! ### Lists of arguments -/

/-- What stands behind an argument. -/
def EndsArgument (rest : List Char) : Prop :=
  ∃ t, rest = ',' :: t ∨ rest = ')' :: t

theorem EndsArgument.delimited (h : EndsArgument rest) : Delimited rest := by
  obtain ⟨t, rfl | rfl⟩ := h <;> exact delimited_cons (by simp)

theorem EndsArgument.pastBlank_eq (h : EndsArgument rest) : pastBlank rest = rest := by
  obtain ⟨t, rfl | rfl⟩ := h <;> exact pastBlank_eq_self rfl

theorem EndsArgument.operator?_eq (h : EndsArgument rest) :
    (nextKind true rest).operator? = none := by
  obtain ⟨t, rfl | rfl⟩ := h <;> rfl

/-- The text of the parts behind the first. -/
def renderFurther (parts : List (List Char)) : List Char :=
  parts.flatMap fun part => ',' :: ' ' :: part

theorem renderFurther_cons (part : List Char) (parts : List (List Char)) (rest : List Char) :
    renderFurther (part :: parts) ++ rest =
      ',' :: (' ' :: (part ++ (renderFurther parts ++ rest))) := by
  simp [renderFurther]

theorem intercalate_cons_eq_flatMap (sep part : List Char) (parts : List (List Char)) :
    List.intercalate sep (part :: parts) = part ++ parts.flatMap (sep ++ ·) := by
  induction parts generalizing part with
  | nil => simp
  | cons next parts ih =>
    rw [List.intercalate_cons_cons, ih, List.flatMap_cons, List.append_assoc, List.append_assoc]

theorem commaSeparated_cons (part : List Char) (parts : List (List Char)) :
    commaSeparated (part :: parts) = part ++ renderFurther parts :=
  intercalate_cons_eq_flatMap _ part parts

theorem length_renderFurther_cons (part : List Char) (parts : List (List Char)) :
    (renderFurther (part :: parts)).length = part.length + (renderFurther parts).length + 2 := by
  simp only [renderFurther, List.flatMap_cons, List.length_append, List.length_cons]
  omega

theorem length_le_renderFurther (parts : List (List Char)) :
    parts.length ≤ (renderFurther parts).length := by
  induction parts with
  | nil => simp
  | cons part parts ih =>
    rw [length_renderFurther_cons, List.length_cons]
    omega

theorem endsArgument_renderFurther (parts : List (List Char)) (rest : List Char) :
    EndsArgument (renderFurther parts ++ ')' :: rest) := by
  cases parts with
  | nil => exact ⟨rest, .inr rfl⟩
  | cons part parts => exact ⟨_, .inl rfl⟩

/-! ### Chains -/

/-- The text of operators and their right operands. -/
def renderOperations (ops : List (Operator × Expr)) : List Char :=
  ops.flatMap fun x => ' ' :: (x.1.text.toList ++ ' ' :: x.2.render)

theorem render_eq_spine (e : Expr) :
    e.render = e.spine.1.render ++ renderOperations e.spine.2 := by
  induction e with
  | binary op l r ihl ihr =>
    rw [Expr.render, ihl, ihr]
    simp [Expr.spine, renderOperations]
  | atom | call | paren => simp [Expr.spine, renderOperations]

theorem delimited_renderOperations (ops : List (Operator × Expr)) (hr : Delimited rest) :
    Delimited (renderOperations ops ++ rest) := by
  cases ops with
  | nil => exact hr
  | cons x ops => exact delimited_cons (.inl rfl)

theorem length_le_renderOperations (ops : List (Operator × Expr)) :
    ops.length ≤ (renderOperations ops).length := by
  induction ops with
  | nil => simp
  | cons x ops ih =>
    simp only [renderOperations, List.flatMap_cons, List.length_append, List.length_cons] at ih ⊢
    omega

/-! ### The front of an expression -/

/-- The text of the expression starts like an operand. -/
def Starts (e : Expr) : Prop :=
  ∀ {rest : List Char}, Delimited rest → (nextKind false (e.render ++ rest)).startsOperand

theorem render_length_pos {e : Expr} (hs : Starts e) : 0 < e.render.length := by
  refine Nat.pos_of_ne_zero fun h => ?_
  have := hs delimited_nil
  rw [List.length_eq_zero_iff.1 h] at this
  cases this

theorem starts_var (v : VarRef) : Starts (.atom (.var v)) := by
  intro rest hr
  rw [Expr.render, Atom.render, VarRef.render, List.append_assoc,
    nextKind_of_lexeme (next?_renderName false v.name (noWordPart_of_type v.type hr))]
  rfl

theorem starts_literal {a : Atom} (hv : ∀ v, a ≠ .var v) (hx : (Expr.atom a).isRegex = false)
    (hf : (Expr.atom a).FiniteNumber) : Starts (.atom a) := by
  intro rest hr
  cases a with
  | var v => exact absurd rfl (hv v)
  | string value =>
    exact (nextKind_of_lexeme (next?_quoteString false value.toList rest)).symm ▸ rfl
  | number x => exact (nextKind_of_lexeme (next?_ofDouble hf hr)).symm ▸ rfl
  | integer n => exact (nextKind_of_lexeme (next?_ofInteger n hr)).symm ▸ rfl
  | boolean value =>
    exact (nextKind_of_lexeme (next?_boolean false value hr.noWordPart)).symm ▸ rfl
  | regex p => cases hx

theorem starts_paren (e : Expr) : Starts (.paren e) := by
  intro rest hr
  rw [Expr.render, List.cons_append, nextKind_of_lexeme (next?_leftParen false _)]
  rfl

theorem starts_call (name : String) (args : List Expr) : Starts (.call name args) := by
  intro rest hr
  have hw : NoWordPart ('(' :: (commaSeparated (Expr.renderAll args) ++ [')']) ++ rest) := by
    rintro c ⟨⟩
    rfl
  rw [Expr.render, List.append_assoc, nextKind_of_lexeme (next?_renderName false name hw)]
  rfl

theorem starts_of_spine {e : Expr} (h : Starts e.spine.1) : Starts e := by
  intro rest hr
  rw [render_eq_spine e, List.append_assoc]
  exact h (delimited_renderOperations _ hr)

end InfluxQL.Grammar
