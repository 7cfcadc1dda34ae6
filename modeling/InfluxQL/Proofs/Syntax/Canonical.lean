import InfluxQL.Aggregate
import InfluxQL.PatternCompiler
import InfluxQL.Proofs.Numeric.Double
import InfluxQL.Proofs.Syntax.Precedence
import InfluxQL.Proofs.Token.RegexBody
import InfluxQL.Syntax.Traversal
import InfluxQL.Unicode.Lowercase

/-!
# Canonical trees

A tree is canonical if its text can be read back: there is nothing in it that the text does not
show.

* `Expr.RegexInPlace`: regular expressions stand only where the grammar wants them;
* `Expr.ReadableRegex`, `Expr.LowerCaseCall`: patterns and names of calls come back as they are;
* `Expr.Canonical`: all of this, and precedence is respected;
* `Expr.canonical_ofChain`: the tree of a chain of canonical operands is canonical;
* `Measurement.Canonical`, `Select.Canonical`, `Query.Canonical`: the same for sources, statements
  and queries.
-/

namespace InfluxQL

/-- The pattern compiles and can stand between slashes. -/
structure ReadablePattern [PatternCompiler] (pattern : String) : Prop where
  compiles : Compiles pattern
  writable : RegexBody.Writable pattern.toList

namespace Expr

/-- Is the expression itself a regular expression? -/
def isRegex : Expr → Bool
  | atom (.regex _) => true
  | _ => false

/-- Is the leftmost operand a regular expression? -/
def startsWithRegex (e : Expr) : Bool :=
  e.spine.1.isRegex

/-- Below the expression, a regular expression stands only as an argument of a call or as the
leftmost operand on the right of an operator that matches one, and always there. -/
def RegexInPlace : Expr → Prop
  | atom _ => True
  | call _ args => ∀ e ∈ args, e.isRegex ∨ e.startsWithRegex = false
  | binary op _ r => r.startsWithRegex = op.isMatch
  | paren e => e.startsWithRegex = false

variable {e rhs : Expr} {op : Operator} {ops : List (Operator × Expr)}

theorem exists_of_isRegex (h : e.isRegex) : ∃ p, e = atom (.regex p) := by
  cases e with
  | atom a =>
    cases a with
    | regex p => exact ⟨p, rfl⟩
    | _ => cases h
  | _ => cases h

theorem startsWithRegex_of_operator? (h : e.operator? = none) : e.startsWithRegex = e.isRegex := by
  rw [startsWithRegex, spine_of_operator? h]

theorem startsWithRegex_insert (hr : rhs.operator? = none) :
    (e.insert op rhs).startsWithRegex = e.startsWithRegex := by
  rw [startsWithRegex, spine_insert hr, startsWithRegex]

/-- A regular expression compiles and can stand between slashes. -/
def ReadableRegex [PatternCompiler] : Expr → Prop
  | atom (.regex p) => ReadablePattern p
  | _ => True

/-- The name of a call is in lower case. -/
def LowerCaseCall : Expr → Prop
  | call name _ => Unicode.lowercase name.toList = name.toList
  | _ => True

/-- A number literal is finite. -/
def FiniteNumber : Expr → Prop
  | atom (.number x) => x.isFinite
  | _ => True

theorem isNumber_of_finiteNumber (e : Expr) (h : e.FiniteNumber) : e.IsNumber := by
  cases e with
  | atom a =>
    cases a with
    | number x => exact Double.not_isNaN_of_isFinite h
    | _ => trivial
  | _ => trivial

variable [PatternCompiler]

/-- What every expression in a canonical tree must have. -/
structure Regular (e : Expr) : Prop where
  bindsInOrder : e.BindsInOrder
  regexInPlace : e.RegexInPlace
  readableRegex : e.ReadableRegex
  lowerCaseCall : e.LowerCaseCall

/-- The tree is canonical: its text, if all numbers are finite, is read back as the tree itself. -/
structure Canonical (e : Expr) : Prop where
  regular : e.Everywhere Regular
  start : e.startsWithRegex = false

/-- What every expression must have is kept when an operation is added. -/
theorem Everywhere.regular_insert (he : e.Everywhere Regular) (hr : rhs.Everywhere Regular)
    (hn : rhs.operator? = none) (hm : rhs.isRegex = op.isMatch) :
    (e.insert op rhs).Everywhere Regular := by
  have hb : (e.insert op rhs).Everywhere BindsInOrder :=
    (he.mono fun _ h => h.bindsInOrder).insert (hr.mono fun _ h => h.bindsInOrder) hn
  induction e with
  | binary o l r _ ih =>
    obtain ⟨hsel, hel, her⟩ := (everywhere_binary ..).1 he
    rw [Expr.insert] at hb ⊢
    split at hb
    · next ho =>
      obtain ⟨hself, -, hbr⟩ := (everywhere_binary ..).1 hb
      have hreg := hsel.regexInPlace
      rw [if_pos ho]
      refine (everywhere_binary ..).2 ⟨⟨hself, ?_, trivial, trivial⟩, hel, ih her hbr⟩
      rw [RegexInPlace] at hreg ⊢
      rw [startsWithRegex_insert hn, hreg]
    · next ho =>
      rw [if_neg ho]
      refine (everywhere_binary ..).2 ⟨⟨hb.self, ?_, trivial, trivial⟩, he, hr⟩
      rw [RegexInPlace, startsWithRegex_of_operator? hn, hm]
  | atom | call | paren =>
    refine (everywhere_binary ..).2 ⟨⟨hb.self, ?_, trivial, trivial⟩, he, hr⟩
    rw [RegexInPlace, startsWithRegex_of_operator? hn, hm]

/-- The tree of a chain of canonical operands is canonical, if regular expressions stand exactly
behind the operators that match one. -/
theorem canonical_ofChain (he : e.Canonical) (hops : ∀ x ∈ ops,
    x.2.Everywhere Regular ∧ x.2.operator? = none ∧ x.2.isRegex = x.1.isMatch) :
    (ofChain e ops).Canonical := by
  induction ops generalizing e with
  | nil => exact he
  | cons x ops ih =>
    rw [List.forall_mem_cons] at hops
    obtain ⟨⟨hr, hn, hm⟩, hops⟩ := hops
    exact ih ⟨he.regular.regular_insert hr hn hm, by rw [startsWithRegex_insert hn, he.start]⟩ hops

end Expr

/-! ### Statements -/

variable [PatternCompiler]

/-- The references to measurements that have a text. -/
inductive Measurement.Canonical : Measurement → Prop
  | named (name : String) : Canonical ⟨none, none, some name, none⟩
  | qualified (policy name : String) : Canonical ⟨none, some policy, some name, none⟩
  | complete (database policy name : String) :
    Canonical ⟨some database, some policy, some name, none⟩
  | matching {p : String} (hp : ReadablePattern p) : Canonical ⟨none, none, none, some p⟩
  | matchingIn (policy : String) {p : String} (hp : ReadablePattern p) :
    Canonical ⟨none, some policy, none, some p⟩
  | matchingInBoth (database policy : String) {p : String} (hp : ReadablePattern p) :
    Canonical ⟨some database, some policy, none, some p⟩

/-- The source has a text. -/
def Source.Canonical : Source → Prop
  | measurement m => m.Canonical

/-- The field is canonical, and nothing in it belongs in a `WHERE` clause. -/
structure Field.Canonical (f : Field) : Prop where
  expr : f.expr.Canonical
  noCondition : f.expr.firstCondition? = none

/-- The statement is canonical: its parts are, there are fields and sources, the statement is raw if
it holds no call, and its aggregates are in order. -/
structure Select.Canonical (s : Select) : Prop where
  fields : s.fields ≠ [] ∧ ∀ f ∈ s.fields, f.Canonical
  sources : s.sources ≠ [] ∧ ∀ x ∈ s.sources, x.Canonical
  condition : ∀ e ∈ s.condition, e.Canonical
  isRaw : s.isRaw = !s.fields.any (·.expr.containsCall)
  valid : s.validate = .ok ()

/-- The statement is canonical. -/
def Statement.Canonical : Statement → Prop
  | select s => s.Canonical

/-- All statements are canonical. -/
def Query.Canonical (q : Query) : Prop :=
  ∀ s ∈ q.statements, s.Canonical

end InfluxQL
