import InfluxQL.Proofs.Grammar.ExpressionReading
import InfluxQL.Proofs.Numeric.Range

/-!
# Number literals

A number literal may be of any length, and is rounded to a double. What is too large for one becomes
infinite without an error, and the text of an infinite double is no number.

* `Grammar.parseExpr_number`: a text that is a number literal is read as one;
* `Grammar.parseExpr_infinite`: the text of an infinite double is not read at all;
* `parseExpr_number_text`: which number literals survive rendering.
-/

namespace InfluxQL

namespace Grammar

open Production Lexeme

variable [PatternCompiler]
variable {literal : List Char}

/-- A text that is a number literal is read as one. -/
theorem parseExpr_number (h : next? false literal = some ⟨.number, literal, literal.length⟩)
    (params : Params) : parseExpr (String.ofList literal) params =
      .ok (.atom (.number (Decimal.double literal))) := by
  have hne : literal ≠ [] := by
    rintro rfl
    cases h
  have hblank : pastBlank literal = literal ++ [] := by
    rw [List.append_nil]
    exact pastBlank_of_nextKind (b := false) (by simp [nextKind_of_lexeme h])
  refine parseExpr_of_operand hne ?_
  refine .significantWord literal hblank (by rwa [List.append_nil]) (by decide) fun t hk hl => ?_
  simp only [hk, hl, String.toList_ofList]
  exact .pure rfl

/-- The text of a finite double is read as this double. -/
theorem parseExpr_ofDouble {x : Double} (hx : x.isFinite) (params : Params) :
    parseExpr (Expr.atom (.number x)).text params = .ok (.atom (.number x)) := by
  have h := next?_ofDouble hx delimited_nil
  rw [List.append_nil] at h
  have hread := parseExpr_number h params
  rwa [Decimal.double_ofDouble hx] at hread

/-- The text of an infinite double is a reserved word, which is not read as an expression. -/
theorem parseExpr_infinite {x : Double} (hx : ¬x.isFinite) (hn : x.isNaN = false)
    (params : Params) : ∀ e, parseExpr (Expr.atom (.number x)).text params ≠ .ok e := by
  rw [Expr.text, Expr.render, Atom.render, Decimal.ofDouble_infinite hx hn]
  split
  · have h : parseExpr "-inf" params =
        .error ⟨.unexpected "-" ["identifier", "string", "number", "bool"], ⟨0, 0⟩, ⟨0, 1⟩⟩ :=
      rfl
    rw [String.ofList_toList, h]
    rintro e ⟨⟩
  · have h : parseExpr "inf" params =
        .error ⟨.unexpected "INF" ["identifier", "string", "number", "bool"], ⟨0, 0⟩, ⟨0, 3⟩⟩ :=
      rfl
    rw [String.ofList_toList, h]
    rintro e ⟨⟩

end Grammar

/-- **Which number literals survive rendering.** A number literal is always read. The text of what is
read is read back as the same double, bit by bit, if the literal stands for a number less than the
midpoint behind the greatest double, and is not read at all if it does not. -/
theorem parseExpr_number_text [PatternCompiler] {literal : List Char}
    (h : Lexeme.next? false literal = some ⟨.number, literal, literal.length⟩) (params : Params) :
    let e : Expr := .atom (.number (Decimal.double literal))
    parseExpr (String.ofList literal) params = .ok e ∧
      (Decimal.Below Double.overflowBound literal →
        parseExpr e.text params = .ok e ∧ e == e) ∧
      (¬Decimal.Below Double.overflowBound literal → ∀ e', parseExpr e.text params ≠ .ok e') := by
  intro e
  have hn := Decimal.isNaN_double literal
  refine ⟨Grammar.parseExpr_number h params, fun hb => ⟨?_, ?_⟩, fun hb => ?_⟩
  · exact Grammar.parseExpr_ofDouble ((Decimal.isFinite_double_iff literal).2 hb) params
  · exact (Double.equal_self _).trans (by rw [hn]; rfl)
  · exact Grammar.parseExpr_infinite (mt (Decimal.isFinite_double_iff literal).1 hb) hn params

/-- A sign belongs to the literal, and zeros at its ends are of no account. -/
theorem parseExpr_number_text_signed :
    let literal := "-007.250".toList
    let e : Expr := .atom (.number (Decimal.double literal))
    Lexeme.next? false literal = some ⟨.number, literal, literal.length⟩ ∧
      parseExpr (String.ofList literal) .empty = .ok e ∧
      (Decimal.Below Double.overflowBound literal →
        parseExpr e.text .empty = .ok e ∧ e == e) ∧
      (¬Decimal.Below Double.overflowBound literal → ∀ e', parseExpr e.text .empty ≠ .ok e') := by
  intro literal e
  have h : Lexeme.next? false literal = some ⟨.number, literal, literal.length⟩ := by
    decide
  exact ⟨h, parseExpr_number_text h .empty⟩

/-- A one with 309 zeros behind it is read as infinity. -/
theorem parseExpr_number_text_infinity :
    let literal := '1' :: (List.replicate 309 '0' ++ ".0".toList)
    let e : Expr := .atom (.number (Decimal.double literal))
    Lexeme.next? false literal = some ⟨.number, literal, literal.length⟩ ∧
      parseExpr (String.ofList literal) .empty = .ok e ∧ ∀ e', parseExpr e.text .empty ≠ .ok e' := by
  intro literal e
  have h : Lexeme.next? false literal = some ⟨.number, literal, literal.length⟩ := by
    decide +kernel
  have hb : ¬Decimal.Below Double.overflowBound literal := by
    decide +kernel
  exact ⟨h, Grammar.parseExpr_number h .empty, Grammar.parseExpr_infinite
    (mt (Decimal.isFinite_double_iff literal).1 hb) (Decimal.isNaN_double literal) .empty⟩

end InfluxQL
