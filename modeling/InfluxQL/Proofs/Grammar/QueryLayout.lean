import InfluxQL.Proofs.Grammar.SourceReading

/-!
# How queries are laid out

The texts of the parts of a statement, each with its keyword, and what stands behind them.

* `Grammar.EndsField`, `Grammar.EndsSources`, `Grammar.EndsStatement`: what stands behind a field, behind
  the last source and behind a statement;
* `Grammar.renderClauses`: the text of a statement behind its first word;
* `Grammar.renderFurtherStatements`: the text of all statements but the first.
-/

namespace InfluxQL.Grammar

open Production Lexeme

variable {rest : List Char}

/-! ### Keywords -/

/-- A keyword. -/
theorem next?_keyword (b : Bool) (k : Keyword) (hr : NoWordPart rest) :
    next? b (k.text.toList ++ rest) = some ⟨.keyword k, [], k.text.toList.length⟩ := by
  have hk : TokenKind.keyword k ∈ TokenKind.reserved := TokenKind.mem_reserved.2 rfl
  have ht : k.text = (TokenKind.keyword k).text := rfl
  rw [ht]
  exact next?_reserved b hk hr

theorem noWordPart_space (text : List Char) : NoWordPart (' ' :: text) :=
  (delimited_cons (.inl rfl)).noWordPart

theorem nextKind_keyword (b : Bool) (k : Keyword) (text : List Char) :
    nextKind b (k.text.toList ++ ' ' :: text) = .keyword k :=
  nextKind_of_lexeme (next?_keyword b k (noWordPart_space text))

theorem pastBlank_keyword (k : Keyword) (text : List Char) :
    pastBlank (' ' :: (k.text.toList ++ ' ' :: text)) = k.text.toList ++ ' ' :: text :=
  pastBlank_of_nextKind (b := false) (by rw [nextKind_keyword false k text]; simp)

/-! ### Fields -/

/-- What stands behind a field. -/
structure EndsField (rest : List Char) : Prop where
  delimited : Delimited rest
  kind : nextKind true (pastBlank rest) = .comma ∨
    nextKind true (pastBlank rest) = .keyword .FROM

/-- The keyword behind the last field, and what follows. -/
def fromClause (text : List Char) : List Char :=
  ' ' :: (Keyword.FROM.text.toList ++ ' ' :: text)

theorem pastBlank_fromClause (text : List Char) :
    pastBlank (fromClause text) = Keyword.FROM.text.toList ++ ' ' :: text :=
  pastBlank_keyword .FROM text

theorem endsField_fromClause (text : List Char) : EndsField (fromClause text) where
  delimited := delimited_cons (.inl rfl)
  kind := .inr (by rw [pastBlank_fromClause, nextKind_keyword])

theorem endsField_comma (text : List Char) : EndsField (',' :: text) where
  delimited := delimited_cons (by simp)
  kind := .inl (nextKind_of_lexeme (next?_comma true text))

/-! ### Sources and conditions -/

/-- What stands behind the last source: a condition, or the end of the statement. -/
structure EndsSources (rest : List Char) : Prop extends EndsSource rest where
  noComma : nextKind true (pastBlank rest) ≠ .comma

theorem endsSource_comma (text : List Char) : EndsSource (',' :: text) where
  delimited := delimited_cons (by simp)
  noSlash := by simp [pastBlankCharacter, isBlank]

/-- What stands behind a statement: a semicolon, or nothing. -/
def EndsStatement (rest : List Char) : Prop :=
  rest = [] ∨ ∃ text, rest = ';' :: text

theorem EndsStatement.delimited (h : EndsStatement rest) : Delimited rest := by
  obtain rfl | ⟨text, rfl⟩ := h
  · exact delimited_nil
  · exact delimited_cons (by simp)

theorem EndsStatement.pastBlank_eq (h : EndsStatement rest) : pastBlank rest = rest := by
  obtain rfl | ⟨text, rfl⟩ := h <;> exact pastBlank_eq_self rfl

theorem EndsStatement.nextKind_eq (h : EndsStatement rest) :
    nextKind true rest = .eof ∨ nextKind true rest = .semicolon := by
  obtain rfl | ⟨text, rfl⟩ := h
  · exact .inl rfl
  · exact .inr (nextKind_of_lexeme (next?_semicolon true text))

/-- A condition with its keyword, if there is one. -/
def renderCondition (c : Option Expr) : List Char :=
  match c with
  | none => []
  | some e => ' ' :: (Keyword.WHERE.text.toList ++ ' ' :: e.render)

theorem pastBlank_condition (e : Expr) (rest : List Char) :
    pastBlank (renderCondition (some e) ++ rest) =
      Keyword.WHERE.text.toList ++ ' ' :: (e.render ++ rest) :=
  pastBlank_keyword .WHERE (e.render ++ rest)

theorem endsSources_condition (c : Option Expr) (hr : EndsStatement rest) :
    EndsSources (renderCondition c ++ rest) := by
  cases c with
  | none =>
    obtain rfl | ⟨text, rfl⟩ := hr
    · exact ⟨⟨delimited_nil, by simp [renderCondition, pastBlankCharacter]⟩, by decide⟩
    · have hslash : (pastBlankCharacter (';' :: text)).head? ≠ some '/' := by
        simp [pastBlankCharacter, isBlank]
      refine ⟨⟨delimited_cons (by simp), hslash⟩, ?_⟩
      rw [renderCondition, List.nil_append, pastBlank_eq_self rfl,
        nextKind_of_lexeme (next?_semicolon true text)]
      decide
  | some e =>
    refine ⟨⟨delimited_cons (.inl rfl), ?_⟩, ?_⟩
    · have h : pastBlankCharacter (renderCondition (some e) ++ rest) =
          pastBlank (renderCondition (some e) ++ rest) := rfl
      rw [h, pastBlank_condition]
      simp [Keyword.text]
    · rw [pastBlank_condition, nextKind_keyword]
      decide

/-! ### Statements -/

/-- The text of a statement behind its first word. -/
def renderClauses (f : Field) (fs : List Field) (x : Source) (xs : List Source)
    (c : Option Expr) : List Char :=
  ' ' :: (f.render ++ (renderFurther (fs.map Field.render) ++ fromClause (x.render ++
    (renderFurther (xs.map Source.render) ++ renderCondition c))))

theorem render_select {s : Select} {f : Field} {fs : List Field} {x : Source} {xs : List Source}
    (hf : s.fields = f :: fs) (hx : s.sources = x :: xs) :
    s.render = Keyword.SELECT.text.toList ++ renderClauses f fs x xs s.condition := by
  have hselect : "SELECT ".toList = Keyword.SELECT.text.toList ++ [' '] := by decide
  have hfrom : " FROM ".toList = ' ' :: (Keyword.FROM.text.toList ++ [' ']) := by decide
  have hwhere : " WHERE ".toList = ' ' :: (Keyword.WHERE.text.toList ++ [' ']) := by decide
  unfold Select.render
  rw [hf, hx, List.map_cons, List.map_cons, commaSeparated_cons, commaSeparated_cons]
  cases s.condition <;>
    simp only [hselect, hfrom, hwhere, renderClauses, renderCondition, fromClause,
      List.append_assoc, List.cons_append, List.nil_append, List.append_nil]

theorem renderClauses_append (f : Field) (fs : List Field) (x : Source) (xs : List Source)
    (c : Option Expr) (rest : List Char) :
    renderClauses f fs x xs c ++ rest =
      ' ' :: (f.render ++ (renderFurther (fs.map Field.render) ++ fromClause (x.render ++
        (renderFurther (xs.map Source.render) ++ (renderCondition c ++ rest))))) := by
  simp [renderClauses, fromClause]

/-! ### Queries -/

/-- The text of the statements behind the first. -/
def renderFurtherStatements (xs : List Statement) : List Char :=
  xs.flatMap fun x => ';' :: '\n' :: x.render

theorem render_query (x : Statement) (xs : List Statement) :
    Query.render ⟨x :: xs⟩ = x.render ++ renderFurtherStatements xs := by
  rw [Query.render, List.map_cons, intercalate_cons_eq_flatMap, List.flatMap_map]
  rfl

theorem endsStatement_renderFurtherStatements (xs : List Statement) :
    EndsStatement (renderFurtherStatements xs) := by
  cases xs with
  | nil => exact .inl rfl
  | cons x xs => exact .inr ⟨_, rfl⟩

theorem length_le_renderFurtherStatements (xs : List Statement) :
    2 * xs.length ≤ (renderFurtherStatements xs).length := by
  induction xs with
  | nil => simp
  | cons x xs ih =>
    simp only [renderFurtherStatements, List.flatMap_cons, List.length_append,
      List.length_cons] at ih ⊢
    omega

theorem length_render_le {x : Statement} {xs : List Statement} (hx : x ∈ xs) :
    x.render.length ≤ (renderFurtherStatements xs).length := by
  induction xs with
  | nil => cases hx
  | cons y xs ih =>
    simp only [renderFurtherStatements, List.flatMap_cons, List.length_append,
      List.length_cons] at ih ⊢
    rcases List.mem_cons.1 hx with rfl | hx
    · omega
    · have := ih hx
      omega

end InfluxQL.Grammar
