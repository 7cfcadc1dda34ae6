import InfluxQL.Proofs.Token.OperandEnd
import InfluxQL.Proofs.Token.Spelling

/-!
# Names and strings scan back

What is written as a name or as a string is the first token, whatever follows; and a name is written
without quotes exactly where it is one token that means itself.

* `tokenize_head?`: the first token of a text;
* `tokenize_quoteIdent`, `tokenize_quoteString`: names and strings before any text;
* `identNeedsQuotes_eq_false_iff`: when a name needs no quotes;
* `quoting_scans_back`: all of this in one statement.
-/

namespace InfluxQL

open Scanner Lexeme

/-! ### The first token -/

section FirstToken

variable {text : String} {l : Lexeme}

/-- The tokens of a text are the one that its first lexeme is read as, and those behind it. -/
theorem tokenize_of_lexeme (h : next? false text.toList = some l) :
    tokenize text = ((start text.toList).take l).1 ::
      ((start text.toList).take l).2.tokens text.toList.length := by
  have hscan : (start text.toList).scan = (start text.toList).take l := scan_of_lexeme h
  have hk : ((start text.toList).take l).1.kind ≠ .eof := kind_ne_eof h
  rw [tokenize, tokens, hscan]
  dsimp only
  rw [if_neg hk]

/-- The first token of a text has the span of its first lexeme. -/
theorem tokenize_head? {written rest : String} (ht : text = written ++ rest)
    (h : next? false text.toList = some l) (hw : l.width = written.toList.length) :
    (tokenize text).head? =
      some ⟨l.kind, String.ofList l.lit, ⟨0, 0⟩, ⟨0, byteSize written.toList⟩⟩ := by
  have hwritten : text.toList.take l.width = written.toList := by
    rw [ht, String.toList_append, hw, List.take_left]
  rw [tokenize_of_lexeme h, List.head?_cons, ← hwritten, Scanner.take, start, Cursor.pos_start]
  simp [Cursor.start, Cursor.advance]

/-- Behind a lexeme that is the whole text stands the end of the text. -/
theorem tokenize_of_single (h : next? false text.toList = some l)
    (hw : l.width = text.toList.length) :
    ∃ u, tokenize text = [((start text.toList).take l).1, u] ∧ u.kind = .eof := by
  have hahead : ((start text.toList).take l).2.cursor.ahead = [] := by
    simp [Scanner.take, start, Cursor.start, Cursor.advance, hw]
  have hend := kind_scan_eq_eof.2 hahead
  obtain ⟨n, hn⟩ : ∃ n, text.toList.length = n + 1 :=
    Nat.exists_eq_succ_of_ne_zero (hw ▸ (width_pos h).ne')
  refine ⟨_, ?_, hend⟩
  rw [tokenize_of_lexeme h, hn, tokens]
  dsimp only
  rw [if_pos hend]

end FirstToken

/-- A name as it is written is the first token, with the span of what is written. -/
theorem tokenize_quoteIdent (s rest : String) (h : NoWordPart rest.toList) :
    (tokenize (String.ofList (quoteIdent [s.toList]) ++ rest)).head? =
      some ⟨.ident, s, ⟨0, 0⟩, ⟨0, byteSize (quoteIdent [s.toList])⟩⟩ := by
  have hread := next?_renderName false s h
  rw [renderName] at hread
  rw [tokenize_head? rfl (by simpa using hread) (by simp)]
  simp

/-- A string as it is written is the first token, with the span of what is written. -/
theorem tokenize_quoteString (s rest : String) :
    (tokenize (String.ofList (quoteString s.toList) ++ rest)).head? =
      some ⟨.string, s, ⟨0, 0⟩, ⟨0, byteSize (quoteString s.toList)⟩⟩ := by
  have hread := next?_quoteString false s.toList rest.toList
  rw [tokenize_head? rfl (by simpa using hread) (by simp)]
  simp

/-! ### Names without quotes -/

/-- A name needs no quotes exactly if it is a bare word that is not reserved. -/
theorem identNeedsQuotes_eq_false {name : List Char} :
    identNeedsQuotes name = false ↔ isWord name ∧ TokenKind.ofWord? name = none := by
  simp [identNeedsQuotes, and_comm]

/-- A name needs no quotes exactly if it is read as one name, which is this. -/
theorem identNeedsQuotes_eq_false_iff (s : String) : identNeedsQuotes s.toList = false ↔
    ∃ t u, tokenize s = [t, u] ∧ t.kind = .ident ∧ t.lit = s ∧ u.kind = .eof := by
  rw [identNeedsQuotes_eq_false]
  constructor
  · rintro ⟨hword, hbare⟩
    have hend : NoWordPart [] := by
      simp [NoWordPart]
    have hread := next?_word false hword hend
    rw [hbare, List.append_nil] at hread
    obtain ⟨u, htokens, hlast⟩ := tokenize_of_single hread rfl
    exact ⟨_, u, htokens, rfl, String.ofList_toList, hlast⟩
  · rintro ⟨t, u, htokens, hkind, hlit, -⟩
    cases hl : next? false s.toList with
    | none =>
      -- The only token of the empty text is its end.
      have hempty : (start s.toList).scan.1.kind = .eof :=
        kind_scan_eq_eof.2 (next?_eq_none_iff.1 hl)
      rw [tokenize, tokens] at htokens
      simp [hempty] at htokens
    | some l =>
      rw [tokenize_of_lexeme hl] at htokens
      obtain ⟨rfl, -⟩ := List.cons.inj htokens
      exact word_of_kind_ident hl hkind (String.ofList_eq.1 hlit)

/-- **Names and strings scan back in any context.** A name needs no quotes exactly if its text is
one token that means this name. A name as it is written is the first token of a text in which no
word goes on behind it, and a string as it is written is the first token of every text that begins
with it; the token means what was written, and spans exactly this. -/
theorem quoting_scans_back (s : String) :
    (identNeedsQuotes s.toList = false ↔
      ∃ t u, tokenize s = [t, u] ∧ t.kind = .ident ∧ t.lit = s ∧ u.kind = .eof) ∧
    (∀ rest : String, NoWordPart rest.toList →
      (tokenize (String.ofList (quoteIdent [s.toList]) ++ rest)).head? =
        some ⟨.ident, s, ⟨0, 0⟩, ⟨0, byteSize (quoteIdent [s.toList])⟩⟩) ∧
    (∀ rest : String, (tokenize (String.ofList (quoteString s.toList) ++ rest)).head? =
      some ⟨.string, s, ⟨0, 0⟩, ⟨0, byteSize (quoteString s.toList)⟩⟩) :=
  ⟨identNeedsQuotes_eq_false_iff s, tokenize_quoteIdent s, tokenize_quoteString s⟩

/-- A reserved word that is used as a name, with a character behind it that no word goes on with. -/
theorem quoting_scans_back_from : NoWordPart "'é\\".toList ∧
    (tokenize (String.ofList (quoteIdent ["From".toList]) ++ "'é\\")).head? =
      some ⟨.ident, "From", ⟨0, 0⟩, ⟨0, 6⟩⟩ :=
  have h : NoWordPart "'é\\".toList := by
    rintro c ⟨⟩
    rfl
  ⟨h, (quoting_scans_back "From").2.1 _ h⟩

end InfluxQL
