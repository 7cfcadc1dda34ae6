import InfluxQL.Proofs.Token.Extent

/-!
# Another text behind a lexeme

A lexeme that ends where a text does is read without regard to what stands behind, as long as that
does not make it longer. So another text can be put behind it that starts with a blank, and with a
newline if the lexeme was ended by one.

* `Lexeme.next?_replace`: the statement for lexemes outside regular expressions, blanks at the end of
  the text aside;
* `Lexeme.regex_replace`: the same for regular expressions;
* `Lexeme.blankWidth_replace`: blanks that end where the text does.
-/

namespace InfluxQL

namespace Lexeme

variable {b : Bool} {text tail rest : List Char} {l : Lexeme}

/-- The text can stand for another one behind a lexeme: it starts with a blank, which is a newline if
the other starts with one. -/
structure Replaces (rest tail : List Char) : Prop where
  blank : ∃ c t, rest = c :: t ∧ isBlank c
  line : tail.head? = some '\n' → rest.head? = some '\n'
  ne_nil : tail ≠ []

theorem Replaces.breaks (h : Replaces rest tail) : Breaks rest := by
  obtain ⟨c, t, rfl, hc⟩ := h.blank
  rintro _ ⟨⟩
  exact .inl hc

theorem Replaces.parted (h : Replaces rest tail) (text : List Char) : Parted text rest := by
  obtain ⟨c, t, rfl, hc⟩ := h.blank
  rintro - ⟨⟩
  cases hc

/-! ### The lexeme at the front of a shorter text -/

theorem takeWhile_of_append {p : Char → Bool}
    (h : ((text ++ tail).takeWhile p).length ≤ text.length) :
    (text ++ tail).takeWhile p = text.takeWhile p := by
  induction text with
  | nil => exact List.length_eq_zero_iff.1 (Nat.le_zero.1 h)
  | cons c text ih =>
    rw [List.cons_append, List.takeWhile_cons] at h ⊢
    rw [List.takeWhile_cons]
    split
    · next hc =>
      rw [if_pos hc] at h
      rw [ih (by simpa using h)]
    · rfl

theorem blankWidth_of_append {inComment : Bool}
    (h : blankWidth inComment (text ++ tail) ≤ text.length) :
    blankWidth inComment (text ++ tail) = blankWidth inComment text := by
  induction text generalizing inComment with
  | nil => exact Nat.le_zero.1 h
  | cons c text ih =>
    rw [List.cons_append, blankWidth, List.length_cons] at h
    rw [List.cons_append, blankWidth, blankWidth]
    by_cases hc : inComment
    · rw [if_pos hc] at h
      rw [if_pos hc, if_pos hc, ih (by omega)]
    rw [if_neg hc] at h
    rw [if_neg hc, if_neg hc]
    by_cases hb : isBlank c
    · rw [if_pos hb] at h
      rw [if_pos hb, if_pos hb, ih (by omega)]
    rw [if_neg hb] at h
    rw [if_neg hb, if_neg hb]
    cases text with
    | cons d text =>
      by_cases hd : c = '-' ∧ d = '-'
      · rw [if_pos (by simpa using hd)] at h
        rw [if_pos (by simpa using hd), if_pos (by simpa using hd), ih (by omega)]
      · rw [if_neg (by simpa using hd), if_neg (by simpa using hd)]
    | nil =>
      -- A comment that starts here goes on behind the text.
      rw [List.nil_append] at h ⊢
      rw [if_neg (by simp : ¬(c = '-' ∧ ([] : List Char).head? = some '-'))]
      by_cases hd : c = '-' ∧ tail.head? = some '-'
      · obtain ⟨t, rfl⟩ := List.head?_eq_some_iff.1 hd.2
        rw [if_pos hd, blankWidth, if_pos rfl] at h
        simp only [List.length_nil] at h
        omega
      · rw [if_neg hd]

theorem digitWidth_of_append (h : digitWidth (text ++ tail) ≤ text.length) :
    digitWidth (text ++ tail) = digitWidth text :=
  congrArg List.length (takeWhile_of_append h)

theorem fractionWidth_of_append (h : fractionWidth (text ++ tail) + 1 ≤ text.length ∨
    fractionWidth (text ++ tail) = 0) : fractionWidth (text ++ tail) = fractionWidth text := by
  rcases text with _ | ⟨c, text⟩
  · rcases h with h | h
    · cases h
    · exact h
  · by_cases hc : c = '.'
    · subst hc
      refine digitWidth_of_append ?_
      rcases h with h | h
      · exact Nat.le_of_succ_le_succ h
      · exact Nat.le_trans (Nat.le_of_eq h) (Nat.zero_le _)
    · simp [fractionWidth, hc]

theorem numeral?_of_append (h : ∀ k width, numeral? (text ++ tail) = some (k, width) →
    width ≤ text.length) : numeral? (text ++ tail) = numeral? text := by
  have hwhole : digitWidth (text ++ tail) ≤ text.length := by
    rw [numeral?_eq] at h
    dsimp only at h
    split_ifs at h with hf hw
    · have := h _ _ rfl
      omega
    · exact h _ _ rfl
    · omega
  have hdrop : (text ++ tail).drop (digitWidth (text ++ tail)) =
      text.drop (digitWidth (text ++ tail)) ++ tail := List.drop_append_of_le_length hwhole
  have hfraction : fractionWidth (text.drop (digitWidth (text ++ tail)) ++ tail) =
      fractionWidth (text.drop (digitWidth (text ++ tail))) := by
    refine fractionWidth_of_append ?_
    rw [numeral?_eq] at h
    dsimp only at h
    rw [hdrop] at h
    by_cases hf : fractionWidth (text.drop (digitWidth (text ++ tail)) ++ tail) = 0
    · exact .inr hf
    · rw [if_pos hf] at h
      have := h _ _ rfl
      rw [List.length_drop]
      exact .inl (by omega)
  rw [numeral?_eq, numeral?_eq]
  dsimp only
  rw [hdrop, hfraction, digitWidth_of_append hwhole]

theorem ofSymbol?_of_append {c : Char}
    (h : ∀ k width, TokenKind.ofSymbol? (c :: text ++ tail) = some (k, width) →
      width ≤ text.length + 1) :
    TokenKind.ofSymbol? (c :: text ++ tail) = TokenKind.ofSymbol? (c :: text) := by
  cases text with
  | cons d text => exact (ofSymbol?_cons_cons ..).trans (ofSymbol?_cons_cons ..).symm
  | nil =>
    cases tail with
    | nil => rfl
    | cons d tail =>
      rw [List.cons_append, List.nil_append, ofSymbol?_cons_cons] at h ⊢
      revert h
      unfold TokenKind.ofSymbol?
      split <;> simp_all

/-! ### Another text behind -/

theorem takeWhile_replace (hr : Replaces rest tail) {p : Char → Bool}
    (hp : ∀ c, isBlank c → p c = false)
    (h : ((text ++ tail).takeWhile p).length ≤ text.length) :
    (text ++ rest).takeWhile p = (text ++ tail).takeWhile p := by
  rw [takeWhile_of_append h]
  refine takeWhile_append_of_not_head ?_ text
  obtain ⟨c, t, rfl, hc⟩ := hr.blank
  rintro _ ⟨⟩
  exact hp c hc

theorem isWordPart_of_isBlank {c : Char} (h : isBlank c) : isWordPart c = false := by
  rcases isBlank_cases h with rfl | rfl | rfl | rfl <;> rfl

/-- What is taken of a quoted text, and what it means, if it ends where the text does. -/
theorem quotedRead_replace (hr : Replaces rest tail) {quote : Char}
    (h : (Quoted.read quote (text ++ tail)).2 ≤ text.length) :
    Quoted.read quote (text ++ rest) = Quoted.read quote (text ++ tail) := by
  obtain ⟨c, t, rfl⟩ := List.exists_cons_of_ne_nil hr.ne_nil
  induction text using Quoted.induction quote with
  | finished =>
    -- Nothing is taken before a newline only.
    rw [List.nil_append, Quoted.read.eq_def] at h
    dsimp only at h
    split_ifs at h with hq hn hb
    · simp at h
    · subst hn
      obtain ⟨t', rfl⟩ := List.head?_eq_some_iff.1 (hr.line rfl)
      rw [List.nil_append, List.nil_append, Quoted.read_newline hq, Quoted.read_newline hq]
    · cases t with
      | nil => simp at h
      | cons e t =>
        dsimp only at h
        split at h <;> simp at h
    · simp at h
  | closing u => rw [List.cons_append, List.cons_append, Quoted.read_quote, Quoted.read_quote]
  | newline u hq =>
    rw [List.cons_append, List.cons_append, Quoted.read_newline hq, Quoted.read_newline hq]
  | backslash hq =>
    rw [List.cons_append, List.nil_append] at h
    cases he : Quoted.escaped? c with
    | none => simp [Quoted.read_badEscape hq he] at h
    | some d => simp [Quoted.read_pair hq he] at h
  | badEscape e u hq he =>
    simp only [List.cons_append, Quoted.read_badEscape hq he]
  | pair e d u hq he ih =>
    simp only [List.cons_append, Quoted.read_pair hq he, List.length_cons] at h ⊢
    rw [ih (by omega)]
  | plain d u hq hn hb ih =>
    rw [List.cons_append, Quoted.read_cons hq hn hb, List.length_cons] at h
    rw [List.cons_append, List.cons_append, Quoted.read_cons hq hn hb, Quoted.read_cons hq hn hb,
      ih (by omega)]

theorem number?_replace (hr : Replaces rest tail) {signed : Bool} {c : Char}
    (h : ∀ l, number? signed (c :: text ++ tail) = some l → l.width ≤ text.length + 1) :
    number? signed (c :: text ++ rest) = number? signed (c :: text ++ tail) := by
  rw [number?_append hr.breaks]
  rw [List.cons_append, number?] at h ⊢
  rw [number?]
  by_cases hs : signed ∧ (c = '+' ∨ c = '-')
  · rw [if_pos hs] at h
    rw [if_pos hs, if_pos hs, numeral?_of_append fun k width hk => ?_]
    · refine Option.map_congr fun x hx => ?_
      have hle := (numeral?_width hx).2
      exact (verbatim_append (by rw [List.length_cons]; omega)).symm
    · have := h _ (Option.map_eq_some_iff.2 ⟨_, hk, rfl⟩)
      dsimp only [verbatim] at this
      omega
  · rw [if_neg hs] at h
    rw [if_neg hs, if_neg hs, ← List.cons_append, numeral?_of_append fun k width hk => ?_]
    · exact Option.map_congr fun x hx => (verbatim_append (numeral?_width hx).2).symm
    · exact h _ (Option.map_eq_some_iff.2 ⟨_, hk, rfl⟩)

theorem symbol_replace (hr : Replaces rest tail) {c : Char}
    (h : (symbol (c :: text ++ tail)).width ≤ text.length + 1) :
    symbol (c :: text ++ rest) = symbol (c :: text ++ tail) := by
  have hsymbol : TokenKind.ofSymbol? (c :: text ++ tail) = TokenKind.ofSymbol? (c :: text) := by
    refine ofSymbol?_of_append fun k width hk => ?_
    rw [symbol, hk] at h
    exact h
  rw [symbol_append hr.breaks, symbol, symbol, hsymbol]
  cases TokenKind.ofSymbol? (c :: text) with
  | none => exact (verbatim_append (by simp)).symm
  | some x => rfl

/-- A lexeme that ends in the text, and before its end if it is a blank, is read before another text
as well. -/
theorem next?_replace (hr : Replaces rest tail) (h : next? b (text ++ tail) = some l)
    (hw : l.width ≤ text.length) (hblank : l.kind = .blank → l.width < text.length) :
    next? b (text ++ rest) = some l := by
  cases text with
  | nil =>
    have := width_pos h
    simp only [List.length_nil] at hw
    omega
  | cons c text =>
  by_cases hne : blankWidth false (c :: text ++ tail) ≠ 0
  · rw [next?_of_blank b hne] at h
    cases h
    have hlt : blankWidth false (c :: text ++ tail) < (c :: text).length := hblank rfl
    have heq := blankWidth_of_append (Nat.le_of_lt hlt)
    have happ : blankWidth false (c :: text ++ rest) = blankWidth false (c :: text) :=
      blankWidth_append (hr.parted _) (by omega)
    rw [next?_of_blank b (by omega), happ, ← heq, verbatim_append (Nat.le_of_lt hlt),
      verbatim_append (Nat.le_of_lt hlt)]
  · have hzero : blankWidth false (c :: text ++ tail) = 0 := by simpa using hne
    have heq : blankWidth false (c :: text ++ tail) = blankWidth false (c :: text) :=
      blankWidth_of_append (by rw [hzero]; exact Nat.zero_le _)
    have hzero' : blankWidth false (c :: text ++ rest) = 0 := by
      rw [blankWidth_append (hr.parted _) (by rw [← heq, hzero]; simp), ← heq, hzero]
    simp only [List.cons_append, List.length_cons] at h hw hzero hzero' ⊢
    rw [next?, if_neg (by simpa using hzero)] at h
    rw [next?, if_neg (by simpa using hzero')]
    -- A word, a quoted name, a string, a parameter, and else a number or a symbol.
    split_ifs at h ⊢ with hs hd hq hp <;> rw [Option.some.injEq] at h <;> subst h
    · rw [word_width] at hw
      have htake : (c :: text ++ rest).takeWhile isWordPart = (c :: text ++ tail).takeWhile isWordPart :=
        takeWhile_replace hr (fun _ => isWordPart_of_isBlank) hw
      rw [List.cons_append, List.cons_append] at htake
      rw [word, htake, word]
    · rw [quoted_width] at hw
      rw [quoted, quotedRead_replace hr (by omega), quoted]
    · rw [quoted_width] at hw
      rw [quoted, quotedRead_replace hr (by omega), quoted]
    · have hle : ((text ++ tail).takeWhile isWordPart).length ≤ text.length :=
        Nat.le_of_succ_le_succ hw
      rw [takeWhile_replace hr (fun _ => isWordPart_of_isBlank) hle, ← List.cons_append,
        ← List.cons_append, verbatim_append hw, verbatim_append hw]
    · rw [← List.cons_append, ← List.cons_append]
      rw [← List.cons_append] at hw
      have hnumber : number? (!b) (c :: text ++ rest) = number? (!b) (c :: text ++ tail) := by
        refine number?_replace hr fun l hl => ?_
        rw [hl] at hw
        exact hw
      rw [hnumber]
      cases hn : number? (!b) (c :: text ++ tail) with
      | some l => rfl
      | none =>
        rw [hn] at hw
        exact congrArg some (symbol_replace hr hw)

/-- A regular expression that ends in the text is closed, and is read before another text as well. -/
theorem regex_replace (hr : tail ≠ []) (h : (regex (text ++ tail)).width ≤ text.length + 1)
    (rest : List Char) : regex (text ++ rest) = regex (text ++ tail) := by
  have hkind : (regex text).kind = .regex := by
    -- One that is not closed in the text takes some of the tail.
    refine Decidable.byContradiction fun hk => ?_
    have := length_lt_regex_append hk hr
    omega
  rw [regex_append hkind, regex_append hkind]

/-- Blanks that end where the text does go on with those of another text. -/
theorem blankWidth_replace {inComment : Bool} (hr : tail ≠ [])
    (h : blankWidth inComment (text ++ tail) = text.length) (rest : List Char) :
    blankWidth inComment (text ++ rest) = text.length + blankWidth false rest := by
  induction text generalizing inComment with
  | nil =>
    obtain ⟨c, t, rfl⟩ := List.exists_cons_of_ne_nil hr
    cases inComment with
    | false => simp
    | true => simp [blankWidth] at h
  | cons c text ih =>
    rw [List.cons_append, blankWidth, List.length_cons] at h
    rw [List.cons_append, blankWidth, List.length_cons]
    by_cases hc : inComment
    · rw [if_pos hc] at h
      rw [if_pos hc, ih (by omega)]
      omega
    rw [if_neg hc] at h
    rw [if_neg hc]
    by_cases hb : isBlank c
    · rw [if_pos hb] at h
      rw [if_pos hb, ih (by omega)]
      omega
    rw [if_neg hb] at h
    rw [if_neg hb]
    by_cases hd : c = '-' ∧ (text ++ tail).head? = some '-'
    · rw [if_pos hd] at h
      have hhead : (text ++ rest).head? = some '-' := by
        cases text with
        | cons d text => exact hd.2
        | nil =>
          obtain ⟨e, t, rfl⟩ := List.exists_cons_of_ne_nil hr
          simp [blankWidth] at h
      rw [if_pos ⟨hd.1, hhead⟩, ih (by omega)]
      omega
    · rw [if_neg hd] at h
      omega

end Lexeme

end InfluxQL
