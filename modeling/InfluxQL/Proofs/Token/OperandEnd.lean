import InfluxQL.Proofs.Token.Extent
import InfluxQL.Proofs.Token.Spelling

/-!
# The last token of an operand

After some kinds of token a sign is an operator. What such a token can look like:

* `Lexeme.OperandEnd`: its forms;
* `Lexeme.operandEnd_of_endsOperand`: there are no others;
* `Lexeme.word_of_kind_ident`: a name whose value is the whole text is a bare word;
* `Lexeme.endsFirm_of_endsOperand`, `Lexeme.endsFirm_regex`: the last character is neither a blank
  nor a dash;
* `Lexeme.FollowsOperand`: a text that can stand behind such a token.
-/

namespace InfluxQL

namespace Lexeme

variable {b : Bool} {text rest : List Char} {l : Lexeme}

/-! ### The forms -/

/-- A lexeme at the front of a text whose kind ends an operand. -/
inductive OperandEnd (b : Bool) : List Char → Lexeme → Prop
  | word {c : Char} {rest : List Char} (start : isWordStart c) :
      OperandEnd b (c :: rest) (word (c :: rest))
  | quoted {kind : TokenKind} {quote : Char} {rest : List Char} {value : List Char} {width : Nat}
      (closed : Quoted.read quote rest = (.closed value, width))
      (fits : kind = .ident ∧ quote = doubleQuote ∨ kind = .string ∧ quote = singleQuote) :
      OperandEnd b (quote :: rest) ⟨kind, value, width + 1⟩
  | param (rest : List Char) : OperandEnd b ('$' :: rest)
      (verbatim .param ((rest.takeWhile isWordPart).length + 1) ('$' :: rest))
  | number {text : List Char} {l : Lexeme} (read : number? (!b) text = some l) : OperandEnd b text l
  | rightParen (rest : List Char) : OperandEnd b (')' :: rest) (bare .rightParen 1)

theorem operandEnd_quoted {kind : TokenKind} {quote : Char}
    (hk : kind = .ident ∧ quote = doubleQuote ∨ kind = .string ∧ quote = singleQuote)
    (h : (quoted kind quote rest).kind.endsOperand) :
    OperandEnd b (quote :: rest) (quoted kind quote rest) := by
  unfold quoted at h ⊢
  cases hr : Quoted.read quote rest with
  | mk body width =>
    rw [hr] at h
    cases body with
    | closed value => exact .quoted hr hk
    | badEscape | unterminated => cases h

/-- Of the symbols only the closing parenthesis ends an operand. -/
theorem ofSymbol?_endsOperand {kind : TokenKind} {width : Nat}
    (h : TokenKind.ofSymbol? text = some (kind, width)) (hk : kind.endsOperand) :
    text.head? = some ')' ∧ kind = .rightParen ∧ width = 1 := by
  unfold TokenKind.ofSymbol? at h
  split at h <;> try (cases h <;> cases hk)
  obtain ⟨kind, hc, ⟨⟩⟩ := Option.map_eq_some_iff.1 h
  split at hc <;> cases hc <;> first | exact ⟨rfl, rfl, rfl⟩ | cases hk

theorem operandEnd_symbol {c : Char} (h : (symbol (c :: rest)).kind.endsOperand) :
    OperandEnd b (c :: rest) (symbol (c :: rest)) := by
  unfold symbol at h ⊢
  split at h
  · next hs =>
    obtain ⟨hc, rfl, rfl⟩ := ofSymbol?_endsOperand hs h
    cases hc
    exact .rightParen rest
  · cases h

/-- A lexeme whose kind ends an operand has one of the forms. -/
theorem operandEnd_of_endsOperand (h : next? b text = some l) (hk : l.kind.endsOperand) :
    OperandEnd b text l := by
  cases text with
  | nil => cases h
  | cons c rest =>
    rw [next?] at h
    split_ifs at h with hw hs hd hq hp <;> cases h
    · cases hk
    · exact .word hs
    · exact operandEnd_quoted (.inl ⟨rfl, hd⟩) hk
    · exact operandEnd_quoted (.inr ⟨rfl, hq⟩) hk
    · subst hp
      exact .param rest
    · cases hn : number? (!b) (c :: rest) with
      | none =>
        rw [hn] at hk
        exact operandEnd_symbol hk
      | some l => exact .number hn

/-! ### Names -/

theorem number?_isValue {signed : Bool} (h : number? signed text = some l) :
    l.kind = .number ∨ l.kind = .integer := by
  have hnum : ∀ {s k width}, numeral? s = some (k, width) → k = .number ∨ k = .integer := by
    intro s k width hs
    simp only [numeral?] at hs
    split_ifs at hs <;> cases hs <;> simp
  unfold number? at h
  split at h
  · cases h
  · split_ifs at h <;>
    · obtain ⟨⟨k, width⟩, hk, rfl⟩ := Option.map_eq_some_iff.1 h
      exact hnum hk

/-- A name whose value is the whole text is a bare word. -/
theorem word_of_kind_ident (h : next? b text = some l) (hk : l.kind = .ident) (hl : l.lit = text) :
    isWord text ∧ TokenKind.ofWord? text = none := by
  have hend := operandEnd_of_endsOperand h (by rw [hk]; rfl)
  cases hend with
  | @word c rest hs =>
    unfold Lexeme.word at hk hl
    cases hw : TokenKind.ofWord? ((c :: rest).takeWhile isWordPart) with
    | some kind => simp [hw, bare] at hl
    | none =>
      simp only [hw] at hl
      rw [hl] at hw
      have hall := List.takeWhile_eq_self_iff.1 hl
      exact ⟨by simpa [isWord, hs] using fun c hc => hall c (List.mem_cons_of_mem _ hc), hw⟩
  | @quoted kind quote rest value width hr hq =>
    have hlt := length_lt_of_closed (congrArg Prod.fst hr)
    have hle := quotedRead_width quote rest
    have := congrArg List.length hl
    simp only [List.length_cons] at this
    omega
  | param => cases hk
  | number hn => rcases number?_isValue hn with h | h <;> rw [hk] at h <;> cases h
  | rightParen => cases hk

/-- Only a closing parenthesis reads as one. -/
theorem head?_of_kind_rightParen (h : next? b text = some l) (hk : l.kind = .rightParen) :
    text.head? = some ')' := by
  have hend := operandEnd_of_endsOperand h (by rw [hk]; rfl)
  cases hend with
  | word hs =>
    simp only [Lexeme.word] at hk
    split at hk
    · next kind hw =>
      obtain rfl : kind = .rightParen := hk
      exact absurd (TokenKind.ofWord?_eq_some hw).1 (by decide)
    · cases hk
  | quoted hr hq =>
    rcases hq with ⟨hq, -⟩ | ⟨hq, -⟩ <;> rw [hq] at hk <;> cases hk
  | param => cases hk
  | number hn => rcases number?_isValue hn with h | h <;> rw [hk] at h <;> cases h
  | rightParen => rfl

/-! ### The last character -/

/-- The characters that are neither a blank nor a dash. No comment goes on or starts behind them. -/
def isFirm (c : Char) : Bool :=
  !isBlank c && c != '-'

theorem isFirm_of_isWordPart {c : Char} (h : isWordPart c) : isFirm c := by
  have hb : isBlank c = false := by
    rw [Bool.eq_false_iff]
    intro hb
    rcases isBlank_cases hb with rfl | rfl | rfl | rfl <;> exact absurd h (by decide)
  have hd : c ≠ '-' := by
    rintro rfl
    exact absurd h (by decide)
  simp [isFirm, hb, hd]

theorem isWordPart_of_isDigit {c : Char} (h : c.isDigit) : isWordPart c := by
  simp [isWordPart, Char.isAlphanum, h]

/-- The last character of the text is firm. -/
def EndsFirm (text : List Char) : Prop :=
  ∃ c ∈ text.getLast?, isFirm c

theorem EndsFirm.append {front : List Char} (h : EndsFirm text) : EndsFirm (front ++ text) := by
  obtain ⟨c, hc, hf⟩ := h
  exact ⟨c, by rw [List.getLast?_append, Option.mem_def.1 hc]; rfl, hf⟩

theorem EndsFirm.cons {c : Char} (h : EndsFirm text) : EndsFirm (c :: text) :=
  (h.append : EndsFirm ([c] ++ text))

theorem endsFirm_of_forall (hne : text ≠ []) (h : ∀ c ∈ text, isWordPart c) : EndsFirm text :=
  ⟨_, List.getLast?_eq_some_getLast hne, isFirm_of_isWordPart (h _ (List.getLast_mem hne))⟩

/-- The characters that are taken as long as they belong to a word. -/
theorem endsFirm_takeWhile {p : Char → Bool} (hp : ∀ c, p c → isWordPart c)
    (hne : text.takeWhile p ≠ []) : EndsFirm (text.take (text.takeWhile p).length) := by
  rw [← List.prefix_iff_eq_take.1 (List.takeWhile_prefix p)]
  exact endsFirm_of_forall hne fun c hc => hp c (List.mem_takeWhile_imp hc)

theorem endsFirm_quotedRead {quote : Char} (hq : isFirm quote) {value : List Char}
    (h : (Quoted.read quote text).1 = .closed value) :
    EndsFirm (text.take (Quoted.read quote text).2) := by
  induction text using Quoted.induction quote generalizing value with
  | finished => cases h
  | closing rest =>
    rw [Quoted.read_quote]
    exact ⟨quote, by simp, hq⟩
  | newline rest hn =>
    rw [Quoted.read_newline hn] at h
    cases h
  | backslash hb =>
    rw [Quoted.read_backslash hb] at h
    cases h
  | badEscape e rest hb he =>
    rw [Quoted.read_badEscape hb he] at h
    cases h
  | pair e c rest hb he ih =>
    rw [Quoted.read_pair hb he] at h ⊢
    obtain ⟨v, hv, -⟩ := Quoted.Body.push_eq_closed_iff.1 h
    exact (ih hv).cons.cons
  | plain c rest hc hn hb ih =>
    rw [Quoted.read_cons hc hn hb] at h ⊢
    obtain ⟨v, hv, -⟩ := Quoted.Body.push_eq_closed_iff.1 h
    exact (ih hv).cons

theorem endsFirm_regexRead (h : ClosedRegex text) :
    EndsFirm (text.take (RegexBody.read text).2) := by
  unfold ClosedRegex at h
  induction text using RegexBody.induction with
  | finished => simp [RegexBody.read] at h
  | slash rest => exact ⟨'/', by simp [RegexBody.read], by decide⟩
  | loneBackslash => simp [RegexBody.read] at h
  | pair c rest ih =>
    rw [RegexBody.read_pair, push_eq_closed] at h
    rw [RegexBody.read_pair]
    exact (ih h).cons.cons
  | plain c rest hs hb ih =>
    rw [RegexBody.read_cons hs hb, push_eq_closed] at h
    rw [RegexBody.read_cons hs hb]
    exact (ih h).cons

theorem endsFirm_numeral? {kind : TokenKind} {width : Nat}
    (h : numeral? text = some (kind, width)) : EndsFirm (text.take width) := by
  have hdigits : ∀ {s : List Char}, digitWidth s ≠ 0 → EndsFirm (s.take (digitWidth s)) :=
    fun hs => endsFirm_takeWhile (fun _ hc => isWordPart_of_isDigit hc)
      (fun hnil => hs (by rw [digitWidth, hnil]; rfl))
  rw [numeral?_eq] at h
  dsimp only at h
  split_ifs at h with hf hw <;> cases h
  · -- The digits behind the point are the last characters.
    obtain ⟨rest, hr⟩ : ∃ rest, text.drop (digitWidth text) = '.' :: rest := by
      cases hdrop : text.drop (digitWidth text) with
      | nil => simp [hdrop, fractionWidth] at hf
      | cons c rest =>
        by_cases hc : c = '.'
        · exact ⟨rest, by rw [hc]⟩
        · simp [hdrop, fractionWidth, hc] at hf
    rw [hr] at hf ⊢
    have htake : text.take (digitWidth text + 1 + fractionWidth ('.' :: rest)) =
        text.take (digitWidth text) ++ '.' :: rest.take (digitWidth rest) := by
      rw [Nat.add_assoc, List.take_add, hr, Nat.add_comm 1, List.take_succ_cons]
      rfl
    rw [htake]
    exact (hdigits hf).cons.append
  · exact hdigits hw

theorem endsFirm_number? {signed : Bool} (h : number? signed text = some l) :
    EndsFirm (text.take l.width) := by
  unfold number? at h
  split at h
  · cases h
  · split_ifs at h
    · obtain ⟨⟨k, width⟩, hk, rfl⟩ := Option.map_eq_some_iff.1 h
      exact (endsFirm_numeral? hk).cons
    · obtain ⟨⟨k, width⟩, hk, rfl⟩ := Option.map_eq_some_iff.1 h
      exact endsFirm_numeral? hk

/-- The last character of a lexeme that ends an operand is firm. -/
theorem endsFirm_of_endsOperand (h : next? b text = some l) (hk : l.kind.endsOperand) :
    EndsFirm (text.take l.width) := by
  cases operandEnd_of_endsOperand h hk with
  | @word c rest hs =>
    rw [word_width]
    refine endsFirm_takeWhile (fun _ hc => hc) ?_
    rw [List.takeWhile_cons_of_pos (isWordPart_of_isWordStart hs)]
    exact List.cons_ne_nil _ _
  | @quoted _ quote _ _ _ hr hq =>
    have hfirm : isFirm quote := by
      rcases hq with ⟨-, rfl⟩ | ⟨-, rfl⟩ <;> decide
    have hlast := endsFirm_quotedRead hfirm (congrArg Prod.fst hr)
    rw [hr] at hlast
    exact hlast.cons
  | param rest =>
    show EndsFirm ('$' :: rest.take _)
    by_cases hne : rest.takeWhile isWordPart = []
    · rw [hne]
      exact ⟨'$', rfl, by decide⟩
    · exact (endsFirm_takeWhile (fun _ hc => hc) hne).cons
  | number hn => exact endsFirm_number? hn
  | rightParen => exact ⟨')', rfl, by decide⟩

/-- The last character of a regular expression is firm. -/
theorem endsFirm_regex (h : (regex rest).kind = .regex) :
    EndsFirm (('/' :: rest).take (regex rest).width) := by
  rw [regex_width]
  exact (endsFirm_regexRead (regex_kind_eq_regex.1 h)).cons

/-! ### Another text behind -/

variable {gap : List Char}

/-- A text that starts so is neither the rest of a dotted name nor a regular expression. -/
theorem Breaks.head?_ne_of_mem (h : Breaks text) {x : Char} (hx : x ∈ ['/', ':', '.']) :
    text.head? ≠ some x := by
  simp only [List.mem_cons, List.not_mem_nil, or_false] at hx
  rcases hx with rfl | rfl | rfl <;> exact h.head?_ne rfl (by decide) (by decide)

theorem EndsFirm.parted (h : EndsFirm text) (rest : List Char) : Parted text rest := by
  intro hdash
  obtain ⟨c, hc, hf⟩ := h
  rw [Option.mem_def.1 hc] at hdash
  cases hdash
  cases hf

theorem EndsFirm.ne_nil (h : EndsFirm text) : text ≠ [] := by
  rintro rfl
  obtain ⟨c, hc, -⟩ := h
  cases hc

theorem breaks_of_blankWidth (h : blankWidth false text ≠ 0) : Breaks text := by
  cases text with
  | nil => exact absurd rfl h
  | cons c rest =>
    rintro _ ⟨⟩
    by_cases hb : isBlank c
    · exact .inl hb
    · refine .inr (.inl (Decidable.byContradiction fun hd => h ?_))
      exact blankWidth_cons (Bool.eq_false_iff.2 hb) hd rest

/-- The text starts with a blank, or with a sign that is an operator right behind an operand. -/
structure FollowsOperand (text : List Char) : Prop where
  breaks : Breaks text
  next : nextKind true text = .blank ∨ ∃ op, nextKind true text = .op op

theorem followsOperand_of_blankWidth (h : blankWidth false text ≠ 0) : FollowsOperand text where
  breaks := breaks_of_blankWidth h
  next := .inl (nextKind_of_lexeme (next?_of_blank true h))

theorem FollowsOperand.append (h : FollowsOperand text) (hgap : blankWidth false gap = gap.length) :
    FollowsOperand (gap ++ text) := by
  by_cases hne : gap = []
  · rwa [hne]
  · refine followsOperand_of_blankWidth ?_
    have hpos := List.length_pos_of_ne_nil hne
    rw [blankWidth_append_of_blank hgap]
    omega

end Lexeme

end InfluxQL
