import InfluxQL.Proofs.Token.Lookahead

/-!
# How far a lexeme reaches

A lexeme takes at least one character and no more than there are. What stands behind a text does not
change the lexeme at its front, if it starts with a blank, a comment or a sign, unless that lexeme is
still open at the end of the text: blanks, a comment, a quoted text or a regular expression.

* `Lexeme.width_pos`, `Lexeme.width_le`: the bounds;
* `Lexeme.Breaks`: what stands behind starts with a blank or a sign, or is nothing;
* `Lexeme.next?_append`, `Lexeme.next?_exchange`: what then follows does not matter;
* `Lexeme.opensComment`, `Lexeme.pastBlank_append`: what stands behind blanks and comments;
* `Lexeme.blankWidth_append`, `Lexeme.quoted_append`, `Lexeme.regex_append`: the lexemes that can be
  open.
-/

namespace InfluxQL

/-- The kinds of quoted texts that are not well-formed. -/
def TokenKind.isBroken : TokenKind → Bool
  | badString | badEscape => true
  | _ => false

namespace Lexeme

variable {b : Bool} {text : List Char} {l : Lexeme}

/-! ### Bounds -/

theorem blankWidth_le (inComment : Bool) (text : List Char) :
    blankWidth inComment text ≤ text.length := by
  induction text generalizing inComment with
  | nil => simp [blankWidth]
  | cons c rest ih =>
    have hc := ih (c != '\n')
    have hb := ih false
    have hd := ih true
    rw [blankWidth, List.length_cons]
    split_ifs <;> omega

theorem length_takeWhile_le (p : Char → Bool) (text : List Char) :
    (text.takeWhile p).length ≤ text.length :=
  (List.takeWhile_sublist p).length_le

theorem numeral?_width {k : TokenKind} {width : Nat} (h : numeral? text = some (k, width)) :
    0 < width ∧ width ≤ text.length := by
  have hw : digitWidth text ≤ text.length := length_takeWhile_le _ _
  simp only [numeral?] at h
  split_ifs at h with hf hn
  · cases h
    refine ⟨by omega, ?_⟩
    split at hf
    · next rest hr =>
      have hl := congrArg List.length hr
      have hd : digitWidth rest ≤ rest.length := length_takeWhile_le _ _
      simp only [List.length_drop, List.length_cons] at hl
      omega
    · exact absurd rfl hf
  · cases h
    exact ⟨Nat.pos_of_ne_zero hn, hw⟩

theorem number?_width {signed : Bool} (h : number? signed text = some l) :
    0 < l.width ∧ l.width ≤ text.length := by
  cases text with
  | nil => cases h
  | cons c rest =>
    simp only [number?] at h
    split_ifs at h <;>
    · obtain ⟨⟨k, width⟩, hk, rfl⟩ := Option.map_eq_some_iff.1 h
      obtain ⟨hpos, hle⟩ := numeral?_width hk
      simp only [List.length_cons, verbatim] at hle ⊢
      omega

theorem ofSymbol?_width {k : TokenKind} {width : Nat} (h : TokenKind.ofSymbol? text = some (k, width)) :
    0 < width ∧ width ≤ text.length := by
  unfold TokenKind.ofSymbol? at h
  split at h
  all_goals try (cases h <;> simp)
  obtain ⟨k', -, he⟩ := Option.map_eq_some_iff.1 h
  cases he
  simp

theorem quotedRead_width (quote : Char) (text : List Char) :
    (Quoted.read quote text).2 ≤ text.length := by
  induction text using Quoted.induction quote with
  | finished => exact Nat.le_refl _
  | closing rest => simp [Quoted.read_quote]
  | newline rest hq => simp [Quoted.read_newline hq]
  | backslash hq => simp [Quoted.read_backslash hq]
  | badEscape e rest hq he => simp [Quoted.read_badEscape hq he]
  | pair e c rest hq he ih => simp [Quoted.read_pair hq he, ih]
  | plain c rest hq hn hb ih => simp [Quoted.read_cons hq hn hb, ih]

/-- A closed quoted value is shorter than what was read. -/
theorem length_lt_of_closed {quote : Char} {value : List Char}
    (h : (Quoted.read quote text).1 = .closed value) :
    value.length < (Quoted.read quote text).2 := by
  induction text using Quoted.induction quote generalizing value with
  | finished => cases h
  | closing rest =>
    rw [Quoted.read_quote] at h ⊢
    cases h
    exact Nat.one_pos
  | newline rest hq =>
    rw [Quoted.read_newline hq] at h
    cases h
  | backslash hq =>
    rw [Quoted.read_backslash hq] at h
    cases h
  | badEscape e rest hq he =>
    rw [Quoted.read_badEscape hq he] at h
    cases h
  | pair e c rest hq he ih =>
    rw [Quoted.read_pair hq he] at h ⊢
    obtain ⟨v, hv, rfl⟩ := Quoted.Body.push_eq_closed_iff.1 h
    exact Nat.lt_succ_of_lt (Nat.succ_lt_succ (ih hv))
  | plain c rest hq hn hb ih =>
    rw [Quoted.read_cons hq hn hb] at h ⊢
    obtain ⟨v, hv, rfl⟩ := Quoted.Body.push_eq_closed_iff.1 h
    exact Nat.succ_lt_succ (ih hv)

theorem regexRead_width (text : List Char) : (RegexBody.read text).2 ≤ text.length := by
  induction text using RegexBody.induction with
  | finished | slash | loneBackslash => simp [RegexBody.read]
  | pair c rest ih =>
    rw [RegexBody.read_pair, List.length_cons, List.length_cons]
    omega
  | plain c rest hs hb ih =>
    rw [RegexBody.read_cons hs hb, List.length_cons]
    omega

theorem regexRead_pos (h : text ≠ []) : 0 < (RegexBody.read text).2 := by
  fun_cases RegexBody.read text
  · exact absurd rfl h
  all_goals simp

theorem quoted_width (kind : TokenKind) (quote : Char) (rest : List Char) :
    (quoted kind quote rest).width = (Quoted.read quote rest).2 + 1 := by
  unfold quoted
  split <;> simp_all

theorem regex_width (rest : List Char) : (regex rest).width = (RegexBody.read rest).2 + 1 := by
  unfold regex
  split <;> simp_all

theorem word_width (text : List Char) : (word text).width = (text.takeWhile isWordPart).length := by
  simp only [word]
  split <;> rfl

theorem symbol_width {c : Char} {rest : List Char} :
    0 < (symbol (c :: rest)).width ∧ (symbol (c :: rest)).width ≤ (c :: rest).length := by
  unfold symbol
  split
  · next h => exact ofSymbol?_width h
  · simp [verbatim]

/-- A lexeme takes at least one character, and no more than there are. -/
theorem width_bounds (h : next? b text = some l) : 0 < l.width ∧ l.width ≤ text.length := by
  cases text with
  | nil => cases h
  | cons c rest =>
    rw [next?] at h
    split_ifs at h with hw hs hd hq hp <;> cases h
    · exact ⟨Nat.pos_of_ne_zero hw, blankWidth_le false _⟩
    · rw [word_width, List.takeWhile_cons_of_pos (isWordPart_of_isWordStart hs)]
      exact ⟨Nat.succ_pos _, Nat.succ_le_succ (length_takeWhile_le _ _)⟩
    · rw [quoted_width]
      exact ⟨Nat.succ_pos _, Nat.succ_le_succ (quotedRead_width _ _)⟩
    · rw [quoted_width]
      exact ⟨Nat.succ_pos _, Nat.succ_le_succ (quotedRead_width _ _)⟩
    · exact ⟨Nat.succ_pos _, Nat.succ_le_succ (length_takeWhile_le _ _)⟩
    · cases hn : number? (!b) (c :: rest) with
      | none => exact symbol_width
      | some l => exact number?_width hn

theorem width_pos (h : next? b text = some l) : 0 < l.width :=
  (width_bounds h).1

theorem width_le (h : next? b text = some l) : l.width ≤ text.length :=
  (width_bounds h).2

/-! ### What stands behind -/

/-- The text starts with a blank or with a sign, or is empty. -/
def Breaks (text : List Char) : Prop :=
  ∀ c ∈ text.head?, isBlank c ∨ c = '-' ∨ c = '+'

/-- No comment starts where the texts meet. -/
def Parted (text rest : List Char) : Prop :=
  text.getLast? = some '-' → rest.head? ≠ some '-'

variable {rest : List Char}

theorem Parted.tail {c : Char} (h : Parted (c :: text) rest) : Parted text rest := by
  intro ht
  refine h ?_
  rw [List.getLast?_cons, ht]
  rfl

theorem Breaks.not_head (hr : Breaks rest) {p : Char → Bool} (hp : ∀ c, isBlank c → p c = false)
    (hminus : p '-' = false) (hplus : p '+' = false) : ∀ c ∈ rest.head?, p c = false := by
  intro c hc
  rcases hr c hc with hb | rfl | rfl
  · exact hp c hb
  · exact hminus
  · exact hplus

theorem isBlank_cases {c : Char} (h : isBlank c) : c = ' ' ∨ c = '\t' ∨ c = '\r' ∨ c = '\n' := by
  simpa [isBlank, or_assoc] using h

theorem Breaks.not_isWordPart (hr : Breaks rest) : ∀ c ∈ rest.head?, isWordPart c = false :=
  hr.not_head (fun c hc => by rcases isBlank_cases hc with rfl | rfl | rfl | rfl <;> rfl) rfl rfl

theorem Breaks.not_isDigit (hr : Breaks rest) : ∀ c ∈ rest.head?, c.isDigit = false :=
  hr.not_head (fun c hc => by rcases isBlank_cases hc with rfl | rfl | rfl | rfl <;> rfl) rfl rfl

theorem takeWhile_append_of_not_head {p : Char → Bool} (h : ∀ c ∈ rest.head?, p c = false)
    (text : List Char) : (text ++ rest).takeWhile p = text.takeWhile p := by
  induction text with
  | nil =>
    cases rest with
    | nil => rfl
    | cons c rest => rw [List.nil_append, List.takeWhile_cons_of_neg (by simp [h c rfl])]; rfl
  | cons c text ih =>
    rw [List.cons_append, List.takeWhile_cons, List.takeWhile_cons, ih]

theorem digitWidth_append_of_breaks (hr : Breaks rest) (text : List Char) :
    digitWidth (text ++ rest) = digitWidth text := by
  rw [digitWidth, takeWhile_append_of_not_head hr.not_isDigit, digitWidth]

theorem Breaks.head?_ne (hr : Breaks rest) {c : Char} (hb : isBlank c = false) (hminus : c ≠ '-')
    (hplus : c ≠ '+') : rest.head? ≠ some c := by
  intro h
  rcases hr c h with hc | hc | hc
  · rw [hb] at hc
    cases hc
  · exact hminus hc
  · exact hplus hc

/-- The number of digits behind a point at the front. -/
def fractionWidth : List Char → Nat
  | '.' :: text => digitWidth text
  | _ => 0

theorem fractionWidth_append (hr : Breaks rest) (text : List Char) :
    fractionWidth (text ++ rest) = fractionWidth text := by
  rcases text with _ | ⟨c, text⟩
  · rcases rest with _ | ⟨c, rest⟩
    · rfl
    · have hc : c ≠ '.' := fun h => hr.head?_ne (c := '.') rfl (by decide) (by decide)
        (congrArg some h)
      simp [fractionWidth, hc]
  · by_cases hc : c = '.'
    · subst hc
      exact digitWidth_append_of_breaks hr text
    · simp [fractionWidth, hc]

theorem numeral?_eq (text : List Char) : numeral? text =
    let whole := digitWidth text
    let fraction := fractionWidth (text.drop whole)
    if fraction ≠ 0 then some (.number, whole + 1 + fraction)
    else if whole ≠ 0 then some (.integer, whole)
    else none := rfl

theorem numeral?_append (hr : Breaks rest) (text : List Char) :
    numeral? (text ++ rest) = numeral? text := by
  have hle : digitWidth text ≤ text.length := length_takeWhile_le _ _
  simp only [numeral?_eq, digitWidth_append_of_breaks hr, List.drop_append_of_le_length hle,
    fractionWidth_append hr]

theorem verbatim_append {k : TokenKind} {width : Nat} (h : width ≤ text.length) :
    verbatim k width (text ++ rest) = verbatim k width text := by
  rw [verbatim, List.take_append_of_le_length h, verbatim]

theorem number?_append (hr : Breaks rest) (signed : Bool) {c : Char} :
    number? signed (c :: text ++ rest) = number? signed (c :: text) := by
  rw [List.cons_append, number?, number?, ← List.cons_append, numeral?_append hr,
    numeral?_append hr]
  refine ite_congr rfl (fun _ => ?_) fun _ => ?_
  · refine Option.map_congr fun x hx => verbatim_append ?_
    have hle := (numeral?_width hx).2
    rw [List.length_cons]
    omega
  · exact Option.map_congr fun x hx => verbatim_append (numeral?_width hx).2

theorem ofSymbol?_cons_cons (c d : Char) (text : List Char) :
    TokenKind.ofSymbol? (c :: d :: text) = TokenKind.ofSymbol? [c, d] := by
  unfold TokenKind.ofSymbol?
  split <;> rename_i heq <;> cases heq <;> simp_all

theorem ofSymbol?_cons_of_not_mem (c : Char) {d : Char} (text : List Char)
    (h : d ∉ ['~', '=', '>', ':']) : TokenKind.ofSymbol? (c :: d :: text) = TokenKind.ofSymbol? [c] := by
  unfold TokenKind.ofSymbol?
  split <;> simp_all

theorem ofSymbol?_append (hr : Breaks rest) {c : Char} :
    TokenKind.ofSymbol? (c :: text ++ rest) = TokenKind.ofSymbol? (c :: text) := by
  cases text with
  | cons d text => exact (ofSymbol?_cons_cons ..).trans (ofSymbol?_cons_cons ..).symm
  | nil =>
    cases rest with
    | nil => rfl
    | cons d rest =>
      refine ofSymbol?_cons_of_not_mem c rest ?_
      rcases hr d rfl with hd | rfl | rfl
      · rcases isBlank_cases hd with rfl | rfl | rfl | rfl <;> decide
      · decide
      · decide

theorem symbol_append (hr : Breaks rest) {c : Char} :
    symbol (c :: text ++ rest) = symbol (c :: text) := by
  rw [symbol, ofSymbol?_append hr, symbol]
  cases TokenKind.ofSymbol? (c :: text) with
  | none => exact verbatim_append (by simp)
  | some x => rfl

/-! ### Lexemes that can be open -/

/-- The width of a blank does not change unless it reaches the end. -/
theorem blankWidth_append {inComment : Bool} (hp : Parted text rest)
    (h : blankWidth inComment text ≠ text.length) :
    blankWidth inComment (text ++ rest) = blankWidth inComment text := by
  induction text generalizing inComment with
  | nil => exact absurd rfl h
  | cons c text ih =>
    have hdash : c = '-' → ((text ++ rest).head? = some '-' ↔ text.head? = some '-') := by
      rintro rfl
      cases text with
      | nil => simpa using hp rfl
      | cons d text => rfl
    rw [List.cons_append, blankWidth, blankWidth]
    rw [blankWidth] at h
    split_ifs at h ⊢ with hc hb hd hd' hd' <;> try rfl
    · rw [ih hp.tail (by simpa using h)]
    · rw [ih hp.tail (by simpa using h)]
    · rw [ih hp.tail (by simpa using h)]
    · exact absurd ⟨hd.1, (hdash hd.1).1 hd.2⟩ hd'
    · exact absurd ⟨hd'.1, (hdash hd'.1).2 hd'.2⟩ hd

/-- Does a text of blanks and comments end within a comment? `inComment` says that it starts within
one. -/
def opensComment (inComment : Bool) : List Char → Bool
  | [] => inComment
  | c :: rest =>
    if inComment then opensComment (c != '\n') rest
    else if isBlank c then opensComment false rest
    else opensComment true rest

/-- Behind blanks and comments the width goes on with what follows, in the comment if there is one. -/
theorem blankWidth_append_of_blank {inComment : Bool} (h : blankWidth inComment text = text.length)
    (rest : List Char) : blankWidth inComment (text ++ rest) =
      text.length + blankWidth (opensComment inComment text) rest := by
  induction text generalizing inComment with
  | nil => rw [List.nil_append, List.length_nil, Nat.zero_add, opensComment]
  | cons c text ih =>
    have hdash : text.head? = some '-' → (text ++ rest).head? = some '-' := by
      cases text <;> simp
    rw [blankWidth, List.length_cons] at h
    rw [List.cons_append, blankWidth, opensComment, List.length_cons]
    split_ifs at h with hc hb hd
    · rw [if_pos hc, if_pos hc, ih (by omega)]
      omega
    · rw [if_neg hc, if_neg hc, if_pos hb, if_pos hb, ih (by omega)]
      omega
    · rw [if_neg hc, if_neg hc, if_neg hb, if_neg hb, if_pos ⟨hd.1, hdash hd.2⟩, ih (by omega)]
      omega

/-- A comment takes the rest of the line. -/
theorem blankWidth_comment (h : '\n' ∉ rest) : blankWidth true rest = rest.length := by
  induction rest with
  | nil => rfl
  | cons c rest ih =>
    rw [List.mem_cons, not_or] at h
    have hc : (c != '\n') = true := by simpa using Ne.symm h.1
    rw [blankWidth, if_pos rfl, hc, ih h.2, List.length_cons]

/-- What stands behind blanks is found there, unless a comment goes on. -/
theorem pastBlank_append (h : blankWidth false text = text.length)
    (ho : opensComment false text = false) : pastBlank (text ++ rest) = pastBlank rest := by
  rw [pastBlank, blankWidth_append_of_blank h, ho, List.drop_append,
    List.drop_eq_nil_of_le (Nat.le_add_right _ _), Nat.add_sub_cancel_left, List.nil_append,
    pastBlank]

/-- The comment that goes on takes what stands behind on the same line. -/
theorem pastBlank_append_comment (h : blankWidth false text = text.length)
    (ho : opensComment false text) (ht : '\n' ∉ rest) : pastBlank (text ++ rest) = [] := by
  rw [pastBlank, blankWidth_append_of_blank h, ho, blankWidth_comment ht]
  exact List.drop_eq_nil_of_le (Nat.le_of_eq (List.length_append ..))

/-- A blank that reaches the end reaches what stands behind. -/
theorem length_le_blankWidth_append {inComment : Bool}
    (h : blankWidth inComment text = text.length) :
    text.length ≤ blankWidth inComment (text ++ rest) := by
  rw [blankWidth_append_of_blank h]
  exact Nat.le_add_right _ _

/-- The quoted text lacks its closing quote, and is all there is. -/
def OpenQuoted (quote : Char) (text : List Char) : Prop :=
  (∃ value, (Quoted.read quote text).1 = .unterminated value) ∧
    (Quoted.read quote text).2 = text.length

theorem push_eq_unterminated {c : Char} {body : Quoted.Body} :
    (∃ value, body.push c = .unterminated value) ↔ ∃ value, body = .unterminated value := by
  cases body <;> simp [Quoted.Body.push]

section OpenQuoted

variable {quote c e : Char}

theorem openQuoted_pair (hq : '\\' ≠ quote) (he : Quoted.escaped? e = some c) :
    OpenQuoted quote ('\\' :: e :: text) ↔ OpenQuoted quote text := by
  simp [OpenQuoted, Quoted.read_pair hq he, push_eq_unterminated]

theorem openQuoted_cons (hq : c ≠ quote) (hn : c ≠ '\n') (hb : c ≠ '\\') :
    OpenQuoted quote (c :: text) ↔ OpenQuoted quote text := by
  simp [OpenQuoted, Quoted.read_cons hq hn hb, push_eq_unterminated]

/-- What stands behind a quoted text does not matter unless it is open. -/
theorem quotedRead_append (h : ¬OpenQuoted quote text) :
    Quoted.read quote (text ++ rest) = Quoted.read quote text := by
  induction text using Quoted.induction quote with
  | finished => exact absurd ⟨⟨[], rfl⟩, rfl⟩ h
  | closing t => rw [List.cons_append, Quoted.read_quote, Quoted.read_quote]
  | newline t hq => rw [List.cons_append, Quoted.read_newline hq, Quoted.read_newline hq]
  | backslash hq => simp [OpenQuoted, Quoted.read_backslash hq] at h
  | badEscape e t hq he =>
    rw [List.cons_append, List.cons_append, Quoted.read_badEscape hq he, Quoted.read_badEscape hq he]
  | pair e c t hq he ih =>
    rw [openQuoted_pair hq he] at h
    rw [List.cons_append, List.cons_append, Quoted.read_pair hq he, ih h, Quoted.read_pair hq he]
  | plain c t hq hn hb ih =>
    rw [openQuoted_cons hq hn hb] at h
    rw [List.cons_append, Quoted.read_cons hq hn hb, ih h, Quoted.read_cons hq hn hb]

/-- An open quoted text reaches what stands behind. -/
theorem length_le_quotedRead_append (h : OpenQuoted quote text) :
    text.length ≤ (Quoted.read quote (text ++ rest)).2 := by
  induction text using Quoted.induction quote with
  | finished => exact Nat.zero_le _
  | closing t => simp [OpenQuoted, Quoted.read_quote] at h
  | newline t hq => simp [OpenQuoted, Quoted.read_newline hq] at h
  | backslash hq =>
    cases rest with
    | nil => simp [Quoted.read_backslash hq]
    | cons e rest =>
      cases he : Quoted.escaped? e with
      | none => simp [Quoted.read_badEscape hq he]
      | some c => simp [Quoted.read_pair hq he]
  | badEscape e t hq he => simp [OpenQuoted, Quoted.read_badEscape hq he] at h
  | pair e c t hq he ih =>
    rw [openQuoted_pair hq he] at h
    rw [List.cons_append, List.cons_append, Quoted.read_pair hq he]
    exact Nat.add_le_add_right (ih h) 2
  | plain c t hq hn hb ih =>
    rw [openQuoted_cons hq hn hb] at h
    rw [List.cons_append, Quoted.read_cons hq hn hb]
    exact Nat.succ_le_succ (ih h)

/-- An open quoted text is closed behind itself if at all. -/
theorem length_lt_quotedRead_append {value : List Char} (h : OpenQuoted quote text)
    (hc : (Quoted.read quote (text ++ rest)).1 = .closed value) :
    text.length < (Quoted.read quote (text ++ rest)).2 := by
  induction text using Quoted.induction quote generalizing value with
  | finished => exact Nat.zero_lt_of_lt (length_lt_of_closed hc)
  | closing t => simp [OpenQuoted, Quoted.read_quote] at h
  | newline t hq => simp [OpenQuoted, Quoted.read_newline hq] at h
  | backslash hq =>
    cases rest with
    | nil => simp [Quoted.read_backslash hq] at hc
    | cons e rest =>
      cases he : Quoted.escaped? e with
      | none => simp [Quoted.read_badEscape hq he]
      | some c => simp [Quoted.read_pair hq he]
  | badEscape e t hq he => simp [OpenQuoted, Quoted.read_badEscape hq he] at h
  | pair e c t hq he ih =>
    rw [openQuoted_pair hq he] at h
    rw [List.cons_append, List.cons_append, Quoted.read_pair hq he] at hc ⊢
    obtain ⟨v, hv, -⟩ := Quoted.Body.push_eq_closed_iff.1 hc
    exact Nat.add_lt_add_right (ih h hv) 2
  | plain c t hq hn hb ih =>
    rw [openQuoted_cons hq hn hb] at h
    rw [List.cons_append, Quoted.read_cons hq hn hb] at hc ⊢
    obtain ⟨v, hv, -⟩ := Quoted.Body.push_eq_closed_iff.1 hc
    exact Nat.succ_lt_succ (ih h hv)

/-- At the end of the line an open quoted text remains without its closing quote. -/
theorem quotedRead_append_newline (h : OpenQuoted quote text) (hq : quote ≠ '\n')
    (hr : rest.head? = some '\n') (value : List Char) :
    (Quoted.read quote (text ++ rest)).1 ≠ .closed value := by
  obtain ⟨t, rfl⟩ := List.head?_eq_some_iff.1 hr
  induction text using Quoted.induction quote generalizing value with
  | finished => simp [Quoted.read_newline hq.symm]
  | closing u => simp [OpenQuoted, Quoted.read_quote] at h
  | newline u hn => simp [OpenQuoted, Quoted.read_newline hn] at h
  | backslash hb =>
    have he : Quoted.escaped? '\n' = none := rfl
    simp [Quoted.read_badEscape hb he]
  | badEscape e u hb he => simp [OpenQuoted, Quoted.read_badEscape hb he] at h
  | pair e c u hb he ih =>
    rw [openQuoted_pair hb he] at h
    rw [List.cons_append, List.cons_append, Quoted.read_pair hb he]
    intro hc
    obtain ⟨v, hv, -⟩ := Quoted.Body.push_eq_closed_iff.1 hc
    exact ih h v hv
  | plain c u hc hn hb ih =>
    rw [openQuoted_cons hc hn hb] at h
    rw [List.cons_append, Quoted.read_cons hc hn hb]
    intro hcl
    obtain ⟨v, hv, -⟩ := Quoted.Body.push_eq_closed_iff.1 hcl
    exact ih h v hv

end OpenQuoted

theorem push_eq_closed {cs : List Char} {body : RegexBody} :
    (∃ pattern, body.push cs = .closed pattern) ↔ ∃ pattern, body = .closed pattern := by
  cases body <;> simp [RegexBody.push]

/-- The regular expression has its closing slash. -/
def ClosedRegex (text : List Char) : Prop :=
  ∃ pattern, (RegexBody.read text).1 = .closed pattern

/-- What stands behind a regular expression does not matter once it is closed. -/
theorem regexRead_append (h : ClosedRegex text) :
    RegexBody.read (text ++ rest) = RegexBody.read text := by
  unfold ClosedRegex at h
  induction text using RegexBody.induction with
  | finished => simp [RegexBody.read] at h
  | slash => rfl
  | loneBackslash => simp [RegexBody.read] at h
  | pair c t ih =>
    rw [RegexBody.read_pair, push_eq_closed] at h
    rw [List.cons_append, List.cons_append, RegexBody.read_pair, ih h, RegexBody.read_pair]
  | plain c t hs hb ih =>
    rw [RegexBody.read_cons hs hb, push_eq_closed] at h
    rw [List.cons_append, RegexBody.read_cons hs hb, ih h, RegexBody.read_cons hs hb]

/-- A regular expression without its closing slash takes some of what stands behind. -/
theorem length_lt_regexRead_append (h : ¬ClosedRegex text) (hr : rest ≠ []) :
    text.length < (RegexBody.read (text ++ rest)).2 := by
  unfold ClosedRegex at h
  induction text using RegexBody.induction with
  | finished => exact regexRead_pos hr
  | slash => simp [RegexBody.read] at h
  | loneBackslash =>
    cases rest with
    | nil => exact absurd rfl hr
    | cons c rest => simp [RegexBody.read]
  | pair c t ih =>
    rw [RegexBody.read_pair, push_eq_closed] at h
    have := ih h
    rw [List.cons_append, List.cons_append, RegexBody.read_pair]
    simp only [List.length_cons]
    omega
  | plain c t hs hb ih =>
    rw [RegexBody.read_cons hs hb, push_eq_closed] at h
    have := ih h
    rw [List.cons_append, RegexBody.read_cons hs hb]
    simp only [List.length_cons]
    omega

theorem regex_kind_eq_regex {text : List Char} : (regex text).kind = .regex ↔ ClosedRegex text := by
  unfold regex ClosedRegex
  split <;> simp_all

theorem regex_append (h : (regex text).kind = .regex) : regex (text ++ rest) = regex text := by
  rw [regex, regexRead_append (regex_kind_eq_regex.1 h), regex]

theorem length_lt_regex_append (h : (regex text).kind ≠ .regex) (hr : rest ≠ []) :
    text.length + 1 < (regex (text ++ rest)).width := by
  rw [regex_width]
  exact Nat.succ_lt_succ (length_lt_regexRead_append (fun hc => h (regex_kind_eq_regex.2 hc)) hr)

theorem quoted_kind (kind : TokenKind) (quote : Char) (text : List Char) :
    (quoted kind quote text).kind = kind ∨ (quoted kind quote text).kind.isBroken := by
  unfold quoted
  split <;> simp [TokenKind.isBroken]

theorem quoted_isBroken {kind : TokenKind} {quote : Char}
    (h : ∀ value, (Quoted.read quote text).1 ≠ .closed value) :
    (quoted kind quote text).kind.isBroken := by
  unfold quoted
  split
  · next value _ heq => exact absurd (congrArg Prod.fst heq) (h value)
  · rfl
  · rfl

/-- A lexeme that goes on behind the text `text`, before which it reads as `l` there and as `l'`
in the longer text. -/
structure GoesOnBehind (text rest : List Char) (l l' : Lexeme) : Prop where
  whole : l.width = text.length
  reaches : text.length ≤ l'.width
  closes : l'.kind = .ident ∨ l'.kind = .string → text.length < l'.width
  kinds : (l.kind = .blank ∧ l'.kind = .blank) ∨
    (l.kind = .badString ∧ (l'.kind = .ident ∨ l'.kind = .string ∨ l'.kind.isBroken) ∧
      (rest.head? = some '\n' → l'.kind.isBroken))

theorem goesOnBehind_quoted {kind : TokenKind} {quote : Char} (hk : kind = .ident ∨ kind = .string)
    (hq : quote ≠ '\n') (h : OpenQuoted quote text) :
    GoesOnBehind (quote :: text) rest (quoted kind quote text)
      (quoted kind quote (text ++ rest)) where
  whole := by
    rw [quoted_width, h.2, List.length_cons]
  reaches := by
    rw [quoted_width]
    exact Nat.succ_le_succ (length_le_quotedRead_append h)
  closes hc := by
    rw [quoted_width]
    refine Nat.succ_lt_succ ?_
    cases hr : (Quoted.read quote (text ++ rest)).1 with
    | closed value => exact length_lt_quotedRead_append h hr
    | badEscape | unterminated =>
      have hbroken : (quoted kind quote (text ++ rest)).kind.isBroken :=
        quoted_isBroken (by simp [hr])
      rcases hc with hc | hc <;> rw [hc] at hbroken <;> cases hbroken
  kinds := by
    refine .inr ⟨?_, ?_, fun hr => ?_⟩
    · obtain ⟨⟨value, hv⟩, -⟩ := h
      unfold quoted
      split <;> simp_all
    · rcases quoted_kind kind quote (text ++ rest) with hk' | hk'
      · rcases hk with rfl | rfl
        · exact .inl hk'
        · exact .inr (.inl hk')
      · exact .inr (.inr hk')
    · exact quoted_isBroken (quotedRead_append_newline h hq hr)

/-- What stands behind a text does not change the lexeme at its front, or else that lexeme goes
on there. -/
theorem next?_append (hb : Breaks rest) (hp : Parted text rest) (ht : text ≠ []) :
    next? b (text ++ rest) = next? b text ∨
      ∃ l l', next? b text = some l ∧ next? b (text ++ rest) = some l' ∧
        GoesOnBehind text rest l l' := by
  by_cases hw : blankWidth false text = text.length
  · have hle : text.length ≤ blankWidth false (text ++ rest) := length_le_blankWidth_append hw
    have hne : blankWidth false text ≠ 0 := by simpa [hw] using ht
    have hne' : blankWidth false (text ++ rest) ≠ 0 := by omega
    refine .inr ⟨_, _, next?_of_blank b hne, next?_of_blank b hne', hw, hle, ?_, .inl ⟨rfl, rfl⟩⟩
    rintro (h | h) <;> cases h
  have happ := blankWidth_append hp hw
  cases text with
  | nil => exact absurd rfl ht
  | cons c text =>
    simp only [List.cons_append] at happ ⊢
    rw [next?, next?, happ]
    by_cases hne : blankWidth false (c :: text) ≠ 0
    · rw [if_pos hne, if_pos hne, ← List.cons_append,
        verbatim_append (blankWidth_le false _)]
      exact .inl rfl
    rw [if_neg hne, if_neg hne]
    split_ifs with hs hd hq hparam
    · have hword : word (c :: text ++ rest) = word (c :: text) := by
        rw [word, takeWhile_append_of_not_head hb.not_isWordPart, word]
      exact .inl (congrArg some hword)
    · by_cases ho : OpenQuoted c text
      · exact .inr ⟨_, _, rfl, rfl, goesOnBehind_quoted (.inl rfl) (by rw [hd]; decide) ho⟩
      · rw [quoted, quotedRead_append ho, quoted]
        exact .inl rfl
    · by_cases ho : OpenQuoted c text
      · exact .inr ⟨_, _, rfl, rfl, goesOnBehind_quoted (.inr rfl) (by rw [hq]; decide) ho⟩
      · rw [quoted, quotedRead_append ho, quoted]
        exact .inl rfl
    · rw [takeWhile_append_of_not_head hb.not_isWordPart, ← List.cons_append,
        verbatim_append (Nat.succ_le_succ (length_takeWhile_le _ _))]
      exact .inl rfl
    · rw [← List.cons_append, number?_append hb, symbol_append hb]
      exact .inl rfl

/-- A lexeme that ends in a text, and before its end if it is a blank or broken, stays when another text
stands behind. -/
theorem next?_exchange {tail other : List Char} (htail : Breaks tail) (hother : Breaks other)
    (hp : Parted text tail) (hp' : Parted text other) (h : next? b (text ++ tail) = some l)
    (hw : l.width ≤ text.length) (hend : l.width = text.length → l.kind ≠ .blank ∧ ¬l.kind.isBroken) :
    next? b (text ++ other) = some l := by
  have ht : text ≠ [] := by
    rintro rfl
    exact absurd (Nat.lt_of_lt_of_le (width_pos h) hw) (Nat.lt_irrefl 0)
  have hself : next? b text = some l := by
    rcases next?_append (b := b) htail hp ht with heq | ⟨l₀, l', -, hl', hbehind⟩
    · rw [← heq, h]
    · -- It cannot go on behind the text, for it is neither a blank nor broken.
      rw [h] at hl'
      cases hl'
      obtain ⟨hblank, hbroken⟩ := hend (Nat.le_antisymm hw hbehind.reaches)
      rcases hbehind.kinds with ⟨-, hk⟩ | ⟨-, hk | hk | hk, -⟩
      · exact absurd hk hblank
      · exact absurd (hbehind.closes (.inl hk)) (Nat.not_lt.2 hw)
      · exact absurd (hbehind.closes (.inr hk)) (Nat.not_lt.2 hw)
      · exact absurd hk hbroken
  rcases next?_append (b := b) hother hp' ht with heq | ⟨l₀, l', hl₀, -, hbehind⟩
  · rw [heq, hself]
  · rw [hself] at hl₀
    cases hl₀
    obtain ⟨hblank, hbroken⟩ := hend hbehind.whole
    rcases hbehind.kinds with ⟨hk, -⟩ | ⟨hk, -⟩
    · exact absurd hk hblank
    · rw [hk] at hbroken
      exact absurd rfl hbroken

end Lexeme

end InfluxQL
