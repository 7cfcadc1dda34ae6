import InfluxQL.Proofs.Token.Replacement
import InfluxQL.Proofs.Token.Spelling
import InfluxQL.Syntax.Expr
import InfluxQL.Unicode.Lowercase
import Mathlib.Data.List.Forall2

/-!
# The case of letters

Two texts may differ in the case of ASCII letters only. A lexeme at their front whose text is the same
in both is then the same, whatever stands behind it. A bare word need not have the same text: it has
the same length, and is the same reserved word or a name in other letters.

* `SameLetter`, `SameLetters`: the same but for the case of letters;
* `Span.part`: what a token is written as;
* `Lexeme.next?_of_take_eq`: a lexeme whose text is the same is the same;
* `Lexeme.regex_of_take_eq`: so is a regular expression;
* `Lexeme.word_sameLetters`, `Lexeme.lowercase_word`: what a bare word is.
-/

namespace InfluxQL

/-- The characters are the same, or one ASCII letter in both cases. -/
def SameLetter (c d : Char) : Prop :=
  c.toLower = d.toLower

instance (c d : Char) : Decidable (SameLetter c d) :=
  inferInstanceAs (Decidable (_ = _))

/-- The texts are the same but for the case of ASCII letters. -/
def SameLetters (s t : List Char) : Prop :=
  List.Forall₂ SameLetter s t

instance (s t : List Char) : Decidable (SameLetters s t) :=
  inferInstanceAs (Decidable (List.Forall₂ _ _ _))

/-! ### Characters -/

theorem toNat_toLower (c : Char) : c.toLower.toNat =
    if 65 ≤ c.toNat ∧ c.toNat ≤ 90 then c.toNat + 32 else c.toNat := by
  have hA : 'A'.val.toNat = 65 := rfl
  have hZ : 'Z'.val.toNat = 90 := rfl
  unfold Char.toLower
  simp only [Char.toNat, ge_iff_le, UInt32.le_iff_toNat_le, hA, hZ]
  split
  · show (c.val + ('a'.val - 'A'.val)).toNat = c.val.toNat + 32
    have hshift : ('a'.val - 'A'.val).toNat = 32 := rfl
    rw [UInt32.toNat_add, hshift]
    omega
  · rfl

theorem toNat_toUpper (c : Char) : c.toUpper.toNat =
    if 97 ≤ c.toNat ∧ c.toNat ≤ 122 then c.toNat - 32 else c.toNat := by
  have ha : 'a'.val.toNat = 97 := rfl
  have hz : 'z'.val.toNat = 122 := rfl
  unfold Char.toUpper
  simp only [Char.toNat, UInt32.le_iff_toNat_le, ha, hz]
  split
  · show (c.val + ('A'.val - 'a'.val)).toNat = c.val.toNat - 32
    have hshift : ('A'.val - 'a'.val).toNat = 2 ^ 32 - 32 := rfl
    rw [UInt32.toNat_add, hshift]
    omega
  · rfl

theorem isAlpha_iff (c : Char) : c.isAlpha ↔
    65 ≤ c.toNat ∧ c.toNat ≤ 90 ∨ 97 ≤ c.toNat ∧ c.toNat ≤ 122 := by
  simp only [Char.isAlpha, Char.isUpper, Char.isLower, Bool.or_eq_true, Bool.and_eq_true,
    decide_eq_true_eq, ge_iff_le, UInt32.le_iff_toNat_le]
  exact Iff.rfl

namespace SameLetter

variable {c d x : Char}

theorem eq_or_isAlpha (h : SameLetter c d) : c = d ∨ c.isAlpha ∧ d.isAlpha := by
  have hn := congrArg Char.toNat h
  rw [toNat_toLower, toNat_toLower] at hn
  rw [← Char.toNat_inj, isAlpha_iff, isAlpha_iff]
  split_ifs at hn <;> omega

theorem toUpper_eq (h : SameLetter c d) : d.toUpper = c.toUpper := by
  have hn := congrArg Char.toNat h
  rw [toNat_toLower, toNat_toLower] at hn
  rw [← Char.toNat_inj, toNat_toUpper, toNat_toUpper]
  split_ifs at hn ⊢ <;> omega

/-- What all letters have in common both have in common. -/
theorem congr {β : Type} {f : Char → β} {b : β} (hf : ∀ x : Char, x.isAlpha → f x = b)
    (h : SameLetter c d) : f d = f c := by
  rcases h.eq_or_isAlpha with rfl | ⟨hc, hd⟩
  · rfl
  · rw [hf c hc, hf d hd]

/-- What no letter is, both are or neither is. -/
theorem eq_iff (h : SameLetter c d) (hx : x.isAlpha = false) : d = x ↔ c = x := by
  have hne : ∀ y : Char, y.isAlpha → (decide (y = x)) = false := by
    intro y hy
    rw [decide_eq_false_iff_not]
    rintro rfl
    rw [hy] at hx
    cases hx
  simpa using h.congr hne

theorem isWordStart_eq (h : SameLetter c d) : isWordStart d = isWordStart c :=
  h.congr (b := true) fun x hx => by simp [isWordStart, hx]

theorem isWordPart_eq (h : SameLetter c d) : isWordPart d = isWordPart c :=
  h.congr (b := true) fun x hx => by simp [isWordPart, Char.isAlphanum, hx]

theorem isDigit_eq (h : SameLetter c d) : d.isDigit = c.isDigit := by
  refine h.congr (b := false) fun x hx => Bool.eq_false_iff.2 fun hd => ?_
  have hx := (isAlpha_iff x).1 hx
  simp only [Char.isDigit, Bool.and_eq_true, decide_eq_true_eq, ge_iff_le,
    UInt32.le_iff_toNat_le] at hd
  have hhigh : x.toNat ≤ 57 := hd.2
  omega

theorem isBlank_eq (h : SameLetter c d) : isBlank d = isBlank c := by
  refine h.congr (b := false) fun x hx => Bool.eq_false_iff.2 fun hb => ?_
  rcases Lexeme.isBlank_cases hb with rfl | rfl | rfl | rfl <;> cases hx

theorem utf8Size_eq (h : SameLetter c d) : d.utf8Size = c.utf8Size := by
  refine h.congr (b := 1) fun x hx => ?_
  have hx := (isAlpha_iff x).1 hx
  rw [Char.utf8Size_eq_one_iff, UInt32.le_iff_toNat_le]
  have hval : x.val.toNat = x.toNat := rfl
  have hlimit : (127 : UInt32).toNat = 127 := rfl
  omega

end SameLetter

/-! ### Texts -/

namespace SameLetters

variable {s t : List Char} {c d : Char}

theorem drop (h : SameLetters s t) (n : Nat) : SameLetters (s.drop n) (t.drop n) :=
  List.forall₂_drop n h

theorem take (h : SameLetters s t) (n : Nat) : SameLetters (s.take n) (t.take n) :=
  List.forall₂_take n h

theorem byteSize_eq (h : SameLetters s t) : byteSize t = byteSize s := by
  induction h with
  | nil => rfl
  | cons hc _ ih => rw [byteSize_cons, byteSize_cons, hc.utf8Size_eq, ih]

theorem takeWhile (h : SameLetters s t) {p : Char → Bool}
    (hp : ∀ c d, SameLetter c d → p d = p c) :
    SameLetters (s.takeWhile p) (t.takeWhile p) := by
  induction h with
  | nil => exact .nil
  | @cons c d s t hc _ ih =>
    rw [List.takeWhile_cons, List.takeWhile_cons, hp c d hc]
    split
    · exact .cons hc ih
    · exact .nil

/-- What no letter is, both begin with or neither does. -/
theorem head?_iff (h : SameLetters s t) {x : Char} (hx : x.isAlpha = false) :
    t.head? = some x ↔ s.head? = some x := by
  cases h with
  | nil => exact Iff.rfl
  | cons hc _ => simpa using hc.eq_iff hx

/-- Both begin with a blank or neither does. -/
theorem isBlank_head?_eq (h : SameLetters s t) :
    t.head?.any isBlank = s.head?.any isBlank := by
  cases h with
  | nil => rfl
  | cons hc _ => exact hc.isBlank_eq

/-- The words are the same reserved word, or neither is one. -/
theorem ofWord?_eq (h : SameLetters s t) : TokenKind.ofWord? t = TokenKind.ofWord? s := by
  have hupper : t.map Char.toUpper = s.map Char.toUpper := by
    induction h with
    | nil => rfl
    | cons hc _ ih => rw [List.map_cons, List.map_cons, hc.toUpper_eq, ih]
  rw [TokenKind.ofWord?, hupper, TokenKind.ofWord?]

theorem map_toLower_eq (h : SameLetters s t) : t.map Char.toLower = s.map Char.toLower := by
  induction h with
  | nil => rfl
  | cons hc _ ih =>
    have hc : Char.toLower _ = Char.toLower _ := hc
    rw [List.map_cons, List.map_cons, hc, ih]

theorem ofName?_eq (h : SameLetters s t) : DataType.ofName? t = DataType.ofName? s := by
  rw [DataType.ofName?, h.map_toLower_eq, DataType.ofName?]

end SameLetters

theorem toNat_lt_of_isWordPart {c : Char} (h : isWordPart c) : c.toNat < 0x80 := by
  simp only [isWordPart, Char.isAlphanum, Bool.or_eq_true, beq_iff_eq, isAlpha_iff] at h
  rcases h with (h | h) | rfl
  · omega
  · simp only [Char.isDigit, Bool.and_eq_true, decide_eq_true_eq, ge_iff_le,
      UInt32.le_iff_toNat_le] at h
    have hhigh : c.toNat ≤ 57 := h.2
    omega
  · decide

/-- The lower case of a bare word. -/
theorem lowercase_of_isWordPart {word : List Char} (h : ∀ c ∈ word, isWordPart c) :
    Unicode.lowercase word = word.map Char.toLower := by
  have hafter : ∀ (word before : List Char), (∀ c ∈ word, isWordPart c) →
      Unicode.lowercaseAfter before word = word.map Char.toLower := by
    intro word
    induction word with
    | nil => exact fun _ _ => rfl
    | cons c word ih =>
      intro before h
      obtain ⟨hc, h⟩ := List.forall_mem_cons.1 h
      have hlt := toNat_lt_of_isWordPart hc
      have hsigma : c ≠ 'Σ' := by
        rintro rfl
        exact absurd hlt (by decide)
      have hdotted : c ≠ 'İ' := by
        rintro rfl
        exact absurd hlt (by decide)
      rw [Unicode.lowercaseAfter, ih _ h, Unicode.lowerBetween, if_neg hsigma, if_neg hdotted,
        Unicode.lowerChar, if_pos hlt]
      rfl
  exact hafter word [] h

/-- The characters of a text between the two bytes. -/
def Span.part (s : Span) (text : List Char) : List Char :=
  slice text s.start s.stop

/-- The part that is ahead of a cursor. -/
theorem Span.part_source {s : Span} {c : Cursor} {n : Nat} (hstart : s.start = c.offset)
    (hstop : s.stop = c.offset + byteSize (c.ahead.take n)) :
    s.part c.source = c.ahead.take n := by
  rw [Span.part, hstart, hstop, c.slice_ahead]

namespace Lexeme

variable {s t : List Char} {b : Bool} {l : Lexeme}

/-! ### Where lexemes end -/

theorem blankWidth_sameLetters (h : SameLetters s t) (inComment : Bool) :
    blankWidth inComment t = blankWidth inComment s := by
  induction h generalizing inComment with
  | nil => rfl
  | @cons c d s t hc h ih =>
    have hline : (d != '\n') = (c != '\n') := by
      rw [bne, bne, beq_eq_decide, beq_eq_decide, decide_eq_decide.2 (hc.eq_iff rfl)]
    have hdashes : d = '-' ∧ t.head? = some '-' ↔ c = '-' ∧ s.head? = some '-' :=
      and_congr (hc.eq_iff rfl) (SameLetters.head?_iff h rfl)
    simp only [blankWidth, hline, hc.isBlank_eq, hdashes, ih]

theorem digitWidth_sameLetters (h : SameLetters s t) : digitWidth t = digitWidth s :=
  (h.takeWhile fun _ _ hc => hc.isDigit_eq).length_eq.symm

theorem fractionWidth_sameLetters (h : SameLetters s t) : fractionWidth t = fractionWidth s := by
  cases h with
  | nil => rfl
  | @cons c d s t hc h =>
    have hdot := hc.eq_iff (x := '.') rfl
    by_cases he : c = '.'
    · obtain rfl := he
      obtain rfl := hdot.2 rfl
      exact digitWidth_sameLetters h
    · simp [fractionWidth, he, mt hdot.1 he]

theorem numeral?_sameLetters (h : SameLetters s t) : numeral? t = numeral? s := by
  rw [numeral?_eq, numeral?_eq]
  dsimp only
  rw [digitWidth_sameLetters h, fractionWidth_sameLetters (h.drop _)]

/-- No symbol has a letter. -/
theorem ofSymbol?_sameLetters (h : SameLetters s t) (c : Char) :
    TokenKind.ofSymbol? (c :: t) = TokenKind.ofSymbol? (c :: s) := by
  cases h with
  | nil => rfl
  | @cons d e s t hd h =>
    rcases hd.eq_or_isAlpha with rfl | ⟨hd, he⟩
    · exact (ofSymbol?_cons_cons ..).trans (ofSymbol?_cons_cons ..).symm
    · have hnone : ∀ x : Char, x.isAlpha → x ∉ ['~', '=', '>', ':'] := by
        intro x hx hmem
        simp only [List.mem_cons, List.not_mem_nil, or_false] at hmem
        rcases hmem with rfl | rfl | rfl | rfl <;> cases hx
      rw [ofSymbol?_cons_of_not_mem c s (hnone d hd), ofSymbol?_cons_of_not_mem c t (hnone e he)]

/-! ### The same text -/

/-- A quoted text whose characters are the same is read in the same way. -/
theorem quotedRead_of_take_eq (h : SameLetters s t) {quote : Char} (hquote : quote.isAlpha = false)
    (htake : s.take (Quoted.read quote s).2 = t.take (Quoted.read quote s).2) :
    Quoted.read quote t = Quoted.read quote s := by
  induction s using Quoted.induction quote generalizing t with
  | finished =>
    cases h
    rfl
  | closing u =>
    cases h with
    | cons hc h => rw [(hc.eq_iff hquote).2 rfl, Quoted.read_quote, Quoted.read_quote]
  | newline u hq =>
    -- The newline is not taken, but it is no letter.
    cases h with
    | cons hc h =>
      obtain rfl := (hc.eq_iff rfl).2 rfl
      rw [Quoted.read_newline hq, Quoted.read_newline hq]
  | backslash hq =>
    cases h with
    | cons hc h =>
      cases h
      obtain rfl := (hc.eq_iff rfl).2 rfl
      rfl
  | badEscape e u hq he =>
    rw [Quoted.read_badEscape hq he] at htake
    cases h with
    | cons hc h =>
      cases h with
      | cons hd h =>
        simp only [List.take_succ_cons, List.take_zero, List.cons.injEq, and_true] at htake
        obtain ⟨rfl, rfl⟩ := htake
        rw [Quoted.read_badEscape hq he, Quoted.read_badEscape hq he]
  | pair e d u hq he ih =>
    rw [Quoted.read_pair hq he] at htake
    cases h with
    | cons hc h =>
      cases h with
      | cons hd h =>
        simp only [List.take_succ_cons, List.cons.injEq] at htake
        obtain ⟨rfl, rfl, htake⟩ := htake
        rw [Quoted.read_pair hq he, ih h htake, Quoted.read_pair hq he]
  | plain d u hq hn hb ih =>
    rw [Quoted.read_cons hq hn hb] at htake
    cases h with
    | cons hc h =>
      simp only [List.take_succ_cons, List.cons.injEq] at htake
      obtain ⟨rfl, htake⟩ := htake
      rw [Quoted.read_cons hq hn hb, ih h htake, Quoted.read_cons hq hn hb]

/-- So is what stands behind a slash where a regular expression is wanted. -/
theorem regexRead_of_take_eq (h : SameLetters s t)
    (htake : s.take (RegexBody.read s).2 = t.take (RegexBody.read s).2) :
    RegexBody.read t = RegexBody.read s := by
  induction s using RegexBody.induction generalizing t with
  | finished =>
    cases h
    rfl
  | slash u =>
    cases h with
    | cons hc h =>
      obtain rfl := (hc.eq_iff rfl).2 rfl
      rfl
  | loneBackslash =>
    cases h with
    | cons hc h =>
      cases h
      obtain rfl := (hc.eq_iff rfl).2 rfl
      rfl
  | pair c u ih =>
    rw [RegexBody.read_pair] at htake
    cases h with
    | cons hc h =>
      cases h with
      | cons hd h =>
        simp only [List.take_succ_cons, List.cons.injEq] at htake
        obtain ⟨rfl, rfl, htake⟩ := htake
        rw [RegexBody.read_pair, ih h htake, RegexBody.read_pair]
  | plain c u hs hb ih =>
    rw [RegexBody.read_cons hs hb] at htake
    cases h with
    | cons hd h =>
      simp only [List.take_succ_cons, List.cons.injEq] at htake
      obtain ⟨rfl, htake⟩ := htake
      rw [RegexBody.read_cons hs hb, ih h htake, RegexBody.read_cons hs hb]

theorem quoted_of_take_eq (h : SameLetters s t) {kind : TokenKind} {quote c : Char}
    (hquote : quote.isAlpha = false)
    (htake : (c :: s).take (quoted kind quote s).width = (c :: t).take (quoted kind quote s).width) :
    quoted kind quote t = quoted kind quote s := by
  rw [quoted_width, List.take_succ_cons, List.take_succ_cons, List.cons.injEq] at htake
  rw [quoted, quotedRead_of_take_eq h hquote htake.2, quoted]

/-- A regular expression whose text is the same is the same. -/
theorem regex_of_take_eq (h : SameLetters s t) {c : Char}
    (htake : (c :: s).take (regex s).width = (c :: t).take (regex s).width) : regex t = regex s := by
  rw [regex_width, List.take_succ_cons, List.take_succ_cons, List.cons.injEq] at htake
  rw [regex, regexRead_of_take_eq h htake.2, regex]

theorem takeWhile_of_take_eq (h : SameLetters s t) {p : Char → Bool}
    (hp : ∀ c d, SameLetter c d → p d = p c)
    (htake : s.take (s.takeWhile p).length = t.take (s.takeWhile p).length) :
    t.takeWhile p = s.takeWhile p := by
  have hlength : (s.takeWhile p).length = (t.takeWhile p).length :=
    (SameLetters.takeWhile h hp).length_eq
  have hs := List.prefix_iff_eq_take.1 (List.takeWhile_prefix p (l := s))
  have ht := List.prefix_iff_eq_take.1 (List.takeWhile_prefix p (l := t))
  rw [hs, htake, hlength, ← ht]

theorem verbatim_of_take_eq {kind : TokenKind} {width : Nat} (h : s.take width = t.take width) :
    verbatim kind width t = verbatim kind width s := by
  rw [verbatim, ← h, verbatim]

/-- On both sides there is a number of the same length, or on neither. -/
theorem number?_sameLetters (h : SameLetters s t) (signed : Bool) :
    ∃ o : Option (TokenKind × Nat),
      number? signed s = o.map (fun (kind, width) => verbatim kind width s) ∧
        number? signed t = o.map (fun (kind, width) => verbatim kind width t) := by
  cases h with
  | nil => exact ⟨none, rfl, rfl⟩
  | @cons c d s t hc h =>
    have hsign : signed ∧ (d = '+' ∨ d = '-') ↔ signed ∧ (c = '+' ∨ c = '-') :=
      and_congr_right fun _ => or_congr (hc.eq_iff rfl) (hc.eq_iff rfl)
    have hall : numeral? (d :: t) = numeral? (c :: s) := numeral?_sameLetters (.cons hc h)
    simp only [number?, hsign, hall, numeral?_sameLetters h]
    split
    · refine ⟨(numeral? s).map fun (kind, width) => (kind, width + 1), ?_, ?_⟩
      · rw [Option.map_map]
        rfl
      · rw [Option.map_map]
        rfl
    · exact ⟨numeral? (c :: s), rfl, rfl⟩

theorem symbol_sameLetters (h : SameLetters s t) (c : Char) : symbol (c :: t) = symbol (c :: s) := by
  rw [symbol, symbol, ofSymbol?_sameLetters h c]
  rfl

/-- A lexeme whose text is the same is the same. -/
theorem next?_of_take_eq (h : SameLetters s t) (hl : next? b s = some l)
    (htake : s.take l.width = t.take l.width) : next? b t = some l := by
  have hblank : blankWidth false t = blankWidth false s := blankWidth_sameLetters h false
  by_cases hne : blankWidth false s ≠ 0
  · rw [next?_of_blank b hne] at hl
    cases hl
    rw [next?_of_blank b (by rwa [hblank]), hblank]
    exact congrArg some (verbatim_of_take_eq htake)
  cases s with
  | nil => cases hl
  | cons c s =>
  cases t with
  | nil => cases h
  | cons d t =>
    have hcd : c = d := by
      obtain ⟨n, hn⟩ := Nat.exists_eq_succ_of_ne_zero (Nat.ne_of_gt (width_pos hl))
      rw [hn, List.take_succ_cons, List.take_succ_cons] at htake
      exact (List.cons.inj htake).1
    subst hcd
    have hrest : SameLetters s t := (List.forall₂_cons.1 h).2
    rw [next?, if_neg hne] at hl
    rw [next?, if_neg (by rwa [hblank])]
    -- A word, a quoted name, a string, a parameter, and else a number or a symbol.
    split_ifs at hl ⊢ with hs hd hq hp <;> rw [Option.some.injEq] at hl <;> subst hl
    · rw [word_width] at htake
      rw [word, takeWhile_of_take_eq h (fun _ _ hc => hc.isWordPart_eq) htake, word]
    · subst hd
      rw [quoted_of_take_eq hrest rfl htake]
    · subst hq
      rw [quoted_of_take_eq hrest rfl htake]
    · have hlength : (t.takeWhile isWordPart).length = (s.takeWhile isWordPart).length :=
        (hrest.takeWhile fun _ _ hc => hc.isWordPart_eq).length_eq.symm
      rw [hlength]
      exact congrArg some (verbatim_of_take_eq htake)
    · obtain ⟨o, hos, hot⟩ := number?_sameLetters h (!b)
      rw [hos] at htake ⊢
      rw [hot]
      cases o with
      | some x => exact congrArg some (verbatim_of_take_eq htake)
      | none => exact congrArg some (symbol_sameLetters hrest c)

/-! ### Bare words -/

theorem isWordPart_of_mem_word {text : List Char} : ∀ c ∈ (word text).lit, isWordPart c := by
  unfold word
  dsimp only
  split
  · exact fun c hc => absurd hc List.not_mem_nil
  · exact fun c hc => List.mem_takeWhile_imp hc

/-- The text of a reserved word is implied by its kind. -/
theorem lit_word_of_ne_ident {text : List Char} (h : (word text).kind ≠ .ident) :
    (word text).lit = [] := by
  unfold word at h ⊢
  dsimp only at h ⊢
  split at h
  · rfl
  · exact absurd rfl h

/-- A bare word is the same reserved word, or a name in other letters. -/
theorem word_sameLetters (h : SameLetters s t) : (word t).kind = (word s).kind ∧
    (word t).width = (word s).width ∧ SameLetters (word s).lit (word t).lit := by
  have hname : SameLetters (s.takeWhile isWordPart) (t.takeWhile isWordPart) :=
    h.takeWhile fun _ _ hc => hc.isWordPart_eq
  unfold word
  simp only [hname.ofWord?_eq]
  cases TokenKind.ofWord? (s.takeWhile isWordPart) with
  | some kind => exact ⟨rfl, hname.length_eq.symm, .nil⟩
  | none => exact ⟨rfl, hname.length_eq.symm, hname⟩

/-- Both texts begin with a bare word. -/
theorem next?_word_sameLetters (h : SameLetters s t) {n : Nat} (hword : isWord (s.take n)) (b : Bool) :
    next? b s = some (word s) ∧ next? b t = some (word t) := by
  cases h with
  | nil =>
    rw [List.take_nil] at hword
    cases hword
  | @cons c d s t hc h =>
    cases n with
    | zero => cases hword
    | succ n =>
      rw [List.take_succ_cons, isWord, Bool.and_eq_true] at hword
      exact ⟨next?_isWordStart b hword.1 s, next?_isWordStart b (by rw [hc.isWordStart_eq, hword.1]) t⟩

theorem lowercase_word (h : SameLetters s t) :
    Unicode.lowercase (word t).lit = Unicode.lowercase (word s).lit := by
  rw [lowercase_of_isWordPart isWordPart_of_mem_word, lowercase_of_isWordPart isWordPart_of_mem_word]
  exact (word_sameLetters h).2.2.map_toLower_eq

end Lexeme

end InfluxQL
