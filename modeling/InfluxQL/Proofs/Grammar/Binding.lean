import InfluxQL.Proofs.Grammar.Concatenation
import InfluxQL.Proofs.Grammar.Parameters
import InfluxQL.Proofs.Grammar.SideBySide
import InfluxQL.Proofs.Syntax.Canonical

/-!
# A parameter and its literal

Where the value of a parameter is bound, its literal can be written as well, with a blank before it
and one behind it. Both texts are queries, and then the same query, or neither is.

The two runs go side by side: first before the same text, then one before the parameter and the other
before the literal, and then before the same text again. They part only if a token goes on over the
place of the parameter, or if an operand ends right before it; and then the parameter is not bound.

* `Exchange`: a text with a parameter, and the text with its literal;
* `Scanner.Past`, `Scanner.Skips`: no operand that starts at a byte is read any more;
* `Likeness.exchange`: the likeness;
* `Binds`: the value of a parameter is bound while a query is read;
* `parseQuery_bind`: the statement for queries.
-/

namespace InfluxQL

open Production Scanner TokenStream

theorem TokenKind.endsOperand_of_isValue {k : TokenKind} (h : k.isValue) :
    k.endsOperand ∧ k.isIdle = false := by
  cases k <;> first | exact ⟨rfl, rfl⟩ | cases h

namespace ParamValue

variable {v : ParamValue} {a : Atom} {rest : List Char}

/-- Where no operand ends before it a literal is one lexeme, and a token of it stands for the literal. -/
theorem exists_lexeme (ha : v.literal? = some a) (hf : ∀ x, v = .float x → x.isFinite)
    (hr : Lexeme.Delimited rest) :
    ∃ l, Lexeme.next? false (a.render ++ rest) = some l ∧ l.width = a.render.length ∧
      l.kind.isValue ∧ ∀ (params : Params) (t : Token), t.kind = l.kind →
        t.lit = String.ofList l.lit → Grammar.tokenOperand params t = pure (.atom a) := by
  cases v with
  | boolean b =>
    cases ha
    refine ⟨_, Lexeme.next?_boolean false b hr.noWordPart, rfl, rfl, fun params t hk _ => ?_⟩
    simp only [Grammar.tokenOperand, hk]
  | integer n =>
    cases ha
    refine ⟨_, Lexeme.next?_ofInteger n hr, rfl, rfl, fun params t hk hl => ?_⟩
    simp only [Grammar.tokenOperand, hk, hl, String.toList_ofList, Decimal.integer?_ofInteger]
  | float x =>
    cases ha
    refine ⟨_, Lexeme.next?_ofDouble (hf x rfl) hr, rfl, rfl, fun params t hk hl => ?_⟩
    simp only [Grammar.tokenOperand, hk, hl, String.toList_ofList, Decimal.double_ofDouble (hf x rfl)]
  | string s =>
    cases ha
    refine ⟨_, Lexeme.next?_quoteString false s.toList rest, rfl, rfl, fun params t hk hl => ?_⟩
    simp only [Grammar.tokenOperand, hk, hl, String.ofList_toList]
  | list vs => cases ha
  | null => cases ha

/-- A literal starts with a quote, a digit, a minus or a letter. -/
theorem head?_render_ne (ha : v.literal? = some a) (hf : ∀ x, v = .float x → x.isFinite) :
    ∀ c ∈ ['/', ':', '.'], (a.render ++ rest).head? ≠ some c := by
  have hdigits : ∀ {s t : List Char}, Decimal.IsDigits s → (t = s ∨ t = '-' :: s) →
      ∀ more, ∀ c ∈ ['/', ':', '.'], (t ++ more).head? ≠ some c := by
    rintro s t hs ht more c hc h
    obtain ⟨d, s, rfl⟩ := List.exists_cons_of_ne_nil hs.1
    have hd : d.isDigit := hs.2 d List.mem_cons_self
    rcases ht with rfl | rfl
    · obtain rfl : d = c := by simpa using h
      revert hd
      simp only [List.mem_cons, List.not_mem_nil, or_false] at hc
      rcases hc with rfl | rfl | rfl <;> decide
    · obtain rfl : '-' = c := by simpa using h
      simp at hc
  cases v with
  | boolean b =>
    cases ha
    cases b <;> simp [Atom.render]
  | integer n =>
    cases ha
    obtain ⟨s, hs, he⟩ := Decimal.ofInteger_eq n
    exact hdigits hs he rest
  | float x =>
    cases ha
    obtain ⟨whole, fraction, hw, -, he⟩ := Decimal.ofDouble_eq (hf x rfl)
    have happ : ∃ t, Decimal.ofDouble x = t ++ '.' :: fraction ∧ (t = whole ∨ t = '-' :: whole) :=
      he.elim (fun he => ⟨whole, he, .inl rfl⟩) fun he => ⟨'-' :: whole, he, .inr rfl⟩
    obtain ⟨t, he, ht⟩ := happ
    show ∀ c ∈ _, (Decimal.ofDouble x ++ rest).head? ≠ some c
    rw [he, List.append_assoc]
    exact hdigits hw ht _
  | string s =>
    cases ha
    have hhead : ((Atom.string s).render ++ rest).head? = some '\'' := rfl
    intro c hc h
    rw [hhead] at h
    cases h
    simp at hc
  | list vs => cases ha
  | null => cases ha

end ParamValue

/-- What is read for a parameter whose value can be bound. -/
theorem Grammar.tokenOperand_param {params : Params} {t : Token} {v : ParamValue} {a : Atom}
    (hk : t.kind = .param) (hname : t.parameterName ≠ "")
    (hv : params.get? t.parameterName = some v) (ha : v.literal? = some a) :
    tokenOperand params t = pure (.atom a) := by
  simp only [tokenOperand, hk, bound_of_get? hname hv, ha]
  rfl

/-! ### The two texts -/

/-- A text with a parameter: what is before it, its name, its value and the literal for that, and what
is behind it. -/
structure Exchange where
  front : List Char
  name : List Char
  value : ParamValue
  literal : Atom
  back : List Char
  name_ne_nil : name ≠ []
  word : (name ++ back).takeWhile isWordPart = name
  literal?_eq : value.literal? = some literal
  finite : ∀ x, value = .float x → x.isFinite

namespace Exchange

variable (x : Exchange)

/-- The parameter, and what is behind it. -/
def hole : List Char :=
  '$' :: (x.name ++ x.back)

/-- The literal and a blank, and what is behind them. -/
def fill : List Char :=
  x.literal.render ++ ' ' :: x.back

/-- The byte at which the parameter starts. -/
def byte : Nat :=
  byteSize x.front

theorem next?_hole (b : Bool) :
    Lexeme.next? b x.hole = some ⟨.param, '$' :: x.name, x.name.length + 1⟩ := by
  rw [hole, Lexeme.next?_dollar, x.word]

theorem delimited_back : Lexeme.Delimited (' ' :: x.back) :=
  Lexeme.delimited_cons (.inl rfl)

theorem replaces : Lexeme.Replaces (' ' :: x.fill) x.hole where
  blank := ⟨_, _, rfl, rfl⟩
  line h := by cases h
  ne_nil := List.cons_ne_nil _ _

theorem blankWidth_hole : Lexeme.blankWidth false x.hole = 0 := rfl

theorem blankWidth_fill : Lexeme.blankWidth false x.fill = 0 := by
  obtain ⟨l, hl, -, hk, -⟩ := ParamValue.exists_lexeme x.literal?_eq x.finite x.delimited_back
  refine Decidable.byContradiction fun hne => ?_
  rw [(Lexeme.kind_eq_blank_iff hl).2 hne] at hk
  cases hk

theorem head?_fill : x.fill.head?.any isBlank = false := by
  have hzero := x.blankWidth_fill
  cases hf : x.fill with
  | nil => rfl
  | cons c rest =>
    rw [hf, Lexeme.blankWidth, if_neg (by decide)] at hzero
    refine Bool.eq_false_iff.2 fun (hc : isBlank c) => ?_
    rw [if_pos hc] at hzero
    cases hzero

theorem blankWidth_space_fill : Lexeme.blankWidth false (' ' :: x.fill) = 1 := by
  rw [Lexeme.blankWidth, if_neg (by decide), if_pos (by decide), x.blankWidth_fill]

end Exchange

/-! ### Where no operand starts any more -/

namespace Scanner

variable {byte : Nat} {c d c' : Scanner} {ev : Event} {evs : List Event}

/-- No operand that starts at the byte is read from here on: the byte is behind, or within the next
token, or an operand ends right before it. -/
def Past (byte : Nat) (c : Scanner) : Prop :=
  byte < c.offset ∨ c.offset < byte ∧ byte < c.scan.2.offset ∨ c.offset = byte ∧ c.afterOperand

/-- With the event it is settled that no operand that starts at the byte is read. -/
def Skips (byte : Nat) (c : Scanner) (ev : Event) : Prop :=
  c.offset ≤ byte ∧ Past byte c ∨ ∃ t, ev = .given .regex t ∧ c.offset < byte ∧ byte < t.span.stop

theorem lt_offset_scan (hs : byte < byteSize c.source) (h : c.offset = byte) :
    byte < c.scan.2.offset := by
  subst h
  exact offset_lt_scan fun hk => Nat.ne_of_lt hs ((covers_scan rfl).eof_iff.1 hk)

theorem Past.moves (hs : byte < byteSize c.source) (h : Past byte c) (hm : c.Moves ev d) :
    Past byte d := by
  cases hm with
  | starts | peeked | returned => exact h
  | taken =>
    refine .inl ?_
    rcases h with h | ⟨-, h⟩ | ⟨h, -⟩
    · exact Nat.lt_of_lt_of_le h offset_le_scan
    · exact h
    · exact lt_offset_scan hs h
  | regex ha =>
    refine .inl ?_
    rcases h with h | ⟨-, h⟩ | ⟨h, -⟩
    · exact Nat.lt_trans h (offset_lt_regex ha)
    · exact Nat.lt_of_lt_of_le h (scan_slash ha).2
    · exact h ▸ offset_lt_regex ha

theorem Past.passes (hs : byte < byteSize c.source) (h : Past byte c) (hp : c.Passes evs d) :
    Past byte d := by
  induction hp with
  | done => exact h
  | step hm _ ih =>
    refine ih ?_ (h.moves hs hm)
    rwa [source, hm.source_eq]

theorem Skips.past (hs : byte < byteSize c.source) (h : Skips byte c ev) (hm : c.Moves ev d) :
    Past byte d := by
  rcases h with ⟨-, h⟩ | ⟨t, rfl, -, h⟩
  · exact h.moves hs hm
  · cases hm with
    | regex => exact .inl h

theorem Skips.offset_le (h : Skips byte c ev) : c.offset ≤ byte := by
  rcases h with ⟨h, -⟩ | ⟨-, -, h, -⟩
  · exact h
  · exact Nat.le_of_lt h

/-- Where an operand starts that has been read nothing was skipped before, and nothing is later. -/
theorem not_skips_of_fresh {c₀ : Scanner} {before behind before' behind' : List Event} {t : Token}
    (hs : byte < byteSize c₀.source) (hp : c₀.Passes before d)
    (hevs : before ++ ev :: behind = before' ++ .given (.taken true) t :: behind')
    (hp' : c₀.Passes before' c')
    (hoffset : c'.offset = byte) (hfresh : c'.afterOperand = false) : ¬Skips byte d ev := by
  intro hskips
  have hpast : ¬Past byte c' := by
    rintro (h | ⟨h, -⟩ | ⟨-, h⟩)
    · omega
    · omega
    · rw [hfresh] at h
      cases h
  have hsource : byte < byteSize d.source := by
    rwa [source, hp.source_eq]
  -- Skipped at the operand or before it, the byte is past there; behind it nothing leads back.
  rcases Passes.order hevs hp hp' with ⟨rfl, rfl⟩ | ⟨e, _, hm, hbetween⟩ | ⟨e, _, hm, hbetween⟩
  · rcases hskips with ⟨-, h⟩ | ⟨_, h, -⟩
    · exact hpast h
    · cases h
  · refine hpast ((hskips.past hsource hm).passes ?_ hbetween)
    rwa [source, hm.source_eq]
  · cases hm with
    | taken =>
      have hlt : byte < c'.scan.2.offset :=
        lt_offset_scan (by rwa [source, hp'.source_eq]) hoffset
      have hle := Nat.le_trans hbetween.offset_le hskips.offset_le
      omega

/-! ### Side by side -/

/-- Both scanners are before the same rest of the front, or the left one is before the parameter and the
right one before the literal, or both are before the same end. -/
inductive Exchanged (x : Exchange) (c c' : Scanner) : Prop
  | before (h : SameFront x.front x.hole (' ' :: x.fill) c c')
  | within (offset : c.offset = x.byte) (left : c.cursor.ahead = x.hole)
      (right : c'.cursor.ahead = x.fill) (operand : c'.afterOperand = c.afterOperand)
  | behind (h : SameAhead c c')

/-- A blank more may be before the right one. -/
def NearExchanged (x : Exchange) (c c' : Scanner) : Prop :=
  Exchanged x c c' ∨
    c'.cursor.ahead = ' ' :: c.cursor.ahead ∧ c'.afterOperand = c.afterOperand

variable {x : Exchange} {rest : List Char}

/-- A token of the front that does not end in it goes on over the parameter. -/
theorem past_of_length_lt (hne : rest ≠ []) (hoffset : c.offset + byteSize rest = x.byte)
    (hleft : c.cursor.ahead = rest ++ x.hole) {l : Lexeme}
    (hl : Lexeme.next? c.afterOperand (rest ++ x.hole) = some l) (hw : rest.length < l.width) :
    c.offset ≤ x.byte ∧ Past x.byte c := by
  have hpos := byteSize_pos hne
  refine ⟨by omega, .inr (.inl ⟨by omega, ?_⟩)⟩
  refine Decidable.byContradiction fun hle => ?_
  rw [scan_of_lexeme (by rw [hleft, hl])] at hle
  have := width_le_of_offset_le hleft (Lexeme.width_le hl) (by omega)
  omega

/-- Where a blank is skipped on both sides, the blank before the literal is skipped as well. -/
theorem exchanged_pastBlank (h : NearExchanged x c c') :
    c.offset ≤ x.byte ∧ Past x.byte c ∨ Exchanged x c.pastBlank c'.pastBlank := by
  have hoperand : c'.afterOperand = c.afterOperand →
      c'.pastBlank.afterOperand = c.pastBlank.afterOperand := by
    rw [afterOperand_pastBlank, afterOperand_pastBlank]
    exact id
  rcases h with h | ⟨ha, ho⟩
  · cases h with
    | before h =>
      obtain ⟨rest, -, hoffset, hleft, hright⟩ := h.exists_rest
      -- The blanks end before the parameter, right before it, or a comment goes on over it.
      rcases Nat.lt_trichotomy (Lexeme.blankWidth false (rest ++ x.hole)) rest.length with
        hlt | heq | hgt
      · have hfew := Lexeme.blankWidth_of_append (Nat.le_of_lt hlt)
        have hsame : Lexeme.blankWidth false (rest ++ ' ' :: x.fill) =
            Lexeme.blankWidth false (rest ++ x.hole) := by
          rw [Lexeme.blankWidth_append (x.replaces.parted rest) (by omega), hfew]
        rw [pastBlank_eq, pastBlank_eq, hleft, hright, hsame]
        exact .inr (.before
          (h.take hleft hright (l := .verbatim .blank _ []) (Nat.le_of_lt hlt)).2)
      · have hmore := Lexeme.blankWidth_replace x.replaces.ne_nil heq (' ' :: x.fill)
        rw [x.blankWidth_space_fill] at hmore
        refine .inr (.within ?_ ?_ ?_ (hoperand h.afterOperand_eq))
        · rw [pastBlank_eq, hleft, heq]
          refine Eq.trans ?_ hoffset
          show c.offset + byteSize (c.cursor.ahead.take rest.length) = _
          rw [hleft, List.take_left]
        · rw [ahead_pastBlank, hleft, Lexeme.pastBlank, heq, List.drop_left]
        · rw [ahead_pastBlank, hright, Lexeme.pastBlank, hmore, List.drop_append]
          simp
      · have hne : rest ≠ [] := by
          rintro rfl
          simp [x.blankWidth_hole] at hgt
        have hl := Lexeme.next?_of_blank c.afterOperand (Nat.ne_zero_of_lt hgt)
        exact .inl (past_of_length_lt hne hoffset hleft hl hgt)
    | within hoffset hleft hright ho =>
      refine .inr (.within ?_ ?_ ?_ (hoperand ho))
      · rw [pastBlank_eq, hleft, x.blankWidth_hole]
        exact hoffset
      · rw [ahead_pastBlank, hleft, Lexeme.pastBlank_eq_self x.blankWidth_hole]
      · rw [ahead_pastBlank, hright, Lexeme.pastBlank_eq_self x.blankWidth_fill]
    | behind h => exact .inr (.behind h.pastBlank)
  · refine .inr (.behind ⟨?_, hoperand ho⟩)
    rw [ahead_pastBlank, ahead_pastBlank, ha, Lexeme.pastBlank_space]

/-- The next characters on both sides may differ, but they lead the same way. -/
theorem exchanged_head? (h : Exchanged x c c') : ∀ y ∈ ['/', ':', '.'],
    (c'.cursor.ahead.head? = some y ↔ c.cursor.ahead.head? = some y) := by
  intro y hy
  have hhole : x.hole.head? ≠ some y := by
    intro h
    cases h
    simp at hy
  cases h with
  | before h =>
    obtain ⟨rest, -, -, hleft, hright⟩ := h.exists_rest
    rw [hleft, hright]
    cases rest with
    | nil =>
      refine iff_of_false ?_ hhole
      intro h
      cases h
      simp at hy
    | cons z rest => exact Iff.rfl
  | within _ hleft hright _ =>
    rw [hleft, hright]
    exact iff_of_false (ParamValue.head?_render_ne x.literal?_eq x.finite y hy) hhole
  | behind h => rw [h.ahead_eq]

end Scanner

namespace Likeness

/-- A text with a parameter, and the text with its literal. -/
def exchange (x : Exchange) : Likeness where
  rel := Exchanged x
  near := NearExchanged x
  place _ _ := True
  errors _ _ := True
  fails e := e.cause = .outOfSteps
  misses := Skips x.byte
  params params := params.get? (String.ofList x.name) = some x.value

variable {x : Exchange} {c c' : Scanner}

theorem lost_of_past (h : c.offset ≤ x.byte ∧ Past x.byte c) : (exchange x).Lost c :=
  fun _ => .inl h

/-- Where an operand ends before it the parameter is not bound. -/
theorem lost_of_afterOperand (hoffset : c.offset = x.byte) (h : c.afterOperand = true) :
    (exchange x).Lost c :=
  lost_of_past ⟨Nat.le_of_eq hoffset, .inr (.inr ⟨hoffset, h⟩)⟩

theorem scan_hole (h : c.cursor.ahead = x.hole) :
    c.scan = c.take ⟨.param, '$' :: x.name, x.name.length + 1⟩ :=
  scan_of_lexeme (by rw [h, x.next?_hole])

/-- Before the literal comes a blank, which is only skipped where one can be. -/
theorem exchange_blank (h : c.cursor.ahead = x.hole) (h' : c'.cursor.ahead = ' ' :: x.fill) :
    (exchange x).Heads c c' ∧ (exchange x).EndsAlike c c' := by
  have hkind : c.scan.1.kind = .param := by
    rw [scan_hole h]
    rfl
  have hkind' : c'.scan.1.kind = .blank := by
    rw [scan_of_lexeme (Lexeme.next?_of_blank _ (by rw [h', x.blankWidth_space_fill]; decide))]
    rfl
  refine ⟨.exchanged hkind (.inr hkind') (fun _ _ => trivial) (absurd hkind') (absurd hkind'),
    .ofNe ?_⟩
  rw [hkind, hkind']
  rintro _ (rfl | rfl) <;> exact ⟨by decide, by decide⟩

/-- Where an operand can stand the token of the literal stands for the value of the parameter. -/
theorem exchange_literal (h : c.cursor.ahead = x.hole) (h' : c'.cursor.ahead = x.fill)
    (hoperand : c'.afterOperand = c.afterOperand) (hfresh : c.afterOperand = false) :
    (exchange x).Heads c c' ∧ (exchange x).EndsAlike c c' := by
  obtain ⟨l, hl, hwidth, hvalue, hread⟩ :=
    ParamValue.exists_lexeme x.literal?_eq x.finite x.delimited_back
  have hscan := scan_hole h
  have hscan' : c'.scan = c'.take l := scan_of_lexeme (by rw [hoperand, hfresh, h']; exact hl)
  have hkind : c.scan.1.kind = .param := by
    rw [hscan]
    rfl
  have hkind' : c'.scan.1.kind = l.kind := by
    rw [hscan']
    rfl
  refine ⟨.exchanged hkind (.inl (hkind' ▸ hvalue)) (fun _ _ => trivial) (fun _ => .inr ⟨?_, ?_⟩)
    fun _ params hparams => ⟨.atom x.literal, ?_, ?_⟩, .ofNe ?_⟩
  · rw [hscan, hscan']
    simp [take, Cursor.advance, h, h', Exchange.hole, Exchange.fill, hwidth]
  · obtain ⟨hends, hidle⟩ := TokenKind.endsOperand_of_isValue hvalue
    rw [afterOperand_scan hkind rfl, afterOperand_scan hkind' hidle, hends]
    rfl
  · have hname : c.scan.1.parameterName = String.ofList x.name := by
      rw [hscan]
      simp [Token.parameterName, take]
    refine Grammar.tokenOperand_param hkind ?_ (v := x.value) ?_ x.literal?_eq
    · rw [hname]
      simpa using x.name_ne_nil
    · rw [hname]
      exact hparams
  · refine hread params _ hkind' ?_
    rw [hscan']
    rfl
  · rw [hkind, hkind']
    rintro _ (rfl | rfl) <;> exact ⟨by decide, TokenKind.ne_of_isValue hvalue rfl⟩

/-- A blank that reaches up to the parameter is one character longer before the literal. -/
theorem exchange_blanks {rest : List Char} (h : c.cursor.ahead = rest ++ x.hole)
    (h' : c'.cursor.ahead = rest ++ ' ' :: x.fill)
    (hblank : Lexeme.blankWidth false (rest ++ x.hole) ≠ 0)
    (hwidth : Lexeme.blankWidth false (rest ++ x.hole) = rest.length) :
    (exchange x).Heads c c' ∧ (exchange x).EndsAlike c c' := by
  have hmore := Lexeme.blankWidth_replace x.replaces.ne_nil hwidth (' ' :: x.fill)
  have hkind : c.scan.1.kind = .blank := by
    rw [scan_of_lexeme (Lexeme.next?_of_blank _ (by rwa [h]))]
    rfl
  have hkind' : c'.scan.1.kind = .blank := by
    rw [scan_of_lexeme (Lexeme.next?_of_blank _ (by rw [h', hmore]; omega))]
    rfl
  refine ⟨.idle (by rw [hkind]; rfl) (by rw [hkind']; rfl) fun _ _ => trivial, .ofNe ?_⟩
  rw [hkind, hkind']
  rintro _ (rfl | rfl) <;> exact ⟨by decide, by decide⟩

theorem exchange_scan (h : Exchanged x c c') :
    (exchange x).Lost c ∨ (exchange x).Heads c c' ∧ (exchange x).EndsAlike c c' := by
  cases h with
  | before h =>
    obtain ⟨rest, -, hoffset, hleft, hright⟩ := h.exists_rest
    cases rest with
    | nil => exact .inr (exchange_blank hleft hright)
    | cons y rest =>
      have hsome : Lexeme.next? c.afterOperand (y :: rest ++ x.hole) ≠ none :=
        mt Lexeme.next?_eq_none_iff.1 (by simp)
      obtain ⟨l, hl⟩ := Option.ne_none_iff_exists'.1 hsome
      -- The next lexeme reaches over the parameter, or is a blank up to it, or ends before it.
      rcases Nat.lt_or_ge (y :: rest).length l.width with hlt | hle
      · exact .inl (lost_of_past (past_of_length_lt (List.cons_ne_nil _ _) hoffset hleft hl hlt))
      by_cases hblank : l.kind = .blank ∧ l.width = (y :: rest).length
      · have hne := (Lexeme.kind_eq_blank_iff hl).1 hblank.1
        refine .inr (exchange_blanks hleft hright hne ?_)
        rw [Lexeme.next?_of_blank _ hne] at hl
        cases hl
        exact hblank.2
      · have hl' : Lexeme.next? c'.afterOperand c'.cursor.ahead = some l := by
          rw [h.afterOperand_eq, hright]
          exact Lexeme.next?_replace x.replaces hl hle fun hk =>
            Nat.lt_of_le_of_ne hle fun hw => hblank ⟨hk, hw⟩
        exact .inr (ofLexeme (by rw [hleft, hl]) hl' trivial (.before (h.take hleft hright hle).2))
  | within hoffset hleft hright ho =>
    cases hb : c.afterOperand with
    | true => exact .inl (lost_of_afterOperand hoffset hb)
    | false => exact .inr (exchange_literal hleft hright ho hb)
  | behind h => exact .inr (ofSameAhead (fun _ _ => trivial) Exchanged.behind h)

/-- A regular expression of the front that ends in it is read on both sides. -/
theorem exchange_regexHeads {rest rest' : List Char} (h : Exchanged x c c')
    (ha : c.cursor.ahead = '/' :: rest) (ha' : c'.cursor.ahead = '/' :: rest') :
    (exchange x).RegexHeads c c' rest rest' := by
  cases h with
  | before h =>
    have hlt : c.offset < x.byte := h.offset_lt (by rw [ha]; exact nofun)
    by_cases hover : x.byte < (c.regex rest).2.offset
    · exact .lost (.inr ⟨_, rfl, hlt, hover⟩)
    · obtain ⟨ht, hr⟩ := h.regex x.replaces.ne_nil ha ha' hlt (Nat.le_of_not_lt hover)
      exact .same ⟨by rw [ht], by rw [ht], trivial⟩ (.before hr)
  | within _ hleft =>
    rw [hleft] at ha
    cases ha
  | behind h => exact regexHeads_ofSameAhead (fun _ _ => trivial) Exchanged.behind h ha ha'

theorem exchange_pastBlankCharacter (h : Exchanged x c c') :
    (c.cursor.ahead.head?.any isBlank ∧ (exchange x).Lost c) ∨
      Exchanged x c.pastBlankCharacter c'.pastBlankCharacter := by
  have hsame : c'.cursor.ahead.head? = c.cursor.ahead.head? → _ := fun hhead =>
    lost_or_pastBlankCharacter (L := exchange x) (by rw [hhead])
      ((exchanged_pastBlank (.inl h)).imp_left lost_of_past) h
  have hhole : c.cursor.ahead = x.hole → c.pastBlankCharacter = c := by
    intro hleft
    have hnone : x.hole.head?.any isBlank = false := rfl
    rw [pastBlankCharacter, hleft, if_neg (by rw [hnone]; decide)]
  cases h with
  | before h =>
    obtain ⟨rest, -, hoffset, hleft, hright⟩ := h.exists_rest
    cases rest with
    | nil =>
      have hright' : c'.pastBlankCharacter = c'.pastBlank := by
        rw [pastBlankCharacter, hright]
        exact if_pos rfl
      rw [hhole hleft, hright']
      refine .inr (.within hoffset hleft ?_ (by simpa using h.afterOperand_eq))
      rw [ahead_pastBlank, hright, List.nil_append, Lexeme.pastBlank_space,
        Lexeme.pastBlank_eq_self x.blankWidth_fill]
    | cons y rest => exact hsame (by rw [hleft, hright]; rfl)
  | within hoffset hleft hright ho =>
    have hright' : c'.pastBlankCharacter = c' := by
      rw [pastBlankCharacter, hright, if_neg (by rw [x.head?_fill]; decide)]
    rw [hhole hleft, hright']
    exact .inr (.within hoffset hleft hright ho)
  | behind h => exact hsame (by rw [h.ahead_eq])

theorem exchange_lawful : (exchange x).Lawful where
  errors_of_place _ _ _ := trivial
  fails_outOfSteps he := he
  near_of_rel h := .inl h
  apart h := h.elim
  heads h := (exchange_scan h).imp_right And.left
  regexHeads h ha ha' := exchange_regexHeads h ha ha'
  pastBlank h := (exchanged_pastBlank h).imp_left lost_of_past
  pastBlankCharacter h := .inr ((exchange_pastBlankCharacter h).imp_right .inl)
  nextCharacter h := .inr (exchanged_head? h)

theorem exchange_keepsEnds : (exchange x).KeepsEnds :=
  fun h _ => (exchange_scan h).imp_right And.right

end Likeness

/-- While the query of the text is read, the token is taken for an operand and a parameter. -/
def Binds [PatternCompiler] (source : String) (params : Params) (t : Token) : Prop :=
  .given (.taken true) t ∈ queryEvents source params

namespace Grammar

variable [PatternCompiler]
variable {x : Exchange} {params : Params} {n n' : Nat} {t : Token}

/-- A run that binds the parameter does not skip it. -/
theorem not_skips_of_bound {evs : List Event} (hevs : (queryTrace params n).events
    (TokenStream.start (x.front ++ x.hole)) = evs) (hbound : .given (.taken true) t ∈ evs)
    (ht : t.span.start = x.byte) {before behind : List Event} {ev : Event} {d : Scanner}
    (hsplit : evs = before ++ ev :: behind)
    (hp : (Scanner.start (x.front ++ x.hole)).Passes before d) : ¬Skips x.byte d ev := by
  obtain ⟨c, hc⟩ := (query_ends params n (x.front ++ x.hole)).exists_course (Nat.le_refl 4)
  rw [hevs] at hc
  obtain ⟨e, _, before', behind', hsplit', hp', hm, -⟩ := hc.passes.exists_of_mem hbound
  have hsize : x.byte < byteSize (Scanner.start (x.front ++ x.hole)).source := by
    show byteSize x.front < byteSize (x.front ++ x.hole)
    rw [byteSize_append]
    exact Nat.lt_add_of_pos_right (byteSize_pos (List.cons_ne_nil _ _))
  exact not_skips_of_fresh hsize hp (hsplit.symm.trans hsplit') hp'
    (hm.start_eq.symm.trans ht) (hc.fresh before' t behind' e hsplit' hp')

/-- A query with the parameter and one with its literal, with at least as many steps. -/
theorem query_exchange (hparams : params.get? (String.ofList x.name) = some x.value) (hn : n ≤ n')
    (hsteps : stepsFor (x.front ++ x.hole) ≤ n) (hbound : .given (.taken true) t ∈
      (queryTrace params n).events (TokenStream.start (x.front ++ x.hole)))
    (ht : t.span.start = x.byte) (q : Query) :
    (query params n).run (x.front ++ x.hole) = .ok q ↔
      (query params n').run (x.front ++ ' ' :: x.fill) = .ok q := by
  have hstart : Exchanged x (Scanner.start (x.front ++ x.hole))
      (Scanner.start (x.front ++ ' ' :: x.fill)) := .before (.start _ _ _)
  exact query_run_iff Likeness.exchange_lawful hn hparams Likeness.exchange_keepsEnds hstart hsteps
    (fun _ he => he) (fun _ _ _ _ hsplit hd => not_skips_of_bound rfl hbound ht hsplit hd) q

/-- The token of a parameter that ends where its name does shows that the word ends there. -/
theorem takeWhile_of_bound {front name back : List Char} (hbound : .given (.taken true) t ∈
      (queryTrace params n).events (TokenStream.start (front ++ '$' :: (name ++ back))))
    (ht : t.span = ⟨byteSize front, byteSize front + 1 + byteSize name⟩) :
    (name ++ back).takeWhile isWordPart = name := by
  obtain ⟨c, hc⟩ := (query_ends params n (front ++ '$' :: (name ++ back))).exists_course (Nat.le_refl 4)
  obtain ⟨d, _, _, _, -, hd, hm, -⟩ := hc.passes.exists_of_mem hbound
  have hsource : d.source = front ++ '$' :: (name ++ back) := hd.source_eq
  have hahead : d.cursor.ahead = '$' :: (name ++ back) := by
    refine (append_inj_of_byteSize hsource ?_).2
    rw [Cursor.byteSize_reverse_behind]
    exact hm.start_eq.symm.trans (congrArg Span.start ht)
  have hbytes : byteSize ((name ++ back).takeWhile isWordPart) = byteSize name := by
    have hstop := congrArg Span.stop ht
    cases hm with
    | taken =>
      rw [scan_of_lexeme (by rw [hahead]; exact Lexeme.next?_dollar _ _)] at hstop ht
      have hprefix := List.prefix_iff_eq_take.1 (List.takeWhile_prefix isWordPart (l := name ++ back))
      simp only [take, Cursor.advance, hahead, List.take_succ_cons, ← hprefix, byteSize_cons] at hstop
      have hstart := congrArg Span.start ht
      have hdollar : '$'.utf8Size = 1 := rfl
      simp only [take] at hstart
      omega
  exact (append_inj_of_byteSize (List.takeWhile_append_dropWhile) hbytes).1

end Grammar

/-- Where the value of a parameter is bound its literal can stand, with a blank before it and one behind
it: if one of the texts is a query, then so is the other, and it is the same. -/
theorem parseQuery_bind [PatternCompiler] {front name back : String} {params : Params} {t : Token}
    {v : ParamValue}
    {a : Atom} (hbinds : Binds (front ++ "$" ++ name ++ back) params t)
    (hspan : t.span = ⟨front.utf8ByteSize, front.utf8ByteSize + 1 + name.utf8ByteSize⟩)
    (hname : name ≠ "") (hv : params.get? name = some v) (ha : v.literal? = some a)
    (hfinite : ∀ x, v = .float x → x.isFinite) (q : Query) :
    parseQuery (front ++ "$" ++ name ++ back) params = .ok q ↔
      parseQuery (front ++ " " ++ (Expr.atom a).text ++ " " ++ back) params = .ok q := by
  have hleft : (front ++ "$" ++ name ++ back).toList =
      front.toList ++ '$' :: (name.toList ++ back.toList) := by
    simp
  have hright : (front ++ " " ++ (Expr.atom a).text ++ " " ++ back).toList =
      front.toList ++ ' ' :: (a.render ++ ' ' :: back.toList) := by
    simp [Expr.text, Expr.render]
  unfold Binds queryEvents at hbinds
  rw [hleft] at hbinds
  rw [utf8ByteSize_eq_byteSize, utf8ByteSize_eq_byteSize] at hspan
  obtain ⟨x, hfront, hhole, hfill, hparams⟩ : ∃ x : Exchange, x.front = front.toList ∧
      x.hole = '$' :: (name.toList ++ back.toList) ∧ x.fill = a.render ++ ' ' :: back.toList ∧
      params.get? (String.ofList x.name) = some x.value := by
    refine ⟨⟨front.toList, name.toList, v, a, back.toList, by simpa using hname,
      Grammar.takeWhile_of_bound hbinds hspan, ha, hfinite⟩, rfl, rfl, rfl, ?_⟩
    dsimp only
    rw [String.ofList_toList, hv]
  rw [← hfront, ← hhole] at hleft hbinds
  rw [← hfront, ← hfill] at hright
  unfold parseQuery
  have hsteps := Grammar.query_run_of_le params
    (Nat.le_max_right (Grammar.stepsFor (x.front ++ x.hole)) (Grammar.stepsFor (x.front ++ ' ' :: x.fill)))
  rw [hleft, hright, ← hsteps]
  refine Grammar.query_exchange hparams (Nat.le_max_left _ _) (Nat.le_refl _) hbinds ?_ q
  rw [hspan, Exchange.byte, hfront]

/-- A negative integer between two signs, behind a character of two bytes. -/
theorem parseQuery_bind_negative :
    let params := Params.empty.insert "x" (.integer (-3))
    let t : Token := ⟨.param, "$x", ⟨0, 12⟩, ⟨13, 15⟩⟩
    let e : Expr := .binary .add (.binary .sub (.atom (.var ⟨"é", .unknown⟩)) (.atom (.integer (-3))))
      (.atom (.integer 2))
    let q : Query :=
      ⟨[.select ⟨[⟨e, none⟩], [.measurement ⟨none, none, some "m", none⟩], none, true⟩]⟩
    Binds ("SELECT \"é\" -" ++ "$" ++ "x" ++ "+2 FROM m") params t ∧
      parseQuery ("SELECT \"é\" -" ++ "$" ++ "x" ++ "+2 FROM m") params = .ok q ∧
      parseQuery ("SELECT \"é\" -" ++ " " ++ (Expr.atom (.integer (-3))).text ++ " " ++ "+2 FROM m")
        params = .ok q := by
  intro params t e q
  have hbinds : Binds ("SELECT \"é\" -" ++ "$" ++ "x" ++ "+2 FROM m") params t := by
    unfold Binds
    decide +kernel
  have hspan : t.span =
      ⟨"SELECT \"é\" -".utf8ByteSize, "SELECT \"é\" -".utf8ByteSize + 1 + "x".utf8ByteSize⟩ := by
    decide +kernel
  have hleft : parseQuery ("SELECT \"é\" -" ++ "$" ++ "x" ++ "+2 FROM m") params = .ok q := by
    cbv
  have hfinite : ∀ x, ParamValue.integer (-3) = .float x → x.isFinite := by
    rintro _ ⟨⟩
  exact ⟨hbinds, hleft, (parseQuery_bind hbinds hspan (by decide) rfl rfl hfinite q).1 hleft⟩

end InfluxQL
