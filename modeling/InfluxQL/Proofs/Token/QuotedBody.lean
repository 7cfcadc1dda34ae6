import InfluxQL.Proofs.Token.Lossless

/-!
# What stands between quotes

Behind an opening quote stand plain characters and escapes, as many as there are; these are the body
of the quoted text. The body has a value, and what follows it decides how the text is read.

* `Quoted.Means`: a text of plain characters and escapes, and its value;
* `Quoted.IsBody`: the longest such text at the front of another;
* `Quoted.Outcome`: what a quoted text is read as for what stands behind its body;
* `quotedDecode_body`: the statement that reading follows these rules.
-/

namespace InfluxQL

namespace Quoted

/-! ### The rules -/

/-- A backslash and the first character stand for the second one. -/
inductive Escapes : Char → Char → Prop
  | newline : Escapes 'n' '\n'
  | backslash : Escapes '\\' '\\'
  | single : Escapes '\x27' '\x27'
  | double : Escapes '\x22' '\x22'

/-- The text is made of plain characters and escapes, and has the value. -/
inductive Means (quote : Char) : (text value : List Char) → Prop
  | nil : Means quote [] []
  | plain {c : Char} {text value : List Char} : c ≠ quote → c ≠ '\\' → c ≠ '\n' →
      Means quote text value → Means quote (c :: text) (c :: value)
  | escape {e c : Char} {text value : List Char} : Escapes e c →
      Means quote text value → Means quote ('\\' :: e :: text) (c :: value)

/-- The text is the longest one of plain characters and escapes at the front of another, and has the
value. -/
structure IsBody (quote : Char) (rest text value : List Char) : Prop where
  means : Means quote text value
  isPrefix : text <+: rest
  longest : ∀ other meaning, Means quote other meaning → other <+: rest →
    other.length ≤ text.length

/-- What a quoted text is read as when its body has the value and the third text stands behind it, and
the text that is taken. -/
inductive Outcome (quote : Char) (text value : List Char) :
    (behind : List Char) → Body → (taken : List Char) → Prop
  | closed (behind : List Char) :
      Outcome quote text value (quote :: behind) (.closed value) (text ++ [quote])
  | line (behind : List Char) :
      Outcome quote text value ('\n' :: behind) (.unterminated value) text
  | badEscape (c : Char) (behind : List Char) :
      Outcome quote text value ('\\' :: c :: behind) (.badEscape ['\\', c]) (text ++ ['\\', c])
  | loneBackslash :
      Outcome quote text value ['\\'] (.unterminated value) (text ++ ['\\'])
  | finished :
      Outcome quote text value [] (.unterminated value) text

/-! ### There is one body -/

variable {quote : Char} {rest text text' value value' behind : List Char}

theorem escaped?_eq_some_iff {e c : Char} : escaped? e = some c ↔ Escapes e c := by
  constructor
  · intro h
    unfold escaped? at h
    split_ifs at h with hn hs
    · cases h
      subst hn
      exact .newline
    · cases h
      rcases hs with rfl | rfl | rfl
      · exact .backslash
      · exact .single
      · exact .double
  · rintro (_ | _ | _ | _) <;> rfl

theorem Escapes.unique {e c c' : Char} (h : Escapes e c) (h' : Escapes e c') : c = c' := by
  rw [← escaped?_eq_some_iff] at h h'
  exact Option.some.inj (h.symm.trans h')

/-- A text has one value. -/
theorem Means.unique (h : Means quote text value) (h' : Means quote text value') :
    value = value' := by
  induction h generalizing value' with
  | nil =>
    cases h'
    rfl
  | plain _ hb _ _ ih =>
    cases h' with
    | plain _ _ _ h' => rw [ih h']
    | escape => exact absurd rfl hb
  | escape he _ ih =>
    cases h' with
    | plain _ hb => exact absurd rfl hb
    | escape he' h' => rw [ih h', he.unique he']

/-- There is one body. -/
theorem IsBody.unique (h : IsBody quote rest text value) (h' : IsBody quote rest text' value') :
    text = text' ∧ value = value' := by
  have hle : text.length ≤ text'.length := h'.longest _ _ h.means h.isPrefix
  have hge : text'.length ≤ text.length := h.longest _ _ h'.means h'.isPrefix
  obtain rfl : text = text' :=
    (List.prefix_of_prefix_length_le h.isPrefix h'.isPrefix hle).eq_of_length_le hge
  exact ⟨rfl, h.means.unique h'.means⟩

/-- The body does not go on with what stands behind it. -/
def Stops (quote : Char) (behind : List Char) : Prop :=
  ∀ text value, Means quote text value → text <+: behind → text = []

theorem stops_nil : Stops quote [] :=
  fun _ _ _ h => List.prefix_nil.1 h

/-- Neither a quote nor a newline is plain, and neither begins an escape. -/
theorem stops_cons {c : Char} (hc : c = quote ∨ c = '\n') (hb : c ≠ '\\') :
    Stops quote (c :: behind) := by
  intro text value hm hp
  cases hm with
  | nil => rfl
  | plain hq _ hn =>
    obtain ⟨rfl, -⟩ := List.cons_prefix_cons.1 hp
    exact (hc.elim hq hn).elim
  | escape =>
    obtain ⟨rfl, -⟩ := List.cons_prefix_cons.1 hp
    exact absurd rfl hb

/-- A backslash that begins no escape stands for nothing. -/
theorem stops_backslash (h : ∀ e ∈ behind.head?, escaped? e = none) :
    Stops quote ('\\' :: behind) := by
  intro text value hm hp
  cases hm with
  | nil => rfl
  | plain _ hb =>
    obtain ⟨rfl, -⟩ := List.cons_prefix_cons.1 hp
    exact absurd rfl hb
  | escape he =>
    obtain ⟨-, t, ht⟩ := List.cons_prefix_cons.1 hp
    have hnone := h _ (by rw [← ht]; rfl)
    rw [escaped?_eq_some_iff.2 he] at hnone
    cases hnone

/-- A text of plain characters and escapes that does not go on is the body. -/
theorem IsBody.of_stops (h : Means quote text value) (hs : Stops quote behind) :
    IsBody quote (text ++ behind) text value where
  means := h
  isPrefix := List.prefix_append _ _
  longest := by
    -- By induction on the body: another text begins as it does, and stops where it stops.
    induction h with
    | nil =>
      intro other meaning ho hp
      rw [hs other meaning ho hp]
    | plain _ hb _ _ ih =>
      intro other meaning ho hp
      cases ho with
      | nil => exact Nat.zero_le _
      | plain _ _ _ ho =>
        exact Nat.succ_le_succ (ih _ _ ho (List.cons_prefix_cons.1 hp).2)
      | escape => exact absurd (List.cons_prefix_cons.1 hp).1.symm hb
    | escape _ _ ih =>
      intro other meaning ho hp
      cases ho with
      | nil => exact Nat.zero_le _
      | plain _ hb => exact absurd (List.cons_prefix_cons.1 hp).1 hb
      | escape _ ho =>
        have hp := (List.cons_prefix_cons.1 (List.cons_prefix_cons.1 hp).2).2
        exact Nat.add_le_add_right (ih _ _ ho hp) 2

/-! ### Reading -/

/-- What is read of a quoted text, and how much is taken, is by the rules: the text has a body, and what
follows it decides. -/
structure ReadsBy (quote : Char) (rest : List Char) (result : Body × Nat)
    (text value behind taken : List Char) : Prop where
  means : Means quote text value
  rest_eq : rest = text ++ behind
  stops : Stops quote behind
  outcome : Outcome quote text value behind result.1 taken
  width_eq : result.2 = taken.length

/-- What is read when nothing belongs to the body. -/
theorem ReadsBy.atOnce {result : Body × Nat} {taken : List Char} (hs : Stops quote rest)
    (ho : Outcome quote [] [] rest result.1 taken) (hw : result.2 = taken.length) :
    ReadsBy quote rest result [] [] rest taken :=
  ⟨.nil, rfl, hs, ho, hw⟩

theorem Outcome.push {body : Body} {taken : List Char} (h : Outcome quote text value behind body taken)
    (before : List Char) (c : Char) :
    Outcome quote (before ++ text) (c :: value) behind (body.push c) (before ++ taken) := by
  cases h with
  | closed =>
    rw [← List.append_assoc]
    exact .closed _
  | line => exact .line _
  | badEscape =>
    rw [← List.append_assoc]
    exact .badEscape _ _
  | loneBackslash =>
    rw [← List.append_assoc]
    exact .loneBackslash
  | finished => exact .finished

/-- One more character of the value, and what is written for it. -/
theorem ReadsBy.push {result : Body × Nat} {taken before : List Char} {c : Char}
    (h : ReadsBy quote rest result text value behind taken)
    (hm : Means quote (before ++ text) (c :: value)) :
    ReadsBy quote (before ++ rest) (result.1.push c, result.2 + before.length) (before ++ text)
      (c :: value) behind (before ++ taken) where
  means := hm
  rest_eq := by rw [h.rest_eq, List.append_assoc]
  stops := h.stops
  outcome := h.outcome.push before c
  width_eq := by rw [h.width_eq, List.length_append, Nat.add_comm]

theorem exists_readsBy (hb : quote ≠ '\\') (rest : List Char) :
    ∃ text value behind taken, ReadsBy quote rest (read quote rest) text value behind taken := by
  induction rest using Quoted.induction quote with
  | finished => exact ⟨_, _, _, _, .atOnce stops_nil .finished rfl⟩
  | closing rest =>
    rw [read_quote]
    exact ⟨_, _, _, _, .atOnce (stops_cons (.inl rfl) hb) (.closed rest) rfl⟩
  | newline rest hq =>
    rw [read_newline hq]
    exact ⟨_, _, _, _, .atOnce (stops_cons (.inr rfl) (by decide)) (.line rest) rfl⟩
  | backslash hq =>
    have hs : Stops quote ['\\'] := stops_backslash (by
      rintro _ ⟨⟩)
    rw [read_backslash hq]
    exact ⟨_, _, _, _, .atOnce hs .loneBackslash rfl⟩
  | badEscape e rest hq he =>
    have hs : Stops quote ('\\' :: e :: rest) := stops_backslash (by
      rintro _ ⟨⟩
      exact he)
    rw [read_badEscape hq he]
    exact ⟨_, _, _, _, .atOnce hs (.badEscape e rest) rfl⟩
  | pair e c rest hq he ih =>
    obtain ⟨text, value, behind, taken, h⟩ := ih
    have hm : Means quote (['\\', e] ++ text) (c :: value) :=
      .escape (escaped?_eq_some_iff.1 he) h.means
    rw [read_pair hq he]
    exact ⟨_, _, _, _, h.push hm⟩
  | plain c rest hq hn hc ih =>
    obtain ⟨text, value, behind, taken, h⟩ := ih
    have hm : Means quote ([c] ++ text) (c :: value) := .plain hq hc hn h.means
    rw [read_cons hq hn hc]
    exact ⟨_, _, _, _, h.push hm⟩

theorem Outcome.taken_prefix {body : Body} {taken : List Char}
    (h : Outcome quote text value behind body taken) : taken <+: text ++ behind := by
  cases h with
  | closed behind => exact ⟨behind, by simp⟩
  | line behind => exact List.prefix_append _ _
  | badEscape c behind => exact ⟨behind, by simp⟩
  | loneBackslash => exact ⟨[], by simp⟩
  | finished => exact ⟨[], rfl⟩

end Quoted

open Quoted in
/-- **What stands between quotes.** A text behind an opening quote has one body, and what stands behind
the body decides what is read and which part of the text is taken. The bytes of this part are the ones
that are counted, so that they end where a character does. -/
theorem quotedDecode_body {quote : Char} (hquote : quote = singleQuote ∨ quote = doubleQuote)
    (rest : List Char) :
    (∃ text value, IsBody quote rest text value) ∧
      ∀ text value, IsBody quote rest text value → ∃ behind taken,
        rest = text ++ behind ∧ Outcome quote text value behind (decode quote rest).2 taken ∧
          taken <+: rest ∧ (decode quote rest).1 = byteSize taken ∧
          IsBoundary rest (decode quote rest).1 := by
  have hb : quote ≠ '\\' := by
    rcases hquote with rfl | rfl <;> decide
  have hone : quote.utf8Size = 1 := by
    rcases hquote with rfl | rfl <;> rfl
  obtain ⟨text, value, behind, taken, h⟩ := exists_readsBy hb rest
  have hbody : IsBody quote rest text value := by
    rw [h.rest_eq]
    exact .of_stops h.means h.stops
  refine ⟨⟨text, value, hbody⟩, fun text' value' hbody' => ?_⟩
  obtain ⟨rfl, rfl⟩ := hbody.unique hbody'
  have hprefix : taken <+: rest := by
    rw [h.rest_eq]
    exact h.outcome.taken_prefix
  obtain ⟨more, hmore⟩ := hprefix
  have htaken : rest.take (read quote rest).2 = taken := by
    rw [h.width_eq, ← hmore, List.take_left]
  rw [decode_eq hone, htaken]
  exact ⟨behind, taken, h.rest_eq, h.outcome, ⟨more, hmore⟩, rfl, taken, more, hmore.symm, rfl⟩

open Quoted in
/-- A character of two bytes and an escape, and behind them a backslash that begins no escape. -/
theorem quotedDecode_body_badEscape :
    let rest := ['é', '\\', 'n', '\\', 'q', singleQuote]
    (singleQuote = singleQuote ∨ singleQuote = doubleQuote) ∧
      IsBody singleQuote rest ['é', '\\', 'n'] ['é', '\n'] ∧
      decode singleQuote rest = (6, .badEscape ['\\', 'q']) ∧
      ∃ behind taken, rest = ['é', '\\', 'n'] ++ behind ∧
        Outcome singleQuote ['é', '\\', 'n'] ['é', '\n'] behind (decode singleQuote rest).2 taken ∧
        taken <+: rest ∧ (decode singleQuote rest).1 = byteSize taken ∧
        IsBoundary rest (decode singleQuote rest).1 := by
  intro rest
  have hquote : singleQuote = singleQuote ∨ singleQuote = doubleQuote := .inl rfl
  have hmeans : Means singleQuote ['é', '\\', 'n'] ['é', '\n'] :=
    .plain (by decide) (by decide) (by decide) (.escape .newline .nil)
  have hbody : IsBody singleQuote rest ['é', '\\', 'n'] ['é', '\n'] :=
    .of_stops hmeans (stops_backslash (by
      rintro _ ⟨⟩
      rfl))
  exact ⟨hquote, hbody, by decide, (quotedDecode_body hquote rest).2 _ _ hbody⟩

end InfluxQL
