import InfluxQL.Proofs.Token.Lookahead
import InfluxQL.Proofs.Token.RegexBody

/-!
# What stands between slashes

Behind a slash, where a regular expression is wanted, stand plain characters and pairs of a backslash
and another character, as many as there are; these are the body of the regular expression. The body
stands for a pattern, and what follows it decides how the text is read.

* `RegexBody.Means`: a text of plain characters and pairs, and the pattern that it stands for;
* `RegexBody.IsBody`: the longest such text at the front of another;
* `RegexBody.Outcome`: what a text is read as for what stands behind its body;
* `RegexBody.read_append`: the reader goes through the body pair by pair;
* `scanRegex_body`: the statement that reading follows these rules, and that the pattern of a regular
  expression is read again from its text.
-/

namespace InfluxQL

namespace RegexBody

/-! ### The rules -/

/-- The text is made of plain characters and of pairs of a backslash and another character, and stands
for the pattern: a backslash and a slash for the slash, all else for itself. -/
inductive Means : (text pattern : List Char) → Prop
  | nil : Means [] []
  | plain {c : Char} {text pattern : List Char} : c ≠ '/' → c ≠ '\\' →
      Means text pattern → Means (c :: text) (c :: pattern)
  | slash {text pattern : List Char} :
      Means text pattern → Means ('\\' :: '/' :: text) ('/' :: pattern)
  | pair {c : Char} {text pattern : List Char} : c ≠ '/' →
      Means text pattern → Means ('\\' :: c :: text) ('\\' :: c :: pattern)

/-- The text is the longest one of plain characters and pairs at the front of another, and stands for
the pattern. -/
structure IsBody (rest text pattern : List Char) : Prop where
  means : Means text pattern
  isPrefix : text <+: rest
  longest : ∀ other meaning, Means other meaning → other <+: rest → other.length ≤ text.length

/-- The kind and the text of the token that is read of a text with the given body, and what of the text
is left behind the token. -/
inductive Outcome (text pattern : List Char) :
    (rest : List Char) → (kind : TokenKind) → (lit left : List Char) → Prop
  | closed (left : List Char) : Outcome text pattern (text ++ '/' :: left) .regex pattern left
  | unterminated : Outcome text pattern text .badRegex pattern []
  | loneBackslash : Outcome text pattern (text ++ ['\\']) .badEscape ['\\'] []

/-! ### There is one body -/

variable {rest text text' pattern pattern' behind : List Char}

/-- A text stands for one pattern. -/
theorem Means.unique (h : Means text pattern) (h' : Means text pattern') : pattern = pattern' := by
  induction h generalizing pattern' with
  | nil =>
    cases h'
    rfl
  | plain _ hb _ ih =>
    cases h' with
    | plain _ _ h' => rw [ih h']
    | slash | pair => exact absurd rfl hb
  | slash _ ih =>
    cases h' with
    | plain _ hb => exact absurd rfl hb
    | slash h' => rw [ih h']
    | pair hs => exact absurd rfl hs
  | pair hs _ ih =>
    cases h' with
    | plain _ hb => exact absurd rfl hb
    | slash => exact absurd rfl hs
    | pair _ h' => rw [ih h']

/-- There is one body. -/
theorem IsBody.unique (h : IsBody rest text pattern) (h' : IsBody rest text' pattern') :
    text = text' ∧ pattern = pattern' := by
  have hle : text.length ≤ text'.length := h'.longest _ _ h.means h.isPrefix
  have hge : text'.length ≤ text.length := h.longest _ _ h'.means h'.isPrefix
  obtain rfl : text = text' :=
    (List.prefix_of_prefix_length_le h.isPrefix h'.isPrefix hle).eq_of_length_le hge
  exact ⟨rfl, h.means.unique h'.means⟩

/-- A body does not go on with what stands behind it: a slash, the end of the text, or a backslash that
has nothing to escape. -/
inductive Halts : (behind : List Char) → Prop
  | slash (left : List Char) : Halts ('/' :: left)
  | finished : Halts []
  | loneBackslash : Halts ['\\']

theorem Halts.eq_nil (h : Halts behind) (hm : Means text pattern) (hp : text <+: behind) :
    text = [] := by
  cases hm with
  | nil => rfl
  | plain hs hb =>
    cases h with
    | slash => exact absurd (List.cons_prefix_cons.1 hp).1 hs
    | finished => cases List.prefix_nil.1 hp
    | loneBackslash => exact absurd (List.cons_prefix_cons.1 hp).1 hb
  | slash | pair =>
    cases h with
    | slash => cases (List.cons_prefix_cons.1 hp).1
    | finished => cases List.prefix_nil.1 hp
    | loneBackslash => cases List.prefix_nil.1 (List.cons_prefix_cons.1 hp).2

/-- A text of plain characters and pairs that does not go on is the body. -/
theorem IsBody.of_halts (h : Means text pattern) (hh : Halts behind) :
    IsBody (text ++ behind) text pattern where
  means := h
  isPrefix := List.prefix_append _ _
  longest := by
    -- By induction on the body: another text begins as it does, and halts where it halts.
    induction h with
    | nil =>
      intro other meaning ho hp
      rw [hh.eq_nil ho hp]
    | plain _ hb _ ih =>
      intro other meaning ho hp
      cases ho with
      | nil => exact Nat.zero_le _
      | plain _ _ ho => exact Nat.succ_le_succ (ih _ _ ho (List.cons_prefix_cons.1 hp).2)
      | slash | pair => exact absurd (List.cons_prefix_cons.1 hp).1.symm hb
    | slash _ ih | pair _ _ ih =>
      intro other meaning ho hp
      cases ho with
      | nil => exact Nat.zero_le _
      | plain _ hb => exact absurd (List.cons_prefix_cons.1 hp).1 hb
      | slash ho | pair _ ho =>
        have hp := (List.cons_prefix_cons.1 (List.cons_prefix_cons.1 hp).2).2
        exact Nat.add_le_add_right (ih _ _ ho hp) 2

/-- Every text is cut in two behind its body. -/
theorem exists_means (rest : List Char) :
    ∃ text pattern behind, rest = text ++ behind ∧ Means text pattern ∧ Halts behind := by
  induction rest using RegexBody.induction with
  | finished => exact ⟨[], [], _, rfl, .nil, .finished⟩
  | slash left => exact ⟨[], [], _, rfl, .nil, .slash left⟩
  | loneBackslash => exact ⟨[], [], _, rfl, .nil, .loneBackslash⟩
  | pair c rest ih =>
    obtain ⟨text, pattern, behind, rfl, hm, hh⟩ := ih
    by_cases hs : c = '/'
    · subst hs
      exact ⟨_, _, behind, rfl, .slash hm, hh⟩
    · exact ⟨_, _, behind, rfl, .pair hs hm, hh⟩
  | plain c rest hs hb ih =>
    obtain ⟨text, pattern, behind, rfl, hm, hh⟩ := ih
    exact ⟨_, _, behind, rfl, .plain hs hb hm, hh⟩

theorem Halts.exists_outcome (h : Halts behind) (text pattern : List Char) :
    ∃ kind lit left, Outcome text pattern (text ++ behind) kind lit left := by
  cases h with
  | slash left => exact ⟨_, _, _, .closed left⟩
  | finished =>
    rw [List.append_nil]
    exact ⟨_, _, _, .unterminated⟩
  | loneBackslash => exact ⟨_, _, _, .loneBackslash⟩

/-! ### Reading -/

/-- The reader takes a text of plain characters and pairs for what it stands for, and goes on behind it.
-/
theorem read_append (h : Means text pattern) (behind : List Char) :
    read (text ++ behind) = ((read behind).1.push pattern, (read behind).2 + text.length) := by
  induction h with
  | nil =>
    rw [push_nil]
    rfl
  | plain hs hb _ ih =>
    rw [List.cons_append, read_cons hs hb, ih, push_push]
    rfl
  | slash _ ih =>
    rw [List.cons_append, List.cons_append, read_pair, ih, push_push, if_pos rfl]
    rfl
  | pair hs _ ih =>
    rw [List.cons_append, List.cons_append, read_pair, ih, push_push, if_neg hs]
    rfl

end RegexBody

open RegexBody

/-- The lexeme of a text with the given body, and what is left behind the lexeme. -/
theorem Lexeme.regex_of_outcome {rest text pattern lit left : List Char} {kind : TokenKind}
    (hm : Means text pattern) (ho : Outcome text pattern rest kind lit left) :
    ∃ width, regex rest = ⟨kind, lit, width⟩ ∧ ('/' :: rest).drop width = left := by
  cases ho with
  | closed left =>
    have hr : RegexBody.read (text ++ '/' :: left) = (closed pattern, text.length + 1) := by
      rw [read_append hm, Nat.add_comm]
      simp [RegexBody.read, push]
    exact ⟨_, by rw [regex, hr], by simp⟩
  | unterminated =>
    have hr : RegexBody.read rest = (unterminated pattern, rest.length) := by
      rw [← rest.append_nil, read_append hm]
      simp [RegexBody.read, push]
    exact ⟨_, by rw [regex, hr], by simp⟩
  | loneBackslash =>
    have hr : RegexBody.read (text ++ ['\\']) = (loneBackslash, text.length + 1) := by
      rw [read_append hm, Nat.add_comm]
      simp [RegexBody.read, push]
    exact ⟨_, by rw [regex, hr], by simp⟩

namespace Scanner

variable {s : Scanner}

theorem scanRegex_of_slash {rest : List Char} (h : s.cursor.ahead = '/' :: rest) :
    s.scanRegex = s.take (Lexeme.regex rest) := by
  rw [scanRegex_eq, h]
  rfl

/-- The pattern of a regular expression that is read can be written between slashes. -/
theorem writable_of_scanRegex (h : s.scanRegex.1.kind = .regex) :
    Writable s.scanRegex.1.lit.toList := by
  rw [scanRegex_eq] at *
  split at h
  · simpa [take] using Lexeme.writable_of_regex h
  · exact absurd h s.kind_scan_ne_regex

/-- The text of a regular expression is read wherever it stands, up to its closing slash. -/
theorem scanRegex_of_text {pattern : String} {more : List Char} (hw : Writable pattern.toList)
    (h : s.cursor.ahead = (Expr.atom (.regex pattern)).text.toList ++ more) :
    s.scanRegex.1 = ⟨.regex, pattern, s.cursor.pos,
      ⟨s.offset, s.offset + byteSize (Expr.atom (.regex pattern)).text.toList⟩⟩ := by
  have htext : (Expr.atom (.regex pattern)).text.toList =
      '/' :: (escape pattern.toList ++ ['/']) := String.toList_ofList
  rw [htext] at h ⊢
  have ha : s.cursor.ahead = '/' :: (escape pattern.toList ++ '/' :: more) := by
    rw [h]
    simp
  rw [scanRegex_of_slash ha, Lexeme.regex_escape hw, take, Cursor.offset_advance, h,
    String.ofList_toList, List.take_left' (by simp)]
  rfl

end Scanner

/-- **What stands between slashes.** A text behind a slash has one body. Where a regular expression is
wanted, what stands behind the body decides what is read and how far: up to the slash that closes it,
or to the end of the source. In the pattern of a regular expression that was read, no slash stands
behind an odd number of backslashes, and wherever the text of that regular expression stands, the same
pattern is read from it, up to its end. -/
theorem scanRegex_body (s : Scanner) :
    (∀ rest, s.cursor.ahead = '/' :: rest →
      (∃ text pattern, IsBody rest text pattern) ∧
      ∀ text pattern, IsBody rest text pattern → ∃ kind lit left,
        Outcome text pattern rest kind lit left ∧
        s.scanRegex.1 =
          ⟨kind, String.ofList lit, s.cursor.pos, ⟨s.offset, s.scanRegex.2.offset⟩⟩ ∧
        s.scanRegex.2.source = s.source ∧
        s.scanRegex.2.offset + byteSize left = byteSize s.source) ∧
    ∀ token, token = s.scan.1 ∨ token = s.scanRegex.1 → token.kind = .regex →
      let text := (Expr.atom (.regex token.lit)).text.toList
      SlashesClear token.lit.toList ∧
      ∀ (again : Scanner) (more : List Char), again.cursor.ahead = text ++ more →
        again.scanRegex.1 = ⟨.regex, token.lit, again.cursor.pos,
          ⟨again.offset, again.offset + byteSize text⟩⟩ := by
  constructor
  · intro rest ha
    obtain ⟨text, pattern, behind, rfl, hm, hh⟩ := exists_means rest
    have hbody := IsBody.of_halts hm hh
    refine ⟨⟨text, pattern, hbody⟩, fun text' pattern' hbody' => ?_⟩
    obtain ⟨rfl, rfl⟩ := hbody.unique hbody'
    obtain ⟨kind, lit, left, ho⟩ := hh.exists_outcome text pattern
    obtain ⟨width, hl, hleft⟩ := Lexeme.regex_of_outcome hm ho
    have hs := Scanner.scanRegex_of_slash ha
    have hsource : s.scanRegex.2.source = s.source := by
      rw [hs]
      exact Cursor.source_advance _ _
    have hahead : s.scanRegex.2.cursor.ahead = left := by
      rw [hs, hl, ← hleft, ← ha]
      rfl
    refine ⟨kind, lit, left, ho, ?_, hsource, ?_⟩
    · rw [hs, hl]
      rfl
    · rw [← hsource, ← hahead]
      exact Cursor.offset_add_byteSize_ahead _
  · intro token ht hk
    have hw : Writable token.lit.toList := by
      rcases ht with rfl | rfl
      · exact absurd hk s.kind_scan_ne_regex
      · exact Scanner.writable_of_scanRegex hk
    exact ⟨hw.slashes, fun again more h => Scanner.scanRegex_of_text hw h⟩

/-- Behind a character of two bytes, a pair of backslashes before an escaped slash. -/
theorem scanRegex_body_backslashes :
    let rest := ['\\', '\\', '\\', '/', 'ß', '/', 'x']
    let text := ['\\', '\\', '\\', '/', 'ß']
    let pattern := ['\\', '\\', '/', 'ß']
    let s : Scanner := ⟨.between ['é'] ('/' :: rest), none⟩
    s.cursor.ahead = '/' :: rest ∧ IsBody rest text pattern ∧
      (∃ kind lit left, Outcome text pattern rest kind lit left ∧
        s.scanRegex.1 =
          ⟨kind, String.ofList lit, s.cursor.pos, ⟨s.offset, s.scanRegex.2.offset⟩⟩ ∧
        s.scanRegex.2.source = s.source ∧
        s.scanRegex.2.offset + byteSize left = byteSize s.source) ∧
      s.scanRegex.1 = ⟨.regex, "\\\\/ß", ⟨0, 1⟩, ⟨2, 10⟩⟩ ∧
      SlashesClear s.scanRegex.1.lit.toList ∧
      ∀ more, (Scanner.start ('/' :: (text ++ '/' :: more))).scanRegex.1 =
        ⟨.regex, "\\\\/ß", ⟨0, 0⟩, ⟨0, 8⟩⟩ := by
  intro rest text pattern s
  have ha : s.cursor.ahead = '/' :: rest := rfl
  have hmeans : Means text pattern :=
    .pair (by decide) (.slash (.plain (by decide) (by decide) .nil))
  have hbody : IsBody rest text pattern := .of_halts hmeans (.slash ['x'])
  have htoken : s.scanRegex.1 = ⟨.regex, "\\\\/ß", ⟨0, 1⟩, ⟨2, 10⟩⟩ := by decide
  obtain ⟨hreads, hagain⟩ := scanRegex_body s
  obtain ⟨hclear, hagain⟩ := hagain _ (.inr rfl) (by rw [htoken])
  refine ⟨ha, hbody, (hreads rest ha).2 text pattern hbody, htoken, hclear, fun more => ?_⟩
  rw [htoken] at hagain
  have hstart := hagain (.start _) more rfl
  rw [Scanner.start, Cursor.pos_start] at hstart
  exact hstart

end InfluxQL
