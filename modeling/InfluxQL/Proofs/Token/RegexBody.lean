import InfluxQL.Pattern
import InfluxQL.Proofs.Token.Scanning
import InfluxQL.Syntax.Render

/-!
# Patterns that can be written between slashes

A backslash in a regular expression keeps the character after it, and only a slash can be escaped.
So a pattern can be written just when no slash in it, nor its end, stands behind an odd number of
backslashes.

* `RegexBody.Writable`: these patterns;
* `RegexBody.read_escape`: they are read back as they are written;
* `RegexBody.writable_of_read`: no other pattern is ever read;
* `Scanner.scanRegex_text_iff`: so exactly these are read back from their texts.
-/

namespace InfluxQL

namespace RegexBody

/-- Is there an odd number of backslashes at the end of the text? -/
def endsEscaping (text : List Char) : Bool :=
  (text.reverse.takeWhile (· == '\\')).length % 2 == 1

@[simp] theorem endsEscaping_nil : endsEscaping [] = false := rfl

theorem endsEscaping_append_singleton (text : List Char) (c : Char) :
    endsEscaping (text ++ [c]) = (c == '\\' && !endsEscaping text) := by
  rw [endsEscaping, List.reverse_append, List.reverse_singleton, List.singleton_append,
    List.takeWhile_cons]
  by_cases hc : c = '\\'
  · simp only [hc, BEq.rfl, if_true, List.length_cons, endsEscaping, Bool.true_and]
    rcases Nat.mod_two_eq_zero_or_one (text.reverse.takeWhile (· == '\\')).length with h | h <;>
      simp [Nat.add_mod, h]
  · simp [hc]

/-- No slash in the pattern stands behind an odd number of backslashes. -/
def SlashesClear (pattern : List Char) : Prop :=
  ∀ s t, pattern = s ++ '/' :: t → endsEscaping s = false

/-- The pattern can be written between slashes. -/
structure Writable (pattern : List Char) : Prop where
  slashes : SlashesClear pattern
  stop : endsEscaping pattern = false

/-- Like `Writable`, for what stands behind a character that is a backslash if `escaped`, and is
not itself escaped. -/
def WritableFrom (escaped : Bool) : List Char → Prop
  | [] => escaped = false
  | c :: rest => (c = '/' → escaped = false) ∧ WritableFrom (c == '\\' && !escaped) rest

theorem writableFrom_iff (before pattern : List Char) :
    WritableFrom (endsEscaping before) pattern ↔
      (∀ s t, pattern = s ++ '/' :: t → endsEscaping (before ++ s) = false) ∧
        endsEscaping (before ++ pattern) = false := by
  induction pattern generalizing before with
  | nil => simp [WritableFrom]
  | cons c rest ih =>
    rw [WritableFrom, ← endsEscaping_append_singleton, ih]
    constructor
    · rintro ⟨hc, hs, he⟩
      refine ⟨fun s t h => ?_, by simpa using he⟩
      cases s with
      | nil =>
        cases h
        simpa using hc rfl
      | cons d s =>
        cases h
        simpa using hs s t rfl
    · rintro ⟨hs, he⟩
      refine ⟨fun hc => ?_, fun s t h => ?_, by simpa using he⟩
      · simpa using hs [] rest (by rw [hc]; rfl)
      · simpa using hs (c :: s) t (by rw [h]; rfl)

theorem writable_iff {pattern : List Char} : Writable pattern ↔ WritableFrom false pattern := by
  have h := writableFrom_iff [] pattern
  simp only [endsEscaping_nil, List.nil_append] at h
  rw [h]
  exact ⟨fun h => ⟨h.slashes, h.stop⟩, fun h => ⟨h.1, h.2⟩⟩

/-! ### Reading -/

theorem escape_cons (c : Char) (pattern : List Char) :
    escape (c :: pattern) = (if c = '/' then ['\\', '/'] else [c]) ++ escape pattern := rfl

theorem read_escape_of_writableFrom : ∀ {pattern : List Char}, WritableFrom false pattern →
    ∀ rest, read (escape pattern ++ '/' :: rest) = (closed pattern, (escape pattern).length + 1)
  | [], _, rest => rfl
  | c :: pattern, h, rest => by
    by_cases hs : c = '/'
    · subst hs
      have hp : WritableFrom false pattern := h.2
      have ih := read_escape_of_writableFrom hp rest
      simp [escape_cons, read_pair, ih, push]
    · by_cases hb : c = '\\'
      · subst hb
        cases pattern with
        | nil => exact absurd h.2 (by simp [WritableFrom])
        | cons d pattern =>
          obtain ⟨-, hd, hp⟩ := h
          have hd : d ≠ '/' := fun e => by simpa using hd e
          have hp : WritableFrom false pattern := by simpa using hp
          have ih := read_escape_of_writableFrom hp rest
          simp [escape_cons, hd, read_pair, ih, push]
      · have hp : WritableFrom false pattern := by
          have := h.2
          rwa [beq_false_of_ne hb, Bool.false_and] at this
        have ih := read_escape_of_writableFrom hp rest
        simp [escape_cons, hs, read_cons hs hb, ih, push]

/-- **A pattern that can be written is read back as it is written.** -/
theorem read_escape {pattern : List Char} (h : Writable pattern) (rest : List Char) :
    read (escape pattern ++ '/' :: rest) = (closed pattern, (escape pattern).length + 1) :=
  read_escape_of_writableFrom (writable_iff.1 h) rest

/-- **Only patterns that can be written are ever read.** -/
theorem writable_of_read {text pattern : List Char} (h : (read text).1 = closed pattern) :
    Writable pattern := by
  rw [writable_iff]
  induction text using RegexBody.induction generalizing pattern with
  | finished => cases h
  | slash =>
    cases h
    rfl
  | loneBackslash => cases h
  | pair c rest ih =>
    rw [read_pair, push_eq_closed_iff] at h
    obtain ⟨p, hr, rfl⟩ := h
    have hp := ih hr
    by_cases hc : c = '/' <;> simp [hc, WritableFrom, hp]
  | plain c rest hs hb ih =>
    rw [read_cons hs hb, push_eq_closed_iff] at h
    obtain ⟨p, hr, rfl⟩ := h
    have hp := ih hr
    rw [List.singleton_append, WritableFrom, beq_false_of_ne hb, Bool.false_and]
    exact ⟨fun _ => rfl, hp⟩

end RegexBody

/-- A pattern that can be written is one lexeme, up to its closing slash. -/
theorem Lexeme.regex_escape {pattern : List Char} (h : RegexBody.Writable pattern)
    (rest : List Char) : regex (RegexBody.escape pattern ++ '/' :: rest) =
      ⟨.regex, pattern, (RegexBody.escape pattern).length + 2⟩ := by
  simp [regex, RegexBody.read_escape h]

theorem Lexeme.writable_of_regex {text : List Char} (h : (regex text).kind = .regex) :
    RegexBody.Writable (regex text).lit := by
  unfold regex at *
  split at h
  · next hr => exact RegexBody.writable_of_read (congrArg Prod.fst hr)
  · cases h
  · cases h

namespace Scanner

/-- The token of a text that starts with a slash, where a regular expression is wanted. -/
theorem scanRegex_slash (rest : List Char) : (start ('/' :: rest)).scanRegex.1 =
    ⟨(Lexeme.regex rest).kind, String.ofList (Lexeme.regex rest).lit, ⟨0, 0⟩,
      ⟨0, byteSize (('/' :: rest).take (Lexeme.regex rest).width)⟩⟩ := by
  have hscan : (start ('/' :: rest)).scanRegex = (start ('/' :: rest)).take (Lexeme.regex rest) :=
    scanRegex_eq _
  rw [hscan, take, Cursor.offset_advance, start, Cursor.pos_start]
  simp [Cursor.start]

/-- **Which regular expressions are read back from their texts.** For every pattern, accepted or not,
the text of the regular expression is read as one token that holds the pattern, up to its end, just
when the pattern can be written between slashes. -/
theorem scanRegex_text_iff (pattern : String) :
    let text := (Expr.atom (.regex pattern)).text.toList
    (start text).scanRegex.1 = ⟨.regex, pattern, ⟨0, 0⟩, ⟨0, byteSize text⟩⟩ ↔
      RegexBody.Writable pattern.toList := by
  intro text
  have htext : text = '/' :: (RegexBody.escape pattern.toList ++ ['/']) := String.toList_ofList
  rw [htext, scanRegex_slash]
  constructor
  · intro h
    have hkind := congrArg Token.kind h
    have hlit := congrArg (String.toList ∘ Token.lit) h
    simp only [Function.comp_apply, String.toList_ofList] at hlit
    rw [← hlit]
    exact Lexeme.writable_of_regex hkind
  · intro h
    have hregex := Lexeme.regex_escape h []
    rw [hregex, String.ofList_toList, List.take_of_length_le (by simp)]

/-- An accepted pattern, whose slash is escaped once more when it is written. -/
theorem scanRegex_text_iff_slash :
    let pattern := "\\/"
    let text := (Expr.atom (.regex pattern)).text
    Pattern.accepts pattern ∧ text = "/\\\\//" ∧
      (start text.toList).scanRegex.1 = ⟨.regex, "\\\\", ⟨0, 0⟩, ⟨0, 4⟩⟩ := by
  intro pattern text
  exact ⟨by decide +kernel, by decide, by decide⟩

end Scanner

end InfluxQL
