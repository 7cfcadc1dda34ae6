import InfluxQL.Proofs.Token.Lossless

/-!
# One token can be put back

A stream holds at most one token, which was either put back or can be. Whatever it is asked for, and
however often, nothing of the text is read twice or left out by that.

* `TokenStream.Op`, `TokenStream.after`: what a stream can be asked for; the stream after a run;
* `TokenStream.Sound`: the scanner is right behind the token that the stream holds;
* `TokenStream.Sound.apply`, `TokenStream.sound_after`: a step keeps this, and so does a run;
* `pushback_transparent`: what follows for the stream after every run.
-/

namespace InfluxQL

namespace TokenStream

open Scanner

/-- What a stream can be asked for. -/
inductive Op
  | scan
  | unscan
  | scanSignificant
  | skipBlank
  | peek
  | scanRegex
  deriving DecidableEq, Repr

/-- The stream after it has been asked. -/
def apply (s : TokenStream) : Op → TokenStream
  | .scan => s.scan.2
  | .unscan => s.unscan
  | .scanSignificant => s.scanSignificant.2
  | .skipBlank => s.skipBlank
  | .peek => s
  | .scanRegex => s.scanRegex.2

/-- The stream after a run. -/
def after (s : TokenStream) (ops : List Op) : TokenStream :=
  ops.foldl apply s

/-- The token that was put back, or else the one that can be. -/
def held? (s : TokenStream) : Option Token :=
  s.pending <|> s.prev

/-- The stream reads the text and holds at most one token, and the scanner is where it was when it
answered this token. -/
structure Sound (text : List Char) (s : TokenStream) : Prop where
  source_eq : s.scanner.source = text
  exclusive : s.pending = none ∨ s.prev = none
  answered : ∀ t, s.held? = some t →
    ∃ (c : Scanner) (op : Scanner.Op), c.source = text ∧ c.answer op = (some t, s.scanner)

variable {text : List Char} {s : TokenStream} {t : Token}

/-- The token that a scanner answers covers what the scanner has gone over. -/
theorem covers_of_answer {c d : Scanner} {op : Scanner.Op} (hc : c.source = text)
    (h : c.answer op = (some t, d)) :
    t.span.start = c.offset ∧ t.span.stop = d.offset ∧
      (t.kind = .eof → c.offset = byteSize text) := by
  have hcall : c.call op ∈ c.calls [op] := List.mem_cons_self
  have hcovers := covers_of_mem_calls hc hcall (t := t) (by rw [Option.mem_def, call, h])
  refine ⟨hcovers.start_eq, ?_, fun hk => hcovers.eof_iff.1 hk⟩
  rw [hcovers.stop_eq, call, h]

/-! ### One step -/

theorem sound_start (text : List Char) : Sound text (start text) where
  source_eq := rfl
  exclusive := .inl rfl
  answered := nofun

/-- The stream that holds what a scanner has just answered, put back or not. -/
theorem Sound.of_answer {c d : Scanner} (op : Scanner.Op) (hc : c.source = text)
    (h : c.answer op = (some t, d)) : Sound text ⟨d, none, some t⟩ ∧ Sound text ⟨d, some t, none⟩ := by
  have hd : d.source = text := by
    rw [← hc, ← source_answer c op, h]
  have hanswered : ∀ u, some t = some u →
      ∃ (c : Scanner) (op : Scanner.Op), c.source = text ∧ c.answer op = (some u, d) := by
    rintro _ ⟨⟩
    exact ⟨c, op, hc, h⟩
  exact ⟨⟨hd, .inl rfl, hanswered⟩, ⟨hd, .inr rfl, hanswered⟩⟩

/-- What the next token is an answer to. -/
theorem Sound.exists_answer (h : Sound text s) :
    ∃ (c : Scanner) (op : Scanner.Op), c.source = text ∧ c.offset = s.offset ∧
      c.answer op = (some s.scan.1, s.scan.2.scanner) := by
  obtain ⟨scanner, pending, prev⟩ := s
  cases pending with
  | none => exact ⟨scanner, .scan, h.source_eq, rfl, rfl⟩
  | some t =>
    obtain ⟨c, op, hc, ha⟩ := h.answered t rfl
    exact ⟨c, op, hc, (covers_of_answer hc ha).1.symm, ha⟩

theorem Sound.scan (h : Sound text s) : Sound text s.scan.2 := by
  obtain ⟨c, op, hc, -, ha⟩ := h.exists_answer
  rw [scan_snd]
  exact (Sound.of_answer op hc ha).1

theorem Sound.unscan (h : Sound text s) : Sound text s.unscan := by
  obtain ⟨scanner, pending, prev⟩ := s
  cases prev with
  | none => exact h
  | some t =>
    have hpending : pending = none := h.exclusive.resolve_right nofun
    subst hpending
    obtain ⟨c, op, hc, ha⟩ := h.answered t rfl
    exact (Sound.of_answer op hc ha).2

theorem Sound.scanSignificant (h : Sound text s) : Sound text s.scanSignificant.2 := by
  unfold TokenStream.scanSignificant
  dsimp only
  split
  · exact h.scan.scan
  · exact h.scan

theorem Sound.skipBlank (h : Sound text s) : Sound text s.skipBlank := by
  unfold TokenStream.skipBlank
  dsimp only
  split
  · exact h.scan
  · exact h.scan.unscan

theorem Sound.scanRegex (h : Sound text s) : Sound text s.scanRegex.2 := by
  obtain ⟨scanner, pending, prev⟩ := s
  cases pending with
  | none => exact (Sound.of_answer .scanRegex h.source_eq rfl).1
  | some t =>
    have hrewind : (scanner.rewind t.span.start).source = text :=
      (Cursor.source_seek _ _).trans h.source_eq
    exact (Sound.of_answer .scanRegex hrewind rfl).1

/-- Whatever the stream is asked for, it stays sound. -/
theorem Sound.apply (h : Sound text s) (op : Op) : Sound text (s.apply op) := by
  cases op with
  | scan => exact h.scan
  | unscan => exact h.unscan
  | scanSignificant => exact h.scanSignificant
  | skipBlank => exact h.skipBlank
  | peek => exact h
  | scanRegex => exact h.scanRegex

/-- A run keeps a stream sound. -/
theorem Sound.after (h : Sound text s) (ops : List Op) : Sound text (s.after ops) := by
  induction ops generalizing s with
  | nil => exact h
  | cons op ops ih => exact ih (h.apply op)

/-! ### What a sound stream answers -/

/-- The token that the stream holds ends where the scanner is. -/
theorem Sound.stop_eq (h : Sound text s) (ht : s.held? = some t) :
    t.span.stop = s.scanner.offset := by
  obtain ⟨c, op, hc, ha⟩ := h.answered t ht
  exact (covers_of_answer hc ha).2.1

/-- The next character is the one at the place where the next token starts. -/
theorem Sound.exists_peek? (h : Sound text s) :
    ∃ before behind, text = before ++ behind ∧ byteSize before = s.offset ∧
      s.peek? = behind.head? := by
  have hcut : ∀ {c : Scanner}, c.source = text → c.offset = s.offset →
      s.peek? = c.cursor.peek? → ∃ before behind, text = before ++ behind ∧
        byteSize before = s.offset ∧ s.peek? = behind.head? := by
    intro c hc hoffset hpeek
    refine ⟨c.cursor.behind.reverse, c.cursor.ahead, hc.symm, ?_, hpeek⟩
    rw [Cursor.byteSize_reverse_behind, ← hoffset, Scanner.offset]
  obtain ⟨scanner, pending, prev⟩ := s
  cases pending with
  | none => exact hcut h.source_eq rfl rfl
  | some t =>
    obtain ⟨c, op, hc, ha⟩ := h.answered t rfl
    obtain ⟨hstart, -, heof⟩ := covers_of_answer hc ha
    refine hcut hc hstart.symm ?_
    unfold TokenStream.peek?
    dsimp only
    split
    · -- The end of the text was put back.
      next hk =>
      have hend := (offset_eq_byteSize_iff hc).1 (heof hk)
      rw [Cursor.peek?, hend, List.head?_nil]
    · have hsame : scanner.cursor.source = c.cursor.source := h.source_eq.trans hc.symm
      rw [hstart, Scanner.offset, Cursor.seek_offset hsame]

theorem Sound.peek?_eq_none_iff (h : Sound text s) :
    s.peek? = none ↔ s.offset = byteSize text := by
  obtain ⟨before, behind, rfl, hb, hp⟩ := h.exists_peek?
  rw [hp, ← hb, byteSize_append, List.head?_eq_none_iff]
  constructor
  · rintro rfl
    rfl
  · intro he
    refine Decidable.byContradiction fun hne => ?_
    have := byteSize_pos hne
    omega

theorem Sound.peek?_eq_some_iff (h : Sound text s) {c : Char} : s.peek? = some c ↔
    ∃ before behind, text = before ++ c :: behind ∧ byteSize before = s.offset := by
  obtain ⟨before, behind, ht, hb, hp⟩ := h.exists_peek?
  rw [hp, List.head?_eq_some_iff]
  constructor
  · rintro ⟨rest, rfl⟩
    exact ⟨before, rest, ht, hb⟩
  · rintro ⟨before', rest, ht', hb'⟩
    exact ⟨rest, (append_inj_of_byteSize (ht.symm.trans ht') (hb.trans hb'.symm)).2⟩

theorem Sound.start_scan (h : Sound text s) : s.scan.1.span.start = s.offset := by
  obtain ⟨c, op, hc, hoffset, ha⟩ := h.exists_answer
  exact (covers_of_answer hc ha).1.trans hoffset

/-- A token that is put back is read again, and nothing has changed. -/
theorem scan_unscan_scan (s : TokenStream) : s.scan.2.unscan.scan = s.scan := by
  obtain ⟨scanner, pending, prev⟩ := s
  cases pending <;> rfl

theorem unscan_unscan (s : TokenStream) : s.unscan.unscan = s.unscan := by
  obtain ⟨scanner, pending, prev⟩ := s
  cases prev <;> rfl

/-- Of two tokens in a row one is no blank. -/
theorem Sound.kind_scanSignificant (h : Sound text s) : s.scanSignificant.1.kind ≠ .blank := by
  obtain ⟨c, op, hc, -, ha⟩ := h.exists_answer
  unfold TokenStream.scanSignificant
  dsimp only
  split
  · next hk =>
    have hnext : s.scan.2.scan.1 = s.scan.2.scanner.scan.1 := by
      rw [scan_snd]
      rfl
    rw [hnext]
    have hthen : ((c.answer op).2.answer .scan).1 = some s.scan.2.scanner.scan.1 := by
      rw [ha]
      rfl
    exact answer_ne_blank (congrArg Prod.fst ha) hk hthen
  · next hk => exact hk

end TokenStream

open TokenStream in
/-- **Putting a token back is transparent.** After every run a stream holds at most one token, behind
which its scanner is; it looks at, and reads on from, the place where the token starts that was put
back, or else where the scanner is; a token that is put back is read again and leaves the stream as
before; putting back a second time does nothing; and a blank is never significant. -/
theorem pushback_transparent (source : String) (ops : List TokenStream.Op) :
    let s := (TokenStream.start source.toList).after ops
    (s.pending = none ∨ s.prev = none) ∧
      (∀ t, s.held? = some t → t.span.stop = s.scanner.offset) ∧
      (s.peek? = none ↔ s.offset = byteSize source.toList) ∧
      (∀ c, s.peek? = some c ↔
        ∃ before behind, source.toList = before ++ c :: behind ∧ byteSize before = s.offset) ∧
      s.scan.1.span.start = s.offset ∧ s.scan.2.unscan.scan = s.scan ∧
      s.unscan.unscan = s.unscan ∧ s.scanSignificant.1.kind ≠ .blank := by
  intro s
  have h : Sound source.toList s := (sound_start source.toList).after ops
  exact ⟨h.exclusive, fun _ ht => h.stop_eq ht, h.peek?_eq_none_iff, fun _ => h.peek?_eq_some_iff,
    h.start_scan, scan_unscan_scan s, unscan_unscan s, h.kind_scanSignificant⟩

end InfluxQL
