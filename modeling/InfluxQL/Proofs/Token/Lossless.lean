import InfluxQL.Proofs.Token.Extent
import InfluxQL.Proofs.Token.Parameter
import Mathlib.Data.List.Chain

/-!
# Scanning loses nothing

Whatever mix of calls a scanner gets, each token covers the text from where the scanner was to where
it is afterwards, and tells at which line and character it starts.

* `Scanner.Call`, `Scanner.calls`: a call and what it answered; the calls of a run;
* `Scanner.Covers`: what a token tells about the text;
* `Scanner.Orderly`: what the answers are as long as the scanner is not taken back;
* `Scanner.Tiles`: tokens that cover a stretch of the text one after the other;
* `scanner_lossless`: the statement for all runs, and for `tokenize`.
-/

namespace InfluxQL

/-- The byte is where a character of the text starts, or at the end of the text. -/
def IsBoundary (text : List Char) (byte : Nat) : Prop :=
  ∃ before after, text = before ++ after ∧ byteSize before = byte

/-- The bytes of a text tell its parts apart. -/
theorem append_inj_of_byteSize {s t s' t' : List Char} (h : s ++ t = s' ++ t')
    (hb : byteSize s = byteSize s') : s = s' ∧ t = t' := by
  let c := Cursor.between s.reverse t
  let d := Cursor.between s'.reverse t'
  have hc : c.source = d.source := by simpa [c, d, Cursor.source, Cursor.between] using h
  have hoffset : c.offset = d.offset := by simpa [c, d, Cursor.between] using hb
  have hcd : c = d := Cursor.eq_of_offset hc hoffset
  constructor
  · simpa [c, d, Cursor.between] using congrArg Cursor.behind hcd
  · simpa [c, d, Cursor.between] using congrArg Cursor.ahead hcd

theorem byteSize_pos {text : List Char} (h : text ≠ []) : 0 < byteSize text := by
  cases text with
  | nil => exact absurd rfl h
  | cons c text =>
    rw [byteSize_cons]
    exact Nat.add_pos_left c.utf8Size_pos _

/-- A part of a text that takes no more bytes than its front is no longer. -/
theorem le_length_of_byteSize_take_le {front tail : List Char} {n : Nat}
    (hn : n ≤ (front ++ tail).length) (h : byteSize ((front ++ tail).take n) ≤ byteSize front) :
    n ≤ front.length := by
  refine Decidable.byContradiction fun hlt => ?_
  have hmore : tail.take (n - front.length) ≠ [] := by
    rw [Ne, List.take_eq_nil_iff]
    rintro (h0 | rfl)
    · omega
    · simp only [List.append_nil] at hn
      omega
  have hpos := byteSize_pos hmore
  rw [List.take_append, List.take_of_length_le (by omega), byteSize_append] at h
  omega

namespace Scanner

/-! ### Calls -/

/-- What a scanner can be asked for. -/
inductive Op
  | scan
  | scanRegex
  | rewind (bytes : Nat)
  deriving DecidableEq, Repr

/-- A scanner is only taken back to where a character starts. -/
def Op.Within (text : List Char) : Op → Prop
  | rewind bytes => IsBoundary text bytes
  | _ => True

/-- The answer, which is a token unless the scanner is taken back, and the scanner behind it. -/
def answer (s : Scanner) : Op → Option Token × Scanner
  | .scan => (some s.scan.1, s.scan.2)
  | .scanRegex => (some s.scanRegex.1, s.scanRegex.2)
  | .rewind bytes => (none, s.rewind bytes)

/-- A call of a scanner: the scanner before and after, and the token that it answered. -/
structure Call where
  before : Scanner
  op : Op
  token? : Option Token
  after : Scanner

/-- One call of a scanner. -/
def call (s : Scanner) (op : Op) : Call :=
  ⟨s, op, (s.answer op).1, (s.answer op).2⟩

/-- The calls of a run. -/
def calls (s : Scanner) : List Op → List Call
  | [] => []
  | op :: ops => s.call op :: (s.answer op).2.calls ops

/-- What a token tells about the text that it is read from. -/
structure Covers (text : List Char) (s : Scanner) (t : Token) (s' : Scanner) : Prop where
  start_eq : t.span.start = s.offset
  stop_eq : t.span.stop = s'.offset
  start_boundary : IsBoundary text t.span.start
  stop_boundary : IsBoundary text t.span.stop
  nonempty : t.kind ≠ .eof → t.span.start < t.span.stop
  eof_iff : t.kind = .eof ↔ s.offset = byteSize text
  pos_eq : ∀ before after, text = before ++ after → byteSize before = t.span.start →
    t.pos = ⟨before.count '\n', (before.reverse.takeWhile (· != '\n')).length⟩

variable {text : List Char} {s : Scanner}

theorem isBoundary_offset (h : s.source = text) : IsBoundary text s.offset :=
  ⟨s.cursor.behind.reverse, s.cursor.ahead, h.symm, s.cursor.byteSize_reverse_behind⟩

theorem offset_eq_byteSize_iff (h : s.source = text) :
    s.offset = byteSize text ↔ s.cursor.ahead = [] := by
  rw [← h, source, ← Cursor.offset_add_byteSize_ahead, offset]
  constructor
  · intro hb
    refine Decidable.byContradiction fun hne => ?_
    have := byteSize_pos hne
    omega
  · intro ha
    rw [ha, byteSize_nil, Nat.add_zero]

theorem pos_eq_of_offset (h : s.source = text) {before after : List Char}
    (ht : text = before ++ after) (hb : byteSize before = s.offset) :
    s.cursor.pos = ⟨before.count '\n', (before.reverse.takeWhile (· != '\n')).length⟩ := by
  have happ : s.cursor.behind.reverse ++ s.cursor.ahead = before ++ after := h.trans ht
  have hbehind := (append_inj_of_byteSize happ
    (s.cursor.byteSize_reverse_behind.trans hb.symm)).1
  rw [s.cursor.pos_eq, ← hbehind, List.reverse_reverse, Pos.after, List.count_reverse]

theorem source_answer (s : Scanner) (op : Op) : (s.answer op).2.source = s.source := by
  cases op with
  | scan => exact s.source_scan
  | scanRegex => exact s.source_scanRegex
  | rewind bytes => exact Cursor.source_seek _ _

/-- A lexeme that takes some of what is ahead is read as a token that covers it. -/
theorem covers_take {l : Lexeme} (h : s.source = text) (hpos : 0 < l.width)
    (ha : s.cursor.ahead ≠ []) (hk : l.kind ≠ .eof) :
    Covers text s (s.take l).1 (s.take l).2 where
  start_eq := rfl
  stop_eq := rfl
  start_boundary := isBoundary_offset h
  stop_boundary := isBoundary_offset (s := (s.take l).2) ((Cursor.source_advance _ _).trans h)
  nonempty _ := by
    have htake : s.cursor.ahead.take l.width ≠ [] := by
      rw [Ne, List.take_eq_nil_iff]
      exact fun hn => hn.elim (fun hn => by omega) ha
    have := byteSize_pos htake
    simp only [take, Cursor.offset_advance]
    omega
  eof_iff := by
    rw [offset_eq_byteSize_iff h]
    exact iff_of_false hk ha
  pos_eq _ _ ht hb := pos_eq_of_offset h ht hb

theorem covers_scan (h : s.source = text) : Covers text s s.scan.1 s.scan.2 := by
  cases hl : Lexeme.next? s.afterOperand s.cursor.ahead with
  | none =>
    have ha := Lexeme.next?_eq_none_iff.1 hl
    rw [scan_of_end ha]
    exact {
      start_eq := rfl
      stop_eq := rfl
      start_boundary := isBoundary_offset h
      stop_boundary := isBoundary_offset h
      nonempty := fun hk => absurd rfl hk
      eof_iff := iff_of_true rfl ((offset_eq_byteSize_iff h).2 ha)
      pos_eq := fun _ _ ht hb => pos_eq_of_offset h ht hb }
  | some l =>
    rw [scan_of_lexeme hl]
    refine covers_take h (Lexeme.width_pos hl) (fun ha => ?_) (Lexeme.kind_ne_eof hl)
    rw [ha] at hl
    cases hl

theorem covers_scanRegex (h : s.source = text) : Covers text s s.scanRegex.1 s.scanRegex.2 := by
  rw [scanRegex_eq]
  split
  · next rest ha =>
    refine covers_take h ?_ (by simp [ha]) ?_
    · rw [Lexeme.regex_width]
      exact Nat.succ_pos _
    · unfold Lexeme.regex
      split <;> simp
  · exact covers_scan h

/-- A regular expression is no blank. -/
theorem scanRegex_of_blank (h : s.scanRegex.1.kind = .blank) : s.scanRegex = s.scan := by
  revert h
  rw [scanRegex_eq]
  split
  · exact fun h => absurd h (Lexeme.regex_kind_ne_blank _)
  · exact fun _ => rfl

/-- Behind a blank there is no other. -/
theorem kind_scan_of_blank (h : s.scan.1.kind = .blank) : s.scan.2.scan.1.kind ≠ .blank := by
  have ha := s.ahead_pastBlank
  rw [pastBlank, if_pos h] at ha
  intro hk
  cases hl : Lexeme.next? s.scan.2.afterOperand s.scan.2.cursor.ahead with
  | none =>
    rw [scan_of_end (Lexeme.next?_eq_none_iff.1 hl)] at hk
    cases hk
  | some l =>
    rw [scan_of_lexeme hl] at hk
    exact (Lexeme.kind_eq_blank_iff hl).1 hk (by rw [ha, Lexeme.blankWidth_pastBlank])

theorem scanRegex_of_end (h : s.cursor.ahead = []) : s.scanRegex = (s.eof, s) := by
  rw [scanRegex_eq, h]
  exact scan_of_end h

/-! ### Runs -/

/-- The kind of the token that the call answered. -/
def Call.kind? (c : Call) : Option TokenKind :=
  c.token?.map Token.kind

/-- The call takes the scanner back. -/
def Call.IsRewind (c : Call) : Prop :=
  ∃ bytes, c.op = .rewind bytes

theorem exists_of_mem_calls {ops : List Op} {c : Call} (h : c ∈ s.calls ops) :
    ∃ s₁ : Scanner, ∃ op ∈ ops, s₁.source = s.source ∧ c = s₁.call op := by
  induction ops generalizing s with
  | nil => cases h
  | cons op ops ih =>
    rcases List.mem_cons.1 h with rfl | h
    · exact ⟨s, op, List.mem_cons_self, rfl, rfl⟩
    · obtain ⟨s₁, op₁, hop, hs, rfl⟩ := ih h
      exact ⟨s₁, op₁, List.mem_cons_of_mem _ hop, hs.trans (s.source_answer op), rfl⟩

/-- Each token of a run covers its part of the text. -/
theorem covers_of_mem_calls {ops : List Op} (h : s.source = text) {c : Call}
    (hc : c ∈ s.calls ops) {t : Token} (ht : t ∈ c.token?) : Covers text c.before t c.after := by
  obtain ⟨s₁, op, -, hs, rfl⟩ := exists_of_mem_calls hc
  cases op with
  | scan =>
    cases ht
    exact covers_scan (hs.trans h)
  | scanRegex =>
    cases ht
    exact covers_scanRegex (hs.trans h)
  | rewind bytes => cases ht

/-- A scanner that is taken back goes where it is told. -/
theorem offset_of_rewind {ops : List Op} (h : s.source = text) (hops : ∀ op ∈ ops, op.Within text)
    {c : Call} (hc : c ∈ s.calls ops) {bytes : Nat} (hr : c.op = .rewind bytes) :
    c.after.offset = bytes := by
  obtain ⟨s₁, op, hop, hs, rfl⟩ := exists_of_mem_calls hc
  obtain rfl : op = .rewind bytes := hr
  obtain ⟨before, after, ht, hb⟩ := hops _ hop
  let d := Cursor.between before.reverse after
  have hd : s₁.cursor.source = d.source := by
    rw [show s₁.cursor.source = text from hs.trans h, ht]
    simp [d, Cursor.source, Cursor.between]
  have hoffset : d.offset = bytes := by simp [d, Cursor.between, hb]
  show (s₁.cursor.seek bytes).offset = bytes
  rw [← hoffset, Cursor.seek_offset hd]

/-- At the end of the text every call that is no rewind answers the end of the text. -/
theorem kind?_of_end {ops : List Op} (h : s.cursor.ahead = [])
    (hops : ∀ c ∈ s.calls ops, ¬c.IsRewind) : ∀ c ∈ s.calls ops, c.kind? = some .eof := by
  induction ops generalizing s with
  | nil => simp [calls]
  | cons op ops ih =>
    obtain ⟨hop, hrest⟩ := List.forall_mem_cons.1 hops
    have ha : s.answer op = (some s.eof, s) := by
      cases op with
      | scan => rw [answer, scan_of_end h]
      | scanRegex => rw [answer, scanRegex_of_end h]
      | rewind bytes => exact absurd ⟨bytes, rfl⟩ hop
    rw [ha] at hrest
    refine List.forall_mem_cons.2 ⟨?_, ?_⟩
    · rw [Call.kind?, call, ha]
      rfl
    · rw [ha]
      exact ih h hrest

/-- The answers of two calls in a row are not both blanks. -/
theorem answer_ne_blank {op op' : Op} {t u : Token} (ht : (s.answer op).1 = some t)
    (hk : t.kind = .blank) (hu : ((s.answer op).2.answer op').1 = some u) : u.kind ≠ .blank := by
  have hscan : ∀ {s : Scanner} {op : Op} {t : Token}, (s.answer op).1 = some t → t.kind = .blank →
      s.answer op = (some s.scan.1, s.scan.2) ∧ s.scan.1.kind = .blank := by
    intro s op t ht hk
    cases op with
    | scan =>
      cases ht
      exact ⟨rfl, hk⟩
    | scanRegex =>
      cases ht
      have he := scanRegex_of_blank hk
      rw [he] at hk
      exact ⟨by rw [answer, he], hk⟩
    | rewind bytes => cases ht
  obtain ⟨ha, hblank⟩ := hscan ht hk
  rw [ha] at hu
  intro hku
  exact kind_scan_of_blank hblank (hscan hu hku).2

/-- Behind the end of the text nothing else is answered, and behind a blank no other blank. -/
structure Orderly (run : List Call) : Prop where
  stays : run.Pairwise fun c d => c.kind? = some .eof → d.kind? = some .eof
  parted : run.IsChain fun c d => ¬(c.kind? = some .blank ∧ d.kind? = some .blank)

theorem ahead_of_kind?_eq_eof {op : Op} (h : (s.call op).kind? = some .eof) :
    (s.answer op).2.cursor.ahead = [] := by
  have hscan : ∀ {s : Scanner}, s.scan.1.kind = .eof → s.scan.2.cursor.ahead = [] := by
    intro s hk
    have ha := kind_scan_eq_eof.1 hk
    rwa [scan_of_end ha]
  cases op with
  | scan => exact hscan (Option.some.inj h)
  | scanRegex =>
    replace h := Option.some.inj h
    have he : s.scanRegex = s.scan := by
      revert h
      rw [scanRegex_eq]
      split
      · unfold Lexeme.regex
        split <;> exact fun h => nomatch h
      · exact fun _ => rfl
    rw [he] at h
    rw [answer, he]
    exact hscan h
  | rewind bytes => cases h

/-- A run without a rewind is orderly. -/
theorem orderly_calls {ops : List Op} (hops : ∀ c ∈ s.calls ops, ¬c.IsRewind) :
    Orderly (s.calls ops) := by
  induction ops generalizing s with
  | nil => exact ⟨.nil, .nil⟩
  | cons op ops ih =>
    obtain ⟨-, hrest⟩ := List.forall_mem_cons.1 hops
    obtain ⟨hstays, hparted⟩ := ih hrest
    refine ⟨List.pairwise_cons.2 ⟨fun d hd hk => ?_, hstays⟩, ?_⟩
    · exact kind?_of_end (ahead_of_kind?_eq_eof hk) hrest d hd
    · refine List.isChain_cons.2 ⟨fun d hd => ?_, hparted⟩
      cases ops with
      | nil => cases hd
      | cons op' ops =>
        cases hd
        rintro ⟨ht, hu⟩
        obtain ⟨t, ht, hkt⟩ := Option.map_eq_some_iff.1 ht
        obtain ⟨u, hu, hku⟩ := Option.map_eq_some_iff.1 hu
        exact answer_ne_blank ht hkt hu hku

/-- A stretch of a run is a run. -/
theorem exists_calls_of_infix {ops : List Op} {stretch : List Call} (h : stretch <:+: s.calls ops) :
    ∃ s' ops', stretch = calls s' ops' := by
  have hsuffix : ∀ {s : Scanner} {ops : List Op} {l : List Call}, l <:+ s.calls ops →
      ∃ s' ops', l = calls s' ops' := by
    intro s ops l hl
    induction ops generalizing s with
    | nil => exact ⟨s, [], List.suffix_nil.1 hl⟩
    | cons op ops ih =>
      rcases List.suffix_cons_iff.1 hl with rfl | hl
      · exact ⟨s, op :: ops, rfl⟩
      · exact ih hl
  have hprefix : ∀ {s : Scanner} {ops : List Op} {l : List Call}, l <+: s.calls ops →
      ∃ ops', l = calls s ops' := by
    intro s ops l hl
    induction ops generalizing s l with
    | nil => exact ⟨[], List.prefix_nil.1 hl⟩
    | cons op ops ih =>
      rcases List.prefix_cons_iff.1 hl with rfl | ⟨t, rfl, ht⟩
      · exact ⟨[], rfl⟩
      · obtain ⟨ops', rfl⟩ := ih ht
        exact ⟨op :: ops', rfl⟩
  obtain ⟨t, hp, hs⟩ := List.infix_iff_prefix_suffix.1 h
  obtain ⟨s', ops', rfl⟩ := hsuffix hs
  exact ⟨s', hprefix hp⟩

/-! ### All tokens of a text -/

/-- The tokens cover the bytes from `start` to `stop` one after the other, each some of them. -/
def Tiles : (start : Nat) → List Token → (stop : Nat) → Prop
  | start, [], stop => start = stop
  | start, t :: ts, stop => t.span.start = start ∧ start < t.span.stop ∧ Tiles t.span.stop ts stop

/-- The tokens of a text are those of a run that only scans. They tile the text; behind them stands
the end of the text. -/
structure Exhausts (s : Scanner) (text : List Char) (ts : List Token) : Prop where
  isRun : ts.map some = (s.calls (List.replicate ts.length .scan)).map Call.token?
  tiles : ∃ us e, ts = us ++ [e] ∧ e.kind = .eof ∧
    e.span = ⟨byteSize text, byteSize text⟩ ∧ Tiles s.offset us (byteSize text)

theorem exhausts_tokens {n : Nat} (h : s.source = text) (hn : s.cursor.ahead.length < n) :
    s.Exhausts text (s.tokens n) := by
  induction n generalizing s with
  | zero => omega
  | succ n ih =>
    have hc := covers_scan h
    rw [tokens]
    dsimp only
    split_ifs with hk
    · refine ⟨rfl, [], _, rfl, hk, ?_, (hc.eof_iff.1 hk)⟩
      have ha := kind_scan_eq_eof.1 hk
      have hoffset := hc.eof_iff.1 hk
      rw [scan_of_end ha]
      show Span.mk s.offset s.offset = _
      rw [hoffset]
    · have hlt : s.scan.2.cursor.ahead.length < n := by
        cases hl : Lexeme.next? s.afterOperand s.cursor.ahead with
        | none => exact absurd (kind_scan_eq_eof.2 (Lexeme.next?_eq_none_iff.1 hl)) hk
        | some l =>
          have := Lexeme.width_bounds hl
          rw [scan_of_lexeme hl]
          show (s.cursor.ahead.drop l.width).length < n
          rw [List.length_drop]
          omega
      obtain ⟨hrun, us, e, hts, he, hspan, htiles⟩ := ih (s.source_scan.trans h) hlt
      refine ⟨?_, s.scan.1 :: us, e, by rw [hts, List.cons_append], he, hspan, ?_⟩
      · rw [List.map_cons, hrun]
        rfl
      · refine ⟨hc.start_eq, ?_, ?_⟩
        · have hlt := hc.nonempty hk
          rwa [hc.start_eq] at hlt
        · rwa [hc.stop_eq]

end Scanner

open Scanner in
/-- **Lossless scanning.** In every run of calls each token covers the text from where the scanner
was to where it is then, and a scanner that is taken back goes where it is told. As long as it is
not taken back, the scanner stays at the end of the text once it is there, and never answers two
blanks in a row. The tokens of a text are those of such a run, and tile the text. -/
theorem scanner_lossless (source : String) (ops : List Op)
    (h : ∀ op ∈ ops, op.Within source.toList) :
    let run := (start source.toList).calls ops
    (∀ c ∈ run, (∀ t ∈ c.token?, Covers source.toList c.before t c.after) ∧
      ∀ bytes, c.op = .rewind bytes → c.after.offset = bytes) ∧
    (∀ stretch, stretch <:+: run → (∀ c ∈ stretch, ¬c.IsRewind) → Orderly stretch) ∧
    (start source.toList).Exhausts source.toList (tokenize source) := by
  refine ⟨fun c hc => ⟨fun t ht => covers_of_mem_calls rfl hc ht, fun bytes hr =>
    offset_of_rewind rfl h hc hr⟩, fun stretch hs hno => ?_, exhausts_tokens rfl ?_⟩
  · obtain ⟨s', ops', rfl⟩ := exists_calls_of_infix hs
    exact orderly_calls hno
  · exact Nat.lt_succ_self _

/-- A slash that is scanned, and then again as the start of a regular expression. -/
theorem scanner_lossless_slash :
    let source := "\n/é/"
    let ops : List Scanner.Op := [.scan, .scan, .rewind 1, .scanRegex, .scan]
    (∀ op ∈ ops, op.Within source.toList) ∧
      ∀ c ∈ (Scanner.start source.toList).calls ops, ∀ t ∈ c.token?,
        Scanner.Covers source.toList c.before t c.after := by
  intro source ops
  have h : ∀ op ∈ ops, op.Within source.toList := by
    simp only [ops, List.forall_mem_cons, Scanner.Op.Within]
    exact ⟨trivial, trivial, ⟨['\n'], ['/', 'é', '/'], by decide, rfl⟩, trivial, trivial, by simp⟩
  exact ⟨h, fun c hc => ((scanner_lossless source ops h).1 c hc).1⟩

end InfluxQL
