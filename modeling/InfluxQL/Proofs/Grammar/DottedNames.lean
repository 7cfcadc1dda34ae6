import InfluxQL.Proofs.Grammar.Arrival

/-!
# What dotted names are read from

A dotted name is read dot by dot, each with the segment behind it. But a dot is also taken where a
slash or a colon follows it at once, and there the name ends: such a dot leaves no trace in the name.

* `Grammar.FurtherSegments`, `Grammar.NameRead`: the tokens and segments of a dotted name;
* `Grammar.NameRead.dots_eq`: a dot stands between any two segments, and at most one is dropped;
* `Grammar.ReferenceRead`: a reference is a dotted name, perhaps with a type.
-/

namespace InfluxQL

namespace Grammar

open Production Scanner

variable {c c' : Scanner} {taken : List Token} {names : List String}

/-! ### Dotted names -/

/-- The next character ends a name even behind a dot. -/
def EndsName (c : Scanner) : Prop :=
  c.cursor.ahead.head? = some '/' ∨ c.cursor.ahead.head? = some ':'

/-- Dots, with the segments behind them, are read one after the other. The tokens are those that are
taken, blanks aside. -/
inductive FurtherSegments : Scanner → List Token → List String → Scanner → Prop
  | done {c : Scanner} (other : c.scan.1.kind ≠ .dot) : FurtherSegments c [] [] c
  | dropped {c : Scanner} (dot : c.scan.1.kind = .dot) (ends : EndsName c.scan.2) :
      FurtherSegments c [c.scan.1] [] c.scan.2
  | empty {c c' : Scanner} {taken : List Token} {names : List String} (dot : c.scan.1.kind = .dot)
      (next : c.scan.2.cursor.ahead.head? = some '.')
      (further : FurtherSegments c.scan.2 taken names c') :
      FurtherSegments c (c.scan.1 :: taken) ("" :: names) c'
  | named {c d c' : Scanner} {taken : List Token} {names : List String}
      (dot : c.scan.1.kind = .dot) (skip : d = c.scan.2.pastBlank) (ident : d.scan.1.kind = .ident)
      (further : FurtherSegments d.scan.2 taken names c') :
      FurtherSegments c (c.scan.1 :: d.scan.1 :: taken) (d.scan.1.lit :: names) c'

/-- A dotted name is read: its first segment, and at most two others. -/
inductive NameRead : Scanner → List Token → List String → Scanner → Prop
  | intro {c c' : Scanner} {taken : List Token} {names : List String}
      (first : c.scan.1.kind = .ident) (further : FurtherSegments c.scan.2 taken names c')
      (few : names.length < maxSegments) :
      NameRead c (c.scan.1 :: taken) (c.scan.1.lit :: names) c'

theorem FurtherSegments.reaches (h : FurtherSegments c taken names c') : c.Reaches c' := by
  induction h with
  | done => exact .refl _
  | dropped => exact reaches_scan _
  | empty _ _ _ ih => exact (reaches_scan _).trans ih
  | named _ hd _ _ ih =>
    subst hd
    exact (reaches_scan _).trans ((reaches_significant _).trans ih)

theorem NameRead.reaches (h : NameRead c taken names c') : c.Reaches c' := by
  cases h with
  | intro _ further _ => exact (reaches_scan _).trans further.reaches

/-- The number of dots among the tokens. -/
def dots (taken : List Token) : Nat :=
  taken.countP (·.kind = .dot)

/-- The last token is a dot, and a slash or a colon follows it at once. -/
def DotDropped (taken : List Token) (c : Scanner) : Prop :=
  EndsName c ∧ ∃ t ∈ taken.getLast?, t.kind = .dot ∧ t.span.stop = c.offset

theorem dotDropped_cons_cons (t u : Token) (taken : List Token) (c : Scanner) :
    DotDropped (t :: u :: taken) c ↔ DotDropped (u :: taken) c := by
  rw [DotDropped, DotDropped, List.getLast?_cons_cons]

/-- Behind a token, a dot comes with each further segment, and one more if it is dropped. The last token
of the name is then no dot, unless its last segment is empty and the next character a further dot. -/
theorem FurtherSegments.dots_eq (h : FurtherSegments c taken names c') {t : Token}
    (ht : t.kind = .ident ∨ c.cursor.ahead.head? = some '.') :
    dots taken = names.length ∧
        ((∀ u ∈ (t :: taken).getLast?, u.kind = .ident) ∨ c'.cursor.ahead.head? = some '.') ∨
      dots taken = names.length + 1 ∧ DotDropped (t :: taken) c' := by
  induction h generalizing t with
  | done => exact .inl ⟨rfl, ht.imp_left fun h => by simpa using h⟩
  | dropped dot ends =>
    refine .inr ⟨by simp [dots, dot], ends, _, rfl, dot, stop_scan⟩
  | empty dot next _ ih =>
    simpa [dots, dot, dotDropped_cons_cons] using ih (.inr next)
  | named dot _ ident _ ih =>
    simpa [dots, dot, ident, dotDropped_cons_cons] using ih (.inl ident)

/-- **A dot stands between any two segments of a name.** One more is read at most, which a slash or a
colon follows. -/
theorem NameRead.dots_eq (h : NameRead c taken names c') :
    dots taken + 1 = names.length ∧
        ((∀ t ∈ taken.getLast?, t.kind = .ident) ∨ c'.cursor.ahead.head? = some '.') ∨
      dots taken = names.length ∧ DotDropped taken c' := by
  cases h with
  | intro first further few =>
    simpa [dots, first] using further.dots_eq (.inl first)

theorem NameRead.length_le (h : NameRead c taken names c') :
    1 ≤ names.length ∧ names.length ≤ maxSegments := by
  cases h with
  | intro first further few => exact ⟨by simp, few⟩

/-! ### Reading names and references -/

theorem identToken_comesTo (c : Scanner) : identToken.ComesTo c fun t d =>
    c.pastBlank.scan.1.kind = .ident ∧ t = c.pastBlank.scan.1 ∧ d = c.pastBlank.scan.2 :=
  .expectSignificant fun hk => .pure ⟨hk, rfl, rfl⟩

/-- After a round either a segment has been read, and others may follow, or none is left. -/
def FurtherSegment (c : Scanner) (b : Segments) : Segments ⊕ Segments → Scanner → Prop :=
  Sum.elim
    (fun b' d => ∃ taken name, b'.names = b.names ++ [name] ∧
      ∀ more names c', FurtherSegments d more names c' →
        FurtherSegments c (taken ++ more) (name :: names) c')
    fun b' c' => b'.names = b.names ∧ ∃ taken, FurtherSegments c taken [] c'

theorem segment_comesTo (b : Segments) (c : Scanner) :
    (segment b).ComesTo c (FurtherSegment c b) := by
  rw [segment_eq]
  refine .lookFor (fun hdot => .peek? ?_) fun h => .pure ⟨rfl, [], .done h⟩
  refine .ite (fun hends => .pure ⟨rfl, _, .dropped hdot hends⟩) fun _ => .ite (fun hnext => ?_)
    fun _ => ?_
  · exact .pure ⟨[c.scan.1], "", rfl, fun _ _ _ => .empty hdot hnext⟩
  · refine (identToken_comesTo _).bind ?_
    rintro _ _ ⟨hk, rfl, rfl⟩
    exact .pure ⟨[c.scan.1, c.scan.2.pastBlank.scan.1], _, rfl, fun _ _ _ => .named hdot rfl hk⟩

theorem furtherSegments_comesTo (n : Nat) (b : Segments) (c : Scanner) :
    (loop segment n b).ComesTo c fun r c' =>
      ∃ taken names, r.names = b.names ++ names ∧ FurtherSegments c taken names c' := by
  -- The loop puts each segment behind those that it has, and the relation in front of those to come.
  induction n generalizing b c with
  | zero => exact .fail
  | succ n ih =>
    rw [loop]
    refine (segment_comesTo b c).bind fun r d hr => ?_
    cases r with
    | inl b' =>
      obtain ⟨taken, name, hnames, hmore⟩ := hr
      refine (ih b' d).mono ?_
      rintro r c' ⟨more, names, hr, hread⟩
      exact ⟨_, name :: names, by rw [hr, hnames, List.append_assoc]; rfl, hmore _ _ _ hread⟩
    | inr b' =>
      obtain ⟨hnames, taken, hread⟩ := hr
      exact .pure ⟨taken, [], by rw [hnames, List.append_nil], hread⟩

/-- A dotted name whose first segment has been read. -/
theorem segments_comesTo (steps : Nat) (c : Scanner) (hk : c.scan.1.kind = .ident) :
    (segments steps c.scan.1).ComesTo c.scan.2
      fun names c' => ∃ taken, NameRead c taken names c' := by
  refine (furtherSegments_comesTo steps _ _).bind ?_
  rintro r c' ⟨taken, names, hr, hread⟩
  refine .ite (fun hlen => .pure ?_) fun _ => .fail
  rw [hr] at hlen ⊢
  exact ⟨_, .intro hk hread (by simpa [maxSegments, Nat.lt_succ_iff] using hlen)⟩

theorem dottedName_comesTo (steps : Nat) (c : Scanner) : (dottedName steps).ComesTo c
    fun names c' => ∃ taken, NameRead c.pastBlank taken names c' := by
  refine (identToken_comesTo c).bind ?_
  rintro _ _ ⟨hk, rfl, rfl⟩
  exact segments_comesTo steps _ hk

/-- A reference is read: a dotted name, and perhaps a type behind two colons. -/
inductive ReferenceRead : Scanner → VarRef → Scanner → Prop
  | untyped {c c' : Scanner} {taken : List Token} {names : List String}
      (name : NameRead c taken names c') (other : c'.scan.1.kind ≠ .doubleColon) :
      ReferenceRead c ⟨String.intercalate "." names, .unknown⟩ c'
  | typed {c d c' : Scanner} {taken : List Token} {names : List String} {type : DataType}
      (name : NameRead c taken names d) (colons : d.scan.1.kind = .doubleColon)
      (ident : d.scan.2.scan.1.kind = .ident)
      (known : DataType.ofName? d.scan.2.scan.1.lit.toList = some type)
      (behind : c' = d.scan.2.scan.2) :
      ReferenceRead c ⟨String.intercalate "." names, type⟩ c'

theorem ReferenceRead.reaches {v : VarRef} (h : ReferenceRead c v c') : c.Reaches c' := by
  cases h with
  | untyped name _ => exact name.reaches
  | typed name _ _ _ behind =>
    subst behind
    exact name.reaches.trans ((reaches_scan _).trans (reaches_scan _))

/-- A reference is read from a dotted name. -/
theorem ReferenceRead.exists_name {v : VarRef} (h : ReferenceRead c v c') :
    ∃ taken names d, NameRead c taken names d ∧ v.name = String.intercalate "." names := by
  cases h with
  | untyped name _ => exact ⟨_, _, _, name, rfl⟩
  | typed name _ _ _ _ => exact ⟨_, _, _, name, rfl⟩

theorem reference_comesTo (steps : Nat) (c : Scanner) (hk : c.scan.1.kind = .ident) :
    (reference steps c.scan.1).ComesTo c.scan.2 (ReferenceRead c) := by
  refine (segments_comesTo steps c hk).bind ?_
  rintro names d ⟨taken, hname⟩
  refine .lookFor (fun hcolons => .scan (.take ?_)) fun h => .pure (.untyped hname h)
  split
  · next type htype =>
    split_ifs at htype with hident
    exact .pure (.typed hname hcolons hident htype rfl)
  · exact .unexpected

end Grammar

end InfluxQL
