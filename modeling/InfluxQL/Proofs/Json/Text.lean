import InfluxQL.Params
import InfluxQL.Proofs.Numeric.Decimal

/-!
# JSON values that are written and read back

A value is written without blanks. What can follow it in a text, a comma or a bracket, ends its last
token, so that the value is read back from the front whatever is behind.

* `Json.Numeral.IsRegular`, `Json.IsRegular`: the numbers that a text can have, and their values;
* `Json.Numeral.render`, `Json.renderString`, `Json.render`: what is written;
* `Json.Follows`: what can be behind a value;
* `Json.value?_render`: a value is read back from the front of a text;
* `Json.read?_render`, `Params.ofText?_render`: so it is from a text of its own, and so are parameters.
-/

namespace InfluxQL

namespace Json

/-! ### What is written -/

/-- Digits without a zero in front of others, and digits behind the point. -/
structure Numeral.IsRegular (x : Numeral) : Prop where
  whole : Decimal.IsDigits x.whole
  zero : x.whole.head? = some '0' → x.whole.length = 1
  fraction : ∀ c ∈ x.fraction, c.isDigit

/-- The exponent, with a minus if it is negative. -/
def renderExponent : Option Int → List Char
  | none => []
  | some k => 'e' :: ((if k < 0 then ['-'] else []) ++ Decimal.digits k.natAbs)

def Numeral.render (x : Numeral) : List Char :=
  (if x.negative then ['-'] else []) ++ x.whole ++
    (if x.fraction = [] then [] else '.' :: x.fraction) ++ renderExponent x.exponent

/-- A quote and a backslash are escaped, and so is a control character, by its code. -/
def renderChar (c : Char) : List Char :=
  if c = '\x22' ∨ c = '\\' then ['\\', c]
  else if c.toNat < 0x20 then
    ['\\', 'u', '0', '0', Nat.digitChar (c.toNat / 16), Nat.digitChar (c.toNat % 16)]
  else [c]

def renderString (s : String) : List Char :=
  '\x22' :: (s.toList.flatMap renderChar ++ ['\x22'])

/-- Texts with commas between them. -/
def renderCommas : List (List Char) → List Char
  | [] => []
  | [t] => t
  | t :: ts => t ++ ',' :: renderCommas ts

theorem renderCommas_cons {ts : List (List Char)} (t : List Char) (h : ts ≠ []) :
    renderCommas (t :: ts) = t ++ ',' :: renderCommas ts := by
  cases ts with
  | nil => exact absurd rfl h
  | cons => rfl

def render : Json → List Char
  | null => "null".toList
  | bool true => "true".toList
  | bool false => "false".toList
  | number x => x.render
  | string s => renderString s
  | array es => '[' :: (renderCommas (es.map fun e => e.render) ++ [']'])
  | object members =>
    '\x7b' :: (renderCommas (members.map fun m => renderString m.1 ++ ':' :: m.2.render) ++ ['\x7d'])
decreasing_by
  · decreasing_tactic
  · next hm =>
    have hlt := List.sizeOf_lt_of_mem hm
    obtain ⟨key, v⟩ := m
    simp only [Prod.mk.sizeOf_spec, object.sizeOf_spec] at hlt ⊢
    omega

/-- All numbers of the value are ones that a text can have. -/
def IsRegular (j : Json) : Prop :=
  ∀ x ∈ j.numerals, x.IsRegular

/-- What can be behind a value that is written without blanks. -/
def Follows (rest : List Char) : Prop :=
  ∀ c ∈ rest.head?, c = ',' ∨ c = ']' ∨ c = '\x7d'

theorem follows_nil : Follows [] := nofun

theorem follows_cons {c : Char} {rest : List Char} (h : c = ',' ∨ c = ']' ∨ c = '\x7d') :
    Follows (c :: rest) := by
  rintro _ ⟨⟩
  exact h

/-! ### Numbers -/

section Numbers

variable {ds rest : List Char}

theorem digits?_append (hds : Decimal.IsDigits ds) (hrest : ∀ c ∈ rest.head?, ¬c.isDigit) :
    digits? (ds ++ rest) = some (ds, rest) := by
  have htake : (ds ++ rest).takeWhile Char.isDigit = ds := by
    rw [List.takeWhile_append_of_pos hds.2]
    cases rest with
    | nil => simp
    | cons c rest => simp [hrest c rfl]
  have hdrop : (ds ++ rest).dropWhile Char.isDigit = rest := by
    rw [List.dropWhile_append_of_pos hds.2]
    cases rest with
    | nil => rfl
    | cons c rest => simp [hrest c rfl]
  obtain ⟨d, ds, rfl⟩ := List.exists_cons_of_ne_nil hds.1
  rw [digits?, htake, hdrop]

theorem fraction?_render {x : Numeral} (hx : x.IsRegular)
    (hrest : ∀ c ∈ rest.head?, ¬c.isDigit ∧ c ≠ '.') :
    fraction? ((if x.fraction = [] then [] else '.' :: x.fraction) ++ rest) =
      some (x.fraction, rest) := by
  split
  · next hnil =>
    rw [hnil, List.nil_append]
    unfold fraction?
    split
    · exact absurd rfl (hrest '.' rfl).2
    · rfl
  · next hfraction => exact digits?_append ⟨hfraction, hx.fraction⟩ fun c hc => (hrest c hc).1

/-- No sign is in front of digits. -/
theorem head?_ne_sign (hds : Decimal.IsDigits ds) {c : Char} (hc : ¬c.isDigit) :
    (ds ++ rest).head? ≠ some c := by
  obtain ⟨d, ds, rfl⟩ := List.exists_cons_of_ne_nil hds.1
  rintro ⟨⟩
  exact hc (hds.2 _ List.mem_cons_self)

theorem Follows.not_isDigit (h : Follows rest) : ∀ c ∈ rest.head?, ¬c.isDigit := by
  intro c hc
  rcases h c hc with rfl | rfl | rfl <;> decide

theorem exponent?_render (k : Option Int) (hrest : Follows rest) :
    exponent? (renderExponent k ++ rest) = some (k, rest) := by
  cases k with
  | none =>
    cases rest with
    | nil => rfl
    | cons c rest =>
      have hc : ¬(c = 'e' ∨ c = 'E') := by rcases hrest c rfl with rfl | rfl | rfl <;> decide
      rw [renderExponent, List.nil_append, exponent?, if_neg hc]
  | some k =>
    have hdigits := digits?_append (Decimal.isDigits_digits k.natAbs) hrest.not_isDigit
    have hvalue : Nat.ofDigitChars 10 (Decimal.digits k.natAbs) 0 = k.natAbs :=
      Decimal.value_digits k.natAbs
    rw [renderExponent, List.cons_append, exponent?, if_pos (.inl rfl)]
    by_cases hk : k < 0
    · have hvalue : -(Nat.ofDigitChars 10 (Decimal.digits k.natAbs) 0 : Int) = k := by
        rw [hvalue]
        omega
      simp [hk, hdigits, hvalue]
    · have hvalue : (Nat.ofDigitChars 10 (Decimal.digits k.natAbs) 0 : Int) = k := by
        rw [hvalue]
        omega
      have hminus : (Decimal.digits k.natAbs ++ rest).head? ≠ some '-' :=
        head?_ne_sign (Decimal.isDigits_digits _) (by decide)
      have hplus : (Decimal.digits k.natAbs ++ rest).head? ≠ some '+' :=
        head?_ne_sign (Decimal.isDigits_digits _) (by decide)
      simp only [hk, if_false, List.nil_append, hminus, hplus, or_self, hdigits]
      simp [hvalue]

theorem numeral?_render {x : Numeral} (hx : x.IsRegular) (hrest : Follows rest) :
    numeral? (x.render ++ rest) = some (x, rest) := by
  have hexponent : ∀ c ∈ (renderExponent x.exponent ++ rest).head?, ¬c.isDigit ∧ c ≠ '.' := by
    intro c hc
    cases hk : x.exponent with
    | none =>
      rw [hk] at hc
      rcases hrest c hc with rfl | rfl | rfl <;> decide
    | some k =>
      rw [hk] at hc
      cases hc
      decide
  have hfraction := fraction?_render hx hexponent
  have hwhole : ∀ c ∈ ((if x.fraction = [] then [] else '.' :: x.fraction) ++
      (renderExponent x.exponent ++ rest)).head?, ¬c.isDigit := by
    intro c hc
    split at hc
    · exact (hexponent c hc).1
    · cases hc
      decide
  obtain ⟨negative, whole, fraction, exponent⟩ := x
  have hdigits := digits?_append hx.whole hwhole
  have hzero : ¬(whole.head? = some '0' ∧ whole.length ≠ 1) := fun h => h.2 (hx.zero h.1)
  rw [Numeral.render]
  simp only [List.append_assoc]
  dsimp only at hfraction hdigits
  generalize (if fraction = [] then [] else '.' :: fraction) ++ (renderExponent exponent ++ rest) = tail
    at hfraction hdigits
  have hminus : (whole ++ tail).head? ≠ some '-' := head?_ne_sign hx.whole (by decide)
  cases negative with
  | true => simp [numeral?, hdigits, hzero, hfraction, exponent?_render exponent hrest]
  | false =>
    simp only [numeral?, Bool.false_eq_true, if_false, List.nil_append, hminus, hdigits]
    simp [hzero, hfraction, exponent?_render exponent hrest]

end Numbers

/-! ### Strings -/

section Strings

variable {c : Char} {rest : List Char}

theorem hexDigit?_digitChar : ∀ d < 16, hexDigit? (Nat.digitChar d) = some d := by
  decide

/-- One character is read back, and then what is behind it. -/
theorem stringBody?_renderChar (n : Nat) (text : List Char) :
    stringBody? (n + 1) (renderChar c ++ text) =
      (stringBody? n text).bind fun (value, rest) => some (c :: value, rest) := by
  unfold renderChar
  split
  · next hc => rcases hc with rfl | rfl <;> rfl
  · next hc =>
    rw [not_or] at hc
    split
    · next hcontrol =>
      have hhigh := hexDigit?_digitChar (c.toNat / 16) (by omega)
      have hlow := hexDigit?_digitChar (c.toNat % 16) (by omega)
      have hzero : hexDigit? '0' = some 0 := rfl
      have hpair : ¬(0xD800 ≤ c.toNat ∧ c.toNat < 0xDC00) := by omega
      have hlone : ¬(0xDC00 ≤ c.toNat ∧ c.toNat < 0xE000) := by omega
      have hchar : hexChar? ('0' :: '0' :: Nat.digitChar (c.toNat / 16) ::
          Nat.digitChar (c.toNat % 16) :: text) = some (c, text) := by
        simp [hexChar?, hexUnit?, hzero, hhigh, hlow, Nat.div_add_mod', hpair, hlone]
      simp [stringBody?, hchar]
    · next hplain =>
      simp [stringBody?, hc.1, hc.2, hplain]

theorem stringBody?_render {n : Nat} {cs : List Char} (hn : cs.length < n) (rest : List Char) :
    stringBody? n (cs.flatMap renderChar ++ '\x22' :: rest) = some (cs, rest) := by
  induction cs generalizing n with
  | nil =>
    obtain ⟨n, rfl⟩ := Nat.exists_eq_add_one.2 hn
    rfl
  | cons c cs ih =>
    obtain ⟨n, rfl⟩ := Nat.exists_eq_add_one.2 (Nat.zero_lt_of_lt hn)
    rw [List.flatMap_cons, List.append_assoc, stringBody?_renderChar,
      ih (Nat.lt_of_succ_lt_succ hn)]
    rfl

theorem length_le_render (cs : List Char) : cs.length ≤ (cs.flatMap renderChar).length := by
  induction cs with
  | nil => exact Nat.le_refl 0
  | cons c cs ih =>
    have hc : 1 ≤ (renderChar c).length := by
      unfold renderChar
      split
      · simp
      · split <;> simp
    rw [List.flatMap_cons, List.length_append, List.length_cons]
    omega

theorem string?_render (s : String) (rest : List Char) :
    string? (renderString s ++ rest) = some (s, rest) := by
  have hlength := length_le_render s.toList
  rw [renderString, List.cons_append, List.append_assoc, List.singleton_append, string?,
    stringBody?_render (by rw [List.length_append]; omega), Option.map_some]
  simp only [String.ofList_toList]

end Strings

/-! ### Values -/

section Values

variable {n : Nat} {rest : List Char}

theorem dropBlanks_cons {c : Char} (h : c ≠ ' ' ∧ c ≠ '\t' ∧ c ≠ '\n' ∧ c ≠ '\r') (text : List Char) :
    dropBlanks (c :: text) = c :: text := by
  simp [dropBlanks, h]

/-- The text starts with no blank and no bracket that closes, as what is written for a value does. -/
def Opens (text : List Char) : Prop :=
  ∃ c rest, text = c :: rest ∧ (c ≠ ' ' ∧ c ≠ '\t' ∧ c ≠ '\n' ∧ c ≠ '\r') ∧ c ≠ ']' ∧ c ≠ '\x7d'

theorem Opens.append {text : List Char} (h : Opens text) (rest : List Char) : Opens (text ++ rest) := by
  obtain ⟨c, text, rfl, hc⟩ := h
  exact ⟨c, text ++ rest, rfl, hc⟩

/-- A minus or a digit is in front of a number. -/
theorem exists_render_eq_cons {x : Numeral} (hx : x.IsRegular) :
    ∃ c text, x.render = c :: text ∧ (c = '-' ∨ c.isDigit) := by
  obtain ⟨d, ds, hds⟩ := List.exists_cons_of_ne_nil hx.whole.1
  rw [Numeral.render, hds]
  cases x.negative with
  | true => exact ⟨'-', _, rfl, .inl rfl⟩
  | false => exact ⟨d, _, rfl, .inr (hx.whole.2 d (by rw [hds]; exact List.mem_cons_self))⟩

theorem value?_quote (text : List Char) : value? (n + 1) ('\x22' :: text) =
    (string? ('\x22' :: text)).map fun (s, rest) => (.string s, rest) := rfl

theorem value?_bracket {text : List Char} (h : Opens text) :
    value? (n + 1) ('[' :: text) = (elements? n text).map fun (es, rest) => (.array es, rest) := by
  obtain ⟨c, text, rfl, hblank, hbracket, -⟩ := h
  rw [value?, dropBlanks_cons (by decide)]
  simp only [dropBlanks_cons hblank]
  exact if_neg fun h => hbracket (Option.some.inj h)

theorem value?_brace {text : List Char} (h : Opens text) :
    value? (n + 1) ('\x7b' :: text) = (members? n text).map fun (ms, rest) => (.object ms, rest) := by
  obtain ⟨c, text, rfl, hblank, -, hbrace⟩ := h
  rw [value?, dropBlanks_cons (by decide)]
  simp only [dropBlanks_cons hblank]
  exact if_neg fun h => hbrace (Option.some.inj h)

theorem value?_number {x : Numeral} (hx : x.IsRegular) (hrest : Follows rest) :
    value? (n + 1) (x.render ++ rest) = some (.number x, rest) := by
  have hread := numeral?_render hx hrest
  obtain ⟨c, text, htext, hc⟩ := exists_render_eq_cons hx
  have hblank : c ≠ ' ' ∧ c ≠ '\t' ∧ c ≠ '\n' ∧ c ≠ '\r' := by
    refine ⟨?_, ?_, ?_, ?_⟩ <;> (rintro rfl; exact absurd hc (by decide))
  rw [htext, List.cons_append] at hread ⊢
  rw [value?, dropBlanks_cons hblank]
  split
  all_goals first | (next heq => cases heq; exact absurd hc (by decide)) | (rw [hread]; rfl)

theorem opens_render {j : Json} (hj : j.IsRegular) : Opens j.render := by
  cases j with
  | number x =>
    rw [render]
    obtain ⟨c, text, htext, hc⟩ := exists_render_eq_cons (hj x (by simp [numerals]))
    refine ⟨c, text, htext, ⟨?_, ?_, ?_, ?_⟩, ?_, ?_⟩ <;> (rintro rfl; exact absurd hc (by decide))
  | bool b => cases b <;> (rw [render]; exact ⟨_, _, rfl, by decide⟩)
  | null | string | array | object =>
    rw [render]
    exact ⟨_, _, rfl, by decide⟩

/-- The member of an object, written. -/
def renderMember (m : String × Json) : List Char :=
  renderString m.1 ++ ':' :: m.2.render

theorem render_array (es : List Json) :
    render (.array es) = '[' :: (renderCommas (es.map render) ++ [']']) := by
  rw [render]

theorem render_object (members : List (String × Json)) : render (.object members) =
    '\x7b' :: (renderCommas (members.map renderMember) ++ ['\x7d']) := by
  rw [render]
  rfl

/-- The key is the same whatever is behind the member. -/
theorem key?_renderMember (m : String × Json) (text : List Char) :
    key? (renderMember m ++ text) = some (m.1, m.2.render ++ text) := by
  have hblanks : dropBlanks (renderString m.1 ++ ':' :: (m.2.render ++ text)) =
      renderString m.1 ++ ':' :: (m.2.render ++ text) := dropBlanks_cons (by decide) _
  rw [renderMember, List.append_assoc, List.cons_append, key?, hblanks, string?_render]
  rfl

theorem opens_renderMember (m : String × Json) : Opens (renderMember m) :=
  ⟨_, _, rfl, by decide⟩

theorem opens_renderCommas {ts : List (List Char)} (h : ∀ t ∈ ts, Opens t) (hne : ts ≠ []) :
    Opens (renderCommas ts) := by
  obtain ⟨t, ts, rfl⟩ := List.exists_cons_of_ne_nil hne
  have ht := h t List.mem_cons_self
  by_cases hnil : ts = []
  · rwa [hnil]
  · rw [renderCommas_cons t hnil]
    exact ht.append _

theorem isRegular_element {es : List Json} (h : IsRegular (.array es)) {e : Json} (he : e ∈ es) :
    e.IsRegular :=
  fun x hx => h x (by rw [numerals]; exact List.mem_flatMap.2 ⟨e, he, hx⟩)

theorem isRegular_member {members : List (String × Json)} (h : IsRegular (.object members))
    {m : String × Json} (hm : m ∈ members) : m.2.IsRegular :=
  fun x hx => h x (by rw [numerals]; exact List.mem_flatMap.2 ⟨m, hm, hx⟩)

/-! ### Values within values -/

/-- Values are read back that are shorter than `n`. -/
def ReadsValues (n : Nat) : Prop :=
  ∀ (j : Json) (rest : List Char), j.IsRegular → Follows rest → j.render.length < n →
    value? n (j.render ++ rest) = some (j, rest)

/-- So are the elements of an array, with the bracket behind them. -/
def ReadsElements (n : Nat) : Prop :=
  ∀ (es : List Json) (rest : List Char), es ≠ [] → (∀ e ∈ es, e.IsRegular) →
    (renderCommas (es.map render)).length + 1 < n →
      elements? n (renderCommas (es.map render) ++ ']' :: rest) = some (es, rest)

/-- And the members of an object, with the brace behind them. -/
def ReadsMembers (n : Nat) : Prop :=
  ∀ (ms : List (String × Json)) (rest : List Char), ms ≠ [] → (∀ m ∈ ms, m.2.IsRegular) →
    (renderCommas (ms.map renderMember)).length + 1 < n →
      members? n (renderCommas (ms.map renderMember) ++ '\x7d' :: rest) = some (ms, rest)

theorem ReadsElements.succ (hvalues : ReadsValues n) (helements : ReadsElements n) :
    ReadsElements (n + 1) := by
  intro es rest hes hregular hlength
  obtain ⟨e, es, rfl⟩ := List.exists_cons_of_ne_nil hes
  have he := hregular e List.mem_cons_self
  rw [List.map_cons] at hlength ⊢
  by_cases hnil : es = []
  · subst hnil
    have hvalue := hvalues e (']' :: rest) he (follows_cons (by decide)) (Nat.lt_of_succ_lt_succ hlength)
    rw [List.map_nil, renderCommas, elements?, hvalue]
    rfl
  · have hmap : es.map render ≠ [] := by simpa
    rw [renderCommas_cons _ hmap, List.length_append, List.length_cons] at hlength
    have hvalue := hvalues e (',' :: (renderCommas (es.map render) ++ ']' :: rest)) he
      (follows_cons (by decide)) (by omega)
    have hrest := helements es rest hnil (fun u hu => hregular u (List.mem_cons_of_mem _ hu)) (by omega)
    have hcomma := dropBlanks_cons (c := ',') (by decide)
    rw [renderCommas_cons _ hmap, List.append_assoc, List.cons_append]
    simp [elements?, hvalue, hcomma, hrest]

theorem ReadsMembers.succ (hvalues : ReadsValues n) (hmembers : ReadsMembers n) :
    ReadsMembers (n + 1) := by
  intro ms rest hms hregular hlength
  obtain ⟨m, ms, rfl⟩ := List.exists_cons_of_ne_nil hms
  have hm := hregular m List.mem_cons_self
  rw [List.map_cons] at hlength ⊢
  by_cases hnil : ms = []
  · subst hnil
    rw [List.map_nil, renderCommas, renderMember, List.length_append, List.length_cons] at hlength
    have hvalue := hvalues m.2 ('\x7d' :: rest) hm (follows_cons (by decide)) (by omega)
    rw [List.map_nil, renderCommas, members?, key?_renderMember]
    simp only [Option.bind_eq_bind, Option.bind_some, hvalue]
    rfl
  · have hmap : ms.map renderMember ≠ [] := by simpa
    rw [renderCommas_cons _ hmap, renderMember, List.length_append, List.length_append,
      List.length_cons, List.length_cons] at hlength
    have hvalue := hvalues m.2 (',' :: (renderCommas (ms.map renderMember) ++ '\x7d' :: rest)) hm
      (follows_cons (by decide)) (by omega)
    have hrest := hmembers ms rest hnil (fun u hu => hregular u (List.mem_cons_of_mem _ hu)) (by omega)
    have hcomma := dropBlanks_cons (c := ',') (by decide)
    rw [renderCommas_cons _ hmap, List.append_assoc, List.cons_append]
    simp [members?, key?_renderMember, hvalue, hcomma, hrest]

theorem ReadsValues.succ (helements : ReadsElements n) (hmembers : ReadsMembers n) :
    ReadsValues (n + 1) := by
  intro j rest hj hrest hlength
  cases j with
  | null =>
    rw [render]
    rfl
  | bool b => cases b <;> (rw [render]; rfl)
  | number x =>
    rw [render]
    exact value?_number (hj x (by simp [numerals])) hrest
  | string s =>
    rw [render, renderString, List.cons_append, value?_quote, ← List.cons_append, ← renderString,
      string?_render]
    rfl
  | array es =>
    rw [render_array] at hlength ⊢
    by_cases hnil : es = []
    · subst hnil
      rfl
    · have hregular : ∀ e ∈ es, e.IsRegular := fun e he => isRegular_element hj he
      have hopens : Opens (renderCommas (es.map render)) := by
        refine opens_renderCommas (List.forall_mem_map.2 fun e he => ?_) (by simpa)
        exact opens_render (hregular e he)
      rw [List.length_cons, List.length_append, List.length_singleton] at hlength
      rw [List.cons_append, List.append_assoc, List.singleton_append, value?_bracket (hopens.append _),
        helements es rest hnil hregular (by omega)]
      rfl
  | object ms =>
    rw [render_object] at hlength ⊢
    by_cases hnil : ms = []
    · subst hnil
      rfl
    · have hregular : ∀ m ∈ ms, m.2.IsRegular := fun m hm => isRegular_member hj hm
      have hopens : Opens (renderCommas (ms.map renderMember)) :=
        opens_renderCommas (List.forall_mem_map.2 fun m _ => opens_renderMember m) (by simpa)
      rw [List.length_cons, List.length_append, List.length_singleton] at hlength
      rw [List.cons_append, List.append_assoc, List.singleton_append, value?_brace (hopens.append _),
        hmembers ms rest hnil hregular (by omega)]
      rfl

/-- A value is read back from the front of a text, whatever is behind. -/
theorem value?_render {j : Json} (hj : j.IsRegular) (hrest : Follows rest) (hn : j.render.length < n) :
    value? n (j.render ++ rest) = some (j, rest) := by
  have hreads : ReadsValues n ∧ ReadsElements n ∧ ReadsMembers n := by
    clear hn
    induction n with
    | zero => exact ⟨nofun, nofun, nofun⟩
    | succ n ih =>
      obtain ⟨hvalues, helements, hmembers⟩ := ih
      exact ⟨.succ helements hmembers, .succ hvalues helements, .succ hvalues hmembers⟩
  exact hreads.1 j rest hj hrest hn

/-- **A value is read back from its text.** -/
theorem read?_render {j : Json} (hj : j.IsRegular) : read? (String.ofList j.render) = some j := by
  have hread := value?_render (n := j.render.length + 1) hj follows_nil (Nat.lt_succ_self _)
  rw [List.append_nil] at hread
  rw [read?, String.toList_ofList, hread]
  rfl

end Values

end Json

/-- Parameters are decoded from the text of a value as they are from the value. -/
theorem Params.ofText?_render [JsonReading] {j : Json} (hj : j.IsRegular) :
    Params.ofText? (String.ofList j.render) = some (Params.ofJson j) := by
  rw [Params.ofText?, Json.read?_render hj, Option.map_some]

end InfluxQL
