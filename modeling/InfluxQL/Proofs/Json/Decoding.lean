import InfluxQL.Params
import InfluxQL.Proofs.Json.Numeral
import Mathlib.Data.List.Forall2
import Mathlib.Data.List.Induction
import Mathlib.Data.Option.Basic

/-!
# Parameters that are given as JSON

A value is decoded as the first sort that it can be read as. As long as the reading is lawful, the order
of the sorts matters for integers only, which could be read as doubles too; null is found last, and what
no sort is left for is an object. So an object anywhere within an array is the only thing that makes
decoding fail, unless a number is out of range.

* `ParamValue.read?_null`, ..., `ParamValue.read?_object`: what is read for each sort of JSON value;
* `Decodes`: which JSON value stands for which parameter's, by its structure;
* `ParamValue.ofJson_eq_ok_iff`, `ParamValue.ofJson_fails_iff`: what decoding gives, and when it fails;
* `ParamValue.toJson`, `ReadsBack`: how a value is written, if it is known how doubles are;
* `ofJson_params`: the whole of it, for the members of an object.
-/

namespace InfluxQL

/-! ### Lists that are read element by element -/

section MapM

variable {α β : Type} {f : α → Option β} {as : List α}

theorem mapM_eq_some_iff {bs : List β} :
    as.mapM f = some bs ↔ List.Forall₂ (fun a b => f a = some b) as bs := by
  induction as generalizing bs with
  | nil => simp [eq_comm]
  | cons a as ih =>
    simp only [List.mapM_cons, List.forall₂_cons_left_iff, Option.bind_eq_bind,
      Option.bind_eq_some_iff, ih, Option.pure_def, Option.some.injEq]
    exact exists_congr fun b => by simp only [eq_comm, exists_and_left]

theorem mapM_eq_none_iff : as.mapM f = none ↔ ∃ a ∈ as, f a = none := by
  induction as with
  | nil => simp
  | cons a as ih =>
    rw [List.exists_mem_cons_iff, ← ih]
    cases h : f a <;> cases hrest : as.mapM f <;> simp [h, hrest]

end MapM

/-! ### Values and their elements -/

namespace Json

theorem inRange_array_iff [JsonReading] {es : List Json} :
    InRange (.array es) ↔ ∀ e ∈ es, InRange e := by
  simp only [InRange, numerals, List.mem_flatMap, forall_exists_index, and_imp]
  exact ⟨fun h e he x hx => h x e he hx, fun h x e he hx => h e he x hx⟩

theorem holdsObject_array_iff {es : List Json} :
    HoldsObject (.array es) ↔ ∃ e ∈ es, HoldsObject e := by
  constructor
  · rintro ⟨⟩
    exact ⟨_, ‹_›, ‹_›⟩
  · rintro ⟨e, he, h⟩
    exact .element he h

/-- What holds of an array if it holds of all its elements holds of every value. -/
theorem elementInduction {motive : Json → Prop} (null : motive .null)
    (bool : ∀ b, motive (.bool b)) (number : ∀ x, motive (.number x))
    (string : ∀ s, motive (.string s)) (array : ∀ es, (∀ e ∈ es, motive e) → motive (.array es))
    (object : ∀ members, motive (.object members)) : ∀ j, motive j
  | .null => null
  | .bool b => bool b
  | .number x => number x
  | .string s => string s
  | .array es => array es fun e _ => elementInduction null bool number string array object e
  | .object members => object members

end Json

/-! ### Lawful readings -/

namespace LawfulJsonReading

variable [JsonReading] [LawfulJsonReading]

open JsonReading

theorem bool?_eq (j : Json) : bool? j = match j with | .bool b => some b | _ => none :=
  Option.ext fun b => by rw [bool?_eq_some_iff]; cases j <;> simp [eq_comm]

theorem int64?_eq (j : Json) : int64? j = match j with | .number x => x.integer? | _ => none :=
  Option.ext fun n => by
    rw [int64?_eq_some_iff]
    cases j <;> simp [Json.Numeral.integer?_eq_some_iff]

theorem double?_eq_none {j : Json} (h : ∀ x, j ≠ .number x) : double? j = none :=
  Option.eq_none_iff_forall_ne_some.2 fun _ hd =>
    let ⟨x, hx⟩ := isNumber_of_double? hd
    h x hx

theorem string?_eq (j : Json) : string? j = match j with | .string s => some s | _ => none :=
  Option.ext fun s => by rw [string?_eq_some_iff]; cases j <;> simp [eq_comm]

theorem elements?_eq (j : Json) : elements? j = match j with | .array es => some es | _ => none :=
  Option.ext fun es => by rw [elements?_eq_some_iff]; cases j <;> simp [eq_comm]

theorem unit?_eq (j : Json) : unit? j = match j with | .null => some () | _ => none :=
  Option.ext fun _ => by rw [unit?_eq_some_iff]; cases j <;> simp

end LawfulJsonReading

/-! ### What a value is read as -/

/-- How a JSON value stands for a parameter's. -/
inductive Decodes [JsonReading] : Json → ParamValue → Prop
  | null : Decodes .null .null
  | boolean (b : Bool) : Decodes (.bool b) (.boolean b)
  | integer {x : Json.Numeral} {n : Int64} (hx : x.IsPlain) (hn : n.toInt = x.value) :
      Decodes (.number x) (.integer n)
  | float {x : Json.Numeral} {d : Double} (hx : ¬x.IsInteger)
      (hd : JsonReading.double? (.number x) = some d) : Decodes (.number x) (.float d)
  | string (s : String) : Decodes (.string s) (.string s)
  | list {es : List Json} {vs : List ParamValue} (h : List.Forall₂ Decodes es vs) :
      Decodes (.array es) (.list vs)

section Reading

variable [JsonReading]

theorem decodes_array_iff {es : List Json} {v : ParamValue} :
    Decodes (.array es) v ↔ ∃ vs, List.Forall₂ Decodes es vs ∧ v = .list vs := by
  constructor
  · rintro ⟨⟩
    exact ⟨_, ‹_›, rfl⟩
  · rintro ⟨vs, h, rfl⟩
    exact .list h

namespace ParamValue

theorem read?_eq (j : Json) : read? j =
    (variants j ((JsonReading.elements? j).bind fun es => es.mapM read?)).findSome? id := by
  rw [read?]
  split
  · next es hes =>
    rw [hes, Option.bind_some, List.mapM_subtype (g := read?) fun e _ => rfl, List.unattach_attach]
  · next hes => rw [hes, Option.bind_none]

variable [LawfulJsonReading] {j : Json} {v : ParamValue}

open LawfulJsonReading

theorem read?_null : read? .null = some null := by
  simp [read?_eq, variants, bool?_eq, int64?_eq, double?_eq_none, string?_eq, elements?_eq, unit?_eq]

theorem read?_bool (b : Bool) : read? (.bool b) = some (boolean b) := by
  simp [read?_eq, variants, bool?_eq]

/-- A number that is an integer is read as one, although it has a double too. -/
theorem read?_number (x : Json.Numeral) : read? (.number x) =
    (integer <$> x.integer?).or (float <$> JsonReading.double? (.number x)) := by
  cases hn : x.integer? <;> cases hd : JsonReading.double? (.number x) <;>
    simp [read?_eq, variants, bool?_eq, int64?_eq, string?_eq, elements?_eq, unit?_eq, hn, hd]

theorem read?_string (s : String) : read? (.string s) = some (string s) := by
  simp [read?_eq, variants, bool?_eq, int64?_eq, double?_eq_none, string?_eq]

theorem read?_array (es : List Json) : read? (.array es) = list <$> es.mapM read? := by
  cases hes : es.mapM read? <;>
    simp [read?_eq, variants, bool?_eq, int64?_eq, double?_eq_none, string?_eq, elements?_eq, unit?_eq,
      hes]

/-- No sort is left for an object. -/
theorem read?_object (members : List (String × Json)) : read? (.object members) = none := by
  simp [read?_eq, variants, bool?_eq, int64?_eq, double?_eq_none, string?_eq, elements?_eq, unit?_eq]

/-- Each value is read by its structure. -/
theorem read?_eq_some_iff : read? j = some v ↔ Decodes j v := by
  induction j using Json.elementInduction generalizing v with
  | null =>
    rw [read?_null]
    constructor
    · rintro ⟨⟩
      exact .null
    · rintro ⟨⟩
      rfl
  | bool b =>
    rw [read?_bool]
    constructor
    · rintro ⟨⟩
      exact .boolean b
    · rintro ⟨⟩
      rfl
  | number x =>
    rw [read?_number]
    constructor
    · intro h
      cases hn : x.integer? with
      | some n =>
        rw [hn] at h
        cases h
        obtain ⟨hplain, hvalue⟩ := Json.Numeral.integer?_eq_some_iff.1 hn
        exact .integer hplain hvalue
      | none =>
        rw [hn] at h
        obtain ⟨d, hd, rfl⟩ := Option.map_eq_some_iff.1 h
        exact .float (Json.Numeral.integer?_eq_none_iff.1 hn) hd
    · intro h
      cases h with
      | integer hplain hvalue => rw [Json.Numeral.integer?_eq_some_iff.2 ⟨hplain, hvalue⟩]; rfl
      | float hx hd => rw [Json.Numeral.integer?_eq_none_iff.2 hx, hd]; rfl
  | string s =>
    rw [read?_string]
    constructor
    · rintro ⟨⟩
      exact .string s
    · rintro ⟨⟩
      rfl
  | array es ih =>
    have helements (vs : List ParamValue) : es.mapM read? = some vs ↔ List.Forall₂ Decodes es vs := by
      rw [mapM_eq_some_iff]
      constructor
      · intro h
        have hboth := (List.forall₂_and_left es vs).2 ⟨fun e he => @ih e he, h⟩
        exact hboth.imp fun e u hu => hu.1.1 hu.2
      · intro h
        have hboth := (List.forall₂_and_left es vs).2 ⟨fun e he => @ih e he, h⟩
        exact hboth.imp fun e u hu => hu.1.2 hu.2
    rw [read?_array, decodes_array_iff, Option.map_eq_map, Option.map_eq_some_iff]
    exact exists_congr fun vs => and_congr (helements vs) eq_comm
  | object members =>
    rw [read?_object]
    exact iff_of_false nofun nofun

/-- What can be read is in range. -/
theorem inRange_of_read? (h : read? j ≠ none) : j.InRange := by
  induction j using Json.elementInduction with
  | null | bool | string => simp [Json.InRange, Json.numerals]
  | number x =>
    simp only [Json.InRange, Json.numerals, List.mem_singleton, forall_eq]
    intro hx
    rw [read?_number, Json.Numeral.integer?_eq_none_iff.2 hx] at h
    exact Option.isSome_iff_ne_none.2 fun hd => h (by rw [hd]; rfl)
  | array es ih =>
    rw [Json.inRange_array_iff]
    intro e he
    refine ih e he fun hnone => h ?_
    rw [read?_array, mapM_eq_none_iff.2 ⟨e, he, hnone⟩]
    rfl
  | object members => exact absurd (read?_object members) h

/-- Reading fails at objects only. -/
theorem read?_eq_none_iff (h : j.InRange) : read? j = none ↔ j.HoldsObject := by
  induction j using Json.elementInduction with
  | null => exact iff_of_false (by simp [read?_null]) (by rintro ⟨⟩)
  | bool b => exact iff_of_false (by simp [read?_bool]) (by rintro ⟨⟩)
  | number x =>
    refine iff_of_false ?_ (by rintro ⟨⟩)
    rw [read?_number]
    cases hn : x.integer? with
    | some n => exact Option.some_ne_none _
    | none =>
      have hd := h x (by simp [Json.numerals]) (Json.Numeral.integer?_eq_none_iff.1 hn)
      obtain ⟨d, hd⟩ := Option.isSome_iff_exists.1 hd
      rw [hd]
      exact Option.some_ne_none _
  | string s => exact iff_of_false (by simp [read?_string]) (by rintro ⟨⟩)
  | array es ih =>
    rw [read?_array, Option.map_eq_map, Option.map_eq_none_iff, mapM_eq_none_iff,
      Json.holdsObject_array_iff]
    exact exists_congr fun e => and_congr_right fun he => ih e he (Json.inRange_array_iff.1 h e he)
  | object members => exact iff_of_true (read?_object members) (.object members)

theorem ofJson_eq_ok_iff : ofJson j = .ok v ↔ Decodes j v := by
  rw [← read?_eq_some_iff, ofJson]
  constructor
  · intro h
    split at h
    · cases h
    · split at h
      · next hv =>
        cases h
        exact hv
      · cases h
  · intro h
    rw [fault?_eq_none_iff.2 (inRange_of_read? (by simp [h])), h]

/-- Decoding fails at objects only. -/
theorem ofJson_fails_iff (h : j.InRange) : (∃ err, ofJson j = .error err) ↔ j.HoldsObject := by
  rw [← read?_eq_none_iff h, ofJson, fault?_eq_none_iff.2 h]
  cases read? j with
  | none => exact iff_of_true ⟨_, rfl⟩ rfl
  | some v => exact iff_of_false nofun nofun

end ParamValue

end Reading

/-! ### What is written and read back -/

/-- How a value is written if it is known how doubles are. -/
def ParamValue.toJson (write : Double → Json.Numeral) : ParamValue → Json
  | null => .null
  | boolean b => .bool b
  | integer n => .number (.ofInt64 n)
  | float d => .number (write d)
  | string s => .string s
  | list vs => .array (vs.map fun v => v.toJson write)

/-- The value is a double, or a list with such an element. -/
inductive ParamValue.HoldsDouble (d : Double) : ParamValue → Prop
  | float : HoldsDouble d (.float d)
  | element {vs : List ParamValue} {v : ParamValue} (hv : v ∈ vs) (h : HoldsDouble d v) :
      HoldsDouble d (.list vs)

/-- What is written for a double has a fraction and is read as this double. -/
def ReadsBack [JsonReading] (write : Double → Json.Numeral) (d : Double) : Prop :=
  (write d).fraction ≠ [] ∧ JsonReading.double? (.number (write d)) = some d

/-- A number that is not an integer is read as the double nearest to it, if that is finite. -/
def JsonReading.IsExact [JsonReading] : Prop :=
  ∀ x : Json.Numeral, ¬x.IsInteger → x.nearest.isFinite →
    JsonReading.double? (.number x) = some x.nearest

/-- There is an exact reading. -/
theorem JsonReading.isExact_withDoubles : @IsExact
    (withDoubles fun x => if x.nearest.isFinite then some x.nearest else none) :=
  fun _ _ hfinite => if_pos hfinite

/-- An exact reading gives back each finite double that is written with the fewest places. -/
theorem JsonReading.IsExact.readsBack [JsonReading] (h : JsonReading.IsExact) {d : Double}
    (hd : d.isFinite) : ReadsBack Json.Numeral.ofDouble d := by
  have hfraction := Json.Numeral.fraction_ofDouble hd
  have hnearest := Json.Numeral.nearest_ofDouble hd
  refine ⟨hfraction, ?_⟩
  rw [h _ (fun hx => hfraction hx.1.1) (by rwa [hnearest]), hnearest]

theorem decodes_toJson [JsonReading] {write : Double → Json.Numeral} :
    ∀ v : ParamValue, (∀ d, v.HoldsDouble d → ReadsBack write d) → Decodes (v.toJson write) v
  | .null, _ => by
    rw [ParamValue.toJson]
    exact .null
  | .boolean b, _ => by
    rw [ParamValue.toJson]
    exact .boolean b
  | .integer n, _ => by
    rw [ParamValue.toJson]
    obtain ⟨hplain, hn⟩ := Json.Numeral.integer?_eq_some_iff.1 (Json.Numeral.integer?_ofInt64 n)
    exact .integer hplain hn
  | .float d, h => by
    rw [ParamValue.toJson]
    obtain ⟨hfraction, hd⟩ := h d .float
    exact .float (fun hx => hfraction hx.1.1) hd
  | .string s, _ => by
    rw [ParamValue.toJson]
    exact .string s
  | .list vs, h => by
    rw [ParamValue.toJson]
    exact .list <| List.forall₂_map_left_iff.2 <| List.forall₂_same.2 fun v hv =>
      decodes_toJson v fun d hd => h d (.element hv hd)

/-! ### The members of an object -/

namespace Params

theorem get?_insert (p : Params) (name key : String) (v : ParamValue) :
    (p.insert name v).get? key = if key == name then some v else p.get? key := by
  rw [get?, insert, List.lookup_cons]
  cases hkey : key == name with
  | true => rfl
  | false =>
    -- the entries that are dropped have another name
    have hfilter (entries : List (String × ParamValue)) :
        (entries.filter (·.1 != name)).lookup key = entries.lookup key := by
      induction entries with
      | nil => rfl
      | cons e entries ih =>
        rw [List.filter_cons]
        split
        · rw [List.lookup_cons, List.lookup_cons, ih]
        · next he =>
          have hname : e.1 = name := by simpa using he
          rw [ih, List.lookup_cons, hname, hkey]
    exact hfilter p.entries

variable [JsonReading] {members : List (String × Json)}

theorem addMember_eq_ok_iff {p q : Params} {m : String × Json} : p.addMember m = .ok q ↔
    ∃ v, ParamValue.ofJson m.2 = .ok v ∧ p.insert m.1 v = q := by
  rw [addMember]
  cases ParamValue.ofJson m.2 with
  | error err => exact iff_of_false nofun (by rintro ⟨_, ⟨⟩, _⟩)
  | ok v => exact ⟨fun h => ⟨v, rfl, Except.ok.inj h⟩, by rintro ⟨_, ⟨⟩, rfl⟩; rfl⟩

theorem foldlM_addMember_fails_iff (p : Params) : (∃ err, members.foldlM addMember p = .error err) ↔
    ∃ m ∈ members, ∃ err, ParamValue.ofJson m.2 = .error err := by
  induction members generalizing p with
  | nil => exact iff_of_false nofun nofun
  | cons m members ih =>
    rw [List.foldlM_cons, List.exists_mem_cons_iff, addMember]
    cases ParamValue.ofJson m.2 with
    | error err => exact iff_of_true ⟨err, rfl⟩ (.inl ⟨err, rfl⟩)
    | ok v => exact (ih (p.insert m.1 v)).trans (or_iff_right nofun).symm

variable [LawfulJsonReading]

theorem ofJson_object (members : List (String × Json)) :
    ofJson (.object members) = members.foldlM addMember empty := by
  rw [ofJson, LawfulJsonReading.members_eq_ok_iff.2 rfl]

/-- Under each key there is what the last member with this key is decoded to. -/
theorem rel_member?_of_ofJson {p : Params} (h : ofJson (.object members) = .ok p) (key : String) :
    Option.Rel Decodes (Json.member? members key) (p.get? key) := by
  rw [ofJson_object] at h
  induction members using List.reverseRecOn generalizing p with
  | nil =>
    cases h
    exact .none
  | append_singleton members m ih =>
    rw [List.foldlM_append] at h
    cases hrest : members.foldlM addMember empty with
    | error err =>
      rw [hrest] at h
      cases h
    | ok q =>
      rw [hrest] at h
      change q.addMember m >>= pure = .ok p at h
      rw [bind_pure] at h
      obtain ⟨v, hv, rfl⟩ := addMember_eq_ok_iff.1 h
      have hlast : Json.member? (members ++ [m]) key =
          if key == m.1 then some m.2 else Json.member? members key := by
        rw [Json.member?, List.reverse_append, List.reverse_singleton, List.singleton_append,
          List.lookup_cons]
        cases key == m.1 <;> rfl
      rw [hlast, get?_insert]
      cases key == m.1 with
      | true => exact .some (ParamValue.ofJson_eq_ok_iff.1 hv)
      | false => exact ih hrest

end Params

end InfluxQL
