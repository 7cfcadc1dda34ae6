import InfluxQL.Json.Numeral

/-!
# JSON values

* `Json`: a value, with numbers as they are written and members in their order;
* `Json.numerals`: all numbers of a value;
* `Json.HoldsObject`: is an object within the arrays of a value?
* `Json.member?`: the member of an object that counts.
-/

namespace InfluxQL

/-- A JSON value. Objects may repeat a key. -/
inductive Json
  | null
  | bool (value : Bool)
  | number (value : Json.Numeral)
  | string (value : String)
  | array (elements : List Json)
  | object (members : List (String × Json))
  deriving Repr, Inhabited

namespace Json

/-- All numbers of a value, from left to right. -/
def numerals : Json → List Numeral
  | .number x => [x]
  | .array es => es.flatMap fun e => e.numerals
  | .object members => members.flatMap fun m => m.2.numerals
  | _ => []
decreasing_by
  · decreasing_tactic
  · next hm =>
    have hlt := List.sizeOf_lt_of_mem hm
    obtain ⟨key, v⟩ := m
    simp only [Prod.mk.sizeOf_spec, object.sizeOf_spec] at hlt ⊢
    omega

/-- The value is an object, or an array with such an element. -/
inductive HoldsObject : Json → Prop
  | object (members : List (String × Json)) : HoldsObject (.object members)
  | element {es : List Json} {e : Json} (he : e ∈ es) (h : HoldsObject e) : HoldsObject (.array es)

/-- The last member with a key. -/
def member? (members : List (String × Json)) (key : String) : Option Json :=
  members.reverse.lookup key

end Json

end InfluxQL
