import InfluxQL.Json.Basic

/-!
# Readings of JSON

What a JSON value is as a truth value, an integer or a string is not fixed here: it is up to the
library that reads it, and so is what a number is as a double.

* `JsonReading`: such a library, on which the decoding of parameters depends;
* `Json.InRange`: the values whose numbers are integers or have a double;
* `LawfulJsonReading`: what is expected of a reading;
* `JsonReading.withDoubles`, `JsonReading.standard`: readings that are lawful.
-/

namespace InfluxQL

/-- Reads JSON values as values of other types. -/
class JsonReading where
  /-- What is wrong with a value, whatever it is to be read as. -/
  fault? : Json → Option String
  /-- Reads a truth value. -/
  bool? : Json → Option Bool
  /-- Reads an integer that 64 bits can hold. -/
  int64? : Json → Option Int64
  /-- Reads a double. -/
  double? : Json → Option Double
  /-- Reads a string. -/
  string? : Json → Option String
  /-- Reads the elements of a list, each of which is still to be read. -/
  elements? : Json → Option (List Json)
  /-- Elements are parts. -/
  elements?_lt {j e : Json} {es : List Json} :
    elements? j = some es → e ∈ es → sizeOf e < sizeOf j
  /-- Reads the absence of a value. -/
  unit? : Json → Option Unit
  /-- Reads the entries of a map, whose values are still to be read, or tells what is wrong. -/
  members : Json → Except String (List (String × Json))

/-- Every number of the value that is not an integer has a double. -/
def Json.InRange [JsonReading] (j : Json) : Prop :=
  ∀ x ∈ j.numerals, ¬x.IsInteger → (JsonReading.double? (.number x)).isSome

/-- Each type is read from values of its own sort only. Integers are written without fraction and
exponent, and a double can be written as any number. Nothing is wrong with a value beforehand unless
a number is out of range. -/
class LawfulJsonReading [JsonReading] : Prop where
  fault?_eq_none_iff {j : Json} : JsonReading.fault? j = none ↔ j.InRange
  bool?_eq_some_iff {j : Json} {b : Bool} : JsonReading.bool? j = some b ↔ j = .bool b
  int64?_eq_some_iff {j : Json} {n : Int64} :
    JsonReading.int64? j = some n ↔ ∃ x, j = .number x ∧ x.IsPlain ∧ n.toInt = x.value
  isNumber_of_double? {j : Json} {d : Double} :
    JsonReading.double? j = some d → ∃ x, j = .number x
  string?_eq_some_iff {j : Json} {s : String} : JsonReading.string? j = some s ↔ j = .string s
  elements?_eq_some_iff {j : Json} {es : List Json} :
    JsonReading.elements? j = some es ↔ j = .array es
  unit?_eq_some_iff {j : Json} : JsonReading.unit? j = some () ↔ j = .null
  members_eq_ok_iff {j : Json} {members : List (String × Json)} :
    JsonReading.members j = .ok members ↔ j = .object members

namespace JsonReading

/-- The reading that takes each value for what it is, if it is known what double a number is. -/
@[reducible] def withDoubles (double? : Json.Numeral → Option Double) : JsonReading where
  fault? j :=
    if ∀ x ∈ j.numerals, ¬x.IsInteger → (double? x).isSome then none
    else some "number out of range"
  bool?
    | .bool b => some b
    | _ => none
  int64?
    | .number x => x.integer?
    | _ => none
  double?
    | .number x => double? x
    | _ => none
  string?
    | .string s => some s
    | _ => none
  elements?
    | .array es => some es
    | _ => none
  elements?_lt {j e es} h he := by
    split at h
    · cases h
      have hlt := List.sizeOf_lt_of_mem he
      rw [Json.array.sizeOf_spec]
      omega
    · cases h
  unit?
    | .null => some ()
    | _ => none
  members
    | .object members => .ok members
    | _ => .error "invalid type, expected a map"

/-- A reading that takes each value for what it is is lawful, whatever double a number is. -/
instance (double? : Json.Numeral → Option Double) : @LawfulJsonReading (withDoubles double?) := by
  apply @LawfulJsonReading.mk (withDoubles double?)
  case fault?_eq_none_iff =>
    intro j
    unfold Json.InRange
    simp [fault?, JsonReading.double?, Option.isSome_iff_ne_none]
  case bool?_eq_some_iff | string?_eq_some_iff | elements?_eq_some_iff =>
    intro j _
    cases j <;> simp [bool?, string?, elements?]
  case int64?_eq_some_iff =>
    intro j n
    cases j <;> simp [int64?, Json.Numeral.integer?_eq_some_iff]
  case isNumber_of_double? =>
    intro j d h
    cases j <;> simp [JsonReading.double?] at h ⊢
  case unit?_eq_some_iff =>
    intro j
    cases j <;> simp [unit?]
  case members_eq_ok_iff =>
    intro j ms
    cases j <;> simp [members]

/-- The reading that is used where no other one is given. -/
instance (priority := low) standard : JsonReading :=
  withDoubles Json.Numeral.double?

end JsonReading

end InfluxQL
