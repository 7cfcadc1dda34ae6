import InfluxQL.Json.Reading
import InfluxQL.Json.Text

/-!
# Bound parameters

A text may hold parameters, each written `$name`, whose values are given apart from it. A value of
any sort may be given, but only numbers, strings and truth values can be bound.

* `Params`: the values of parameters by name;
* `ParamValue.variants`: what a JSON value is as each sort of value, in the order of the sorts;
* `ParamValue.ofJson`: the value that a JSON value stands for, the first that there is;
* `Params.ofJson`, `Params.ofText?`: the parameters that a JSON object, or its text, stands for.
-/

namespace InfluxQL

/-- The value of a parameter. -/
inductive ParamValue
  | boolean (value : Bool)
  | integer (value : Int64)
  | float (value : Double)
  | string (value : String)
  | list (values : List ParamValue)
  | null
  deriving Repr, Inhabited

/-- The sort of a value. -/
def ParamValue.typeName : ParamValue → String
  | boolean _ => "boolean"
  | integer _ => "integer"
  | float _ => "float"
  | string _ => "string"
  | list _ => "list"
  | null => "null"

/-- The values of parameters by name, each name at most once. -/
structure Params where
  entries : List (String × ParamValue)
  deriving Repr, Inhabited

namespace Params

/-- No parameters. -/
def empty : Params :=
  ⟨[]⟩

/-- The value of a parameter. -/
def get? (p : Params) (name : String) : Option ParamValue :=
  p.entries.lookup name

/-- Gives a parameter a value. A value that it had before is lost. -/
def insert (p : Params) (name : String) (value : ParamValue) : Params :=
  ⟨(name, value) :: p.entries.filter (·.1 != name)⟩

/-- The parameters of a list, where later values win. -/
def ofList (entries : List (String × ParamValue)) : Params :=
  entries.foldl (fun p (name, value) => p.insert name value) empty

@[simp] theorem get?_empty (name : String) : empty.get? name = none := rfl

end Params

/-- Why JSON stands for no parameters. -/
inductive DecodeError
  /-- A value is of no sort that a parameter can have. -/
  | noVariant
  /-- The reading does not come so far as to the sort. -/
  | unreadable (text : String)
  deriving DecidableEq, Repr, Inhabited

/-- The wording of a fault. -/
def DecodeError.message : DecodeError → String
  | noVariant => "data did not match any variant of untagged enum ParamValue"
  | unreadable text => text

section Decoding

variable [JsonReading]

open JsonReading

/-- What a JSON value is as each sort of value, in the order in which the sorts are declared. The
elements of a list are read before. -/
def ParamValue.variants (j : Json) (values? : Option (List ParamValue)) : List (Option ParamValue) :=
  [boolean <$> bool? j, integer <$> int64? j, float <$> double? j, string <$> string? j,
    list <$> values?, (fun _ => null) <$> unit? j]

/-- Reads a value as the first sort of which it is, and so each element of a list. -/
def ParamValue.read? (j : Json) : Option ParamValue :=
  let values? :=
    match _h : elements? j with
    | some es => es.attach.mapM fun e => read? e.1
    | none => none
  (variants j values?).findSome? id
termination_by sizeOf j
decreasing_by exact elements?_lt _h e.2

/-- The value that a JSON value stands for. -/
def ParamValue.ofJson (j : Json) : Except DecodeError ParamValue :=
  match fault? j with
  | some text => .error (.unreadable text)
  | none =>
    match read? j with
    | some v => .ok v
    | none => .error .noVariant

/-- Gives a parameter the value that a member of an object stands for. -/
def Params.addMember (p : Params) (m : String × Json) : Except DecodeError Params := do
  let value ← ParamValue.ofJson m.2
  pure (p.insert m.1 value)

/-- The parameters that the members of a JSON object stand for. Of members with the same key the
last counts. -/
def Params.ofJson (j : Json) : Except DecodeError Params :=
  match members j with
  | .ok members => members.foldlM addMember empty
  | .error text => .error (.unreadable text)

/-- The parameters that the text of a JSON object stands for, if it is the text of a value at all. -/
def Params.ofText? (text : String) : Option (Except DecodeError Params) :=
  (Json.read? text).map ofJson

end Decoding

end InfluxQL
