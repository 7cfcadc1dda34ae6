import InfluxQL.Numeric.Double

/-!
# Numbers of a JSON text

A `Numeral` keeps how a number was written, since that decides what it is: without fraction and
exponent it is an integer if 64 bits can hold it (minus zero aside), and otherwise a double.

* `Json.Numeral.IsPlain`, `Json.Numeral.IsInteger`: the numbers that are written as integers;
* `Json.Numeral.integer?`: the integer that a number stands for;
* `Json.Numeral.double?`: a double for a number, found in two steps that each round.
-/

namespace InfluxQL.Json

/-- A number as it is written: its sign, the digits before the point, those after it, and the
exponent. -/
structure Numeral where
  negative : Bool
  whole : List Char
  fraction : List Char
  exponent : Option Int
  deriving DecidableEq, Repr, Inhabited

namespace Numeral

/-- The number in front of the point. -/
def value (x : Numeral) : Int :=
  if x.negative then -(Nat.ofDigitChars 10 x.whole 0 : Int) else Nat.ofDigitChars 10 x.whole 0

/-- Without fraction and exponent, and not minus zero. -/
def IsPlain (x : Numeral) : Prop :=
  x.fraction = [] ∧ x.exponent = none ∧ ¬(x.negative ∧ Nat.ofDigitChars 10 x.whole 0 = 0)

/-- Written as an integer that 64 bits can hold. -/
def IsInteger (x : Numeral) : Prop :=
  x.IsPlain ∧ Int64.minValue.toInt ≤ x.value ∧ x.value ≤ Int64.maxValue.toInt

instance (x : Numeral) : Decidable x.IsPlain :=
  inferInstanceAs (Decidable (_ ∧ _ ∧ ¬_))

instance (x : Numeral) : Decidable x.IsInteger :=
  inferInstanceAs (Decidable (_ ∧ _ ∧ _))

/-- The integer that a number is read as, if it is written as one and 64 bits can hold it. -/
def integer? (x : Numeral) : Option Int64 :=
  if x.IsInteger then some (Int64.ofInt x.value) else none

variable {x : Numeral} {n : Int64}

/-- A number that is read as an integer is this integer. -/
theorem integer?_eq_some_iff : x.integer? = some n ↔ x.IsPlain ∧ n.toInt = x.value := by
  rw [integer?, Option.ite_none_right_eq_some]
  constructor
  · rintro ⟨⟨hplain, hlow, hhigh⟩, hn⟩
    refine ⟨hplain, ?_⟩
    rw [← Option.some.inj hn]
    exact Int64.toInt_ofInt_of_le hlow (Int.lt_of_le_sub_one hhigh)
  · rintro ⟨hplain, hn⟩
    refine ⟨⟨hplain, hn ▸ n.minValue_le_toInt, hn ▸ n.toInt_le⟩, ?_⟩
    rw [← hn, Int64.ofInt_toInt]

theorem integer?_eq_none_iff : x.integer? = none ↔ ¬x.IsInteger := by
  rw [integer?, ite_eq_right_iff]
  exact forall_congr' fun _ => iff_of_false nofun id

end Numeral

/-- Appends digits to a number while it stays below `2 ^ 64`. The result has the digits that were
left over. -/
def appendDigits (n : Nat) : List Char → Nat × List Char
  | [] => (n, [])
  | d :: rest =>
    let n' := Nat.ofDigitChars 10 [d] n
    if n' < 2 ^ 64 then appendDigits n' rest else (n, d :: rest)

/-- The magnitude of the product of two finite magnitudes. -/
def timesMagnitude (a b : Nat) : Nat :=
  Double.nearest (Double.unitsOf a * Double.unitsOf b) (Double.unitsPerOne * Double.unitsPerOne)

/-- The magnitude of the quotient of two finite magnitudes. -/
def overMagnitude (a b : Nat) : Nat :=
  Double.nearest (Double.unitsOf a) (Double.unitsOf b)

/-- The magnitude nearest to a power of ten, which is finite up to `10 ^ 308`. -/
def powerOfTen (k : Nat) : Nat :=
  Double.nearest (Nat.pow 10 k) 1

/-- A whole number below `2 ^ 64` times a power of ten. A quotient is taken in steps of `10 ^ 308`,
two of which leave nothing. There is no answer if the product is too large. -/
def scaled? (n : Nat) (exponent : Int) : Option Nat :=
  let m := Double.nearest n 1
  let k := exponent.natAbs
  if n = 0 then some 0
  else if 0 ≤ exponent then
    if 308 < k then none
    else
      let product := timesMagnitude m (powerOfTen k)
      if product < Double.infinity then some product else none
  else if k ≤ 308 then some (overMagnitude m (powerOfTen k))
  else if k ≤ 616 then
    some (overMagnitude (overMagnitude m (powerOfTen 308)) (powerOfTen (k - 308)))
  else some 0

namespace Numeral

/-- A double for a number, unless it is too large. The leading digits that 64 bits can hold make up a
whole number, which is rounded to a double; this is multiplied with, or divided by, the double nearest
to a power of ten. With few digits and a small exponent that gives the nearest double; in general it may
miss it by a little. -/
def double? (x : Numeral) : Option Double :=
  let (n, beyond) := appendDigits 0 x.whole
  let (n, dropped) := appendDigits n x.fraction
  let exponent : Int :=
    x.exponent.getD 0 + beyond.length - (x.fraction.length - dropped.length : Nat)
  (scaled? n exponent).map (Double.ofMagnitude x.negative)

end Numeral

end InfluxQL.Json
