import InfluxQL.Numeric.Double

/-!
# Decimal notation

Integers and doubles as texts. A double is never written with an exponent: one that is a whole
number has all its digits and `.0`, and any other finite one the fewest decimal places that read
back as the same double.

* `Decimal.integer?`, `Decimal.double`: the values of the number literals;
* `Decimal.ofInteger`, `Decimal.ofDouble`: the texts of values;
* `Decimal.shortest`: the fewest places that read back, and the digits for them.
-/

namespace InfluxQL

namespace Decimal

/-- Cuts off a sign: is the number negative, and what are its digits? -/
def splitSign : List Char → Bool × List Char
  | '-' :: digits => (true, digits)
  | '+' :: digits => (false, digits)
  | digits => (false, digits)

/-- The number that a text of digits stands for. -/
def value (digits : List Char) : Nat :=
  Nat.ofDigitChars 10 digits 0

/-- The digits of a number. -/
def digits (n : Nat) : List Char :=
  Nat.toDigits 10 n

/-- The integer that a literal stands for, if 64 bits can hold it. -/
def integer? (literal : List Char) : Option Int64 :=
  let (negative, ds) := splitSign literal
  let n : Int := if negative then -(value ds) else value ds
  if Int64.minValue.toInt ≤ n ∧ n ≤ Int64.maxValue.toInt then some (Int64.ofInt n) else none

/-- The digits before and after the point of a literal without a sign. -/
def splitPoint (literal : List Char) : List Char × List Char :=
  (literal.takeWhile (· != '.'), (literal.dropWhile (· != '.')).drop 1)

/-- The double nearest to the number that a literal stands for. -/
def double (literal : List Char) : Double :=
  let (negative, ds) := splitSign literal
  let (whole, fraction) := splitPoint ds
  Double.ofFraction negative (value (whole ++ fraction)) (Nat.pow 10 fraction.length)

/-- An integer, with a minus if it is negative. -/
def ofInteger (n : Int64) : List Char :=
  if n.toInt < 0 then '-' :: digits n.toInt.natAbs else digits n.toInt.natAbs

/-- Among `low / scale` and its upper neighbour on that grid the one that is nearest to the given
number of units and reads back as the magnitude; of two equally near the upper one. -/
def onGrid (magnitude units low scale : Nat) : Option Nat :=
  if Double.nearest low scale = magnitude then
    if Double.nearest (low + 1) scale = magnitude
        ∧ (low + 1) * Double.unitsPerOne - units * scale
          ≤ units * scale - low * Double.unitsPerOne then
      some (low + 1)
    else some low
  else if Double.nearest (low + 1) scale = magnitude then some (low + 1)
  else none

/-- The fewest decimal places with which a magnitude can be written so that it reads back, and its
digits with so many places, the point left out. Every finite magnitude is a multiple of
`2 ^ (-1074)`, so with 1074 places it can be written exactly. -/
def shortest (magnitude : Nat) : Nat × Nat :=
  let units := Double.unitsOf magnitude
  let exact := (1074, units * Nat.pow 5 1074)
  ((List.range 1074).findSome? fun places =>
    let scale := Nat.pow 10 places
    (onGrid magnitude units (units * scale / Double.unitsPerOne) scale).map (places, ·)).getD exact

/-- A number with so many decimal places, of which there is at least one. -/
def withPoint (places n : Nat) : List Char :=
  let scale := Nat.pow 10 places
  let fraction := digits (n % scale)
  digits (n / scale) ++ '.' ::
    (List.replicate (places - fraction.length) '0' ++ fraction)

/-- A finite magnitude. -/
def ofMagnitude (magnitude : Nat) : List Char :=
  let units := Double.unitsOf magnitude
  if units % Double.unitsPerOne = 0 then
    digits (units / Double.unitsPerOne) ++ ".0".toList
  else
    let (places, n) := shortest magnitude
    withPoint places n

/-- A double. A NaN has no sign. -/
def ofDouble (x : Double) : List Char :=
  if x.isNaN then "NaN".toList
  else
    let text := if x.isFinite then ofMagnitude x.magnitude else "inf".toList
    if x.isNegative then '-' :: text else text

end Decimal

end InfluxQL
