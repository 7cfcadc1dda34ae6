/-!
# Double-precision numbers

A `Double` is the 64 bits of an IEEE 754 double: a sign, and below it a *magnitude* of 63 bits.
Magnitudes are ordered like the absolute values that they stand for, and beyond the magnitude of
infinity there are only the NaNs. Everything here is exact arithmetic on natural numbers: an
absolute value is a multiple of `2 ^ (-1074)`, the least positive double.

* `Double.units`: the absolute value, counted in that unit;
* `Double.nearest`: the magnitude nearest to a fraction, the even one of two equally near, and
  infinity for what is too large;
* `Double.equal`: equality of numbers, for which the two zeros are one and no NaN is anything.
-/

namespace InfluxQL

/-- The bits of a double-precision number. -/
structure Double where
  bits : UInt64
  deriving DecidableEq, Repr, Inhabited

namespace Double

/-- The magnitude of infinity: all bits of the exponent are set. -/
def infinity : Nat :=
  2047 * Nat.pow 2 52

/-- Is the sign bit set? -/
def isNegative (x : Double) : Bool :=
  Nat.pow 2 63 ≤ x.bits.toNat

/-- All bits but the sign. -/
def magnitude (x : Double) : Nat :=
  x.bits.toNat % Nat.pow 2 63

/-- The double with a given sign and magnitude. -/
def ofMagnitude (negative : Bool) (magnitude : Nat) : Double :=
  ⟨UInt64.ofNat (magnitude + if negative then Nat.pow 2 63 else 0)⟩

/-- Neither infinite nor a NaN. -/
def isFinite (x : Double) : Bool :=
  x.magnitude < infinity

/-- No number at all. -/
def isNaN (x : Double) : Bool :=
  infinity < x.magnitude

/-- How many of the least positive double make up one. -/
def unitsPerOne : Nat :=
  Nat.pow 2 1074

/-- The absolute value of a finite magnitude, counted in the least positive double. -/
def unitsOf (magnitude : Nat) : Nat :=
  let hidden := Nat.pow 2 52
  let exponent := magnitude / hidden
  if exponent = 0 then magnitude else (hidden + magnitude % hidden) * Nat.pow 2 (exponent - 1)

/-- The absolute value of a finite double, counted in the least positive double. -/
def units (x : Double) : Nat :=
  unitsOf x.magnitude

/-- The natural number nearest to a fraction, the even one of two equally near. -/
def roundHalfEven (num den : Nat) : Nat :=
  let whole := num / den
  let twice := 2 * (num % den)
  if twice < den ∨ (twice = den ∧ whole % 2 = 0) then whole else whole + 1

/-- The magnitude nearest to `num / den`. What lies between two powers of two, at least `2 ^ 52`
units away from zero, is first cut down to 53 binary digits; a carry into the next power of two
runs over into the exponent, as it should. -/
def nearest (num den : Nat) : Nat :=
  let shift := Nat.log2 (num * unitsPerOne / den) - 52
  min infinity
    (shift * Nat.pow 2 52 + roundHalfEven (num * unitsPerOne) (den * Nat.pow 2 shift))

/-- The double nearest to a fraction with a sign. -/
def ofFraction (negative : Bool) (num den : Nat) : Double :=
  ofMagnitude negative (nearest num den)

/-- Equality of the numbers that two doubles stand for. -/
def equal (x y : Double) : Bool :=
  !x.isNaN && !y.isNaN && (x.bits == y.bits || (x.magnitude == 0 && y.magnitude == 0))

/-- A double equals itself unless it is a NaN. -/
theorem equal_self (x : Double) : x.equal x = !x.isNaN := by
  simp [equal]

theorem equal_comm (x y : Double) : x.equal y = y.equal x := by
  simp [equal, BEq.comm (a := x.bits), Bool.and_comm]

theorem magnitude_ofMagnitude {m : Nat} (h : m < Nat.pow 2 63) (negative : Bool) :
    (ofMagnitude negative m).magnitude = m := by
  rw [Nat.pow_eq] at h
  cases negative <;> simp [ofMagnitude, magnitude] <;> omega

end Double

end InfluxQL
