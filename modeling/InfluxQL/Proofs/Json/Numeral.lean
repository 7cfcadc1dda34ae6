import InfluxQL.Json.Numeral
import InfluxQL.Proofs.Numeric.Range

/-!
# Numbers that are read and written

An integer is written by its digits and a double with the fewest places, and each is what is written.
The standard reading of a double takes two steps that each round. Neither does if the digits make up less
than `2 ^ 53` and the power of ten is at most `10 ^ 22`, since both are doubles then; what is left is
one product or quotient, and rounding this gives the nearest double.

* `Double.nearest_mul_right`: what a fraction is rounded to does not depend on how it is reduced;
* `Double.unitsOf_nearest_whole`: a whole number with at most 53 binary digits that count is a double;
* `Json.Numeral.nearest`, `Json.Numeral.IsShort`: the double nearest to a number; which are short;
* `Json.Numeral.double?_of_isShort`: a short number is read as the nearest double;
* `Json.Numeral.ofInt64`, `Json.Numeral.ofDouble`: how an integer and a double are written.
-/

namespace InfluxQL

namespace Double

variable {num den : Nat}

/-! ### What is rounded to what -/

theorem roundHalfEven_mul_right (num den : Nat) {k : Nat} (hk : 0 < k) :
    roundHalfEven (num * k) (den * k) = roundHalfEven num den := by
  have hlt : 2 * (num % den * k) < den * k ↔ 2 * (num % den) < den := by
    rw [← Nat.mul_assoc, Nat.mul_lt_mul_right hk]
  have heq : 2 * (num % den * k) = den * k ↔ 2 * (num % den) = den := by
    rw [← Nat.mul_assoc, Nat.mul_left_inj hk.ne']
  simp only [roundHalfEven, Nat.mul_div_mul_right _ _ hk, Nat.mul_mod_mul_right, hlt, heq]

/-- What a fraction is rounded to does not depend on how it is reduced. -/
theorem nearest_mul_right (num den : Nat) {k : Nat} (hk : 0 < k) :
    nearest (num * k) (den * k) = nearest num den := by
  simp only [nearest_eq, Nat.mul_right_comm _ k, Nat.mul_div_mul_right _ _ hk,
    roundHalfEven_mul_right _ _ hk]

theorem nearest_zero (hd : 0 < den) : nearest 0 den = 0 := by
  simp [nearest_eq, roundHalfEven, hd]

/-- A whole number is a double exactly if cutting it down to 53 binary digits loses nothing. -/
theorem unitsOf_nearest_of_dvd {shift : Nat} (hfinite : nearest num 1 < infinity)
    (hs : Nat.log2 (num * unitsPerOne / 1) - 52 = shift) (hpos : 0 < shift)
    (h : 2 ^ shift ∣ num * unitsPerOne) : unitsOf (nearest num 1) = num * unitsPerOne := by
  obtain ⟨hhigh, hlow⟩ := div_shift_bounds (num * unitsPerOne) 1 hs.symm
  have hlow := hlow hpos
  have hround : nearest num 1 = shift * 2 ^ 52 + num * unitsPerOne / 2 ^ shift := by
    simp only [nearest_eq, hs, Nat.one_mul, roundHalfEven_of_dvd h] at hfinite ⊢
    omega
  rw [Nat.one_mul] at hhigh hlow
  rw [hround, unitsOf_carry hlow hhigh.le, Nat.div_mul_cancel h]

/-- No whole number is rounded to infinity that is far enough below the greatest double. -/
theorem nearest_lt_infinity_of_lt {k : Nat} (hk : k ≤ 970) (h : num < 2 ^ 53 * 2 ^ k) :
    nearest num 1 < infinity := by
  have hbound := overflowBound.eq_1
  -- the power is too large to compute
  generalize 970 = t at hk hbound
  rw [nearest_lt_infinity_iff Nat.one_pos, Nat.mul_one, hbound]
  calc num < 2 ^ 53 * 2 ^ k := h
    _ ≤ (2 ^ 54 - 1) * 2 ^ t :=
      Nat.mul_le_mul (by decide) (Nat.pow_le_pow_right (by decide) hk)

/-- A whole number with at most 53 binary digits that count is a double exactly. -/
theorem unitsOf_nearest_whole {a b : Nat} (ha : a < 2 ^ 53) (hb : b ≤ 970) :
    unitsOf (nearest (a * 2 ^ b) 1) = a * 2 ^ b * unitsPerOne := by
  rcases Nat.eq_zero_or_pos a with rfl | hpos
  · simp [nearest_eq, roundHalfEven, unitsOf_eq]
  · have hfinite : nearest (a * 2 ^ b) 1 < infinity :=
      nearest_lt_infinity_of_lt hb (Nat.mul_lt_mul_of_pos_right ha (Nat.two_pow_pos b))
    have hU := unitsPerOne.eq_1
    have hlarge : 53 < 1074 := by decide
    -- the power is too large to compute
    generalize 1074 = e at hU hlarge
    rw [Nat.pow_eq] at hU
    have hunits : a * 2 ^ b * unitsPerOne = a * 2 ^ (b + e) := by
      rw [hU, Nat.pow_add, Nat.mul_assoc]
    have hne : a * 2 ^ (b + e) ≠ 0 := Nat.mul_ne_zero hpos.ne' (Nat.two_pow_pos _).ne'
    have hlow : b + e ≤ Nat.log2 (a * 2 ^ (b + e)) := by
      rw [Nat.le_log2 hne]
      exact Nat.le_mul_of_pos_left _ hpos
    have hhigh : Nat.log2 (a * 2 ^ (b + e)) < 53 + (b + e) := by
      rw [Nat.log2_lt hne, Nat.pow_add 2 53]
      exact Nat.mul_lt_mul_of_pos_right ha (Nat.two_pow_pos _)
    refine unitsOf_nearest_of_dvd hfinite rfl ?_ ?_
    · rw [hunits, Nat.div_one]
      omega
    · rw [hunits, Nat.div_one]
      exact Nat.dvd_mul_left_of_dvd (Nat.pow_dvd_pow 2 (by omega)) a

end Double

namespace Json

/-! ### Digits -/

/-- More digits make no number smaller. -/
theorem le_ofDigitChars (n : Nat) (ds : List Char) : n ≤ Nat.ofDigitChars 10 ds n := by
  rw [Nat.ofDigitChars_eq_ofDigitChars_zero]
  have hpow : 0 < 10 ^ ds.length := Nat.pow_pos (by decide)
  exact Nat.le_trans (Nat.le_mul_of_pos_left n hpow) (Nat.le_add_right ..)

/-- All digits are appended if the number stays below the limit with them. -/
theorem appendDigits_of_lt {n : Nat} {ds : List Char} (h : Nat.ofDigitChars 10 ds n < 2 ^ 64) :
    appendDigits n ds = (Nat.ofDigitChars 10 ds n, []) := by
  induction ds generalizing n with
  | nil => rfl
  | cons d ds ih =>
    have hcons : Nat.ofDigitChars 10 (d :: ds) n =
        Nat.ofDigitChars 10 ds (Nat.ofDigitChars 10 [d] n) := rfl
    have hstep : appendDigits n (d :: ds) =
        if Nat.ofDigitChars 10 [d] n < 2 ^ 64 then appendDigits (Nat.ofDigitChars 10 [d] n) ds
        else (n, d :: ds) := rfl
    rw [hcons] at h ⊢
    rw [hstep, if_pos (Nat.lt_of_le_of_lt (le_ofDigitChars _ ds) h), ih h]

/-! ### Powers of ten -/

/-- The powers of ten up to `10 ^ 22` are doubles exactly. -/
theorem unitsOf_powerOfTen {k : Nat} (hk : k ≤ 22) :
    Double.unitsOf (powerOfTen k) = 10 ^ k * Double.unitsPerOne := by
  have hfive : 5 ^ k < 2 ^ 53 :=
    Nat.lt_of_le_of_lt (Nat.pow_le_pow_right (by decide) hk) (by decide)
  have hten : Nat.pow 10 k = 5 ^ k * 2 ^ k := by
    rw [Nat.pow_eq, ← Nat.mul_pow]
  rw [powerOfTen, hten, Double.unitsOf_nearest_whole hfive (by omega), ← Nat.mul_pow]

variable {n k : Nat}

theorem unitsOf_nearest_small (hn : n < 2 ^ 53) :
    Double.unitsOf (Double.nearest n 1) = n * Double.unitsPerOne := by
  have hwhole := Double.unitsOf_nearest_whole hn (Nat.zero_le 970)
  rwa [Nat.pow_zero, Nat.mul_one] at hwhole

/-- A product of doubles that stand for their factors exactly is rounded once. -/
theorem timesMagnitude_exact (hn : n < 2 ^ 53) (hk : k ≤ 22) :
    timesMagnitude (Double.nearest n 1) (powerOfTen k) = Double.nearest (n * 10 ^ k) 1 := by
  have hpos : 0 < Double.unitsPerOne * Double.unitsPerOne :=
    Nat.mul_pos Double.unitsPerOne_pos Double.unitsPerOne_pos
  rw [timesMagnitude, unitsOf_nearest_small hn, unitsOf_powerOfTen hk,
    ← Double.nearest_mul_right (n * 10 ^ k) 1 hpos, Nat.one_mul, Nat.mul_mul_mul_comm]

/-- So is a quotient. -/
theorem overMagnitude_exact (hn : n < 2 ^ 53) (hk : k ≤ 22) :
    overMagnitude (Double.nearest n 1) (powerOfTen k) = Double.nearest n (10 ^ k) := by
  rw [overMagnitude, unitsOf_nearest_small hn, unitsOf_powerOfTen hk,
    Double.nearest_mul_right _ _ Double.unitsPerOne_pos]

theorem nearest_product_lt_infinity (hn : n < 2 ^ 53) (hk : k ≤ 22) :
    Double.nearest (n * 10 ^ k) 1 < Double.infinity := by
  refine Double.nearest_lt_infinity_of_lt (k := 74) (by decide) ?_
  calc n * 10 ^ k ≤ 2 ^ 53 * 10 ^ 22 :=
        Nat.mul_le_mul hn.le (Nat.pow_le_pow_right (by decide) hk)
    _ < 2 ^ 53 * 2 ^ 74 := by decide

/-- A whole number times a power of ten, as the nearest magnitude. -/
def nearestScaled (n : Nat) (exponent : Int) : Nat :=
  if 0 ≤ exponent then Double.nearest (n * 10 ^ exponent.natAbs) 1
  else Double.nearest n (10 ^ exponent.natAbs)

theorem scaled?_exact {exponent : Int} (hn : n < 2 ^ 53) (he : exponent.natAbs ≤ 22) :
    scaled? n exponent = some (nearestScaled n exponent) := by
  unfold scaled? nearestScaled
  dsimp only
  by_cases hzero : n = 0
  · subst hzero
    have hpow : 0 < 10 ^ exponent.natAbs := Nat.pow_pos (by decide)
    rw [if_pos rfl, Nat.zero_mul, Double.nearest_zero Nat.one_pos, Double.nearest_zero hpow, ite_self]
  · rw [if_neg hzero]
    by_cases hsign : 0 ≤ exponent
    · rw [if_pos hsign, if_pos hsign, if_neg (by omega), timesMagnitude_exact hn he,
        if_pos (nearest_product_lt_infinity hn he)]
    · rw [if_neg hsign, if_neg hsign, if_pos (by omega), overMagnitude_exact hn he]

namespace Numeral

variable {x : Numeral}

/-- The number that the digits make up, the point left out. -/
def coefficient (x : Numeral) : Nat :=
  Nat.ofDigitChars 10 (x.whole ++ x.fraction) 0

/-- With which power of ten this number is multiplied. -/
def scale (x : Numeral) : Int :=
  x.exponent.getD 0 - x.fraction.length

/-- The double nearest to the number that is written. -/
def nearest (x : Numeral) : Double :=
  Double.ofMagnitude x.negative (nearestScaled x.coefficient x.scale)

/-- The digits make up less than `2 ^ 53`, and the power of ten is at most `10 ^ 22`. -/
def IsShort (x : Numeral) : Prop :=
  x.coefficient < 2 ^ 53 ∧ x.scale.natAbs ≤ 22

instance (x : Numeral) : Decidable x.IsShort :=
  inferInstanceAs (Decidable (_ ∧ _))

/-- If all digits fit they all count. -/
theorem double?_of_lt (h : x.coefficient < 2 ^ 64) :
    x.double? = (scaled? x.coefficient x.scale).map (Double.ofMagnitude x.negative) := by
  have hall : Nat.ofDigitChars 10 x.fraction (Nat.ofDigitChars 10 x.whole 0) = x.coefficient :=
    (Nat.ofDigitChars_append ..).symm
  have hwhole : Nat.ofDigitChars 10 x.whole 0 < 2 ^ 64 :=
    Nat.lt_of_le_of_lt (le_ofDigitChars _ x.fraction) (hall.trans_lt h)
  rw [double?, appendDigits_of_lt hwhole]
  dsimp only
  rw [appendDigits_of_lt (hall.trans_lt h), hall]
  simp [scale]

/-- **A short number is read as the nearest double.** -/
theorem double?_of_isShort (h : x.IsShort) : x.double? = some x.nearest := by
  have hlt : x.coefficient < 2 ^ 64 := Nat.lt_trans h.1 (by decide)
  rw [double?_of_lt hlt, scaled?_exact h.1 h.2]
  rfl

/-! ### Integers -/

variable {n : Int64}

/-- An integer is written by its digits, behind a minus if it is negative. -/
def ofInt64 (n : Int64) : Numeral :=
  ⟨decide (n.toInt < 0), Decimal.digits n.toInt.natAbs, [], none⟩

theorem integer?_ofInt64 (n : Int64) : (ofInt64 n).integer? = some n := by
  have hdigits : Nat.ofDigitChars 10 (ofInt64 n).whole 0 = n.toInt.natAbs :=
    Decimal.value_digits n.toInt.natAbs
  rw [integer?_eq_some_iff]
  refine ⟨⟨rfl, rfl, ?_⟩, ?_⟩
  · rw [hdigits, ofInt64, decide_eq_true_eq]
    omega
  · rw [value, hdigits]
    simp only [ofInt64, decide_eq_true_eq]
    split <;> omega

/-! ### Doubles that are written -/

/-- A double is written with the fewest places that suffice, of which there is at least one. -/
def ofDouble (d : Double) : Numeral :=
  let (whole, fraction) := Decimal.splitPoint (Decimal.ofMagnitude d.magnitude)
  ⟨d.isNegative, whole, fraction, none⟩

theorem ofDouble_eq {d : Double} (h : d.isFinite) : ∃ whole fraction, fraction ≠ [] ∧
    ofDouble d = ⟨d.isNegative, whole, fraction, none⟩ ∧
      Double.nearest (Decimal.value (whole ++ fraction)) (10 ^ fraction.length) = d.magnitude := by
  have hfinite : d.magnitude < Double.infinity := by simpa [Double.isFinite] using h
  obtain ⟨whole, fraction, hwhole, hfraction, htext, hnearest⟩ := Decimal.ofMagnitude_eq hfinite
  refine ⟨whole, fraction, hfraction.1, ?_, hnearest⟩
  rw [ofDouble, htext, Decimal.splitPoint_of_digits hwhole.2]

theorem fraction_ofDouble {d : Double} (h : d.isFinite) : (ofDouble d).fraction ≠ [] := by
  obtain ⟨whole, fraction, hfraction, htext, -⟩ := ofDouble_eq h
  rwa [htext]

/-- A double is nearest to what is written for it. -/
theorem nearest_ofDouble {d : Double} (h : d.isFinite) : (ofDouble d).nearest = d := by
  obtain ⟨whole, fraction, hfraction, htext, hnearest⟩ := ofDouble_eq h
  have hpos : 0 < fraction.length := List.length_pos_iff.2 hfraction
  have hscale : scale ⟨d.isNegative, whole, fraction, none⟩ = -fraction.length :=
    Int.zero_sub _
  rw [htext, nearest, hscale, nearestScaled, if_neg (by omega), Int.natAbs_neg, Int.natAbs_natCast]
  exact (congrArg _ hnearest).trans (Double.ofMagnitude_self d)

end Numeral

end Json

end InfluxQL
