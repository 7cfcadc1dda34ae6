import InfluxQL.Proofs.Numeric.Decimal

/-!
# Numbers too large for a double

Rounding carries a fraction to infinity from a certain number on: the midpoint between the greatest
finite double and the power of two behind it.

* `Double.roundHalfEven_lt_iff`: a fraction is rounded to less than an even number below the midpoint
  before it;
* `Double.nearest_lt_infinity_iff`: which fractions are rounded to finite doubles;
* `Decimal.isFinite_double_iff`: which literals stand for finite doubles.
-/

namespace InfluxQL

namespace Double

variable {num den : Nat}

/-- The least number that is rounded to infinity. -/
def overflowBound : Nat :=
  (2 ^ 54 - 1) * 2 ^ 970

/-- Of the two numbers equally near to a midpoint before an even one, this is the one. -/
theorem roundHalfEven_lt_iff {k : Nat} (hd : 0 < den) (hk : k % 2 = 0) :
    roundHalfEven num den < k ↔ 2 * num < (2 * k - 1) * den := by
  have hdiv := Nat.div_add_mod num den
  have hmod := Nat.mod_lt num hd
  obtain ⟨hlow, hhigh⟩ := roundHalfEven_bounds num den
  generalize hq : num / den = q at *
  -- Only right below `k` the remainder matters; as `k` is even, half of the denominator rounds up.
  rcases Nat.lt_trichotomy (q + 1) k with hlt | rfl | hgt
  · refine iff_of_true (by omega) ?_
    calc 2 * num < 2 * (q + 1) * den := by rw [← hdiv]; ring_nf; omega
      _ ≤ (2 * k - 1) * den := Nat.mul_le_mul_right _ (by omega)
  · have hodd : q % 2 = 1 := by omega
    have hround : roundHalfEven num den < q + 1 ↔ 2 * (num % den) < den := by
      simp only [roundHalfEven, hq, hodd]
      split <;> omega
    have hmid : (2 * (q + 1) - 1) * den = 2 * (den * q) + den := by
      rw [show 2 * (q + 1) - 1 = 2 * q + 1 by omega]
      ring
    rw [hround, hmid]
    omega
  · refine iff_of_false (by omega) (Nat.not_lt.2 ?_)
    calc (2 * k - 1) * den ≤ 2 * q * den := Nat.mul_le_mul_right _ (by omega)
      _ = 2 * (den * q) := by ring
      _ ≤ 2 * num := by omega

/-- A quotient is cut down to at most 53 binary digits, and to no fewer where it has more. -/
theorem div_shift_bounds (num den : Nat) {shift : Nat} (h : shift = Nat.log2 (num / den) - 52) :
    num / (den * 2 ^ shift) < 2 ^ 53 ∧ (0 < shift → 2 ^ 52 ≤ num / (den * 2 ^ shift)) := by
  have hp := Nat.two_pow_pos shift
  rw [← Nat.div_div_eq_div_mul]
  constructor
  · rw [Nat.div_lt_iff_lt_mul hp, ← Nat.pow_add]
    exact Nat.lt_of_lt_of_le Nat.lt_log2_self (Nat.pow_le_pow_right (by decide) (by omega))
  · intro hpos
    rw [Nat.le_div_iff_mul_le hp, ← Nat.pow_add, show 52 + shift = Nat.log2 (num / den) by omega]
    refine Nat.log2_self_le fun h₀ => ?_
    rw [h₀, Nat.log2_zero] at h
    omega

/-- Below which number the rounded magnitude stays below a power of two. -/
theorem shifted_lt_iff (num : Nat) (hd : 0 < den) (k : Nat) {shift : Nat}
    (h : shift = Nat.log2 (num / den) - 52) :
    shift * 2 ^ 52 + roundHalfEven num (den * 2 ^ shift) < (k + 3) * 2 ^ 52 ↔
      num < (2 ^ 54 - 1) * 2 ^ k * den := by
  obtain ⟨hsmall, hlarge⟩ := div_shift_bounds num den h
  obtain ⟨hlow, hhigh⟩ := roundHalfEven_bounds num (den * 2 ^ shift)
  have hpos : 0 < den * 2 ^ shift := Nat.mul_pos hd (Nat.two_pow_pos shift)
  -- With a smaller shift the number is below all that matters here, with a larger one beyond it, so
  -- that rounding decides with this shift only.
  rcases Nat.lt_trichotomy shift (k + 1) with hlt | heq | hgt
  · refine iff_of_true (by omega) ?_
    have hmono : 2 ^ shift ≤ 2 ^ k := Nat.pow_le_pow_right (by decide) (by omega)
    calc num < 2 ^ 53 * (den * 2 ^ shift) := (Nat.div_lt_iff_lt_mul hpos).1 hsmall
      _ ≤ (2 ^ 54 - 1) * (den * 2 ^ k) :=
        Nat.mul_le_mul (by decide) (Nat.mul_le_mul_left den hmono)
      _ = (2 ^ 54 - 1) * 2 ^ k * den := by ring
  · have hcarry : shift * 2 ^ 52 + roundHalfEven num (den * 2 ^ shift) < (k + 3) * 2 ^ 52 ↔
        roundHalfEven num (den * 2 ^ shift) < 2 ^ 53 := by
      omega
    have hdouble : (2 * 2 ^ 53 - 1) * (den * 2 ^ shift) = 2 * ((2 ^ 54 - 1) * 2 ^ k * den) := by
      rw [heq, Nat.pow_succ]
      ring
    rw [hcarry, roundHalfEven_lt_iff hpos (by decide), hdouble, Nat.mul_lt_mul_left (by decide)]
  · have hq := hlarge (by omega)
    refine iff_of_false (by omega) (Nat.not_lt.2 ?_)
    have hmono : 2 ^ (k + 2) ≤ 2 ^ shift := Nat.pow_le_pow_right (by decide) hgt
    calc (2 ^ 54 - 1) * 2 ^ k * den ≤ 2 ^ 54 * 2 ^ k * den :=
        Nat.mul_le_mul_right _ (Nat.mul_le_mul_right _ (by decide))
      _ = 2 ^ 52 * (den * 2 ^ (k + 2)) := by rw [Nat.pow_add 2 k 2]; ring
      _ ≤ 2 ^ 52 * (den * 2 ^ shift) := Nat.mul_le_mul_left _ (Nat.mul_le_mul_left den hmono)
      _ ≤ num := (Nat.le_div_iff_mul_le hpos).1 hq

/-- Counted in units, a bound is larger by as many binary digits as there are in a unit. -/
theorem mul_unit_lt_iff {unit a b k : Nat} (bound : Nat) (hu : unit = Nat.pow 2 b)
    (hk : a + b = k) : num * unit < bound * 2 ^ k * den ↔ num < bound * 2 ^ a * den := by
  have hp : 0 < 2 ^ b := Nat.two_pow_pos b
  rw [hu, Nat.pow_eq, ← hk, Nat.pow_add, ← Nat.mul_assoc bound, Nat.mul_right_comm _ (2 ^ b),
    Nat.mul_lt_mul_right hp]

/-- **Which fractions are rounded to finite doubles.** -/
theorem nearest_lt_infinity_iff (hd : 0 < den) :
    nearest num den < infinity ↔ num < overflowBound * den := by
  have hU := unitsPerOne.eq_1
  -- the power is too large to compute
  generalize hb : 1074 = b at hU
  have hrounded := shifted_lt_iff (num * unitsPerOne) hd 2044 rfl
  rw [mul_unit_lt_iff _ hU (show 970 + b = 2044 by omega)] at hrounded
  rw [overflowBound, ← hrounded, nearest_eq, infinity_eq]
  dsimp only
  omega

theorem nearest_le_infinity (num den : Nat) : nearest num den ≤ infinity :=
  Nat.min_le_left ..

theorem infinity_lt : infinity < Nat.pow 2 63 := by
  decide

theorem magnitude_ofFraction (negative : Bool) (num den : Nat) :
    (ofFraction negative num den).magnitude = nearest num den :=
  magnitude_ofMagnitude (Nat.lt_of_le_of_lt (nearest_le_infinity num den) infinity_lt) negative

/-- Rounding never gives a NaN. -/
theorem isNaN_ofFraction (negative : Bool) (num den : Nat) :
    (ofFraction negative num den).isNaN = false := by
  simpa [isNaN, magnitude_ofFraction] using nearest_le_infinity num den

end Double

namespace Decimal

/-- The number that a literal stands for, its sign aside, is less than the bound. -/
def Below (bound : Nat) (literal : List Char) : Prop :=
  let (whole, fraction) := splitPoint (splitSign literal).2
  value (whole ++ fraction) < bound * 10 ^ fraction.length

instance (bound : Nat) (literal : List Char) : Decidable (Below bound literal) :=
  inferInstanceAs (Decidable (value _ < bound * 10 ^ _))

theorem double_eq (literal : List Char) : double literal =
    Double.ofFraction (splitSign literal).1
      (value ((splitPoint (splitSign literal).2).1 ++ (splitPoint (splitSign literal).2).2))
      (10 ^ (splitPoint (splitSign literal).2).2.length) := rfl

/-- **Which literals stand for finite doubles.** -/
theorem isFinite_double_iff (literal : List Char) :
    (double literal).isFinite ↔ Below Double.overflowBound literal := by
  rw [double_eq, Double.isFinite, decide_eq_true_eq, Double.magnitude_ofFraction,
    Double.nearest_lt_infinity_iff (Nat.pow_pos (by decide))]
  exact Iff.rfl

theorem isNaN_double (literal : List Char) : (double literal).isNaN = false := by
  rw [double_eq, Double.isNaN_ofFraction]

/-- The text of a double that is too large. -/
theorem ofDouble_infinite {x : Double} (hf : ¬x.isFinite) (hn : x.isNaN = false) :
    ofDouble x = if x.isNegative then "-inf".toList else "inf".toList := by
  unfold ofDouble
  rw [if_neg (by simp [hn]), if_neg hf]
  rfl

end Decimal

end InfluxQL
