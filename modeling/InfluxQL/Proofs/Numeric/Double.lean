import InfluxQL.Numeric.Double
import Mathlib.Tactic.Ring

/-!
# Rounding leaves doubles as they are

* `Double.nearest_of_exact`: a fraction that is exactly a finite double is rounded to it;
* `Double.unitsPerOne_dvd_of_nearest`: a finite double to which a whole number is rounded is whole;
* `Double.ofMagnitude_self`: a double is given by its sign and its magnitude.
-/

namespace InfluxQL

namespace Double

/-! ### The definitions, with powers written as such -/

theorem infinity_eq : infinity = 2047 * 2 ^ 52 := rfl

theorem isNegative_eq (x : Double) : x.isNegative = decide (2 ^ 63 ≤ x.bits.toNat) := rfl

theorem magnitude_eq (x : Double) : x.magnitude = x.bits.toNat % 2 ^ 63 := rfl

theorem ofMagnitude_eq (negative : Bool) (m : Nat) :
    ofMagnitude negative m = ⟨UInt64.ofNat (m + if negative then 2 ^ 63 else 0)⟩ := rfl

theorem unitsOf_eq (m : Nat) : unitsOf m =
    if m / 2 ^ 52 = 0 then m else (2 ^ 52 + m % 2 ^ 52) * 2 ^ (m / 2 ^ 52 - 1) := rfl

theorem nearest_eq (num den : Nat) : nearest num den =
    let shift := Nat.log2 (num * unitsPerOne / den) - 52
    min infinity (shift * 2 ^ 52 + roundHalfEven (num * unitsPerOne) (den * 2 ^ shift)) := rfl

/-! ### Sign and magnitude -/

/-- A double is given by its sign and its magnitude. -/
theorem ofMagnitude_self (x : Double) : ofMagnitude x.isNegative x.magnitude = x := by
  obtain ⟨bits⟩ := x
  have hb := bits.toNat_lt
  have hs : bits.toNat % 2 ^ 63 + (if 2 ^ 63 ≤ bits.toNat then 2 ^ 63 else 0) = bits.toNat := by
    split <;> omega
  simp only [ofMagnitude_eq, magnitude_eq, isNegative_eq, decide_eq_true_eq, hs, UInt64.ofNat_toNat]

theorem not_isNaN_of_isFinite {x : Double} (h : x.isFinite) : x.isNaN = false := by
  simp only [isFinite, isNaN, decide_eq_true_eq, decide_eq_false_iff_not] at *
  omega

/-! ### Units -/

theorem unitsPerOne_pos : 0 < unitsPerOne := by
  have hU := unitsPerOne.eq_1
  generalize 1074 = n at hU
  rw [hU]
  exact Nat.two_pow_pos n

/-- The value of a magnitude that is put together from an exponent and 53 binary digits. A carry
into the digit above these belongs to the next exponent. -/
theorem unitsOf_carry {shift r : Nat} (h₁ : 2 ^ 52 ≤ r) (h₂ : r ≤ 2 ^ 53) :
    unitsOf (shift * 2 ^ 52 + r) = r * 2 ^ shift := by
  rcases Nat.lt_or_eq_of_le h₂ with hr | rfl
  · have hd : (shift * 2 ^ 52 + r) / 2 ^ 52 = shift + 1 := by omega
    have hm : 2 ^ 52 + (shift * 2 ^ 52 + r) % 2 ^ 52 = r := by omega
    rw [unitsOf_eq, hd, if_neg (by omega), hm, Nat.add_sub_cancel]
  · have hd : (shift * 2 ^ 52 + 2 ^ 53) / 2 ^ 52 = shift + 2 := by omega
    have hm : 2 ^ 52 + (shift * 2 ^ 52 + 2 ^ 53) % 2 ^ 52 = 2 ^ 52 := by omega
    rw [unitsOf_eq, hd, if_neg (by omega), hm, show shift + 2 - 1 = shift + 1 by omega, Nat.pow_succ]
    ring

/-- Cutting the value of a magnitude down to 53 binary digits loses nothing, and gives the
magnitude back. -/
theorem unitsOf_shift (m : Nat) : ∃ shift, Nat.log2 (unitsOf m) - 52 = shift ∧
    2 ^ shift ∣ unitsOf m ∧ shift * 2 ^ 52 + unitsOf m / 2 ^ shift = m := by
  by_cases he : m / 2 ^ 52 = 0
  · have hu : unitsOf m = m := by rw [unitsOf_eq, if_pos he]
    have hs : Nat.log2 m - 52 = 0 := by
      rcases Nat.eq_zero_or_pos m with rfl | hm
      · simp
      · have := (Nat.log2_lt (k := 52) (by omega : m ≠ 0)).2 (by omega)
        omega
    exact ⟨0, by rw [hu, hs], by simp, by simp [hu]⟩
  · have hu : unitsOf m = (2 ^ 52 + m % 2 ^ 52) * 2 ^ (m / 2 ^ 52 - 1) := by
      rw [unitsOf_eq, if_neg he]
    have hp := Nat.two_pow_pos (m / 2 ^ 52 - 1)
    have hl : Nat.log2 (unitsOf m) = 52 + (m / 2 ^ 52 - 1) := by
      rw [hu, Nat.log2_eq_iff (Nat.mul_ne_zero (by omega) hp.ne')]
      constructor
      · rw [Nat.pow_add]
        exact Nat.mul_le_mul_right _ (by omega)
      · rw [show 52 + (m / 2 ^ 52 - 1) + 1 = 53 + (m / 2 ^ 52 - 1) by omega, Nat.pow_add]
        exact Nat.mul_lt_mul_of_pos_right (by omega) hp
    refine ⟨m / 2 ^ 52 - 1, by omega, hu ▸ Nat.dvd_mul_left .., ?_⟩
    rw [hu, Nat.mul_div_cancel _ hp]
    omega

/-! ### Rounding -/

theorem roundHalfEven_of_dvd {num den : Nat} (h : den ∣ num) :
    roundHalfEven num den = num / den := by
  rcases Nat.eq_zero_or_pos den with rfl | hd
  · simp [roundHalfEven, Nat.eq_zero_of_zero_dvd h]
  · rw [roundHalfEven, if_pos (.inl (by rw [Nat.mod_eq_zero_of_dvd h]; omega))]

theorem roundHalfEven_bounds (num den : Nat) :
    num / den ≤ roundHalfEven num den ∧ roundHalfEven num den ≤ num / den + 1 := by
  simp only [roundHalfEven]
  split <;> omega

/-- A fraction that is exactly a finite magnitude is rounded to it. -/
theorem nearest_of_exact {m num den : Nat} (hm : m < infinity) (hd : 0 < den)
    (h : num * unitsPerOne = den * unitsOf m) : nearest num den = m := by
  obtain ⟨shift, hs, hdvd, hsum⟩ := unitsOf_shift m
  simp only [nearest_eq, h, Nat.mul_div_cancel_left _ hd, hs]
  rw [roundHalfEven_of_dvd (Nat.mul_dvd_mul_left den hdvd), Nat.mul_div_mul_left _ _ hd, hsum]
  exact Nat.min_eq_right hm.le

/-- The magnitude to which a whole number is rounded is whole, unless it is infinite. -/
theorem unitsPerOne_dvd_of_nearest {k m : Nat} (hm : m < infinity) (h : nearest k 1 = m) :
    unitsPerOne ∣ unitsOf m := by
  rcases Nat.eq_zero_or_pos k with rfl | hk
  · have : m = 0 := by simpa [nearest_eq, roundHalfEven, infinity_eq] using h.symm
    subst this
    simp [unitsOf_eq]
  · have hkU : k * unitsPerOne ≠ 0 := Nat.mul_ne_zero hk.ne' unitsPerOne_pos.ne'
    have hlog : 1074 ≤ Nat.log2 (k * unitsPerOne) := by
      have hU := unitsPerOne.eq_1
      rw [Nat.le_log2 hkU]
      generalize 1074 = n at hU ⊢
      rw [hU]
      exact Nat.le_mul_of_pos_left _ hk
    obtain ⟨shift, hshift⟩ : ∃ shift, Nat.log2 (k * unitsPerOne) = shift + 52 :=
      ⟨Nat.log2 (k * unitsPerOne) - 52, by omega⟩
    have hp := Nat.two_pow_pos shift
    have hlow := Nat.log2_self_le hkU
    have hhigh := Nat.lt_log2_self (n := k * unitsPerOne)
    rw [hshift, Nat.pow_add] at hlow
    rw [hshift, show shift + 52 + 1 = shift + 53 by omega, Nat.pow_add] at hhigh
    have hr := roundHalfEven_bounds (k * unitsPerOne) (2 ^ shift)
    have hq₁ : 2 ^ 52 ≤ k * unitsPerOne / 2 ^ shift :=
      (Nat.le_div_iff_mul_le hp).2 (by rwa [Nat.mul_comm])
    have hq₂ : k * unitsPerOne / 2 ^ shift < 2 ^ 53 :=
      Nat.div_lt_of_lt_mul hhigh
    simp only [nearest_eq, Nat.div_one, Nat.one_mul, hshift, Nat.add_sub_cancel] at h
    have hm' : m = shift * 2 ^ 52 + roundHalfEven (k * unitsPerOne) (2 ^ shift) := by omega
    rw [hm', unitsOf_carry (by omega) (by omega)]
    have hU := unitsPerOne.eq_1
    generalize 1074 = e at hU
    rw [Nat.pow_eq] at hU
    rcases Nat.le_total e shift with hs | hs
    · have hdvd : unitsPerOne ∣ 2 ^ shift := hU ▸ Nat.pow_dvd_pow 2 hs
      exact Nat.dvd_mul_left_of_dvd hdvd _
    · have hdvd : 2 ^ shift ∣ k * unitsPerOne :=
        Nat.dvd_mul_left_of_dvd (hU ▸ Nat.pow_dvd_pow 2 hs) _
      rw [roundHalfEven_of_dvd hdvd, Nat.div_mul_cancel hdvd]
      exact Nat.dvd_mul_left ..

end Double

end InfluxQL
