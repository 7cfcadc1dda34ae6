import InfluxQL.Numeric.Decimal
import InfluxQL.Proofs.Numeric.Double

/-!
# Numbers read back from their decimal notation

* `Decimal.integer?_ofInteger`: every integer is read back from its text;
* `Decimal.double_ofDouble`: so is every finite double, bit by bit, the sign of zero included;
* `Decimal.ofInteger_eq`, `Decimal.ofDouble_eq`: what these texts look like.
-/

namespace InfluxQL

namespace Decimal

/-! ### Digits -/

@[simp] theorem value_digits (n : Nat) : value (digits n) = n :=
  Nat.ofDigitChars_ten_toDigits

theorem digits_ne_nil (n : Nat) : digits n ≠ [] :=
  Nat.toDigits_ne_nil

theorem isDigit_of_mem_digits {n : Nat} {c : Char} (h : c ∈ digits n) : c.isDigit :=
  Nat.isDigit_of_mem_toDigits (by decide) (by decide) h

/-- Digits in front count as many times more as there are digits behind. -/
theorem value_append (s t : List Char) : value (s ++ t) = value s * 10 ^ t.length + value t := by
  rw [value, value, value, Nat.ofDigitChars_append,
    Nat.ofDigitChars_eq_ofDigitChars_zero (l := t), Nat.mul_comm]

theorem value_zeros (n : Nat) (s : List Char) : value (List.replicate n '0' ++ s) = value s := by
  rw [value, value, Nat.ofDigitChars_append, Nat.ofDigitChars_replicate_zero, Nat.mul_zero]

/-- A number below a power of ten, filled up with zeros to as many digits as the exponent says. -/
theorem length_padded {places r : Nat} (hp : 0 < places) (hr : r < 10 ^ places) :
    (List.replicate (places - (digits r).length) '0' ++ digits r).length = places := by
  have := (Nat.length_toDigits_le_iff (b := 10) (by decide) hp).2 hr
  rw [List.length_append, List.length_replicate, digits]
  omega

/-! ### Signs and points -/

/-- Text of digits alone, at least one of them. -/
def IsDigits (s : List Char) : Prop :=
  s ≠ [] ∧ ∀ c ∈ s, c.isDigit

theorem isDigits_digits (n : Nat) : IsDigits (digits n) :=
  ⟨digits_ne_nil n, fun _ => isDigit_of_mem_digits⟩

theorem IsDigits.append {s t : List Char} (hs : IsDigits s) (ht : ∀ c ∈ t, c.isDigit) :
    IsDigits (s ++ t) := by
  refine ⟨by simp [hs.1], fun c hc => ?_⟩
  rcases List.mem_append.1 hc with h | h
  · exact hs.2 c h
  · exact ht c h

theorem isDigits_padded (n r : Nat) : IsDigits (List.replicate n '0' ++ digits r) := by
  refine ⟨by simp [digits_ne_nil], fun c hc => ?_⟩
  rcases List.mem_append.1 hc with h | h
  · rw [List.eq_of_mem_replicate h]
    rfl
  · exact isDigit_of_mem_digits h

theorem splitSign_negative (s : List Char) : splitSign ('-' :: s) = (true, s) := rfl

theorem splitSign_digits {s : List Char} (h : IsDigits s) (t : List Char) :
    splitSign (s ++ t) = (false, s ++ t) := by
  cases s with
  | nil => exact absurd rfl h.1
  | cons c s =>
    have hc := h.2 c (List.mem_cons_self ..)
    unfold splitSign
    split
    · next he =>
      cases he
      exact absurd hc (by decide)
    · next he =>
      cases he
      exact absurd hc (by decide)
    · rfl

theorem splitPoint_of_digits {s : List Char} (h : ∀ c ∈ s, c.isDigit) (t : List Char) :
    splitPoint (s ++ '.' :: t) = (s, t) := by
  have hs : ∀ c ∈ s, (c != '.') = true := by
    intro c hc
    have := h c hc
    rw [bne_iff_ne]
    rintro rfl
    exact absurd this (by decide)
  simp [splitPoint, List.takeWhile_append_of_pos hs, List.dropWhile_append_of_pos hs]

/-! ### Integers -/

/-- An integer is written in digits, behind a minus if it is negative. -/
theorem ofInteger_eq (n : Int64) :
    ∃ s, IsDigits s ∧ (ofInteger n = s ∨ ofInteger n = '-' :: s) := by
  refine ⟨_, isDigits_digits n.toInt.natAbs, ?_⟩
  unfold ofInteger
  split
  · exact .inr rfl
  · exact .inl rfl

/-- Every integer is read back from its text. -/
theorem integer?_ofInteger (n : Int64) : integer? (ofInteger n) = some n := by
  have hlow := n.minValue_le_toInt
  have hhigh := n.toInt_le
  unfold ofInteger
  split
  · next hn =>
    rw [integer?, splitSign_negative]
    have hv : -(n.toInt.natAbs : Int) = n.toInt := by omega
    simp only [if_true, value_digits, hv]
    rw [if_pos ⟨hlow, hhigh⟩, Int64.ofInt_toInt]
  · next hn =>
    have hs := splitSign_digits (isDigits_digits n.toInt.natAbs) []
    rw [List.append_nil] at hs
    rw [integer?, hs]
    have hv : (n.toInt.natAbs : Int) = n.toInt := by omega
    simp only [Bool.false_eq_true, if_false, value_digits, hv]
    rw [if_pos ⟨hlow, hhigh⟩, Int64.ofInt_toInt]

/-! ### Doubles -/

theorem withPoint_eq (places n : Nat) : withPoint places n =
    digits (n / 10 ^ places) ++ '.' :: (List.replicate
      (places - (digits (n % 10 ^ places)).length) '0' ++ digits (n % 10 ^ places)) := rfl

/-- What is found on a grid reads back as the magnitude. -/
theorem nearest_of_onGrid {m units low scale n : Nat} (h : onGrid m units low scale = some n) :
    Double.nearest n scale = m := by
  unfold onGrid at h
  split_ifs at h with h₁ h₂ h₂ <;> cases h
  · exact h₂.1
  · exact h₁
  · exact h₂

/-- The digits with the fewest places read back as the magnitude. -/
theorem nearest_shortest {m : Nat} (hm : m < Double.infinity) :
    Double.nearest (shortest m).2 (10 ^ (shortest m).1) = m := by
  have hU := Double.unitsPerOne.eq_1
  rw [shortest]
  -- nothing below depends on how many places there may be, and the powers are too large to compute
  generalize 1074 = e at hU ⊢
  dsimp only
  generalize hf : List.findSome? _ _ = found
  cases found with
  | some pn =>
    obtain ⟨places, -, hp⟩ := List.exists_of_findSome?_eq_some hf
    obtain ⟨n, hn, rfl⟩ := Option.map_eq_some_iff.1 hp
    rw [Option.getD_some]
    exact nearest_of_onGrid hn
  | none =>
    rw [Option.getD_none]
    refine Double.nearest_of_exact hm (Nat.pow_pos (by decide)) ?_
    rw [hU, Nat.pow_eq, Nat.pow_eq, Nat.mul_assoc, ← Nat.mul_pow, Nat.mul_comm]

/-- There are decimal places unless the magnitude is whole. -/
theorem shortest_places_pos {m : Nat} (hm : m < Double.infinity)
    (hw : ¬Double.unitsPerOne ∣ Double.unitsOf m) : 0 < (shortest m).1 := by
  refine Nat.pos_of_ne_zero fun h₀ => hw ?_
  have h := nearest_shortest hm
  rw [h₀, Nat.pow_zero] at h
  exact Double.unitsPerOne_dvd_of_nearest hm h

theorem ofMagnitude_of_dvd {m : Nat} (h : Double.unitsPerOne ∣ Double.unitsOf m) :
    ofMagnitude m = digits (Double.unitsOf m / Double.unitsPerOne) ++ ['.', '0'] := by
  unfold ofMagnitude
  exact if_pos (Nat.mod_eq_zero_of_dvd h)

theorem ofMagnitude_of_not_dvd {m : Nat} (h : ¬Double.unitsPerOne ∣ Double.unitsOf m) :
    ofMagnitude m = withPoint (shortest m).1 (shortest m).2 := by
  unfold ofMagnitude
  obtain ⟨places, n⟩ := shortest m
  exact if_neg fun hm => h (Nat.dvd_of_mod_eq_zero hm)

/-- The text of a finite magnitude: digits on both sides of a point, which read back. -/
theorem ofMagnitude_eq {m : Nat} (hm : m < Double.infinity) :
    ∃ whole fraction, IsDigits whole ∧ IsDigits fraction ∧
      ofMagnitude m = whole ++ '.' :: fraction ∧
      Double.nearest (value (whole ++ fraction)) (10 ^ fraction.length) = m := by
  by_cases hw : Double.unitsPerOne ∣ Double.unitsOf m
  · rw [ofMagnitude_of_dvd hw]
    refine ⟨_, ['0'], isDigits_digits _, ⟨by simp, by simp⟩, rfl, ?_⟩
    refine Double.nearest_of_exact hm (by simp) ?_
    obtain ⟨k, hk⟩ := hw
    rw [hk, Nat.mul_div_cancel_left _ Double.unitsPerOne_pos, value_append, value_digits]
    simp only [List.length_singleton, show value ['0'] = 0 from rfl]
    ring
  · rw [ofMagnitude_of_not_dvd hw, withPoint_eq]
    have hn := nearest_shortest hm
    have hp := shortest_places_pos hm hw
    generalize shortest m = pn at hn hp ⊢
    obtain ⟨places, n⟩ := pn
    dsimp only at hn hp ⊢
    have hr : n % 10 ^ places < 10 ^ places := Nat.mod_lt n (Nat.pow_pos (by decide))
    have hl := length_padded hp hr
    refine ⟨_, _, isDigits_digits _, isDigits_padded _ _, rfl, ?_⟩
    rw [value_append, value_zeros, value_digits, value_digits, hl, Nat.mul_comm, Nat.div_add_mod]
    exact hn

/-- A finite double is written in digits with a point between them, behind a minus if it is
negative. -/
theorem ofDouble_eq {x : Double} (hx : x.isFinite) :
    ∃ whole fraction, IsDigits whole ∧ IsDigits fraction ∧
      (ofDouble x = whole ++ '.' :: fraction ∨ ofDouble x = '-' :: (whole ++ '.' :: fraction)) := by
  obtain ⟨whole, fraction, hw, hf, he, -⟩ := ofMagnitude_eq (m := x.magnitude) (by
    simpa [Double.isFinite] using hx)
  refine ⟨whole, fraction, hw, hf, ?_⟩
  unfold ofDouble
  rw [if_neg (by simp [Double.not_isNaN_of_isFinite hx]), if_pos hx, he]
  dsimp only
  split_ifs
  · exact .inr rfl
  · exact .inl rfl

/-- **Every finite double is read back from its text.** -/
theorem double_ofDouble {x : Double} (hx : x.isFinite) : double (ofDouble x) = x := by
  obtain ⟨whole, fraction, hw, hf, he, hn⟩ := ofMagnitude_eq (m := x.magnitude) (by
    simpa [Double.isFinite] using hx)
  have hsign : splitSign (ofDouble x) = (x.isNegative, whole ++ '.' :: fraction) := by
    unfold ofDouble
    rw [if_neg (by simp [Double.not_isNaN_of_isFinite hx]), if_pos hx, he]
    dsimp only
    split_ifs with hs
    · rw [splitSign_negative, hs]
    · rw [splitSign_digits hw, eq_false_of_ne_true hs]
  rw [double, hsign]
  dsimp only
  rw [splitPoint_of_digits hw.2, Nat.pow_eq, Double.ofFraction, hn, Double.ofMagnitude_self]

end Decimal

end InfluxQL
