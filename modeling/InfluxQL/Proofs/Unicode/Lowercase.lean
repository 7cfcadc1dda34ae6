import InfluxQL.Unicode.Lowercase
import Mathlib.Tactic.SplitIfs

/-!
# Lower case is idempotent

The lower case of a text consists of characters that are their own lower case wherever they stand
(`IsLower`), so that taking the lower case twice is the same as taking it once. For the characters
of the table this is a property of any two of its runs: the forms that the one run gives are none
of those that the other describes (`CaseRun.Avoids`).
-/

namespace InfluxQL.Unicode

/-! ### Runs of the table -/

namespace CaseRun

/-- The lower-case form of the first code point that a run describes. -/
def lowest (r : CaseRun) : Nat :=
  ((r.first : Int) + r.shift).toNat

/-- The lower-case form of the last code point that a run describes. -/
def highest (r : CaseRun) : Nat :=
  ((r.last : Int) + r.shift).toNat

/-- No form that the run `r` gives is described by the run `q`: all of them lie on one side of it,
or they are the odd numbers where `q` has the even ones, or the other way round. -/
def avoids (r q : CaseRun) : Bool :=
  Nat.blt r.highest q.first || Nat.blt q.last r.lowest ||
    ((r.step == 2 || r.first == r.last) && q.step == 2 && Nat.blt 0 r.lowest &&
      (r.lowest + q.first) % 2 == 1)

theorem shifted?_eq_some {r : CaseRun} {n m : Nat} (h : r.shifted? n = some m) :
    r.first ≤ n ∧ n ≤ r.last ∧ (n - r.first) % r.step = 0 ∧ m = ((n : Int) + r.shift).toNat := by
  unfold shifted? at h
  split at h
  · next hn =>
    cases h
    exact ⟨hn.1, hn.2.1, hn.2.2, rfl⟩
  · cases h

theorem shifted?_eq_none_of_avoids {r q : CaseRun} (h : r.avoids q) {n m : Nat}
    (hm : r.shifted? n = some m) : q.shifted? m = none := by
  obtain ⟨hfirst, hlast, hstep, rfl⟩ := shifted?_eq_some hm
  unfold shifted?
  rw [if_neg]
  rintro ⟨hq₁, hq₂, hq₃⟩
  simp only [avoids, lowest, highest, Bool.or_eq_true, Bool.and_eq_true, Nat.blt_eq,
    beq_iff_eq] at h
  rcases h with (h | h) | ⟨⟨⟨h | h, hq⟩, hpos⟩, hpar⟩
  · omega
  · omega
  · rw [h] at hstep
    rw [hq] at hq₃
    omega
  · rw [hq] at hq₃
    omega

end CaseRun

/-- No form that the table gives has a lower-case form in the table. -/
theorem avoids_of_mem_runs : ∀ r ∈ lowercaseRuns, ∀ q ∈ lowercaseRuns, r.avoids q := by
  decide +kernel

/-- The forms that the table gives are characters, but neither the capital sigma nor the capital
dotted `I`, and of the ASCII characters only small letters. -/
theorem forms_of_mem_runs : ∀ r ∈ lowercaseRuns,
    (0x80 ≤ r.lowest ∨ 0x61 ≤ r.lowest ∧ r.highest ≤ 0x7A) ∧
      (r.highest < 0x130 ∨ 0x130 < r.lowest) ∧ (r.highest < 0x3A3 ∨ 0x3A3 < r.lowest) ∧
      (r.highest < 0xD800 ∨ 0xDFFF < r.lowest) ∧ r.highest < 0x110000 := by
  decide +kernel

/-! ### Characters -/

/-- The character is its own lower case, whatever stands around it. -/
def IsLower (c : Char) : Prop :=
  c ≠ 'Σ' ∧ c ≠ 'İ' ∧ lowerChar c = c

instance (c : Char) : Decidable (IsLower c) :=
  inferInstanceAs (Decidable (_ ∧ _ ∧ _))

theorem isLower_toLower_ofNat : ∀ n < 0x80, IsLower (Char.ofNat n).toLower := by
  decide +kernel

theorem toLower_ofNat_small :
    ∀ n < 0x7B, 0x61 ≤ n → (Char.ofNat n).toLower = Char.ofNat n := by
  decide +kernel

theorem isLower_toLower {c : Char} (h : c.toNat < 0x80) : IsLower c.toLower := by
  simpa using isLower_toLower_ofNat c.toNat h

/-- What the table gives is its own lower case. -/
theorem isLower_of_shifted? {r : CaseRun} (hr : r ∈ lowercaseRuns) {n m : Nat}
    (h : r.shifted? n = some m) : IsLower (Char.ofNat m) := by
  obtain ⟨hascii, hI, hS, hsurr, hmax⟩ := forms_of_mem_runs r hr
  obtain ⟨hfirst, hlast, -, hm⟩ := CaseRun.shifted?_eq_some h
  have hlow : r.lowest ≤ m := by unfold CaseRun.lowest; omega
  have hhigh : m ≤ r.highest := by unfold CaseRun.highest; omega
  have hv : (Char.ofNat m).toNat = m := by
    have hvalid : m.isValidChar := by
      rcases hsurr with hs | hs
      · exact .inl (by omega)
      · exact .inr ⟨by omega, by omega⟩
    rw [Char.ofNat, dif_pos hvalid]
    rfl
  refine ⟨fun he => ?_, fun he => ?_, ?_⟩
  · have : m = 0x3A3 := hv.symm.trans (congrArg Char.toNat he)
    omega
  · have : m = 0x130 := hv.symm.trans (congrArg Char.toNat he)
    omega
  · unfold lowerChar
    rw [hv]
    split
    · exact toLower_ofNat_small m (by omega) (by omega)
    · have : lowercaseRuns.findSome? (·.shifted? m) = none :=
        List.findSome?_eq_none_iff.2 fun q hq =>
          CaseRun.shifted?_eq_none_of_avoids (avoids_of_mem_runs r hr q hq) h
      rw [this]
      rfl

theorem isLower_lowerChar {c : Char} (hS : c ≠ 'Σ') (hI : c ≠ 'İ') : IsLower (lowerChar c) := by
  unfold lowerChar
  split
  · next h => exact isLower_toLower h
  · next h =>
    cases hf : lowercaseRuns.findSome? (·.shifted? c.toNat) with
    | none =>
      rw [Option.map_none, Option.getD_none]
      refine ⟨hS, hI, ?_⟩
      rw [lowerChar, if_neg h, hf]
      rfl
    | some m =>
      obtain ⟨r, hr, hm⟩ := List.exists_of_findSome?_eq_some hf
      exact isLower_of_shifted? hr hm

/-! ### Texts -/

theorem isLower_of_mem_lowerBetween {before after : List Char} {c d : Char}
    (h : d ∈ lowerBetween before c after) : IsLower d := by
  unfold lowerBetween at h
  split_ifs at h with hS hs hI
  · rw [List.mem_singleton.1 h]
    decide +kernel
  · rw [List.mem_singleton.1 h]
    decide +kernel
  · rcases List.mem_cons.1 h with rfl | h
    · decide +kernel
    · rw [List.mem_singleton.1 h]
      decide +kernel
  · rw [List.mem_singleton.1 h]
    exact isLower_lowerChar hS hI

theorem isLower_of_mem_lowercaseAfter {before text : List Char} {d : Char}
    (h : d ∈ lowercaseAfter before text) : IsLower d := by
  induction text generalizing before with
  | nil => cases h
  | cons c rest ih =>
    rcases List.mem_append.1 h with h | h
    · exact isLower_of_mem_lowerBetween h
    · exact ih h

theorem lowercaseAfter_of_isLower {text : List Char} (h : ∀ c ∈ text, IsLower c)
    (before : List Char) : lowercaseAfter before text = text := by
  induction text generalizing before with
  | nil => rfl
  | cons c rest ih =>
    obtain ⟨hS, hI, hc⟩ := h c (List.mem_cons_self ..)
    rw [lowercaseAfter, lowerBetween, if_neg hS, if_neg hI, hc,
      ih fun d hd => h d (List.mem_cons_of_mem _ hd)]
    rfl

/-- **Taking the lower case of a lower case changes nothing.** -/
theorem lowercase_lowercase (text : List Char) : lowercase (lowercase text) = lowercase text :=
  lowercaseAfter_of_isLower (fun _ h => isLower_of_mem_lowercaseAfter h) []

end InfluxQL.Unicode
