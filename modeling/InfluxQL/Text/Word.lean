/-!
# Bare words

A bare word is an ASCII letter or an underscore, followed by ASCII letters, digits and
underscores.
-/

namespace InfluxQL

/-- May a bare word begin with this character? -/
def isWordStart (c : Char) : Bool :=
  c.isAlpha || c == '_'

/-- May a bare word go on with this character? -/
def isWordPart (c : Char) : Bool :=
  c.isAlphanum || c == '_'

/-- The bare words. -/
def isWord : List Char → Bool
  | [] => false
  | c :: rest => isWordStart c && rest.all isWordPart

theorem isWordPart_of_isWordStart {c : Char} (h : isWordStart c) : isWordPart c := by
  simp only [isWordStart, isWordPart, Char.isAlphanum, Bool.or_eq_true] at *
  rcases h with h | h <;> simp [h]

theorem not_isWordStart_of_isDigit {c : Char} (h : c.isDigit) : isWordStart c = false := by
  simp only [Char.isDigit, Bool.and_eq_true, decide_eq_true_eq] at h
  have h_ : c ≠ '_' := by
    rintro rfl
    exact absurd h.2 (by decide)
  have h9 : c.val.toNat ≤ 57 := h.2
  have hupper : ¬(c.val ≥ 'A'.val ∧ c.val ≤ 'Z'.val) := fun hc => by
    have hA : 65 ≤ c.val.toNat := hc.1
    omega
  have hlower : ¬(c.val ≥ 'a'.val ∧ c.val ≤ 'z'.val) := fun hc => by
    have ha : 97 ≤ c.val.toNat := hc.1
    omega
  have hletter : c.isAlpha = false := Bool.or_eq_false_iff.2
    ⟨decide_eq_false hupper, (Bool.decide_and _ _).symm.trans (decide_eq_false hlower)⟩
  rw [isWordStart, hletter, Bool.false_or]
  exact beq_false_of_ne h_

end InfluxQL
