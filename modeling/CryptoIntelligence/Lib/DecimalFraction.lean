/-
  Decimal fractions `m / 10 ^ s` of an integer `m`. A form is canonical when its scale is zero or
  ten does not divide `m`.

  What is proved: a canonical form has the least scale of all forms of its value
  (`canonical_scale_le`), so a value has one canonical form (`canonical_unique`).
-/
import Mathlib

namespace CryptoIntelligence.Lib

/-- No redundant fractional zero. -/
def Canonical (m : Int) (s : Nat) : Prop := s = 0 ∨ ¬ (10 : Int) ∣ m

variable {m m' : Int} {s s' : Nat}

theorem fraction_eq_iff :
    (m : ℚ) / 10 ^ s = m' / 10 ^ s' ↔ m * 10 ^ s' = m' * 10 ^ s := by
  rw [div_eq_div_iff (by positivity) (by positivity)]
  exact_mod_cast Iff.rfl

theorem fraction_scale_up (m : Int) (s k : Nat) :
    ((m * 10 ^ k : Int) : ℚ) / 10 ^ (s + k) = m / 10 ^ s :=
  fraction_eq_iff.mpr (by ring)

theorem canonical_scale_le (h : Canonical m s)
    (heq : (m : ℚ) / 10 ^ s = m' / 10 ^ s') : s ≤ s' := by
  rcases h with rfl | hdvd
  · exact Nat.zero_le s'
  · by_contra hlt
    obtain ⟨k, rfl⟩ := Nat.exists_eq_add_of_lt (not_le.mp hlt)
    -- the larger scale leaves a ten in `m`
    have hcross := fraction_eq_iff.mp heq
    have hm : m = m' * 10 ^ (k + 1) := by
      apply mul_right_cancel₀ (b := (10 : Int) ^ s') (by positivity)
      rw [hcross]
      ring
    exact hdvd ⟨m' * 10 ^ k, by rw [hm]; ring⟩

theorem canonical_unique (h : Canonical m s) (h' : Canonical m' s')
    (heq : (m : ℚ) / 10 ^ s = m' / 10 ^ s') : m = m' ∧ s = s' := by
  obtain rfl : s = s' := le_antisymm (canonical_scale_le h heq) (canonical_scale_le h' heq.symm)
  exact ⟨mul_right_cancel₀ (by positivity) (fraction_eq_iff.mp heq), rfl⟩

end CryptoIntelligence.Lib
