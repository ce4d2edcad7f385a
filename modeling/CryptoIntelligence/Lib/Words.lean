/-
  Machine words. A checked operation of the source is the exact result brought back into the word
  (`toU64`, `toI64`), which fails exactly when the result is out of its range. `UInt32` and `UInt64`
  have no lattice instance; two rules tell the automation their maximum.
-/
import Mathlib

namespace CryptoIntelligence.Lib

@[grind =]
theorem max_uint32 (a b : UInt32) : max a b = if a ≤ b then b else a := rfl

@[grind =]
theorem max_uint64 (a b : UInt64) : max a b = if a ≤ b then b else a := rfl

theorem le_max_uint64 (a b : UInt64) : a ≤ max a b ∧ b ≤ max a b := by
  rw [max_uint64]
  split
  · rename_i h
    exact ⟨h, UInt64.le_refl b⟩
  · rename_i h
    exact ⟨UInt64.le_refl a, UInt64.le_of_lt (UInt64.not_le.mp h)⟩

theorem toInt_min (a b : Int64) : (min a b).toInt = min a.toInt b.toInt := by
  have hmin : min a b = if a ≤ b then a else b := rfl
  rw [hmin]
  split
  · rename_i hle
    exact (min_eq_left (Int64.le_iff_toInt_le.mp hle)).symm
  · rename_i hnle
    exact (min_eq_right (Int64.le_iff_toInt_le.not.mp hnle |> not_le.mp |>.le)).symm

theorem toInt_max (a b : Int64) : (max a b).toInt = max a.toInt b.toInt := by
  have hmax : max a b = if a ≤ b then b else a := rfl
  rw [hmax]
  split
  · rename_i hle
    exact (max_eq_right (Int64.le_iff_toInt_le.mp hle)).symm
  · rename_i hnle
    exact (max_eq_left (Int64.le_iff_toInt_le.not.mp hnle |> not_le.mp |>.le)).symm

/-! ## Checked results -/

@[irreducible] def toU64 (value : Nat) : Option UInt64 :=
  if value ≤ 18446744073709551615 then some (UInt64.ofNat value) else none

@[irreducible] def toI64 (value : Int) : Option Int64 :=
  if -9223372036854775808 ≤ value ∧ value ≤ 9223372036854775807 then some (Int64.ofInt value)
  else none

/-- `current.checked_add(1)`. -/
def checkedNext (current : UInt64) : Option UInt64 :=
  if current.toNat + 1 < 2 ^ 64 then some (current + 1) else none

theorem checkedNext_eq_some {current next : UInt64}
    (h : checkedNext current = some next) : next.toNat = current.toNat + 1 := by
  unfold checkedNext at h
  split at h
  · rename_i hlt
    rw [← Option.some.inj h, UInt64.toNat_add]
    exact Nat.mod_eq_of_lt hlt
  · cases h

theorem toU64_eq_some {value : Nat} {word : UInt64} :
    toU64 value = some word ↔ word.toNat = value := by
  unfold toU64
  constructor
  · intro h
    split at h
    · rename_i hlt
      cases h
      exact UInt64.toNat_ofNat_of_lt' (Nat.lt_succ_of_le hlt)
    · cases h
  · rintro rfl
    rw [if_pos (Nat.le_of_lt_succ word.toNat_lt), UInt64.ofNat_toNat]

theorem toU64_eq_none {value : Nat} : toU64 value = none ↔ 2 ^ 64 ≤ value := by
  unfold toU64
  split <;> simp <;> omega

theorem toI64_eq_some {value : Int} {word : Int64} :
    toI64 value = some word ↔ word.toInt = value := by
  unfold toI64
  constructor
  · intro h
    split at h
    · rename_i hrange
      cases h
      exact Int64.toInt_ofInt_of_le hrange.1 (Int.lt_add_one_of_le hrange.2)
    · cases h
  · rintro rfl
    rw [if_pos ⟨word.le_toInt, Int.le_of_lt_add_one word.toInt_lt⟩, Int64.ofInt_toInt]

theorem exists_toI64 {value : Int} (hlow : -2 ^ 63 ≤ value) (hhigh : value < 2 ^ 63) :
    ∃ word, toI64 value = some word ∧ word.toInt = value := by
  have hsome : toI64 value = some (Int64.ofInt value) := by
    unfold toI64
    exact if_pos ⟨hlow, Int.le_of_lt_add_one hhigh⟩
  exact ⟨Int64.ofInt value, hsome, toI64_eq_some.mp hsome⟩

end CryptoIntelligence.Lib
