/-
  Canonical signed fixed-point decimals (`fixed-decimal`): an `i128` mantissa and a scale of at
  most 38 fractional digits, with no redundant fractional zero. The structure carries that
  canonical form, so a decimal that `new` could not return cannot be built.

  The order of the code aligns the two scales with checked multiplications and, when that
  overflows `i128`, compares padded digit strings. What is proved: on every pair it is the order
  of the exact rational values (`cmp_eq_compare_toRat`), and equal values are equal structures
  (`toRat_injective`), so the decimals can key an ordered map.
-/
import CryptoIntelligence.Lib.DecimalFraction
import CryptoIntelligence.Lib.DecimalText

namespace CryptoIntelligence.Decimal

open Lib

/-! ## `i128` and errors -/

def i128Min : Int := -(2 ^ 127)

def i128Max : Int := 2 ^ 127 - 1

/-- The integers an `i128` holds. -/
def InI128 (z : Int) : Prop := i128Min ≤ z ∧ z ≤ i128Max

instance (z : Int) : Decidable (InI128 z) :=
  inferInstanceAs (Decidable (i128Min ≤ z ∧ z ≤ i128Max))

/-- Maximum supported count of fractional decimal digits. -/
def maxScale : Nat := 38

inductive DecimalError where
  | invalidSyntax
  | scaleTooLarge
  | arithmeticOverflow
  | divisionByZero
  | precisionLoss
  | nonPositive (field : String)
  | negative (field : String)
  deriving DecidableEq, Repr

/-- A checked `i128` operation: the exact result, or overflow. -/
def checkedI128 (z : Int) : Except DecimalError Int :=
  if InI128 z then .ok z else .error .arithmeticOverflow

/-! ## The decimals -/

/-- A canonical decimal `mantissa / 10 ^ scale`. Zero has scale zero because ten divides it. -/
@[ext]
structure FixedDecimal where
  mantissa : Int
  scale : Nat
  inRange : InI128 mantissa
  scale_le : scale ≤ maxScale
  canonical : scale = 0 ∨ mantissa % 10 ≠ 0
  deriving DecidableEq

namespace FixedDecimal

/-- A whole number. -/
def whole (mantissa : Int) (inRange : InI128 mantissa) : FixedDecimal :=
  ⟨mantissa, 0, inRange, Nat.zero_le maxScale, .inl rfl⟩

/-- The loop of `canonicalized` on a nonzero mantissa: one redundant fractional zero at a time. -/
def stripZeros (mantissa : Int) : Nat → Int × Nat
  | 0 => (mantissa, 0)
  | scale + 1 =>
    if mantissa.tmod 10 = 0 then stripZeros (mantissa.tdiv 10) scale else (mantissa, scale + 1)

def canonicalized (mantissa : Int) (scale : Nat) : Int × Nat :=
  if mantissa = 0 then (0, 0) else stripZeros mantissa scale

theorem stripZeros_scale_le (m : Int) (s : Nat) : (stripZeros m s).2 ≤ s := by
  induction s generalizing m with
  | zero => simp [stripZeros]
  | succ s ih =>
    unfold stripZeros
    split
    · exact Nat.le_succ_of_le (ih _)
    · exact le_rfl

theorem stripZeros_canonical (m : Int) (s : Nat) :
    (stripZeros m s).2 = 0 ∨ (stripZeros m s).1 % 10 ≠ 0 := by
  induction s generalizing m with
  | zero => simp [stripZeros]
  | succ s ih =>
    unfold stripZeros
    split
    · exact ih _
    · rename_i h
      right
      intro h0
      exact h (Int.tmod_eq_zero_of_dvd (Int.dvd_of_emod_eq_zero h0))

theorem stripZeros_inRange (m : Int) (s : Nat) (h : InI128 m) : InI128 (stripZeros m s).1 := by
  induction s generalizing m with
  | zero => exact h
  | succ s ih =>
    unfold stripZeros
    split
    · rename_i h0
      apply ih
      obtain ⟨k, rfl⟩ := Int.dvd_of_tmod_eq_zero h0
      rw [Int.mul_tdiv_cancel_left _ (by decide)]
      simp only [InI128, i128Min, i128Max] at h ⊢
      omega
    · exact h

theorem stripZeros_value (m : Int) (s : Nat) :
    (stripZeros m s).1 * 10 ^ (s - (stripZeros m s).2) = m := by
  induction s generalizing m with
  | zero => simp [stripZeros]
  | succ s ih =>
    unfold stripZeros
    split
    · rename_i h0
      have hle := stripZeros_scale_le (m.tdiv 10) s
      rw [Nat.succ_sub hle, pow_succ, ← mul_assoc, ih]
      exact Int.tdiv_mul_cancel_of_tmod_eq_zero h0
    · simp

theorem canonicalized_inRange (m : Int) (s : Nat) (h : InI128 m) :
    InI128 (canonicalized m s).1 := by
  unfold canonicalized
  split
  · decide
  · exact stripZeros_inRange m s h

theorem canonicalized_scale_le (m : Int) (s : Nat) : (canonicalized m s).2 ≤ s := by
  unfold canonicalized
  split
  · exact Nat.zero_le _
  · exact stripZeros_scale_le m s

theorem canonicalized_canonical (m : Int) (s : Nat) :
    (canonicalized m s).2 = 0 ∨ (canonicalized m s).1 % 10 ≠ 0 := by
  unfold canonicalized
  split
  · exact Or.inl rfl
  · exact stripZeros_canonical m s

/-- Constructs a value and removes redundant fractional zeroes. -/
def new (mantissa : Int) (inRange : InI128 mantissa) (scale : Nat) :
    Except DecimalError FixedDecimal :=
  if h : scale > maxScale then .error .scaleTooLarge
  else .ok
    { mantissa := (canonicalized mantissa scale).1
      scale := (canonicalized mantissa scale).2
      inRange := canonicalized_inRange mantissa scale inRange
      scale_le := le_trans (canonicalized_scale_le mantissa scale) (not_lt.mp h)
      canonical := canonicalized_canonical mantissa scale }

/-- A canonical value is constructed as it is. -/
theorem new_self (d : FixedDecimal) : new d.mantissa d.inRange d.scale = .ok d := by
  have hsame : canonicalized d.mantissa d.scale = (d.mantissa, d.scale) := by
    unfold canonicalized
    split
    · rename_i hzero
      rcases d.canonical with hscale | hdigit
      · rw [hzero, hscale]
      · exact absurd (by rw [hzero]; rfl) hdigit
    · cases hscale : d.scale with
      | zero => rfl
      | succ scale =>
        have hdigit := d.canonical.resolve_left (by rw [hscale]; exact Nat.succ_ne_zero scale)
        rw [stripZeros, if_neg]
        exact fun h => hdigit (Int.emod_eq_zero_of_dvd (Int.dvd_of_tmod_eq_zero h))
  unfold new
  rw [dif_neg (not_lt.mpr d.scale_le)]
  simp only [hsame]

def isZero (d : FixedDecimal) : Bool := d.mantissa == 0

def isPositive (d : FixedDecimal) : Bool := decide (d.mantissa > 0)

def isNegative (d : FixedDecimal) : Bool := decide (d.mantissa < 0)

/-- The exact value of a decimal. -/
def toRat (d : FixedDecimal) : ℚ := d.mantissa / 10 ^ d.scale

theorem toRat_mul_pow (d : FixedDecimal) : d.toRat * 10 ^ d.scale = d.mantissa := by
  unfold toRat
  field_simp

/-- The two fields are the canonical form of the value. -/
theorem canonicalForm (d : FixedDecimal) : Canonical d.mantissa d.scale :=
  d.canonical.imp_right fun h hdvd => h (Int.emod_eq_zero_of_dvd hdvd)

/-- Equal values have one representation. -/
theorem toRat_injective : Function.Injective toRat := by
  intro a b h
  obtain ⟨hmantissa, hscale⟩ := canonical_unique a.canonicalForm b.canonicalForm h
  exact FixedDecimal.ext hmantissa hscale

variable {m : Int} {s : Nat}

/-- A canonical form is the value of a decimal with these two fields and of no other. -/
theorem toRat_eq_iff (h : Canonical m s) (d : FixedDecimal) :
    d.toRat = m / 10 ^ s ↔ d.mantissa = m ∧ d.scale = s := by
  constructor
  · exact canonical_unique d.canonicalForm h
  · rintro ⟨rfl, rfl⟩
    rfl

theorem canonicalized_value (m : Int) (s : Nat) :
    ((canonicalized m s).1 : ℚ) / 10 ^ (canonicalized m s).2 = m / 10 ^ s := by
  unfold canonicalized
  split
  · rename_i hzero
    rw [hzero]
    simp
  · have hle := stripZeros_scale_le m s
    have hup := fraction_scale_up (stripZeros m s).1 (stripZeros m s).2 (s - (stripZeros m s).2)
    rw [stripZeros_value, Nat.add_sub_cancel' hle] at hup
    exact hup.symm

theorem new_toRat {inRange : InI128 m} {d : FixedDecimal}
    (h : new m inRange s = .ok d) : d.toRat = m / 10 ^ s := by
  unfold new at h
  split at h
  · cases h
  · cases h
    exact canonicalized_value m s

theorem new_of_le (inRange : InI128 m) (h : s ≤ maxScale) :
    ∃ d, new m inRange s = .ok d := by
  unfold new
  rw [dif_neg (not_lt.mpr h)]
  exact ⟨_, rfl⟩

/-- The values of the form `mantissa / 10 ^ scale` within the limits of both. -/
def Representable (q : ℚ) : Prop := ∃ m s, InI128 m ∧ s ≤ maxScale ∧ q = m / 10 ^ s

theorem representable_iff {q : ℚ} : Representable q ↔ ∃ d : FixedDecimal, d.toRat = q := by
  constructor
  · rintro ⟨m, s, hrange, hscale, rfl⟩
    obtain ⟨d, hd⟩ := new_of_le hrange hscale
    exact ⟨d, new_toRat hd⟩
  · rintro ⟨d, rfl⟩
    exact ⟨d.mantissa, d.scale, d.inRange, d.scale_le, rfl⟩

/-- A canonical form is representable where its two parts are within the limits. -/
theorem representable_canonical (h : Canonical m s) :
    Representable (m / 10 ^ s) ↔ InI128 m ∧ s ≤ maxScale := by
  constructor
  · intro hrep
    obtain ⟨d, hd⟩ := representable_iff.mp hrep
    obtain ⟨rfl, rfl⟩ := (toRat_eq_iff h d).mp hd
    exact ⟨d.inRange, d.scale_le⟩
  · rintro ⟨hrange, hscale⟩
    exact ⟨m, s, hrange, hscale, rfl⟩

/-! ## The order of the code -/

def checkedPowerOfTen (power : Nat) : Except DecimalError Int := checkedI128 (10 ^ power)

def checkedScaleUp (value : Int) (power : Nat) : Except DecimalError Int := do
  let factor ← checkedPowerOfTen power
  checkedI128 (value * factor)

/-- Both mantissas at the larger of the two scales. -/
def alignedWith (left right : FixedDecimal) : Except DecimalError (Int × Int × Nat) := do
  let scale := max left.scale right.scale
  let l ← checkedScaleUp left.mantissa (scale - left.scale)
  let r ← checkedScaleUp right.mantissa (scale - right.scale)
  return (l, r, scale)

/-- The digits of a magnitude, scaled by appending zeros to its text. -/
def scaledDigits (mantissa : Int) (zeros : Nat) : String :=
  mantissa.natAbs.repr ++ String.ofList (List.replicate zeros '0')

/-- The comparison when alignment overflows: signs first, then digit strings by length and
    text, reversed for negative values. -/
def compareWithoutScaling (left right : FixedDecimal) : Ordering :=
  let sign := compare left.mantissa.sign right.mantissa.sign
  if sign ≠ .eq then sign
  else if left.isZero then .eq
  else
    let leftDigits := scaledDigits left.mantissa right.scale
    let rightDigits := scaledDigits right.mantissa left.scale
    let magnitude := (compare leftDigits.toList.length rightDigits.toList.length).then
      (compare leftDigits rightDigits)
    if left.isNegative then magnitude.swap else magnitude

def cmp (left right : FixedDecimal) : Ordering :=
  if left.scale = right.scale then compare left.mantissa right.mantissa
  else match left.alignedWith right with
    | .ok (l, r, _) => compare l r
    | .error _ => compareWithoutScaling left right

instance : Ord FixedDecimal := ⟨cmp⟩

theorem compare_def (a b : FixedDecimal) : compare a b = cmp a b := rfl

theorem compare_mul_right (x y : Int) {k : Int} (hk : 0 < k) :
    compare (x * k) (y * k) = compare x y := by
  rcases lt_trichotomy x y with h | h | h
  · rw [compare_lt_iff_lt.mpr h, compare_lt_iff_lt.mpr (Int.mul_lt_mul_of_pos_right h hk)]
  · rw [h, compare_eq_iff_eq.mpr rfl, compare_eq_iff_eq.mpr rfl]
  · rw [compare_gt_iff_gt.mpr h, compare_gt_iff_gt.mpr (Int.mul_lt_mul_of_pos_right h hk)]

theorem compare_of_sign_ne {x y : Int} (h : compare x.sign y.sign ≠ .eq) :
    compare x.sign y.sign = compare x y := by
  have hne : x.sign ≠ y.sign := fun heq => h (compare_eq_iff_eq.mpr heq)
  rcases lt_trichotomy x 0 with hx | hx | hx <;> rcases lt_trichotomy y 0 with hy | hy | hy <;>
    simp only [hx, hy, Int.sign_eq_neg_one_of_neg, Int.sign_eq_one_of_pos, Int.sign_zero, ne_eq,
      not_true_eq_false] at hne ⊢
  all_goals first
    | exact (compare_lt_iff_lt.mpr (by omega)).symm
    | exact (compare_gt_iff_gt.mpr (by omega)).symm

/-- Under one nonzero sign the magnitudes decide, the other way round below zero. -/
theorem compare_natAbs_of_sign_eq {x y : Int} (hs : x.sign = y.sign) (hx : x ≠ 0) :
    (if decide (x < 0) = true then (compare x.natAbs y.natAbs).swap
      else compare x.natAbs y.natAbs) = compare x y := by
  rcases lt_or_gt_of_ne hx with hneg | hpos
  · have hy : y < 0 := by
      rw [Int.sign_eq_neg_one_of_neg hneg] at hs
      exact Int.sign_eq_neg_one_iff_neg.mp hs.symm
    rw [if_pos (by simpa using hneg), Ordering.swap_eq_iff_eq_swap]
    rcases lt_trichotomy x y with h | h | h
    · rw [compare_lt_iff_lt.mpr h]
      exact compare_gt_iff_gt.mpr (by omega)
    · rw [h]
      simp
    · rw [compare_gt_iff_gt.mpr h]
      exact compare_lt_iff_lt.mpr (by omega)
  · have hy : 0 < y := by
      rw [Int.sign_eq_one_of_pos hpos] at hs
      exact Int.sign_eq_one_iff_pos.mp hs.symm
    rw [if_neg (by simp; omega)]
    rcases lt_trichotomy x y with h | h | h
    · rw [compare_lt_iff_lt.mpr h]
      exact compare_lt_iff_lt.mpr (by omega)
    · rw [h]
      simp
    · rw [compare_gt_iff_gt.mpr h]
      exact compare_gt_iff_gt.mpr (by omega)

theorem scaledDigits_eq_repr (hm : m ≠ 0) (k : Nat) :
    scaledDigits m k = (m * 10 ^ k).natAbs.repr := by
  apply String.toList_inj.mp
  have hpos : 0 < m.natAbs := Int.natAbs_pos.mpr hm
  have habs : (m * 10 ^ k).natAbs = m.natAbs * 10 ^ k := by
    rw [Int.natAbs_mul, Int.natAbs_pow]
    rfl
  rw [habs, Nat.toList_repr, ← toDigits_append_zeros hpos, scaledDigits, String.toList_append,
    Nat.toList_repr, String.toList_ofList]

theorem compareWithoutScaling_eq (a b : FixedDecimal) :
    compareWithoutScaling a b =
      compare (a.mantissa * 10 ^ b.scale) (b.mantissa * 10 ^ a.scale) := by
  have hsign : ∀ (m : Int) (k : Nat), (m * 10 ^ k).sign = m.sign := by
    intro m k
    rw [Int.sign_mul, Int.sign_eq_one_of_pos (a := 10 ^ k) (by positivity), mul_one]
  unfold compareWithoutScaling
  dsimp only
  split
  · rename_i h
    rw [← hsign a.mantissa b.scale, ← hsign b.mantissa a.scale] at h ⊢
    exact compare_of_sign_ne h
  · rename_i h
    have hs : a.mantissa.sign = b.mantissa.sign := compare_eq_iff_eq.mp (not_not.mp h)
    split
    · rename_i h0
      have ha : a.mantissa = 0 := by simpa [isZero] using h0
      have hb : b.mantissa = 0 := Int.sign_eq_zero_iff_zero.mp (by rw [← hs, ha]; rfl)
      rw [ha, hb, zero_mul, zero_mul]
      rfl
    · rename_i h0
      have ha : a.mantissa ≠ 0 := by simpa [isZero] using h0
      have hb : b.mantissa ≠ 0 := fun hb => ha (Int.sign_eq_zero_iff_zero.mp (by rw [hs, hb]; rfl))
      simp only [scaledDigits_eq_repr ha, scaledDigits_eq_repr hb, compare_repr, isNegative]
      have hs' : (a.mantissa * 10 ^ b.scale).sign = (b.mantissa * 10 ^ a.scale).sign := by
        rw [hsign, hsign, hs]
      have hx : a.mantissa < 0 ↔ a.mantissa * 10 ^ b.scale < 0 := by
        rw [← Int.sign_eq_neg_one_iff_neg, ← Int.sign_eq_neg_one_iff_neg, hsign]
      have hx0 : a.mantissa * 10 ^ b.scale ≠ 0 := mul_ne_zero ha (by positivity)
      simp only [hx]
      generalize a.mantissa * 10 ^ b.scale = x at hs' hx0 ⊢
      generalize b.mantissa * 10 ^ a.scale = y at hs' ⊢
      exact compare_natAbs_of_sign_eq hs' hx0

theorem checkedScaleUp_ok {value v : Int} {power : Nat} (h : checkedScaleUp value power = .ok v) :
    v = value * 10 ^ power := by
  simp only [checkedScaleUp, checkedPowerOfTen, checkedI128] at h
  split at h
  · simp only [bind, Except.bind] at h
    split at h
    · exact (Except.ok.inj h).symm
    · cases h
  · cases h

theorem alignedWith_ok {a b : FixedDecimal} {l r : Int} (h : a.alignedWith b = .ok (l, r, s)) :
    s = max a.scale b.scale ∧ l = a.mantissa * 10 ^ (s - a.scale) ∧
      r = b.mantissa * 10 ^ (s - b.scale) := by
  simp only [alignedWith, bind, Except.bind] at h
  split at h
  · cases h
  · rename_i l' hl
    split at h
    · cases h
    · rename_i r' hr
      cases h
      exact ⟨rfl, checkedScaleUp_ok hl, checkedScaleUp_ok hr⟩

/-- Whatever path the code takes, it compares the mantissas cross-scaled. -/
theorem cmp_eq_cross (a b : FixedDecimal) :
    cmp a b = compare (a.mantissa * 10 ^ b.scale) (b.mantissa * 10 ^ a.scale) := by
  unfold cmp
  split
  · rename_i h
    rw [h, compare_mul_right _ _ (by positivity)]
  · split
    · rename_i l r s hal
      obtain ⟨hs, rfl, rfl⟩ := alignedWith_ok hal
      have ha : b.scale = s - a.scale + (a.scale + b.scale - s) := by omega
      have hb : a.scale = s - b.scale + (a.scale + b.scale - s) := by omega
      have hea : (10 : Int) ^ b.scale = 10 ^ (s - a.scale) * 10 ^ (a.scale + b.scale - s) := by
        rw [← pow_add, ← ha]
      have heb : (10 : Int) ^ a.scale = 10 ^ (s - b.scale) * 10 ^ (a.scale + b.scale - s) := by
        rw [← pow_add, ← hb]
      rw [hea, heb, ← mul_assoc, ← mul_assoc, compare_mul_right _ _ (by positivity)]
    · exact compareWithoutScaling_eq a b

/-- The comparison of the code is the exact numeric order. -/
theorem cmp_eq_compare_toRat (a b : FixedDecimal) : cmp a b = compare a.toRat b.toRat := by
  have hpos : (0 : ℚ) < 10 ^ a.scale * 10 ^ b.scale := by positivity
  have hx : ((a.mantissa * 10 ^ b.scale : Int) : ℚ) = a.toRat * (10 ^ a.scale * 10 ^ b.scale) := by
    push_cast
    rw [← toRat_mul_pow a]
    ring
  have hy : ((b.mantissa * 10 ^ a.scale : Int) : ℚ) = b.toRat * (10 ^ a.scale * 10 ^ b.scale) := by
    push_cast
    rw [← toRat_mul_pow b]
    ring
  have hlt : a.mantissa * 10 ^ b.scale < b.mantissa * 10 ^ a.scale ↔ a.toRat < b.toRat := by
    rw [← mul_lt_mul_iff_left₀ hpos, ← hx, ← hy, Int.cast_lt]
  have hgt : b.mantissa * 10 ^ a.scale < a.mantissa * 10 ^ b.scale ↔ b.toRat < a.toRat := by
    rw [← mul_lt_mul_iff_left₀ hpos, ← hx, ← hy, Int.cast_lt]
  rw [cmp_eq_cross]
  rcases lt_trichotomy a.toRat b.toRat with h | h | h
  · rw [compare_lt_iff_lt.mpr h, compare_lt_iff_lt.mpr (hlt.mpr h)]
  · rw [toRat_injective h, compare_eq_iff_eq.mpr rfl, compare_eq_iff_eq.mpr rfl]
  · rw [compare_gt_iff_gt.mpr h, compare_gt_iff_gt.mpr (hgt.mpr h)]

/-- Every decimal is canonical, the code orders decimals by their values, whichever of its three
    paths it takes, and only equal structures compare as equal. -/
theorem cmp_numeric (a b : FixedDecimal) :
    (a.scale ≤ 38 ∧ (a.scale = 0 ∨ ¬ (10 : Int) ∣ a.mantissa)) ∧
      cmp a b = compare ((a.mantissa : ℚ) / 10 ^ a.scale) ((b.mantissa : ℚ) / 10 ^ b.scale) ∧
      (cmp a b = .eq ↔ a = b) := by
  refine ⟨⟨a.scale_le, a.canonicalForm⟩, cmp_eq_compare_toRat a b, ?_⟩
  rw [cmp_eq_compare_toRat, compare_eq_iff_eq]
  exact toRat_injective.eq_iff

instance : Std.TransOrd FixedDecimal where
  eq_swap {a b} := by
    rw [compare_def, compare_def, cmp_eq_compare_toRat, cmp_eq_compare_toRat]
    exact Std.OrientedOrd.eq_swap
  isLE_trans {a b c} hab hbc := by
    rw [compare_def, cmp_eq_compare_toRat] at hab hbc ⊢
    exact Std.TransOrd.isLE_trans hab hbc

instance : Std.LawfulEqOrd FixedDecimal where
  compare_self {a} := by
    rw [compare_def, cmp_eq_compare_toRat]
    exact compare_eq_iff_eq.mpr rfl
  eq_of_compare {a b} h := by
    rw [compare_def, cmp_eq_compare_toRat] at h
    exact toRat_injective (compare_eq_iff_eq.mp h)

end FixedDecimal

end CryptoIntelligence.Decimal
