/-
  Checked addition, subtraction and negation of decimals (`fixed-decimal`). The sum is formed on
  `u128` magnitudes at the larger of the two scales and then loses its redundant zeros.

  An operation is `Exact` when it returns the exact value wherever that value is representable, and
  an error elsewhere. The step that needs an argument is an overflow of `u128` while the scales are
  aligned: the operand of the larger scale is not divisible by ten and the scaled one is, so the sum
  keeps all its digits and is out of range as well (`sum_not_inRange`).
-/
import CryptoIntelligence.Decimal.Value

namespace CryptoIntelligence.Decimal

open Lib

/-- A checked `u128` operation: the exact result, or overflow. -/
def checkedU128 (n : Nat) : Except DecimalError Nat :=
  if n < 2 ^ 128 then .ok n else .error .arithmeticOverflow

variable {n : Nat}

theorem checkedU128_eq_ok {m : Nat} : checkedU128 n = .ok m ↔ n < 2 ^ 128 ∧ m = n := by
  unfold checkedU128
  split
  · rename_i h
    simp only [Except.ok.injEq, h, true_and]
    exact eq_comm
  · rename_i h
    exact ⟨fun heq => (by cases heq), fun hlt => absurd hlt.1 h⟩

theorem checkedU128_of_lt (h : n < 2 ^ 128) : checkedU128 n = .ok n := if_pos h

theorem checkedU128_of_le (h : 2 ^ 128 ≤ n) :
    checkedU128 n = .error .arithmeticOverflow := if_neg (not_lt.mpr h)

/-- Before what fails beyond `u128` a check changes nothing. -/
theorem checkedU128_bind {α : Type} {f : Nat → Except DecimalError α}
    (h : ∀ {m}, 2 ^ 128 ≤ m → f m = .error .arithmeticOverflow) (m : Nat) :
    (checkedU128 m >>= f) = f m := by
  by_cases hlt : m < 2 ^ 128
  · rw [checkedU128_of_lt hlt, ok_bind]
  · rw [checkedU128_of_le (not_lt.mp hlt), h (not_lt.mp hlt), error_bind]

theorem checkedU128_mul_of_le {k : Nat} (h : 2 ^ 128 ≤ n) (hk : k ≠ 0) :
    checkedU128 (n * k) = .error .arithmeticOverflow :=
  checkedU128_of_le (h.trans (Nat.le_mul_of_pos_right n (Nat.pos_of_ne_zero hk)))

namespace FixedDecimal

/-! ## Exact results -/

/-- The exact value where it is representable, and an error elsewhere. -/
def Exact (result : Except DecimalError FixedDecimal) (q : ℚ) : Prop :=
  (∀ d, result = .ok d → d.toRat = q) ∧ (Representable q ↔ ∃ d, result = .ok d)

variable {q : ℚ} {negative : Bool} {magnitude : Nat}

theorem exact_iff {result : Except DecimalError FixedDecimal} :
    Exact result q ↔ ∀ d, result = .ok d ↔ d.toRat = q := by
  constructor
  · rintro ⟨hvalue, hrep⟩ d
    refine ⟨hvalue d, fun hd => ?_⟩
    obtain ⟨d', hd'⟩ := hrep.mp (representable_iff.mpr ⟨d, hd⟩)
    rw [hd', toRat_injective ((hvalue d' hd').trans hd.symm)]
  · intro h
    refine ⟨fun d => (h d).mp, ?_⟩
    rw [representable_iff]
    exact exists_congr fun d => (h d).symm

/-- An exact operation fails where its value is not representable. -/
theorem Exact.error_iff {result : Except DecimalError FixedDecimal} (h : Exact result q) :
    (∃ e, result = .error e) ↔ ¬ Representable q := by
  rw [h.2]
  cases result with
  | ok d => simp
  | error e => simp

theorem exact_error {e : DecimalError} (h : ¬ Representable q) : Exact (.error e) q := by
  refine ⟨fun d hd => (by cases hd), ?_⟩
  exact ⟨fun hrep => absurd hrep h, fun ⟨d, hd⟩ => (by cases hd)⟩

/-! ## Signed magnitudes -/

/-- The integer of a sign and a magnitude. -/
def signed (negative : Bool) (magnitude : Nat) : Int :=
  if negative then -(magnitude : Int) else magnitude

theorem signed_natAbs (d : FixedDecimal) : signed d.isNegative d.mantissa.natAbs = d.mantissa := by
  unfold signed isNegative
  split
  · rename_i h
    have hneg : d.mantissa < 0 := of_decide_eq_true h
    omega
  · rename_i h
    have hneg : ¬ d.mantissa < 0 := fun hlt => h (decide_eq_true hlt)
    omega

theorem natAbs_signed (negative : Bool) (magnitude : Nat) :
    (signed negative magnitude).natAbs = magnitude := by
  unfold signed
  split
  · rw [Int.natAbs_neg, Int.natAbs_natCast]
  · exact Int.natAbs_natCast magnitude

theorem signed_xor (left right : Bool) (m n : Nat) :
    signed (left ^^ right) (m * n) = signed left m * signed right n := by
  cases left <;> cases right <;> simp [signed]

theorem signed_mul (negative : Bool) (m n : Nat) :
    signed negative (m * n) = signed negative m * (n : Int) := by
  cases negative <;> simp [signed]

theorem ten_dvd_signed :
    (10 : Int) ∣ signed negative magnitude ↔ 10 ∣ magnitude := by
  rw [← Int.natAbs_dvd_natAbs, natAbs_signed]
  rfl

theorem signedMagnitude_eq_ok {m : Int} :
    signedMagnitude magnitude negative = .ok m ↔ m = signed negative magnitude ∧ InI128 m := by
  constructor
  · intro h
    refine ⟨?_, signedMagnitude_inRange h⟩
    unfold signedMagnitude at h
    unfold signed
    split at h
    · rename_i hmin
      cases h
      have hmagnitude := hmin.2
      rw [if_pos hmin.1, hmagnitude]
      decide
    · split at h
      · cases h
      · split at h
        · rename_i hneg
          cases h
          rw [if_pos hneg]
        · rename_i hneg
          cases h
          rw [if_neg hneg]
  · rintro ⟨rfl, hrange⟩
    simp only [InI128, i128Min, i128Max, signed] at hrange
    unfold signedMagnitude signed
    simp only [i128Max, i128Min]
    cases negative with
    | true =>
      simp only [if_true, true_and] at hrange ⊢
      split
      · congr 1
        omega
      · rw [if_neg (by omega)]
    | false =>
      simp only [Bool.false_eq_true, false_and, if_false] at hrange ⊢
      rw [if_neg (by omega)]

/-- `Self::new(signed_magnitude(magnitude, negative)?, scale)` -/
def newSigned (magnitude : Nat) (negative : Bool) (scale : Nat) :
    Except DecimalError FixedDecimal := do
  let mantissa ← attach (signedMagnitude magnitude negative)
  new mantissa.1 (signedMagnitude_inRange mantissa.2) scale

/-- A value constructed from a canonical form, after a check that its mantissa is in range, is
    exact. -/
theorem constructed_exact {checked : Except DecimalError Int} {m : Int} {scale : Nat}
    (hrange : ∀ {m'}, checked = .ok m' → InI128 m')
    (hchecked : ∀ m', checked = .ok m' ↔ m' = m ∧ InI128 m') (h : Canonical m scale) :
    Exact (attach checked >>= fun mantissa => new mantissa.1 (hrange mantissa.2) scale)
      (m / 10 ^ scale) := by
  refine ⟨?_, ?_⟩
  · intro d hd
    obtain ⟨m', hm, hnew⟩ := attach_bind_eq_ok.mp hd
    obtain ⟨rfl, -⟩ := (hchecked m').mp hm
    exact new_toRat hnew
  · rw [representable_canonical h]
    constructor
    · rintro ⟨hm, hscale⟩
      have hok := (hchecked m).mpr ⟨rfl, hm⟩
      obtain ⟨d, hd⟩ := new_of_le (hrange hok) hscale
      exact ⟨d, attach_bind_eq_ok.mpr ⟨m, hok, hd⟩⟩
    · rintro ⟨d, hd⟩
      obtain ⟨m', hm, hnew⟩ := attach_bind_eq_ok.mp hd
      obtain ⟨rfl, hin⟩ := (hchecked m').mp hm
      refine ⟨hin, ?_⟩
      by_contra hlt
      rw [new, dif_pos (not_le.mp hlt)] at hnew
      cases hnew

theorem newSigned_exact {scale : Nat} (h : Canonical (signed negative magnitude) scale) :
    Exact (newSigned magnitude negative scale) (signed negative magnitude / 10 ^ scale) :=
  constructed_exact signedMagnitude_inRange (fun _ => signedMagnitude_eq_ok) h

theorem checkedI128_eq_ok {z m : Int} : checkedI128 z = .ok m ↔ m = z ∧ InI128 m := by
  unfold checkedI128
  split
  · rename_i h
    constructor
    · intro heq
      cases heq
      exact ⟨rfl, h⟩
    · rintro ⟨rfl, -⟩
      rfl
  · rename_i h
    constructor
    · intro heq
      cases heq
    · rintro ⟨rfl, hin⟩
      exact absurd hin h

/-! ## Sums -/

def checkedScaleUpMagnitude (value power : Nat) : Except DecimalError Nat := do
  let factor ← checkedU128 (10 ^ power)
  checkedU128 (value * factor)

/-- The magnitude and the sign of the sum of two signed magnitudes. -/
def signedSum (left right : Nat) (leftNegative rightNegative : Bool) :
    Except DecimalError (Nat × Bool) :=
  if leftNegative = rightNegative then do
    let magnitude ← checkedU128 (left + right)
    pure (magnitude, leftNegative)
  else if left < right then pure (right - left, rightNegative)
  else if left = right then pure (0, false)
  else pure (left - right, leftNegative)

/-- The loop that removes redundant zeros from a magnitude. -/
def stripMagnitude (magnitude : Nat) : Nat → Nat × Nat
  | 0 => (magnitude, 0)
  | scale + 1 =>
    if 10 ∣ magnitude then stripMagnitude (magnitude / 10) scale else (magnitude, scale + 1)

def checkedSum (left right : FixedDecimal) (subtractRight : Bool) :
    Except DecimalError FixedDecimal := do
  let scale := max left.scale right.scale
  let leftMagnitude ← checkedScaleUpMagnitude left.mantissa.natAbs (scale - left.scale)
  let rightMagnitude ← checkedScaleUpMagnitude right.mantissa.natAbs (scale - right.scale)
  let (magnitude, negative) ← signedSum leftMagnitude rightMagnitude left.isNegative
    (right.isNegative ^^ subtractRight)
  let (magnitude, scale) := stripMagnitude magnitude scale
  newSigned magnitude negative scale

def checkedAdd (left right : FixedDecimal) : Except DecimalError FixedDecimal :=
  left.checkedSum right false

def checkedSub (left right : FixedDecimal) : Except DecimalError FixedDecimal :=
  left.checkedSum right true

theorem stripMagnitude_spec (magnitude scale : Nat) :
    ∃ k, (stripMagnitude magnitude scale).2 + k = scale ∧
      (stripMagnitude magnitude scale).1 * 10 ^ k = magnitude ∧
      ((stripMagnitude magnitude scale).2 = 0 ∨ ¬ 10 ∣ (stripMagnitude magnitude scale).1) := by
  induction scale generalizing magnitude with
  | zero => exact ⟨0, rfl, by simp [stripMagnitude], .inl rfl⟩
  | succ scale ih =>
    unfold stripMagnitude
    split
    · rename_i hten
      obtain ⟨k, hscale, hvalue, hcanonical⟩ := ih (magnitude / 10)
      refine ⟨k + 1, by omega, ?_, hcanonical⟩
      rw [pow_succ, ← mul_assoc, hvalue, Nat.div_mul_cancel hten]
    · rename_i hten
      exact ⟨0, rfl, by simp, .inr hten⟩

/-- A magnitude without its redundant zeros is constructed exactly. -/
theorem newSigned_strip_exact (magnitude : Nat) (negative : Bool) (scale : Nat) :
    Exact (newSigned (stripMagnitude magnitude scale).1 negative (stripMagnitude magnitude scale).2)
      (signed negative magnitude / 10 ^ scale) := by
  obtain ⟨k, hscale, hvalue, hcanonical⟩ := stripMagnitude_spec magnitude scale
  have hform : Canonical (signed negative (stripMagnitude magnitude scale).1)
      (stripMagnitude magnitude scale).2 := hcanonical.imp_right (mt ten_dvd_signed.mp)
  have hsigned : signed negative magnitude =
      signed negative (stripMagnitude magnitude scale).1 * 10 ^ k := by
    conv_lhs => rw [← hvalue]
    rw [signed_mul]
    push_cast
    rfl
  have hup := fraction_scale_up (signed negative (stripMagnitude magnitude scale).1)
    (stripMagnitude magnitude scale).2 k
  rw [hscale, ← hsigned] at hup
  rw [hup]
  exact newSigned_exact hform

theorem signedSum_ok {left right magnitude : Nat} {leftNegative rightNegative negative : Bool}
    (h : signedSum left right leftNegative rightNegative = .ok (magnitude, negative)) :
    signed negative magnitude = signed leftNegative left + signed rightNegative right := by
  unfold signedSum at h
  split at h
  · rename_i hsign
    obtain ⟨sum, hsum, hpair⟩ := bind_eq_ok.mp h
    obtain ⟨-, rfl⟩ := checkedU128_eq_ok.mp hsum
    cases hpair
    subst hsign
    cases leftNegative <;> simp [signed]
    omega
  · rename_i hsign
    have hother : rightNegative = !leftNegative := by
      cases leftNegative <;> cases rightNegative <;> simp_all
    subst hother
    split at h
    · cases h
      cases leftNegative <;> simp [signed] <;> omega
    · split at h
      · cases h
        cases leftNegative <;> simp [signed] <;> omega
      · cases h
        cases leftNegative <;> simp [signed] <;> omega

theorem signedSum_error {left right : Nat} {leftNegative rightNegative : Bool} {e : DecimalError}
    (h : signedSum left right leftNegative rightNegative = .error e) :
    2 ^ 128 ≤ (signed leftNegative left + signed rightNegative right).natAbs := by
  unfold signedSum at h
  split at h
  · rename_i hsign
    subst hsign
    by_cases hlt : left + right < 2 ^ 128
    · rw [checkedU128_of_lt hlt] at h
      cases h
    · cases leftNegative <;> simp [signed] <;> omega
  · split at h
    · cases h
    · split at h <;> cases h

/-- A ten divides the operand that was scaled up and not the other one, so the sum keeps the scale;
    and no overflow of the scaled operand is lost in the sum. -/
theorem sum_of_scaled {l y : Int} (hten : (10 : Int) ∣ l) (hy : ¬ (10 : Int) ∣ y)
    (hrange : y.natAbs ≤ 2 ^ 127) (hover : 2 ^ 128 ≤ l.natAbs ∨ 2 ^ 128 ≤ (l + y).natAbs) :
    ¬ (10 : Int) ∣ l + y ∧ ¬ InI128 (l + y) := by
  refine ⟨fun hsum => hy ((Int.dvd_add_right hten).mp hsum), ?_⟩
  simp only [InI128, i128Min, i128Max]
  omega

theorem ten_dvd_scaled (x : Int) {k : Nat} (hk : 0 < k) : (10 : Int) ∣ x * 10 ^ k :=
  Dvd.dvd.mul_left (dvd_pow_self 10 hk.ne') x

/-- Overflow while scaling, or while adding what was scaled, leaves a sum that is canonical and out
    of range. -/
theorem sum_not_inRange {x y : Int} {sx sy : Nat} (cx : Canonical x sx) (cy : Canonical y sy)
    (hx : x.natAbs ≤ 2 ^ 127) (hy : y.natAbs ≤ 2 ^ 127) {l r : Int}
    (hl : l = x * 10 ^ (max sx sy - sx)) (hr : r = y * 10 ^ (max sx sy - sy))
    (hover : 2 ^ 128 ≤ l.natAbs ∨ 2 ^ 128 ≤ r.natAbs ∨ 2 ^ 128 ≤ (l + r).natAbs) :
    Canonical (l + r) (max sx sy) ∧ ¬ InI128 (l + r) := by
  rcases lt_trichotomy sx sy with hlt | rfl | hgt
  · rw [max_eq_right hlt.le] at hl hr ⊢
    rw [Nat.sub_self, pow_zero, mul_one] at hr
    subst hr
    have hcanonical : ¬ (10 : Int) ∣ r := cy.resolve_left (by omega)
    have hten : (10 : Int) ∣ l := by
      rw [hl]
      exact ten_dvd_scaled x (by omega)
    obtain ⟨hsum, hout⟩ := sum_of_scaled hten hcanonical hy (by omega)
    exact ⟨.inr hsum, hout⟩
  · rw [max_self, Nat.sub_self, pow_zero, mul_one] at hl hr
    subst hl hr
    rw [max_self]
    -- only the sum of two operands of the greatest magnitude overflows
    refine ⟨.inr ?_, ?_⟩
    · omega
    · simp only [InI128, i128Min, i128Max]
      omega
  · rw [max_eq_left hgt.le] at hl hr ⊢
    rw [Nat.sub_self, pow_zero, mul_one] at hl
    subst hl
    have hcanonical : ¬ (10 : Int) ∣ l := cx.resolve_left (by omega)
    have hten : (10 : Int) ∣ r := by
      rw [hr]
      exact ten_dvd_scaled y (by omega)
    rw [add_comm] at hover ⊢
    obtain ⟨hsum, hout⟩ := sum_of_scaled hten hcanonical hx (by omega)
    exact ⟨.inr hsum, hout⟩

theorem natAbs_mantissa_le (d : FixedDecimal) : d.mantissa.natAbs ≤ 2 ^ 127 := by
  have h := d.inRange
  simp only [InI128, i128Min, i128Max] at h
  omega

theorem checkedScaleUpMagnitude_eq {value power : Nat} (h : power ≤ maxScale) :
    checkedScaleUpMagnitude value power = checkedU128 (value * 10 ^ power) := by
  have hpow : 10 ^ power < 2 ^ 128 :=
    lt_of_le_of_lt (Nat.pow_le_pow_right (by decide) h) (by decide)
  rw [checkedScaleUpMagnitude, checkedU128_of_lt hpow, ok_bind]

/-- The right operand with the sign that the sum gives it. -/
def signedRight (d : FixedDecimal) (subtractRight : Bool) : Int :=
  if subtractRight then -d.mantissa else d.mantissa

theorem signed_right (d : FixedDecimal) (subtractRight : Bool) :
    signed (d.isNegative ^^ subtractRight) d.mantissa.natAbs = d.signedRight subtractRight := by
  have h := signed_natAbs d
  unfold signedRight
  cases subtractRight with
  | false => simpa using h
  | true =>
    rw [if_pos rfl, ← h, Bool.xor_true]
    cases d.isNegative <;> simp [signed]

theorem signedRight_canonical (d : FixedDecimal) (subtractRight : Bool) :
    Canonical (d.signedRight subtractRight) d.scale := by
  unfold signedRight
  split
  · exact d.canonicalForm.imp_right (mt Int.dvd_neg.mp)
  · exact d.canonicalForm

theorem natAbs_signedRight (d : FixedDecimal) (subtractRight : Bool) :
    (d.signedRight subtractRight).natAbs = d.mantissa.natAbs := by
  unfold signedRight
  split
  · exact Int.natAbs_neg _
  · rfl

/-- The exact sum over the larger of the two scales. -/
theorem sum_fraction (x y : Int) (sx sy : Nat) :
    (x : ℚ) / 10 ^ sx + y / 10 ^ sy =
      ((x * 10 ^ (max sx sy - sx) + y * 10 ^ (max sx sy - sy) : Int) : ℚ) / 10 ^ max sx sy := by
  have hx := fraction_scale_up x sx (max sx sy - sx)
  have hy := fraction_scale_up y sy (max sx sy - sy)
  rw [Nat.add_sub_cancel' (le_max_left sx sy)] at hx
  rw [Nat.add_sub_cancel' (le_max_right sx sy)] at hy
  rw [← hx, ← hy, ← add_div]
  push_cast
  rfl

theorem checkedSum_exact (a b : FixedDecimal) (subtractRight : Bool) :
    Exact (a.checkedSum b subtractRight)
      (a.toRat + (b.signedRight subtractRight : ℚ) / 10 ^ b.scale) := by
  set scale := max a.scale b.scale with hscale
  set l : Int := a.mantissa * 10 ^ (scale - a.scale) with hl
  set r : Int := b.signedRight subtractRight * 10 ^ (scale - b.scale) with hr
  have hvalue : a.toRat + (b.signedRight subtractRight : ℚ) / 10 ^ b.scale =
      ((l + r : Int) : ℚ) / 10 ^ scale := sum_fraction _ _ _ _
  have hover (h : 2 ^ 128 ≤ l.natAbs ∨ 2 ^ 128 ≤ r.natAbs ∨ 2 ^ 128 ≤ (l + r).natAbs) :
      ¬ Representable (((l + r : Int) : ℚ) / 10 ^ scale) := by
    obtain ⟨hcanonical, hout⟩ := sum_not_inRange a.canonicalForm
      (b.signedRight_canonical subtractRight) a.natAbs_mantissa_le
      (by rw [natAbs_signedRight]; exact b.natAbs_mantissa_le) hl hr h
    rw [representable_canonical hcanonical]
    exact fun hrep => hout hrep.1
  have hlabs : l.natAbs = a.mantissa.natAbs * 10 ^ (scale - a.scale) := by
    rw [hl, Int.natAbs_mul, Int.natAbs_pow]
    rfl
  have hrabs : r.natAbs = b.mantissa.natAbs * 10 ^ (scale - b.scale) := by
    rw [hr, Int.natAbs_mul, Int.natAbs_pow, natAbs_signedRight]
    rfl
  have hlsigned : signed a.isNegative l.natAbs = l := by
    rw [hlabs, signed_mul, signed_natAbs, hl]
    push_cast
    rfl
  have hrsigned : signed (b.isNegative ^^ subtractRight) r.natAbs = r := by
    rw [hrabs, signed_mul, signed_right, hr]
    push_cast
    rfl
  have hbound : scale ≤ maxScale := max_le a.scale_le b.scale_le
  rw [hvalue]
  unfold checkedSum
  simp only [← hscale]
  rw [checkedScaleUpMagnitude_eq (by omega), checkedScaleUpMagnitude_eq (by omega),
    ← hlabs, ← hrabs]
  -- the three places where the magnitudes can overflow
  by_cases hleft : l.natAbs < 2 ^ 128
  · rw [checkedU128_of_lt hleft, ok_bind]
    by_cases hright : r.natAbs < 2 ^ 128
    · rw [checkedU128_of_lt hright, ok_bind]
      cases hsum : signedSum l.natAbs r.natAbs a.isNegative (b.isNegative ^^ subtractRight) with
      | ok sum =>
        obtain ⟨magnitude, negative⟩ := sum
        have hsigned := signedSum_ok hsum
        rw [hlsigned, hrsigned] at hsigned
        rw [ok_bind, ← hsigned]
        exact newSigned_strip_exact magnitude negative scale
      | error e =>
        have hlarge := signedSum_error hsum
        rw [hlsigned, hrsigned] at hlarge
        exact exact_error (hover (.inr (.inr hlarge)))
    · rw [checkedU128_of_le (not_lt.mp hright)]
      exact exact_error (hover (.inr (.inl (not_lt.mp hright))))
  · rw [checkedU128_of_le (not_lt.mp hleft)]
    exact exact_error (hover (.inl (not_lt.mp hleft)))

/-- Addition and subtraction return the exact value wherever it is representable, and an error
    elsewhere. -/
theorem sums_exact (a b : FixedDecimal) :
    ((∀ d, a.checkedAdd b = .ok d ↔ d.toRat = a.toRat + b.toRat) ∧
      ((∃ e, a.checkedAdd b = .error e) ↔ ¬ Representable (a.toRat + b.toRat))) ∧
    ((∀ d, a.checkedSub b = .ok d ↔ d.toRat = a.toRat - b.toRat) ∧
      ((∃ e, a.checkedSub b = .error e) ↔ ¬ Representable (a.toRat - b.toRat))) := by
  have hadd : Exact (a.checkedAdd b) (a.toRat + b.toRat) := checkedSum_exact a b false
  have hsub : Exact (a.checkedSub b) (a.toRat - b.toRat) := by
    have h := checkedSum_exact a b true
    have hneg : (b.signedRight true : ℚ) / 10 ^ b.scale = -b.toRat := by
      simp only [signedRight, if_true, toRat]
      push_cast
      exact neg_div _ _
    rw [hneg, ← sub_eq_add_neg] at h
    exact h
  exact ⟨⟨exact_iff.mp hadd, hadd.error_iff⟩, ⟨exact_iff.mp hsub, hsub.error_iff⟩⟩

end FixedDecimal

end CryptoIntelligence.Decimal
