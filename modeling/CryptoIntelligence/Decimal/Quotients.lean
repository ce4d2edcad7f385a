/-
  Exact division of decimals (`fixed-decimal`). The mantissas are reduced by their greatest common
  divisor; a denominator that is then left with a factor other than two and five has no decimal
  expansion, and any other is expanded to a power of ten.

  What is proved: both loops end, the quotient is exact wherever it is representable, and the loss
  of precision that is reported is one (`quotient_exact`). The scale is checked before the numerator
  is expanded; that refuses nothing that is representable, because a ten is left in the expanded
  numerator only where the scale is zero (`expanded_canonical`).
-/
import CryptoIntelligence.Decimal.Products

namespace CryptoIntelligence.Decimal

open Lib

/-! ## The greatest common divisor -/

def divisorStep (state : Nat × Nat) : (Nat × Nat) ⊕ Nat :=
  if state.2 ≠ 0 then .inl (state.2, state.1 % state.2) else .inr state.1

def greatestCommonDivisor (left right : Nat) : Option Nat :=
  loop divisorStep (right + 1) (left, right)

theorem greatestCommonDivisor_eq (left right : Nat) :
    greatestCommonDivisor left right = some (left.gcd right) := by
  suffices hloop : ∃ result, greatestCommonDivisor left right = some result ∧
      result = left.gcd right by
    obtain ⟨result, hresult, rfl⟩ := hloop
    exact hresult
  refine loop_returns (fun state : Nat × Nat => state.1.gcd state.2 = left.gcd right)
    Prod.snd _ ?_ ?_
    rfl (Nat.lt_succ_self right)
  · intro state next hinv hstep
    unfold divisorStep at hstep
    split at hstep
    · rename_i hne
      cases hstep
      refine ⟨?_, Nat.mod_lt _ (Nat.pos_of_ne_zero hne)⟩
      rw [← hinv, Nat.gcd_comm, ← Nat.gcd_rec, Nat.gcd_comm]
    · cases hstep
  · intro state result hinv hstep
    unfold divisorStep at hstep
    split at hstep
    · cases hstep
    · rename_i hzero
      cases hstep
      rw [← hinv, not_not.mp hzero, Nat.gcd_zero_right]

namespace FixedDecimal

/-! ## Division -/

def checkedMultiplyPower (value factor power : Nat) : Except DecimalError Nat := do
  let scaled ← checkedU128 (factor ^ power)
  checkedU128 (value * scaled)

/-- The places of the quotient of two mantissas, moved by the scales of the two decimals. -/
def resultScale (decimalPlaces leftScale rightScale : Nat) : Int :=
  decimalPlaces + leftScale - rightScale

/-- What follows the removal of the factors from the denominator. -/
def expandedQuotient (numerator denominator twos fives leftScale rightScale : Nat)
    (negative : Bool) : Except DecimalError FixedDecimal := do
  reject (denominator ≠ 1) .precisionLoss
  let decimalPlaces := max twos fives
  let scale := resultScale decimalPlaces leftScale rightScale
  reject (scale > maxScale) .precisionLoss
  let numerator ← checkedMultiplyPower numerator 2 (decimalPlaces - twos)
  let numerator ← checkedMultiplyPower numerator 5 (decimalPlaces - fives)
  if scale < 0 then do
    let numerator ← checkedMultiplyPower numerator 10 (-scale).toNat
    newSigned numerator negative 0
  else newSigned numerator negative scale.toNat

/-- Divides without rounding. -/
def checkedDivExact (left right : FixedDecimal) : Option (Except DecimalError FixedDecimal) :=
  if right.isZero then some (.error .divisionByZero)
  else if left.isZero then some (new 0 zero_inRange 0)
  else do
    let commonFactor ← greatestCommonDivisor left.mantissa.natAbs right.mantissa.natAbs
    let (denominator, twos) ← removeFactor (right.mantissa.natAbs / commonFactor) 2
    let (denominator, fives) ← removeFactor denominator 5
    pure (expandedQuotient (left.mantissa.natAbs / commonFactor) denominator twos fives left.scale
      right.scale (left.isNegative ^^ right.isNegative))

/-! ## The expanded numerator -/

theorem checkedMultiplyPower_eq {value factor power : Nat} (h : value ≠ 0) :
    checkedMultiplyPower value factor power = checkedU128 (value * factor ^ power) := by
  refine checkedU128_bind (fun {m} hm => ?_) (factor ^ power)
  rw [mul_comm]
  exact checkedU128_mul_of_le hm h

/-- An overflow before a multiplication is one after it. -/
theorem checkedU128_bind_power {m factor power : Nat} (hm : m ≠ 0) (hfactor : factor ≠ 0) :
    (checkedU128 m >>= fun value => checkedMultiplyPower value factor power) =
      checkedU128 (m * factor ^ power) := by
  rw [checkedU128_bind fun {value} hvalue => ?_, checkedMultiplyPower_eq hm]
  rw [checkedMultiplyPower_eq (by omega)]
  exact checkedU128_mul_of_le hvalue (pow_ne_zero power hfactor)

/-- A numerator expanded by what its denominator lacks to a power of ten. -/
def expanded (numerator twos fives : Nat) : Nat :=
  numerator * 2 ^ (max twos fives - twos) * 5 ^ (max twos fives - fives)

theorem expanded_ne_zero {numerator : Nat} (h : numerator ≠ 0) (twos fives : Nat) :
    expanded numerator twos fives ≠ 0 :=
  mul_ne_zero (mul_ne_zero h (pow_ne_zero _ (by decide))) (pow_ne_zero _ (by decide))

theorem expandedQuotient_eq {numerator : Nat} (h : numerator ≠ 0)
    (twos fives leftScale rightScale : Nat) (negative : Bool)
    (hscale : resultScale (max twos fives) leftScale rightScale ≤ maxScale) :
    expandedQuotient numerator 1 twos fives leftScale rightScale negative =
      newSigned (expanded numerator twos fives *
        10 ^ (-resultScale (max twos fives) leftScale rightScale).toNat) negative
        (resultScale (max twos fives) leftScale rightScale).toNat := by
  have htwo : numerator * 2 ^ (max twos fives - twos) ≠ 0 :=
    mul_ne_zero h (pow_ne_zero _ (by decide))
  unfold expandedQuotient
  dsimp only
  rw [reject_neg (not_not.mpr rfl), ok_bind, reject_neg (not_lt.mpr hscale), ok_bind,
    checkedMultiplyPower_eq h, ← bind_assoc, checkedU128_bind_power htwo (by decide)]
  change (checkedU128 (expanded numerator twos fives) >>= _) = _
  split
  · rename_i hneg
    rw [← bind_assoc, checkedU128_bind_power (expanded_ne_zero h twos fives) (by decide),
      checkedU128_bind_newSigned, Int.toNat_of_nonpos hneg.le]
  · rename_i hpos
    have hzero : (-resultScale (max twos fives) leftScale rightScale).toNat = 0 :=
      Int.toNat_of_nonpos (by omega)
    rw [checkedU128_bind_newSigned, hzero, pow_zero, mul_one]

/-! ## Reduced quotients -/

/-- Two magnitudes in lowest terms, the denominator split into its twos, its fives and a rest. -/
structure Reduced (left right numerator rest twos fives : Nat) : Prop where
  common : ∃ g, g ≠ 0 ∧ left = numerator * g ∧ right = rest * 5 ^ fives * 2 ^ twos * g
  coprime : numerator.Coprime (rest * 5 ^ fives * 2 ^ twos)
  noTwo : ¬ 2 ∣ rest
  noFive : ¬ 5 ∣ rest

namespace Reduced

variable {left right numerator rest twos fives : Nat}

theorem numerator_ne_zero (h : Reduced left right numerator rest twos fives) (hleft : left ≠ 0) :
    numerator ≠ 0 := by
  obtain ⟨g, -, hnumerator, -⟩ := h.common
  rintro rfl
  exact hleft (by rw [hnumerator, zero_mul])

/-- A ten is left in the expanded numerator only where nothing was expanded. -/
theorem expanded_canonical (h : Reduced left right numerator rest twos fives)
    (hplaces : 0 < max twos fives) : ¬ 10 ∣ expanded numerator twos fives := by
  intro hten
  have hfactor {p : Nat} (hp : p.Prime) (hdvd : p ∣ rest * 5 ^ fives * 2 ^ twos) :
      ¬ p ∣ numerator :=
    fun hn => hp.one_lt.ne' (Nat.eq_one_of_dvd_coprimes h.coprime hn hdvd)
  rcases Nat.lt_or_ge twos fives with hlt | hge
  · have hfive : 5 ∣ numerator * 2 ^ (fives - twos) := by
      have hexpanded : expanded numerator twos fives = numerator * 2 ^ (fives - twos) := by
        rw [expanded, max_eq_right hlt.le, Nat.sub_self, pow_zero, mul_one]
      rw [← hexpanded]
      exact (show 5 ∣ 10 by decide).trans hten
    rcases (Nat.Prime.dvd_mul Nat.prime_five).mp hfive with hn | hpow
    · exact hfactor Nat.prime_five
        (((dvd_pow_self 5 (by omega)).mul_left rest).mul_right _) hn
    · exact absurd (Nat.prime_five.dvd_of_dvd_pow hpow) (by decide)
  · have htwo : 2 ∣ numerator * 5 ^ (twos - fives) := by
      have hexpanded : expanded numerator twos fives = numerator * 5 ^ (twos - fives) := by
        rw [expanded, max_eq_left hge, Nat.sub_self, pow_zero, mul_one]
      rw [← hexpanded]
      exact (show 2 ∣ 10 by decide).trans hten
    rcases (Nat.Prime.dvd_mul Nat.prime_two).mp htwo with hn | hpow
    · exact hfactor Nat.prime_two ((dvd_pow_self 2 (by omega)).mul_left _) hn
    · exact absurd (Nat.prime_two.dvd_of_dvd_pow hpow) (by decide)

/-- The quotient as an expanded numerator over a power of ten. -/
theorem expanded_value (h : Reduced left right numerator 1 twos fives) :
    (left : ℚ) / right = expanded numerator twos fives / 10 ^ max twos fives := by
  obtain ⟨g, hg, hleft, hright⟩ := h.common
  have hpow : (10 : ℚ) ^ max twos fives = 2 ^ twos * 2 ^ (max twos fives - twos) *
      (5 ^ fives * 5 ^ (max twos fives - fives)) := by
    rw [← pow_add, ← pow_add, Nat.add_sub_cancel' (le_max_left _ _),
      Nat.add_sub_cancel' (le_max_right _ _), ← mul_pow]
    norm_num
  have hg' : (g : ℚ) ≠ 0 := Nat.cast_ne_zero.mpr hg
  rw [hleft, hright, hpow, expanded]
  push_cast
  field_simp

end Reduced

theorem exists_reduced {left right : Nat} (hleft : left ≠ 0) (hright : right ≠ 0) :
    ∃ denominator numerator rest twos fives,
      removeFactor (right / left.gcd right) 2 = some (denominator, twos) ∧
      removeFactor denominator 5 = some (rest, fives) ∧ numerator = left / left.gcd right ∧
      Reduced left right numerator rest twos fives := by
  have hpos : 0 < left.gcd right := Nat.gcd_pos_of_pos_left right (Nat.pos_of_ne_zero hleft)
  have hcancelLeft := Nat.div_mul_cancel (Nat.gcd_dvd_left left right)
  have hcancelRight := Nat.div_mul_cancel (Nat.gcd_dvd_right left right)
  have hdenominator : right / left.gcd right ≠ 0 := fun h => hright (by
    rw [← hcancelRight, h, zero_mul])
  obtain ⟨denominator, twos, htwos, hsplitTwo, hnoTwo⟩ :=
    removeFactor_spec hdenominator (show 1 < 2 by decide)
  have hne : denominator ≠ 0 := fun h => hdenominator (by rw [← hsplitTwo, h, zero_mul])
  obtain ⟨rest, fives, hfives, hsplitFive, hnoFive⟩ :=
    removeFactor_spec hne (show 1 < 5 by decide)
  refine ⟨denominator, _, rest, twos, fives, htwos, hfives, rfl, ?_, ?_, ?_, hnoFive⟩
  · refine ⟨left.gcd right, hpos.ne', hcancelLeft.symm, ?_⟩
    rw [hsplitFive, hsplitTwo, hcancelRight]
  · rw [hsplitFive, hsplitTwo]
    exact Nat.coprime_div_gcd_div_gcd hpos
  · intro hdvd
    exact hnoTwo (by rw [← hsplitFive]; exact hdvd.mul_right _)

/-! ## The quotient of two decimals -/

theorem signed_div (left right : Bool) (m n : Nat) :
    (signed left m : ℚ) / signed right n = signed (left ^^ right) m / n := by
  cases left <;> cases right <;> simp [signed, neg_div, div_neg]

theorem toRat_div (a b : FixedDecimal) :
    a.toRat / b.toRat = signed (a.isNegative ^^ b.isNegative) a.mantissa.natAbs /
      b.mantissa.natAbs * (10 ^ b.scale / 10 ^ a.scale) := by
  rw [← signed_div, signed_natAbs, signed_natAbs, toRat, toRat]
  field_simp

section Quotient

variable {a b : FixedDecimal} {numerator rest twos fives : Nat}

/-- The quotient of decimals, with its places moved by the two scales. -/
theorem quotient_value
    (h : Reduced a.mantissa.natAbs b.mantissa.natAbs numerator 1 twos fives) :
    a.toRat / b.toRat = (signed (a.isNegative ^^ b.isNegative) (expanded numerator twos fives *
        10 ^ (-resultScale (max twos fives) a.scale b.scale).toNat) : ℚ) /
      10 ^ (resultScale (max twos fives) a.scale b.scale).toNat := by
  set scale := resultScale (max twos fives) a.scale b.scale with hscale
  have hmagnitude := h.expanded_value
  have hsigned (m n : Nat) : (signed (a.isNegative ^^ b.isNegative) m : ℚ) / n =
      signed (a.isNegative ^^ b.isNegative) 1 * (m / n) := by
    cases a.isNegative ^^ b.isNegative <;> simp [signed, neg_div]
  have hexponent : max twos fives + a.scale + (-scale).toNat = b.scale + scale.toNat := by
    simp only [hscale, resultScale]
    omega
  rw [toRat_div, hsigned, hmagnitude]
  have hten := congrArg (fun k => (10 : ℚ) ^ k) hexponent
  simp only [pow_add] at hten
  have hright := hsigned (expanded numerator twos fives * 10 ^ (-scale).toNat) (10 ^ scale.toNat)
  push_cast at hright
  rw [hright, mul_assoc]
  congr 1
  rw [div_mul_div_comm, div_eq_div_iff (by positivity) (by positivity)]
  calc (expanded numerator twos fives : ℚ) * 10 ^ b.scale * 10 ^ scale.toNat =
        expanded numerator twos fives * (10 ^ b.scale * 10 ^ scale.toNat) := by ring
    _ = expanded numerator twos fives * 10 ^ (-scale).toNat *
        (10 ^ max twos fives * 10 ^ a.scale) := by rw [← hten]; ring

/-- The form the quotient is constructed from is canonical. -/
theorem quotient_canonical
    (h : Reduced a.mantissa.natAbs b.mantissa.natAbs numerator 1 twos fives) (negative : Bool) :
    Canonical (signed negative (expanded numerator twos fives *
        10 ^ (-resultScale (max twos fives) a.scale b.scale).toNat))
      (resultScale (max twos fives) a.scale b.scale).toNat := by
  by_cases hscale : resultScale (max twos fives) a.scale b.scale ≤ 0
  · exact .inl (Int.toNat_of_nonpos hscale)
  · right
    rw [ten_dvd_signed, Int.toNat_of_nonpos (by omega), pow_zero, mul_one]
    by_cases hplaces : 0 < max twos fives
    · exact h.expanded_canonical hplaces
    · -- nothing was expanded, and the scale comes from the left decimal, which is canonical
      obtain ⟨htwos, hfives⟩ : twos = 0 ∧ fives = 0 := by omega
      subst htwos hfives
      have hleft : a.scale ≠ 0 := by
        simp only [resultScale] at hscale
        omega
      have hmantissa : ¬ (10 : Int) ∣ a.mantissa := a.canonicalForm.resolve_left hleft
      obtain ⟨g, -, hnumerator, -⟩ := h.common
      intro hten
      apply hmantissa
      rw [← Int.natAbs_dvd_natAbs, hnumerator]
      have hexpanded : expanded numerator 0 0 = numerator := by simp [expanded]
      rw [hexpanded] at hten
      exact hten.mul_right g

theorem den_dvd_pow {q : ℚ} {m : Int} {s : Nat} (h : q = m / 10 ^ s) : q.den ∣ 10 ^ s := by
  have hdvd := Rat.den_dvd m (10 ^ s)
  rw [Rat.divInt_eq_div] at hdvd
  push_cast at hdvd
  rw [← h] at hdvd
  exact_mod_cast hdvd

theorem eq_two_or_five {p k : Nat} (hp : p.Prime) (h : p ∣ 10 ^ k) : p = 2 ∨ p = 5 := by
  have hten : p ∣ 2 * 5 := hp.dvd_of_dvd_pow h
  exact (hp.dvd_mul.mp hten).imp (Nat.prime_dvd_prime_iff_eq hp Nat.prime_two).mp
    (Nat.prime_dvd_prime_iff_eq hp Nat.prime_five).mp

/-- A prime of the rest stays in the denominator of the quotient. -/
theorem rest_dvd_den (h : Reduced a.mantissa.natAbs b.mantissa.natAbs numerator rest twos fives)
    (hb : b.mantissa ≠ 0) {p : Nat} (hp : p.Prime) (hdvd : p ∣ rest) :
    p ≠ 2 ∧ p ≠ 5 ∧ p ∣ (a.toRat / b.toRat).den := by
  have htwo : p ≠ 2 := fun heq => h.noTwo (heq ▸ hdvd)
  have hfive : p ≠ 5 := fun heq => h.noFive (heq ▸ hdvd)
  refine ⟨htwo, hfive, ?_⟩
  obtain ⟨g, hg, hleft, hright⟩ := h.common
  -- cross multiplication, on magnitudes and without the common divisor
  have hcross : (a.toRat / b.toRat).num * (b.mantissa * 10 ^ a.scale) =
      a.mantissa * 10 ^ b.scale * (a.toRat / b.toRat).den := by
    have hb' : (b.mantissa : ℚ) ≠ 0 := Int.cast_ne_zero.mpr hb
    have hvalue : a.toRat / b.toRat * (b.mantissa * 10 ^ a.scale) = a.mantissa * 10 ^ b.scale := by
      rw [toRat, toRat]
      field_simp
    rw [← Int.cast_inj (α := ℚ)]
    push_cast
    rw [← Rat.mul_den_eq_num (a.toRat / b.toRat), mul_right_comm, hvalue]
  have hnat := congrArg Int.natAbs hcross
  simp only [Int.natAbs_mul, Int.natAbs_pow, Int.natAbs_natCast] at hnat
  rw [hleft, hright] at hnat
  have hreduced : (a.toRat / b.toRat).num.natAbs * (rest * 5 ^ fives * 2 ^ twos * 10 ^ a.scale) =
      numerator * 10 ^ b.scale * (a.toRat / b.toRat).den := by
    apply Nat.eq_of_mul_eq_mul_right (Nat.pos_of_ne_zero hg)
    calc _ = (a.toRat / b.toRat).num.natAbs *
          (rest * 5 ^ fives * 2 ^ twos * g * Int.natAbs 10 ^ a.scale) := by
          rw [show Int.natAbs 10 = 10 from rfl]; ring
      _ = _ := by rw [hnat, show Int.natAbs 10 = 10 from rfl]; ring
  have hmem : p ∣ numerator * 10 ^ b.scale * (a.toRat / b.toRat).den := by
    rw [← hreduced]
    exact ((((hdvd.mul_right _).mul_right _).mul_right _).mul_left _)
  rcases hp.dvd_mul.mp hmem with hmem | hden
  · exfalso
    rcases hp.dvd_mul.mp hmem with hn | hten
    · exact hp.one_lt.ne' (Nat.eq_one_of_dvd_coprimes h.coprime hn ((hdvd.mul_right _).mul_right _))
    · exact (eq_two_or_five hp hten).elim htwo hfive
  · exact hden

end Quotient

/-! ## Loss of precision -/

/-- A value without a decimal expansion, or with one of more than 38 places. -/
def LosesPrecision (q : ℚ) : Prop :=
  (∃ p, p.Prime ∧ p ≠ 2 ∧ p ≠ 5 ∧ p ∣ q.den) ∨ ∃ m s, Canonical m s ∧ 38 < s ∧ q = m / 10 ^ s

/-- The denominator of a decimal fraction has no prime but two and five. -/
theorem prime_of_fraction {q : ℚ} {m : Int} {s : Nat} (h : q = m / 10 ^ s) {p : Nat} (hp : p.Prime)
    (hdvd : p ∣ q.den) : p = 2 ∨ p = 5 :=
  eq_two_or_five hp (hdvd.trans (den_dvd_pow h))

theorem losesPrecision_canonical {m : Int} {s : Nat} (h : Canonical m s) :
    LosesPrecision (m / 10 ^ s) ↔ 38 < s := by
  constructor
  · rintro (⟨p, hp, htwo, hfive, hdvd⟩ | ⟨m', s', hcanonical, hlarge, hvalue⟩)
    · rcases prime_of_fraction rfl hp hdvd with heq | heq
      · exact absurd heq htwo
      · exact absurd heq hfive
    · rw [(canonical_unique h hcanonical hvalue).2]
      exact hlarge
  · intro hlarge
    exact .inr ⟨m, s, h, hlarge, rfl⟩

theorem LosesPrecision.not_representable {q : ℚ} (h : LosesPrecision q) : ¬ Representable q := by
  rcases h with ⟨p, hp, htwo, hfive, hdvd⟩ | ⟨m, s, hcanonical, hlarge, rfl⟩
  · rintro ⟨m, s, -, -, hvalue⟩
    rcases prime_of_fraction hvalue hp hdvd with heq | heq
    · exact htwo heq
    · exact hfive heq
  · rw [representable_canonical hcanonical]
    exact fun hrep => absurd hrep.2 (not_le.mpr hlarge)

theorem newSigned_ne_precisionLoss (magnitude : Nat) (negative : Bool) (scale : Nat) :
    newSigned magnitude negative scale ≠ .error .precisionLoss := by
  intro h
  unfold newSigned at h
  cases hsigned : signedMagnitude magnitude negative with
  | error e =>
    rw [attach_of_error hsigned, error_bind] at h
    unfold signedMagnitude at hsigned
    split at hsigned
    · cases hsigned
    · split at hsigned
      · cases hsigned
        cases h
      · split at hsigned <;> cases hsigned
  | ok m =>
    rw [attach_of_ok hsigned, ok_bind] at h
    unfold new at h
    split at h <;> cases h

/-- What is made of a reduced quotient. -/
theorem expandedQuotient_exact {a b : FixedDecimal} {numerator rest twos fives : Nat}
    (h : Reduced a.mantissa.natAbs b.mantissa.natAbs numerator rest twos fives)
    (ha : a.mantissa.natAbs ≠ 0) (hb : b.mantissa ≠ 0) :
    Exact (expandedQuotient numerator rest twos fives a.scale b.scale
        (a.isNegative ^^ b.isNegative)) (a.toRat / b.toRat) ∧
      (expandedQuotient numerator rest twos fives a.scale b.scale (a.isNegative ^^ b.isNegative) =
        .error .precisionLoss ↔ LosesPrecision (a.toRat / b.toRat)) := by
  by_cases hrest : rest = 1
  · subst hrest
    have hcanonical := quotient_canonical h (a.isNegative ^^ b.isNegative)
    rw [quotient_value h, losesPrecision_canonical hcanonical]
    by_cases hscale : resultScale (max twos fives) a.scale b.scale ≤ maxScale
    · rw [expandedQuotient_eq (h.numerator_ne_zero ha) _ _ _ _ _ hscale]
      refine ⟨newSigned_exact hcanonical, fun hloss => ?_, fun hlarge => ?_⟩
      · exact absurd hloss (newSigned_ne_precisionLoss _ _ _)
      · simp only [maxScale] at hscale
        omega
    · have hlarge : 38 < (resultScale (max twos fives) a.scale b.scale).toNat := by
        simp only [maxScale] at hscale
        omega
      have hloss : expandedQuotient numerator 1 twos fives a.scale b.scale
          (a.isNegative ^^ b.isNegative) = .error .precisionLoss := by
        unfold expandedQuotient
        dsimp only
        rw [reject_neg (not_not.mpr rfl), ok_bind, reject_pos (not_le.mp hscale), error_bind]
      rw [hloss]
      exact ⟨exact_error ((losesPrecision_canonical hcanonical).mpr hlarge).not_representable,
        fun _ => hlarge, fun _ => rfl⟩
  · have hloss : expandedQuotient numerator rest twos fives a.scale b.scale
        (a.isNegative ^^ b.isNegative) = .error .precisionLoss := by
      unfold expandedQuotient
      rw [reject_pos hrest, error_bind]
    obtain ⟨p, hp, hdvd⟩ := Nat.exists_prime_and_dvd hrest
    have hloses : LosesPrecision (a.toRat / b.toRat) := .inl ⟨p, hp, rest_dvd_den h hb hp hdvd⟩
    rw [hloss]
    exact ⟨exact_error hloses.not_representable, fun _ => hloses, fun _ => rfl⟩

/-- Division by a decimal that is not zero returns, with the exact quotient wherever it is
    representable and an error elsewhere. The error is the loss of precision where the denominator
    of the quotient has a prime factor other than two and five, or its expansion has more than 38
    places, and nowhere else. -/
theorem quotient_exact (a b : FixedDecimal) (hb : b.isZero = false) :
    ∃ result, a.checkedDivExact b = some result ∧ Exact result (a.toRat / b.toRat) ∧
      (result = .error .precisionLoss ↔
        (∃ p, p.Prime ∧ p ≠ 2 ∧ p ≠ 5 ∧ p ∣ (a.toRat / b.toRat).den) ∨
        ∃ m s, Canonical m s ∧ 38 < s ∧ a.toRat / b.toRat = m / 10 ^ s) := by
  have hright : b.mantissa.natAbs ≠ 0 := isZero_eq_false.mp hb
  cases ha : a.isZero with
  | true =>
    have hzero : Canonical 0 0 := .inl rfl
    have hvalue : a.toRat / b.toRat = ((0 : Int) : ℚ) / 10 ^ 0 := by
      rw [toRat_of_isZero ha]
      simp
    refine ⟨new 0 zero_inRange 0, by simp [checkedDivExact, hb, ha], ?_, ?_⟩
    · rw [toRat_of_isZero ha, zero_div]
      exact exact_zero
    · change _ ↔ LosesPrecision (a.toRat / b.toRat)
      rw [hvalue, losesPrecision_canonical hzero]
      constructor
      · intro h
        cases h
      · intro h
        omega
  | false =>
    have hleft : a.mantissa.natAbs ≠ 0 := isZero_eq_false.mp ha
    obtain ⟨denominator, numerator, rest, twos, fives, htwos, hfives, hnumerator, hreduced⟩ :=
      exists_reduced hleft hright
    obtain ⟨hexact, hloss⟩ := expandedQuotient_exact hreduced hleft (Int.natAbs_ne_zero.mp hright)
    refine ⟨_, ?_, hexact, hloss⟩
    simp [checkedDivExact, hb, ha, greatestCommonDivisor_eq, htwos, hfives, hnumerator]

/-- A third has no decimal expansion. -/
theorem third_loses_precision :
    ∃ one three : FixedDecimal, one.toRat = 1 ∧ three.toRat = 3 ∧
      one.checkedDivExact three = some (.error .precisionLoss) := by
  let one := whole 1 (tenths_inRange (by decide))
  let three := whole 3 (tenths_inRange (by decide))
  have hone : one.toRat = 1 := by simp [one, whole, toRat]
  have hthree : three.toRat = 3 := by simp [three, whole, toRat]
  obtain ⟨result, hresult, -, hloss⟩ := quotient_exact one three rfl
  refine ⟨one, three, hone, hthree, ?_⟩
  rw [hresult, hloss.mpr (.inl ⟨3, Nat.prime_three, by decide, by decide, ?_⟩)]
  rw [hone, hthree]
  norm_num

end FixedDecimal

end CryptoIntelligence.Decimal
