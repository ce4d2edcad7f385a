/-
  Checked products of two and of three decimals (`fixed-decimal`). The tens that the scale allows
  are cancelled from the magnitudes before these are multiplied: the factors of two and of five are
  counted over all magnitudes and divided out where they stand.

  The loops that count a factor do not end on zero; they are modelled with fuel, and what is proved
  includes that they end on the magnitudes they are given. A product is a function of the product of
  the magnitudes, the sum of the scales and the sign (`productOf_eq`), so it does not depend on the
  order of the arguments.
-/
import CryptoIntelligence.Lib.Loop
import CryptoIntelligence.Decimal.Arithmetic

namespace CryptoIntelligence.Decimal

open Lib List

/-! ## Counting and cancelling a factor -/

/-- One round of the loop on the value and the count. -/
def removeStep (factor : Nat) (state : Nat × Nat) : (Nat × Nat) ⊕ (Nat × Nat) :=
  if factor ∣ state.1 then .inl (state.1 / factor, state.2 + 1) else .inr state

/-- The value without the factor, and how often it was removed. -/
def removeFactor (value factor : Nat) : Option (Nat × Nat) :=
  loop (removeStep factor) (value + 1) (value, 0)

def factorCount (value factor : Nat) : Option Nat := (removeFactor value factor).map Prod.snd

def totalFactorCount (values : List Nat) (factor : Nat) : Option Nat :=
  (values.mapM fun value => factorCount value factor).map List.sum

/-- The loop of `cancel_factor` on one value: the value and the count that remains. -/
def cancelOne (factor : Nat) : Nat → Nat → Nat × Nat
  | 0, value => (value, 0)
  | count + 1, value =>
    if factor ∣ value then cancelOne factor count (value / factor) else (value, count + 1)

def cancelFactor (factor : Nat) : Nat → List Nat → List Nat
  | _, [] => []
  | count, value :: values =>
    let (value, remaining) := cancelOne factor count value
    if remaining = 0 then value :: values else value :: cancelFactor factor remaining values

theorem removeFactor_spec {value factor : Nat} (hvalue : value ≠ 0) (hfactor : 1 < factor) :
    ∃ rest count, removeFactor value factor = some (rest, count) ∧
      rest * factor ^ count = value ∧ ¬ factor ∣ rest := by
  suffices hloop : ∃ result, removeFactor value factor = some result ∧
      result.1 * factor ^ result.2 = value ∧ ¬ factor ∣ result.1 by
    obtain ⟨⟨rest, count⟩, hresult⟩ := hloop
    exact ⟨rest, count, hresult⟩
  -- the value is the part that is left times the factors removed so far
  refine loop_returns (fun state : Nat × Nat => state.1 ≠ 0 ∧ state.1 * factor ^ state.2 = value)
    Prod.fst _ ?_ ?_ ⟨hvalue, by simp⟩ (Nat.lt_succ_self value)
  · rintro state next ⟨hne, hinv⟩ hstep
    unfold removeStep at hstep
    split at hstep
    · rename_i hdvd
      cases hstep
      have hpos := Nat.pos_of_ne_zero hne
      refine ⟨⟨(Nat.div_pos (Nat.le_of_dvd hpos hdvd) (by omega)).ne', ?_⟩,
        Nat.div_lt_self hpos hfactor⟩
      rw [pow_succ', ← mul_assoc, Nat.div_mul_cancel hdvd]
      exact hinv
    · cases hstep
  · rintro state result ⟨-, hinv⟩ hstep
    unfold removeStep at hstep
    split at hstep
    · cases hstep
    · rename_i hdvd
      cases hstep
      exact ⟨hinv, hdvd⟩

variable {p : Nat}

theorem factorCount_eq (hp : p.Prime) {value : Nat} (hvalue : value ≠ 0) :
    factorCount value p = some (padicValNat p value) := by
  obtain ⟨rest, count, hremove, hproduct, hrest⟩ := removeFactor_spec hvalue hp.one_lt
  have := Fact.mk hp
  have hne : rest ≠ 0 := fun h => hvalue (by rw [← hproduct, h, zero_mul])
  have hcount : padicValNat p value = count := by
    rw [← hproduct, padicValNat.mul hne (pow_ne_zero _ hp.ne_zero), padicValNat.prime_pow,
      padicValNat.eq_zero_of_not_dvd hrest, zero_add]
  rw [factorCount, hremove, hcount]
  rfl

theorem totalFactorCount_eq (hp : p.Prime) {values : List Nat} (hvalues : ∀ v ∈ values, v ≠ 0) :
    totalFactorCount values p = some (padicValNat p values.prod) := by
  have := Fact.mk hp
  induction values with
  | nil => simp [totalFactorCount]
  | cons value values ih =>
    have hvalue := hvalues value mem_cons_self
    have hrest := ih fun v hv => hvalues v (mem_cons_of_mem value hv)
    have hprod : values.prod ≠ 0 := prod_ne_zero fun h =>
      hvalues 0 (mem_cons_of_mem value h) rfl
    obtain ⟨counts, hcounts, hsum⟩ := Option.map_eq_some_iff.mp hrest
    rw [totalFactorCount, mapM_cons, factorCount_eq hp hvalue]
    simp only [Option.pure_def, Option.bind_eq_bind, Option.bind_some, hcounts, Option.map_some,
      sum_cons, hsum, prod_cons, padicValNat.mul hvalue hprod]

theorem cancelOne_spec (factor count value : Nat) :
    ∃ removed, (cancelOne factor count value).2 + removed = count ∧
      (cancelOne factor count value).1 * factor ^ removed = value ∧
      ((cancelOne factor count value).2 = 0 ∨ ¬ factor ∣ (cancelOne factor count value).1) := by
  induction count generalizing value with
  | zero => exact ⟨0, rfl, by simp [cancelOne], .inl rfl⟩
  | succ count ih =>
    unfold cancelOne
    split
    · rename_i hdvd
      obtain ⟨removed, hcount, hvalue, hrest⟩ := ih (value / factor)
      refine ⟨removed + 1, by omega, ?_, hrest⟩
      rw [pow_succ, ← mul_assoc, hvalue, Nat.div_mul_cancel hdvd]
    · rename_i hdvd
      exact ⟨0, rfl, by simp, .inr hdvd⟩

/-- A power of a prime that divides the product is cancelled from it. -/
theorem prod_cancelFactor (hp : p.Prime) (values : List Nat) (count : Nat)
    (h : p ^ count ∣ values.prod) :
    (cancelFactor p count values).prod * p ^ count = values.prod := by
  induction values generalizing count with
  | nil =>
    have hone : p ^ count = 1 := Nat.dvd_one.mp (by simpa using h)
    rw [cancelFactor, hone, mul_one]
  | cons value values ih =>
    obtain ⟨removed, hcount, hvalue, hrest⟩ := cancelOne_spec p count value
    have hpow : p ^ count = p ^ (cancelOne p count value).2 * p ^ removed := by
      rw [← pow_add, hcount]
    unfold cancelFactor
    dsimp only
    split
    · rename_i hdone
      rw [hdone, pow_zero, one_mul] at hpow
      rw [prod_cons, prod_cons, hpow, mul_right_comm, hvalue]
    · rename_i hleft
      -- the value has lost every factor, so what is left to cancel divides the other values
      have hcoprime : (p ^ (cancelOne p count value).2).Coprime (cancelOne p count value).1 :=
        Nat.Coprime.pow_left _ ((Nat.Prime.coprime_iff_not_dvd hp).mpr (hrest.resolve_left hleft))
      have hdvd : p ^ (cancelOne p count value).2 ∣ values.prod := by
        apply hcoprime.dvd_of_dvd_mul_left
        apply Nat.dvd_of_mul_dvd_mul_right (pow_pos hp.pos removed)
        rw [← hpow, mul_right_comm, hvalue]
        exact h
      rw [prod_cons, prod_cons, hpow]
      calc (cancelOne p count value).1 * (cancelFactor p (cancelOne p count value).2 values).prod *
            (p ^ (cancelOne p count value).2 * p ^ removed) =
          (cancelOne p count value).1 * p ^ removed *
            ((cancelFactor p (cancelOne p count value).2 values).prod *
              p ^ (cancelOne p count value).2) := by ring
        _ = value * values.prod := by rw [hvalue, ih _ hdvd]

namespace FixedDecimal

/-! ## Products -/

/-- The product of magnitudes. `checked_mul` multiplies its two factors directly; the first step of
    the fold, which multiplies by one, cannot fail. -/
def checkedProduct (factors : List Nat) : Except DecimalError Nat :=
  factors.foldlM (fun product factor => checkedU128 (product * factor)) 1

def cancelledProduct (factors : List Nat) (combinedScale twos fives : Nat) (negative : Bool) :
    Except DecimalError FixedDecimal := do
  let cancellableTens := min (min combinedScale twos) fives
  let factors := cancelFactor 5 cancellableTens (cancelFactor 2 cancellableTens factors)
  let scale := combinedScale - cancellableTens
  reject (scale > maxScale) .scaleTooLarge
  let magnitude ← checkedProduct factors
  newSigned magnitude negative scale

/-- The common part of `checked_mul` and `checked_product3`, on magnitudes that are not zero. The
    scales are at most 38, so their sum does not overflow. -/
def productOf (factors : List Nat) (combinedScale : Nat) (negative : Bool) :
    Option (Except DecimalError FixedDecimal) := do
  let twos ← totalFactorCount factors 2
  let fives ← totalFactorCount factors 5
  pure (cancelledProduct factors combinedScale twos fives negative)

theorem zero_inRange : InI128 0 := by decide

def checkedMul (left right : FixedDecimal) : Option (Except DecimalError FixedDecimal) :=
  if left.isZero || right.isZero then some (new 0 zero_inRange 0)
  else productOf [left.mantissa.natAbs, right.mantissa.natAbs] (left.scale + right.scale)
    (left.isNegative ^^ right.isNegative)

def checkedProduct3 (first second third : FixedDecimal) :
    Option (Except DecimalError FixedDecimal) :=
  if first.isZero || second.isZero || third.isZero then some (new 0 zero_inRange 0)
  else productOf [first.mantissa.natAbs, second.mantissa.natAbs, third.mantissa.natAbs]
    (first.scale + second.scale + third.scale)
    (first.isNegative ^^ second.isNegative ^^ third.isNegative)

/-! ## A product in canonical form -/

/-- The tens common to a scale and a magnitude. -/
def commonTens (magnitude scale : Nat) : Nat :=
  min (min scale (padicValNat 2 magnitude)) (padicValNat 5 magnitude)

/-- A magnitude and a scale without their common tens, as a decimal. -/
def canonicalProduct (magnitude scale : Nat) (negative : Bool) :
    Except DecimalError FixedDecimal := do
  reject (scale - commonTens magnitude scale > maxScale) .scaleTooLarge
  newSigned (magnitude / 10 ^ commonTens magnitude scale) negative
    (scale - commonTens magnitude scale)

theorem checkedProduct_eq {factors : List Nat} (h : ∀ f ∈ factors, f ≠ 0) :
    checkedProduct factors = checkedU128 factors.prod := by
  have hfold : ∀ acc, acc < 2 ^ 128 → (factors.foldlM (fun product factor =>
      checkedU128 (product * factor)) acc : Except DecimalError Nat) =
        checkedU128 (acc * factors.prod) := by
    induction factors with
    | nil =>
      intro acc hacc
      rw [foldlM_nil, prod_nil, mul_one, checkedU128_of_lt hacc]
      rfl
    | cons factor factors ih =>
      intro acc hacc
      rw [foldlM_cons, prod_cons, ← mul_assoc]
      by_cases hlt : acc * factor < 2 ^ 128
      · rw [checkedU128_of_lt hlt, ok_bind]
        exact ih (fun f hf => h f (mem_cons_of_mem factor hf)) _ hlt
      · have hprod : factors.prod ≠ 0 := prod_ne_zero fun hzero =>
          h 0 (mem_cons_of_mem factor hzero) rfl
        rw [checkedU128_of_le (not_lt.mp hlt), checkedU128_mul_of_le (not_lt.mp hlt) hprod,
          error_bind]
  rw [checkedProduct, hfold 1 (by decide), one_mul]

variable {magnitude : Nat}

/-- A magnitude beyond `u128` is beyond `i128` under either sign. -/
theorem newSigned_of_le (h : 2 ^ 128 ≤ magnitude) (negative : Bool) (scale : Nat) :
    newSigned magnitude negative scale = .error .arithmeticOverflow := by
  have hsigned : signedMagnitude magnitude negative = .error .arithmeticOverflow := by
    have hlarge : (magnitude : Int) > i128Max := by
      simp only [i128Max]
      omega
    have hne : ¬ (negative = true ∧ (magnitude : Int) = i128Max + 1) := by
      simp only [i128Max]
      omega
    rw [signedMagnitude, if_neg hne, if_pos hlarge]
  rw [newSigned, attach_of_error hsigned, error_bind]

theorem checkedU128_bind_newSigned (m : Nat) (negative : Bool) (scale : Nat) :
    (checkedU128 m >>= fun value => newSigned value negative scale) = newSigned m negative scale :=
  checkedU128_bind (fun h => newSigned_of_le h negative scale) m

theorem commonTens_dvd (magnitude scale : Nat) :
    2 ^ commonTens magnitude scale ∣ magnitude ∧ 5 ^ commonTens magnitude scale ∣ magnitude := by
  have htwos : commonTens magnitude scale ≤ padicValNat 2 magnitude :=
    (min_le_left _ _).trans (min_le_right _ _)
  have hfives : commonTens magnitude scale ≤ padicValNat 5 magnitude := min_le_right _ _
  exact ⟨(pow_dvd_pow 2 htwos).trans pow_padicValNat_dvd,
    (pow_dvd_pow 5 hfives).trans pow_padicValNat_dvd⟩

theorem ten_pow_commonTens_dvd (magnitude scale : Nat) :
    10 ^ commonTens magnitude scale ∣ magnitude := by
  obtain ⟨htwo, hfive⟩ := commonTens_dvd magnitude scale
  rw [show 10 = 2 * 5 from rfl, mul_pow]
  exact Nat.Coprime.mul_dvd_of_dvd_of_dvd (Nat.Coprime.pow _ _ (by decide)) htwo hfive

/-- Without the common tens the scale is zero or no ten is left. -/
theorem commonTens_canonical (h : magnitude ≠ 0) (scale : Nat) :
    scale - commonTens magnitude scale = 0 ∨
      ¬ 10 ∣ magnitude / 10 ^ commonTens magnitude scale := by
  by_cases hscale : commonTens magnitude scale = scale
  · exact .inl (by omega)
  · right
    intro hten
    -- one more ten would be a factor of two and of five more than there are
    have hmore : 10 ^ (commonTens magnitude scale + 1) ∣ magnitude := by
      rw [pow_succ]
      exact Nat.mul_dvd_of_dvd_div (ten_pow_commonTens_dvd magnitude scale) hten
    have hcount {p : Nat} (hp : p.Prime) (hdvd : p ∣ 10) :
        commonTens magnitude scale + 1 ≤ padicValNat p magnitude := by
      have := Fact.mk hp
      exact (padicValNat_dvd_iff_le h).mp ((pow_dvd_pow_of_dvd hdvd _).trans hmore)
    have htwos := hcount Nat.prime_two (by decide)
    have hfives := hcount Nat.prime_five (by decide)
    unfold commonTens at hscale htwos hfives
    omega

theorem canonicalProduct_exact (h : magnitude ≠ 0) (scale : Nat) (negative : Bool) :
    Exact (canonicalProduct magnitude scale negative) (signed negative magnitude / 10 ^ scale) := by
  set tens := commonTens magnitude scale with htens
  have hle : tens ≤ scale := (min_le_left _ _).trans (min_le_left _ _)
  have hcanonical : Canonical (signed negative (magnitude / 10 ^ tens)) (scale - tens) :=
    (commonTens_canonical h scale).imp_right (mt ten_dvd_signed.mp)
  have hvalue : (signed negative magnitude : ℚ) / 10 ^ scale =
      signed negative (magnitude / 10 ^ tens) / 10 ^ (scale - tens) := by
    have hup := fraction_scale_up (signed negative (magnitude / 10 ^ tens)) (scale - tens) tens
    have hsigned := signed_mul negative (magnitude / 10 ^ tens) (10 ^ tens)
    rw [Nat.div_mul_cancel (ten_pow_commonTens_dvd magnitude scale)] at hsigned
    push_cast at hsigned
    rw [Nat.sub_add_cancel hle, ← hsigned] at hup
    exact hup
  rw [hvalue]
  unfold canonicalProduct
  rw [← htens]
  by_cases hscale : scale - tens > maxScale
  · rw [reject_pos hscale]
    apply exact_error
    rw [representable_canonical hcanonical]
    exact fun hrep => absurd hrep.2 (not_le.mpr hscale)
  · rw [reject_neg hscale, ok_bind]
    exact newSigned_exact hcanonical

/-- Whatever magnitudes a product is made of, it is the canonical form of their product. -/
theorem productOf_eq {factors : List Nat} (h : ∀ f ∈ factors, f ≠ 0) (scale : Nat)
    (negative : Bool) :
    productOf factors scale negative = some (canonicalProduct factors.prod scale negative) := by
  have hne : factors.prod ≠ 0 := prod_ne_zero fun hzero => h 0 hzero rfl
  set tens := commonTens factors.prod scale with htens
  obtain ⟨htwo, hfive⟩ := commonTens_dvd factors.prod scale
  rw [← htens] at htwo hfive
  have hcancelTwo := prod_cancelFactor Nat.prime_two factors tens htwo
  have hfive' : 5 ^ tens ∣ (cancelFactor 2 tens factors).prod := by
    rw [← hcancelTwo] at hfive
    exact (Nat.Coprime.pow _ _ (by decide)).dvd_of_dvd_mul_right hfive
  have hcancelFive := prod_cancelFactor Nat.prime_five _ tens hfive'
  have hproduct : (cancelFactor 5 tens (cancelFactor 2 tens factors)).prod =
      factors.prod / 10 ^ tens := by
    apply (Nat.div_eq_of_eq_mul_left (by positivity) ?_).symm
    rw [← hcancelTwo, ← hcancelFive, mul_assoc, ← mul_pow, show 5 * 2 = 10 from rfl]
  have hfactors : ∀ f ∈ cancelFactor 5 tens (cancelFactor 2 tens factors), f ≠ 0 := by
    intro f hf hzero
    subst hzero
    rw [prod_eq_zero hf, zero_mul] at hcancelFive
    rw [← hcancelFive, zero_mul] at hcancelTwo
    exact hne hcancelTwo.symm
  rw [productOf, totalFactorCount_eq Nat.prime_two h, totalFactorCount_eq Nat.prime_five h]
  simp only [Option.bind_eq_bind, Option.bind_some, Option.pure_def, Option.some.injEq]
  unfold cancelledProduct canonicalProduct
  dsimp only
  rw [show min (min scale (padicValNat 2 factors.prod)) (padicValNat 5 factors.prod) =
    tens from rfl, ← htens, checkedProduct_eq hfactors, hproduct]
  by_cases hscale : scale - tens > maxScale
  · rw [reject_pos hscale, error_bind, error_bind]
  · rw [reject_neg hscale, ok_bind, ok_bind, checkedU128_bind_newSigned]

/-! ## Products of decimals -/

theorem isZero_eq_false {d : FixedDecimal} : d.isZero = false ↔ d.mantissa.natAbs ≠ 0 := by
  simp [isZero]

theorem toRat_of_isZero {d : FixedDecimal} (h : d.isZero = true) : d.toRat = 0 := by
  have hzero : d.mantissa = 0 := by simpa [isZero] using h
  rw [toRat, hzero]
  simp

theorem exact_zero : Exact (new 0 zero_inRange 0) 0 := by
  have hzero : Exact (newSigned 0 false 0) (signed false 0 / 10 ^ 0) := newSigned_exact (.inl rfl)
  have hvalue : ((signed false 0 : Int) : ℚ) / 10 ^ 0 = 0 := by simp [signed]
  rw [hvalue] at hzero
  exact hzero

/-- The product of any decimals, by the product of their magnitudes, the sum of their scales and
    the parity of their signs. -/
def productOfAll (decimals : List FixedDecimal) : Except DecimalError FixedDecimal :=
  if decimals.any isZero then new 0 zero_inRange 0
  else canonicalProduct (decimals.map fun d => d.mantissa.natAbs).prod (decimals.map scale).sum
    (decimals.foldr (fun d negative => d.isNegative ^^ negative) false)

theorem signed_product (decimals : List FixedDecimal) :
    (signed (decimals.foldr (fun d negative => d.isNegative ^^ negative) false)
      (decimals.map fun d => d.mantissa.natAbs).prod : ℚ) / 10 ^ (decimals.map scale).sum =
        (decimals.map toRat).prod := by
  induction decimals with
  | nil => simp [signed]
  | cons d decimals ih =>
    simp only [foldr_cons, map_cons, prod_cons, sum_cons, signed_xor,
      signed_natAbs, ← ih, toRat, pow_add]
    push_cast
    exact (div_mul_div_comm _ _ _ _).symm

theorem productOfAll_exact (decimals : List FixedDecimal) :
    Exact (productOfAll decimals) (decimals.map toRat).prod := by
  unfold productOfAll
  split
  · rename_i hzero
    obtain ⟨d, hd, hzero⟩ := any_eq_true.mp hzero
    rw [prod_eq_zero (mem_map.mpr ⟨d, hd, toRat_of_isZero hzero⟩)]
    exact exact_zero
  · rename_i hzero
    rw [← signed_product]
    apply canonicalProduct_exact
    apply prod_ne_zero
    intro hmem
    obtain ⟨d, hd, hd0⟩ := mem_map.mp hmem
    exact hzero (any_eq_true.mpr ⟨d, hd, by simpa [isZero] using hd0⟩)

theorem productOfAll_perm {left right : List FixedDecimal} (h : left.Perm right) :
    productOfAll left = productOfAll right := by
  have hcomm : LeftCommutative fun (d : FixedDecimal) negative => d.isNegative ^^ negative :=
    ⟨fun a b negative => Bool.xor_left_comm _ _ _⟩
  unfold productOfAll
  rw [h.any_eq, (h.map _).prod_eq, (h.map _).sum_eq, h.foldr_eq]

theorem checkedMul_eq (a b : FixedDecimal) : a.checkedMul b = some (productOfAll [a, b]) := by
  unfold checkedMul productOfAll
  have hany : [a, b].any isZero = (a.isZero || b.isZero) := by simp
  rw [hany]
  split
  · rfl
  · rename_i hzero
    rw [Bool.not_eq_true, Bool.or_eq_false_iff, isZero_eq_false, isZero_eq_false] at hzero
    rw [productOf_eq (by simpa using hzero)]
    simp

theorem checkedProduct3_eq (a b c : FixedDecimal) :
    a.checkedProduct3 b c = some (productOfAll [a, b, c]) := by
  unfold checkedProduct3 productOfAll
  have hany : [a, b, c].any isZero = (a.isZero || b.isZero || c.isZero) := by simp [Bool.or_assoc]
  rw [hany]
  split
  · rfl
  · rename_i hzero
    rw [Bool.not_eq_true, Bool.or_eq_false_iff, Bool.or_eq_false_iff, isZero_eq_false,
      isZero_eq_false, isZero_eq_false] at hzero
    rw [productOf_eq (by simpa [and_assoc] using hzero)]
    simp [add_assoc]

/-- Both products return, with the exact value wherever it is representable and an error elsewhere;
    the product of three does not depend on the order of its arguments, and is that of two
    products in a row where both of them succeed. -/
theorem products_exact (a b c : FixedDecimal) :
    (∃ result, a.checkedMul b = some result ∧ Exact result (a.toRat * b.toRat)) ∧
      (∃ result, a.checkedProduct3 b c = some result ∧ Exact result (a.toRat * b.toRat * c.toRat)) ∧
      (∀ x y z, [x, y, z].Perm [a, b, c] → x.checkedProduct3 y z = a.checkedProduct3 b c) ∧
      (∀ ab abc, a.checkedMul b = some (.ok ab) → ab.checkedMul c = some (.ok abc) →
        a.checkedProduct3 b c = some (.ok abc)) := by
  have htwo (x y : FixedDecimal) : Exact (productOfAll [x, y]) (x.toRat * y.toRat) := by
    simpa using productOfAll_exact [x, y]
  have hthree : Exact (productOfAll [a, b, c]) (a.toRat * b.toRat * c.toRat) := by
    simpa [mul_assoc] using productOfAll_exact [a, b, c]
  refine ⟨⟨_, checkedMul_eq a b, htwo a b⟩, ⟨_, checkedProduct3_eq a b c, hthree⟩, ?_, ?_⟩
  · intro x y z hperm
    rw [checkedProduct3_eq, checkedProduct3_eq, productOfAll_perm hperm]
  · intro ab abc hab habc
    rw [checkedMul_eq, Option.some.injEq] at hab habc
    have hvalue : abc.toRat = a.toRat * b.toRat * c.toRat := by
      rw [(htwo ab c).1 abc habc, (htwo a b).1 ab hab]
    rw [checkedProduct3_eq, (exact_iff.mp hthree abc).mpr hvalue]

theorem one_le_maxScale : 1 ≤ maxScale := by decide

theorem tenths_inRange {m : Int} (h : -10 ≤ m ∧ m ≤ 10) : InI128 m := by
  simp only [InI128, i128Min, i128Max]
  omega

/-- A number of tenths below one. -/
def tenths (m : Int) (small : -10 ≤ m ∧ m ≤ 10) (canonical : m % 10 ≠ 0) : FixedDecimal :=
  ⟨m, 1, tenths_inRange small, one_le_maxScale, .inr canonical⟩

/-- A tenth of the least decimal, as one product and as two. -/
theorem tenth_of_least :
    ∃ half fifth least d : FixedDecimal, half.checkedProduct3 fifth least = some (.ok d) ∧
      least.checkedProduct3 fifth half = some (.ok d) ∧ d.toRat = -(2 ^ 127) / 10 := by
  let half := tenths 5 (by decide) (by decide)
  let fifth := tenths 2 (by decide) (by decide)
  let tenth := tenths 1 (by decide) (by decide)
  let least := whole i128Min i128Min_inRange
  let product : FixedDecimal := ⟨i128Min, 1, i128Min_inRange, one_le_maxScale, by decide⟩
  have hfirst : half.checkedMul fifth = some (.ok tenth) := by decide +kernel
  have hsecond : tenth.checkedMul least = some (.ok product) := by decide +kernel
  obtain ⟨-, -, hperm, hpair⟩ := products_exact half fifth least
  have hproduct := hpair tenth product hfirst hsecond
  refine ⟨half, fifth, least, product, hproduct,
    (hperm least fifth half ?_).trans hproduct, ?_⟩
  · decide +kernel
  · simp only [product, toRat, i128Min]
    norm_num

end FixedDecimal

end CryptoIntelligence.Decimal
