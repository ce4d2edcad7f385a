/-
  Numbers with an exponent (`connector-deribit`, `parser.rs`, `parse_scientific_decimal`). The
  coefficient is read as a fixed-point decimal and its scale moved by the exponent.

  The coefficient is canonical, but a whole number keeps its trailing zeros. The scale is moved
  without taking them off first, so a coefficient such as `10` can be sent past the greatest scale
  although its value is representable (`Lost`). Everywhere else the result is exact.
-/
import CryptoIntelligence.Decimal.Products

namespace CryptoIntelligence.Deribit

open Lib Decimal FixedDecimal List

inductive NativeParseError where
  | invalidDecimal
  deriving DecidableEq

/-! ## The parser -/

def isExponentMarker (c : Char) : Bool := c == 'e' || c == 'E'

/-- The digits after a sign, and whether the sign is a minus. -/
def stripExponentSign : List Char → Bool × List Char
  | '+' :: digits => (false, digits)
  | '-' :: digits => (true, digits)
  | digits => (false, digits)

def exponentValue (negative : Bool) (digits : List Char) : Int :=
  if negative then -(digitValue digits : Int) else digitValue digits

/-- `str::parse::<i32>` on a sign and digits. -/
def parseI32 (text : List Char) : Option Int :=
  let (negative, digits) := stripExponentSign text
  let value := exponentValue negative digits
  if -2147483648 ≤ value ∧ value ≤ 2147483647 then some value else none

theorem inI128_of_mul_pow {z : Int} {k : Nat} (h : InI128 (z * 10 ^ k)) : InI128 z := by
  have hpow : (1 : Int) ≤ 10 ^ k := one_le_pow₀ (by norm_num)
  obtain ⟨hlow, hhigh⟩ := h
  unfold InI128 i128Min i128Max at *
  constructor <;> by_contra hz <;> nlinarith

/-- The product by ten, `shift` times, each of them checked. -/
def timesTen (mantissa : Int) : Nat → Except DecimalError Int
  | 0 => .ok mantissa
  | shift + 1 => do
    let next ← checkedI128 (mantissa * 10)
    timesTen next shift

theorem timesTen_eq_ok {mantissa m : Int} {shift : Nat} (hrange : InI128 mantissa) :
    timesTen mantissa shift = .ok m ↔ m = mantissa * 10 ^ shift ∧ InI128 m := by
  induction shift generalizing mantissa with
  | zero =>
    rw [timesTen, Except.ok.injEq, pow_zero, mul_one, eq_comm]
    exact ⟨fun h => ⟨h, h ▸ hrange⟩, And.left⟩
  | succ shift ih =>
    simp only [timesTen, bind_eq_ok, checkedI128_eq_ok]
    constructor
    · rintro ⟨next, ⟨rfl, hnext⟩, hrest⟩
      obtain ⟨rfl, hm⟩ := (ih hnext).mp hrest
      exact ⟨by ring, hm⟩
    · rintro ⟨rfl, hm⟩
      -- a product that overflows on the way is out of range at the end
      have hnext : InI128 (mantissa * 10) := by
        refine inI128_of_mul_pow (k := shift) ?_
        rwa [mul_assoc, ← pow_succ']
      exact ⟨_, ⟨rfl, hnext⟩, (ih hnext).mpr ⟨by ring, hm⟩⟩

/-- The branch for an exponent that leaves no fraction. -/
def appendZeros (coefficient : FixedDecimal) (shift : Nat) : Except DecimalError FixedDecimal := do
  reject (maxScale < shift) .scaleTooLarge
  let mantissa ← attach (timesTen coefficient.mantissa shift)
  new mantissa.1 ((timesTen_eq_ok coefficient.inRange).mp mantissa.2).2 0

/-- The coefficient times ten to the exponent. The difference of the scales fits its types. -/
def moveScale (coefficient : FixedDecimal) (exponent : Int) : Except DecimalError FixedDecimal :=
  if coefficient.isZero then new 0 zero_inRange 0
  else
    let adjustedScale := (coefficient.scale : Int) - exponent
    if 0 ≤ adjustedScale then
      new coefficient.mantissa coefficient.inRange adjustedScale.toNat
    else appendZeros coefficient (-adjustedScale).toNat

def parseScientificDecimal (value : String) : Except NativeParseError FixedDecimal :=
  match value.toList.span fun c => !isExponentMarker c with
  | (_, []) => (parse value).mapError fun _ => .invalidDecimal
  | (before, _ :: exponentText) => do
    reject (exponentText.any isExponentMarker) .invalidDecimal
    let coefficient ← (parse (.ofList before)).mapError fun _ => .invalidDecimal
    reject (exponentText = [] ∨ exponentText = ['+'] ∨ exponentText = ['-']
      ∨ ¬ (stripExponentSign exponentText).2.all Char.isDigit) .invalidDecimal
    let exponent ← required (parseI32 exponentText) .invalidDecimal
    (moveScale coefficient exponent).mapError fun _ => .invalidDecimal

/-! ## Exactness -/

/-- A representable value whose scale is moved past the greatest one. -/
def Lost (coefficient : FixedDecimal) (exponent : Int) : Prop :=
  coefficient.mantissa ≠ 0 ∧ (maxScale : Int) < coefficient.scale - exponent ∧
    (10 : Int) ^ (coefficient.scale - exponent - maxScale).toNat ∣ coefficient.mantissa

section MoveScale

variable {d : FixedDecimal} {exponent : Int}

theorem value_of_nonneg {scale : Nat} (h : (d.scale : Int) - exponent = scale) :
    d.toRat * 10 ^ exponent = d.mantissa / 10 ^ scale := by
  have hexponent : exponent = (d.scale : Int) - scale := by omega
  rw [toRat, hexponent, zpow_sub₀ (by norm_num), zpow_natCast, zpow_natCast]
  field_simp

theorem value_of_neg {shift : Nat} (h : (d.scale : Int) - exponent = -shift) :
    d.toRat * 10 ^ exponent = ((d.mantissa * 10 ^ shift : Int) : ℚ) / 10 ^ 0 := by
  have hexponent : exponent = (d.scale : Int) + shift := by omega
  rw [toRat, hexponent, zpow_add₀ (by norm_num), zpow_natCast, zpow_natCast]
  push_cast
  field_simp

/-- Past the greatest scale a value is representable where enough zeros can be taken off. -/
theorem representable_past {m : Int} {excess : Nat} (hm : InI128 m) :
    FixedDecimal.Representable (m / 10 ^ (maxScale + excess)) ↔ (10 : Int) ^ excess ∣ m := by
  constructor
  · rintro ⟨m', s, -, hs, heq⟩
    have hcross := fraction_eq_iff.mp heq
    obtain ⟨rest, hrest⟩ := Nat.exists_eq_add_of_le hs
    refine ⟨m' * 10 ^ rest, mul_right_cancel₀ (b := (10 : Int) ^ s) (by positivity) ?_⟩
    rw [hcross, hrest]
    ring
  · rintro ⟨k, rfl⟩
    refine ⟨k, maxScale, inI128_of_mul_pow (k := excess) (by rwa [mul_comm]), le_rfl, ?_⟩
    rw [pow_add]
    push_cast
    field_simp

theorem exact_error_iff {e : DecimalError} {q : ℚ} :
    FixedDecimal.Exact (.error e) q ↔ ¬ FixedDecimal.Representable q :=
  ⟨fun h => h.error_iff.mp ⟨e, rfl⟩, exact_error⟩

theorem new_exact_iff {m : Int} (hm : InI128 m) (scale : Nat) :
    FixedDecimal.Exact (new m hm scale) (m / 10 ^ scale) ↔
      ¬ (maxScale < scale ∧ (10 : Int) ^ (scale - maxScale) ∣ m) := by
  by_cases hscale : scale ≤ maxScale
  · refine iff_of_true ⟨fun x => new_toRat, ?_⟩ (by omega)
    exact iff_of_true ⟨m, scale, hm, hscale, rfl⟩ (new_of_le hm hscale)
  · obtain ⟨excess, rfl⟩ := Nat.exists_eq_add_of_le (Nat.le_of_lt (Nat.lt_of_not_le hscale))
    rw [new, dif_pos (Nat.lt_of_not_le hscale), exact_error_iff, representable_past hm,
      Nat.add_sub_cancel_left, and_iff_right (Nat.lt_of_not_le hscale)]

/-- Thirty-nine zeros do not fit. -/
theorem not_inI128_of_shift {m : Int} (hm : m ≠ 0) {shift : Nat} (h : maxScale < shift) :
    ¬ InI128 (m * 10 ^ shift) := by
  intro hrange
  obtain ⟨rest, rfl⟩ := Nat.exists_eq_add_of_lt h
  have hsmall : InI128 (m * 10 ^ (maxScale + 1)) := by
    refine inI128_of_mul_pow (k := rest) ?_
    rwa [mul_assoc, ← pow_add, show maxScale + 1 + rest = maxScale + rest + 1 by omega]
  unfold InI128 i128Min i128Max maxScale at hsmall
  omega

theorem appendZeros_exact (hzero : d.mantissa ≠ 0) (shift : Nat) :
    FixedDecimal.Exact (appendZeros d shift) (((d.mantissa * 10 ^ shift : Int) : ℚ) / 10 ^ 0) := by
  have hcanonical : Canonical (d.mantissa * 10 ^ shift) 0 := .inl rfl
  unfold appendZeros
  by_cases hfits : maxScale < shift
  · rw [reject_pos hfits, error_bind, exact_error_iff, representable_canonical hcanonical]
    exact fun h => not_inI128_of_shift hzero hfits h.1
  · rw [reject_neg hfits, ok_bind]
    exact constructed_exact (fun h => ((timesTen_eq_ok d.inRange).mp h).2)
      (fun _ => timesTen_eq_ok d.inRange) hcanonical

theorem moveScale_exact_iff : FixedDecimal.Exact (moveScale d exponent) (d.toRat * 10 ^ exponent) ↔
    ¬ Lost d exponent := by
  unfold moveScale
  by_cases hzero : d.mantissa = 0
  · rw [if_pos (by simp [isZero, hzero])]
    have hvalue : d.toRat * 10 ^ exponent = ((0 : Int) : ℚ) / 10 ^ 0 := by
      simp [toRat, hzero]
    rw [hvalue, new_exact_iff]
    exact iff_of_true (by omega) fun h => h.1 hzero
  · rw [if_neg (by simpa [isZero] using hzero)]
    dsimp only
    by_cases hsign : 0 ≤ (d.scale : Int) - exponent
    · obtain ⟨scale, hscale⟩ := Int.eq_ofNat_of_zero_le hsign
      rw [if_pos hsign, value_of_nonneg hscale, hscale, Int.toNat_natCast, new_exact_iff]
      unfold Lost
      rw [hscale, show ((scale : Int) - maxScale).toNat = scale - maxScale by omega]
      simp [hzero]
    · obtain ⟨shift, hshift⟩ := Int.eq_ofNat_of_zero_le
        (by omega : 0 ≤ -((d.scale : Int) - exponent))
      have hneg : (d.scale : Int) - exponent = -shift := by omega
      rw [if_neg hsign, value_of_neg hneg, hshift, Int.toNat_natCast]
      refine iff_of_true (appendZeros_exact hzero shift) fun h => ?_
      have hpast := h.2.1
      omega

end MoveScale

/-! ## Texts -/

/-- The exponent of a number: a marker, a sign (`true` is a minus) and digits. -/
structure Exponent where
  marker : Char
  sign : Option Bool
  digits : List Char
  marked : isExponentMarker marker = true
  nonempty : digits ≠ []
  numeric : AllDigits digits

namespace Exponent

def signed (e : Exponent) : List Char :=
  match e.sign with
  | none => e.digits
  | some negative => (if negative then '-' else '+') :: e.digits

def text (e : Exponent) : List Char := e.marker :: e.signed

def value (e : Exponent) : Int := exponentValue (e.sign == some true) e.digits

theorem stripExponentSign_signed (e : Exponent) :
    stripExponentSign e.signed = (e.sign == some true, e.digits) := by
  unfold signed
  cases hsign : e.sign with
  | some negative => cases negative <;> rfl
  | none =>
    cases hdigits : e.digits with
    | nil => exact absurd hdigits e.nonempty
    | cons c digits =>
      have hdigit : c.isDigit = true := e.numeric c (by simp [hdigits])
      unfold stripExponentSign
      split
      · rename_i hc
        obtain rfl := (List.cons.inj hc).1
        cases hdigit
      · rename_i hc
        obtain rfl := (List.cons.inj hc).1
        cases hdigit
      · rfl

theorem not_marker_of_digit {c : Char} (h : c.isDigit = true) : isExponentMarker c = false := by
  unfold isExponentMarker
  by_contra hmarker
  simp only [Bool.not_eq_false, Bool.or_eq_true, beq_iff_eq] at hmarker
  rcases hmarker with rfl | rfl <;> cases h

theorem signed_not_marker (e : Exponent) : e.signed.any isExponentMarker = false := by
  have hdigits : e.digits.any isExponentMarker = false := by
    simpa using fun c hc => not_marker_of_digit (e.numeric c hc)
  unfold signed
  cases e.sign with
  | none => exact hdigits
  | some negative =>
    rw [any_cons, hdigits, Bool.or_false]
    cases negative <;> rfl

end Exponent

theorem not_marker_of_parse {coefficient : String} {d : FixedDecimal}
    (h : parse coefficient = .ok d) :
    ∀ c ∈ coefficient.toList, isExponentMarker c = false := by
  have hparts : ∃ parts, splitDecimal (stripSign coefficient.toList).2
      = .ok parts := by
    unfold parse at h
    split at h
    · rename_i hparts
      simp only [parseParts, bind_eq_ok] at hparts
      exact ⟨_, hparts.choose_spec.1⟩
    · cases h
  obtain ⟨parts, hsplit⟩ := hparts
  have hbody : ∀ c ∈ (stripSign coefficient.toList).2, isExponentMarker c = false := by
    unfold splitDecimal at hsplit
    split at hsplit
    · cases hsplit
    · rename_i hclean
      simp only [Bool.or_eq_true, not_or, contains_iff_mem] at hclean
      intro c hc
      unfold isExponentMarker
      by_contra hmarker
      simp only [Bool.not_eq_false, Bool.or_eq_true, beq_iff_eq] at hmarker
      rcases hmarker with rfl | rfl
      · exact hclean.1.2 hc
      · exact hclean.2 hc
  rw [stripSign_body coefficient.toList]
  split
  · exact forall_mem_cons.mpr ⟨rfl, hbody⟩
  · exact hbody

theorem parseScientificDecimal_of_exponent {coefficient : String} {d : FixedDecimal}
    (h : parse coefficient = .ok d) (e : Exponent)
    (hfits : -2147483648 ≤ e.value ∧ e.value ≤ 2147483647) :
    parseScientificDecimal (.ofList (coefficient.toList ++ e.text)) =
      (moveScale d e.value).mapError fun _ => .invalidDecimal := by
  have hspan : (coefficient.toList ++ e.text).span (fun c => !isExponentMarker c) =
      (coefficient.toList, e.text) := by
    rw [span_eq_takeWhile_dropWhile, takeWhile_append_of_pos, dropWhile_append_of_pos]
    · simp [Exponent.text, e.marked]
    all_goals
      intro c hc
      rw [not_marker_of_parse h c hc]
      rfl
  have hexponent : parseI32 e.signed = some e.value := by
    unfold parseI32
    rw [e.stripExponentSign_signed]
    exact if_pos hfits
  have htext : ¬ (e.signed = [] ∨ e.signed = ['+'] ∨ e.signed = ['-']
      ∨ ¬ (stripExponentSign e.signed).2.all Char.isDigit) := by
    have hstrip := e.stripExponentSign_signed
    rintro (hempty | hplus | hminus | hdigits)
    · rw [hempty] at hstrip
      exact e.nonempty (Prod.mk.inj hstrip).2.symm
    · rw [hplus] at hstrip
      exact e.nonempty (Prod.mk.inj hstrip).2.symm
    · rw [hminus] at hstrip
      exact e.nonempty (Prod.mk.inj hstrip).2.symm
    · rw [hstrip] at hdigits
      exact hdigits (all_eq_true.mpr e.numeric)
  unfold parseScientificDecimal
  rw [String.toList_ofList, hspan]
  dsimp only [Exponent.text]
  rw [e.signed_not_marker, String.ofList_toList, h]
  simp only [Except.mapError, ok_bind]
  rw [reject_neg Bool.false_ne_true, ok_bind, reject_neg htext, ok_bind, hexponent,
    required_some, ok_bind]

/-! ## The result -/

/-- The value where it is representable, and an error elsewhere. -/
def Exactly (result : Except NativeParseError FixedDecimal) (q : ℚ) : Prop :=
  (∀ d, result = .ok d → d.toRat = q) ∧ (FixedDecimal.Representable q ↔ ∃ d, result = .ok d)

/-- Over all texts of a coefficient that is a decimal and, after it, an exponent in the range of
    `i32`, the result is the exact value or an error for a value that is not representable, but for
    the coefficients whose trailing zeros would have kept the scale in its bounds. -/
theorem scientific_exact_iff (coefficient : String) (d : FixedDecimal)
    (hparse : parse coefficient = .ok d) (exponent : Option Exponent)
    (hfits : ∀ e, exponent = some e → -2147483648 ≤ e.value ∧ e.value ≤ 2147483647) :
    Exactly
      (parseScientificDecimal (.ofList (coefficient.toList ++ exponent.elim [] Exponent.text)))
      (d.toRat * 10 ^ exponent.elim 0 Exponent.value) ↔
      ¬ Lost d (exponent.elim 0 Exponent.value) := by
  cases exponent with
  | none =>
    have hspan : coefficient.toList.span (fun c => !isExponentMarker c) =
        (coefficient.toList, []) := by
      rw [span_eq_takeWhile_dropWhile, takeWhile_eq_self_iff.mpr, dropWhile_eq_nil_iff.mpr]
      all_goals
        intro c hc
        rw [not_marker_of_parse hparse c hc]
        rfl
    have hresult : parseScientificDecimal (.ofList (coefficient.toList ++ [])) = .ok d := by
      unfold parseScientificDecimal
      rw [append_nil, String.toList_ofList, hspan, String.ofList_toList, hparse]
      rfl
    simp only [Option.elim_none, hresult, zpow_zero, mul_one]
    refine iff_of_true ⟨fun x hx => by cases hx; rfl, ?_⟩ fun h => ?_
    · exact iff_of_true (representable_iff.mpr ⟨d, rfl⟩) ⟨d, rfl⟩
    · have hpast := h.2.1
      have hscale := d.scale_le
      omega
  | some e =>
    rw [← moveScale_exact_iff]
    simp only [Option.elim_some, parseScientificDecimal_of_exponent hparse e (hfits e rfl)]
    cases moveScale d e.value <;> simp [Exactly, FixedDecimal.Exact, Except.mapError]

theorem ten_inRange : InI128 10 := by decide

def ten : FixedDecimal := .whole 10 ten_inRange

/-- The exponent `e-38`. -/
def sampleExponent : Exponent := ⟨'e', some true, ['3', '8'], rfl, by decide, by decide⟩

/-- `10e-38` is read exactly. -/
theorem scientific_at_scale_limit :
    Exactly (parseScientificDecimal "10e-38") (ten.toRat * 10 ^ (-38 : Int)) :=
  (scientific_exact_iff "10" ten (by decide +kernel) (some sampleExponent)
    (fun e he => by cases he; decide)).mpr fun h => absurd h.2.1 (by decide)

/-- Ten to the power of minus thirty-eight, written `10e-39`, is refused. -/
theorem trailing_zero_refused :
    parse "10" = .ok ten ∧
    parseScientificDecimal "10e-39" = .error .invalidDecimal ∧
    FixedDecimal.Representable (ten.toRat * 10 ^ (-39 : Int)) := by
  refine ⟨by decide +kernel, by decide +kernel, 1, 38, by decide, le_rfl, ?_⟩
  norm_num [ten, whole, toRat]

end CryptoIntelligence.Deribit
