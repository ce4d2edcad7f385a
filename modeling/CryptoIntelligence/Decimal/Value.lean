/-
  Text form of the decimals and the typed values built on them (`Price`, `Quantity`, `Notional`,
  `Rate`). `display` is the `Display` implementation, `parseCanonical` the strict parser of
  serialized boundaries and `parse` the lenient one that canonicalizes.

  What is proved: printing and reading back strictly is the identity (`parseCanonical_display`),
  so no two decimals print alike (`display_injective`), and a text that the strict reader accepts is
  the one that is printed (`display_of_parseCanonical`).
-/
import CryptoIntelligence.Lib.Checked
import CryptoIntelligence.Lib.Text
import CryptoIntelligence.Decimal.Fixed

namespace CryptoIntelligence.Decimal

open Lib List

namespace FixedDecimal

/-! ## Printing -/

/-- Digits padded on the left so that at least one precedes the decimal point. -/
def paddedDigits (d : FixedDecimal) : List Char :=
  let digits := Nat.toDigits 10 d.mantissa.natAbs
  if digits.length ≤ d.scale then List.replicate (d.scale + 1 - digits.length) '0' ++ digits
  else digits

def displayBody (d : FixedDecimal) : List Char :=
  if d.scale = 0 then Nat.toDigits 10 d.mantissa.natAbs
  else
    let digits := d.paddedDigits
    let decimalPoint := digits.length - d.scale
    digits.take decimalPoint ++ '.' :: digits.drop decimalPoint

def display (d : FixedDecimal) : String :=
  String.ofList (if d.mantissa < 0 then '-' :: d.displayBody else d.displayBody)

/-! ## Parsing -/

def splitDecimal (input : List Char) : Except DecimalError (List Char × List Char) :=
  if input.isEmpty || trim input != input || input.head? == some '+' || input.contains 'e'
      || input.contains 'E' then .error .invalidSyntax
  else
    let (whole, fraction) := (splitOnce '.' input).getD (input, [])
    if whole.isEmpty || decide (input.count '.' > 1) || (input.contains '.' && fraction.isEmpty)
        || !decide (AllDigits whole) || !decide (AllDigits fraction) then .error .invalidSyntax
    else .ok (whole, fraction)

/-- `u128` parsing of the joined digits. -/
def parseMagnitude (whole fraction : List Char) : Except DecimalError Nat :=
  if digitValue (whole ++ fraction) < 2 ^ 128 then .ok (digitValue (whole ++ fraction))
  else .error .arithmeticOverflow

variable {fraction : List Char} {magnitude : Nat} {negative : Bool} {m : Int} {c : Char}
    {d : FixedDecimal}

theorem parseMagnitude_ok {whole : List Char} (h : parseMagnitude whole fraction = .ok magnitude) :
    magnitude = digitValue (whole ++ fraction) := by
  unfold parseMagnitude at h
  split at h
  · exact (Except.ok.inj h).symm
  · cases h

def signedMagnitude (magnitude : Nat) (negative : Bool) : Except DecimalError Int :=
  if negative ∧ (magnitude : Int) = i128Max + 1 then .ok i128Min
  else if (magnitude : Int) > i128Max then .error .arithmeticOverflow
  else if negative then .ok (-(magnitude : Int)) else .ok magnitude

theorem signedMagnitude_inRange (h : signedMagnitude magnitude negative = .ok m) : InI128 m := by
  unfold signedMagnitude at h
  split at h
  · cases h
    decide
  · split at h
    · cases h
    · rename_i hle
      simp only [i128Max] at hle
      split at h <;> cases h <;> simp only [InI128, i128Min, i128Max] <;> omega

/-- The sign and the unsigned body of a text. -/
def stripSign (input : List Char) : Bool × List Char :=
  match input with
  | '-' :: body => (true, body)
  | body => (false, body)

/-- The checks of `parse_canonical` before the value is built: mantissa and scale. -/
def parseCanonicalParts (input : List Char) : Except DecimalError (Int × Nat) := do
  let (negative, body) := stripSign input
  let (whole, fraction) ← splitDecimal body
  reject (whole.length > 1 ∧ whole.head? = some '0') .invalidSyntax
  reject (fraction ≠ [] ∧ fraction.getLast? = some '0') .invalidSyntax
  reject (fraction.length > maxScale) .scaleTooLarge
  let magnitude ← parseMagnitude whole fraction
  reject (negative = true ∧ magnitude = 0) .invalidSyntax
  let mantissa ← signedMagnitude magnitude negative
  return (mantissa, fraction.length)

theorem splitDecimal_ok {input whole : List Char} (h : splitDecimal input = .ok (whole, fraction)) :
    whole ≠ [] ∧ AllDigits whole ∧ AllDigits fraction := by
  unfold splitDecimal at h
  split at h
  · cases h
  · dsimp only at h
    split at h
    · cases h
    · rename_i hc
      cases h
      simp only [Bool.or_eq_true, not_or, Bool.not_eq_true, isEmpty_eq_false_iff,
        Bool.not_eq_false', decide_eq_true_eq] at hc
      exact ⟨hc.1.1.1.1, hc.1.2, hc.2⟩

theorem signedMagnitude_natAbs
    (h : signedMagnitude magnitude negative = .ok m) : m.natAbs = magnitude := by
  unfold signedMagnitude at h
  split at h
  · rename_i hmin
    cases h
    simp only [i128Max, i128Min] at hmin ⊢
    omega
  · split at h
    · cases h
    · split at h <;> cases h <;> omega

/-- An accepted text has a canonical value: a fraction that ends in a zero was refused. -/
theorem parseCanonicalParts_spec {input : List Char} {s : Nat}
    (h : parseCanonicalParts input = .ok (m, s)) :
    InI128 m ∧ s ≤ maxScale ∧ (s = 0 ∨ m % 10 ≠ 0) := by
  simp only [parseCanonicalParts, bind_eq_ok, reject_eq_ok, pure_eq_ok, Prod.exists, Prod.mk.injEq]
    at h
  obtain ⟨whole, fraction, hparts, -, -, -, hlast, -, hscale, magnitude, hmag, -, -, m', hm, rfl,
    rfl⟩ := h
  obtain ⟨-, hw, hf⟩ := splitDecimal_ok hparts
  refine ⟨signedMagnitude_inRange hm, not_lt.mp hscale, ?_⟩
  by_cases hnil : fraction = []
  · exact Or.inl (by rw [hnil]; rfl)
  · obtain ⟨c, hc⟩ : ∃ c, fraction.getLast? = some c :=
      Option.isSome_iff_exists.mp (by simpa [getLast?_isSome] using hnil)
    have hne : c ≠ '0' := fun h0 => hlast ⟨hnil, h0 ▸ hc⟩
    have hdigit := digit_range (hf c (mem_of_getLast? hc))
    have hvalue : digitValue (whole ++ fraction) % 10 = c.toNat - 48 :=
      digitValue_mod_ten_of_getLast (allDigits_append.mpr ⟨hw, hf⟩)
        (by rw [getLast?_append, hc]; rfl)
    have hmag' := parseMagnitude_ok hmag
    have habs := signedMagnitude_natAbs hm
    have hc48 : c.toNat ≠ 48 := fun h48 => hne (Char.toNat_inj.mp h48)
    right
    omega

/-- Parses the only accepted textual representation of a value. -/
def parseCanonical (input : String) : Except DecimalError FixedDecimal :=
  match h : parseCanonicalParts input.toList with
  | .ok (mantissa, scale) =>
    .ok
      { mantissa, scale
        inRange := (parseCanonicalParts_spec h).1
        scale_le := (parseCanonicalParts_spec h).2.1
        canonical := (parseCanonicalParts_spec h).2.2 }
  | .error e => .error e

/-- The checks of `parse`: a mantissa in range and the scale of the text. -/
def parseParts (input : List Char) : Except DecimalError (Int × Nat) := do
  let (negative, body) := stripSign input
  let (whole, fraction) ← splitDecimal body
  reject (fraction.length > maxScale) .scaleTooLarge
  let magnitude ← parseMagnitude whole fraction
  let mantissa ← signedMagnitude magnitude negative
  return (mantissa, fraction.length)

theorem parseParts_inRange {input : List Char} {s : Nat}
    (h : parseParts input = .ok (m, s)) : InI128 m := by
  simp only [parseParts, bind_eq_ok, reject_eq_ok, pure_eq_ok, Prod.exists, Prod.mk.injEq] at h
  obtain ⟨_, _, _, _, _, _, _, _, hm, rfl, _⟩ := h
  exact signedMagnitude_inRange hm

/-- Parses ordinary fixed-point text and canonicalizes its representation. -/
def parse (input : String) : Except DecimalError FixedDecimal :=
  match h : parseParts input.toList with
  | .ok (mantissa, scale) => new mantissa (parseParts_inRange h) scale
  | .error e => .error e

/-! ## Reading back what was printed -/

theorem paddedDigits_allDigits (d : FixedDecimal) : AllDigits d.paddedDigits := by
  unfold paddedDigits
  dsimp only
  split
  · exact allDigits_append.mpr ⟨allDigits_zeros _, allDigits_toDigits _⟩
  · exact allDigits_toDigits _

theorem paddedDigits_value (d : FixedDecimal) : digitValue d.paddedDigits = d.mantissa.natAbs := by
  unfold paddedDigits
  dsimp only
  split
  · rw [digitValue_append, digitValue_zeros, digitValue_toDigits]
    simp
  · exact digitValue_toDigits _

theorem scale_lt_length_paddedDigits (d : FixedDecimal) : d.scale < d.paddedDigits.length := by
  unfold paddedDigits
  dsimp only
  split
  · rw [length_append, length_replicate]
    omega
  · omega

/-- The digits before the point. -/
def wholeDigits (d : FixedDecimal) : List Char :=
  d.paddedDigits.take (d.paddedDigits.length - d.scale)

/-- The digits after the point. -/
def fractionDigits (d : FixedDecimal) : List Char :=
  d.paddedDigits.drop (d.paddedDigits.length - d.scale)

theorem wholeDigits_append_fractionDigits (d : FixedDecimal) :
    d.wholeDigits ++ d.fractionDigits = d.paddedDigits := take_append_drop _ _

theorem fractionDigits_length (d : FixedDecimal) : d.fractionDigits.length = d.scale := by
  have := d.scale_lt_length_paddedDigits
  rw [fractionDigits, length_drop]
  omega

theorem wholeDigits_ne_nil (d : FixedDecimal) : d.wholeDigits ≠ [] := by
  have := d.scale_lt_length_paddedDigits
  rw [← length_pos_iff, wholeDigits, length_take]
  omega

theorem wholeDigits_allDigits (d : FixedDecimal) : AllDigits d.wholeDigits := fun c hc =>
  d.paddedDigits_allDigits c (mem_of_mem_take hc)

theorem fractionDigits_allDigits (d : FixedDecimal) : AllDigits d.fractionDigits := fun c hc =>
  d.paddedDigits_allDigits c (mem_of_mem_drop hc)

theorem displayBody_eq (d : FixedDecimal) :
    d.displayBody =
      if d.scale = 0 then d.wholeDigits else d.wholeDigits ++ '.' :: d.fractionDigits := by
  unfold displayBody
  split
  · rename_i h
    have hpos : 0 < (Nat.toDigits 10 d.mantissa.natAbs).length := Nat.length_toDigits_pos
    have hpad : d.paddedDigits = Nat.toDigits 10 d.mantissa.natAbs := by
      unfold paddedDigits
      dsimp only
      rw [if_neg (by omega)]
    rw [wholeDigits, hpad, h, Nat.sub_zero, take_length]
  · rfl

/-- No leading zero stands before another whole digit. -/
theorem wholeDigits_head (d : FixedDecimal) (h : 1 < d.wholeDigits.length) :
    d.wholeDigits.head? ≠ some '0' := by
  have hpad : d.paddedDigits = Nat.toDigits 10 d.mantissa.natAbs := by
    unfold wholeDigits paddedDigits at h
    unfold paddedDigits
    dsimp only at h ⊢
    split
    · -- padding leaves exactly one whole digit
      rename_i hle
      rw [if_pos hle, length_take, length_append, length_replicate] at h
      omega
    · rfl
  have hlen : 1 < (Nat.toDigits 10 d.mantissa.natAbs).length := by
    rw [wholeDigits, length_take, hpad] at h
    omega
  have hpos : 0 < d.paddedDigits.length - d.scale := by
    have := d.scale_lt_length_paddedDigits
    omega
  rw [wholeDigits, head?_take, if_neg (by omega), hpad]
  exact head_toDigits_ne_zero hlen

/-- A canonical decimal prints no trailing fractional zero. -/
theorem fractionDigits_getLast (d : FixedDecimal) (h : d.fractionDigits ≠ []) :
    d.fractionDigits.getLast? ≠ some '0' := by
  intro h0
  have hlast : d.paddedDigits.getLast? = some '0' := by
    rw [← d.wholeDigits_append_fractionDigits, getLast?_append, h0]
    rfl
  have hmod := digitValue_mod_ten_of_getLast d.paddedDigits_allDigits hlast
  rw [paddedDigits_value] at hmod
  have hscale : d.scale ≠ 0 := by
    rw [← fractionDigits_length]
    simpa using h
  rcases d.canonical with h1 | h1
  · exact hscale h1
  · simp at hmod
    omega

theorem not_mem_of_allDigits {s : List Char} (h : AllDigits s)
    (hc : c.isDigit = false) : c ∉ s := fun hmem => by
  rw [h c hmem] at hc
  cases hc

theorem isWhitespace_of_digit_or_point (h : c.isDigit = true ∨ c = '.') :
    isWhitespace c = false := by
  rcases h with h | rfl
  · have := digit_range h
    simp only [isWhitespace, Bool.or_eq_false_iff, Bool.and_eq_false_iff, decide_eq_false_iff_not,
      beq_eq_false_iff_ne]
    omega
  · decide

theorem mem_displayBody (h : c ∈ d.displayBody) :
    c.isDigit = true ∨ c = '.' := by
  rw [displayBody_eq] at h
  split at h
  · exact Or.inl (d.wholeDigits_allDigits c h)
  · rcases mem_append.mp h with h | h
    · exact Or.inl (d.wholeDigits_allDigits c h)
    · rcases mem_cons.mp h with h | h
      · exact Or.inr h
      · exact Or.inl (d.fractionDigits_allDigits c h)

theorem not_mem_displayBody (h : c.isDigit = false) (hp : c ≠ '.') :
    c ∉ d.displayBody := by
  intro hmem
  rcases mem_displayBody hmem with hd | hd
  · rw [h] at hd
    cases hd
  · exact hp hd

theorem displayBody_ne_nil (d : FixedDecimal) : d.displayBody ≠ [] := by
  rw [displayBody_eq]
  split
  · exact d.wholeDigits_ne_nil
  · simp

theorem splitOnce_displayBody (d : FixedDecimal) :
    (splitOnce '.' d.displayBody).getD (d.displayBody, []) = (d.wholeDigits, d.fractionDigits) := by
  have hwhole : '.' ∉ d.wholeDigits := not_mem_of_allDigits d.wholeDigits_allDigits (by decide)
  rw [displayBody_eq]
  split
  · rename_i h
    have hnil : d.fractionDigits = [] := length_eq_zero_iff.mp (by rw [fractionDigits_length, h])
    rw [splitOnce_of_not_mem hwhole, hnil]
    rfl
  · rw [splitOnce_append hwhole]
    rfl

theorem count_point_displayBody (d : FixedDecimal) : d.displayBody.count '.' ≤ 1 := by
  have hwhole : '.' ∉ d.wholeDigits := not_mem_of_allDigits d.wholeDigits_allDigits (by decide)
  have hfrac : '.' ∉ d.fractionDigits :=
    not_mem_of_allDigits d.fractionDigits_allDigits (by decide)
  rw [displayBody_eq]
  split
  · rw [count_eq_zero.mpr hwhole]
    exact Nat.zero_le _
  · rw [count_append, count_cons_self, count_eq_zero.mpr hwhole,
      count_eq_zero.mpr hfrac]

theorem splitDecimal_displayBody (d : FixedDecimal) :
    splitDecimal d.displayBody = .ok (d.wholeDigits, d.fractionDigits) := by
  have htrim : trim d.displayBody = d.displayBody :=
    trim_of_no_whitespace fun c hc => isWhitespace_of_digit_or_point (mem_displayBody hc)
  have hplus : d.displayBody.head? ≠ some '+' := fun h =>
    not_mem_displayBody (by decide) (by decide) (mem_of_head? h)
  have he : 'e' ∉ d.displayBody := not_mem_displayBody (by decide) (by decide)
  have hE : 'E' ∉ d.displayBody := not_mem_displayBody (by decide) (by decide)
  have hpoint : '.' ∈ d.displayBody → d.fractionDigits ≠ [] := by
    intro hmem hnil
    rw [displayBody_eq, if_pos (by rw [← fractionDigits_length, hnil]; rfl)] at hmem
    exact not_mem_of_allDigits d.wholeDigits_allDigits (by decide) hmem
  have hcount := d.count_point_displayBody
  unfold splitDecimal
  rw [if_neg (by simp [htrim, hplus, he, hE, displayBody_ne_nil]), splitOnce_displayBody]
  dsimp only
  rw [if_neg]
  simp [wholeDigits_ne_nil, wholeDigits_allDigits, fractionDigits_allDigits, hcount]
  exact hpoint

theorem stripSign_display (d : FixedDecimal) :
    stripSign d.display.toList = (decide (d.mantissa < 0), d.displayBody) := by
  unfold display
  rw [String.toList_ofList]
  by_cases h : d.mantissa < 0
  · rw [if_pos h, decide_eq_true h]
    rfl
  · rw [if_neg h, decide_eq_false h]
    -- the body starts with a digit, so no sign is stripped from it
    obtain ⟨c, t, ht⟩ := exists_cons_of_ne_nil d.displayBody_ne_nil
    have hc : c ≠ '-' := by
      rintro rfl
      exact not_mem_displayBody (d := d) (c := '-') (by decide) (by decide) (by rw [ht]; simp)
    rw [ht]
    unfold stripSign
    split
    · rename_i heq
      cases heq
      exact absurd rfl hc
    · rfl

theorem signedMagnitude_natAbs_mantissa (d : FixedDecimal) :
    signedMagnitude d.mantissa.natAbs (decide (d.mantissa < 0)) = .ok d.mantissa := by
  have hr := d.inRange
  simp only [InI128, i128Min, i128Max] at hr
  unfold signedMagnitude
  simp only [decide_eq_true_eq, i128Max, i128Min]
  split
  · congr 1
    omega
  · rw [if_neg (by omega)]
    split <;> congr 1 <;> omega

theorem parseMagnitude_digits (d : FixedDecimal) :
    parseMagnitude d.wholeDigits d.fractionDigits = .ok d.mantissa.natAbs := by
  have hr := d.inRange
  simp only [InI128, i128Min, i128Max] at hr
  unfold parseMagnitude
  rw [wholeDigits_append_fractionDigits, paddedDigits_value, if_pos (by omega)]

/-- Printing a decimal and reading it back strictly returns it. -/
theorem parseCanonicalParts_display (d : FixedDecimal) :
    parseCanonicalParts d.display.toList = .ok (d.mantissa, d.scale) := by
  unfold parseCanonicalParts
  rw [stripSign_display]
  dsimp only
  rw [splitDecimal_displayBody, ok_bind]
  dsimp only
  rw [reject_neg (fun h => d.wholeDigits_head h.1 h.2), ok_bind,
    reject_neg (fun h => d.fractionDigits_getLast h.1 h.2), ok_bind,
    reject_neg (by rw [fractionDigits_length]; exact not_lt.mpr d.scale_le), ok_bind,
    parseMagnitude_digits, ok_bind, reject_neg (by simp only [decide_eq_true_eq]; omega), ok_bind,
    signedMagnitude_natAbs_mantissa, ok_bind, fractionDigits_length]
  rfl

theorem parseCanonical_display (d : FixedDecimal) : parseCanonical d.display = .ok d := by
  unfold parseCanonical
  split
  · rename_i m s h
    rw [parseCanonicalParts_display] at h
    cases h
    rfl
  · rename_i e h
    rw [parseCanonicalParts_display] at h
    cases h

theorem parseParts_display (d : FixedDecimal) :
    parseParts d.display.toList = .ok (d.mantissa, d.scale) := by
  unfold parseParts
  rw [stripSign_display]
  dsimp only
  rw [splitDecimal_displayBody, ok_bind]
  dsimp only
  rw [reject_neg (by rw [fractionDigits_length]; exact not_lt.mpr d.scale_le), ok_bind,
    parseMagnitude_digits, ok_bind, signedMagnitude_natAbs_mantissa, ok_bind, fractionDigits_length]
  rfl

/-- The lenient reader returns a printed decimal too. -/
theorem parse_display (d : FixedDecimal) : parse d.display = .ok d := by
  unfold parse
  split
  · rename_i m s h
    rw [parseParts_display] at h
    cases h
    exact new_self d
  · rename_i e h
    rw [parseParts_display] at h
    cases h

/-! ## Printing what was read -/

/-- A body is its two digit strings, with a point between them if there is a fraction. -/
theorem splitDecimal_body {input whole : List Char}
    (h : splitDecimal input = .ok (whole, fraction)) :
    input = if fraction = [] then whole else whole ++ '.' :: fraction := by
  unfold splitDecimal at h
  split at h
  · cases h
  · dsimp only at h
    split at h
    · cases h
    · rename_i hc
      obtain ⟨hwhole, hfraction⟩ := Prod.mk.inj (Except.ok.inj h)
      simp only [Bool.or_eq_true, not_or, Bool.not_eq_true, Bool.and_eq_false_iff] at hc
      have hpoint := hc.1.1.2
      rw [hfraction] at hpoint
      by_cases hmem : '.' ∈ input
      · obtain ⟨before, after, rfl, hbefore⟩ := eq_append_cons_of_mem hmem
        rw [splitOnce_append hbefore] at hwhole hfraction
        have hnil : fraction ≠ [] := by simpa using hpoint
        rw [if_neg hnil, ← hwhole, ← hfraction]
        rfl
      · rw [splitOnce_of_not_mem hmem] at hwhole hfraction
        have hnil : fraction = [] := hfraction.symm
        rw [if_pos hnil]
        exact hwhole

theorem stripSign_body (input : List Char) :
    input = if (stripSign input).1 = true then '-' :: (stripSign input).2
      else (stripSign input).2 := by
  unfold stripSign
  split
  · rfl
  · rfl

theorem signedMagnitude_sign
    (h : signedMagnitude magnitude negative = .ok m) (hzero : ¬ (negative = true ∧ magnitude = 0)) :
    m < 0 ↔ negative = true := by
  unfold signedMagnitude at h
  split at h
  · rename_i hmin
    cases h
    exact ⟨fun _ => hmin.1, fun _ => by decide⟩
  · split at h
    · cases h
    · cases negative with
      | true =>
        cases h
        have hpos : magnitude ≠ 0 := fun h0 => hzero ⟨rfl, h0⟩
        simp only [iff_true]
        omega
      | false =>
        cases h
        simp only [Bool.false_eq_true, iff_false]
        omega

theorem wholeDigits_numeral (d : FixedDecimal) : Numeral d.wholeDigits :=
  ⟨d.wholeDigits_allDigits, d.wholeDigits_ne_nil, d.wholeDigits_head⟩

/-- A numeral and a fraction of the length of the scale that have the magnitude of a decimal are its
    printed digits. -/
theorem digits_of_magnitude {whole : List Char} (hwhole : Numeral whole)
    (hfraction : AllDigits fraction) (hscale : fraction.length = d.scale)
    (hvalue : digitValue (whole ++ fraction) = d.mantissa.natAbs) :
    whole = d.wholeDigits ∧ fraction = d.fractionDigits := by
  have hlength : fraction.length = d.fractionDigits.length :=
    hscale.trans d.fractionDigits_length.symm
  have hsame : digitValue (whole ++ fraction) = digitValue (d.wholeDigits ++ d.fractionDigits) := by
    rw [hvalue, wholeDigits_append_fractionDigits, paddedDigits_value]
  rw [digitValue_append, digitValue_append, ← hlength] at hsame
  have hlt := digitValue_lt hfraction
  have hlt' := digitValue_lt d.fractionDigits_allDigits
  rw [← hlength] at hlt'
  have hpos : 0 < 10 ^ fraction.length := by positivity
  have hquotient := congrArg (· / 10 ^ fraction.length) hsame
  have hremainder := congrArg (· % 10 ^ fraction.length) hsame
  simp only [Nat.mul_add_div hpos, Nat.mul_add_mod, Nat.div_eq_of_lt hlt, Nat.div_eq_of_lt hlt',
    Nat.mod_eq_of_lt hlt, Nat.mod_eq_of_lt hlt', Nat.add_zero] at hquotient hremainder
  exact ⟨hwhole.unique d.wholeDigits_numeral hquotient,
    digits_inj hlength hfraction d.fractionDigits_allDigits hremainder⟩

/-- The strict reader accepts no text but the printed one. -/
theorem display_of_parseCanonical {input : String}
    (h : parseCanonical input = .ok d) : d.display = input := by
  have hparts : parseCanonicalParts input.toList = .ok (d.mantissa, d.scale) := by
    unfold parseCanonical at h
    split at h
    · cases h
      assumption
    · cases h
  simp only [parseCanonicalParts, bind_eq_ok, reject_eq_ok, pure_eq_ok, Prod.exists, Prod.mk.injEq]
    at hparts
  obtain ⟨whole, fraction, hsplit, -, hhead, -, -, -, -, magnitude, hmagnitude, -, hnegative, m,
    hsigned, hm, hscale⟩ := hparts
  subst hm
  obtain ⟨hne, hwhole, hfraction⟩ := splitDecimal_ok hsplit
  have hnumeral : Numeral whole := ⟨hwhole, hne, fun hlong hzero => hhead ⟨hlong, hzero⟩⟩
  have hvalue : digitValue (whole ++ fraction) = d.mantissa.natAbs := by
    rw [← parseMagnitude_ok hmagnitude, signedMagnitude_natAbs hsigned]
  obtain ⟨rfl, rfl⟩ := digits_of_magnitude hnumeral hfraction hscale hvalue
  have hbody : (stripSign input.toList).2 = d.displayBody := by
    rw [splitDecimal_body hsplit, displayBody_eq]
    have hnil : d.fractionDigits = [] ↔ d.scale = 0 := by
      rw [← length_eq_zero_iff, fractionDigits_length]
    simp only [hnil]
  have hsign := signedMagnitude_sign hsigned hnegative
  have htext := stripSign_body input.toList
  rw [hbody] at htext
  apply String.toList_inj.mp
  rw [display, String.toList_ofList, htext]
  simp only [hsign]

/-- Printing and strict reading are inverse to each other, so the texts the strict reader accepts
    are the printed ones; the lenient reader gives them the same value. -/
theorem text_bijection (input : String) (d : FixedDecimal) :
    parseCanonical d.display = .ok d ∧
      (parseCanonical input = .ok d → d.display = input) ∧
      (parseCanonical input = .ok d → parse input = .ok d) := by
  refine ⟨parseCanonical_display d, display_of_parseCanonical, ?_⟩
  intro h
  rw [← display_of_parseCanonical h]
  exact parse_display d

theorem i128Min_inRange : InI128 i128Min := by decide

/-- The least mantissa, whose magnitude is no `i128`, is read from its text and printed as it. -/
theorem least_mantissa_text :
    parse "-170141183460469231731687303715884105728" = .ok (whole i128Min i128Min_inRange) ∧
      (whole i128Min i128Min_inRange).display = "-170141183460469231731687303715884105728" := by
  obtain ⟨-, hdisplay, hparse⟩ := text_bijection "-170141183460469231731687303715884105728"
    (whole i128Min i128Min_inRange)
  exact ⟨hparse rfl, hdisplay rfl⟩

/-- A printed decimal is short: 39 digits, a point and a sign. -/
theorem display_length_le (d : FixedDecimal) : d.display.toList.length ≤ 41 := by
  have hr := d.inRange
  have hs := d.scale_le
  simp only [InI128, i128Min, i128Max] at hr
  simp only [maxScale] at hs
  have hdigits : (Nat.toDigits 10 d.mantissa.natAbs).length ≤ 39 :=
    (Nat.length_toDigits_le_iff (by decide) (by decide)).mpr (by omega)
  have hpad : d.paddedDigits.length ≤ 39 := by
    unfold paddedDigits
    dsimp only
    split
    · rw [length_append, length_replicate]
      omega
    · exact hdigits
  have hbody : d.displayBody.length ≤ 40 := by
    have hsum : d.wholeDigits.length + d.fractionDigits.length = d.paddedDigits.length := by
      rw [← length_append, wholeDigits_append_fractionDigits]
    rw [displayBody_eq]
    split
    · omega
    · rw [length_append, length_cons]
      omega
  unfold display
  rw [String.toList_ofList]
  split
  · rw [length_cons]
    omega
  · omega

/-- No two decimals print alike. -/
theorem display_injective : Function.Injective display := by
  intro a b h
  have hb := parseCanonical_display b
  rw [← h, parseCanonical_display a] at hb
  exact Except.ok.inj hb

end FixedDecimal

/-! ## Typed values -/

/-- A decimal that passed a wrapper's check. -/
@[ext]
structure Wrapped (validate : FixedDecimal → Bool) where
  value : FixedDecimal
  valid : validate value = true
  deriving DecidableEq

namespace Wrapped

variable {validate : FixedDecimal → Bool}

def new (error : DecimalError) (value : FixedDecimal) : Except DecimalError (Wrapped validate) :=
  if h : validate value = true then .ok ⟨value, h⟩ else .error error

def display (w : Wrapped validate) : String := w.value.display

instance : Ord (Wrapped validate) := ⟨fun a b => compare a.value b.value⟩

theorem compare_def (a b : Wrapped validate) : compare a b = compare a.value b.value := rfl

theorem value_injective : Function.Injective (@Wrapped.value validate) :=
  fun _ _ h => Wrapped.ext h

instance : Std.TransOrd (Wrapped validate) where
  eq_swap {a b} := Std.OrientedOrd.eq_swap (a := a.value) (b := b.value)
  isLE_trans {a b c} := Std.TransOrd.isLE_trans (a := a.value) (b := b.value) (c := c.value)

instance : Std.LawfulEqOrd (Wrapped validate) where
  compare_self {a} := Std.ReflOrd.compare_self (a := a.value)
  eq_of_compare h := value_injective (Std.LawfulEqOrd.eq_of_compare h)

end Wrapped

abbrev Price := Wrapped FixedDecimal.isPositive

abbrev Quantity := Wrapped fun value => !value.isNegative

abbrev Notional := Wrapped fun value => !value.isNegative

abbrev Rate := Wrapped fun _ => true

def Price.new : FixedDecimal → Except DecimalError Price := Wrapped.new (.nonPositive "price")

def Quantity.new : FixedDecimal → Except DecimalError Quantity := Wrapped.new (.negative "quantity")

def Notional.new : FixedDecimal → Except DecimalError Notional := Wrapped.new (.negative "notional")

def Rate.new : FixedDecimal → Except DecimalError Rate := Wrapped.new .invalidSyntax

end CryptoIntelligence.Decimal
