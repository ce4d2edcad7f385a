/-
  Numbers written in ASCII bytes: decimal without padding, decimal of a fixed width, and
  hexadecimal.

  What is proved: a decimal of fixed width reads back (`parseU64_fixedDigits`), and the length of a
  decimal is bounded by that of its bound (`decimal_length_le`). Hexadecimal texts are those of a
  library of which four facts are assumed (`Hex`); one that has them is `LowerHex.lowerHex`.
-/
import CryptoIntelligence.Lib.DecimalText
import CryptoIntelligence.Lib.Codec
import CryptoIntelligence.Lib.Text

namespace CryptoIntelligence.Lib

open List

/-! ## Decimal -/

def isAsciiDigit (b : UInt8) : Bool := decide (48 ≤ b.toNat) && decide (b.toNat ≤ 57)

def decimalValue (bytes : Bytes) : Nat := bytes.foldl (fun acc b => acc * 10 + (b.toNat - 48)) 0

/-- The digits of a number, without leading zeros. -/
def decimal (n : Nat) : Bytes := (Nat.toDigits 10 n).map fun c => UInt8.ofNat c.toNat

/-- The last `width` digits of a number. -/
def fixedDigits : Nat → Nat → Bytes
  | 0, _ => []
  | width + 1, n => fixedDigits width (n / 10) ++ [UInt8.ofNat (48 + n % 10)]

/-- An unsigned 64-bit number: an optional plus sign, then digits only. -/
def parseU64 (bytes : Bytes) : Option UInt64 :=
  let digits := if bytes.head? = some 43 then bytes.tail else bytes
  if digits = [] || !digits.all isAsciiDigit || decide (2 ^ 64 ≤ decimalValue digits) then none
  else some (UInt64.ofNat (decimalValue digits))

theorem decimal_length_le {n width : Nat} (hwidth : 0 < width) (h : n < 10 ^ width) :
    (decimal n).length ≤ width := by
  rw [decimal, length_map]
  exact (Nat.length_toDigits_le_iff (by decide) hwidth).mpr h

@[simp] theorem fixedDigits_length (width n : Nat) : (fixedDigits width n).length = width := by
  induction width generalizing n with
  | zero => rfl
  | succ width ih => rw [fixedDigits, length_append, ih, length_singleton]

theorem toNat_lastDigit (n : Nat) : (UInt8.ofNat (48 + n % 10)).toNat = 48 + n % 10 := by
  rw [UInt8.toNat_ofNat']
  omega

theorem isAsciiDigit_fixedDigits {width n : Nat} {b : UInt8} (h : b ∈ fixedDigits width n) :
    isAsciiDigit b = true := by
  induction width generalizing n with
  | zero => nomatch h
  | succ width ih =>
    rcases mem_append.mp h with h | h
    · exact ih h
    · rw [mem_singleton.mp h, isAsciiDigit, toNat_lastDigit]
      simp
      omega

theorem decimalValue_fixedDigits (width n : Nat) :
    decimalValue (fixedDigits width n) = n % 10 ^ width := by
  induction width generalizing n with
  | zero => simp [fixedDigits, decimalValue, Nat.mod_one]
  | succ width ih =>
    have hstep : decimalValue (fixedDigits width (n / 10) ++ [UInt8.ofNat (48 + n % 10)]) =
        decimalValue (fixedDigits width (n / 10)) * 10 + n % 10 := by
      rw [decimalValue, foldl_append, foldl_cons, foldl_nil, toNat_lastDigit]
      simp [decimalValue]
    rw [fixedDigits, hstep, ih, Nat.pow_succ, Nat.mul_comm (10 ^ width), Nat.mod_mul]
    omega

theorem parseU64_fixedDigits {width : Nat} (hwidth : 0 < width) (n : UInt64)
    (h : n.toNat < 10 ^ width) : parseU64 (fixedDigits width n.toNat) = some n := by
  have hdigits : ∀ b ∈ fixedDigits width n.toNat, isAsciiDigit b = true :=
    fun b => isAsciiDigit_fixedDigits
  have hne : fixedDigits width n.toNat ≠ [] := by
    rw [← length_pos_iff, fixedDigits_length]
    exact hwidth
  have hsign : (fixedDigits width n.toNat).head? ≠ some 43 := by
    intro hhead
    have := hdigits 43 (mem_of_mem_head? hhead)
    revert this
    decide
  have hvalue : decimalValue (fixedDigits width n.toNat) = n.toNat := by
    rw [decimalValue_fixedDigits, Nat.mod_eq_of_lt h]
  have hlt : ¬ 2 ^ 64 ≤ n.toNat := Nat.not_le.mpr n.toNat_lt
  rw [parseU64, if_neg hsign, hvalue, UInt64.ofNat_toNat, if_neg]
  simp only [hne, decide_false, Bool.false_or, hlt, Bool.or_false, Bool.not_eq_true',
    Bool.not_eq_false, all_eq_true]
  exact hdigits

/-! ## Hexadecimal -/

def isLowerHex (b : UInt8) : Bool :=
  isAsciiDigit b || (decide (97 ≤ b.toNat) && decide (b.toNat ≤ 102))

/-- Hexadecimal texts, written in lower case and read in either. -/
class Hex where
  hexEncode : Bytes → Bytes
  hexDecode : Bytes → Option Bytes
  hexEncode_length (bytes : Bytes) : (hexEncode bytes).length = 2 * bytes.length
  isLowerHex_hexEncode {bytes : Bytes} {b : UInt8} : b ∈ hexEncode bytes → isLowerHex b = true
  hexDecode_hexEncode (bytes : Bytes) : hexDecode (hexEncode bytes) = some bytes
  /-- Lower-case digits that decode are the encoding of what they decode to. -/
  hexEncode_of_hexDecode {digits bytes : Bytes} : (∀ b ∈ digits, isLowerHex b = true) →
    hexDecode digits = some bytes → hexEncode bytes = digits

namespace LowerHex

def hexDigit (n : Nat) : UInt8 := UInt8.ofNat (if n < 10 then 48 + n else 87 + n)

def hexEncode : Bytes → Bytes
  | [] => []
  | b :: bytes => hexDigit (b.toNat / 16) :: hexDigit (b.toNat % 16) :: hexEncode bytes

/-- The value of a hexadecimal digit in either case. -/
def hexValue (b : UInt8) : Option Nat :=
  let n := b.toNat
  if 48 ≤ n ∧ n ≤ 57 then some (n - 48)
  else if 97 ≤ n ∧ n ≤ 102 then some (n - 87)
  else if 65 ≤ n ∧ n ≤ 70 then some (n - 55)
  else none

def hexDecode : Bytes → Option Bytes
  | [] => some []
  | [_] => none
  | high :: low :: rest => do
    let h ← hexValue high
    let l ← hexValue low
    let bytes ← hexDecode rest
    pure (UInt8.ofNat (16 * h + l) :: bytes)

theorem hexValue_hexDigit {n : Nat} (h : n < 16) : hexValue (hexDigit n) = some n := by
  revert n
  decide

theorem isLowerHex_hexDigit {n : Nat} (h : n < 16) : isLowerHex (hexDigit n) = true := by
  revert n
  decide

theorem hexEncode_length (bytes : Bytes) : (hexEncode bytes).length = 2 * bytes.length := by
  induction bytes with
  | nil => rfl
  | cons b bytes ih =>
    rw [hexEncode, length_cons, length_cons, ih, length_cons]
    omega

theorem hexDecode_hexEncode (bytes : Bytes) : hexDecode (hexEncode bytes) = some bytes := by
  induction bytes with
  | nil => rfl
  | cons b bytes ih =>
    have hb := b.toNat_lt
    have hsplit : UInt8.ofNat (16 * (b.toNat / 16) + b.toNat % 16) = b := by
      rw [Nat.div_add_mod, UInt8.ofNat_toNat]
    rw [hexEncode, hexDecode, hexValue_hexDigit (by omega), hexValue_hexDigit (by omega), ih]
    simp only [Option.bind_eq_bind, Option.bind_some, hsplit]
    rfl

theorem isLowerHex_hexEncode {bytes : Bytes} {b : UInt8} (h : b ∈ hexEncode bytes) :
    isLowerHex b = true := by
  induction bytes with
  | nil => nomatch h
  | cons c bytes ih =>
    have hc := c.toNat_lt
    rw [hexEncode, mem_cons, mem_cons] at h
    rcases h with rfl | rfl | h
    · exact isLowerHex_hexDigit (by omega)
    · exact isLowerHex_hexDigit (by omega)
    · exact ih h

theorem hexDigit_of_hexValue {b : UInt8} {n : Nat} (hlower : isLowerHex b = true)
    (h : hexValue b = some n) : n < 16 ∧ hexDigit n = b := by
  have hcheck : ∀ k < 256, isLowerHex (UInt8.ofNat k) = true →
      ∀ n ∈ hexValue (UInt8.ofNat k), n < 16 ∧ hexDigit n = UInt8.ofNat k := by decide +kernel
  have hb := hcheck b.toNat b.toNat_lt
  rw [UInt8.ofNat_toNat] at hb
  exact hb hlower n h

/-- Lower-case digits that decode are the encoding of what they decode to. -/
theorem hexEncode_of_hexDecode {digits bytes : Bytes} (hlower : ∀ b ∈ digits, isLowerHex b = true)
    (h : hexDecode digits = some bytes) : hexEncode bytes = digits := by
  induction digits using hexDecode.induct generalizing bytes with
  | case1 =>
    obtain rfl := Option.some.inj h
    rfl
  | case2 digit => exact absurd h (by simp [hexDecode])
  | case3 high low rest ih =>
    simp only [hexDecode, Option.bind_eq_bind, Option.bind_eq_some_iff, Option.pure_def,
      Option.some.injEq] at h
    obtain ⟨a, ha, c, hc, tail, htail, rfl⟩ := h
    obtain ⟨ha16, hhigh⟩ := hexDigit_of_hexValue (hlower high (by simp)) ha
    obtain ⟨hc16, hlow⟩ := hexDigit_of_hexValue (hlower low (by simp)) hc
    have hvalue : (UInt8.ofNat (16 * a + c)).toNat = 16 * a + c := by
      rw [UInt8.toNat_ofNat']
      omega
    have hdiv : (16 * a + c) / 16 = a := by omega
    have hmod : (16 * a + c) % 16 = c := by omega
    rw [hexEncode, hvalue, hdiv, hmod, hhigh, hlow,
      ih (fun b hb => hlower b (by simp [hb])) htail]

scoped instance lowerHex : Hex :=
  ⟨hexEncode, hexDecode, hexEncode_length, isLowerHex_hexEncode, hexDecode_hexEncode,
    hexEncode_of_hexDecode⟩

end LowerHex

end CryptoIntelligence.Lib
