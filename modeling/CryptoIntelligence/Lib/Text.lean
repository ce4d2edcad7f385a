/-
  String operations of the source language, on the characters of a string: `trim` strips the
  characters of the Unicode property White_Space, `isControl` is the category Cc, `splitOnce`
  cuts at the first occurrence of a separator. A version is a semantic version, with its texts.
-/
import Mathlib

namespace CryptoIntelligence.Lib

open List

/-- The Unicode property White_Space. -/
def isWhitespace (c : Char) : Bool :=
  let n := c.toNat
  (decide (0x9 ≤ n) && decide (n ≤ 0xD)) || n == 0x20 || n == 0x85 || n == 0xA0 || n == 0x1680
    || (decide (0x2000 ≤ n) && decide (n ≤ 0x200A)) || n == 0x2028 || n == 0x2029
    || n == 0x202F || n == 0x205F || n == 0x3000

/-- The Unicode general category Cc. -/
def isControl (c : Char) : Bool :=
  let n := c.toNat
  decide (n < 0x20) || (decide (0x7F ≤ n) && decide (n < 0xA0))

def isAscii (s : List Char) : Bool := s.all fun c => decide (c.toNat < 0x80)

def trim (s : List Char) : List Char :=
  ((s.dropWhile isWhitespace).reverse.dropWhile isWhitespace).reverse

/-- The parts before and after the first `separator`. -/
def splitOnce (separator : Char) (s : List Char) : Option (List Char × List Char) :=
  if separator ∈ s then
    some (s.takeWhile (· != separator), (s.dropWhile (· != separator)).tail)
  else none

/-- The bytes of a string. -/
def utf8 (s : String) : List UInt8 := s.toUTF8.data.toList

theorem utf8_injective : Function.Injective utf8 := by
  intro s t h
  apply String.toByteArray_inj.mp
  exact ByteArray.ext (Array.toList_inj.mp h)

def isAsciiControl (b : UInt8) : Bool := decide (b.toNat < 32) || b == 127

def isAsciiWhitespace (b : UInt8) : Bool := b == 32 || b == 9 || b == 10 || b == 12 || b == 13

/-- The bytes of an ASCII constant. -/
def text (s : String) : List UInt8 := s.toList.map fun c => UInt8.ofNat c.toNat

def isUtf8 (bytes : List UInt8) : Bool := ByteArray.validateUTF8 ⟨bytes.toArray⟩

theorem flatMap_encode_ascii {bytes : List UInt8} (h : ∀ b ∈ bytes, b.toNat < 128) :
    (bytes.map fun b => Char.ofNat b.toNat).flatMap String.utf8EncodeChar = bytes := by
  have hchar (b : UInt8) (hb : b.toNat < 128) :
      String.utf8EncodeChar (Char.ofNat b.toNat) = [b] := by
    have hval : (Char.ofNat b.toNat).val.toNat = b.toNat := by
      rw [← Char.toNat, Char.toNat_ofNat, if_pos]
      exact .inl (by omega)
    rw [String.utf8EncodeChar, hval, if_pos (by omega), UInt8.ofNat_toNat]
  induction bytes with
  | nil => rfl
  | cons b bytes ih =>
    rw [map_cons, flatMap_cons, hchar b (h b mem_cons_self),
      ih fun c hc => h c (mem_cons_of_mem _ hc)]
    rfl

theorem isUtf8_of_ascii {bytes : List UInt8} (h : ∀ b ∈ bytes, b.toNat < 128) :
    isUtf8 bytes = true := by
  refine ByteArray.validateUTF8_eq_true_iff.mpr
    (.intro (bytes.map fun b => Char.ofNat b.toNat) (ByteArray.ext ?_))
  rw [List.utf8Encode]
  simp only [flatMap_encode_ascii h]
  simp

theorem utf8_eq_flatMap (s : String) : utf8 s = s.toList.flatMap String.utf8EncodeChar := by
  have h : s.toUTF8 = s.toList.utf8Encode := by
    conv_lhs => rw [← String.ofList_toList (s := s)]
    rfl
  rw [utf8, h, List.utf8Encode]
  simp

theorem utf8_length_le (s : String) : (utf8 s).length ≤ 4 * s.toList.length := by
  rw [utf8_eq_flatMap, length_flatMap]
  induction s.toList with
  | nil => simp
  | cons c cs ih =>
    have hc := Char.utf8Size_le_four c
    rw [map_cons, sum_cons, String.length_utf8EncodeChar, length_cons]
    omega

theorem trim_of_no_whitespace {s : List Char} (h : ∀ c ∈ s, isWhitespace c = false) :
    trim s = s := by
  have hdrop : ∀ t : List Char, (∀ c ∈ t, isWhitespace c = false) →
      t.dropWhile isWhitespace = t := by
    intro t ht
    cases t with
    | nil => rfl
    | cons c t => simp [ht c (by simp)]
  unfold trim
  rw [hdrop s h, hdrop s.reverse (by simpa using h), reverse_reverse]

theorem splitOnce_append {separator : Char} {s t : List Char} (h : separator ∉ s) :
    splitOnce separator (s ++ separator :: t) = some (s, t) := by
  have hs : ∀ c ∈ s, (c != separator) = true := by
    rintro c hc
    rw [bne_iff_ne]
    rintro rfl
    exact h hc
  unfold splitOnce
  rw [if_pos (by simp), takeWhile_append_of_pos hs, dropWhile_append_of_pos hs]
  simp

theorem splitOnce_of_not_mem {separator : Char} {s : List Char} (h : separator ∉ s) :
    splitOnce separator s = none := if_neg h

structure Version where
  major : Nat
  minor : Nat
  patch : Nat
  pre : String
  build : String
  deriving DecidableEq

/-- A release, `major.minor.patch` only. -/
def Version.release (major minor patch : Nat) : Version := ⟨major, minor, patch, "", ""⟩

end CryptoIntelligence.Lib
