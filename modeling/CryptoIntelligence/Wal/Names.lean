/-
  The names of the files of a segment (`raw-wal/src/seal.rs`): a base of its ordinal and its ID,
  followed by a suffix that says what the file is. Also the errors of sealing.

  A name is its bytes; paths are names in the one directory of the log.

  What is proved: a name is accepted exactly when it is the one name of an ordinal and an ID
  (`parseSegmentBase_eq_ok`, `parseActiveIdentity_eq_some`), and the four names of a segment come
  from the active one (`sealPaths_new`).
-/
import CryptoIntelligence.Lib.Numerals
import CryptoIntelligence.Wal.Segment

namespace CryptoIntelligence.Wal

open Lib Lib.Hex
open List hiding Vector

/-! ## Errors -/

inductive ManifestError where
  | tooLarge
  | json (category : String)
  | nonCanonical
  | digestMismatch
  | invalidField (field : String)
  | prologue (error : PrologueError)
  deriving DecidableEq, Repr

inductive SealingError where
  | invalidPath
  | segmentIdMismatch
  | prologue (error : PrologueError)
  | recovery (error : RecoveryError)
  | manifest (error : ManifestError)
  deriving DecidableEq, Repr

/-! ## Suffixes -/

def stripSuffix (ending name : Bytes) : Option Bytes :=
  if ending <:+ name then some (name.take (name.length - ending.length)) else none

theorem stripSuffix_append (name ending : Bytes) :
    stripSuffix ending (name ++ ending) = some name := by
  rw [stripSuffix, if_pos (suffix_append _ _), length_append, Nat.add_sub_cancel,
    take_left' rfl]

theorem stripSuffix_eq_some {ending name base : Bytes} :
    stripSuffix ending name = some base ↔ name = base ++ ending := by
  constructor
  · intro h
    unfold stripSuffix at h
    split_ifs at h with hends
    obtain ⟨front, rfl⟩ := hends
    obtain rfl := Option.some.inj h
    rw [length_append, Nat.add_sub_cancel, take_left' rfl]
  · rintro rfl
    exact stripSuffix_append base ending

theorem toNat_lt_pow_20 (ordinal : UInt64) : ordinal.toNat < 10 ^ 20 :=
  lt_of_lt_of_le ordinal.toNat_lt (by decide)

/-! ## Hexadecimal fields -/

variable [Hex]

def parseHexArray (width : Nat) (field : String) (value : Bytes) :
    Except ManifestError (Vector UInt8 width) := do
  reject (value.length ≠ width * 2 ∨ value.all isLowerHex = false) (.invalidField field)
  let decoded ← required (hexDecode value) (.invalidField field)
  if h : decoded.toArray.size = width then .ok ⟨decoded.toArray, h⟩
  else .error (.invalidField field)

theorem parseHexArray_eq_ok {width : Nat} {field : String} {value : Bytes}
    {array : Vector UInt8 width} :
    parseHexArray width field value = .ok array ↔ value = hexEncode array.toList := by
  unfold parseHexArray
  simp only [bind_eq_ok, reject_eq_ok, required_eq_ok, not_or, not_not, Bool.not_eq_false,
    all_eq_true]
  constructor
  · rintro ⟨_, ⟨hlength, hlower⟩, decoded, hdecode, h⟩
    split_ifs at h with hsize
    obtain rfl := Except.ok.inj h
    exact (hexEncode_of_hexDecode hlower hdecode).symm
  · rintro rfl
    refine ⟨(), ⟨?_, fun b => isLowerHex_hexEncode⟩, array.toList, hexDecode_hexEncode _, ?_⟩
    · rw [hexEncode_length, Vector.length_toList, Nat.mul_comm]
    · rw [dif_pos (by simp)]
      congr 1

/-! ## Names -/

abbrev Name := Bytes

/-- The twenty digits of the ordinal and the hexadecimal ID. -/
@[irreducible] def segmentBase (ordinal : UInt64) (segmentId : SegmentId) : Bytes :=
  fixedDigits 20 ordinal.toNat ++ [45] ++ hexEncode segmentId.toList

def activeSuffix : Bytes := text ".active.wal"

def sealedSuffix : Bytes := text ".wal"

def manifestSuffix : Bytes := text ".seal.json"

def pendingManifestSuffix : Bytes := text ".seal.pending"

def activeName (ordinal : UInt64) (segmentId : SegmentId) : Name :=
  segmentBase ordinal segmentId ++ activeSuffix

def sealedName (ordinal : UInt64) (segmentId : SegmentId) : Name :=
  segmentBase ordinal segmentId ++ sealedSuffix

def manifestName (ordinal : UInt64) (segmentId : SegmentId) : Name :=
  segmentBase ordinal segmentId ++ manifestSuffix

def pendingName (ordinal : UInt64) (segmentId : SegmentId) : Name :=
  segmentBase ordinal segmentId ++ pendingManifestSuffix

def parseSegmentBase (base : Bytes) : Except SealingError (UInt64 × SegmentId) := do
  reject (base.length ≠ 20 + 1 + 32 ∨ base[20]? ≠ some 45) .invalidPath
  let ordinal ← required (parseU64 (base.take 20)) .invalidPath
  reject (ordinal = 0 ∨ fixedDigits 20 ordinal.toNat ≠ base.take 20) .invalidPath
  let segmentId ← (parseHexArray 16 "segment_id" (base.drop 21)).mapError .manifest
  reject (segmentId = zeroSegmentId) .invalidPath
  return (ordinal, segmentId)

def utf8FileName (name : Name) : Except SealingError Bytes := do
  reject (isUtf8 name = false) .invalidPath
  return name

def parseActiveIdentity (name : Name) : Option (UInt64 × SegmentId) :=
  match utf8FileName name with
  | .error _ => none
  | .ok fileName =>
    match stripSuffix activeSuffix fileName with
    | none => none
    | some base => (parseSegmentBase base).toOption

def sealedPathFor (active : Name) : Except SealingError Name := do
  let fileName ← utf8FileName active
  let base ← required (stripSuffix activeSuffix fileName) .invalidPath
  let _ ← parseSegmentBase base
  return base ++ sealedSuffix

def manifestPathFor (sealed : Name) : Except SealingError Name := do
  let fileName ← utf8FileName sealed
  let base ← required (stripSuffix sealedSuffix fileName) .invalidPath
  reject (text ".active" <:+ base) .invalidPath
  let _ ← parseSegmentBase base
  return base ++ manifestSuffix

def pendingManifestPathFor (sealed : Name) : Except SealingError Name := do
  let fileName ← utf8FileName sealed
  let base ← required (stripSuffix sealedSuffix fileName) .invalidPath
  let _ ← parseSegmentBase base
  return base ++ pendingManifestSuffix

structure SealPaths where
  active : Name
  sealed : Name
  manifest : Name
  pending : Name

def SealPaths.new (active : Name) : Except SealingError SealPaths := do
  let sealed ← sealedPathFor active
  let manifest ← manifestPathFor sealed
  let pending ← pendingManifestPathFor sealed
  return ⟨active, sealed, manifest, pending⟩

/-! ## One name for each segment -/

theorem segmentBase_length (ordinal : UInt64) (segmentId : SegmentId) :
    (segmentBase ordinal segmentId).length = 53 := by
  simp [segmentBase, hexEncode_length]

theorem parseSegmentBase_eq_ok {base : Bytes} {ordinal : UInt64} {segmentId : SegmentId} :
    parseSegmentBase base = .ok (ordinal, segmentId) ↔
      ordinal ≠ 0 ∧ segmentId ≠ zeroSegmentId ∧ base = segmentBase ordinal segmentId := by
  unfold parseSegmentBase
  simp only [bind_eq_ok, reject_eq_ok, required_eq_ok, mapError_eq_ok, parseHexArray_eq_ok,
    pure_eq_ok, not_or, not_not, Prod.mk.injEq, exists_and_left, exists_const]
  constructor
  · rintro ⟨⟨hlength, hdash⟩, _, hparse, ⟨hzero, hdigits⟩, _, hhex, hid, rfl, rfl⟩
    refine ⟨hzero, hid, ?_⟩
    have hsplit : base = base.take 20 ++ base[20]?.toList ++ base.drop 21 := by
      rw [getElem?_eq_getElem (by omega), Option.toList_some, take_append_getElem,
        take_append_drop]
    rw [hsplit, hdash, hhex, ← hdigits, segmentBase, Option.toList_some]
  · rintro ⟨hzero, hid, rfl⟩
    have htake : (segmentBase ordinal segmentId).take 20 = fixedDigits 20 ordinal.toNat := by
      rw [segmentBase, append_assoc]
      exact take_left' (fixedDigits_length _ _)
    have hdrop : (segmentBase ordinal segmentId).drop 21 = hexEncode segmentId.toList := by
      have hfront : (fixedDigits 20 ordinal.toNat ++ [45]).length = 21 := by
        rw [length_append, fixedDigits_length, length_singleton]
      rw [segmentBase, ← hfront, drop_left' rfl]
    have hdash : (segmentBase ordinal segmentId)[20]? = some 45 := by
      rw [segmentBase, append_assoc, getElem?_append_right (by simp)]
      simp
    refine ⟨⟨segmentBase_length _ _, hdash⟩, ordinal, ?_, ⟨hzero, htake.symm⟩, segmentId,
      hdrop, hid,
      rfl, rfl⟩
    rw [htake]
    exact parseU64_fixedDigits (by decide) ordinal (toNat_lt_pow_20 ordinal)

/-- The bytes of a base are digits, a dash and hexadecimal digits. -/
theorem mem_segmentBase {ordinal : UInt64} {segmentId : SegmentId} {b : UInt8}
    (h : b ∈ segmentBase ordinal segmentId) : isLowerHex b = true ∨ b = 45 := by
  rw [segmentBase, mem_append, mem_append, mem_singleton] at h
  rcases h with (h | h) | h
  · left
    rw [isLowerHex, isAsciiDigit_fixedDigits h, Bool.true_or]
  · exact .inr h
  · exact .inl (isLowerHex_hexEncode h)

theorem isUtf8_segmentName (ordinal : UInt64) (segmentId : SegmentId) {ending : Bytes}
    (h : ∀ b ∈ ending, b.toNat < 128) :
    isUtf8 (segmentBase ordinal segmentId ++ ending) = true := by
  apply isUtf8_of_ascii
  intro b hb
  rcases mem_append.mp hb with hb | hb
  · rcases mem_segmentBase hb with hhex | rfl
    · simp only [isLowerHex, isAsciiDigit, Bool.or_eq_true, Bool.and_eq_true, decide_eq_true_eq]
        at hhex
      omega
    · decide
  · exact h b hb

theorem utf8FileName_segmentName (ordinal : UInt64) (segmentId : SegmentId) {ending : Bytes}
    (h : ∀ b ∈ ending, b.toNat < 128) :
    utf8FileName (segmentBase ordinal segmentId ++ ending) =
      .ok (segmentBase ordinal segmentId ++ ending) := by
  rw [utf8FileName, isUtf8_segmentName ordinal segmentId h, reject_neg (by simp)]
  rfl

/-- An active name is accepted exactly when it is the name of its ordinal and ID. -/
theorem parseActiveIdentity_eq_some {name : Name} {ordinal : UInt64} {segmentId : SegmentId} :
    parseActiveIdentity name = some (ordinal, segmentId) ↔
      ordinal ≠ 0 ∧ segmentId ≠ zeroSegmentId ∧ name = activeName ordinal segmentId := by
  constructor
  · intro h
    unfold parseActiveIdentity at h
    split at h
    · exact absurd h (by simp)
    · rename_i fileName hname
      split at h
      · exact absurd h (by simp)
      · rename_i base hbase
        have hsame : name = fileName := by
          simp only [utf8FileName, bind_eq_ok, pure_eq_ok] at hname
          obtain ⟨_, -, hsame⟩ := hname
          exact hsame
        have hparse : parseSegmentBase base = .ok (ordinal, segmentId) := by
          cases hresult : parseSegmentBase base with
          | error e => exact absurd h (by simp [hresult, Except.toOption])
          | ok identity =>
            rw [hresult] at h
            exact congrArg Except.ok (Option.some.inj h)
        obtain ⟨hzero, hid, rfl⟩ := parseSegmentBase_eq_ok.mp hparse
        exact ⟨hzero, hid, hsame.trans (stripSuffix_eq_some.mp hbase)⟩
  · rintro ⟨hzero, hid, rfl⟩
    unfold parseActiveIdentity activeName
    rw [utf8FileName_segmentName _ _ (by decide +kernel)]
    dsimp only
    rw [stripSuffix_append]
    dsimp only
    rw [parseSegmentBase_eq_ok.mpr ⟨hzero, hid, rfl⟩]
    rfl

section Identified

variable {ordinal : UInt64} {segmentId : SegmentId} (hzero : ordinal ≠ 0)
  (hid : segmentId ≠ zeroSegmentId)

include hzero hid

theorem sealedPathFor_activeName :
    sealedPathFor (activeName ordinal segmentId) = .ok (sealedName ordinal segmentId) := by
  rw [sealedPathFor, activeName, utf8FileName_segmentName _ _ (by decide +kernel), ok_bind,
    stripSuffix_append, required_some, ok_bind, parseSegmentBase_eq_ok.mpr ⟨hzero, hid, rfl⟩]
  rfl

theorem pendingManifestPathFor_sealedName :
    pendingManifestPathFor (sealedName ordinal segmentId) =
      .ok (pendingName ordinal segmentId) := by
  rw [pendingManifestPathFor, sealedName, utf8FileName_segmentName _ _ (by decide +kernel), ok_bind,
    stripSuffix_append, required_some, ok_bind, parseSegmentBase_eq_ok.mpr ⟨hzero, hid, rfl⟩]
  rfl

theorem manifestPathFor_sealedName :
    manifestPathFor (sealedName ordinal segmentId) = .ok (manifestName ordinal segmentId) := by
  have hactive : ¬ text ".active" <:+ segmentBase ordinal segmentId := by
    intro hends
    have hdot : (46 : UInt8) ∈ segmentBase ordinal segmentId :=
      hends.subset (by decide +kernel)
    have := mem_segmentBase hdot
    revert this
    decide
  rw [manifestPathFor, sealedName, utf8FileName_segmentName _ _ (by decide +kernel), ok_bind,
    stripSuffix_append, required_some, ok_bind, reject_neg hactive, ok_bind,
    parseSegmentBase_eq_ok.mpr ⟨hzero, hid, rfl⟩]
  rfl

theorem sealPaths_new :
    SealPaths.new (activeName ordinal segmentId) =
      .ok ⟨activeName ordinal segmentId, sealedName ordinal segmentId,
        manifestName ordinal segmentId, pendingName ordinal segmentId⟩ := by
  rw [SealPaths.new, sealedPathFor_activeName hzero hid, ok_bind,
    manifestPathFor_sealedName hzero hid, ok_bind, pendingManifestPathFor_sealedName hzero hid]
  rfl

end Identified

end CryptoIntelligence.Wal
