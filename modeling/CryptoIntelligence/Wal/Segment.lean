/-
  The handle of one segment file (`raw-wal/src/segment.rs`): its prologue, where its records start,
  the last sequence of every stream and epoch it holds, and whether a failed write has poisoned it.

  Here are the operations that only look at the bytes of the file: opening, recovery and
  verification. Creating a file and appending to it change the directory and are left out.
-/
import CryptoIntelligence.Wal.Records

namespace CryptoIntelligence.Wal

open Lib Prologue

inductive SegmentError where
  | prologue (error : PrologueError)
  | prologueRequired
  deriving DecidableEq, Repr

structure Segment where
  metadata : Option SegmentMetadata
  recordStartOffset : UInt64
  v2Sequences : Option Sequences
  poisoned : Bool

namespace Segment

/-! ## Opening -/

def fromFile : Segment := ⟨none, 0, none, false⟩

def hasPrologueMagic (file : Bytes) : Bool :=
  decide (magic.length ≤ file.length)
    && file.take magic.length == magic

theorem toNat_recordStart (metadata : SegmentMetadata) :
    (UInt64.ofNat metadata.headerLength).toNat = metadata.headerLength :=
  UInt64.toNat_ofNat_of_lt' (lt_of_le_of_lt (headerLength_bounds metadata).2 (by decide))

variable [Crc32c]

def loadPrologue (segment : Segment) (file : Bytes) : Except PrologueError Segment := do
  let headerLength ← declaredHeaderLength (file.take 12)
  reject (file.length < headerLength) .incomplete
  let decoded ← decode (file.take headerLength)
  return { segment with
    metadata := some decoded.metadata
    recordStartOffset := UInt64.ofNat decoded.encodedLength
    v2Sequences := none }

def openV2File (file : Bytes) : Except SegmentError Segment := do
  reject (hasPrologueMagic file = false) .prologueRequired
  (loadPrologue fromFile file).mapError .prologue

def ensurePrologueLoadedIfPresent (segment : Segment) (file : Bytes) :
    Except PrologueError Segment :=
  if segment.metadata.isNone && hasPrologueMagic file then segment.loadPrologue file
  else .ok segment

/-! ## Recovery and verification -/

/-- The handle after recovery and what the scan left. -/
def recoverWith (segment : Segment) (file : Bytes) : Segment × ScanOutcome :=
  match segment.ensurePrologueLoadedIfPresent file with
  | .error error => (segment, ⟨[], [], file, .error (.prologue error)⟩)
  | .ok segment =>
    let outcome :=
      if segment.metadata.isSome then
        recoverWithFrom file segment.recordStartOffset (some .v2) segment.metadata
      else Wal.recoverWith file
    match outcome.result with
    | .error _ => (segment, outcome)
    | .ok summary =>
      ({ segment with v2Sequences :=
          if summary.format = some .v2 then some (sequencesOf (recordMetadata outcome.visited))
          else none }, outcome)

def verifyWithoutRepair (segment : Segment) (file : Bytes) : Segment × ScanOutcome :=
  match segment.ensurePrologueLoadedIfPresent file with
  | .error error => (segment, ⟨[], [], file, .error (.prologue error)⟩)
  | .ok segment =>
    match segment.metadata with
    | none => (segment, ⟨[], [], file, .error .prologueRequired⟩)
    | some metadata =>
      (segment, verifyWithFrom file segment.recordStartOffset (some .v2) (some metadata))

/-! ## Files with a prologue -/

/-- The handle of a segment whose prologue is loaded. -/
def loaded (metadata : SegmentMetadata) (v2Sequences : Option Sequences) (poisoned : Bool) :
    Segment :=
  ⟨some metadata, UInt64.ofNat metadata.headerLength, v2Sequences, poisoned⟩

theorem hasPrologueMagic_encode (metadata : SegmentMetadata) (rest : Bytes) :
    hasPrologueMagic (encode metadata ++ rest) = true := by
  have hmagic : (encode metadata ++ rest).take magic.length = magic := by
    rw [encode, body]
    simp only [List.append_assoc]
    exact List.take_left
  have hbounds := (headerLength_bounds metadata).1
  have hlength : magic.length ≤ (encode metadata ++ rest).length := by
    rw [List.length_append, encode_length]
    exact le_trans (le_trans (by decide) hbounds) (Nat.le_add_right _ _)
  rw [hasPrologueMagic, hmagic, decide_eq_true hlength]
  rfl

/-- What the two reads of a prologue give: its length from the first bytes, then the prologue. -/
theorem prologue_read (metadata : SegmentMetadata) (rest : Bytes) :
    declaredHeaderLength ((encode metadata ++ rest).take 12) = .ok metadata.headerLength ∧
      decode ((encode metadata ++ rest).take metadata.headerLength) =
        .ok ⟨metadata, metadata.headerLength⟩ := by
  rw [declaredHeaderLength_take le_rfl, declaredHeaderLength_encode,
    List.take_left' (encode_length metadata)]
  have hdecode := decode_encode metadata []
  rw [List.append_nil] at hdecode
  exact ⟨rfl, hdecode⟩

theorem loadPrologue_encode (segment : Segment) (metadata : SegmentMetadata) (rest : Bytes) :
    segment.loadPrologue (encode metadata ++ rest) =
      .ok (loaded metadata none segment.poisoned) := by
  obtain ⟨hdeclared, hdecode⟩ := prologue_read metadata rest
  rw [loadPrologue, hdeclared, ok_bind,
    reject_neg (by rw [List.length_append, encode_length]; omega), ok_bind, hdecode]
  rfl

theorem openV2File_encode (metadata : SegmentMetadata) (rest : Bytes) :
    openV2File (encode metadata ++ rest) = .ok (loaded metadata none false) := by
  rw [openV2File, hasPrologueMagic_encode, reject_neg (by simp), ok_bind, loadPrologue_encode]
  rfl

theorem ensurePrologue_fromFile (metadata : SegmentMetadata) (rest : Bytes) :
    fromFile.ensurePrologueLoadedIfPresent (encode metadata ++ rest) =
      .ok (loaded metadata none false) := by
  rw [ensurePrologueLoadedIfPresent, hasPrologueMagic_encode, loadPrologue_encode]
  rfl

end Segment

end CryptoIntelligence.Wal
