/-
  The manifest of a sealed segment (`raw-wal/src/seal.rs`): what the segment is, how long it is, its
  hash and what its records cover, written as one canonical JSON text with a digest of its body.

  The digest function, the JSON reader and the crates that write the texts are parameters.
  Lengths, offsets and counts of a file are natural numbers; where the source checks 64-bit sums, so
  do the definitions here.

  What is proved: a manifest that passes the checks and fits the length limit is decoded to itself
  (`decodeManifest_encode`), and the limit leaves room for every manifest whose ranges are as many
  as a scan tracks (`toVec_length_le`).
-/
import CryptoIntelligence.Lib.Grouping
import CryptoIntelligence.Lib.Json
import CryptoIntelligence.Wal.Names

namespace CryptoIntelligence.Wal

open Lib Prologue Lib.Hex Lib.JsonWriter
open List hiding Vector

/-! ## Manifests -/

abbrev Digest := Vector UInt8 32

def zeroDigest : Digest := Vector.replicate 32 0

def manifestSchemaVersion : UInt16 := 1

def maxManifestLength : Nat := 2 * 1024 * 1024

@[ext]
structure SequenceRange where
  streamId : UInt32
  connectionEpoch : UInt64
  firstSequence : UInt64
  lastSequence : UInt64
  recordCount : Nat
  deriving DecidableEq

def SequenceRange.streamEpoch (range : SequenceRange) : StreamEpoch :=
  (range.streamId, range.connectionEpoch)

structure SegmentPredecessor where
  segmentId : SegmentId
  segmentBlake3 : Digest
  deriving DecidableEq

def SegmentPredecessor.new (segmentId : SegmentId) (segmentBlake3 : Digest) :
    Except ManifestError SegmentPredecessor := do
  reject (segmentId = zeroSegmentId) (.invalidField "predecessor_segment_id")
  reject (segmentBlake3 = zeroDigest) (.invalidField "predecessor_segment_blake3")
  return ⟨segmentId, segmentBlake3⟩

structure SealedSegmentManifest where
  segmentOrdinal : UInt64
  segmentFile : Bytes
  metadata : SegmentMetadata
  predecessor : Option SegmentPredecessor
  sealedWallTimeNs : Int64
  segmentLength : Nat
  segmentBlake3 : Digest
  prologueLength : Nat
  recordCount : Nat
  firstRecordOffset : Nat
  nextOffset : Nat
  sequenceRanges : List SequenceRange
  minReceiveWallTimeNs : Option Int64
  maxReceiveWallTimeNs : Option Int64
  manifestBlake3 : Digest
  deriving DecidableEq

/-! ## Ranges and times -/

def maximumSegmentLength (prologueLength : Nat) : Except ManifestError Nat := do
  reject (2 ^ 64 ≤ maxRecoverableSegmentLength + prologueLength) (.invalidField "segment_bytes")
  return maxRecoverableSegmentLength + prologueLength

theorem maximumSegmentLength_headerLength (metadata : SegmentMetadata) :
    maximumSegmentLength metadata.headerLength =
      .ok (maxRecoverableSegmentLength + metadata.headerLength) := by
  have hheader := (headerLength_bounds metadata).2
  have hlimit : maxRecoverableSegmentLength + maxHeaderLength < 2 ^ 64 := by decide
  rw [maximumSegmentLength, reject_neg (by omega)]
  rfl

def validatePredecessor (segmentOrdinal : UInt64) (segmentId : SegmentId)
    (predecessor : Option SegmentPredecessor) : Except ManifestError Unit := do
  reject ((segmentOrdinal == 1) ≠ predecessor.isNone) (.invalidField "predecessor")
  reject (predecessor.any (·.segmentId == segmentId)) (.invalidField "predecessor_segment_id")

/-- The loop over the ranges: the key before and the records so far. -/
def countRanges (metadata : SegmentMetadata) :
    Option StreamEpoch → Nat → List SequenceRange → Except ManifestError Nat
  | _, rangeRecords, [] => .ok rangeRecords
  | previousKey, rangeRecords, range :: ranges => do
    reject (previousKey.any (fun previous => StreamEpoch.compare previous range.streamEpoch != .lt)
        ∨ metadata.containsStream range.streamId = false ∨ range.recordCount = 0
        ∨ range.lastSequence < range.firstSequence) (.invalidField "sequence_ranges")
    reject (2 ^ 64 ≤ rangeRecords + range.recordCount) (.invalidField "record_count")
    countRanges metadata (some range.streamEpoch) (rangeRecords + range.recordCount) ranges

def timesAreValid (manifest : SealedSegmentManifest) : Bool :=
  if manifest.recordCount = 0 then
    manifest.sequenceRanges.isEmpty && manifest.minReceiveWallTimeNs.isNone
      && manifest.maxReceiveWallTimeNs.isNone
  else
    match manifest.minReceiveWallTimeNs, manifest.maxReceiveWallTimeNs with
    | some minimum, some maximum => decide (minimum ≤ maximum)
    | _, _ => false

variable {manifest : SealedSegmentManifest} {ranges : List SequenceRange}

/-- The counts of ranges that pass are those of 64-bit sums. -/
theorem countRanges_bounds {metadata : SegmentMetadata} {previousKey : Option StreamEpoch}
    {records total : Nat}
    (h : countRanges metadata previousKey records ranges = .ok total)
    (hrecords : records < 2 ^ 64) :
    total < 2 ^ 64 ∧ ∀ range ∈ ranges, range.recordCount < 2 ^ 64 := by
  induction ranges generalizing previousKey records with
  | nil =>
    obtain rfl := Except.ok.inj h
    exact ⟨hrecords, by simp⟩
  | cons range ranges ih =>
    simp only [countRanges, bind_eq_ok, reject_eq_ok, exists_and_left, exists_const] at h
    obtain ⟨-, hsum, hrest⟩ := h
    obtain ⟨htotal, hranges⟩ := ih hrest (Nat.not_le.mp hsum)
    refine ⟨htotal, ?_⟩
    intro other hother
    rcases mem_cons.mp hother with rfl | hother
    · omega
    · exact hranges other hother

/-- Ranges with ascending keys that each cover records of a declared stream. -/
theorem countRanges_eq_sum {metadata : SegmentMetadata}
    (hsorted : (ranges.map SequenceRange.streamEpoch).Pairwise
      fun a b => StreamEpoch.compare a b = .lt)
    (hranges : ∀ range ∈ ranges, metadata.containsStream range.streamId = true ∧
      range.recordCount ≠ 0 ∧ range.firstSequence ≤ range.lastSequence)
    (previousKey : Option StreamEpoch) (records : Nat)
    (hprevious : ∀ key ∈ previousKey, ∀ range ∈ ranges,
      StreamEpoch.compare key range.streamEpoch = .lt)
    (htotal : records + (ranges.map (·.recordCount)).sum < 2 ^ 64) :
    countRanges metadata previousKey records ranges =
      .ok (records + (ranges.map (·.recordCount)).sum) := by
  induction ranges generalizing previousKey records with
  | nil => rfl
  | cons range ranges ih =>
    rw [map_cons, pairwise_cons] at hsorted
    obtain ⟨hdeclared, hcount, horder⟩ := hranges range mem_cons_self
    have hkey : ¬ previousKey.any
        (fun previous => StreamEpoch.compare previous range.streamEpoch != .lt) = true := by
      cases previousKey with
      | none => simp
      | some key => simp [hprevious key rfl range mem_cons_self]
    rw [map_cons, sum_cons] at htotal ⊢
    rw [countRanges, reject_neg, ok_bind, reject_neg (by omega), ok_bind,
      ih hsorted.2 (fun r hr => hranges r (mem_cons_of_mem _ hr)), Nat.add_assoc]
    · rintro key ⟨⟩ other hother
      exact hsorted.1 _ (mem_map_of_mem hother)
    · omega
    · rintro (h | h | h | h)
      · exact hkey h
      · exact absurd h (by simp [hdeclared])
      · exact hcount h
      · exact absurd h (UInt64.not_lt.mpr horder)

theorem timesAreValid_of_empty (hcount : manifest.recordCount = 0)
    (hranges : manifest.sequenceRanges = []) (hmin : manifest.minReceiveWallTimeNs = none)
    (hmax : manifest.maxReceiveWallTimeNs = none) : timesAreValid manifest = true := by
  rw [timesAreValid, if_pos hcount, hranges, hmin, hmax]
  rfl

theorem timesAreValid_of_records {minimum maximum : Int64}
    (hcount : manifest.recordCount ≠ 0) (hmin : manifest.minReceiveWallTimeNs = some minimum)
    (hmax : manifest.maxReceiveWallTimeNs = some maximum) (h : minimum ≤ maximum) :
    timesAreValid manifest = true := by
  rw [timesAreValid, if_neg hcount, hmin, hmax]
  exact decide_eq_true h

/-! ## Wire form -/

/-- The crates that write the texts: `crc32c`, `hex` and `serde_json`. -/
class SealLibraries extends Crc32c, Hex, JsonWriter

structure StreamWire where
  streamId : UInt32
  sourceName : Bytes
  streamName : Bytes

structure SequenceRangeWire where
  streamId : UInt32
  connectionEpoch : UInt64
  firstSequence : UInt64
  lastSequence : UInt64
  recordCount : Nat

structure ManifestBodyWire where
  manifestSchemaVersion : UInt16
  walFormatVersion : UInt16
  segmentOrdinal : UInt64
  segmentId : Bytes
  predecessorSegmentId : Option Bytes
  predecessorSegmentBlake3 : Option Bytes
  segmentFile : Bytes
  segmentBytes : Nat
  segmentBlake3 : Bytes
  prologueBytes : Nat
  recordCount : Nat
  firstFrameOffset : Nat
  endOffset : Nat
  createdWallTimeNs : Int64
  sealedWallTimeNs : Int64
  schemaId : Bytes
  installationId : Bytes
  buildId : Bytes
  streams : List StreamWire
  sequenceRanges : List SequenceRangeWire
  minReceiveWallTimeNs : Option Int64
  maxReceiveWallTimeNs : Option Int64

structure ManifestWire where
  body : ManifestBodyWire
  manifestBodyBlake3 : Bytes

theorem streams_ascending (metadata : SegmentMetadata) :
    anyNeighbours (fun a b : StreamWire => !decide (a.streamId < b.streamId))
      (metadata.streams.map fun stream =>
        ⟨stream.streamId, stream.sourceName.bytes, stream.streamName.bytes⟩) = false := by
  rw [anyNeighbours_eq_false]
  apply List.Pairwise.isChain
  rw [pairwise_map]
  exact metadata.sorted.imp fun h => by simpa using h

theorem isPlain_of_isLowerHex {b : UInt8} (h : isLowerHex b = true) : isPlain b = true := by
  have hall : ∀ n < 256, isLowerHex (UInt8.ofNat n) = true → isPlain (UInt8.ofNat n) = true := by
    decide +kernel
  have hb := hall b.toNat b.toNat_lt
  rw [UInt8.ofNat_toNat] at hb
  exact hb h

theorem isPlain_of_isIdentifierByte {b : UInt8} (h : isIdentifierByte b = true) :
    isPlain b = true := by
  have hall : ∀ n < 256, isIdentifierByte (UInt8.ofNat n) = true →
      isPlain (UInt8.ofNat n) = true := by
    decide +kernel
  have hb := hall b.toNat b.toNat_lt
  rw [UInt8.ofNat_toNat] at hb
  exact hb h

theorem sum_map_le_of_le {α : Type} (f g : α → Nat) (bound : Nat) {values : List α}
    (h : ∀ a ∈ values, f a ≤ bound + g a) :
    (values.map f).sum ≤ values.length * bound + (values.map g).sum := by
  refine (sum_le_sum h).trans (le_of_eq ?_)
  rw [sum_map_add, map_const', sum_replicate, smul_eq_mul]

variable [SealLibraries]

def StreamWire.toVec (wire : StreamWire) : Bytes :=
  jsonObject [("stream_id", jsonNat wire.streamId.toNat),
    ("source_name", jsonString wire.sourceName), ("stream_name", jsonString wire.streamName)]

def SequenceRangeWire.toVec (wire : SequenceRangeWire) : Bytes :=
  jsonObject [("stream_id", jsonNat wire.streamId.toNat),
    ("connection_epoch", jsonNat wire.connectionEpoch.toNat),
    ("first_sequence", jsonNat wire.firstSequence.toNat),
    ("last_sequence", jsonNat wire.lastSequence.toNat), ("record_count", jsonNat wire.recordCount)]

@[irreducible] def ManifestBodyWire.toVec (wire : ManifestBodyWire) : Bytes :=
  jsonObject [("manifest_schema_version", jsonNat wire.manifestSchemaVersion.toNat),
    ("wal_format_version", jsonNat wire.walFormatVersion.toNat),
    ("segment_ordinal", jsonNat wire.segmentOrdinal.toNat),
    ("segment_id", jsonString wire.segmentId),
    ("predecessor_segment_id", jsonOption jsonString wire.predecessorSegmentId),
    ("predecessor_segment_blake3", jsonOption jsonString wire.predecessorSegmentBlake3),
    ("segment_file", jsonString wire.segmentFile),
    ("segment_bytes", jsonNat wire.segmentBytes),
    ("segment_blake3", jsonString wire.segmentBlake3),
    ("prologue_bytes", jsonNat wire.prologueBytes),
    ("record_count", jsonNat wire.recordCount),
    ("first_frame_offset", jsonNat wire.firstFrameOffset),
    ("end_offset", jsonNat wire.endOffset),
    ("created_wall_time_ns", jsonInt wire.createdWallTimeNs.toInt),
    ("sealed_wall_time_ns", jsonInt wire.sealedWallTimeNs.toInt),
    ("schema_id", jsonString wire.schemaId),
    ("installation_id", jsonString wire.installationId),
    ("build_id", jsonString wire.buildId),
    ("streams", jsonArray (wire.streams.map StreamWire.toVec)),
    ("sequence_ranges", jsonArray (wire.sequenceRanges.map SequenceRangeWire.toVec)),
    ("min_receive_wall_time_ns", jsonOption (jsonInt ·.toInt) wire.minReceiveWallTimeNs),
    ("max_receive_wall_time_ns", jsonOption (jsonInt ·.toInt) wire.maxReceiveWallTimeNs)]

@[irreducible] def ManifestWire.toVec (wire : ManifestWire) : Bytes :=
  jsonObject [("body", wire.body.toVec),
    ("manifest_body_blake3", jsonString wire.manifestBodyBlake3)]

def SealedSegmentManifest.toBodyWire (manifest : SealedSegmentManifest) : ManifestBodyWire where
  manifestSchemaVersion := Wal.manifestSchemaVersion
  walFormatVersion := WalFormat.v2.version
  segmentOrdinal := manifest.segmentOrdinal
  segmentId := hexEncode manifest.metadata.segmentId.toList
  predecessorSegmentId := manifest.predecessor.map (hexEncode ·.segmentId.toList)
  predecessorSegmentBlake3 := manifest.predecessor.map (hexEncode ·.segmentBlake3.toList)
  segmentFile := manifest.segmentFile
  segmentBytes := manifest.segmentLength
  segmentBlake3 := hexEncode manifest.segmentBlake3.toList
  prologueBytes := manifest.prologueLength
  recordCount := manifest.recordCount
  firstFrameOffset := manifest.firstRecordOffset
  endOffset := manifest.nextOffset
  createdWallTimeNs := manifest.metadata.createdWallTimeNs
  sealedWallTimeNs := manifest.sealedWallTimeNs
  schemaId := manifest.metadata.schemaId.bytes
  installationId := manifest.metadata.installationId.bytes
  buildId := manifest.metadata.buildId.bytes
  streams := manifest.metadata.streams.map fun stream =>
    ⟨stream.streamId, stream.sourceName.bytes, stream.streamName.bytes⟩
  sequenceRanges := manifest.sequenceRanges.map fun range =>
    ⟨range.streamId, range.connectionEpoch, range.firstSequence, range.lastSequence,
      range.recordCount⟩
  minReceiveWallTimeNs := manifest.minReceiveWallTimeNs
  maxReceiveWallTimeNs := manifest.maxReceiveWallTimeNs

/-! ## Encoding and decoding -/

def validateManifest (manifest : SealedSegmentManifest) : Except ManifestError Unit := do
  reject (manifest.segmentOrdinal = 0) (.invalidField "segment_ordinal")
  validatePredecessor manifest.segmentOrdinal manifest.metadata.segmentId manifest.predecessor
  reject (manifest.segmentFile ≠ sealedName manifest.segmentOrdinal manifest.metadata.segmentId)
    (.invalidField "segment_file")
  reject (manifest.sealedWallTimeNs < manifest.metadata.createdWallTimeNs)
    (.invalidField "sealed_wall_time_ns")
  let expectedPrologueLength := (encode manifest.metadata).length
  let maximumSegmentLength ← maximumSegmentLength expectedPrologueLength
  reject (manifest.prologueLength ≠ expectedPrologueLength
      ∨ manifest.firstRecordOffset ≠ manifest.prologueLength
      ∨ manifest.nextOffset ≠ manifest.segmentLength
      ∨ manifest.nextOffset < manifest.firstRecordOffset
      ∨ maximumSegmentLength < manifest.segmentLength) (.invalidField "offsets")
  let rangeRecords ← countRanges manifest.metadata none 0 manifest.sequenceRanges
  reject (rangeRecords ≠ manifest.recordCount) (.invalidField "record_count")
  reject (timesAreValid manifest = false) (.invalidField "receive_wall_time")

section Codec

variable (blake3 : Bytes → Digest)

def digestBody (body : ManifestBodyWire) : Except ManifestError Digest := do
  reject (maxManifestLength < body.toVec.length) .tooLarge
  return blake3 body.toVec

def SealedSegmentManifest.toWire (manifest : SealedSegmentManifest) : ManifestWire :=
  ⟨manifest.toBodyWire, hexEncode manifest.manifestBlake3.toList⟩

def SealedSegmentManifest.encode (manifest : SealedSegmentManifest) :
    Except ManifestError Bytes := do
  let manifestBlake3 ← digestBody blake3 manifest.toBodyWire
  reject (manifestBlake3 ≠ manifest.manifestBlake3) .digestMismatch
  let encoded := (ManifestWire.mk manifest.toBodyWire (hexEncode manifestBlake3.toList)).toVec
  reject (maxManifestLength < encoded.length) .tooLarge
  return encoded

def predecessorFromWire :
    Option Bytes → Option Bytes → Except ManifestError (Option SegmentPredecessor)
  | none, none => .ok none
  | some segmentId, some segmentBlake3 => do
    let segmentId ← parseHexArray 16 "predecessor_segment_id" segmentId
    let segmentBlake3 ← parseHexArray 32 "predecessor_segment_blake3" segmentBlake3
    let predecessor ← SegmentPredecessor.new segmentId segmentBlake3
    return some predecessor
  | _, _ => .error (.invalidField "predecessor")

def manifestFromWire (body : ManifestBodyWire) (manifestBlake3 : Digest) :
    Except ManifestError SealedSegmentManifest := do
  reject (body.manifestSchemaVersion ≠ manifestSchemaVersion)
    (.invalidField "manifest_schema_version")
  reject (body.walFormatVersion ≠ WalFormat.v2.version) (.invalidField "wal_format_version")
  let segmentId ← parseHexArray 16 "segment_id" body.segmentId
  let segmentBlake3 ← parseHexArray 32 "segment_blake3" body.segmentBlake3
  reject (anyNeighbours (fun a b => !decide (a.streamId < b.streamId)) body.streams = true)
    (.invalidField "streams")
  let predecessor ← predecessorFromWire body.predecessorSegmentId body.predecessorSegmentBlake3
  let streams ← (body.streams.mapM fun stream =>
    StreamDescriptor.new stream.streamId stream.sourceName stream.streamName).mapError .prologue
  let metadata ← (SegmentMetadata.new segmentId body.createdWallTimeNs body.schemaId
    body.installationId body.buildId streams).mapError .prologue
  let manifest : SealedSegmentManifest := {
    segmentOrdinal := body.segmentOrdinal
    segmentFile := body.segmentFile
    metadata, predecessor
    sealedWallTimeNs := body.sealedWallTimeNs
    segmentLength := body.segmentBytes
    segmentBlake3
    prologueLength := body.prologueBytes
    recordCount := body.recordCount
    firstRecordOffset := body.firstFrameOffset
    nextOffset := body.endOffset
    sequenceRanges := body.sequenceRanges.map fun range =>
      ⟨range.streamId, range.connectionEpoch, range.firstSequence, range.lastSequence,
        range.recordCount⟩
    minReceiveWallTimeNs := body.minReceiveWallTimeNs
    maxReceiveWallTimeNs := body.maxReceiveWallTimeNs
    manifestBlake3 }
  validateManifest manifest
  return manifest

/-- The reader of JSON texts; its error is the category of the fault. -/
abbrev ManifestReader := Bytes → Except String ManifestWire

def decodeManifest (fromSlice : ManifestReader) (bytes : Bytes) :
    Except ManifestError SealedSegmentManifest := do
  reject (maxManifestLength < bytes.length) .tooLarge
  let wire ← (fromSlice bytes).mapError .json
  reject (wire.toVec ≠ bytes) .nonCanonical
  let suppliedDigest ← parseHexArray 32 "manifest_body_blake3" wire.manifestBodyBlake3
  let digest ← digestBody blake3 wire.body
  reject (digest ≠ suppliedDigest) .digestMismatch
  manifestFromWire wire.body suppliedDigest

end Codec

/-! ## What the checks say -/

/-- What a manifest that passes its checks satisfies. -/
structure ValidManifest (manifest : SealedSegmentManifest) : Prop where
  ordinal : manifest.segmentOrdinal ≠ 0
  predecessor : validatePredecessor manifest.segmentOrdinal manifest.metadata.segmentId
    manifest.predecessor = .ok ()
  file : manifest.segmentFile = sealedName manifest.segmentOrdinal manifest.metadata.segmentId
  sealed : manifest.metadata.createdWallTimeNs ≤ manifest.sealedWallTimeNs
  prologue : manifest.prologueLength = manifest.metadata.headerLength
  first : manifest.firstRecordOffset = manifest.prologueLength
  next : manifest.nextOffset = manifest.segmentLength
  inside : manifest.firstRecordOffset ≤ manifest.nextOffset
  bounded : manifest.segmentLength ≤ maxRecoverableSegmentLength + manifest.metadata.headerLength
  counted : countRanges manifest.metadata none 0 manifest.sequenceRanges = .ok manifest.recordCount
  times : timesAreValid manifest = true

theorem validateManifest_eq_ok :
    validateManifest manifest = .ok () ↔ ValidManifest manifest := by
  unfold validateManifest
  dsimp only
  rw [encode_length, maximumSegmentLength_headerLength]
  simp only [bind_eq_ok, reject_eq_ok, ok_bind, not_or, not_not, Nat.not_lt, Bool.not_eq_false,
    Int64.not_lt, exists_and_left, exists_const]
  constructor
  · rintro ⟨hordinal, _, hpredecessor, hfile, hsealed,
      ⟨hprologue, hfirst, hnext, hinside, hbounded⟩, records, hcounted, rfl, htimes⟩
    exact ⟨hordinal, hpredecessor, hfile, hsealed, hprologue, hfirst, hnext, hinside, hbounded,
      hcounted, htimes⟩
  · intro h
    exact ⟨h.ordinal, (), h.predecessor, h.file, h.sealed, ⟨h.prologue, h.first, h.next, h.inside,
      h.bounded⟩, manifest.recordCount, h.counted, rfl, h.times⟩

/-! ## Decoding what was encoded -/

open SealedSegmentManifest

theorem encode_manifest_eq_ok {blake3 : Bytes → Digest} {encoded : Bytes} :
    manifest.encode blake3 = .ok encoded ↔
      manifest.toBodyWire.toVec.length ≤ maxManifestLength ∧
      blake3 manifest.toBodyWire.toVec = manifest.manifestBlake3 ∧
      encoded.length ≤ maxManifestLength ∧ encoded = manifest.toWire.toVec := by
  unfold SealedSegmentManifest.encode digestBody toWire
  simp only [bind_eq_ok, reject_eq_ok, pure_eq_ok, not_not, Nat.not_lt, exists_and_left,
    exists_const]
  constructor
  · rintro ⟨_, ⟨hbody, rfl⟩, hdigest, hlength, rfl⟩
    rw [hdigest] at hlength ⊢
    exact ⟨hbody, rfl, hlength, rfl⟩
  · rintro ⟨hbody, hdigest, hlength, rfl⟩
    rw [← hdigest] at hlength ⊢
    exact ⟨_, ⟨hbody, rfl⟩, rfl, hlength, rfl⟩

theorem predecessorFromWire_self {predecessor : Option SegmentPredecessor}
    (h : ∀ p ∈ predecessor, SegmentPredecessor.new p.segmentId p.segmentBlake3 = .ok p) :
    predecessorFromWire (predecessor.map (hexEncode ·.segmentId.toList))
      (predecessor.map (hexEncode ·.segmentBlake3.toList)) = .ok predecessor := by
  cases predecessor with
  | none => rfl
  | some p =>
    rw [Option.map_some, Option.map_some, predecessorFromWire,
      parseHexArray_eq_ok.mpr rfl, ok_bind, parseHexArray_eq_ok.mpr rfl, ok_bind, h p rfl]
    rfl

theorem manifestFromWire_self (hvalid : ValidManifest manifest)
    (hpredecessor : ∀ p ∈ manifest.predecessor,
      SegmentPredecessor.new p.segmentId p.segmentBlake3 = .ok p) :
    manifestFromWire manifest.toBodyWire manifest.manifestBlake3 = .ok manifest := by
  have hstreams : (manifest.toBodyWire.streams.mapM fun stream =>
      StreamDescriptor.new stream.streamId stream.sourceName stream.streamName) =
        .ok manifest.metadata.streams := by
    rw [toBodyWire, mapM_map]
    refine (mapM_eq_ok fun stream _ => ?_).trans (congrArg Except.ok (map_id _))
    exact streamDescriptor_new_eq_ok.mpr ⟨rfl, rfl, rfl⟩
  have hmetadata := segmentMetadata_new_self manifest.metadata
  have hranges : (manifest.toBodyWire.sequenceRanges.map fun range =>
      (⟨range.streamId, range.connectionEpoch, range.firstSequence, range.lastSequence,
        range.recordCount⟩ : SequenceRange)) = manifest.sequenceRanges := by
    rw [toBodyWire, map_map]
    exact map_id _
  have hascending : ¬ anyNeighbours (fun a b => !decide (a.streamId < b.streamId))
      manifest.toBodyWire.streams = true := by
    rw [toBodyWire, streams_ascending]
    simp
  unfold manifestFromWire
  rw [hranges]
  simp only [bind_eq_ok, reject_eq_ok, pure_eq_ok, mapError_eq_ok, exists_and_left, exists_const]
  exact ⟨not_not.mpr rfl, not_not.mpr rfl, _, parseHexArray_eq_ok.mpr rfl, _,
    parseHexArray_eq_ok.mpr rfl, hascending, _, predecessorFromWire_self hpredecessor, _,
      hstreams, _,
    hmetadata, (), validateManifest_eq_ok.mpr hvalid, rfl⟩

/-- A manifest in order is read back from its encoding, if its JSON text is. -/
theorem decodeManifest_encode {blake3 : Bytes → Digest} {fromSlice : ManifestReader}
    {encoded : Bytes}
    (hencode : manifest.encode blake3 = .ok encoded) (hvalid : ValidManifest manifest)
    (hpredecessor : ∀ p ∈ manifest.predecessor,
      SegmentPredecessor.new p.segmentId p.segmentBlake3 = .ok p)
    (hread : fromSlice encoded = .ok manifest.toWire) :
    decodeManifest blake3 fromSlice encoded = .ok manifest := by
  obtain ⟨hbody, hdigest, hlength, rfl⟩ := encode_manifest_eq_ok.mp hencode
  have hbodyDigest : digestBody blake3 manifest.toBodyWire = .ok manifest.manifestBlake3 := by
    rw [digestBody, reject_neg (Nat.not_lt.mpr hbody), ok_bind, hdigest]
    rfl
  rw [decodeManifest, reject_neg (Nat.not_lt.mpr hlength), ok_bind,
    mapError_eq_ok.mpr hread, ok_bind, reject_neg (not_not.mpr rfl), ok_bind, toWire,
    parseHexArray_eq_ok.mpr rfl, ok_bind, hbodyDigest, ok_bind,
      reject_neg (not_not.mpr rfl), ok_bind]
  exact manifestFromWire_self hvalid hpredecessor

/-! ## The limit leaves room -/

theorem jsonString_identifier_length (identifier : Identifier) :
    (jsonString identifier.bytes).length ≤ identifier.bytes.length + 2 :=
  jsonString_length_le fun b hb =>
    isPlain_of_isIdentifierByte (all_eq_true.mp identifier.spelled.2 b hb)

theorem jsonString_hex_length {width : Nat} (array : Vector UInt8 width) :
    (jsonString (hexEncode array.toList)).length ≤ 2 * width + 2 := by
  have hplain : ∀ b ∈ hexEncode array.toList, isPlain b = true := fun b hb =>
    isPlain_of_isLowerHex (isLowerHex_hexEncode hb)
  have hlength := jsonString_length_le hplain
  rwa [hexEncode_length, Vector.length_toList] at hlength

theorem jsonString_sealedName_length (ordinal : UInt64) (segmentId : SegmentId) :
    (jsonString (sealedName ordinal segmentId)).length ≤ 59 := by
  have hplain : ∀ b ∈ sealedName ordinal segmentId, isPlain b = true := by
    intro b hb
    rcases mem_append.mp hb with hb | hb
    · rcases mem_segmentBase hb with hhex | rfl
      · exact isPlain_of_isLowerHex hhex
      · decide
    · have hall : ∀ b ∈ sealedSuffix, isPlain b = true := by decide +kernel
      exact hall b hb
  have hending : sealedSuffix.length = 4 := by decide
  have hlength := jsonString_length_le hplain
  rwa [sealedName, length_append, segmentBase_length, hending] at hlength

theorem jsonNat_u64_length_le {n : Nat} (h : n < 2 ^ 64) : (jsonNat n).length ≤ 20 :=
  jsonNat_length_le (by decide) (h.trans (by decide))

theorem jsonInt_i64_length_le (n : Int64) : (jsonInt n.toInt).length ≤ 20 := by
  refine jsonInt_length_le (by decide) ?_
  have hlower := n.le_toInt
  have hupper := n.toInt_lt
  have hlimit : (2 : Nat) ^ 63 < 10 ^ 19 := by decide
  omega

theorem streamWire_length_le (stream : StreamDescriptor) :
    (StreamWire.mk stream.streamId stream.sourceName.bytes stream.streamName.bytes).toVec.length ≤
      59 + (stream.sourceName.bytes.length + stream.streamName.bytes.length) := by
  have hid : (jsonNat stream.streamId.toNat).length ≤ 10 :=
    jsonNat_length_le (by decide) (stream.streamId.toNat_lt.trans (by decide))
  have hsource := jsonString_identifier_length stream.sourceName
  have hname := jsonString_identifier_length stream.streamName
  refine (jsonObject_length_le_add 45 ?_ ?_).trans ?_
  · simp only [map_cons, map_nil]
    decide +kernel
  · simp only [map_cons, map_nil]
    decide
  · simp only [map_cons, map_nil, sum_cons, sum_nil]
    omega

theorem sequenceRangeWire_length_le (range : SequenceRange) (h : range.recordCount < 2 ^ 64) :
    (SequenceRangeWire.mk range.streamId range.connectionEpoch range.firstSequence
      range.lastSequence range.recordCount).toVec.length ≤ 177 := by
  have hid : (jsonNat range.streamId.toNat).length ≤ 10 :=
    jsonNat_length_le (by decide) (range.streamId.toNat_lt.trans (by decide))
  have hepoch := jsonNat_u64_length_le range.connectionEpoch.toNat_lt
  have hfirst := jsonNat_u64_length_le range.firstSequence.toNat_lt
  have hlast := jsonNat_u64_length_le range.lastSequence.toNat_lt
  have hcount := jsonNat_u64_length_le h
  refine (jsonObject_length_le_add 87 ?_ ?_).trans ?_
  · simp only [map_cons, map_nil]
    decide +kernel
  · simp only [map_cons, map_nil]
    decide
  · simp only [map_cons, map_nil, sum_cons, sum_nil]
    omega

theorem streams_length_le (metadata : SegmentMetadata) :
    (jsonArray ((metadata.streams.map fun stream => StreamWire.mk stream.streamId
      stream.sourceName.bytes stream.streamName.bytes).map StreamWire.toVec)).length ≤ 300000 := by
  have hfits := metadata.fits
  have hmany := metadata.streamed.2
  simp only [encodedLength, maxHeaderLength, maxStreams] at hfits hmany
  have hstream : ∀ stream ∈ metadata.streams, (StreamWire.mk stream.streamId
      stream.sourceName.bytes stream.streamName.bytes).toVec.length + 1 ≤
        52 + (streamFixedLength + stream.sourceName.bytes.length
          + stream.streamName.bytes.length) := by
    intro stream _
    have hlength := streamWire_length_le stream
    simp only [streamFixedLength]
    omega
  have hsum := sum_map_le_of_le _ _ 52 hstream
  refine (jsonArray_length_le _).trans ?_
  rw [map_map, map_map]
  simp only [Function.comp_def]
  omega

theorem sequenceRanges_length_le (hmany : ranges.length ≤ maxTrackedStreamEpochs)
    (hcounts : ∀ range ∈ ranges, range.recordCount < 2 ^ 64) :
    (jsonArray ((ranges.map fun range => SequenceRangeWire.mk range.streamId range.connectionEpoch
      range.firstSequence range.lastSequence range.recordCount).map
        SequenceRangeWire.toVec)).length ≤ 730000 := by
  have hrange : ∀ range ∈ ranges, (SequenceRangeWire.mk range.streamId range.connectionEpoch
      range.firstSequence range.lastSequence range.recordCount).toVec.length + 1 ≤ 178 + 0 := by
    intro range hmem
    have hlength := sequenceRangeWire_length_le range (hcounts range hmem)
    omega
  have hsum := sum_map_le_of_le _ (fun _ => 0) 178 hrange
  simp only [maxTrackedStreamEpochs] at hmany
  refine (jsonArray_length_le _).trans ?_
  rw [map_map, map_map]
  simp only [Function.comp_def]
  simp only [map_const', sum_replicate, smul_zero] at hsum
  omega

/-- A valid manifest with as many ranges as a scan tracks stays within the limit. -/
theorem toVec_length_le (hvalid : ValidManifest manifest)
    (hmany : manifest.sequenceRanges.length ≤ maxTrackedStreamEpochs) :
    manifest.toBodyWire.toVec.length ≤ 1100000 := by
  obtain ⟨hrecords, hcounts⟩ := countRanges_bounds hvalid.counted (by decide)
  have hheader := (headerLength_bounds manifest.metadata).2
  have hlimit : maxRecoverableSegmentLength + maxHeaderLength < 2 ^ 64 := by decide
  have hlength : manifest.segmentLength < 2 ^ 64 := by
    have := hvalid.bounded
    omega
  have hprologue : manifest.prologueLength < 2 ^ 64 := by
    rw [hvalid.prologue]
    omega
  have hidentifier : ∀ identifier : Identifier, (jsonString identifier.bytes).length ≤ 1026 := by
    intro identifier
    exact (jsonString_identifier_length identifier).trans (Nat.add_le_add_right identifier.short 2)
  have hhash : ∀ hash : Digest, (jsonString (hexEncode hash.toList)).length ≤ 66 := fun hash =>
    jsonString_hex_length hash
  have hid : ∀ id : SegmentId, (jsonString (hexEncode id.toList)).length ≤ 66 := fun id =>
    (jsonString_hex_length id).trans (by decide)
  have hversion : ∀ version : UInt16, (jsonNat version.toNat).length ≤ 20 := fun version =>
    jsonNat_u64_length_le (version.toNat_lt.trans (by decide))
  have htime : ∀ time : Option Int64, (jsonOption (jsonInt ·.toInt) time).length ≤ 20 := fun time =>
    jsonOption_length_le (by decide) fun v _ => jsonInt_i64_length_le v
  have hpredecessor : ∀ text : SegmentPredecessor → Bytes,
      (∀ p, (jsonString (text p)).length ≤ 66) →
      (jsonOption jsonString (manifest.predecessor.map text)).length ≤ 66 := by
    intro text htext
    refine jsonOption_length_le (by decide) fun v hv => ?_
    obtain ⟨p, -, rfl⟩ := Option.map_eq_some_iff.mp hv
    exact htext p
  have hfile : (jsonString manifest.segmentFile).length ≤ 59 := by
    rw [hvalid.file]
    exact jsonString_sealedName_length _ _
  rw [ManifestBodyWire.toVec]
  refine (jsonObject_length_le_add 500 ?_ ?_).trans ((Nat.add_le_add_left (sum_length_le_of_bounds
    [20, 20, 20, 66, 66, 66, 59, 20, 66, 20, 20, 20, 20, 20, 20, 1026, 1026, 1026, 300000, 730000,
      20, 20] ?_) 500).trans (by decide))
  · simp only [map_cons, map_nil]
    decide +kernel
  · simp only [map_cons, map_nil]
    decide +kernel
  exact
    .cons (hversion _) <|
    .cons (hversion _) <|
    .cons (jsonNat_u64_length_le manifest.segmentOrdinal.toNat_lt) <|
    .cons (hid manifest.metadata.segmentId) <|
    .cons (hpredecessor (hexEncode ·.segmentId.toList) fun p => hid p.segmentId) <|
    .cons (hpredecessor (hexEncode ·.segmentBlake3.toList) fun p => hhash p.segmentBlake3) <|
    .cons hfile <|
    .cons (jsonNat_u64_length_le hlength) <|
    .cons (hhash manifest.segmentBlake3) <|
    .cons (jsonNat_u64_length_le hprologue) <|
    .cons (jsonNat_u64_length_le hrecords) <|
    .cons (jsonNat_u64_length_le (hvalid.first.trans_lt hprologue)) <|
    .cons (jsonNat_u64_length_le (hvalid.next.trans_lt hlength)) <|
    .cons (jsonInt_i64_length_le manifest.metadata.createdWallTimeNs) <|
    .cons (jsonInt_i64_length_le manifest.sealedWallTimeNs) <|
    .cons (hidentifier manifest.metadata.schemaId) <|
    .cons (hidentifier manifest.metadata.installationId) <|
    .cons (hidentifier manifest.metadata.buildId) <|
    .cons (streams_length_le manifest.metadata) <|
    .cons (sequenceRanges_length_le hmany hcounts) <|
    .cons (htime manifest.minReceiveWallTimeNs) <|
    .cons (htime manifest.maxReceiveWallTimeNs) .nil

/-- So does its wire form. -/
theorem wire_length_le (hvalid : ValidManifest manifest)
    (hmany : manifest.sequenceRanges.length ≤ maxTrackedStreamEpochs) :
    manifest.toWire.toVec.length ≤ maxManifestLength := by
  rw [ManifestWire.toVec]
  refine (jsonObject_length_le_add 50 ?_ ?_).trans ((Nat.add_le_add_left (sum_length_le_of_bounds
    [1100000, 66] ?_) 50).trans (by decide))
  · simp only [map_cons, map_nil]
    decide +kernel
  · simp only [map_cons, map_nil]
    decide
  · exact .cons (toVec_length_le hvalid hmany) (.cons (jsonString_hex_length _) .nil)

end CryptoIntelligence.Wal
