/-
  Sealing a segment (`raw-wal/src/seal.rs`): the records are scanned without repair, what they cover
  is summed up by stream and epoch, and the manifest that says so is built and encoded. A sealed
  file is later visited against its manifest: the same scan, the same sums, and a hash over the
  prologue and the frames as they are read.

  The digest function and the JSON reader are parameters.

  What is proved: the sums of a scan pass the checks of the manifest (`validManifest_of_scan`), and
  whatever is sealed is accepted: its manifest is read back and the visit succeeds over the same
  bytes (`sealed_segment_verifies`).
-/
import CryptoIntelligence.Lib.Upserts
import CryptoIntelligence.Wal.PrologueCodec
import CryptoIntelligence.Wal.TornTail
import CryptoIntelligence.Wal.Manifest

namespace CryptoIntelligence.Wal

open Lib Prologue Segment
open Std (ExtTreeMap)

/-! ## What the records of a scan cover -/

structure ScanStats where
  ranges : ExtTreeMap StreamEpoch SequenceRange StreamEpoch.compare
  minReceiveWallTimeNs : Option Int64
  maxReceiveWallTimeNs : Option Int64
  recordCountOverflowed : Bool

namespace ScanStats

def default : ScanStats := ⟨∅, none, none, false⟩

/-- The range of a stream and epoch after one more record; the count stays where it would
overflow. -/
def extend (metadata : RecordMetadata) : Option SequenceRange → SequenceRange
  | some range =>
    { range with
      lastSequence := metadata.recordSequence
      recordCount := if range.recordCount + 1 < 2 ^ 64 then range.recordCount + 1
        else range.recordCount }
  | none => ⟨metadata.streamId, metadata.connectionEpoch, metadata.recordSequence,
      metadata.recordSequence, 1⟩

def smaller (time : Int64) : Option Int64 → Int64
  | some current => if current ≤ time then current else time
  | none => time

def larger (time : Int64) : Option Int64 → Int64
  | some current => if time ≤ current then current else time
  | none => time

def observeMetadata (stats : ScanStats) (metadata : RecordMetadata) : ScanStats where
  ranges := stats.ranges.insert metadata.streamEpoch
    (extend metadata stats.ranges[metadata.streamEpoch]?)
  minReceiveWallTimeNs := some (smaller metadata.receiveWallTimeNs stats.minReceiveWallTimeNs)
  maxReceiveWallTimeNs := some (larger metadata.receiveWallTimeNs stats.maxReceiveWallTimeNs)
  recordCountOverflowed := stats.recordCountOverflowed
    || stats.ranges[metadata.streamEpoch]?.any fun range => decide (2 ^ 64 ≤ range.recordCount + 1)

def observe (stats : ScanStats) (record : RecoveredRecord) : ScanStats :=
  match record.metadata with
  | some metadata => stats.observeMetadata metadata
  | none => stats

def observeAll (records : List RecoveredRecord) : ScanStats := records.foldl observe default

def intoParts (stats : ScanStats) :
    Except ManifestError (List SequenceRange × Option Int64 × Option Int64) := do
  reject (stats.recordCountOverflowed = true) (.invalidField "record_count")
  return (stats.ranges.toList.map Prod.snd, stats.minReceiveWallTimeNs, stats.maxReceiveWallTimeNs)

end ScanStats

/-! ## Sealing -/

section Scans

variable [SealLibraries]

/-- What is known of a segment before it is synced: who it is, when it is sealed, its records. -/
structure Inspected where
  ordinal : UInt64
  metadata : SegmentMetadata
  sealedWallTimeNs : Int64
  stats : ScanStats
  summary : RecoverySummary

/-- The time of a seal that was begun before stays. -/
def sealingTime (pendingManifest : Option SealedSegmentManifest) (sealedWallTimeNs : Int64) :
    Int64 :=
  match pendingManifest with
  | some manifest => manifest.sealedWallTimeNs
  | none => sealedWallTimeNs

/-- `finish_locked_seal_at` up to the sync of the segment. -/
def inspectSegment (paths : SealPaths) (predecessor : Option SegmentPredecessor)
    (sealedWallTimeNs : Int64) (pendingManifest : Option SealedSegmentManifest) (segment : Segment)
    (file : Bytes) : Except SealingError Inspected := do
  let (ordinal, filenameSegmentId) ← required (parseActiveIdentity paths.active) .invalidPath
  let metadata ← required segment.metadata .invalidPath
  reject (metadata.segmentId ≠ filenameSegmentId) .segmentIdMismatch
  let sealedWallTimeNs := sealingTime pendingManifest sealedWallTimeNs
  reject (sealedWallTimeNs < metadata.createdWallTimeNs)
    (.manifest (.invalidField "sealed_wall_time_ns"))
  (validatePredecessor ordinal metadata.segmentId predecessor).mapError .manifest
  let outcome := (segment.verifyWithoutRepair file).2
  let summary ← outcome.result.mapError .recovery
  return ⟨ordinal, metadata, sealedWallTimeNs, .observeAll outcome.visited, summary⟩

section Digests

variable (blake3 : Bytes → Digest)

/-- The manifest of an inspected segment, before its own digest is known. -/
def undigestedManifest (segmentFile : Bytes) (predecessor : Option SegmentPredecessor)
    (inspected : Inspected) (file : Bytes)
    (parts : List SequenceRange × Option Int64 × Option Int64) : SealedSegmentManifest where
  segmentOrdinal := inspected.ordinal
  segmentFile := segmentFile
  metadata := inspected.metadata
  predecessor := predecessor
  sealedWallTimeNs := inspected.sealedWallTimeNs
  segmentLength := file.length
  segmentBlake3 := blake3 file
  prologueLength := (encode inspected.metadata).length
  recordCount := inspected.summary.recordCount
  firstRecordOffset := (encode inspected.metadata).length
  nextOffset := inspected.summary.lastValidOffset
  sequenceRanges := parts.1
  minReceiveWallTimeNs := parts.2.1
  maxReceiveWallTimeNs := parts.2.2
  manifestBlake3 := zeroDigest

/-- `finish_locked_seal_at` from the sync of the segment to the encoded manifest. -/
def describeSegment (paths : SealPaths) (predecessor : Option SegmentPredecessor)
    (inspected : Inspected) (file : Bytes) :
    Except SealingError (SealedSegmentManifest × Bytes) := do
  reject (inspected.summary.lastValidOffset ≠ file.length) (.manifest (.invalidField "end_offset"))
  let parts ← inspected.stats.intoParts.mapError .manifest
  let segmentFile ← utf8FileName paths.sealed
  let manifest := undigestedManifest blake3 segmentFile predecessor inspected file parts
  (validateManifest manifest).mapError .manifest
  let manifestBlake3 ← (digestBody blake3 manifest.toBodyWire).mapError .manifest
  let manifest := { manifest with manifestBlake3 }
  let encoded ← (manifest.encode blake3).mapError .manifest
  return (manifest, encoded)

/-- The manifest that `finish_locked_seal_at` builds, and its encoding. -/
def buildManifest (paths : SealPaths) (predecessor : Option SegmentPredecessor)
    (sealedWallTimeNs : Int64) (pendingManifest : Option SealedSegmentManifest) (segment : Segment)
    (file : Bytes) : Except SealingError (SealedSegmentManifest × Bytes) := do
  let inspected ← inspectSegment paths predecessor sealedWallTimeNs pendingManifest segment file
  describeSegment blake3 paths predecessor inspected file

/-! ## Visiting a sealed file -/

/-- The visited records, the bytes that went into the hash, and the result. -/
structure SealedVisit where
  visited : List RecoveredRecord
  hashed : Bytes
  result : Except SealingError Unit

def readPrologue (file : Bytes) : Except SealingError (SegmentMetadata × Nat × Bytes) := do
  reject (file.length < 12) (.prologue .incomplete)
  let headerLength ← (declaredHeaderLength (file.take 12)).mapError .prologue
  reject (file.length < headerLength) (.prologue .incomplete)
  let encoded := file.take headerLength
  let decoded ← (decode encoded).mapError .prologue
  return (decoded.metadata, headerLength, encoded)

/-- The checks before the scan. -/
def openSealedFile (file : Bytes) (manifest : SealedSegmentManifest) :
    Except SealingError (SegmentMetadata × Nat × Bytes) := do
  let maximumLength ← (maximumSegmentLength manifest.prologueLength).mapError .manifest
  reject (maximumLength < file.length) (.manifest (.invalidField "segment_bytes"))
  reject (file.length ≠ manifest.segmentLength) (.manifest (.invalidField "segment_bytes"))
  let (metadata, prologueLength, encodedPrologue) ← readPrologue file
  reject (metadata ≠ manifest.metadata ∨ prologueLength ≠ manifest.prologueLength)
    (.manifest (.invalidField "prologue"))
  return (metadata, prologueLength, encodedPrologue)

/-- The checks after the scan. -/
def compareWithManifest (manifest : SealedSegmentManifest) (outcome : ScanOutcome)
    (hashed : Bytes) : Except SealingError Unit := do
  let summary ← outcome.result.mapError .recovery
  reject (blake3 hashed ≠ manifest.segmentBlake3) (.manifest (.invalidField "segment_blake3"))
  let (ranges, minimum, maximum) ← (ScanStats.observeAll outcome.visited).intoParts.mapError
    .manifest
  reject (summary.recordCount ≠ manifest.recordCount ∨ summary.lastValidOffset ≠ manifest.nextOffset
      ∨ ranges ≠ manifest.sequenceRanges ∨ minimum ≠ manifest.minReceiveWallTimeNs
      ∨ maximum ≠ manifest.maxReceiveWallTimeNs) (.manifest (.invalidField "record_summary"))

def visitSealedFileAgainstManifest (file : Bytes) (manifest : SealedSegmentManifest) :
    SealedVisit :=
  match openSealedFile file manifest with
  | .error error => ⟨[], [], .error error⟩
  | .ok (metadata, prologueLength, encodedPrologue) =>
    let outcome := verifyWithFrom file (UInt64.ofNat prologueLength) (some .v2) (some metadata)
    let hashed := encodedPrologue ++ outcome.encoded
    ⟨outcome.visited, hashed, compareWithManifest blake3 manifest outcome hashed⟩

end Digests

/-! ## Files with a prologue -/

/-- What opens is a prologue followed by something, and the handle is that of its metadata. -/
theorem openV2File_eq_ok {file : Bytes} {segment : Segment} :
    openV2File file = .ok segment ↔
      ∃ metadata rest, file = encode metadata ++ rest ∧
        segment = Segment.loaded metadata none false := by
  constructor
  · intro h
    simp only [openV2File, loadPrologue, bind_eq_ok, reject_eq_ok, mapError_eq_ok,
      pure_eq_ok, exists_and_left, exists_const] at h
    obtain ⟨-, headerLength, -, -, decoded, hdecode, rfl⟩ := h
    obtain ⟨hlength, rest, hrest⟩ := eq_encode_append_of_decode hdecode
    refine ⟨decoded.metadata, rest ++ file.drop headerLength, ?_, ?_⟩
    · rw [← List.append_assoc, ← hrest, List.take_append_drop]
    · rw [hlength]
      rfl
  · rintro ⟨metadata, rest, rfl, rfl⟩
    exact openV2File_encode metadata rest

theorem readPrologue_encode (metadata : SegmentMetadata) (rest : Bytes) :
    readPrologue (encode metadata ++ rest) =
      .ok (metadata, metadata.headerLength, encode metadata) := by
  have hlength : (encode metadata).length = metadata.headerLength :=
    encode_length metadata
  have hminimum := (headerLength_bounds metadata).1
  obtain ⟨hdeclared, hdecode⟩ := prologue_read metadata rest
  simp only [fixedHeaderLength, checksumLength] at hminimum
  rw [readPrologue, reject_neg (by rw [List.length_append, hlength]; omega), ok_bind,
    mapError_eq_ok.mpr hdeclared, ok_bind, reject_neg (by rw [List.length_append, hlength]; omega),
    ok_bind]
  dsimp only
  rw [mapError_eq_ok.mpr hdecode, List.take_left' hlength]
  rfl

/-! ## What a scan without repair says -/

/-- A scan that reaches the end has passed every byte on. -/
theorem scanLoop_encoded {file : Bytes} {segment : Option SegmentMetadata} {start : Nat}
    {expected : Option WalFormat} (h : start ≤ file.length) {summary : RecoverySummary}
    (hresult : (scanLoop file segment false (.initial start expected)).result = .ok summary) :
    (scanLoop file segment false (.initial start expected)).encoded = file.drop start := by
  revert hresult
  refine scanLoop_spec (ScanInvariant file segment start expected)
    (fun outcome => outcome.result = .ok summary → outcome.encoded = file.drop start) ?_ ?_
    (scanInvariant_initial h segment expected)
  · exact fun s next hinv hstep => scanInvariant_next hinv (scanStep_eq_next.mp hstep).2
  · intro s outcome hinv hstep hresult
    unfold scanStep at hstep
    split_ifs at hstep with hmore
    · split at hstep
      · obtain rfl := Sum.inr.inj hstep
        exact absurd hresult (by simp)
      · obtain rfl := Sum.inr.inj hstep
        exact absurd hresult (by simp [handleIncompleteTail])
      · exact absurd hstep (by simp)
    · obtain rfl := Sum.inr.inj hstep
      have hend : s.offset = file.length := by
        have := hinv.within.2
        omega
      rw [hinv.encoded, hend, slice]
      exact List.take_of_length_le (by rw [List.length_drop])

theorem length_le_of_decomposition {format : Option WalFormat} {offset : Nat} {bytes : Bytes}
    {records : List RecoveredRecord} (h : Decomposition format offset bytes records) :
    records.length ≤ bytes.length := by
  induction h with
  | nil offset => exact le_rfl
  | @cons offset frame rest records decoded decodes whole same tail ih =>
    have hminimum := Frame.decode_minimum decodes
    rw [List.length_cons, List.length_append]
    omega

/-- Every frame of the current format carries metadata. -/
theorem recordMetadata_length {offset : Nat} {bytes : Bytes} {records : List RecoveredRecord}
    (h : Decomposition (some .v2) offset bytes records) :
    (recordMetadata records).length = records.length := by
  generalize hformat : (some WalFormat.v2) = format at h
  induction h with
  | nil offset => rfl
  | @cons offset frame rest records decoded decodes whole same tail ih =>
    have hv2 : decoded.format = .v2 := Option.some.inj (same.symm.trans hformat.symm)
    have hmetadata : ∃ metadata, decoded.metadata = some metadata := by
      obtain ⟨-, -, ⟨-, hlegacy⟩ | ⟨-, hcurrent⟩⟩ := Frame.decode_eq_ok.mp decodes
      · obtain ⟨length, -, -, -, -, rfl⟩ := Frame.decodeLegacy_eq_ok.mp hlegacy
        exact absurd hv2 (by simp)
      · obtain ⟨metadata, _, _, -, -, rfl⟩ := Frame.decodeV2_eq_ok.mp hcurrent
        exact ⟨metadata, rfl⟩
    obtain ⟨metadata, hmetadata⟩ := hmetadata
    rw [recordMetadata, List.filterMap_cons, hmetadata, List.length_cons, List.length_cons]
    exact congrArg (· + 1) ih

/-- The scan of a segment file from the end of its prologue. -/
abbrev verification (metadata : SegmentMetadata) (rest : Bytes) : ScanOutcome :=
  verifyWithFrom (encode metadata ++ rest) (UInt64.ofNat metadata.headerLength) (some .v2)
    (some metadata)

/-- What a successful verification of a segment says of its records. -/
structure Verified (metadata : SegmentMetadata) (rest : Bytes) (summary : RecoverySummary) :
    Prop where
  decomposed : Decomposition (some .v2) metadata.headerLength rest
    (verification metadata rest).visited
  ordered : Ordered (some metadata) (recordMetadata (verification metadata rest).visited)
  encoded : (verification metadata rest).encoded = rest
  counted : summary.recordCount = (verification metadata rest).visited.length
  whole : summary.lastValidOffset = metadata.headerLength + rest.length
  bounded : rest.length ≤ maxRecoverableSegmentLength

theorem verified_of_result {metadata : SegmentMetadata} {rest : Bytes} {summary : RecoverySummary}
    (h : (verification metadata rest).result = .ok summary) : Verified metadata rest summary := by
  have hlength : (encode metadata ++ rest).length =
      metadata.headerLength + rest.length := by
    rw [List.length_append, encode_length]
  have hdrop : (encode metadata ++ rest).drop metadata.headerLength = rest :=
    List.drop_left' (encode_length metadata)
  have hbounded : rest.length ≤ maxRecoverableSegmentLength := by
    by_contra hlarge
    simp only [verifyWithFrom, scanWithFrom, toNat_recordStart, hlength] at h
    split_ifs at h with hcapacity htooLarge
    exact htooLarge (by omega)
  have hstart : metadata.headerLength ≤ (encode metadata ++ rest).length := by omega
  have hscan : verification metadata rest = _ :=
    scanWithFrom_eq_scanLoop (some metadata) false hstart (by omega)
  rw [hscan] at h
  obtain ⟨-, hsame, hrecovered⟩ := scanLoop_recovered false hstart _ rfl
  have hresult := hrecovered summary h
  have hdecomposed := hresult.decomposed
  obtain ⟨hcount, hoffset, -⟩ := hresult.counted
  rw [hsame rfl] at hdecomposed hoffset
  rw [hdrop, hresult.expected .v2 rfl] at hdecomposed
  constructor
  · rw [hscan]
    exact hdecomposed
  · rw [hscan]
    exact hresult.ordered
  · rw [hscan, scanLoop_encoded hstart h, hdrop]
  · rw [hscan]
    exact hcount
  · exact hoffset.trans hlength
  · exact hbounded

end Scans

/-! ## The sums of a scan -/

theorem observeAll_eq_foldl (records : List RecoveredRecord) :
    ScanStats.observeAll records =
      (recordMetadata records).foldl ScanStats.observeMetadata .default := by
  unfold ScanStats.observeAll recordMetadata
  generalize ScanStats.default = stats
  induction records generalizing stats with
  | nil => rfl
  | cons record records ih =>
    rw [List.foldl_cons, ih, List.filterMap_cons]
    unfold ScanStats.observe
    cases record.metadata <;> rfl

/-- What the range of a stream and epoch says of the records. -/
structure Covers (records : List RecordMetadata) (key : StreamEpoch) (range : SequenceRange) :
    Prop where
  keyed : range.streamEpoch = key
  counted : range.recordCount = (records.map RecordMetadata.streamEpoch).count key
  latest : (sequencesOf records)[key]? = some range.lastSequence
  ordered : range.firstSequence ≤ range.lastSequence

/-- The statistics after these records. -/
structure Summarises (records : List RecordMetadata) (stats : ScanStats) : Prop where
  ranges : Everywhere (Covers records) stats.ranges
  keys : ∀ key, key ∈ stats.ranges ↔ key ∈ records.map RecordMetadata.streamEpoch
  untimed : records = [] → stats.minReceiveWallTimeNs = none ∧ stats.maxReceiveWallTimeNs = none
  timed : records ≠ [] → ∃ minimum maximum, stats.minReceiveWallTimeNs = some minimum ∧
    stats.maxReceiveWallTimeNs = some maximum ∧ minimum ≤ maximum
  fits : stats.recordCountOverflowed = false

theorem summarises_default : Summarises [] .default := by
  refine ⟨everywhere_empty _, ?_, fun _ => ⟨rfl, rfl⟩, fun h => absurd rfl h, rfl⟩
  intro key
  simp [ScanStats.default]

theorem covers_extend {records : List RecordMetadata} {metadata : RecordMetadata}
    {found : Option SequenceRange}
    (hadmissible : ∀ previous, (sequencesOf records)[metadata.streamEpoch]? = some previous →
      previous < metadata.recordSequence)
    (hfound : ∀ range ∈ found, Covers records metadata.streamEpoch range)
    (hmissing : found = none → metadata.streamEpoch ∉ records.map RecordMetadata.streamEpoch)
    (hcount : records.length + 1 < 2 ^ 64) :
    Covers (records ++ [metadata]) metadata.streamEpoch (ScanStats.extend metadata found) := by
  have hlatest : (sequencesOf (records ++ [metadata]))[metadata.streamEpoch]? =
      some metadata.recordSequence := by
    rw [sequencesOf_snoc, get_track, if_pos rfl]
  have hcounted : ((records ++ [metadata]).map RecordMetadata.streamEpoch).count
      metadata.streamEpoch = (records.map RecordMetadata.streamEpoch).count metadata.streamEpoch
          + 1 := by
    rw [List.map_append, List.map_cons, List.map_nil, List.count_append, List.count_singleton_self]
  cases found with
  | none =>
    refine ⟨rfl, ?_, hlatest, UInt64.le_refl _⟩
    rw [hcounted, List.count_eq_zero_of_not_mem (hmissing rfl)]
    rfl
  | some range =>
    have hrange := hfound range rfl
    have hsmall : range.recordCount + 1 < 2 ^ 64 := by
      have hle : (records.map RecordMetadata.streamEpoch).count metadata.streamEpoch ≤
          records.length := List.count_le_length.trans_eq (List.length_map _)
      rw [hrange.counted]
      omega
    refine ⟨hrange.keyed, ?_, hlatest, ?_⟩
    · rw [ScanStats.extend, if_pos hsmall, hcounted, hrange.counted]
    · exact UInt64.le_trans hrange.ordered (UInt64.le_of_lt (hadmissible _ hrange.latest))

/-- A record of another stream or epoch leaves a range as it was. -/
theorem Covers.snoc_of_ne {records : List RecordMetadata} {metadata : RecordMetadata}
    {key : StreamEpoch} {range : SequenceRange} (h : Covers records key range)
    (hne : metadata.streamEpoch ≠ key) : Covers (records ++ [metadata]) key range := by
  refine ⟨h.keyed, ?_, ?_, h.ordered⟩
  · rw [h.counted, List.map_append, List.map_cons, List.map_nil, List.count_append,
      List.count_singleton, if_neg (by simpa using hne)]
    rfl
  · rw [sequencesOf_snoc, get_track, if_neg hne, h.latest]

theorem smaller_le_larger {time minimum maximum : Int64} (h : minimum ≤ maximum) :
    ScanStats.smaller time (some minimum) ≤ ScanStats.larger time (some maximum) := by
  unfold ScanStats.smaller ScanStats.larger
  dsimp only
  split_ifs with hmin hmax hmax
  · exact h
  · exact hmin
  · exact hmax
  · exact Int64.le_refl _

variable {stats : ScanStats}

theorem Summarises.observe {records : List RecordMetadata}
    (h : Summarises records stats) {metadata : RecordMetadata}
    (hadmissible : ∀ previous, (sequencesOf records)[metadata.streamEpoch]? = some previous →
      previous < metadata.recordSequence)
    (hcount : records.length + 1 < 2 ^ 64) :
    Summarises (records ++ [metadata]) (stats.observeMetadata metadata) := by
  have hfound : ∀ range ∈ stats.ranges[metadata.streamEpoch]?,
      Covers records metadata.streamEpoch range := fun range hrange => h.ranges _ _ hrange
  have hmissing : stats.ranges[metadata.streamEpoch]? = none →
      metadata.streamEpoch ∉ records.map RecordMetadata.streamEpoch := by
    rw [getElem?_eq_none_iff, h.keys]
    exact id
  refine ⟨?_, ?_, fun hnil => absurd hnil (by simp), fun _ => ?_, ?_⟩
  · intro key range hrange
    rw [ScanStats.observeMetadata, ExtTreeMap.getElem?_insert] at hrange
    simp only [Std.LawfulEqCmp.compare_eq_iff_eq] at hrange
    split_ifs at hrange with hkey
    · obtain rfl := Option.some.inj hrange
      rw [← hkey]
      exact covers_extend hadmissible hfound hmissing hcount
    · exact (h.ranges key range hrange).snoc_of_ne hkey
  · intro key
    rw [ScanStats.observeMetadata, ExtTreeMap.mem_insert, h.keys, List.map_append, List.mem_append,
      Std.LawfulEqCmp.compare_eq_iff_eq]
    simp only [List.map_cons, List.map_nil, List.mem_singleton]
    rw [or_comm, eq_comm]
  · refine ⟨_, _, rfl, rfl, ?_⟩
    by_cases hempty : records = []
    · obtain ⟨hmin, hmax⟩ := h.untimed hempty
      rw [hmin, hmax]
      exact Int64.le_refl _
    · obtain ⟨minimum, maximum, hmin, hmax, hle⟩ := h.timed hempty
      rw [hmin, hmax]
      exact smaller_le_larger hle
  · rw [ScanStats.observeMetadata, h.fits, Bool.false_or]
    cases hrange : stats.ranges[metadata.streamEpoch]? with
    | none => rfl
    | some range =>
      have hcovers := hfound range hrange
      have hle : (records.map RecordMetadata.streamEpoch).count metadata.streamEpoch ≤
          records.length := List.count_le_length.trans_eq (List.length_map _)
      rw [Option.any_some, decide_eq_false_iff_not, hcovers.counted]
      omega

theorem summarises_observeAll {segment : Option SegmentMetadata} {records : List RecoveredRecord}
    (hordered : Ordered segment (recordMetadata records))
    (hcount : (recordMetadata records).length < 2 ^ 64) :
    Summarises (recordMetadata records) (ScanStats.observeAll records) := by
  rw [observeAll_eq_foldl]
  generalize recordMetadata records = metadatas at hordered hcount
  induction metadatas using List.reverseRecOn with
  | nil => exact summarises_default
  | append_singleton metadatas metadata ih =>
    obtain ⟨hbefore, hadmissible⟩ := ordered_snoc.mp hordered
    rw [List.length_append, List.length_singleton] at hcount
    rw [List.foldl_append]
    exact (ih hbefore (by omega)).observe hadmissible.follows hcount

/-! ## The ranges pass the checks -/

def ScanStats.sequenceRanges (stats : ScanStats) : List SequenceRange :=
  stats.ranges.toList.map Prod.snd

theorem Summarises.map_streamEpoch {records : List RecordMetadata} (h : Summarises records stats) :
    stats.sequenceRanges.map SequenceRange.streamEpoch = stats.ranges.keys :=
  Keyed.map_values fun key range hrange => (h.ranges key range hrange).keyed

theorem Summarises.covers {records : List RecordMetadata}
    (h : Summarises records stats) {range : SequenceRange} (hrange : range ∈ stats.sequenceRanges) :
    Covers records range.streamEpoch range := by
  obtain ⟨⟨key, value⟩, hmem, rfl⟩ := List.mem_map.mp hrange
  have hcovers := h.ranges key value (ExtTreeMap.mem_toList_iff_getElem?_eq_some.mp hmem)
  rw [hcovers.keyed]
  exact hcovers

theorem Summarises.keys_toFinset {records : List RecordMetadata} (h : Summarises records stats) :
    stats.ranges.keys.toFinset = (records.map RecordMetadata.streamEpoch).toFinset := by
  ext key
  rw [List.mem_toFinset, List.mem_toFinset, ExtTreeMap.mem_keys, h.keys]

/-- The counts of the ranges add up to the records. -/
theorem Summarises.sum_recordCount {records : List RecordMetadata} (h : Summarises records stats) :
    (stats.sequenceRanges.map (·.recordCount)).sum = records.length := by
  have hcounts : stats.sequenceRanges.map (·.recordCount) =
      stats.ranges.keys.map fun key => (records.map RecordMetadata.streamEpoch).count key := by
    rw [← h.map_streamEpoch, List.map_map]
    apply List.map_congr_left
    intro range hrange
    exact (h.covers hrange).counted
  rw [hcounts, ← List.sum_toFinset _ ExtTreeMap.nodup_keys, h.keys_toFinset,
    ← List.length_map RecordMetadata.streamEpoch]
  convert List.sum_toFinset_count_eq_length (records.map RecordMetadata.streamEpoch) using 4

theorem Summarises.length_sequenceRanges {records : List RecordMetadata}
    (h : Summarises records stats) :
    stats.sequenceRanges.length = (records.map RecordMetadata.streamEpoch).toFinset.card := by
  rw [← h.keys_toFinset, List.toFinset_card_of_nodup ExtTreeMap.nodup_keys, ← h.map_streamEpoch,
    List.length_map]

theorem Summarises.countRanges {metadata : SegmentMetadata} {records : List RecordMetadata}
    (h : Summarises records stats) (hordered : Ordered (some metadata) records)
    (hcount : records.length < 2 ^ 64) :
    countRanges metadata none 0 stats.sequenceRanges = .ok records.length := by
  have hsum := h.sum_recordCount
  rw [countRanges_eq_sum, hsum, Nat.zero_add]
  · rw [h.map_streamEpoch]
    exact ExtTreeMap.ordered_keys
  · intro range hrange
    have hcovers := h.covers hrange
    obtain ⟨record, hrecord, hkey, -⟩ := exists_of_get_sequencesOf hcovers.latest
    refine ⟨?_, ?_, hcovers.ordered⟩
    · have hdeclared := hordered.declared record hrecord metadata rfl
      rwa [show record.streamId = range.streamId from congrArg Prod.fst hkey] at hdeclared
    · rw [hcovers.counted, ← hkey]
      exact (List.count_pos_iff.mpr (List.mem_map_of_mem hrecord)).ne'
  · simp
  · rw [hsum, Nat.zero_add]
    exact hcount

theorem Summarises.intoParts {records : List RecordMetadata} (h : Summarises records stats) :
    stats.intoParts =
      .ok (stats.sequenceRanges, stats.minReceiveWallTimeNs, stats.maxReceiveWallTimeNs) := by
  rw [ScanStats.intoParts, h.fits, reject_neg (by simp)]
  rfl

/-! ## Sealing succeeds -/

section Sealable

variable [SealLibraries]

/-- A segment that can be sealed: it verifies, and its number, its predecessor and the time of the
seal are admissible. -/
structure Sealable (metadata : SegmentMetadata) (rest : Bytes) (summary : RecoverySummary)
    (ordinal : UInt64) (predecessor : Option SegmentPredecessor) (sealedWallTimeNs : Int64) :
    Prop where
  verifies : (verification metadata rest).result = .ok summary
  numbered : ordinal ≠ 0
  admissible : validatePredecessor ordinal metadata.segmentId predecessor = .ok ()
  created : metadata.createdWallTimeNs ≤ sealedWallTimeNs

/-- What is known of a verified segment. -/
def inspectedOf (metadata : SegmentMetadata) (rest : Bytes) (summary : RecoverySummary)
    (ordinal : UInt64) (sealedWallTimeNs : Int64) : Inspected :=
  ⟨ordinal, metadata, sealedWallTimeNs, .observeAll (verification metadata rest).visited, summary⟩

/-- The manifest of an inspected segment under its own name. -/
def Inspected.manifest (blake3 : Bytes → Digest) (inspected : Inspected)
    (predecessor : Option SegmentPredecessor) (file : Bytes) : SealedSegmentManifest :=
  undigestedManifest blake3 (sealedName inspected.ordinal inspected.metadata.segmentId) predecessor
    inspected file (inspected.stats.sequenceRanges, inspected.stats.minReceiveWallTimeNs,
      inspected.stats.maxReceiveWallTimeNs)

/-- A manifest with the digest of its body. -/
def digestedManifest (blake3 : Bytes → Digest) (manifest : SealedSegmentManifest) :
    SealedSegmentManifest :=
  { manifest with manifestBlake3 := blake3 manifest.toBodyWire.toVec }

/-- A manifest is as valid with its digest as without. -/
theorem ValidManifest.digest (blake3 : Bytes → Digest) {manifest : SealedSegmentManifest}
    (h : ValidManifest manifest) : ValidManifest (digestedManifest blake3 manifest) :=
  ⟨h.ordinal, h.predecessor, h.file, h.sealed, h.prologue, h.first, h.next, h.inside, h.bounded,
    h.counted, h.times⟩

/-- A valid manifest with few enough ranges is encoded with its digest. -/
theorem ValidManifest.encode_digested (blake3 : Bytes → Digest) {manifest : SealedSegmentManifest}
    (h : ValidManifest manifest) (hmany : manifest.sequenceRanges.length ≤ maxTrackedStreamEpochs) :
    digestBody blake3 manifest.toBodyWire = .ok (digestedManifest blake3 manifest).manifestBlake3 ∧
      (digestedManifest blake3 manifest).encode blake3 =
        .ok (digestedManifest blake3 manifest).toWire.toVec := by
  have hbody := (toVec_length_le h hmany).trans (show 1100000 ≤ maxManifestLength by decide)
  constructor
  · rw [digestBody, reject_neg (Nat.not_lt.mpr hbody)]
    rfl
  · exact encode_manifest_eq_ok.mpr ⟨hbody, rfl, wire_length_le (h.digest blake3) hmany, rfl⟩

section Sealed

variable {blake3 : Bytes → Digest} {metadata : SegmentMetadata} {rest : Bytes}
  {summary : RecoverySummary} {ordinal : UInt64} {predecessor : Option SegmentPredecessor}
  {sealedWallTimeNs : Int64} {paths : SealPaths}

theorem Verified.summarises (h : Verified metadata rest summary) :
    Summarises (recordMetadata (verification metadata rest).visited)
        (.observeAll (verification metadata rest).visited) ∧
      (recordMetadata (verification metadata rest).visited).length = summary.recordCount ∧
      summary.recordCount < 2 ^ 64 := by
  have hlength := recordMetadata_length h.decomposed
  have hrecords := length_le_of_decomposition h.decomposed
  have hbounded := h.bounded
  have hlimit : maxRecoverableSegmentLength < 2 ^ 64 := by decide
  rw [h.counted]
  exact ⟨summarises_observeAll h.ordered (by omega), hlength, by omega⟩

variable (blake3) in
/-- What a scan summed up passes the checks of a manifest. -/
theorem validManifest_of_scan
    (h : Sealable metadata rest summary ordinal predecessor sealedWallTimeNs) :
    ValidManifest ((inspectedOf metadata rest summary ordinal sealedWallTimeNs).manifest blake3
      predecessor (encode metadata ++ rest)) := by
  have hverified := verified_of_result h.verifies
  obtain ⟨hsummarises, hcount, hsmall⟩ := hverified.summarises
  have hlength : (encode metadata ++ rest).length = metadata.headerLength + rest.length := by
    rw [List.length_append, encode_length]
  have hwhole := hverified.whole
  have hbounded := hverified.bounded
  constructor
  all_goals dsimp only [Inspected.manifest, inspectedOf, undigestedManifest]
  case ordinal => exact h.numbered
  case predecessor => exact h.admissible
  case sealed => exact h.created
  case prologue => rw [encode_length]
  case next => rw [hwhole, hlength]
  case inside =>
    rw [encode_length]
    omega
  case bounded => omega
  case counted =>
    rw [← hcount]
    exact hsummarises.countRanges hverified.ordered (by omega)
  case times =>
    by_cases hempty : recordMetadata (verification metadata rest).visited = []
    · obtain ⟨hmin, hmax⟩ := hsummarises.untimed hempty
      have hmany := hsummarises.length_sequenceRanges
      rw [hempty] at hmany hcount
      exact timesAreValid_of_empty hcount.symm (List.length_eq_zero_iff.mp hmany) hmin hmax
    · obtain ⟨minimum, maximum, hmin, hmax, hle⟩ := hsummarises.timed hempty
      have hsome : summary.recordCount ≠ 0 := by
        rw [← hcount]
        exact mt List.length_eq_zero_iff.mp hempty
      exact timesAreValid_of_records hsome hmin hmax hle

theorem describeSegment_eq_ok {inspected : Inspected} {file segmentFile : Bytes}
    {parts : List SequenceRange × Option Int64 × Option Int64}
    (hoffset : inspected.summary.lastValidOffset = file.length)
    (hparts : inspected.stats.intoParts = .ok parts)
    (hname : utf8FileName paths.sealed = .ok segmentFile)
    (hvalid : ValidManifest
      (undigestedManifest blake3 segmentFile predecessor inspected file parts))
    (hmany : parts.1.length ≤ maxTrackedStreamEpochs) :
    let manifest := digestedManifest blake3
      (undigestedManifest blake3 segmentFile predecessor inspected file parts)
    manifest.encode blake3 = .ok manifest.toWire.toVec ∧
      describeSegment blake3 paths predecessor inspected file =
        .ok (manifest, manifest.toWire.toVec) := by
  intro manifest
  obtain ⟨hdigest, hencode⟩ := hvalid.encode_digested blake3 hmany
  refine ⟨hencode, ?_⟩
  rw [describeSegment, reject_neg (not_not.mpr hoffset), ok_bind,
    mapError_eq_ok.mpr hparts, ok_bind, hname, ok_bind]
  dsimp only
  rw [mapError_eq_ok.mpr (validateManifest_eq_ok.mpr hvalid), ok_bind, mapError_eq_ok.mpr hdigest,
    ok_bind]
  change (manifest.encode blake3).mapError SealingError.manifest >>= _ = _
  rw [mapError_eq_ok.mpr hencode]
  rfl

variable (blake3) in
/-- The manifest of a verified segment is built and encoded. -/
theorem describeSegment_verified
    (h : Sealable metadata rest summary ordinal predecessor sealedWallTimeNs)
    (hsealed : paths.sealed = sealedName ordinal metadata.segmentId) :
    let inspected := inspectedOf metadata rest summary ordinal sealedWallTimeNs
    let manifest := digestedManifest blake3
      (inspected.manifest blake3 predecessor (encode metadata ++ rest))
    manifest.encode blake3 = .ok manifest.toWire.toVec ∧
      describeSegment blake3 paths predecessor inspected (encode metadata ++ rest) =
        .ok (manifest, manifest.toWire.toVec) := by
  have hverified := verified_of_result h.verifies
  have hsummarises := hverified.summarises.1
  have hmany := hsummarises.length_sequenceRanges.trans_le hverified.ordered.bounded
  have hoffset : summary.lastValidOffset = (encode metadata ++ rest).length := by
    rw [hverified.whole, List.length_append, encode_length]
  have hname : utf8FileName paths.sealed = .ok (sealedName ordinal metadata.segmentId) := by
    rw [hsealed]
    exact utf8FileName_segmentName _ _ (by decide +kernel)
  exact describeSegment_eq_ok hoffset hsummarises.intoParts hname
    (validManifest_of_scan blake3 h) hmany

theorem inspectSegment_loaded (sequences : Option Sequences) (poisoned : Bool)
    {pendingManifest : Option SealedSegmentManifest}
    (h : Sealable metadata rest summary ordinal predecessor
      (sealingTime pendingManifest sealedWallTimeNs))
    (hactive : paths.active = activeName ordinal metadata.segmentId) :
    inspectSegment paths predecessor sealedWallTimeNs pendingManifest
        (.loaded metadata sequences poisoned) (encode metadata ++ rest) =
      .ok (inspectedOf metadata rest summary ordinal
        (sealingTime pendingManifest sealedWallTimeNs)) := by
  have hname : parseActiveIdentity paths.active = some (ordinal, metadata.segmentId) :=
    parseActiveIdentity_eq_some.mpr ⟨h.numbered, metadata.identified, hactive⟩
  rw [inspectSegment, hname, required_some, ok_bind, Segment.loaded]
  dsimp only
  rw [required_some, ok_bind, reject_neg (not_not.mpr rfl), ok_bind,
    reject_neg (Int64.not_lt.mpr h.created), ok_bind, mapError_eq_ok.mpr h.admissible, ok_bind]
  change (verification metadata rest).result.mapError SealingError.recovery >>= _ = _
  rw [mapError_eq_ok.mpr h.verifies]
  rfl

variable (blake3) in
/-- The visit of a verified file against the manifest that was built for it. -/
theorem visit_sealed (h : Sealable metadata rest summary ordinal predecessor sealedWallTimeNs) :
    visitSealedFileAgainstManifest blake3 (encode metadata ++ rest)
        (digestedManifest blake3
          ((inspectedOf metadata rest summary ordinal sealedWallTimeNs).manifest
          blake3 predecessor (encode metadata ++ rest))) =
      ⟨(verification metadata rest).visited, encode metadata ++ rest, .ok ()⟩ := by
  have hvalid := (validManifest_of_scan blake3 h).digest blake3
  generalize hmanifest : digestedManifest blake3 _ = manifest at hvalid ⊢
  have hmetadata : manifest.metadata = metadata := by
    rw [← hmanifest]
    rfl
  have hlength : manifest.segmentLength = (encode metadata ++ rest).length := by
    rw [← hmanifest]
    rfl
  have hhash : blake3 (encode metadata ++ rest) = manifest.segmentBlake3 := by
    rw [← hmanifest]
    rfl
  have hprologue : manifest.prologueLength = metadata.headerLength := by
    rw [hvalid.prologue, hmetadata]
  have hbounded := hvalid.bounded
  rw [hmetadata, hlength] at hbounded
  have hopen : openSealedFile (encode metadata ++ rest) manifest =
      .ok (metadata, metadata.headerLength, encode metadata) := by
    rw [openSealedFile, hprologue, maximumSegmentLength_headerLength,
      mapError_eq_ok.mpr rfl, ok_bind,
      reject_neg (Nat.not_lt.mpr hbounded), ok_bind, reject_neg (not_not.mpr hlength.symm), ok_bind,
      readPrologue_encode, ok_bind]
    dsimp only
    rw [reject_neg (by rw [hmetadata]; simp)]
    rfl
  have hverified := verified_of_result h.verifies
  have hcompare : compareWithManifest blake3 manifest (verification metadata rest)
      (encode metadata ++ rest) = .ok () := by
    rw [compareWithManifest, mapError_eq_ok.mpr h.verifies, ok_bind, reject_neg (not_not.mpr hhash),
      ok_bind, mapError_eq_ok.mpr hverified.summarises.1.intoParts, ok_bind]
    refine reject_neg ?_
    rw [← hmanifest]
    rintro (h | h | h | h | h)
    all_goals exact h rfl
  rw [visitSealedFileAgainstManifest, hopen]
  dsimp only
  rw [hverified.encoded, hcompare]

end Sealed

/-! ## Whatever is sealed is accepted -/

/-- Whatever is sealed is accepted. Let an active segment file open and verify without repair, under
the name of its segment, with a predecessor that was constructed and is admissible, and not before
its creation. Then its manifest is built and passes its checks; if the JSON reader reads back what
was written, the encoded manifest decodes to it; and the visit of the same bytes succeeds, visits
the records of the file in order, and hashes exactly the file. -/
theorem sealed_segment_verifies (blake3 : Bytes → Digest) (fromSlice : ManifestReader) {name : Name}
    {paths : SealPaths} {file : Bytes} {segment : Segment} {metadata : SegmentMetadata}
    {ordinal : UInt64} {predecessor : Option SegmentPredecessor} {sealedWallTimeNs : Int64}
    {pendingManifest : Option SealedSegmentManifest} {summary : RecoverySummary}
    (hpaths : SealPaths.new name = .ok paths)
    (hopen : openV2File file = .ok { segment with v2Sequences := none, poisoned := false })
    (hmetadata : segment.metadata = some metadata)
    (hname : parseActiveIdentity name = some (ordinal, metadata.segmentId))
    (hverify : (segment.verifyWithoutRepair file).2.result = .ok summary)
    (hpredecessor : validatePredecessor ordinal metadata.segmentId predecessor = .ok ())
    (hconstructed : ∀ p ∈ predecessor, SegmentPredecessor.new p.segmentId p.segmentBlake3 = .ok p)
    (htime : metadata.createdWallTimeNs ≤ sealingTime pendingManifest sealedWallTimeNs)
    (hreads : ∀ manifest encoded, buildManifest blake3 paths predecessor sealedWallTimeNs
      pendingManifest segment file = .ok (manifest, encoded) →
        fromSlice encoded = .ok manifest.toWire) :
    ∃ manifest encoded,
      buildManifest blake3 paths predecessor sealedWallTimeNs pendingManifest segment file =
        .ok (manifest, encoded) ∧
      validateManifest manifest = .ok () ∧ manifest.encode blake3 = .ok encoded ∧
      decodeManifest blake3 fromSlice encoded = .ok manifest ∧
      let visit := visitSealedFileAgainstManifest blake3 file manifest
      visit.result = .ok () ∧ visit.visited = (segment.verifyWithoutRepair file).2.visited ∧
        Decomposition (some .v2) metadata.headerLength (file.drop metadata.headerLength)
          visit.visited ∧
        visit.hashed = file := by
  obtain ⟨loaded, rest, rfl, hsegment⟩ := openV2File_eq_ok.mp hopen
  obtain ⟨_, _, sequences, poisoned⟩ := segment
  simp only [Segment.loaded, mk.injEq, and_true] at hsegment
  obtain ⟨rfl, rfl⟩ := hsegment
  obtain rfl : metadata = loaded := (Option.some.inj hmetadata).symm
  obtain ⟨hordinal, hid, rfl⟩ := parseActiveIdentity_eq_some.mp hname
  rw [sealPaths_new hordinal hid] at hpaths
  have hactive : paths.active = activeName ordinal metadata.segmentId := by
    rw [← Except.ok.inj hpaths]
  have hsealed : paths.sealed = sealedName ordinal metadata.segmentId := by
    rw [← Except.ok.inj hpaths]
  have h : Sealable metadata rest summary ordinal predecessor
      (sealingTime pendingManifest sealedWallTimeNs) := ⟨hverify, hordinal, hpredecessor, htime⟩
  have hvalid := (validManifest_of_scan blake3 h).digest blake3
  have hvisit := visit_sealed blake3 h
  obtain ⟨hencode, hdescribe⟩ := describeSegment_verified blake3 h hsealed
  generalize hmanifest : digestedManifest blake3 _ = manifest at hvalid hvisit hencode hdescribe
  have hbuild : buildManifest blake3 paths predecessor sealedWallTimeNs pendingManifest
      (.loaded metadata sequences poisoned) (encode metadata ++ rest) =
        .ok (manifest, manifest.toWire.toVec) :=
    bind_eq_ok.mpr ⟨_, inspectSegment_loaded sequences poisoned h hactive, hdescribe⟩
  have hsame : manifest.predecessor = predecessor := by
    rw [← hmanifest]
    rfl
  refine ⟨manifest, _, hbuild, validateManifest_eq_ok.mpr hvalid, hencode,
    decodeManifest_encode hencode hvalid (hsame ▸ hconstructed) (hreads _ _ hbuild), ?_⟩
  rw [hvisit]
  refine ⟨rfl, rfl, ?_, rfl⟩
  rw [List.drop_left' (encode_length metadata)]
  exact (verified_of_result hverify).decomposed

theorem verify_segmentFile {metadata : SegmentMetadata} {records : List WalRecord}
    (hordered : Ordered (some metadata) (records.map (·.metadata)))
    (hsize : (framesOf records).length ≤ maxRecoverableSegmentLength) :
    verification metadata (framesOf records) =
      ⟨visitedFrom metadata.headerLength records, framesOf records, segmentFile metadata records,
        .ok ⟨some .v2, records.length, (segmentFile metadata records).length, 0⟩⟩ := by
  have hlength := segmentFile_length metadata records
  have hheader := (headerLength_bounds metadata).2
  have hlimit : maxRecoverableSegmentLength + maxHeaderLength < 2 ^ 64 := by decide
  have hwhole := scan_whole (encode metadata) false hordered
    (by rw [← segmentFile, hlength]; omega)
  rw [encode_length] at hwhole
  rw [verification, ← segmentFile, verifyWithFrom,
    scanWithFrom_eq_scanLoop (some metadata) false (by omega) (by omega)]
  exact hwhole

end Sealable

section Sample

open Castagnoli LowerHex PlainJson

local instance sampleLibraries : SealLibraries where

/-- The first segment of a log with one record in it is sealed and accepted. -/
theorem sample_segment_sealed :
    let blake3 : Bytes → Digest := fun bytes => Vector.replicate 32 (UInt8.ofNat bytes.length)
    let segment := Segment.loaded sampleMetadata none false
    let file := segmentFile sampleMetadata [sampleRecord 1 1]
    ∃ paths manifest encoded, SealPaths.new (activeName 1 sampleMetadata.segmentId) = .ok paths ∧
      buildManifest blake3 paths none 5 none segment file = .ok (manifest, encoded) ∧
      (visitSealedFileAgainstManifest blake3 file manifest).result = .ok () := by
  intro blake3 segment file
  have hordinal : (1 : UInt64) ≠ 0 := by decide
  have hordered : Ordered (some sampleMetadata) ([sampleRecord 1 1].map (·.metadata)) := by
    decide +kernel
  have hverify : (segment.verifyWithoutRepair file).2.result =
      .ok ⟨some .v2, 1, file.length, 0⟩ :=
    congrArg ScanOutcome.result (verify_segmentFile hordered (by decide +kernel))
  have hpredecessor : validatePredecessor 1 sampleMetadata.segmentId none = .ok () := by decide
  have hconstructed : ∀ p ∈ (none : Option SegmentPredecessor),
      SegmentPredecessor.new p.segmentId p.segmentBlake3 = .ok p := by simp
  have htime : sampleMetadata.createdWallTimeNs ≤ sealingTime none 5 := by decide
  obtain ⟨paths, hpaths⟩ : ∃ paths, SealPaths.new (activeName 1 sampleMetadata.segmentId) =
      .ok paths :=
    ⟨_, sealPaths_new hordinal sampleMetadata.identified⟩
  obtain ⟨manifest, encoded, hbuild, -, -, -, hvisit, -⟩ := sealed_segment_verifies blake3
    (fun _ => match buildManifest blake3 paths none 5 none segment file with
      | .ok (manifest, _) => .ok manifest.toWire
      | .error _ => .error "data")
    hpaths (openV2File_encode sampleMetadata _) rfl
    (parseActiveIdentity_eq_some.mpr ⟨hordinal, sampleMetadata.identified, rfl⟩)
    hverify hpredecessor hconstructed htime
    (fun manifest encoded hbuild => by rw [hbuild])
  exact ⟨paths, manifest, encoded, hpaths, hbuild, hvisit⟩

end Sample

end CryptoIntelligence.Wal
