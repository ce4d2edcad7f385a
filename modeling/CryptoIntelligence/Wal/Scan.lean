/-
  The scan of a segment file (`raw-wal/src/recovery.rs`): frames are read one after another from the
  record start; an incomplete frame at the end may be cut off, anything else that is not a frame is
  an error.

  A file is its bytes. The source reads the file and hands each record to a visitor; here the scan
  returns the visited records, the encoded bytes it hashed, the file it leaves and its result.

  Every call on the file succeeds here: errors of reading, of `set_len`, of seeking and of
  `sync_all`, and failed allocations, are left out. `FileCalls` runs the same scan with calls that
  may fail.
-/
import CryptoIntelligence.Lib.Loop
import CryptoIntelligence.Wal.Frame
import CryptoIntelligence.Wal.Prologue

namespace CryptoIntelligence.Wal

open Lib Wal.Frame
open Std (ExtTreeMap TransCmp LawfulEqCmp)

/-! ## Errors, records, limits -/

inductive CorruptionKind where
  | invalidMagic
  | invalidHeaderLength
  | unsupportedFlags
  | headerChecksumMismatch
  | frameChecksumMismatch
  | payloadTooLarge
  | incompleteLegacyFrame
  | invalidPartialTail
  | mixedFormat
  deriving DecidableEq, Repr

inductive RecoveryError where
  | prologue (error : PrologueError)
  | prologueRequired
  | corruption (offset : Nat) (kind : CorruptionKind)
  | unsupportedFormat (offset : Nat) (version : UInt16)
  | sequenceRegression (offset : Nat) (streamId : UInt32)
    (connectionEpoch previous current : UInt64)
  | segmentTooLarge (actual maximum : Nat)
  | io
  | capacity (requested : Nat)
  | streamEpochLimit (maximum : Nat)
  | undeclaredStream (offset : Nat) (streamId : UInt32)
  deriving DecidableEq, Repr

structure RecoveredRecord where
  metadata : Option RecordMetadata
  payload : Bytes
  offset : Nat
  nextOffset : Nat
  deriving DecidableEq

structure RecoverySummary where
  format : Option WalFormat
  recordCount : Nat
  lastValidOffset : Nat
  truncatedBytes : Nat
  deriving DecidableEq

def targetSegmentLength : Nat := 256 * 1024 * 1024

def maxRecoverableSegmentLength : Nat :=
  targetSegmentLength + headerLength + maxPayloadLength + checksumLength

def maxTrackedStreamEpochs : Nat := 4096

def searchBufferLength : Nat := 64 * 1024

def maxMagicCandidates : Nat := 1024

/-! ## The last sequence of every stream and epoch -/

abbrev StreamEpoch := UInt32 × UInt64

def RecordMetadata.streamEpoch (metadata : RecordMetadata) : StreamEpoch :=
  (metadata.streamId, metadata.connectionEpoch)

def StreamEpoch.compare (a b : StreamEpoch) : Ordering :=
  compareLex (compareOn Prod.fst) (compareOn Prod.snd) a b

instance : TransCmp StreamEpoch.compare :=
  inferInstanceAs (TransCmp (compareLex (compareOn Prod.fst) (compareOn Prod.snd)))

instance : LawfulEqCmp StreamEpoch.compare where
  compare_self {a} := Std.ReflCmp.compare_self
  eq_of_compare {a b} h := by
    rw [StreamEpoch.compare, compareLex_eq_eq] at h
    exact Prod.ext (Std.LawfulEqCmp.eq_of_compare h.1) (Std.LawfulEqCmp.eq_of_compare h.2)

abbrev Sequences := ExtTreeMap StreamEpoch UInt64 StreamEpoch.compare

def validateSequence (lastSequences : Sequences) (metadata : RecordMetadata) (offset : Nat) :
    Except RecoveryError Sequences := do
  let key := metadata.streamEpoch
  reject (key ∉ lastSequences ∧ lastSequences.size ≥ maxTrackedStreamEpochs)
    (.streamEpochLimit maxTrackedStreamEpochs)
  match lastSequences[key]? with
  | some previous =>
    reject (metadata.recordSequence ≤ previous)
      (.sequenceRegression offset metadata.streamId metadata.connectionEpoch previous
        metadata.recordSequence)
  | none => pure ()
  return lastSequences.insert key metadata.recordSequence

/-- What a decoded record has to satisfy: a declared stream and an increasing sequence. A legacy
frame has no metadata and passes. -/
def acceptRecord (segment : Option SegmentMetadata) (lastSequences : Sequences)
    (metadata : Option RecordMetadata) (offset : Nat) : Except RecoveryError Sequences :=
  match metadata with
  | none => .ok lastSequences
  | some metadata => do
    reject (segment.any fun declared => !declared.containsStream metadata.streamId)
      (.undeclaredStream offset metadata.streamId)
    validateSequence lastSequences metadata offset

/-! ## Incomplete tails -/

def mapFrameError (offset : Nat) : FrameError → RecoveryError
  | .unsupportedSchema version => .unsupportedFormat offset version
  | .invalidMagic => .corruption offset .invalidMagic
  | .invalidHeaderLength _ => .corruption offset .invalidHeaderLength
  | .unsupportedFlags _ => .corruption offset .unsupportedFlags
  | .headerChecksumMismatch => .corruption offset .headerChecksumMismatch
  | .frameChecksumMismatch => .corruption offset .frameChecksumMismatch
  | .payloadTooLarge => .corruption offset .payloadTooLarge
  | .incomplete => .corruption offset .invalidPartialTail

/-- Magic and version of the format. -/
def fixedHeader (format : WalFormat) : Bytes := magic ++ u16be format.version

def validCommonPrefix (bytes : Bytes) : Option WalFormat → Bool
  | some format => bytes == (fixedHeader format).take bytes.length
  | none => bytes == (fixedHeader .legacyV1).take bytes.length
      || bytes == (fixedHeader .v2).take bytes.length

/-- The length bytes that are there, filled up with zeros, must not exceed the payload limit. -/
def isValidPartialLegacyHeaderPrefix (bytes : Bytes) : Bool :=
  let fixed := fixedHeader .legacyV1
  if bytes.isEmpty || decide (legacyHeaderLength ≤ bytes.length) then false
  else if bytes.take (min bytes.length fixed.length) ≠ fixed.take
    (min bytes.length fixed.length) then
    false
  else if bytes.length ≤ fixed.length then true
  else
    let lengthPrefix := bytes.drop fixed.length
    let minimumDeclaredLength := lengthPrefix ++ List.replicate (4 - lengthPrefix.length) 0
    decide ((readU32 minimumDeclaredLength 0).toNat ≤ maxPayloadLength)

def isRepairablePartialHeader (bytes : Bytes) : WalFormat → Bool
  | .legacyV1 => isValidPartialLegacyHeaderPrefix bytes
  | .v2 => isValidPartialHeaderPrefix bytes

/-! ## The search for a later frame -/

variable [Crc32c]

def validFrameAt (file : Bytes) (offset stop : Nat) : Bool :=
  if stop - offset < prefixLength then false
  else
    let start := slice file offset prefixLength
    if start.take magic.length ≠ magic then false
    else
      match WalFormat.ofVersion? (readU16 start magic.length) with
      | none => false
      | some format =>
        if stop - offset < format.headerLength then false
        else
          match declaredPayloadLength format (slice file offset format.headerLength) with
          | .error _ => false
          | .ok payloadLength =>
            let encodedLength := format.headerLength + payloadLength + checksumLength
            if stop - offset < encodedLength then false
            else (decode (slice file offset encodedLength)).isOk

/-- The windows of one buffer, by their position in it: `none` when the search ends here, else the
number of candidates so far. -/
def searchWindows (file : Bytes) (start stop baseOffset : Nat) (buffer : Bytes) :
    List Nat → Nat → Option Nat
  | [], candidateCount => some candidateCount
  | relative :: rest, candidateCount =>
    if slice buffer relative magic.length ≠ magic then
      searchWindows file start stop baseOffset buffer rest candidateCount
    else if baseOffset + relative < start then
      searchWindows file start stop baseOffset buffer rest candidateCount
    else if candidateCount + 1 > maxMagicCandidates then none
    else if validFrameAt file (baseOffset + relative) stop then none
    else searchWindows file start stop baseOffset buffer rest (candidateCount + 1)

structure SearchState where
  scanOffset : Nat
  carry : Bytes
  candidateCount : Nat

/-- One chunk: the bytes carried over and the next buffer of the file. -/
def searchStep (file : Bytes) (start stop : Nat) (s : SearchState) : SearchState ⊕ Bool :=
  if s.scanOffset < stop then
    let readLength := min (stop - s.scanOffset) searchBufferLength
    let buffer := s.carry ++ slice file s.scanOffset readLength
    let windows := List.range (buffer.length + 1 - magic.length)
    match searchWindows file start stop (s.scanOffset - s.carry.length) buffer windows
        s.candidateCount with
    | none => .inr true
    | some candidateCount =>
      let retained := min buffer.length (magic.length - 1)
      .inl ⟨s.scanOffset + readLength, buffer.drop (buffer.length - retained), candidateCount⟩
  else .inr false

theorem search_ends (file : Bytes) (start stop : Nat) :
    ∃ found, loop (searchStep file start stop) (stop - start + 1) ⟨start, [], 0⟩ = some found := by
  refine loop_ends (fun _ => True) (fun s => stop - s.scanOffset) ?_ _ _ trivial
    (Nat.lt_succ_self _)
  intro s next _ hstep
  refine ⟨trivial, ?_⟩
  rw [searchStep] at hstep
  split_ifs at hstep with hmore
  dsimp only at hstep
  split at hstep
  · nomatch hstep
  · obtain rfl := Sum.inl.inj hstep
    simp only [searchBufferLength]
    omega

def containsLaterValidFrame (file : Bytes) (start stop : Nat) : Bool :=
  (loop (searchStep file start stop) (stop - start + 1) ⟨start, [], 0⟩).get
    (Option.isSome_iff_exists.mpr (search_ends file start stop))

/-! ## The scan -/

structure ScanState where
  offset : Nat
  format : Option WalFormat
  lastSequences : Sequences
  recordCount : Nat
  visited : List RecoveredRecord
  encoded : Bytes

structure ScanOutcome where
  visited : List RecoveredRecord
  encoded : Bytes
  file : Bytes
  result : Except RecoveryError RecoverySummary

/-- What stands at the offset of a scan: a frame that leads to the next state, or the beginning of
one that the file does not hold to its end. -/
inductive Scanned where
  | frame (next : ScanState)
  | incompleteTail (format : Option WalFormat)

def ScanState.visit (s : ScanState) (decoded : DecodedFrame) (nextOffset : Nat)
    (lastSequences : Sequences) (frameBytes : Bytes) : ScanState where
  offset := nextOffset
  format := some decoded.format
  lastSequences := lastSequences
  recordCount := s.recordCount + 1
  visited := s.visited ++ [⟨decoded.metadata, decoded.payload, s.offset, nextOffset⟩]
  encoded := s.encoded ++ frameBytes

def readNext (file : Bytes) (segment : Option SegmentMetadata) (s : ScanState) :
    Except RecoveryError Scanned := do
  let remaining := file.length - s.offset
  if remaining < prefixLength then
    reject (validCommonPrefix (slice file s.offset remaining) s.format = false)
      (.corruption s.offset .invalidPartialTail)
    return .incompleteTail s.format
  else
    let start := slice file s.offset prefixLength
    reject (start.take magic.length ≠ magic) (.corruption s.offset .invalidMagic)
    let version := readU16 start magic.length
    let format ← required (WalFormat.ofVersion? version) (.unsupportedFormat s.offset version)
    reject (s.format.any (· ≠ format)) (.corruption s.offset .mixedFormat)
    if remaining < format.headerLength then
      reject (isRepairablePartialHeader (slice file s.offset remaining) format = false)
        (.corruption s.offset .invalidPartialTail)
      return .incompleteTail (some format)
    else
      let header := slice file s.offset format.headerLength
      let payloadLength ←
        (declaredPayloadLength format header).mapError (mapFrameError s.offset)
      let encodedLength := format.headerLength + payloadLength + checksumLength
      let nextOffset := s.offset + encodedLength
      reject (2 ^ 64 ≤ nextOffset) (.corruption s.offset .payloadTooLarge)
      if nextOffset > file.length then
        reject (¬ (format = .v2
            ∧ containsLaterValidFrame file (s.offset + 1) file.length = false))
          (.corruption s.offset .incompleteLegacyFrame)
        return .incompleteTail (some format)
      else
        let frameBytes := slice file s.offset encodedLength
        let decoded ← (decode frameBytes).mapError (mapFrameError s.offset)
        reject (decoded.format ≠ format) (.corruption s.offset .mixedFormat)
        let lastSequences ← acceptRecord segment s.lastSequences decoded.metadata s.offset
        reject (2 ^ 64 ≤ s.recordCount + 1) (.capacity (2 ^ 64 - 1))
        return .frame (s.visit decoded nextOffset lastSequences frameBytes)

/-- An incomplete tail is cut off where repair is allowed and is an error elsewhere. -/
def handleIncompleteTail (file : Bytes) (allowTailRepair : Bool) (s : ScanState)
    (format : Option WalFormat) : ScanOutcome :=
  if allowTailRepair then
    ⟨s.visited, s.encoded, file.take s.offset,
      .ok ⟨format, s.recordCount, s.offset, file.length - s.offset⟩⟩
  else ⟨s.visited, s.encoded, file, .error (.corruption s.offset .invalidPartialTail)⟩

def scanStep (file : Bytes) (segment : Option SegmentMetadata) (allowTailRepair : Bool)
    (s : ScanState) : ScanState ⊕ ScanOutcome :=
  if s.offset < file.length then
    match readNext file segment s with
    | .error error => .inr ⟨s.visited, s.encoded, file, .error error⟩
    | .ok (.incompleteTail format) => .inr (handleIncompleteTail file allowTailRepair s format)
    | .ok (.frame next) => .inl next
  else .inr ⟨s.visited, s.encoded, file, .ok ⟨s.format, s.recordCount, s.offset, 0⟩⟩

/-! ## One step -/

variable {file : Bytes} {segment : Option SegmentMetadata} {s next : ScanState}
    {allowTailRepair : Bool}

/-- The scan goes on exactly when a whole frame stands at its offset, of the format so far, with a
declared stream and an increasing sequence. -/
theorem readNext_eq_frame :
    readNext file segment s = .ok (.frame next) ↔
      ∃ decoded lastSequences, decode (file.drop s.offset) = .ok decoded ∧
        (∀ format ∈ s.format, format = decoded.format) ∧
        acceptRecord segment s.lastSequences decoded.metadata s.offset = .ok lastSequences ∧
        s.offset + decoded.encodedLength < 2 ^ 64 ∧ s.recordCount + 1 < 2 ^ 64 ∧
        next = s.visit decoded (s.offset + decoded.encodedLength) lastSequences
          (slice file s.offset decoded.encodedLength) := by
  generalize hrest : file.drop s.offset = rest
  have hslice (n : Nat) : slice file s.offset n = rest.take n := by rw [slice, hrest]
  have hremaining : file.length - s.offset = rest.length := by rw [← hrest, List.length_drop]
  unfold readNext
  rw [hremaining]
  dsimp only
  simp only [hslice]
  constructor
  · intro h
    split at h
    · simp only [bind_eq_ok, pure_eq_ok, reduceCtorEq, and_false, exists_false] at h
    · rename_i hlong
      simp only [bind_eq_ok, reject_eq_ok, required_eq_ok, WalFormat.ofVersion?_eq_some] at h
      obtain ⟨_, hmagic, format, hversion, _, hformat, h⟩ := h
      split at h
      · simp only [bind_eq_ok, pure_eq_ok, reduceCtorEq, and_false, exists_false] at h
      · rename_i hheader
        simp only [bind_eq_ok, reject_eq_ok, mapError_eq_ok] at h
        obtain ⟨length, hdeclared, _, hoverflow, h⟩ := h
        split at h
        · simp only [bind_eq_ok, pure_eq_ok, reduceCtorEq, and_false, exists_false] at h
        · simp only [bind_eq_ok, reject_eq_ok, mapError_eq_ok, pure_eq_ok, ne_eq, not_not,
            Scanned.frame.injEq] at h
          obtain ⟨decoded, hdecode, _, -, lastSequences, haccept, _, hcount, rfl⟩ := h
          rw [declaredPayloadLength_take le_rfl] at hdeclared
          rw [readU16_take (by decide)] at hversion
          have hdecoded : decode rest = .ok decoded :=
            (decode_take ((decode_length hdecode).1.trans (List.length_take_le _ _))).mp
              hdecode
          obtain ⟨rfl, hlength⟩ := decode_of_declared hdeclared hversion hdecoded
          refine ⟨decoded, lastSequences, hdecoded, ?_, haccept, ?_, Nat.not_le.mp hcount, ?_⟩
          · intro format hmem
            simpa [Option.mem_def.mp hmem] using hformat
          · rw [hlength]
            omega
          · rw [hlength]
  · rintro ⟨decoded, lastSequences, hdecoded, hformat, haccept, hoverflow, hcount, rfl⟩
    obtain ⟨hlong, hmagic, -⟩ := decode_eq_ok.mp hdecoded
    obtain ⟨hversion, length, hdeclared, hlength⟩ := declared_of_decode hdecoded
    have hfits := (decode_length hdecoded).1
    have hminimum := decode_minimum hdecoded
    have hend : ¬ s.offset + decoded.encodedLength > file.length := by
      omega
    have hframe : decode (rest.take decoded.encodedLength) = .ok decoded :=
      (decode_take le_rfl).mpr hdecoded
    have hmixed : ¬ (s.format.any (· ≠ decoded.format)) = true := by
      cases hs : s.format with
      | none => simp
      | some format => simp [hformat format (by rw [hs]; rfl)]
    rw [if_neg (Nat.not_lt.mpr hlong), List.take_take, Nat.min_eq_left (by decide),
      reject_neg (not_not.mpr hmagic), ok_bind, readU16_take (by decide),
      WalFormat.ofVersion?_eq_some.mpr hversion, required_some, ok_bind, reject_neg hmixed, ok_bind,
      if_neg (by omega), declaredPayloadLength_take le_rfl, mapError_eq_ok.mpr hdeclared,
      ok_bind, ← hlength, reject_neg (Nat.not_le.mpr hoverflow), ok_bind, if_neg hend,
      mapError_eq_ok.mpr hframe, ok_bind, reject_neg (not_not.mpr rfl), ok_bind, haccept, ok_bind,
      reject_neg (Nat.not_le.mpr hcount), ok_bind]
    rfl

theorem readNext_advances (h : readNext file segment s = .ok (.frame next)) :
    s.offset < next.offset ∧ next.offset ≤ file.length := by
  obtain ⟨decoded, _, hdecoded, -, -, -, -, rfl⟩ := readNext_eq_frame.mp h
  have hlength := (decode_length hdecoded).1
  have hminimum := decode_minimum hdecoded
  rw [List.length_drop] at hlength
  simp only [ScanState.visit]
  omega

theorem scanStep_eq_next :
    scanStep file segment allowTailRepair s = .inl next ↔
      s.offset < file.length ∧ readNext file segment s = .ok (.frame next) := by
  unfold scanStep
  split_ifs with hmore
  · split <;> simp_all
  · simp [hmore]

/-! ## Whole scans -/

def ScanState.initial (recordStartOffset : Nat) (expectedFormat : Option WalFormat) : ScanState :=
  ⟨recordStartOffset, expectedFormat, ∅, 0, [], []⟩

theorem scan_ends (file : Bytes) (segment : Option SegmentMetadata) (allowTailRepair : Bool)
    (s : ScanState) :
    ∃ outcome, loop (scanStep file segment allowTailRepair) (file.length + 1) s = some outcome := by
  refine loop_ends (fun _ => True) (fun s => file.length - s.offset) ?_ _ _ trivial (by omega)
  intro s next _ hstep
  obtain ⟨hmore, hread⟩ := scanStep_eq_next.mp hstep
  obtain ⟨hlt, hle⟩ := readNext_advances hread
  exact ⟨trivial, by omega⟩

def scanLoop (file : Bytes) (segment : Option SegmentMetadata) (allowTailRepair : Bool)
    (s : ScanState) : ScanOutcome :=
  (loop (scanStep file segment allowTailRepair) (file.length + 1) s).get
    (Option.isSome_iff_exists.mpr (scan_ends file segment allowTailRepair s))

def scanWithFrom (file : Bytes) (recordStartOffset : UInt64) (expectedFormat : Option WalFormat)
    (segment : Option SegmentMetadata) (allowTailRepair : Bool) : ScanOutcome :=
  let start := recordStartOffset.toNat
  let maximumLength := maxRecoverableSegmentLength + start
  if 2 ^ 64 ≤ maximumLength then ⟨[], [], file, .error (.capacity (2 ^ 64 - 1))⟩
  else if file.length > maximumLength then
    ⟨[], [], file, .error (.segmentTooLarge file.length maximumLength)⟩
  else if start > file.length then
    ⟨[], [], file, .error (.corruption start .invalidPartialTail)⟩
  else scanLoop file segment allowTailRepair (.initial start expectedFormat)

def recoverWithFrom (file : Bytes) (recordStartOffset : UInt64) (expectedFormat : Option WalFormat)
    (segment : Option SegmentMetadata) : ScanOutcome :=
  scanWithFrom file recordStartOffset expectedFormat segment true

def verifyWithFrom (file : Bytes) (recordStartOffset : UInt64) (expectedFormat : Option WalFormat)
    (segment : Option SegmentMetadata) : ScanOutcome :=
  scanWithFrom file recordStartOffset expectedFormat segment false

def recoverWith (file : Bytes) : ScanOutcome := recoverWithFrom file 0 none none

/-- The invariant rule of the scan. -/
theorem scanLoop_spec (inv : ScanState → Prop) (post : ScanOutcome → Prop)
    (hnext : ∀ s next, inv s → scanStep file segment allowTailRepair s = .inl next → inv next)
    (hdone : ∀ s outcome, inv s → scanStep file segment allowTailRepair s = .inr outcome →
      post outcome) (h : inv s) : post (scanLoop file segment allowTailRepair s) :=
  loop_spec inv post hnext hdone _ s _ h (Option.some_get _).symm

theorem scanLoop_eq_of_reaches {last : ScanState} {outcome : ScanOutcome}
    (h : Reaches (scanStep file segment allowTailRepair) s last)
    (hlast : scanStep file segment allowTailRepair last = .inr outcome) :
    scanLoop file segment allowTailRepair s = outcome :=
  loop_eq_of_reaches h hlast (Option.some_get _).symm

end CryptoIntelligence.Wal
