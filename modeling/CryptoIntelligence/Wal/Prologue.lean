/-
  The identity prologue of a segment file (`raw-wal/src/prologue.rs`): which segment it is, when it
  was created, by which build, and the streams its records may belong to, under one CRC32C.

  A string is its UTF-8 bytes. The checks of the constructors are carried by the types: an
  `Identifier` is short and made of the allowed bytes, a `SegmentMetadata` has its streams in
  strictly ascending order and fits a header.

  What is proved: an encoded prologue decodes to its metadata whatever follows it (`decode_encode`),
  and its declared length is where the records start (`declaredHeaderLength_encode`).
-/
import CryptoIntelligence.Lib.Crc
import CryptoIntelligence.Lib.Text

namespace CryptoIntelligence.Wal

open Lib Lib.Crc32c
open List hiding Vector

namespace Prologue

/-! ## Layout -/

/-- `CMTISEG2`. -/
def magic : Bytes := [0x43, 0x4d, 0x54, 0x49, 0x53, 0x45, 0x47, 0x32]

def formatVersion : UInt16 := 2

def supportedFlags : UInt32 := 0

def checksumLength : Nat := 4

def fixedHeaderLength : Nat := 48

def maxHeaderLength : Nat := 65535

def maxIdentifierLength : Nat := 1024

def maxStreams : Nat := 4096

def streamFixedLength : Nat := 8

end Prologue

inductive PrologueError where
  | incomplete
  | invalidMagic
  | unsupportedVersion (version : UInt16)
  | invalidHeaderLength (length : UInt16)
  | unsupportedFlags (flags : UInt32)
  | checksumMismatch
  | invalidSegmentId
  | invalidCreatedTime
  | invalidStreamId
  | missingStreams
  | duplicateStreamId (streamId : UInt32)
  | nonCanonicalStreamOrder
  | tooManyStreams (actual maximum : Nat)
  | invalidIdentifier (field : String)
  | identifierTooLong (field : String) (actual maximum : Nat)
  | headerTooLarge
  | invalidUtf8
  deriving DecidableEq, Repr

/-! ## Identifiers and streams -/

def isIdentifierByte (b : UInt8) : Bool :=
  (decide (0x30 ≤ b) && decide (b ≤ 0x39)) || (decide (0x41 ≤ b) && decide (b ≤ 0x5a))
    || (decide (0x61 ≤ b) && decide (b ≤ 0x7a))
    || b == 0x2d || b == 0x5f || b == 0x2e || b == 0x3a || b == 0x2f

structure Identifier where
  bytes : Bytes
  short : bytes.length ≤ Prologue.maxIdentifierLength
  spelled : bytes.isEmpty = false ∧ bytes.all isIdentifierByte = true
  deriving DecidableEq

def validateIdentifier (field : String) (value : Bytes) : Except PrologueError Identifier :=
  if hlength : value.length > Prologue.maxIdentifierLength then
    .error (.identifierTooLong field value.length Prologue.maxIdentifierLength)
  else if hspelled : value.isEmpty = false ∧ value.all isIdentifierByte = true then
    .ok ⟨value, Nat.not_lt.mp hlength, hspelled⟩
  else .error (.invalidIdentifier field)

@[ext]
structure StreamDescriptor where
  streamId : UInt32
  sourceName : Identifier
  streamName : Identifier
  nonzero : streamId ≠ 0

instance : DecidableEq StreamDescriptor := fun a b =>
  decidable_of_iff (a.streamId = b.streamId ∧ a.sourceName = b.sourceName ∧
    a.streamName = b.streamName) StreamDescriptor.ext_iff.symm

def StreamDescriptor.new (streamId : UInt32) (sourceName streamName : Bytes) :
    Except PrologueError StreamDescriptor :=
  if hzero : streamId = 0 then .error .invalidStreamId
  else do
    let source ← validateIdentifier "source_name" sourceName
    let stream ← validateIdentifier "stream_name" streamName
    return ⟨streamId, source, stream, hzero⟩

def StreamDescriptor.bytes (stream : StreamDescriptor) : Bytes :=
  u32be stream.streamId ++ u16be (UInt16.ofNat stream.sourceName.bytes.length)
    ++ u16be (UInt16.ofNat stream.streamName.bytes.length)
    ++ stream.sourceName.bytes ++ stream.streamName.bytes

/-! ## Segment metadata -/

abbrev SegmentId := Vector UInt8 16

def zeroSegmentId : SegmentId := Vector.replicate 16 0

namespace Prologue

/-- The length of an encoded prologue. -/
def encodedLength (schemaId installationId buildId : Identifier)
    (streams : List StreamDescriptor) : Nat :=
  fixedHeaderLength + schemaId.bytes.length + installationId.bytes.length + buildId.bytes.length
    + (streams.map fun stream => streamFixedLength + stream.sourceName.bytes.length
        + stream.streamName.bytes.length).sum + checksumLength

/-- The first stream whose ID an earlier one has. -/
def firstDuplicate : List UInt32 → List StreamDescriptor → Option UInt32
  | _, [] => none
  | seen, stream :: streams =>
    if stream.streamId ∈ seen then some stream.streamId
    else firstDuplicate (stream.streamId :: seen) streams

def sortedByStreamId (streams : List StreamDescriptor) : List StreamDescriptor :=
  streams.insertionSort fun a b => a.streamId ≤ b.streamId

variable {streams : List StreamDescriptor}

theorem firstDuplicate_eq_none {seen : List UInt32} (h : firstDuplicate seen streams = none) :
    (streams.map (·.streamId)).Nodup ∧ ∀ stream ∈ streams, stream.streamId ∉ seen := by
  induction streams generalizing seen with
  | nil => simp
  | cons stream streams ih =>
    rw [firstDuplicate] at h
    split at h
    · nomatch h
    · rename_i hseen
      obtain ⟨hnodup, hfresh⟩ := ih h
      rw [map_cons, nodup_cons]
      refine ⟨⟨?_, hnodup⟩, ?_⟩
      · simp only [mem_map, not_exists, not_and]
        intro other hother heq
        exact hfresh other hother (by simp [heq])
      · rintro other (_ | ⟨_, hother⟩)
        · exact hseen
        · exact fun hmem => hfresh other hother (mem_cons_of_mem _ hmem)

theorem firstDuplicate_of_nodup {seen : List UInt32} (hnodup : (streams.map (·.streamId)).Nodup)
    (hfresh : ∀ stream ∈ streams, stream.streamId ∉ seen) :
    firstDuplicate seen streams = none := by
  induction streams generalizing seen with
  | nil => rfl
  | cons stream streams ih =>
    rw [map_cons, nodup_cons] at hnodup
    rw [firstDuplicate, if_neg (hfresh stream mem_cons_self)]
    refine ih hnodup.2 fun other hother hmem => ?_
    rcases mem_cons.mp hmem with heq | hmem
    · exact hnodup.1 (mem_map.mpr ⟨other, hother, heq⟩)
    · exact hfresh other (mem_cons_of_mem _ hother) hmem

theorem sortedByStreamId_perm (streams : List StreamDescriptor) :
    (sortedByStreamId streams).Perm streams := perm_insertionSort _ _

theorem sortedByStreamId_strict (h : (streams.map (·.streamId)).Nodup) :
    (sortedByStreamId streams).Pairwise fun a b => a.streamId < b.streamId := by
  have : Std.Total fun a b : StreamDescriptor => a.streamId ≤ b.streamId :=
    ⟨fun a b => UInt32.le_total a.streamId b.streamId⟩
  have : IsTrans StreamDescriptor fun a b => a.streamId ≤ b.streamId :=
    ⟨fun _ _ _ => UInt32.le_trans⟩
  have hsorted := pairwise_insertionSort (fun a b => a.streamId ≤ b.streamId) streams
  have hnodup : (sortedByStreamId streams).Pairwise fun a b => a.streamId ≠ b.streamId :=
    pairwise_map.mp (((sortedByStreamId_perm streams).map _).nodup_iff.mpr h)
  exact (hsorted.and hnodup).imp fun hab => UInt32.lt_of_le_of_ne hab.1 hab.2

theorem sortedByStreamId_of_sorted (h : streams.Pairwise fun a b => a.streamId ≤ b.streamId) :
    sortedByStreamId streams = streams := h.insertionSort_eq

theorem encodedLength_sortedByStreamId (schemaId installationId buildId : Identifier)
    (streams : List StreamDescriptor) :
    encodedLength schemaId installationId buildId (sortedByStreamId streams) =
      encodedLength schemaId installationId buildId streams := by
  unfold encodedLength
  rw [((sortedByStreamId_perm streams).map _).sum_eq]

end Prologue

structure SegmentMetadata where
  segmentId : SegmentId
  createdWallTimeNs : Int64
  schemaId : Identifier
  installationId : Identifier
  buildId : Identifier
  streams : List StreamDescriptor
  identified : segmentId ≠ zeroSegmentId
  created : 0 < createdWallTimeNs
  streamed : streams ≠ [] ∧ streams.length ≤ Prologue.maxStreams
  sorted : streams.Pairwise fun a b => a.streamId < b.streamId
  fits : Prologue.encodedLength schemaId installationId buildId streams ≤ Prologue.maxHeaderLength
  deriving DecidableEq

namespace SegmentMetadata

/-- The constructor: the checks in their order, and the streams sorted by their IDs. -/
def new (segmentId : SegmentId) (createdWallTimeNs : Int64)
    (schemaId installationId buildId : Bytes) (streams : List StreamDescriptor) :
    Except PrologueError SegmentMetadata :=
  if hid : segmentId = zeroSegmentId then .error .invalidSegmentId
  else if hcreated : createdWallTimeNs ≤ 0 then .error .invalidCreatedTime
  else do
    let schema ← validateIdentifier "schema_id" schemaId
    let installation ← validateIdentifier "installation_id" installationId
    let build ← validateIdentifier "build_id" buildId
    if hempty : streams = [] then .error .missingStreams
    else if hmany : streams.length > Prologue.maxStreams then
      .error (.tooManyStreams streams.length Prologue.maxStreams)
    else
      match hduplicate : Prologue.firstDuplicate [] streams with
      | some streamId => .error (.duplicateStreamId streamId)
      | none =>
        if hfits : Prologue.encodedLength schema installation build streams
            ≤ Prologue.maxHeaderLength then
          .ok {
            segmentId, createdWallTimeNs
            schemaId := schema
            installationId := installation
            buildId := build
            streams := Prologue.sortedByStreamId streams
            identified := hid
            created := Int64.not_le.mp hcreated
            streamed := by
              have hperm := Prologue.sortedByStreamId_perm streams
              refine ⟨fun h => hempty (nil_perm.mp (h ▸ hperm)), ?_⟩
              rw [hperm.length_eq]
              exact Nat.not_lt.mp hmany
            sorted := Prologue.sortedByStreamId_strict
              (Prologue.firstDuplicate_eq_none hduplicate).1
            fits := by rwa [Prologue.encodedLength_sortedByStreamId] }
        else .error .headerTooLarge

/-- The streams are sorted by ID, so the source's binary search finds every declared one. -/
def containsStream (metadata : SegmentMetadata) (streamId : UInt32) : Bool :=
  metadata.streams.any fun stream => stream.streamId == streamId

def headerLength (metadata : SegmentMetadata) : Nat :=
  Prologue.encodedLength metadata.schemaId metadata.installationId metadata.buildId metadata.streams

end SegmentMetadata

structure DecodedPrologue where
  metadata : SegmentMetadata
  encodedLength : Nat
  deriving DecidableEq

namespace Prologue

/-! ## Encoding and decoding -/

/-- A prologue up to its checksum. Its lengths fit the 16-bit fields by the types of the
metadata. -/
def body (metadata : SegmentMetadata) : Bytes :=
  magic ++ u16be formatVersion ++ u16be (UInt16.ofNat metadata.headerLength)
    ++ u32be supportedFlags ++ metadata.segmentId.toList ++ i64be metadata.createdWallTimeNs
    ++ u16be (UInt16.ofNat metadata.schemaId.bytes.length)
    ++ u16be (UInt16.ofNat metadata.installationId.bytes.length)
    ++ u16be (UInt16.ofNat metadata.buildId.bytes.length)
    ++ u16be (UInt16.ofNat metadata.streams.length)
    ++ metadata.schemaId.bytes ++ metadata.installationId.bytes ++ metadata.buildId.bytes
    ++ metadata.streams.flatMap StreamDescriptor.bytes

def encode [Crc32c] (metadata : SegmentMetadata) : Bytes :=
  body metadata ++ u32be (crc32c (body metadata))

def readIdentifier (bytes : Bytes) (limit cursor length : Nat) :
    Except PrologueError (Bytes × Nat) := do
  reject (length > maxIdentifierLength)
    (.identifierTooLong "encoded_identifier" length maxIdentifierLength)
  reject (cursor + length > limit)
    (.invalidHeaderLength (UInt16.ofNat (min (limit + checksumLength) 65535)))
  reject (isUtf8 (slice bytes cursor length) = false) .invalidUtf8
  return (slice bytes cursor length, cursor + length)

/-- The stream descriptors from the cursor on, after those already read. -/
def readStreams (bytes : Bytes) (headerLength : UInt16) (limit : Nat) :
    Nat → Nat → List StreamDescriptor → Except PrologueError (List StreamDescriptor × Nat)
  | 0, cursor, streams => .ok (streams, cursor)
  | count + 1, cursor, streams => do
    let fixedEnd := cursor + streamFixedLength
    reject (fixedEnd > limit) (.invalidHeaderLength headerLength)
    let streamId := readU32 bytes cursor
    let sourceLength := (readU16 bytes (cursor + 4)).toNat
    let streamLength := (readU16 bytes (cursor + 4 + 2)).toNat
    let (sourceName, cursor) ← readIdentifier bytes limit fixedEnd sourceLength
    let (streamName, cursor) ← readIdentifier bytes limit cursor streamLength
    reject (streamId ∈ streams.map (·.streamId)) (.duplicateStreamId streamId)
    let stream ← StreamDescriptor.new streamId sourceName streamName
    readStreams bytes headerLength limit count cursor (streams ++ [stream])

/-- The header length a prologue declares, once magic and version are right. -/
def checkedHeaderLength (bytes : Bytes) : Except PrologueError UInt16 := do
  reject (bytes.take magic.length ≠ magic) .invalidMagic
  reject (readU16 bytes 8 ≠ formatVersion) (.unsupportedVersion (readU16 bytes 8))
  let headerLength := readU16 bytes 10
  reject (¬ (fixedHeaderLength + checksumLength ≤ headerLength.toNat
    ∧ headerLength.toNat ≤ maxHeaderLength)) (.invalidHeaderLength headerLength)
  return headerLength

def decode [Crc32c] (bytes : Bytes) : Except PrologueError DecodedPrologue := do
  reject (bytes.length < fixedHeaderLength) .incomplete
  let headerLength ← checkedHeaderLength bytes
  reject (readU32 bytes 12 ≠ supportedFlags) (.unsupportedFlags (readU32 bytes 12))
  reject (bytes.length < headerLength.toNat) .incomplete
  let checksumOffset := headerLength.toNat - checksumLength
  reject (crc32c (bytes.take checksumOffset) ≠ readU32 bytes checksumOffset) .checksumMismatch
  let segmentId := readVector bytes 16 16
  let createdWallTimeNs := readI64 bytes 32
  let streamCount := (readU16 bytes 46).toNat
  reject (streamCount > maxStreams) (.tooManyStreams streamCount maxStreams)
  let (schemaId, cursor) ←
    readIdentifier bytes checksumOffset fixedHeaderLength (readU16 bytes 40).toNat
  let (installationId, cursor) ←
    readIdentifier bytes checksumOffset cursor (readU16 bytes 42).toNat
  let (buildId, cursor) ← readIdentifier bytes checksumOffset cursor (readU16 bytes 44).toNat
  let (streams, cursor) ← readStreams bytes headerLength checksumOffset streamCount cursor []
  reject ((streams.zip streams.tail).any fun pair => decide (pair.2.streamId < pair.1.streamId))
    .nonCanonicalStreamOrder
  reject (cursor ≠ checksumOffset) (.invalidHeaderLength headerLength)
  let metadata ←
    SegmentMetadata.new segmentId createdWallTimeNs schemaId installationId buildId streams
  return ⟨metadata, headerLength.toNat⟩

def declaredHeaderLength (bytes : Bytes) : Except PrologueError Nat := do
  reject (bytes.length < 12) .incomplete
  let headerLength ← checkedHeaderLength bytes
  return headerLength.toNat

/-! ## The constructors -/

theorem validateIdentifier_eq_ok {field : String} {value : Bytes} {identifier : Identifier} :
    validateIdentifier field value = .ok identifier ↔ value = identifier.bytes := by
  constructor
  · intro h
    unfold validateIdentifier at h
    split at h
    · cases h
    · split at h
      · cases h
        rfl
      · cases h
  · rintro rfl
    rw [validateIdentifier, dif_neg (Nat.not_lt.mpr identifier.short), dif_pos identifier.spelled]

theorem streamDescriptor_new_eq_ok {streamId : UInt32} {sourceName streamName : Bytes}
    {stream : StreamDescriptor} :
    StreamDescriptor.new streamId sourceName streamName = .ok stream ↔
      streamId = stream.streamId ∧ sourceName = stream.sourceName.bytes ∧
        streamName = stream.streamName.bytes := by
  constructor
  · intro h
    unfold StreamDescriptor.new at h
    split at h
    · cases h
    · simp only [bind_eq_ok, pure_eq_ok, validateIdentifier_eq_ok] at h
      obtain ⟨source, rfl, name, rfl, rfl⟩ := h
      exact ⟨rfl, rfl, rfl⟩
  · rintro ⟨rfl, rfl, rfl⟩
    rw [StreamDescriptor.new, dif_neg stream.nonzero, validateIdentifier_eq_ok.mpr rfl, ok_bind,
      validateIdentifier_eq_ok.mpr rfl]
    rfl

theorem segmentMetadata_new_self (metadata : SegmentMetadata) :
    SegmentMetadata.new metadata.segmentId metadata.createdWallTimeNs metadata.schemaId.bytes
      metadata.installationId.bytes metadata.buildId.bytes metadata.streams = .ok metadata := by
  have hduplicate : firstDuplicate [] metadata.streams = none :=
    firstDuplicate_of_nodup
      (pairwise_map.mpr (metadata.sorted.imp fun h => UInt32.ne_of_lt h)) (by simp)
  rw [SegmentMetadata.new, dif_neg metadata.identified, dif_neg (Int64.not_le.mpr metadata.created)]
  simp only [validateIdentifier_eq_ok.mpr rfl, ok_bind]
  rw [dif_neg metadata.streamed.1, dif_neg (Nat.not_lt.mpr metadata.streamed.2)]
  split
  · rename_i streamId hsome
    exact absurd (hduplicate.symm.trans hsome) (by simp)
  · rw [dif_pos metadata.fits]
    simp only [sortedByStreamId_of_sorted (metadata.sorted.imp UInt32.le_of_lt)]

variable {streams : List StreamDescriptor} {metadata : SegmentMetadata} {bytes : Bytes}
  {limit cursor : Nat} {headerLength : UInt16} {decoded : DecodedPrologue}

/-- The constructor keeps what it is given; streams in order stay where they are. -/
theorem segmentMetadata_new_eq_ok {segmentId : SegmentId} {createdWallTimeNs : Int64}
    {schemaId installationId buildId : Bytes}
    (hordered : streams.Pairwise fun a b => a.streamId ≤ b.streamId) :
    SegmentMetadata.new segmentId createdWallTimeNs schemaId installationId buildId streams =
        .ok metadata ↔
      segmentId = metadata.segmentId ∧ createdWallTimeNs = metadata.createdWallTimeNs ∧
      schemaId = metadata.schemaId.bytes ∧ installationId = metadata.installationId.bytes ∧
      buildId = metadata.buildId.bytes ∧ streams = metadata.streams := by
  constructor
  · intro h
    unfold SegmentMetadata.new at h
    split at h
    · cases h
    split at h
    · cases h
    simp only [bind_eq_ok, validateIdentifier_eq_ok] at h
    obtain ⟨schema, rfl, installation, rfl, build, rfl, h⟩ := h
    split at h
    · cases h
    split at h
    · cases h
    split at h
    · cases h
    split at h
    · cases h
      exact ⟨rfl, rfl, rfl, rfl, rfl, (sortedByStreamId_of_sorted hordered).symm⟩
    · cases h
  · rintro ⟨rfl, rfl, rfl, rfl, rfl, rfl⟩
    exact segmentMetadata_new_self metadata

/-! ## Lengths -/

theorem stream_bytes_length (stream : StreamDescriptor) :
    stream.bytes.length = streamFixedLength + stream.sourceName.bytes.length
      + stream.streamName.bytes.length := by
  simp [StreamDescriptor.bytes, streamFixedLength]
  omega

theorem body_length (metadata : SegmentMetadata) :
    (body metadata).length = fixedHeaderLength + metadata.schemaId.bytes.length +
      metadata.installationId.bytes.length + metadata.buildId.bytes.length +
      (metadata.streams.flatMap StreamDescriptor.bytes).length := by
  simp only [body, length_append, u16be_length, u32be_length, i64be_length,
    Vector.length_toList, fixedHeaderLength, show magic.length = 8 from rfl]

theorem headerLength_eq (metadata : SegmentMetadata) :
    metadata.headerLength = (body metadata).length + checksumLength := by
  rw [body_length, length_flatMap]
  simp only [stream_bytes_length, SegmentMetadata.headerLength, encodedLength]

@[simp] theorem encode_length [Crc32c] (metadata : SegmentMetadata) :
    (encode metadata).length = metadata.headerLength := by
  rw [encode, length_append, u32be_length, headerLength_eq, checksumLength]

theorem headerLength_bounds (metadata : SegmentMetadata) :
    fixedHeaderLength + checksumLength ≤ metadata.headerLength ∧
      metadata.headerLength ≤ maxHeaderLength := by
  refine ⟨?_, metadata.fits⟩
  rw [SegmentMetadata.headerLength, encodedLength]
  omega

theorem toNat_ofNat_headerLength (metadata : SegmentMetadata) :
    (UInt16.ofNat metadata.headerLength).toNat = metadata.headerLength :=
  UInt16.toNat_ofNat_of_lt' (lt_of_le_of_lt (headerLength_bounds metadata).2 (by decide))

theorem toNat_ofNat_identifier (identifier : Identifier) :
    (UInt16.ofNat identifier.bytes.length).toNat = identifier.bytes.length :=
  UInt16.toNat_ofNat_of_lt' (lt_of_le_of_lt identifier.short (by decide))

/-! ## What a reader accepts -/

theorem identifier_isUtf8 (identifier : Identifier) : isUtf8 identifier.bytes = true := by
  refine isUtf8_of_ascii fun b hb => ?_
  have hbyte := all_eq_true.mp identifier.spelled.2 b hb
  have hle : ∀ c : UInt8, b ≤ c → b.toNat ≤ c.toNat := fun c h => UInt8.le_iff_toNat_le.mp h
  simp only [isIdentifierByte, Bool.or_eq_true, Bool.and_eq_true, decide_eq_true_eq,
    beq_iff_eq] at hbyte
  rcases hbyte with (((((((⟨-, h⟩ | ⟨-, h⟩) | ⟨-, h⟩) | h) | h) | h) | h) | h)
  iterate 3
    have := hle _ h
    simp at this
    omega
  all_goals
    subst h
    decide

theorem readIdentifier_eq_ok (hlimit : limit ≤ bytes.length) {identifier : Identifier}
    {length next : Nat} :
    readIdentifier bytes limit cursor length = .ok (identifier.bytes, next) ↔
      length = identifier.bytes.length ∧ next = cursor + length ∧ next ≤ limit ∧
        HoldsAt bytes cursor identifier.bytes := by
  simp only [readIdentifier, bind_eq_ok, reject_eq_ok, pure_eq_ok, Prod.mk.injEq, exists_const,
    gt_iff_lt, not_lt, Bool.not_eq_false]
  constructor
  · rintro ⟨-, hend, -, hvalue, rfl⟩
    have hlength : (slice bytes cursor length).length = length := slice_length (by omega)
    refine ⟨by rw [← hvalue, hlength], rfl, hend, ?_⟩
    rw [← hvalue]
    exact holdsAt_slice (by omega)
  · rintro ⟨rfl, rfl, hend, -, hvalue⟩
    rw [hvalue]
    exact ⟨identifier.short, hend, identifier_isUtf8 identifier, rfl, rfl⟩

theorem holdsAt_stream {stream : StreamDescriptor} :
    HoldsAt bytes cursor stream.bytes ↔ readU32 bytes cursor = stream.streamId ∧
      readU16 bytes (cursor + 4) = UInt16.ofNat stream.sourceName.bytes.length ∧
      readU16 bytes (cursor + 4 + 2) = UInt16.ofNat stream.streamName.bytes.length ∧
      HoldsAt bytes (cursor + streamFixedLength) stream.sourceName.bytes ∧
      HoldsAt bytes (cursor + streamFixedLength + stream.sourceName.bytes.length)
        stream.streamName.bytes := by
  simp only [StreamDescriptor.bytes, holdsAt_append, holdsAt_u32be, holdsAt_u16be,
    length_append, u32be_length, u16be_length, ← Nat.add_assoc, and_assoc, streamFixedLength]
  constructor
  · rintro ⟨-, hid, -, hsource, -, hname, hrest⟩
    exact ⟨hid, hsource, hname, hrest⟩
  · rintro ⟨hid, hsource, hname, hrest⟩
    have hbound := hrest.1.1
    exact ⟨by omega, hid, by omega, hsource, by omega, hname, hrest⟩

/-- The descriptors are read where they stand, if no ID comes twice. The induction is on those still
to be read. -/
theorem readStreams_eq_ok (hlimit : limit ≤ bytes.length) {count next : Nat}
    {seen : List StreamDescriptor} (hcursor : cursor ≤ limit)
    (hseen : (seen.map (·.streamId)).Nodup) :
    readStreams bytes headerLength limit count cursor seen = .ok (streams, next) ↔
      ∃ read, streams = seen ++ read ∧ read.length = count ∧
        next = cursor + (read.flatMap StreamDescriptor.bytes).length ∧ next ≤ limit ∧
        HoldsAt bytes cursor (read.flatMap StreamDescriptor.bytes) ∧
        (streams.map (·.streamId)).Nodup := by
  induction count generalizing cursor seen with
  | zero =>
    rw [readStreams]
    constructor
    · intro h
      cases h
      exact ⟨[], by simp, rfl, rfl, hcursor, ⟨hcursor.trans hlimit, by simp [slice]⟩, hseen⟩
    · rintro ⟨read, rfl, hcount, rfl, -⟩
      obtain rfl := length_eq_zero_iff.mp hcount
      simp
  | succ count ih =>
    have hfresh (stream : StreamDescriptor) : ((seen ++ [stream]).map (·.streamId)).Nodup ↔
        ¬ stream.streamId ∈ seen.map (·.streamId) := by
      rw [map_append, map_singleton, nodup_append_comm, singleton_append,
        nodup_cons]
      exact and_iff_left hseen
    simp only [readStreams, bind_eq_ok, reject_eq_ok, Prod.exists, streamDescriptor_new_eq_ok,
      gt_iff_lt, not_lt, exists_const]
    constructor
    · rintro ⟨-, _, _, hsource, _, _, hname, hnew, stream, ⟨hid, rfl, rfl⟩, h⟩
      obtain ⟨hsourceLength, rfl, -, hsource⟩ := (readIdentifier_eq_ok hlimit).mp hsource
      obtain ⟨hnameLength, rfl, hend, hname⟩ := (readIdentifier_eq_ok hlimit).mp hname
      rw [hid] at hnew
      obtain ⟨read, rfl, rfl, rfl, hnext, hread, hnodup⟩ :=
        (ih hend ((hfresh stream).mpr hnew)).mp h
      rw [hsourceLength] at hname
      rw [hsourceLength, hnameLength] at hread hnext ⊢
      have hstream : HoldsAt bytes cursor stream.bytes := holdsAt_stream.mpr ⟨hid,
        by rw [← hsourceLength, UInt16.ofNat_toNat], by rw [← hnameLength, UInt16.ofNat_toNat],
        hsource, hname⟩
      have hafter : cursor + streamFixedLength + stream.sourceName.bytes.length +
          stream.streamName.bytes.length = cursor + stream.bytes.length := by
        rw [stream_bytes_length]
        omega
      rw [hafter] at hread hnext ⊢
      exact ⟨stream :: read, by simp, rfl, by simp [Nat.add_assoc], hnext,
        holdsAt_append.mpr ⟨hstream, hread⟩, hnodup⟩
    · rintro ⟨_ | ⟨stream, read⟩, rfl, hcount, rfl, hnext, hread, hnodup⟩
      · cases hcount
      obtain ⟨hstream, hread⟩ := holdsAt_append.mp hread
      obtain ⟨hid, hsourceLength, hnameLength, hsource, hname⟩ := holdsAt_stream.mp hstream
      have hnew : ((seen ++ [stream]).map (·.streamId)).Nodup := by
        rw [append_cons, map_append] at hnodup
        exact hnodup.of_append_left
      rw [← UInt16.toNat_inj, toNat_ofNat_identifier] at hsourceLength hnameLength
      have hsplit : cursor + ((stream :: read).flatMap StreamDescriptor.bytes).length =
          cursor + stream.bytes.length + (read.flatMap StreamDescriptor.bytes).length := by
        rw [flatMap_cons, length_append, Nat.add_assoc]
      have hafter : cursor + streamFixedLength + stream.sourceName.bytes.length +
          stream.streamName.bytes.length = cursor + stream.bytes.length := by
        rw [stream_bytes_length]
        omega
      have hrest := (ih (by omega) hnew).mpr
        ⟨read, by simp, Nat.succ.inj hcount, hsplit, hnext, hread, hnodup⟩
      rw [← hafter] at hrest
      simp only [hid, hsourceLength, hnameLength]
      exact ⟨by omega, _, _, (readIdentifier_eq_ok hlimit).mpr ⟨rfl, rfl, by omega, hsource⟩, _, _,
        (readIdentifier_eq_ok hlimit).mpr ⟨rfl, rfl, by omega, hname⟩,
          (hfresh stream).mp hnew, stream,
        ⟨rfl, rfl, rfl⟩, hrest⟩

/-- Neighbours in order: the whole list is. -/
theorem ordered_iff :
    ((streams.zip streams.tail).any fun pair => decide (pair.2.streamId < pair.1.streamId)) =
      false ↔ streams.Pairwise fun a b => a.streamId ≤ b.streamId := by
  have htrans : IsTrans StreamDescriptor fun a b => a.streamId ≤ b.streamId :=
    ⟨fun _ _ _ => UInt32.le_trans⟩
  rw [← isChain_iff_pairwise]
  induction streams with
  | nil => simp
  | cons a streams ih =>
    cases streams with
    | nil => simp
    | cons b streams =>
      rw [tail_cons, zip_cons_cons, any_cons, Bool.or_eq_false_iff,
        decide_eq_false_iff_not, UInt32.not_lt, isChain_cons_cons]
      exact and_congr_right fun _ => ih

theorem checkedHeaderLength_eq_ok :
    checkedHeaderLength bytes = .ok headerLength ↔ bytes.take magic.length = magic ∧
      readU16 bytes 8 = formatVersion ∧ readU16 bytes 10 = headerLength ∧
      fixedHeaderLength + checksumLength ≤ headerLength.toNat ∧
      headerLength.toNat ≤ maxHeaderLength := by
  simp only [checkedHeaderLength, bind_eq_ok, reject_eq_ok, pure_eq_ok, ne_eq, not_not,
    exists_const]
  constructor
  · rintro ⟨hmagic, hversion, hbounds, rfl⟩
    exact ⟨hmagic, hversion, rfl, hbounds⟩
  · rintro ⟨hmagic, hversion, rfl, hbounds⟩
    exact ⟨hmagic, hversion, hbounds, rfl⟩

/-- A prologue stands at the start of the bytes exactly where its fields are read. -/
theorem holdsAt_body (h : fixedHeaderLength ≤ bytes.length) :
    HoldsAt bytes 0 (body metadata) ↔ bytes.take magic.length = magic ∧
      readU16 bytes 8 = formatVersion ∧ readU16 bytes 10 = UInt16.ofNat metadata.headerLength ∧
      readU32 bytes 12 = supportedFlags ∧ readVector bytes 16 16 = metadata.segmentId ∧
      readI64 bytes 32 = metadata.createdWallTimeNs ∧
      readU16 bytes 40 = UInt16.ofNat metadata.schemaId.bytes.length ∧
      readU16 bytes 42 = UInt16.ofNat metadata.installationId.bytes.length ∧
      readU16 bytes 44 = UInt16.ofNat metadata.buildId.bytes.length ∧
      readU16 bytes 46 = UInt16.ofNat metadata.streams.length ∧
      HoldsAt bytes fixedHeaderLength metadata.schemaId.bytes ∧
      HoldsAt bytes (fixedHeaderLength + metadata.schemaId.bytes.length)
        metadata.installationId.bytes ∧
      HoldsAt bytes (fixedHeaderLength + metadata.schemaId.bytes.length +
        metadata.installationId.bytes.length) metadata.buildId.bytes ∧
      HoldsAt bytes (fixedHeaderLength + metadata.schemaId.bytes.length +
        metadata.installationId.bytes.length + metadata.buildId.bytes.length)
        (metadata.streams.flatMap StreamDescriptor.bytes) := by
  rw [fixedHeaderLength] at h
  have hmagic : HoldsAt bytes 0 magic ↔ bytes.take magic.length = magic :=
    and_iff_right (show 0 + 8 ≤ bytes.length by omega)
  have hbound (n : Nat) (hn : n ≤ 48) : n ≤ bytes.length := hn.trans h
  simp only [body, holdsAt_append, hmagic, holdsAt_u16be, holdsAt_u32be, holdsAt_i64be,
    holdsAt_vector, length_append, u16be_length, u32be_length, i64be_length,
    Vector.length_toList, show magic.length = 8 from rfl, Nat.reduceAdd, Nat.zero_add,
    Nat.reduceLeDiff, hbound, true_and, and_assoc, fixedHeaderLength]

/-- The declared length stands in the first twelve bytes. -/
theorem declaredHeaderLength_take {n : Nat} (h : 12 ≤ n) :
    declaredHeaderLength (bytes.take n) = declaredHeaderLength bytes := by
  have hlength : (bytes.take n).length < 12 ↔ bytes.length < 12 := by
    rw [length_take]
    omega
  have hmagic : (bytes.take n).take magic.length = bytes.take magic.length := by
    rw [take_take, Nat.min_eq_left (h.trans' (by decide))]
  unfold declaredHeaderLength checkedHeaderLength
  simp only [hlength, hmagic, readU16_take (show 8 + 2 ≤ n by omega),
    readU16_take (show 10 + 2 ≤ n by omega)]

variable [Crc32c]

/-- What the decoder accepts starts with the encoding of what it returns. -/
theorem decode_eq_ok :
    decode bytes = .ok decoded ↔ decoded.encodedLength = decoded.metadata.headerLength ∧
      HoldsAt bytes 0 (encode decoded.metadata) := by
  obtain ⟨metadata, encodedLength⟩ := decoded
  rw [encode, holdsAt_append, holdsAt_u32be, Nat.zero_add]
  simp only [decode, bind_eq_ok, reject_eq_ok, pure_eq_ok, ne_eq, not_not, not_lt, gt_iff_lt,
    exists_const, Prod.exists, Bool.not_eq_true, ordered_iff, checkedHeaderLength_eq_ok,
    DecodedPrologue.mk.injEq]
  constructor
  · rintro ⟨hfixed, headerLength, ⟨hmagic, hversion, hfield, hmin, -⟩, hflags, hlength,
      hchecksum, -,
      _, _, hschema, _, _, hinstallation, _, _, hbuild, _, _, hstreams, hordered, rfl, metadata,
      hmetadata, rfl, rfl⟩
    obtain ⟨hid, hcreated, rfl, rfl, rfl, rfl⟩ := (segmentMetadata_new_eq_ok hordered).mp hmetadata
    have hlimit : headerLength.toNat - checksumLength ≤ bytes.length := by omega
    obtain ⟨hschemaLength, rfl, -, hschema⟩ := (readIdentifier_eq_ok hlimit).mp hschema
    obtain ⟨hinstallationLength, rfl, -, hinstallation⟩ :=
      (readIdentifier_eq_ok hlimit).mp hinstallation
    obtain ⟨hbuildLength, rfl, hend, hbuild⟩ := (readIdentifier_eq_ok hlimit).mp hbuild
    obtain ⟨read, rfl, hcount, hcursor, -, hstreams, -⟩ :=
      (readStreams_eq_ok hlimit hend (by simp)).mp hstreams
    simp only [hschemaLength, hinstallationLength] at hinstallation hbuild
    simp only [hschemaLength, hinstallationLength, hbuildLength] at hstreams hcursor
    rw [← body_length] at hcursor
    have hheader : headerLength.toNat = metadata.headerLength := by
      rw [headerLength_eq]
      omega
    have hat : HoldsAt bytes 0 (body metadata) := (holdsAt_body hfixed).mpr ⟨hmagic, hversion,
      by rw [hfield, ← hheader, UInt16.ofNat_toNat], hflags, hid, hcreated,
      by rw [← hschemaLength, UInt16.ofNat_toNat], by rw [← hinstallationLength,
        UInt16.ofNat_toNat],
      by rw [← hbuildLength, UInt16.ofNat_toNat], by rw [hcount, UInt16.ofNat_toNat], hschema,
      hinstallation, hbuild, hstreams⟩
    have htake : bytes.take (body metadata).length = body metadata := hat.2
    rw [hcursor, htake] at hchecksum
    exact ⟨hheader, hat, by simp only [checksumLength] at hcursor hmin; omega, hchecksum.symm⟩
  · rintro ⟨rfl, hat, hend, hchecksum⟩
    have hoffset : metadata.headerLength - checksumLength = (body metadata).length := by
      rw [headerLength_eq, Nat.add_sub_cancel]
    have hbody := body_length metadata
    have hfixed : fixedHeaderLength ≤ bytes.length := by omega
    have htake : bytes.take (body metadata).length = body metadata := hat.2
    obtain ⟨hmagic, hversion, hfield, hflags, hid, hcreated, hschemaLength, hinstallationLength,
      hbuildLength, hcount, hschema, hinstallation, hbuild, hstreams⟩ :=
      (holdsAt_body hfixed).mp hat
    refine ⟨hfixed, UInt16.ofNat metadata.headerLength, ?_⟩
    have hlimit : (body metadata).length ≤ bytes.length := by omega
    have hmany : (UInt16.ofNat metadata.streams.length).toNat = metadata.streams.length :=
      UInt16.toNat_ofNat_of_lt' (lt_of_le_of_lt metadata.streamed.2 (by decide))
    simp only [toNat_ofNat_headerLength, hoffset, htake, hschemaLength, hinstallationLength,
      hbuildLength, hcount, hmany, toNat_ofNat_identifier]
    have hordered := metadata.sorted.imp UInt32.le_of_lt
    exact ⟨⟨hmagic, hversion, hfield, headerLength_bounds metadata⟩, hflags,
      by rw [headerLength_eq, checksumLength]; exact hend, hchecksum.symm,
        metadata.streamed.2, _, _,
      (readIdentifier_eq_ok hlimit).mpr ⟨rfl, rfl, by omega, hschema⟩, _, _,
      (readIdentifier_eq_ok hlimit).mpr ⟨rfl, rfl, by omega, hinstallation⟩, _, _,
      (readIdentifier_eq_ok hlimit).mpr ⟨rfl, rfl, by omega, hbuild⟩, _, _,
      (readStreams_eq_ok hlimit (by omega) (by simp)).mpr
        ⟨metadata.streams, rfl, rfl, hbody, le_rfl,
        hstreams, pairwise_map.mpr (metadata.sorted.imp fun h => UInt32.ne_of_lt h)⟩,
      hordered, rfl, metadata, (segmentMetadata_new_eq_ok hordered).mpr
        ⟨hid, hcreated, rfl, rfl, rfl,
        rfl⟩, rfl, trivial⟩

/-- An encoded prologue decodes to its metadata, whatever follows it. -/
theorem decode_encode (metadata : SegmentMetadata) (rest : Bytes) :
    decode (encode metadata ++ rest) = .ok ⟨metadata, metadata.headerLength⟩ :=
  decode_eq_ok.mpr ⟨rfl, holdsAt_zero.mpr ⟨rest, rfl⟩⟩

/-- The declared header length is the length of the encoding. -/
theorem declaredHeaderLength_encode (metadata : SegmentMetadata) (rest : Bytes) :
    declaredHeaderLength (encode metadata ++ rest) = .ok metadata.headerLength := by
  have hbounds := headerLength_bounds metadata
  have hlength : fixedHeaderLength ≤ (encode metadata ++ rest).length := by
    rw [length_append, encode_length]
    omega
  have hat : HoldsAt (encode metadata ++ rest) 0 (body metadata) :=
    holdsAt_zero.mpr ⟨_, append_assoc _ _ _⟩
  obtain ⟨hmagic, hversion, hfield, -⟩ := (holdsAt_body hlength).mp hat
  rw [← toNat_ofNat_headerLength] at hbounds
  rw [declaredHeaderLength, reject_neg (Nat.not_lt.mpr (hlength.trans' (by decide))), ok_bind,
    checkedHeaderLength_eq_ok.mpr ⟨hmagic, hversion, hfield, hbounds⟩, ok_bind,
    toNat_ofNat_headerLength]
  rfl

end Prologue

/-- A segment of one stream. -/
def sampleMetadata : SegmentMetadata where
  segmentId := Vector.replicate 16 2
  createdWallTimeNs := 1
  schemaId := ⟨text "s", by decide, by decide⟩
  installationId := ⟨text "i", by decide, by decide⟩
  buildId := ⟨text "b", by decide, by decide⟩
  streams := [⟨7, ⟨text "a", by decide, by decide⟩, ⟨text "t", by decide, by decide⟩, by decide⟩]
  identified := by decide
  created := by decide
  streamed := by decide
  sorted := by decide
  fits := by decide

end CryptoIntelligence.Wal
