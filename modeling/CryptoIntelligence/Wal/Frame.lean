/-
  WAL frames (`raw-wal/src/frame.rs`): a record as magic, version, header, payload and a CRC32C
  over all of it, and the legacy frame with a checksum over the payload only.

  What is proved: an encoded frame decodes to its record whatever follows it (`decode_encode`), a
  decoded frame of the current format is the encoding of its record (`encode_of_decode`), a decoder
  reads no further than the length it declares (`decode_take`), and every proper prefix of a header
  is one the tail repair accepts (`isValidPartialHeaderPrefix_take`).
-/
import CryptoIntelligence.Lib.Crc

namespace CryptoIntelligence.Wal

open Lib Lib.Crc32c List

namespace Frame

/-! ## Layout -/

/-- `CMTIWAL1`. -/
def magic : Bytes := [0x43, 0x4d, 0x54, 0x49, 0x57, 0x41, 0x4c, 0x31]

def legacySchemaVersion : UInt16 := 1

def schemaVersion : UInt16 := 2

def legacyHeaderLength : Nat := 14

def headerLength : Nat := 60

def checksumLength : Nat := 4

def maxPayloadLength : Nat := 16 * 1024 * 1024

def supportedFlags : UInt32 := 0

/-- Magic and version. -/
def prefixLength : Nat := 10

def headerLengthOffset : Nat := 10

def flagsOffset : Nat := 12

def streamIdOffset : Nat := 16

def connectionEpochOffset : Nat := 20

def recordSequenceOffset : Nat := 28

def receiveWallTimeOffset : Nat := 36

def receiveMonotonicTimeOffset : Nat := 44

def payloadLengthOffset : Nat := 52

def headerChecksumOffset : Nat := 56

end Frame

inductive WalFormat where
  | legacyV1
  | v2
  deriving DecidableEq, Repr

namespace WalFormat

def headerLength : WalFormat → Nat
  | .legacyV1 => Frame.legacyHeaderLength
  | .v2 => Frame.headerLength

def version : WalFormat → UInt16
  | .legacyV1 => Frame.legacySchemaVersion
  | .v2 => Frame.schemaVersion

def ofVersion? (version : UInt16) : Option WalFormat :=
  if version = Frame.legacySchemaVersion then some .legacyV1
  else if version = Frame.schemaVersion then some .v2
  else none

theorem ofVersion?_eq_some {version : UInt16} {format : WalFormat} :
    ofVersion? version = some format ↔ version = format.version := by
  unfold ofVersion?
  split_ifs with hlegacy hcurrent
  · subst hlegacy
    cases format <;> decide
  · subst hcurrent
    cases format <;> decide
  · cases format
    · simpa [WalFormat.version] using hlegacy
    · simpa [WalFormat.version] using hcurrent

end WalFormat

structure RecordMetadata where
  flags : UInt32
  streamId : UInt32
  connectionEpoch : UInt64
  recordSequence : UInt64
  receiveWallTimeNs : Int64
  receiveMonotonicTimeNs : UInt64
  deriving DecidableEq, Repr

inductive FrameError where
  | payloadTooLarge
  | incomplete
  | invalidMagic
  | unsupportedSchema (version : UInt16)
  | invalidHeaderLength (length : UInt16)
  | unsupportedFlags (flags : UInt32)
  | headerChecksumMismatch
  | frameChecksumMismatch
  deriving DecidableEq, Repr

structure DecodedFrame where
  format : WalFormat
  metadata : Option RecordMetadata
  payload : Bytes
  encodedLength : Nat
  deriving DecidableEq

namespace Frame

/-! ## Encoding -/

section Codec

variable [Crc32c]

/-- The header up to its own checksum. -/
def headerBody (metadata : RecordMetadata) (payloadLength : UInt32) : Bytes :=
  magic ++ u16be schemaVersion ++ u16be (UInt16.ofNat headerLength) ++ u32be metadata.flags
    ++ u32be metadata.streamId ++ u64be metadata.connectionEpoch ++ u64be metadata.recordSequence
    ++ i64be metadata.receiveWallTimeNs ++ u64be metadata.receiveMonotonicTimeNs
    ++ u32be payloadLength

/-- A byte string followed by its CRC32C. -/
def checksummed (bytes : Bytes) : Bytes := bytes ++ u32be (crc32c bytes)

def encode (metadata : RecordMetadata) (payload : Bytes) : Except FrameError Bytes := do
  reject (metadata.flags ≠ supportedFlags) (.unsupportedFlags metadata.flags)
  reject (payload.length > maxPayloadLength) .payloadTooLarge
  return checksummed (checksummed (headerBody metadata (UInt32.ofNat payload.length)) ++ payload)

/-- The addition cannot overflow once the payload is within bounds. -/
def checkedEncodedLength (header payloadLength : Nat) : Except FrameError Nat := do
  reject (payloadLength > maxPayloadLength) .payloadTooLarge
  return header + payloadLength + checksumLength

def encodedLength (metadata : RecordMetadata) (payloadLength : Nat) : Except FrameError Nat := do
  reject (metadata.flags ≠ supportedFlags) (.unsupportedFlags metadata.flags)
  checkedEncodedLength headerLength payloadLength

/-! ## Decoding -/

def decodeV2Header (bytes : Bytes) : Except FrameError (RecordMetadata × Nat) := do
  reject (bytes.length < headerLength) .incomplete
  reject (bytes.take magic.length ≠ magic) .invalidMagic
  reject (readU16 bytes magic.length ≠ schemaVersion)
    (.unsupportedSchema (readU16 bytes magic.length))
  reject ((readU16 bytes headerLengthOffset).toNat ≠ headerLength)
    (.invalidHeaderLength (readU16 bytes headerLengthOffset))
  reject (readU32 bytes flagsOffset ≠ supportedFlags)
    (.unsupportedFlags (readU32 bytes flagsOffset))
  let payloadLength := (readU32 bytes payloadLengthOffset).toNat
  reject (payloadLength > maxPayloadLength) .payloadTooLarge
  reject (crc32c (bytes.take headerChecksumOffset) ≠ readU32 bytes headerChecksumOffset)
    .headerChecksumMismatch
  return ({
    flags := readU32 bytes flagsOffset
    streamId := readU32 bytes streamIdOffset
    connectionEpoch := readU64 bytes connectionEpochOffset
    recordSequence := readU64 bytes recordSequenceOffset
    receiveWallTimeNs := readI64 bytes receiveWallTimeOffset
    receiveMonotonicTimeNs := readU64 bytes receiveMonotonicTimeOffset }, payloadLength)

def decodeLegacyHeader (bytes : Bytes) : Except FrameError Nat := do
  reject (bytes.length < legacyHeaderLength) .incomplete
  reject (bytes.take magic.length ≠ magic) .invalidMagic
  reject (readU16 bytes magic.length ≠ legacySchemaVersion)
    (.unsupportedSchema (readU16 bytes magic.length))
  let payloadLength := (readU32 bytes prefixLength).toNat
  reject (payloadLength > maxPayloadLength) .payloadTooLarge
  return payloadLength

def decodeLegacy (bytes : Bytes) : Except FrameError DecodedFrame := do
  reject (bytes.length < legacyHeaderLength) .incomplete
  let payloadLength := (readU32 bytes prefixLength).toNat
  let length ← checkedEncodedLength legacyHeaderLength payloadLength
  reject (bytes.length < length) .incomplete
  let payload := slice bytes legacyHeaderLength payloadLength
  reject (crc32c payload ≠ readU32 bytes (legacyHeaderLength + payloadLength))
    .frameChecksumMismatch
  return ⟨.legacyV1, none, payload, length⟩

def decodeV2 (bytes : Bytes) : Except FrameError DecodedFrame := do
  let (metadata, payloadLength) ← decodeV2Header bytes
  let length ← checkedEncodedLength headerLength payloadLength
  reject (bytes.length < length) .incomplete
  reject (crc32c (bytes.take (headerLength + payloadLength))
    ≠ readU32 bytes (headerLength + payloadLength)) .frameChecksumMismatch
  return ⟨.v2, some metadata, slice bytes headerLength payloadLength, length⟩

def decode (bytes : Bytes) : Except FrameError DecodedFrame := do
  reject (bytes.length < prefixLength) .incomplete
  reject (bytes.take magic.length ≠ magic) .invalidMagic
  let version := readU16 bytes magic.length
  if version = legacySchemaVersion then decodeLegacy bytes
  else if version = schemaVersion then decodeV2 bytes
  else .error (.unsupportedSchema version)

/-- The payload length a complete header of the format declares. -/
def declaredPayloadLength : WalFormat → Bytes → Except FrameError Nat
  | .legacyV1, header => decodeLegacyHeader header
  | .v2, header => (decodeV2Header header).map (·.2)

/-- Magic, version, header length and flags: the same in every header. -/
def immutablePrefix : Bytes :=
  magic ++ u16be schemaVersion ++ u16be (UInt16.ofNat headerLength) ++ u32be supportedFlags

def isValidPartialHeaderPrefix (bytes : Bytes) : Bool :=
  !bytes.isEmpty && decide (bytes.length < headerLength)
    && bytes.take immutablePrefix.length == immutablePrefix.take bytes.length

end Codec

/-! ## Headers -/

variable {metadata : RecordMetadata} {payload frame bytes : Bytes} {decoded : DecodedFrame}
    {n : Nat}

@[simp] theorem headerBody_length (metadata : RecordMetadata) (payloadLength : UInt32) :
    (headerBody metadata payloadLength).length = 56 := by
  simp [headerBody, magic]

/-- A header stands at the start of the bytes exactly where its fields are read. -/
theorem holdsAt_headerBody {length : UInt32} (h : headerLength ≤ bytes.length) :
    HoldsAt bytes 0 (headerBody metadata length) ↔ bytes.take magic.length = magic ∧
      readU16 bytes magic.length = schemaVersion ∧
      readU16 bytes headerLengthOffset = UInt16.ofNat headerLength ∧
      metadata = ⟨readU32 bytes flagsOffset, readU32 bytes streamIdOffset,
        readU64 bytes connectionEpochOffset, readU64 bytes recordSequenceOffset,
        readI64 bytes receiveWallTimeOffset, readU64 bytes receiveMonotonicTimeOffset⟩ ∧
      readU32 bytes payloadLengthOffset = length := by
  rw [headerLength] at h
  have hmagic : HoldsAt bytes 0 magic ↔ bytes.take magic.length = magic :=
    and_iff_right (show 0 + 8 ≤ bytes.length by omega)
  have hbound (n : Nat) (hn : n ≤ 60) : n ≤ bytes.length := hn.trans h
  simp only [headerBody, holdsAt_append, hmagic, holdsAt_u16be, holdsAt_u32be, holdsAt_u64be,
    holdsAt_i64be, length_append, u16be_length, u32be_length, u64be_length, i64be_length,
    show magic.length = 8 from rfl, Nat.reduceAdd, Nat.reduceLeDiff, hbound, true_and, and_assoc,
    headerLengthOffset, flagsOffset, streamIdOffset, connectionEpochOffset,
    recordSequenceOffset, receiveWallTimeOffset, receiveMonotonicTimeOffset, payloadLengthOffset]
  cases metadata
  simp only [RecordMetadata.mk.injEq, and_assoc, eq_comm]

theorem checkedEncodedLength_eq_ok {header payloadLength length : Nat} :
    checkedEncodedLength header payloadLength = .ok length ↔
      payloadLength ≤ maxPayloadLength ∧ length = header + payloadLength + checksumLength := by
  simp only [checkedEncodedLength, bind_eq_ok, reject_eq_ok, pure_eq_ok, not_lt, exists_and_left,
    exists_const]
  exact and_congr_right fun _ => eq_comm

theorem decodeLegacyHeader_take (h : legacyHeaderLength ≤ n) :
    decodeLegacyHeader (bytes.take n) = decodeLegacyHeader bytes := by
  have hlen : (bytes.take n).length < legacyHeaderLength ↔ bytes.length < legacyHeaderLength := by
    rw [length_take]
    omega
  have hmagic : (bytes.take n).take magic.length = bytes.take magic.length := by
    rw [take_take, Nat.min_eq_left (h.trans' (by decide))]
  unfold decodeLegacyHeader
  simp only [hlen, hmagic,
    readU16_take (h.trans' (show magic.length + 2 ≤ legacyHeaderLength by decide)),
    readU32_take (h.trans' (show prefixLength + 4 ≤ legacyHeaderLength by decide))]

/-! ## What was encoded is decoded -/

section Codec

variable [Crc32c]

@[simp] theorem checksummed_length (bytes : Bytes) :
    (checksummed bytes).length = bytes.length + 4 := by
  simp [checksummed]

theorem encode_eq_ok :
    encode metadata payload = .ok frame ↔
      metadata.flags = supportedFlags ∧ payload.length ≤ maxPayloadLength ∧
      frame = checksummed (checksummed (headerBody metadata (UInt32.ofNat payload.length)) ++
        payload) := by
  simp only [encode, bind_eq_ok, reject_eq_ok, pure_eq_ok, not_not, not_lt, ne_eq]
  constructor
  · rintro ⟨_, hflags, _, hlength, rfl⟩
    exact ⟨hflags, hlength, rfl⟩
  · rintro ⟨hflags, hlength, rfl⟩
    exact ⟨(), hflags, (), hlength, rfl⟩

theorem encode_length
    (h : encode metadata payload = .ok frame) : frame.length = 64 + payload.length := by
  rw [(encode_eq_ok.mp h).2.2]
  simp
  omega

theorem holdsAt_checksummed {offset : Nat} {covered : Bytes} :
    HoldsAt bytes offset (checksummed covered) ↔ HoldsAt bytes offset covered ∧
      offset + covered.length + checksumLength ≤ bytes.length ∧
      readU32 bytes (offset + covered.length) = crc32c covered := by
  rw [checksummed, holdsAt_append, holdsAt_u32be, checksumLength]

/-- What the header decoder accepts is a header with its checksum. -/
theorem decodeV2Header_eq_ok {length : Nat} :
    decodeV2Header bytes = .ok (metadata, length) ↔ metadata.flags = supportedFlags ∧
      length ≤ maxPayloadLength ∧
      HoldsAt bytes 0 (checksummed (headerBody metadata (UInt32.ofNat length))) := by
  have htake (h : HoldsAt bytes 0 (headerBody metadata (UInt32.ofNat length))) :
      bytes.take headerChecksumOffset = headerBody metadata (UInt32.ofNat length) := h.2
  simp only [decodeV2Header, bind_eq_ok, reject_eq_ok, pure_eq_ok, not_lt, ne_eq, not_not,
    Prod.mk.injEq, exists_const, holdsAt_checksummed, headerBody_length, Nat.zero_add]
  constructor
  · rintro ⟨hlength, hmagic, hversion, hheader, hflags, hpayload, hchecksum, rfl, rfl⟩
    have hbody := (holdsAt_headerBody hlength).mpr ⟨hmagic, hversion,
      by rw [← hheader, UInt16.ofNat_toNat], rfl, UInt32.ofNat_toNat.symm⟩
    exact ⟨hflags, hpayload, hbody, hlength, by rw [← htake hbody]; exact hchecksum.symm⟩
  · rintro ⟨hflags, hpayload, hbody, hlength, hchecksum⟩
    obtain ⟨hmagic, hversion, hheader, rfl, hcount⟩ := (holdsAt_headerBody hlength).mp hbody
    have hpayloadLength : (readU32 bytes payloadLengthOffset).toNat = length := by
      rw [hcount, UInt32.toNat_ofNat_of_lt' (lt_of_le_of_lt hpayload (by decide))]
    exact ⟨hlength, hmagic, hversion, by rw [hheader]; rfl, hflags, hpayloadLength ▸ hpayload,
      by rw [htake hbody]; exact hchecksum.symm, rfl, hpayloadLength⟩

/-- What the decoder of the current format accepts starts with an encoded frame. -/
theorem decodeV2_eq_ok :
    decodeV2 bytes = .ok decoded ↔ ∃ metadata payload frame, encode metadata payload = .ok frame ∧
      HoldsAt bytes 0 frame ∧ decoded = ⟨.v2, some metadata, payload, frame.length⟩ := by
  have hheaderLength (metadata : RecordMetadata) (length : UInt32) :
      (checksummed (headerBody metadata length)).length = headerLength := by simp [headerLength]
  simp only [decodeV2, bind_eq_ok, reject_eq_ok, pure_eq_ok, checkedEncodedLength_eq_ok,
    not_lt, ne_eq, not_not, Prod.exists, decodeV2Header_eq_ok]
  constructor
  · rintro ⟨metadata, length, ⟨hflags, -, hheader⟩, _, ⟨hmax, rfl⟩, _, hlength, _, hchecksum, rfl⟩
    have hpayload : (slice bytes headerLength length).length = length := slice_length (by omega)
    have hcovered : HoldsAt bytes 0 (checksummed (headerBody metadata (UInt32.ofNat length)) ++
        slice bytes headerLength length) := by
      rw [holdsAt_append, Nat.zero_add, hheaderLength]
      exact ⟨hheader, holdsAt_slice (by omega)⟩
    have htake := hcovered.2
    rw [length_append, hheaderLength, hpayload] at htake
    refine ⟨metadata, slice bytes headerLength length, _,
      encode_eq_ok.mpr ⟨hflags, hpayload.trans_le hmax, rfl⟩, ?_, ?_⟩
    · rw [hpayload, holdsAt_checksummed, length_append, hheaderLength, hpayload, Nat.zero_add,
        ← htake]
      exact ⟨htake ▸ hcovered, hlength, hchecksum.symm⟩
    · rw [checksummed_length, length_append, hheaderLength, hpayload]
      rfl
  · rintro ⟨metadata, payload, frame, hencode, hat, rfl⟩
    obtain ⟨hflags, hmax, rfl⟩ := encode_eq_ok.mp hencode
    obtain ⟨hcovered, hlength, hchecksum⟩ := holdsAt_checksummed.mp hat
    have htake := hcovered.2
    obtain ⟨hheader, hpayload⟩ := holdsAt_append.mp hcovered
    rw [length_append, hheaderLength, Nat.zero_add] at hlength hchecksum
    rw [length_append, hheaderLength] at htake
    rw [Nat.zero_add, hheaderLength] at hpayload
    refine ⟨metadata, payload.length, ⟨hflags, hmax, hheader⟩, _, ⟨hmax, rfl⟩, (), hlength,
      (), ?_, ?_⟩
    · rw [hchecksum, ← htake]
      rfl
    · rw [hpayload.2, checksummed_length, length_append, hheaderLength]
      rfl

theorem decodeLegacy_eq_ok :
    decodeLegacy bytes = .ok decoded ↔
      ∃ length, length = (readU32 bytes prefixLength).toNat ∧ length ≤ maxPayloadLength ∧
        legacyHeaderLength + length + checksumLength ≤ bytes.length ∧
        crc32c (slice bytes legacyHeaderLength length) =
          readU32 bytes (legacyHeaderLength + length) ∧
        decoded = ⟨.legacyV1, none, slice bytes legacyHeaderLength length,
          legacyHeaderLength + length + checksumLength⟩ := by
  simp only [decodeLegacy, bind_eq_ok, reject_eq_ok, pure_eq_ok, checkedEncodedLength_eq_ok,
    not_lt, ne_eq, not_not]
  constructor
  · rintro ⟨_, _, _, ⟨hmax, rfl⟩, _, hlength, _, hchecksum, rfl⟩
    exact ⟨_, rfl, hmax, hlength, hchecksum, rfl⟩
  · rintro ⟨_, rfl, hmax, hlength, hchecksum, rfl⟩
    exact ⟨(), by omega, _, ⟨hmax, rfl⟩, (), hlength, (), hchecksum, rfl⟩

/-- A frame starts with the magic and its version selects the decoder. -/
theorem decode_eq_ok :
    decode bytes = .ok decoded ↔
      prefixLength ≤ bytes.length ∧ bytes.take magic.length = magic ∧
        (readU16 bytes magic.length = legacySchemaVersion ∧ decodeLegacy bytes = .ok decoded ∨
          readU16 bytes magic.length = schemaVersion ∧ decodeV2 bytes = .ok decoded) := by
  simp only [decode, bind_eq_ok, reject_eq_ok, not_lt, ne_eq, not_not, exists_and_left,
    exists_const]
  refine and_congr_right fun _ => and_congr_right fun _ => ?_
  split_ifs with hlegacy hcurrent
  · simp [hlegacy, legacySchemaVersion, schemaVersion]
  · simp [hcurrent, legacySchemaVersion, schemaVersion]
  · simp [hlegacy, hcurrent]

/-- An encoded frame decodes to its record, whatever follows it. -/
theorem decode_encode (h : encode metadata payload = .ok frame) (rest : Bytes) :
    decode (frame ++ rest) = .ok ⟨.v2, some metadata, payload, frame.length⟩ := by
  have hat : HoldsAt (frame ++ rest) 0 frame := holdsAt_zero.mpr ⟨rest, rfl⟩
  have hlength : headerLength ≤ (frame ++ rest).length := by
    rw [length_append, encode_length h, headerLength]
    omega
  obtain ⟨-, -, hframe⟩ := encode_eq_ok.mp h
  have hbody := hat
  rw [hframe, holdsAt_checksummed, holdsAt_append, holdsAt_checksummed, ← hframe] at hbody
  obtain ⟨hmagic, hversion, -⟩ := (holdsAt_headerBody hlength).mp hbody.1.1.1
  exact decode_eq_ok.mpr ⟨hlength.trans' (by decide), hmagic, .inr ⟨hversion,
    decodeV2_eq_ok.mpr ⟨metadata, payload, frame, h, hat, rfl⟩⟩⟩

/-! ## A decoder reads what it declares -/

theorem decodeV2Header_take (h : headerLength ≤ n) :
    decodeV2Header (bytes.take n) = decodeV2Header bytes := by
  have hlen : (bytes.take n).length < headerLength ↔ bytes.length < headerLength := by
    rw [length_take]
    omega
  have hmin (k : Nat) (hk : k ≤ 60) : (bytes.take n).take k = bytes.take k := by
    rw [take_take, Nat.min_eq_left (hk.trans h)]
  unfold decodeV2Header
  simp only [hlen]
  simp only [hmin magic.length (by decide), hmin headerChecksumOffset (by decide),
    readU16_take (h.trans' (show magic.length + 2 ≤ headerLength by decide)),
    readU16_take (h.trans' (show headerLengthOffset + 2 ≤ headerLength by decide)),
    readU32_take (h.trans' (show flagsOffset + 4 ≤ headerLength by decide)),
    readU32_take (h.trans' (show payloadLengthOffset + 4 ≤ headerLength by decide)),
    readU32_take (h.trans' (show headerChecksumOffset + 4 ≤ headerLength by decide)),
    readU32_take (h.trans' (show streamIdOffset + 4 ≤ headerLength by decide)),
    readU64_take (h.trans' (show connectionEpochOffset + 8 ≤ headerLength by decide)),
    readU64_take (h.trans' (show recordSequenceOffset + 8 ≤ headerLength by decide)),
    readI64_take (h.trans' (show receiveWallTimeOffset + 8 ≤ headerLength by decide)),
    readU64_take (h.trans' (show receiveMonotonicTimeOffset + 8 ≤ headerLength by decide))]

theorem decodeV2_take (h : decoded.encodedLength ≤ n) :
    decodeV2 (bytes.take n) = .ok decoded ↔ decodeV2 bytes = .ok decoded := by
  rw [decodeV2_eq_ok, decodeV2_eq_ok]
  refine exists_congr fun metadata => exists_congr fun payload => exists_congr fun frame =>
    and_congr_right fun _ => and_congr_left fun hdecoded => holdsAt_take ?_
  rw [hdecoded] at h
  rwa [Nat.zero_add]

theorem decodeLegacy_take (h : decoded.encodedLength ≤ n) :
    decodeLegacy (bytes.take n) = .ok decoded ↔ decodeLegacy bytes = .ok decoded := by
  rw [decodeLegacy_eq_ok, decodeLegacy_eq_ok]
  refine exists_congr fun length => ?_
  by_cases hn : legacyHeaderLength + length + checksumLength ≤ n
  · have hstart : prefixLength + 4 ≤ n :=
      (show prefixLength + 4 ≤ legacyHeaderLength by decide).trans (by omega)
    rw [readU32_take hstart, length_take, le_min_iff, slice_take (by omega),
      readU32_take (by simp only [checksumLength] at hn; omega)]
    simp only [hn, true_and]
  · constructor <;> rintro ⟨-, -, -, -, rfl⟩ <;> exact absurd h hn

theorem decode_length (h : decode bytes = .ok decoded) :
    decoded.encodedLength ≤ bytes.length ∧
      decoded.format.headerLength + checksumLength ≤ decoded.encodedLength := by
  obtain ⟨-, -, ⟨-, hdecode⟩ | ⟨-, hdecode⟩⟩ := decode_eq_ok.mp h
  · obtain ⟨length, -, -, hlength, -, rfl⟩ := decodeLegacy_eq_ok.mp hdecode
    exact ⟨hlength, Nat.add_le_add_right (Nat.le_add_right _ _) _⟩
  · obtain ⟨metadata, payload, frame, hencode, hat, rfl⟩ := decodeV2_eq_ok.mp hdecode
    refine ⟨by simpa using hat.1, ?_⟩
    rw [encode_length hencode]
    exact Nat.le_add_right 64 _

theorem decode_minimum (h : decode bytes = .ok decoded) :
    18 ≤ decoded.encodedLength := by
  have hlength := (decode_length h).2
  have hformat : 18 ≤ decoded.format.headerLength + checksumLength := by
    cases decoded.format <;> decide
  omega

/-- A decoder reads no further than the length it reports. -/
theorem decode_take (h : decoded.encodedLength ≤ n) :
    decode (bytes.take n) = .ok decoded ↔ decode bytes = .ok decoded := by
  by_cases hn : 18 ≤ n
  · rw [decode_eq_ok, decode_eq_ok, decodeV2_take h, decodeLegacy_take h, take_take,
      Nat.min_eq_left (hn.trans' (show magic.length ≤ 18 by decide)), length_take, le_min_iff,
      readU16_take (hn.trans' (show magic.length + 2 ≤ 18 by decide))]
    simp only [hn.trans' (show prefixLength ≤ 18 by decide), true_and]
  · constructor <;> intro hdecode <;> have := decode_minimum hdecode <;> omega

theorem decode_append (h : decode bytes = .ok decoded)
    (rest : Bytes) : decode (bytes ++ rest) = .ok decoded := by
  rw [← decode_take (decode_length h).1, take_left]
  exact h

theorem declaredPayloadLength_take {format : WalFormat} (h : format.headerLength ≤ n) :
    declaredPayloadLength format (bytes.take n) = declaredPayloadLength format bytes := by
  cases format with
  | legacyV1 => exact decodeLegacyHeader_take h
  | v2 =>
    rw [declaredPayloadLength, declaredPayloadLength, decodeV2Header_take h]

/-- The header of a frame declares its payload. -/
theorem decodeV2Header_of_holdsAt (h : encode metadata payload = .ok frame)
    (hat : HoldsAt bytes 0 frame) : decodeV2Header bytes = .ok (metadata, payload.length) := by
  obtain ⟨hflags, hmax, rfl⟩ := encode_eq_ok.mp h
  rw [holdsAt_checksummed, holdsAt_append] at hat
  exact decodeV2Header_eq_ok.mpr ⟨hflags, hmax, hat.1.1⟩

theorem encode_declared (h : encode metadata payload = .ok frame) :
    frame.length = WalFormat.v2.headerLength + payload.length + checksumLength := by
  rw [encode_length h, WalFormat.headerLength, headerLength, checksumLength]
  omega

/-- The decoder and the header agree on the format and the length of a frame. -/
theorem decode_of_declared {format : WalFormat} {length : Nat}
    (hdeclared : declaredPayloadLength format bytes = .ok length)
    (hversion : readU16 bytes magic.length = format.version) (h : decode bytes = .ok decoded) :
    decoded.format = format ∧
      decoded.encodedLength = format.headerLength + length + checksumLength := by
  obtain ⟨-, -, ⟨hlegacy, hdecode⟩ | ⟨hcurrent, hdecode⟩⟩ := decode_eq_ok.mp h
  · cases format with
    | v2 => exact absurd (hversion.symm.trans hlegacy) (by decide)
    | legacyV1 =>
      obtain ⟨_, rfl, -, -, -, rfl⟩ := decodeLegacy_eq_ok.mp hdecode
      simp only [declaredPayloadLength, decodeLegacyHeader, bind_eq_ok, pure_eq_ok] at hdeclared
      obtain ⟨_, -, _, -, _, -, _, -, rfl⟩ := hdeclared
      exact ⟨rfl, rfl⟩
  · cases format with
    | legacyV1 => exact absurd (hversion.symm.trans hcurrent) (by decide)
    | v2 =>
      obtain ⟨metadata, payload, frame, hencode, hat, rfl⟩ := decodeV2_eq_ok.mp hdecode
      rw [declaredPayloadLength, decodeV2Header_of_holdsAt hencode hat] at hdeclared
      obtain rfl := Except.ok.inj hdeclared
      exact ⟨rfl, encode_declared hencode⟩

/-- A decodable frame has a header that declares its length. -/
theorem declared_of_decode (h : decode bytes = .ok decoded) :
    readU16 bytes magic.length = decoded.format.version ∧ ∃ length,
      declaredPayloadLength decoded.format bytes = .ok length ∧
      decoded.encodedLength = decoded.format.headerLength + length + checksumLength := by
  obtain ⟨-, hmagic, ⟨hversion, hdecode⟩ | ⟨hversion, hdecode⟩⟩ := decode_eq_ok.mp h
  · obtain ⟨_, rfl, hmax, hlength, -, rfl⟩ := decodeLegacy_eq_ok.mp hdecode
    refine ⟨hversion, _, ?_, rfl⟩
    simp only [declaredPayloadLength, decodeLegacyHeader, bind_eq_ok, reject_eq_ok, pure_eq_ok,
      not_lt, ne_eq, not_not]
    exact ⟨(), by omega, (), hmagic, (), hversion, (), hmax, trivial⟩
  · obtain ⟨metadata, payload, frame, hencode, hat, rfl⟩ := decodeV2_eq_ok.mp hdecode
    refine ⟨hversion, payload.length, ?_, encode_declared hencode⟩
    rw [declaredPayloadLength, decodeV2Header_of_holdsAt hencode hat]
    rfl

/-! ## What was decoded is encoded -/

/-- A decoded frame of the current format is the encoding of what was decoded from it. -/
theorem encode_of_decode (h : decode bytes = .ok decoded) (hformat : decoded.format = .v2) :
    ∃ metadata, decoded.metadata = some metadata ∧
      encode metadata decoded.payload = .ok (bytes.take decoded.encodedLength) := by
  obtain ⟨-, -, ⟨-, hdecode⟩ | ⟨-, hdecode⟩⟩ := decode_eq_ok.mp h
  · obtain ⟨length, -, -, -, -, rfl⟩ := decodeLegacy_eq_ok.mp hdecode
    cases hformat
  · obtain ⟨metadata, payload, frame, hencode, hat, rfl⟩ := decodeV2_eq_ok.mp hdecode
    exact ⟨metadata, rfl, hencode.trans (congrArg _ hat.2.symm)⟩

/-- No proper prefix of an encoded frame is a frame. -/
theorem decode_take_lt (h : encode metadata payload = .ok frame) (hn : n < frame.length)
    (decoded : DecodedFrame) : decode (frame.take n) ≠ .ok decoded := by
  intro hdecode
  have hwhole := decode_append hdecode (frame.drop n)
  have hframe := decode_encode h []
  rw [append_nil] at hframe
  rw [take_append_drop, hframe] at hwhole
  cases hwhole
  have hlength := (decode_length hdecode).1
  rw [length_take] at hlength
  dsimp only at hlength
  omega

/-! ## Partial headers -/

/-- Every nonempty proper prefix of a header passes the tail check. -/
theorem isValidPartialHeaderPrefix_take
    (hflags : metadata.flags = supportedFlags) (length : UInt32) (rest : Bytes)
    (hn : 0 < n) (hlt : n < headerLength) :
    isValidPartialHeaderPrefix ((checksummed (headerBody metadata length) ++ rest).take n) =
      true := by
  have himmutable : checksummed (headerBody metadata length) ++ rest =
      immutablePrefix ++ (u32be metadata.streamId ++ u64be metadata.connectionEpoch ++
        u64be metadata.recordSequence ++ i64be metadata.receiveWallTimeNs ++
        u64be metadata.receiveMonotonicTimeNs ++ u32be length ++
        u32be (crc32c (headerBody metadata length)) ++ rest) := by
    rw [checksummed]
    nth_rewrite 1 [headerBody]
    rw [hflags, immutablePrefix]
    simp only [append_assoc]
  have hlength : ((checksummed (headerBody metadata length) ++ rest).take n).length = n := by
    rw [length_take, length_append, checksummed_length, headerBody_length]
    simp only [headerLength] at hlt
    omega
  have hnonempty : ((checksummed (headerBody metadata length) ++ rest).take n).isEmpty = false := by
    rw [isEmpty_eq_false_iff, ← length_pos_iff, hlength]
    exact hn
  rw [isValidPartialHeaderPrefix, hnonempty, hlength, himmutable]
  have hstart (rest : Bytes) : ((immutablePrefix ++ rest).take n).take immutablePrefix.length =
      immutablePrefix.take n := by
    rw [take_take, Nat.min_comm, ← take_take, take_left]
  rw [hstart]
  simp [hlt]

/-! ## The codec -/

/-- The frame codec is an inverse pair: what is encoded has the predicted length, is decoded
    whatever follows it and has no proper prefix that decodes; what is decoded in the current format
    is the encoding of the record. -/
theorem frame_codec :
    (∀ (metadata : RecordMetadata) (payload : Bytes), metadata.flags = 0 →
      payload.length ≤ maxPayloadLength → ∃ frame, encode metadata payload = .ok frame ∧
        encodedLength metadata payload.length = .ok frame.length ∧
        (∀ rest, decode (frame ++ rest) = .ok ⟨.v2, some metadata, payload, frame.length⟩) ∧
        ∀ n < frame.length, ∀ decoded, decode (frame.take n) ≠ .ok decoded) ∧
    ∀ (bytes : Bytes) (decoded : DecodedFrame), decode bytes = .ok decoded → decoded.format = .v2 →
      ∃ metadata, decoded.metadata = some metadata ∧
        encode metadata decoded.payload = .ok (bytes.take decoded.encodedLength) := by
  refine ⟨?_, fun bytes decoded => encode_of_decode⟩
  intro metadata payload hflags hpayload
  have hsupported : metadata.flags = supportedFlags := hflags
  have hencode := encode_eq_ok.mpr ⟨hsupported, hpayload, rfl⟩
  refine ⟨_, hencode, ?_, decode_encode hencode, fun n hn => decode_take_lt hencode hn⟩
  rw [encodedLength, reject_neg (not_not.mpr hsupported), ok_bind, checkedEncodedLength_eq_ok,
    encode_length hencode]
  refine ⟨hpayload, ?_⟩
  rw [headerLength, checksumLength]
  omega

end Codec

open Castagnoli

/-- A record of stream seven with three bytes, in front of another magic. -/
theorem record_framed :
    ∃ frame, encode ⟨0, 7, 1, 1, -1, 0⟩ [0x61, 0x62, 0x63] = .ok frame ∧ frame.length = 67 ∧
      decode (frame ++ magic) = .ok ⟨.v2, some ⟨0, 7, 1, 1, -1, 0⟩, [0x61, 0x62, 0x63], 67⟩ := by
  obtain ⟨frame, hencode, -, hdecode, -⟩ :=
    frame_codec.1 ⟨0, 7, 1, 1, -1, 0⟩ [0x61, 0x62, 0x63] rfl (by decide)
  have hlength : frame.length = 67 := encode_length hencode
  exact ⟨frame, hencode, hlength, hlength ▸ hdecode magic⟩

end Frame

end CryptoIntelligence.Wal
