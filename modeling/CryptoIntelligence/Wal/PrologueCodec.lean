/-
  The other half of the prologue codec (`raw-wal/src/prologue.rs`): `encode` with the checks it
  makes, and `decode` with the bounds check of every range it indexes.

  What is proved: no check of the encoder fails (`encodeChecked_eq`), what is decoded is the
  encoding of its metadata (`encode_of_decode`), and no range the decoder indexes is out of bounds,
  whatever lengths the header declares (`decodeIndexed_eq`).
-/
import CryptoIntelligence.Lib.Indexed
import CryptoIntelligence.Wal.Prologue

namespace CryptoIntelligence.Wal.Prologue

open Lib Lib.Crc32c

/-! ## The checks of the encoder -/

/-- `push_length`. -/
def pushLength (length : Nat) : Except PrologueError Bytes := do
  reject (65535 < length) .headerTooLarge
  return u16be (UInt16.ofNat length)

def encodeStream (stream : StreamDescriptor) : Except PrologueError Bytes := do
  let sourceLength ← pushLength stream.sourceName.bytes.length
  let streamLength ← pushLength stream.streamName.bytes.length
  return u32be stream.streamId ++ sourceLength ++ streamLength ++ stream.sourceName.bytes
    ++ stream.streamName.bytes

def checkedEncodedLength (metadata : SegmentMetadata) : Except PrologueError Nat := do
  reject (metadata.headerLength > maxHeaderLength) .headerTooLarge
  return metadata.headerLength

def encodeChecked [Crc32c] (metadata : SegmentMetadata) : Except PrologueError Bytes := do
  let headerLength ← checkedEncodedLength metadata
  let headerField ← pushLength headerLength
  reject (65535 < metadata.streams.length) (.tooManyStreams metadata.streams.length maxStreams)
  let schemaLength ← pushLength metadata.schemaId.bytes.length
  let installationLength ← pushLength metadata.installationId.bytes.length
  let buildLength ← pushLength metadata.buildId.bytes.length
  let streams ← metadata.streams.mapM encodeStream
  let encoded := magic ++ u16be formatVersion ++ headerField ++ u32be supportedFlags
    ++ metadata.segmentId.toList ++ i64be metadata.createdWallTimeNs ++ schemaLength
    ++ installationLength ++ buildLength ++ u16be (UInt16.ofNat metadata.streams.length)
    ++ metadata.schemaId.bytes ++ metadata.installationId.bytes ++ metadata.buildId.bytes
    ++ streams.flatten
  return encoded ++ u32be (crc32c encoded)

theorem pushLength_of_le {length : Nat} (h : length ≤ 65535) :
    pushLength length = .ok (u16be (UInt16.ofNat length)) := by
  rw [pushLength, reject_neg (Nat.not_lt.mpr h)]
  rfl

theorem pushLength_identifier (identifier : Identifier) :
    pushLength identifier.bytes.length = .ok (u16be (UInt16.ofNat identifier.bytes.length)) :=
  pushLength_of_le (identifier.short.trans (by decide))

/-- The types of the metadata make every check of the encoder pass. -/
theorem encodeChecked_eq [Crc32c] (metadata : SegmentMetadata) :
    checkedEncodedLength metadata = .ok metadata.headerLength ∧
      encodeChecked metadata = .ok (encode metadata) := by
  have hfits : metadata.headerLength ≤ maxHeaderLength := (headerLength_bounds metadata).2
  have hlength : checkedEncodedLength metadata = .ok metadata.headerLength := by
    rw [checkedEncodedLength, reject_neg (Nat.not_lt.mpr hfits)]
    rfl
  have hcount : ¬ 65535 < metadata.streams.length :=
    Nat.not_lt.mpr (metadata.streamed.2.trans (by decide))
  have hstream : ∀ stream ∈ metadata.streams, encodeStream stream = .ok stream.bytes := by
    intro stream _
    rw [encodeStream, pushLength_identifier, pushLength_identifier]
    rfl
  refine ⟨hlength, ?_⟩
  rw [encodeChecked, hlength, ok_bind, pushLength_of_le hfits, ok_bind, reject_neg hcount, ok_bind,
    pushLength_identifier, ok_bind, pushLength_identifier, ok_bind, pushLength_identifier, ok_bind,
    mapM_eq_ok hstream, ok_bind]
  rfl

/-! ## What was decoded is encoded -/

variable {bytes : Bytes} {limit : Nat} {decoded : DecodedPrologue}

/-- What is decoded is the encoding of its metadata. -/
theorem encode_of_decode [Crc32c] (h : decode bytes = .ok decoded) :
    encode decoded.metadata = bytes.take decoded.encodedLength := by
  obtain ⟨hlength, -, htake⟩ := decode_eq_ok.mp h
  rw [hlength, ← encode_length]
  exact htake.symm

/-- Bytes that decode begin with the encoding of what they decode to. -/
theorem eq_encode_append_of_decode [Crc32c] (h : decode bytes = .ok decoded) :
    decoded.encodedLength = decoded.metadata.headerLength ∧
      ∃ rest, bytes = encode decoded.metadata ++ rest :=
  ⟨(decode_eq_ok.mp h).1, holdsAt_zero.mp (decode_eq_ok.mp h).2⟩

/-! ## The ranges the decoder indexes -/

def readIdentifierIndexed (bytes : Bytes) (limit cursor length : Nat) :
    Except (Fault PrologueError) (Bytes × Nat) := do
  returning (reject (length > maxIdentifierLength)
    (.identifierTooLong "encoded_identifier" length maxIdentifierLength))
  returning (reject (cursor + length > limit)
    (.invalidHeaderLength (UInt16.ofNat (min (limit + checksumLength) 65535))))
  let value ← index bytes cursor (cursor + length)
  returning (reject (isUtf8 value = false) .invalidUtf8)
  return (value, cursor + length)

def readStreamsIndexed (bytes : Bytes) (headerLength : UInt16) (limit : Nat) :
    Nat → Nat → List StreamDescriptor →
      Except (Fault PrologueError) (List StreamDescriptor × Nat)
  | 0, cursor, streams => .ok (streams, cursor)
  | count + 1, cursor, streams => do
    let fixedEnd := cursor + streamFixedLength
    returning (reject (fixedEnd > limit) (.invalidHeaderLength headerLength))
    let streamId ← indexU32 bytes cursor
    let sourceLength ← indexU16 bytes (cursor + 4)
    let streamLength ← indexU16 bytes (cursor + 4 + 2)
    let (sourceName, cursor) ← readIdentifierIndexed bytes limit fixedEnd sourceLength.toNat
    let (streamName, cursor) ← readIdentifierIndexed bytes limit cursor streamLength.toNat
    returning (reject (streamId ∈ streams.map (·.streamId)) (.duplicateStreamId streamId))
    let stream ← returning (StreamDescriptor.new streamId sourceName streamName)
    readStreamsIndexed bytes headerLength limit count cursor (streams ++ [stream])

def checkedHeaderLengthIndexed (bytes : Bytes) : Except (Fault PrologueError) UInt16 := do
  let start ← index bytes 0 (0 + magic.length)
  returning (reject (start ≠ magic) .invalidMagic)
  let version ← indexU16 bytes 8
  returning (reject (version ≠ formatVersion) (.unsupportedVersion version))
  let headerLength ← indexU16 bytes 10
  returning (reject (¬ (fixedHeaderLength + checksumLength ≤ headerLength.toNat
    ∧ headerLength.toNat ≤ maxHeaderLength)) (.invalidHeaderLength headerLength))
  return headerLength

/-- `decode` with every range checked where it is indexed. -/
def decodeIndexed [Crc32c] (bytes : Bytes) : Except (Fault PrologueError) DecodedPrologue := do
  returning (reject (bytes.length < fixedHeaderLength) .incomplete)
  let headerLength ← checkedHeaderLengthIndexed bytes
  let flags ← indexU32 bytes 12
  returning (reject (flags ≠ supportedFlags) (.unsupportedFlags flags))
  returning (reject (bytes.length < headerLength.toNat) .incomplete)
  let checksumOffset := headerLength.toNat - checksumLength
  let expected ← indexU32 bytes checksumOffset
  let covered ← index bytes 0 (0 + checksumOffset)
  returning (reject (crc32c covered ≠ expected) .checksumMismatch)
  let segmentId ← indexVector bytes 16 16
  let createdWallTimeNs ← indexI64 bytes 32
  let schemaLength ← indexU16 bytes 40
  let installationLength ← indexU16 bytes 42
  let buildLength ← indexU16 bytes 44
  let streamCount ← indexU16 bytes 46
  returning (reject (streamCount.toNat > maxStreams)
    (.tooManyStreams streamCount.toNat maxStreams))
  let (schemaId, cursor) ←
    readIdentifierIndexed bytes checksumOffset fixedHeaderLength schemaLength.toNat
  let (installationId, cursor) ←
    readIdentifierIndexed bytes checksumOffset cursor installationLength.toNat
  let (buildId, cursor) ← readIdentifierIndexed bytes checksumOffset cursor buildLength.toNat
  let (streams, cursor) ←
    readStreamsIndexed bytes headerLength checksumOffset streamCount.toNat cursor []
  returning (reject ((streams.zip streams.tail).any fun pair =>
    decide (pair.2.streamId < pair.1.streamId)) .nonCanonicalStreamOrder)
  returning (reject (cursor ≠ checksumOffset) (.invalidHeaderLength headerLength))
  let metadata ← returning
    (SegmentMetadata.new segmentId createdWallTimeNs schemaId installationId buildId streams)
  return ⟨metadata, headerLength.toNat⟩

/-- An identifier is indexed up to the limit, which is inside the bytes. -/
theorem readIdentifierIndexed_eq (hlimit : limit ≤ bytes.length) (cursor length : Nat) :
    readIdentifierIndexed bytes limit cursor length =
      returning (readIdentifier bytes limit cursor length) := by
  refine returning_bind fun _ _ => returning_bind fun _ hend => ?_
  rw [reject_eq_ok, gt_iff_lt, not_lt] at hend
  rw [index_inside (hend.trans hlimit), ok_bind]
  exact returning_bind fun _ _ => rfl

theorem readStreamsIndexed_eq (hlimit : limit ≤ bytes.length)
    (headerLength : UInt16) (count cursor : Nat) (streams : List StreamDescriptor) :
    readStreamsIndexed bytes headerLength limit count cursor streams =
      returning (readStreams bytes headerLength limit count cursor streams) := by
  induction count generalizing cursor streams with
  | zero => rfl
  | succ count ih =>
    refine returning_bind fun _ hend => ?_
    rw [reject_eq_ok, gt_iff_lt, not_lt, streamFixedLength] at hend
    rw [indexU32_inside (by omega), ok_bind, indexU16_inside (by omega), ok_bind,
      indexU16_inside (by omega), ok_bind, readIdentifierIndexed_eq hlimit]
    refine returning_bind ?_
    rintro ⟨_, _⟩ _
    dsimp only
    rw [readIdentifierIndexed_eq hlimit]
    refine returning_bind ?_
    rintro ⟨_, _⟩ _
    refine returning_bind fun _ _ => returning_bind fun _ _ => ?_
    exact ih _ _

theorem checkedHeaderLengthIndexed_eq (h : 12 ≤ bytes.length) :
    checkedHeaderLengthIndexed bytes = returning (checkedHeaderLength bytes) := by
  have hmagic : magic.length = 8 := rfl
  rw [checkedHeaderLengthIndexed, index_inside (by omega), ok_bind]
  refine returning_bind fun _ _ => ?_
  rw [indexU16_inside (by omega), ok_bind]
  refine returning_bind fun _ _ => ?_
  rw [indexU16_inside (by omega), ok_bind]
  exact returning_bind fun _ _ => rfl

/-- Every range the decoder indexes is inside the bytes: it returns what `decode` returns. -/
theorem decodeIndexed_eq [Crc32c] (bytes : Bytes) :
    decodeIndexed bytes = returning (decode bytes) := by
  refine returning_bind fun _ hfixed => ?_
  rw [reject_eq_ok, not_lt, fixedHeaderLength] at hfixed
  rw [checkedHeaderLengthIndexed_eq (by omega)]
  refine returning_bind fun headerLength hheader => ?_
  have hmin := (checkedHeaderLength_eq_ok.mp hheader).2.2.2.1
  rw [fixedHeaderLength, checksumLength] at hmin
  rw [indexU32_inside (by omega), ok_bind]
  refine returning_bind fun _ _ => returning_bind fun _ hlength => ?_
  rw [reject_eq_ok, not_lt] at hlength
  have hlimit : headerLength.toNat - checksumLength + 4 ≤ bytes.length := by
    rw [checksumLength]
    omega
  dsimp only
  rw [indexU32_inside hlimit, ok_bind, index_inside (by omega), ok_bind]
  refine returning_bind fun _ _ => ?_
  rw [indexVector_inside (by omega), ok_bind, indexI64_inside (by omega), ok_bind,
    indexU16_inside (by omega), ok_bind, indexU16_inside (by omega), ok_bind,
    indexU16_inside (by omega), ok_bind, indexU16_inside (by omega), ok_bind]
  have hinside : headerLength.toNat - checksumLength ≤ bytes.length := by omega
  refine returning_bind fun _ _ => ?_
  rw [readIdentifierIndexed_eq hinside]
  refine returning_bind ?_
  rintro ⟨_, _⟩ _
  dsimp only
  rw [readIdentifierIndexed_eq hinside]
  refine returning_bind ?_
  rintro ⟨_, _⟩ _
  dsimp only
  rw [readIdentifierIndexed_eq hinside]
  refine returning_bind ?_
  rintro ⟨_, _⟩ _
  dsimp only
  rw [readStreamsIndexed_eq hinside]
  refine returning_bind ?_
  rintro ⟨_, _⟩ _
  refine returning_bind fun _ _ => returning_bind fun _ _ => ?_
  exact returning_bind fun _ _ => rfl

/-! ## The codec -/

/-- The prologue codec is an inverse pair, and its decoder stays inside its input: metadata is
    encoded at its predicted length and decoded whatever follows, accepted bytes start with the
    encoding of their metadata, and no range indexed on the way is out of bounds. -/
theorem prologue_codec [Crc32c] :
    (∀ (metadata : SegmentMetadata) (rest : Bytes), ∃ encoded,
      encodeChecked metadata = .ok encoded ∧
        checkedEncodedLength metadata = .ok encoded.length ∧
        decode (encoded ++ rest) = .ok ⟨metadata, encoded.length⟩) ∧
    (∀ (bytes : Bytes) (decoded : DecodedPrologue), decode bytes = .ok decoded →
      encodeChecked decoded.metadata = .ok (bytes.take decoded.encodedLength)) ∧
    ∀ bytes : Bytes, decodeIndexed bytes = returning (decode bytes) ∧
      decodeIndexed bytes ≠ .error .outOfBounds := by
  refine ⟨?_, ?_, ?_⟩
  · intro metadata rest
    obtain ⟨hlength, hencode⟩ := encodeChecked_eq metadata
    exact ⟨encode metadata, hencode, by rw [encode_length, hlength],
      by rw [encode_length, decode_encode]⟩
  · intro bytes decoded hdecode
    rw [(encodeChecked_eq decoded.metadata).2, encode_of_decode hdecode]
  · intro bytes
    rw [decodeIndexed_eq]
    exact ⟨rfl, returning_ne_outOfBounds (decode bytes)⟩

open Castagnoli

/-- The prologue of a segment of one stream, with a record's first bytes behind it. -/
theorem sample_prologue_accepted :
    ∃ encoded, encodeChecked sampleMetadata = .ok encoded ∧ encoded.length = 65 ∧
      decode (encoded ++ [0x43, 0x4d]) = .ok ⟨sampleMetadata, 65⟩ ∧
      encodeChecked sampleMetadata = .ok ((encoded ++ [0x43, 0x4d]).take 65) := by
  obtain ⟨encoded, hencode, hlength, hdecode⟩ := prologue_codec.1 sampleMetadata [0x43, 0x4d]
  have hheader : sampleMetadata.headerLength = 65 := by decide +kernel
  rw [(encodeChecked_eq sampleMetadata).1, hheader] at hlength
  have hbytes : encoded.length = 65 := (Except.ok.inj hlength).symm
  rw [hbytes] at hdecode
  have hagain := prologue_codec.2.1 (encoded ++ [0x43, 0x4d]) ⟨sampleMetadata, 65⟩ hdecode
  exact ⟨encoded, hencode, hbytes, hdecode, hagain⟩

end CryptoIntelligence.Wal.Prologue
