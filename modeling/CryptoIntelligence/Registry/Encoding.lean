/-
  Canonical bytes and digests of the catalog (`instrument-registry`, `resolve.rs`). A
  `CanonicalWriter` holds at most `maximumBytes` bytes; blake3 is a parameter.

  An encoder appends a byte string that depends on the encoded value only, and fails exactly when
  that string does not fit (`Appends`). So whether a snapshot fits does not depend on the time it is
  taken at (`snapshotDigests_fits`).
-/
import CryptoIntelligence.Lib.Codec
import CryptoIntelligence.Registry.History

namespace CryptoIntelligence.Registry

open Lib Domain Decimal Event

/-! ## The writer -/

structure RegistryLimitError where
  deriving DecidableEq

structure CanonicalWriter where
  written : Bytes
  maximumBytes : Nat
  fits : written.length ≤ maximumBytes

/-- The writer after a value, where there was room for it. -/
abbrev Writing := Except RegistryLimitError CanonicalWriter

namespace CanonicalWriter

def new (maximumBytes : Nat) : CanonicalWriter := ⟨[], maximumBytes, Nat.zero_le _⟩

def bytes (w : CanonicalWriter) (value : Bytes) : Writing :=
  if h : w.written.length + value.length ≤ w.maximumBytes then
    .ok ⟨w.written ++ value, w.maximumBytes, by rw [List.length_append]; exact h⟩
  else .error ⟨⟩

def u8 (w : CanonicalWriter) (value : UInt8) : Writing :=
  w.bytes [value]

def u32 (w : CanonicalWriter) (value : UInt32) : Writing :=
  w.bytes (u32be value)

def u64 (w : CanonicalWriter) (value : UInt64) : Writing :=
  w.bytes (u64be value)

def i64 (w : CanonicalWriter) (value : Int64) : Writing :=
  w.bytes (i64be value)

/-- A `usize` has 64 bits, so that its conversion to `u64` does not fail. -/
def usize (w : CanonicalWriter) (value : Nat) : Writing :=
  w.u64 (UInt64.ofNat value)

def string (w : CanonicalWriter) (value : String) : Writing := do
  let w ← w.usize (utf8 value).length
  w.bytes (utf8 value)

def finish (w : CanonicalWriter) : Except RegistryLimitError Bytes :=
  if w.written.length > w.maximumBytes then .error ⟨⟩ else .ok w.written

end CanonicalWriter

/-! ## Encoders -/

def encodeInstrumentId (w : CanonicalWriter) (id : InstrumentId) : Writing := do
  let w ← w.string id.venue.value
  let w ← w.string id.venueSymbol
  w.u32 id.generation

def encodeAssetId (w : CanonicalWriter) (id : AssetId) : Writing := do
  let w ← w.u8 id.ns.toU8
  let w ← w.string id.chainId
  let w ← w.string id.contractOrMint
  let w ← w.string id.canonicalSymbol
  w.u32 id.generation

def encodeOptionalTime (w : CanonicalWriter) (value : Option UnixNanos) : Writing :=
  match value with
  | some value => do
    let w ← w.u8 1
    w.i64 value
  | none => w.u8 0

/-- Two's complement, as `i128::to_be_bytes`. -/
def i128be (n : Int) : Bytes := beBytes 16 (n % 2 ^ 128).toNat

def encodeDecimal (w : CanonicalWriter) (value : FixedDecimal) : Writing := do
  let w ← w.bytes (i128be value.mantissa)
  w.u32 (UInt32.ofNat value.scale)

def encodeStrike (w : CanonicalWriter) (value : Option Price) : Writing :=
  match value with
  | some value => do
    let w ← w.u8 1
    encodeDecimal w value.value
  | none => w.u8 0

def encodeOptionSide (w : CanonicalWriter) (value : Option OptionSide) : Writing :=
  match value with
  | some value => do
    let w ← w.u8 1
    w.u8 value.toU8
  | none => w.u8 0

def encodeDefinition (w : CanonicalWriter) (definition : InstrumentDefinition) : Writing := do
  let w ← encodeInstrumentId w definition.id
  let w ← w.u8 definition.productType.toU8
  let w ← encodeAssetId w definition.baseAsset
  let w ← encodeAssetId w definition.quoteAsset
  let w ← encodeAssetId w definition.settlementAsset
  let w ← encodeDecimal w definition.contractMultiplier
  let w ← w.u8 definition.contractValueUnit.toU8
  let w ← w.u8 definition.contractKind.toU8
  let w ← encodeOptionalTime w definition.expiryTime
  let w ← encodeStrike w definition.strike
  let w ← encodeOptionSide w definition.optionSide
  let w ← encodeDecimal w definition.priceTick.value
  let w ← encodeDecimal w definition.quantityStep.value
  let w ← w.i64 definition.listingTime
  encodeOptionalTime w definition.delistingTime

def encodeMetadata (w : CanonicalWriter) (metadata : RevisionMetadata) : Writing := do
  let w ← w.i64 metadata.knownAt
  w.string metadata.sourceReference

def encodeRecord (w : CanonicalWriter) (record : CatalogRecord) : Writing :=
  match record with
  | .definition record => do
    let w ← w.u8 0
    let w ← w.u64 record.catalogRevision.value
    let w ← encodeMetadata w record.metadata
    let w ← w.bytes record.definitionHash.toList
    encodeDefinition w record.definition
  | .correction record => do
    let w ← w.u8 1
    let w ← w.u64 record.catalogRevision.value
    let w ← w.u32 record.correctionVersion
    let w ← w.u64 record.supersedesRevision.value
    let w ← encodeMetadata w record.metadata
    let w ← w.bytes record.priorDefinitionHash.toList
    let w ← w.bytes record.definitionHash.toList
    let w ← w.bytes record.correctionId.toList
    let w ← w.string record.reason
    encodeDefinition w record.replacement

/-! ## Digests -/

def snapshotSchemaVersion : UInt32 := 1

def definitionHashDomain : Bytes := text "cmti:instrument-definition:v1" ++ [0]

def correctionIdDomain : Bytes := text "cmti:instrument-correction:v1" ++ [0]

def catalogHashDomain : Bytes := text "cmti:instrument-catalog:v1" ++ [0]

def historyHashDomain : Bytes := text "cmti:instrument-history:v1" ++ [0]

def domainHash (blake3 : Bytes → Hash32) (domain bytes : Bytes) : Hash32 := blake3 (domain ++ bytes)

def definitionHash (blake3 : Bytes → Hash32) (definition : InstrumentDefinition) :
    Except RegistryLimitError Hash32 := do
  let w ← encodeDefinition (.new maximumSnapshotBytes) definition
  let bytes ← w.finish
  return domainHash blake3 definitionHashDomain bytes

def correctionId (blake3 : Bytes → Hash32) (supersedesRevision : CatalogRevision)
    (priorDefinitionHash definitionHash : Hash32) (knownAt : UnixNanos)
    (sourceReference reason : String) : Except RegistryLimitError Hash32 := do
  let w ← (CanonicalWriter.new maximumSnapshotBytes).u64 supersedesRevision.value
  let w ← w.bytes priorDefinitionHash.toList
  let w ← w.bytes definitionHash.toList
  let w ← w.i64 knownAt
  let w ← w.string sourceReference
  let w ← w.string reason
  let bytes ← w.finish
  return domainHash blake3 correctionIdDomain bytes

/-- The header and the items of one of the two digests. -/
def encodeSnapshotPart {α : Type}
    (encode : CanonicalWriter → α → Writing)
    (catalogRevision : CatalogRevision) (asKnownAt : UnixNanos) (items : List α)
    (maximumBytes : Nat) : Except RegistryLimitError Bytes := do
  let w ← (CanonicalWriter.new maximumBytes).u32 snapshotSchemaVersion
  let w ← w.u64 catalogRevision.value
  let w ← w.i64 asKnownAt
  let w ← w.usize items.length
  let w ← items.foldlM encode w
  w.finish

/-- The catalog digest over the effective definitions and the history digest over the records, which
    share `maximumBytes`. -/
def snapshotDigests (blake3 : Bytes → Hash32) (catalogRevision : CatalogRevision)
    (asKnownAt : UnixNanos) (records : List CatalogRecord) (definitions : List InstrumentDefinition)
    (maximumBytes : Nat) : Except RegistryLimitError (Hash32 × Hash32) := do
  let catalogBytes ←
    encodeSnapshotPart encodeDefinition catalogRevision asKnownAt definitions maximumBytes
  reject (catalogBytes.length > maximumBytes) ⟨⟩
  let historyBytes ← encodeSnapshotPart encodeRecord catalogRevision asKnownAt records
    (maximumBytes - catalogBytes.length)
  return (domainHash blake3 catalogHashDomain catalogBytes,
    domainHash blake3 historyHashDomain historyBytes)

/-! ## What an encoder appends -/

/-- The encoder appends one byte string, or fails when it does not fit. -/
def Appends (encode : CanonicalWriter → Writing) : Prop :=
  ∃ bytes : Bytes, ∀ w, encode w = w.bytes bytes

theorem bytes_bytes (w : CanonicalWriter) (a b : Bytes) :
    (w.bytes a >>= fun w => w.bytes b) = w.bytes (a ++ b) := by
  unfold CanonicalWriter.bytes
  by_cases ha : w.written.length + a.length ≤ w.maximumBytes
  · simp only [ha, dite_true, ok_bind, List.length_append, List.append_assoc, Nat.add_assoc]
  · have hab : ¬ w.written.length + (a ++ b).length ≤ w.maximumBytes := by
      rw [List.length_append]
      omega
    simp only [ha, hab, dite_false, error_bind]

theorem appends_bytes (value : Bytes) : Appends fun w => w.bytes value := ⟨value, fun _ => rfl⟩

theorem Appends.bind {first second : CanonicalWriter → Writing}
    (hfirst : Appends first) (hsecond : Appends second) : Appends fun w => first w >>= second := by
  obtain ⟨a, ha⟩ := hfirst
  obtain ⟨b, hb⟩ := hsecond
  refine ⟨a ++ b, fun w => ?_⟩
  show first w >>= second = _
  rw [ha, ← bytes_bytes, funext hb]

theorem appends_string (value : String) : Appends fun w => w.string value :=
  (appends_bytes _).bind (appends_bytes _)

theorem appends_encodeInstrumentId (id : InstrumentId) : Appends (encodeInstrumentId · id) :=
  (appends_string _).bind ((appends_string _).bind (appends_bytes _))

theorem appends_encodeAssetId (id : AssetId) : Appends (encodeAssetId · id) :=
  (appends_bytes _).bind ((appends_string _).bind ((appends_string _).bind
    ((appends_string _).bind (appends_bytes _))))

theorem appends_encodeOptionalTime (value : Option UnixNanos) :
    Appends (encodeOptionalTime · value) := by
  cases value with
  | none => exact appends_bytes _
  | some value => exact (appends_bytes _).bind (appends_bytes _)

theorem appends_encodeDecimal (value : FixedDecimal) : Appends (encodeDecimal · value) :=
  (appends_bytes _).bind (appends_bytes _)

theorem appends_encodeStrike (value : Option Price) : Appends (encodeStrike · value) := by
  cases value with
  | none => exact appends_bytes _
  | some value => exact (appends_bytes _).bind (appends_encodeDecimal _)

theorem appends_encodeOptionSide (value : Option OptionSide) :
    Appends (encodeOptionSide · value) := by
  cases value with
  | none => exact appends_bytes _
  | some value => exact (appends_bytes _).bind (appends_bytes _)

theorem appends_encodeDefinition (definition : InstrumentDefinition) :
    Appends (encodeDefinition · definition) := by
  refine (appends_encodeInstrumentId _).bind ((appends_bytes _).bind ?_)
  refine (appends_encodeAssetId _).bind ((appends_encodeAssetId _).bind ?_)
  refine (appends_encodeAssetId _).bind ((appends_encodeDecimal _).bind ?_)
  refine (appends_bytes _).bind ((appends_bytes _).bind ?_)
  refine (appends_encodeOptionalTime _).bind ((appends_encodeStrike _).bind ?_)
  refine (appends_encodeOptionSide _).bind ((appends_encodeDecimal _).bind ?_)
  exact (appends_encodeDecimal _).bind ((appends_bytes _).bind (appends_encodeOptionalTime _))

theorem appends_encodeMetadata (metadata : RevisionMetadata) :
    Appends (encodeMetadata · metadata) :=
  (appends_bytes _).bind (appends_string _)

theorem appends_encodeRecord (record : CatalogRecord) : Appends (encodeRecord · record) := by
  cases record with
  | definition record =>
    refine (appends_bytes _).bind ((appends_bytes _).bind ?_)
    exact (appends_encodeMetadata _).bind ((appends_bytes _).bind (appends_encodeDefinition _))
  | correction record =>
    refine (appends_bytes _).bind ((appends_bytes _).bind ((appends_bytes _).bind ?_))
    refine (appends_bytes _).bind ((appends_encodeMetadata _).bind ((appends_bytes _).bind ?_))
    refine (appends_bytes _).bind ((appends_bytes _).bind ((appends_string _).bind ?_))
    exact appends_encodeDefinition _

theorem appends_foldlM {α : Type}
    {encode : CanonicalWriter → α → Writing}
    (h : ∀ item, Appends (encode · item)) (items : List α) :
    Appends fun w => items.foldlM encode w := by
  induction items with
  | nil =>
    refine ⟨[], fun w => ?_⟩
    simp [CanonicalWriter.bytes, w.fits]
  | cons item items ih =>
    simp only [List.foldlM_cons]
    exact (h item).bind ih

theorem finish_eq (w : CanonicalWriter) : w.finish = .ok w.written :=
  if_neg (Nat.not_lt.mpr w.fits)

/-- A part consists of a header that holds the time and of bytes that do not depend on it. -/
theorem encodeSnapshotPart_eq {α : Type}
    {encode : CanonicalWriter → α → Writing}
    (h : ∀ item, Appends (encode · item)) (catalogRevision : CatalogRevision) (items : List α) :
    ∃ head rest : Bytes, ∀ asKnownAt maximumBytes,
      encodeSnapshotPart encode catalogRevision asKnownAt items maximumBytes =
        (CanonicalWriter.new maximumBytes).bytes (head ++ i64be asKnownAt ++ rest) >>=
          (·.finish) := by
  obtain ⟨body, hbody⟩ := appends_foldlM h items
  refine ⟨u32be snapshotSchemaVersion ++ u64be catalogRevision.value,
    u64be (UInt64.ofNat items.length) ++ body, fun asKnownAt maximumBytes => ?_⟩
  simp only [encodeSnapshotPart, hbody, CanonicalWriter.u32, CanonicalWriter.u64,
    CanonicalWriter.i64, CanonicalWriter.usize, ← bytes_bytes, List.append_assoc, bind_assoc]

theorem encodeSnapshotPart_length {α : Type}
    {encode : CanonicalWriter → α → Writing}
    (h : ∀ item, Appends (encode · item)) {catalogRevision : CatalogRevision} {items : List α}
    {time : UnixNanos} {maximumBytes : Nat} {bytes : Bytes}
    (hok : encodeSnapshotPart encode catalogRevision time items maximumBytes = .ok bytes)
    (other : UnixNanos) : ∃ bytes' : Bytes, bytes'.length = bytes.length ∧
      encodeSnapshotPart encode catalogRevision other items maximumBytes = .ok bytes' := by
  obtain ⟨head, rest, hpart⟩ := encodeSnapshotPart_eq h catalogRevision items
  rw [hpart] at hok ⊢
  have hlength : (head ++ i64be time ++ rest).length = (head ++ i64be other ++ rest).length := by
    simp
  unfold CanonicalWriter.bytes at hok ⊢
  split at hok
  · rename_i hfits
    rw [dif_pos (hlength ▸ hfits), ok_bind, finish_eq]
    rw [ok_bind, finish_eq] at hok
    refine ⟨_, ?_, rfl⟩
    rw [← Except.ok.inj hok]
    exact hlength.symm
  · cases hok

/-- Whether the digests of a snapshot fit does not depend on the time it is taken at. -/
theorem snapshotDigests_fits {blake3 : Bytes → Hash32} {catalogRevision : CatalogRevision}
    {time : UnixNanos} {records : List CatalogRecord} {definitions : List InstrumentDefinition}
    {maximumBytes : Nat} {digests : Hash32 × Hash32}
    (hok : snapshotDigests blake3 catalogRevision time records definitions maximumBytes =
      .ok digests)
    (other : UnixNanos) : ∃ digests',
      snapshotDigests blake3 catalogRevision other records definitions maximumBytes =
        .ok digests' := by
  simp only [snapshotDigests, bind_eq_ok, reject_eq_ok] at hok
  obtain ⟨catalog, hcatalog, _, hroom, history, hhistory, -⟩ := hok
  obtain ⟨catalog', hsame, hcatalog'⟩ :=
    encodeSnapshotPart_length appends_encodeDefinition hcatalog other
  obtain ⟨history', -, hhistory'⟩ := encodeSnapshotPart_length appends_encodeRecord hhistory other
  unfold snapshotDigests
  rw [hcatalog', ok_bind, hsame, reject_neg hroom, ok_bind, hhistory', ok_bind]
  exact ⟨_, rfl⟩

end CryptoIntelligence.Registry
