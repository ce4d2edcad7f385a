/-
  Event metadata, the 22 payload variants and their joint validation (`event-envelope/src/lib.rs`),
  and the envelope that carries a validated pair under its identity.
-/
import CryptoIntelligence.Event.Payload

namespace CryptoIntelligence.Event

open Lib Decimal Domain

def maxBookLevels : Nat := 100000

def maxMetadataText : Nat := 4096

def maxEventWireBytes : Nat := 16 * 1024 * 1024

def maxQualityScorePpm : UInt32 := 1000000

inductive SnapshotKind where
  | notApplicable
  | snapshot
  | delta
  deriving DecidableEq, Repr

structure UncheckedEventMetadata where
  schemaVersion : UInt32
  source : SourceId
  venue : Option VenueId
  instrumentId : Option InstrumentId
  exchangeTimestamp : Option UnixNanos
  exchangeTransactionTimestamp : Option UnixNanos
  receiveWallTimestamp : UnixNanos
  receiveMonotonicNs : UInt64
  normalizationTimestamp : UnixNanos
  connectionStartedAt : UnixNanos
  sequenceNumber : Option UInt64
  previousSequenceNumber : Option UInt64
  connectionEpoch : UInt64
  subscriptionEpoch : UInt64
  snapshotKind : SnapshotKind
  sourceChecksum : Option String
  rawPayloadHash : Hash32
  parserVersion : String
  normalizerVersion : String
  ingestionInstance : String
  qualityScorePpm : UInt32
  qualityFlags : UInt64
  deriving DecidableEq

def validMetadataText (value : String) : Bool :=
  !value.toList.isEmpty && decide ((utf8 value).length ≤ maxMetadataText)
    && trim value.toList == value.toList && !value.toList.any isControl

def UncheckedEventMetadata.validate (m : UncheckedEventMetadata) : Except EventError Unit := do
  reject (¬ (1 ≤ m.schemaVersion ∧ m.schemaVersion ≤ 3)) (.invalidMetadata "schema_version")
  reject (m.schemaVersion < 3 ∧ ∃ instrument ∈ m.instrumentId, instrument.productType ≠ .spot)
    (.invalidMetadata "instrument product identity schema")
  reject (m.connectionEpoch = 0) (.invalidMetadata "connection_epoch")
  reject (m.subscriptionEpoch = 0) (.invalidMetadata "subscription_epoch")
  reject (m.receiveWallTimestamp < m.connectionStartedAt)
    (.invalidMetadata "receive_wall_timestamp")
  reject (m.normalizationTimestamp < m.receiveWallTimestamp)
    (.invalidMetadata "normalization_timestamp")
  reject ((∃ previous ∈ m.previousSequenceNumber, ∃ current ∈ m.sequenceNumber, previous ≥ current)
      ∨ (m.previousSequenceNumber.isSome ∧ m.sequenceNumber.isNone))
    (.invalidMetadata "sequence_number")
  reject (m.rawPayloadHash = zeroHash) (.invalidMetadata "raw_payload_hash")
  reject (!validMetadataText m.parserVersion) (.invalidMetadata "parser_version")
  reject (!validMetadataText m.normalizerVersion) (.invalidMetadata "normalizer_version")
  reject (!validMetadataText m.ingestionInstance) (.invalidMetadata "ingestion_instance")
  reject (∃ value ∈ m.sourceChecksum, !validMetadataText value) (.invalidMetadata "source_checksum")
  reject (m.qualityScorePpm > maxQualityScorePpm) (.invalidMetadata "quality_score_ppm")
  reject (m.source.kind = .exchange ∧ m.venue.isNone) (.invalidMetadata "venue")
  reject (∃ instrument ∈ m.instrumentId, m.venue ≠ some instrument.venue)
    (.invalidMetadata "instrument_id")

/-! ## Payloads -/

inductive EventType where
  | trade
  | topOfBook
  | bookSnapshot
  | bookDelta
  | instrumentDefinition
  | fundingObservation
  | openInterestObservation
  | liquidationObservation
  | markIndexObservation
  | futureBasisObservation
  | optionTicker
  | optionTrade
  | venueStatus
  | chainBlock
  | chainTransactionAggregate
  | chainMempoolObservation
  | chainMetric
  | externalMarketObservation
  | structuredEvent
  | dataQualityObservation
  | predictionRecord
  | alertEvent
  deriving DecidableEq, Repr

inductive UncheckedEventPayload where
  | trade (value : Trade)
  | topOfBook (value : TopOfBook)
  | bookSnapshot (value : BookSnapshot)
  | bookDelta (value : BookDelta)
  | instrumentDefinition (value : InstrumentDefinition)
  | fundingObservation (value : FundingObservation)
  | openInterestObservation (value : OpenInterestObservation)
  | liquidationObservation (value : LiquidationObservation)
  | markIndexObservation (value : MarkIndexObservation)
  | futureBasisObservation (value : FutureBasisObservation)
  | optionTicker (value : OptionTicker)
  | optionTrade (value : OptionTrade)
  | venueStatus (value : VenueStatus)
  | chainBlock (value : ChainBlock)
  | chainTransactionAggregate (value : ChainTransactionAggregate)
  | chainMempoolObservation (value : ChainMempoolObservation)
  | chainMetric (value : ChainMetric)
  | externalMarketObservation (value : ExternalMarketObservation)
  | structuredEvent (value : StructuredEvent)
  | dataQualityObservation (value : DataQualityObservation)
  | predictionRecord (value : PredictionRecord)
  | alertEvent (value : AlertEvent)
  deriving DecidableEq

namespace UncheckedEventPayload

def eventType : UncheckedEventPayload → EventType
  | .trade _ => .trade
  | .topOfBook _ => .topOfBook
  | .bookSnapshot _ => .bookSnapshot
  | .bookDelta _ => .bookDelta
  | .instrumentDefinition _ => .instrumentDefinition
  | .fundingObservation _ => .fundingObservation
  | .openInterestObservation _ => .openInterestObservation
  | .liquidationObservation _ => .liquidationObservation
  | .markIndexObservation _ => .markIndexObservation
  | .futureBasisObservation _ => .futureBasisObservation
  | .optionTicker _ => .optionTicker
  | .optionTrade _ => .optionTrade
  | .venueStatus _ => .venueStatus
  | .chainBlock _ => .chainBlock
  | .chainTransactionAggregate _ => .chainTransactionAggregate
  | .chainMempoolObservation _ => .chainMempoolObservation
  | .chainMetric _ => .chainMetric
  | .externalMarketObservation _ => .externalMarketObservation
  | .structuredEvent _ => .structuredEvent
  | .dataQualityObservation _ => .dataQualityObservation
  | .predictionRecord _ => .predictionRecord
  | .alertEvent _ => .alertEvent

def requiresInstrument : UncheckedEventPayload → Bool
  | .trade _ | .topOfBook _ | .bookSnapshot _ | .bookDelta _ | .instrumentDefinition _
  | .fundingObservation _ | .openInterestObservation _ | .liquidationObservation _
  | .markIndexObservation _ | .futureBasisObservation _ | .optionTicker _ | .optionTrade _ => true
  | .venueStatus _ | .chainBlock _ | .chainTransactionAggregate _ | .chainMempoolObservation _
  | .chainMetric _ | .externalMarketObservation _ | .structuredEvent _ | .dataQualityObservation _
  | .predictionRecord _ | .alertEvent _ => false

end UncheckedEventPayload

def validateBook (bids asks : List BookLevel) (allowZeroQuantity enforceUncrossed : Bool) :
    Except EventError Unit := do
  reject (bids.length + asks.length > maxBookLevels) (.invalidPayload "book level capacity")
  reject (!allowZeroQuantity && (bids ++ asks).any fun level => level.quantity.value.isZero)
    (.invalidPayload "zero snapshot quantity")
  reject (!pricesOrdered .gt bids || !pricesOrdered .lt asks) (.invalidPayload "book ordering")
  reject (enforceUncrossed = true
      ∧ ∃ bid ∈ bids.head?, ∃ ask ∈ asks.head?, (compare bid.price ask.price).isGE)
    (.invalidPayload "crossed book")

def requireObservation (m : UncheckedEventMetadata) : Except EventError Unit :=
  reject (m.snapshotKind ≠ .notApplicable) (.invalidMetadata "snapshot_kind")

def requireSourceKind (m : UncheckedEventMetadata) (expected : SourceKind) :
    Except EventError Unit :=
  reject (m.source.kind ≠ expected) (.invalidMetadata "source kind")

/-- A delta's predecessor, by schema version. -/
def validPredecessor (m : UncheckedEventMetadata) (firstSequence : UInt64) : Bool :=
  if m.schemaVersion = 1 then
    m.previousSequenceNumber == (if firstSequence = 0 then none else some (firstSequence - 1))
  else if m.schemaVersion = 2 ∨ m.schemaVersion = 3 then
    match m.previousSequenceNumber with
    | none => firstSequence == 0
    | some previous => decide (previous < firstSequence)
  else false

def UncheckedEventPayload.validate (p : UncheckedEventPayload) (m : UncheckedEventMetadata) :
    Except EventError Unit := do
  m.validate
  reject (p.requiresInstrument && (m.venue.isNone || m.instrumentId.isNone))
    (.invalidMetadata "instrument identity")
  match p with
  | .trade v =>
    reject (!validMetadataText v.tradeId || v.quantity.value.isZero) (.invalidPayload "trade")
    requireObservation m
  | .topOfBook v =>
    v.validate
    requireObservation m
  | .bookSnapshot v =>
    validateBook v.bids v.asks false true
    reject (m.snapshotKind ≠ .snapshot ∨ m.sequenceNumber ≠ some v.lastSequence) .sequenceMismatch
  | .bookDelta v =>
    validateBook v.bids v.asks true false
    reject (v.firstSequence > v.lastSequence ∨ m.snapshotKind ≠ .delta
        ∨ m.sequenceNumber ≠ some v.lastSequence ∨ validPredecessor m v.firstSequence = false)
      .sequenceMismatch
  | .instrumentDefinition v =>
    requireObservation m
    reject (m.instrumentId ≠ some v.id) (.invalidMetadata "instrument definition")
  | .fundingObservation v =>
    v.validate
    requireObservation m
  | .openInterestObservation _ | .markIndexObservation _ => requireObservation m
  | .liquidationObservation v =>
    v.validate
    requireObservation m
  | .futureBasisObservation _ => requireObservation m
  | .optionTicker v =>
    v.validate
    requireObservation m
  | .optionTrade v =>
    v.validate
    requireObservation m
  | .venueStatus v =>
    v.validate
    requireObservation m
    reject (m.venue.isNone) (.invalidMetadata "venue")
  | .chainBlock v =>
    v.validate
    requireObservation m
    requireSourceKind m .chain
  | .chainTransactionAggregate v =>
    v.validate
    requireObservation m
    requireSourceKind m .chain
  | .chainMempoolObservation _ =>
    requireObservation m
    requireSourceKind m .chain
  | .chainMetric v =>
    requireObservation m
    requireSourceKind m .chain
    v.validate
  | .externalMarketObservation v =>
    v.validate
    requireObservation m
  | .structuredEvent v =>
    v.validate
    requireObservation m
    reject (m.source ≠ v.sourceIdentity) (.invalidMetadata "structured event source")
  | .dataQualityObservation v =>
    v.validate
    requireObservation m
  | .predictionRecord v =>
    v.validate
    requireObservation m
  | .alertEvent v =>
    v.validate
    requireObservation m

theorem UncheckedEventPayload.validate_metadata {p : UncheckedEventPayload}
    {m : UncheckedEventMetadata} (h : p.validate m = .ok ()) : m.validate = .ok () := by
  simp only [validate, bind_eq_ok] at h
  obtain ⟨_, hm, _⟩ := h
  exact hm

/-- Validated metadata has a known schema version, and below version 3 only Spot instruments. -/
theorem UncheckedEventMetadata.validate_schema {m : UncheckedEventMetadata}
    (h : m.validate = .ok ()) :
    (m.schemaVersion = 1 ∨ m.schemaVersion = 2 ∨ m.schemaVersion = 3) ∧
      (m.schemaVersion < 3 → ∀ i ∈ m.instrumentId, i.productType = .spot) := by
  simp only [validate, bind_eq_ok, reject_eq_ok] at h
  obtain ⟨_, hv, _, hp, _⟩ := h
  refine ⟨?_, ?_⟩
  · have hv' := not_not.mp hv
    simp only [UInt32.le_iff_toNat_le, ← UInt32.toNat_inj] at hv' ⊢
    simp at hv' ⊢
    omega
  · intro hlt i hi
    by_contra hne
    exact hp ⟨hlt, i, hi, hne⟩

end CryptoIntelligence.Event
