/-
  The canonical writer of source-event identities (`canonical_event_id_unchecked`): a domain tag
  for the schema version, the identity fields of the metadata and the whole payload. BLAKE3 is a
  parameter; nothing is claimed about its collisions.

  What is proved: each writer is prefix free, and the bytes of a payload determine it for each of
  the 22 variants (`encodePayload_free`).
-/
import CryptoIntelligence.Lib.Codec
import CryptoIntelligence.Event.Envelope

namespace CryptoIntelligence.Event

open Lib Decimal Domain

/-! ## The canonical writer -/

namespace Writer

abbrev Written := Except EventError Bytes

def u8 (value : UInt8) : Written := .ok [value]

def boolean (value : Bool) : Written := u8 (if value then 1 else 0)

def u32 (value : UInt32) : Written := .ok (u32be value)

def u64 (value : UInt64) : Written := .ok (u64be value)

def i64 (value : Int64) : Written := .ok (i64be value)

def bytes (value : Bytes) : Written := lengthPrefixed .canonicalFieldTooLarge value

def string (value : String) : Written := bytes (utf8 value)

def decimal (value : FixedDecimal) : Written := string value.display

def source (value : SourceId) : Written :=
  concat [u8 value.kind.toU8, string value.name, u32 value.generation]

def venue (value : VenueId) : Written := string value.value

def asset (value : AssetId) : Written :=
  concat [u8 value.ns.toU8, string value.chainId, string value.contractOrMint,
    string value.canonicalSymbol, u32 value.generation]

def instrumentDefinition (value : InstrumentDefinition) : Written :=
  concat [venue value.id.venue, string value.id.venueSymbol, u32 value.id.generation,
    u8 value.productType.toU8, asset value.baseAsset, asset value.quoteAsset,
    asset value.settlementAsset, decimal value.contractMultiplier,
    u8 value.contractValueUnit.toU8, u8 value.contractKind.toU8, optional i64 value.expiryTime,
    optional (fun price => decimal price.value) value.strike,
    optional (fun side => u8 side.toU8) value.optionSide, decimal value.priceTick.value,
    decimal value.quantityStep.value, i64 value.listingTime, optional i64 value.delistingTime]

def level (value : BookLevel) : Written :=
  concat [decimal value.price.value, decimal value.quantity.value, optional u32 value.orderCount]

/-- A collection after its `u32` count. -/
def collection {α : Type} (encode : α → Written) (values : List α) : Written :=
  counted .canonicalFieldTooLarge encode values

def assets : List AssetId → Written := collection asset

def venues : List VenueId → Written := collection venue

def strings : List String → Written := collection string

def levels : List BookLevel → Written := collection level

def fact (value : StructuredFact) : Written := concat [string value.key, string value.value]

/-- The instrument of the metadata; its product type is written from schema version 3 on. -/
def instrument (schemaVersion : UInt32) (value : InstrumentId) : Written :=
  concat (string value.venue.value :: string value.venueSymbol ::
    if schemaVersion ≥ 3 then [u8 value.productType.toU8, u32 value.generation]
    else [u32 value.generation])

end Writer

open Writer

def encodeIdentityMetadata (m : UncheckedEventMetadata) : Written :=
  concat (u8 m.source.kind.toU8 :: string m.source.name :: u32 m.source.generation ::
    optional (fun v : VenueId => string v.value) m.venue ::
    optional (instrument m.schemaVersion) m.instrumentId ::
    optional i64 m.exchangeTimestamp :: optional i64 m.exchangeTransactionTimestamp ::
    optional u64 m.sequenceNumber ::
    if m.schemaVersion ≥ 2 then [optional u64 m.previousSequenceNumber] else [])

/-- The fields of a payload after its tag byte. -/
def payloadFields : UncheckedEventPayload → List Written
  | .trade v => [string v.tradeId, decimal v.price.value, decimal v.quantity.value, u8 v.side.toU8]
  | .topOfBook v => [optional level v.bid, optional level v.ask]
  | .bookSnapshot v => [levels v.bids, levels v.asks, u64 v.lastSequence]
  | .bookDelta v => [levels v.bids, levels v.asks, u64 v.firstSequence, u64 v.lastSequence]
  | .instrumentDefinition v => [instrumentDefinition v]
  | .fundingObservation v =>
    [decimal v.fundingRate.value, i64 v.observedAt, optional i64 v.nextFundingTime]
  | .openInterestObservation v =>
    [decimal v.quantity.value, optional (fun n : Notional => decimal n.value) v.quoteNotional,
      i64 v.observedAt]
  | .liquidationObservation v =>
    [string v.liquidationId, decimal v.price.value, decimal v.quantity.value, u8 v.side.toU8]
  | .markIndexObservation v => [decimal v.markPrice.value, decimal v.indexPrice.value]
  | .futureBasisObservation v =>
    [decimal v.futurePrice.value, decimal v.referencePrice.value, decimal v.basisRate.value,
      optional (fun r : Rate => decimal r.value) v.annualizedBasisRate]
  | .optionTicker v =>
    [optional (fun p : Price => decimal p.value) v.bidPrice,
      optional (fun p : Price => decimal p.value) v.askPrice, decimal v.markPrice.value,
      decimal v.markIv.value, decimal v.delta.value, decimal v.openInterest.value]
  | .optionTrade v =>
    [string v.tradeId, decimal v.price.value, decimal v.quantity.value, u8 v.side.toU8,
      optional (fun r : Rate => decimal r.value) v.impliedVolatility]
  | .venueStatus v => [u8 v.state.toU8, i64 v.observedAt, optional string v.message]
  | .chainBlock v =>
    [asset v.chain, string v.blockHash, optional string v.parentHash, u64 v.height,
      i64 v.blockTime, u64 v.confirmationDepth, u8 v.finality.toU8, u64 v.transactionCount]
  | .chainTransactionAggregate v =>
    [asset v.chain, i64 v.intervalStart, i64 v.intervalEnd, u64 v.transactionCount,
      optional (fun n : Notional => decimal n.value) v.transferredValue,
      optional (fun n : Notional => decimal n.value) v.feeTotal]
  | .chainMempoolObservation v =>
    [asset v.chain, i64 v.observedAt, u64 v.transactionCount, u64 v.virtualSize,
      optional (fun n : Notional => decimal n.value) v.totalFees]
  | .chainMetric v => [asset v.chain, string v.metricName, decimal v.value, i64 v.observedAt]
  | .externalMarketObservation v =>
    [string v.marketId, decimal v.value, i64 v.observedAt, optional string v.sourceNativeId]
  | .structuredEvent v =>
    [string v.structuredEventId, string v.eventType, assets v.affectedAssets,
      venues v.affectedVenues, strings v.affectedProtocols, source v.sourceIdentity,
      u32 v.sourceReliabilityPpm, i64 v.publicationTime, optional i64 v.effectiveTime,
      optional i64 v.expectedEndTime, decimal v.directionPrior.value, u32 v.severityPpm,
      u32 v.extractionConfidencePpm, boolean v.humanVerified, bytes v.sourceDocumentHash.toList,
      string v.extractorModelId, string v.extractorPromptVersion,
      collection fact v.extractedFacts]
  | .dataQualityObservation v =>
    [string v.component, i64 v.observedAt, u32 v.scorePpm, u64 v.flags, optional string v.details]
  | .predictionRecord v =>
    [string v.forecastId, i64 v.issuedAt, string v.entityId, string v.modelPackageId,
      u32 v.forecastSchemaVersion, string v.predictionEventType, u64 v.horizonSeconds,
      u32 v.calibratedProbabilityPpm, decimal v.rawScore.value, u32 v.baseRatePpm,
      u32 v.lowerUncertaintyPpm, u32 v.upperUncertaintyPpm, u8 v.availability.toU8,
      u32 v.qualityScorePpm, u32 v.applicabilityScorePpm, string v.scenarioSummaryId,
      string v.evidenceBundleId, optional string v.supersedesForecastId]
  | .alertEvent v =>
    [string v.alertId, string v.ruleId, u8 v.status.toU8, u8 v.priority, i64 v.triggeredAt,
      optional i64 v.recoveredAt, optional string v.forecastId, string v.message]

/-- The tag byte of a payload. -/
def EventType.toU8 : EventType → UInt8
  | .trade => 0
  | .topOfBook => 1
  | .bookSnapshot => 2
  | .bookDelta => 3
  | .instrumentDefinition => 4
  | .fundingObservation => 5
  | .openInterestObservation => 6
  | .liquidationObservation => 7
  | .markIndexObservation => 8
  | .futureBasisObservation => 9
  | .optionTicker => 10
  | .optionTrade => 11
  | .venueStatus => 12
  | .chainBlock => 13
  | .chainTransactionAggregate => 14
  | .chainMempoolObservation => 15
  | .chainMetric => 16
  | .externalMarketObservation => 17
  | .structuredEvent => 18
  | .dataQualityObservation => 19
  | .predictionRecord => 20
  | .alertEvent => 21

theorem EventType.toU8_injective : Function.Injective EventType.toU8 := by
  intro a b h
  cases a <;> cases b <;> first | rfl | cases h

def encodePayload (p : UncheckedEventPayload) : Written :=
  concat (u8 p.eventType.toU8 :: payloadFields p)

def eventDomainV1 : Bytes := utf8 "cmti:event:v1\x00"

def eventDomainV2 : Bytes := utf8 "cmti:event:v2\x00"

def eventDomainV3 : Bytes := utf8 "cmti:event:v3\x00"

def eventDomain (schemaVersion : UInt32) : Written :=
  if schemaVersion = 1 then .ok eventDomainV1
  else if schemaVersion = 2 then .ok eventDomainV2
  else if schemaVersion = 3 then .ok eventDomainV3
  else .error (.invalidMetadata "schema_version")

/-- The bytes that are hashed: domain tag, identity metadata, payload. -/
def canonicalEventBytes (m : UncheckedEventMetadata) (p : UncheckedEventPayload) : Written :=
  concat [eventDomain m.schemaVersion, encodeIdentityMetadata m, encodePayload p]

abbrev EventId := Hash32

def canonicalEventIdUnchecked (blake3 : Bytes → Hash32) (m : UncheckedEventMetadata)
    (p : UncheckedEventPayload) : Except EventError EventId := do
  let bytes ← canonicalEventBytes m p
  return blake3 bytes

/-- A validated event with a canonical source-event identity. -/
structure EventEnvelope where
  id : EventId
  eventType : EventType
  metadata : UncheckedEventMetadata
  payload : UncheckedEventPayload
  valid : payload.validate metadata = .ok ()
  typed : eventType = payload.eventType

namespace EventEnvelope

/-- The constructor; `wireLength` is the length of the JSON form. -/
def new (blake3 : Bytes → Hash32) (wireLength : EventEnvelope → Nat)
    (m : UncheckedEventMetadata) (p : UncheckedEventPayload) : Except EventError EventEnvelope := do
  let ⟨_, valid⟩ ← attach (p.validate m)
  let id ← canonicalEventIdUnchecked blake3 m p
  let envelope : EventEnvelope := ⟨id, p.eventType, m, p, valid, rfl⟩
  reject (wireLength envelope > maxEventWireBytes) .wireTooLarge
  return envelope

/-- The stored identity is the one of the metadata and payload. -/
def verify (blake3 : Bytes → Hash32) (e : EventEnvelope) : Except EventError Unit := do
  let id ← canonicalEventIdUnchecked blake3 e.metadata e.payload
  reject (id ≠ e.id) .identityMismatch

end EventEnvelope

/-! ## The writers are prefix free -/

namespace Writer

theorem u8_free : PrefixFree u8 :=
  prefixFree_of_width 1 (fun a b h => by simpa using h) fun _ => rfl

theorem boolean_free : PrefixFree boolean :=
  u8_free.comp (by intro a b h; cases a <;> cases b <;> simp_all)

theorem u32_free : PrefixFree u32 := prefixFree_of_width 4 u32be_injective u32be_length

theorem u64_free : PrefixFree u64 := prefixFree_of_width 8 u64be_injective u64be_length

theorem i64_free : PrefixFree i64 := prefixFree_of_width 8 i64be_injective i64be_length

theorem bytes_free : PrefixFree bytes := lengthPrefixed_prefixFree _

theorem string_free : PrefixFree string := bytes_free.comp utf8_injective

theorem decimal_free : PrefixFree decimal := string_free.comp FixedDecimal.display_injective

theorem wrapped_free {validate : FixedDecimal → Bool} :
    PrefixFree fun w : Wrapped validate => decimal w.value :=
  decimal_free.comp Wrapped.value_injective

theorem hash_free : PrefixFree fun h : Hash32 => bytes h.toList :=
  bytes_free.comp fun _ _ h => Vector.toList_inj.mp h

theorem collection_free {α : Type} {encode : α → Written} (h : PrefixFree encode) :
    PrefixFree (collection encode) := counted_prefixFree _ h

theorem venue_free : PrefixFree venue := string_free.comp fun _ _ h => VenueId.ext h

theorem side_free : PrefixFree fun s : Side => u8 s.toU8 := u8_free.comp Side.toU8_injective

theorem source_free : PrefixFree source := by
  refine (u8_free.comp SourceKind.toU8_injective).cons
    (string_free.cons (u32_free.cons (.nil ?_)))
  rintro a b ⟨⟨⟨-, hkind⟩, hname⟩, hgeneration⟩
  exact SourceId.ext hkind hname hgeneration

theorem asset_free : PrefixFree asset := by
  refine (u8_free.comp AssetNamespace.toU8_injective).cons (string_free.cons (string_free.cons
    (string_free.cons (u32_free.cons (.nil ?_)))))
  rintro a b ⟨⟨⟨⟨⟨-, hns⟩, hchain⟩, hcontract⟩, hsymbol⟩, hgeneration⟩
  exact AssetId.ext hns hchain hcontract hsymbol hgeneration

/-- The product type of the identity is not written again: a valid definition repeats it. -/
theorem instrumentDefinition_free : PrefixFree instrumentDefinition := by
  refine venue_free.cons (string_free.cons (u32_free.cons
    ((u8_free.comp ProductType.toU8_injective).cons (asset_free.cons (asset_free.cons
    (asset_free.cons (decimal_free.cons ((u8_free.comp ContractValueUnit.toU8_injective).cons
    ((u8_free.comp ContractKind.toU8_injective).cons ((optional_prefixFree i64_free).cons
    ((optional_prefixFree wrapped_free).cons
    ((optional_prefixFree (u8_free.comp OptionSide.toU8_injective)).cons (wrapped_free.cons
    (wrapped_free.cons (i64_free.cons ((optional_prefixFree i64_free).cons
    (.nil ?_)))))))))))))))))
  rintro a b ⟨⟨⟨⟨⟨⟨⟨⟨⟨⟨⟨⟨⟨⟨⟨⟨⟨-, hvenue⟩, hsymbol⟩, hgeneration⟩, hproduct⟩, hbase⟩, hquote⟩,
    hsettlement⟩, hmultiplier⟩, hunit⟩, hkind⟩, hexpiry⟩, hstrike⟩, hside⟩, htick⟩, hstep⟩,
    hlisting⟩, hdelisting⟩
  have hid : a.id = b.id := InstrumentId.ext hvenue hsymbol
    (by rw [a.id_productType, b.id_productType, hproduct]) hgeneration
  have hinput : a.toInstrumentDefinitionInput = b.toInstrumentDefinitionInput :=
    InstrumentDefinitionInput.ext hid hproduct hbase hquote hsettlement hmultiplier hunit hkind
      hexpiry hstrike hside htick hstep hlisting hdelisting
  cases a
  cases b
  cases hinput
  rfl

theorem level_free : PrefixFree level := by
  refine wrapped_free.cons (wrapped_free.cons ((optional_prefixFree u32_free).cons (.nil ?_)))
  rintro ⟨_, _, _⟩ ⟨_, _, _⟩ ⟨⟨⟨-, rfl⟩, rfl⟩, rfl⟩
  rfl

theorem levels_free : PrefixFree levels := collection_free level_free

theorem fact_free : PrefixFree fact := by
  refine string_free.cons (string_free.cons (.nil ?_))
  rintro ⟨_, _⟩ ⟨_, _⟩ ⟨⟨-, rfl⟩, rfl⟩
  rfl

end Writer

/-! ## Payloads are read back -/

/-- The fields of the payloads of one variant are read back, whatever follows them. -/
def VariantFree {α : Type} (variant : α → UncheckedEventPayload) : Prop :=
  PrefixFree fun v => concat (payloadFields (variant v))

theorem VariantFree.reads {α : Type} {variant : α → UncheckedEventPayload} (h : VariantFree variant)
    {v w : α} {x y r s : Bytes} (hx : concat (payloadFields (variant v)) = .ok x)
    (hy : concat (payloadFields (variant w)) = .ok y) (hxy : x ++ r = y ++ s) :
    variant v = variant w ∧ r = s := by
  obtain ⟨rfl, hrs⟩ := h v w x y r s trivial hx hy hxy
  exact ⟨rfl, hrs⟩

theorem instrumentPayload_free : VariantFree .instrumentDefinition := by
  refine instrumentDefinition_free.cons (.nil ?_)
  rintro _ _ ⟨-, h⟩
  exact h

theorem trade_free : VariantFree .trade := by
  refine string_free.cons (wrapped_free.cons (wrapped_free.cons (side_free.cons (.nil ?_))))
  rintro ⟨_, _, _, _⟩ ⟨_, _, _, _⟩ ⟨⟨⟨⟨-, rfl⟩, rfl⟩, rfl⟩, rfl⟩
  rfl

theorem topOfBook_free : VariantFree .topOfBook := by
  refine (optional_prefixFree level_free).cons ((optional_prefixFree level_free).cons (.nil ?_))
  rintro ⟨_, _⟩ ⟨_, _⟩ ⟨⟨-, rfl⟩, rfl⟩
  rfl

theorem bookSnapshot_free : VariantFree .bookSnapshot := by
  refine levels_free.cons (levels_free.cons (u64_free.cons (.nil ?_)))
  rintro ⟨_, _, _⟩ ⟨_, _, _⟩ ⟨⟨⟨-, rfl⟩, rfl⟩, rfl⟩
  rfl

theorem bookDelta_free : VariantFree .bookDelta := by
  refine levels_free.cons (levels_free.cons (u64_free.cons (u64_free.cons (.nil ?_))))
  rintro ⟨_, _, _, _⟩ ⟨_, _, _, _⟩ ⟨⟨⟨⟨-, rfl⟩, rfl⟩, rfl⟩, rfl⟩
  rfl

theorem fundingObservation_free : VariantFree .fundingObservation := by
  refine wrapped_free.cons (i64_free.cons ((optional_prefixFree i64_free).cons (.nil ?_)))
  rintro ⟨_, _, _⟩ ⟨_, _, _⟩ ⟨⟨⟨-, rfl⟩, rfl⟩, rfl⟩
  rfl

theorem openInterestObservation_free : VariantFree .openInterestObservation := by
  refine wrapped_free.cons ((optional_prefixFree wrapped_free).cons (i64_free.cons (.nil ?_)))
  rintro ⟨_, _, _⟩ ⟨_, _, _⟩ ⟨⟨⟨-, rfl⟩, rfl⟩, rfl⟩
  rfl

theorem liquidationObservation_free : VariantFree .liquidationObservation := by
  refine string_free.cons (wrapped_free.cons (wrapped_free.cons (side_free.cons (.nil ?_))))
  rintro ⟨_, _, _, _⟩ ⟨_, _, _, _⟩ ⟨⟨⟨⟨-, rfl⟩, rfl⟩, rfl⟩, rfl⟩
  rfl

theorem markIndexObservation_free : VariantFree .markIndexObservation := by
  refine wrapped_free.cons (wrapped_free.cons (.nil ?_))
  rintro ⟨_, _⟩ ⟨_, _⟩ ⟨⟨-, rfl⟩, rfl⟩
  rfl

theorem futureBasisObservation_free : VariantFree .futureBasisObservation := by
  refine wrapped_free.cons (wrapped_free.cons (wrapped_free.cons
    ((optional_prefixFree wrapped_free).cons (.nil ?_))))
  rintro ⟨_, _, _, _⟩ ⟨_, _, _, _⟩ ⟨⟨⟨⟨-, rfl⟩, rfl⟩, rfl⟩, rfl⟩
  rfl

theorem optionTicker_free : VariantFree .optionTicker := by
  refine (optional_prefixFree wrapped_free).cons ((optional_prefixFree wrapped_free).cons
    (wrapped_free.cons (wrapped_free.cons (wrapped_free.cons (wrapped_free.cons (.nil ?_))))))
  rintro ⟨_, _, _, _, _, _⟩ ⟨_, _, _, _, _, _⟩ ⟨⟨⟨⟨⟨⟨-, rfl⟩, rfl⟩, rfl⟩, rfl⟩, rfl⟩, rfl⟩
  rfl

theorem optionTrade_free : VariantFree .optionTrade := by
  refine string_free.cons (wrapped_free.cons (wrapped_free.cons (side_free.cons
    ((optional_prefixFree wrapped_free).cons (.nil ?_)))))
  rintro ⟨_, _, _, _, _⟩ ⟨_, _, _, _, _⟩ ⟨⟨⟨⟨⟨-, rfl⟩, rfl⟩, rfl⟩, rfl⟩, rfl⟩
  rfl

theorem venueStatus_free : VariantFree .venueStatus := by
  refine (u8_free.comp VenueState.toU8_injective).cons (i64_free.cons
    ((optional_prefixFree string_free).cons (.nil ?_)))
  rintro ⟨_, _, _⟩ ⟨_, _, _⟩ ⟨⟨⟨-, rfl⟩, rfl⟩, rfl⟩
  rfl

theorem chainBlock_free : VariantFree .chainBlock := by
  refine asset_free.cons (string_free.cons ((optional_prefixFree string_free).cons (u64_free.cons
    (i64_free.cons (u64_free.cons ((u8_free.comp FinalityState.toU8_injective).cons (u64_free.cons
    (.nil ?_))))))))
  rintro ⟨_, _, _, _, _, _, _, _⟩ ⟨_, _, _, _, _, _, _, _⟩
    ⟨⟨⟨⟨⟨⟨⟨⟨-, rfl⟩, rfl⟩, rfl⟩, rfl⟩, rfl⟩, rfl⟩, rfl⟩, rfl⟩
  rfl

theorem chainTransactionAggregate_free : VariantFree .chainTransactionAggregate := by
  refine asset_free.cons (i64_free.cons (i64_free.cons (u64_free.cons
    ((optional_prefixFree wrapped_free).cons ((optional_prefixFree wrapped_free).cons
    (.nil ?_))))))
  rintro ⟨_, _, _, _, _, _⟩ ⟨_, _, _, _, _, _⟩ ⟨⟨⟨⟨⟨⟨-, rfl⟩, rfl⟩, rfl⟩, rfl⟩, rfl⟩, rfl⟩
  rfl

theorem chainMempoolObservation_free : VariantFree .chainMempoolObservation := by
  refine asset_free.cons (i64_free.cons (u64_free.cons (u64_free.cons
    ((optional_prefixFree wrapped_free).cons (.nil ?_)))))
  rintro ⟨_, _, _, _, _⟩ ⟨_, _, _, _, _⟩ ⟨⟨⟨⟨⟨-, rfl⟩, rfl⟩, rfl⟩, rfl⟩, rfl⟩
  rfl

theorem chainMetric_free : VariantFree .chainMetric := by
  refine asset_free.cons (string_free.cons (decimal_free.cons (i64_free.cons (.nil ?_))))
  rintro ⟨_, _, _, _⟩ ⟨_, _, _, _⟩ ⟨⟨⟨⟨-, rfl⟩, rfl⟩, rfl⟩, rfl⟩
  rfl

theorem externalMarketObservation_free : VariantFree .externalMarketObservation := by
  refine string_free.cons (decimal_free.cons (i64_free.cons
    ((optional_prefixFree string_free).cons (.nil ?_))))
  rintro ⟨_, _, _, _⟩ ⟨_, _, _, _⟩ ⟨⟨⟨⟨-, rfl⟩, rfl⟩, rfl⟩, rfl⟩
  rfl

theorem structuredEvent_free : VariantFree .structuredEvent := by
  refine string_free.cons (string_free.cons ((collection_free asset_free).cons
    ((collection_free venue_free).cons ((collection_free string_free).cons (source_free.cons
    (u32_free.cons (i64_free.cons ((optional_prefixFree i64_free).cons
    ((optional_prefixFree i64_free).cons (wrapped_free.cons (u32_free.cons (u32_free.cons
    (boolean_free.cons (hash_free.cons (string_free.cons (string_free.cons
    ((collection_free fact_free).cons (.nil ?_))))))))))))))))))
  intro record other hfields
  cases record
  cases other
  simpa only [StructuredEvent.mk.injEq, and_assoc, true_and] using hfields

theorem dataQualityObservation_free : VariantFree .dataQualityObservation := by
  refine string_free.cons (i64_free.cons (u32_free.cons (u64_free.cons
    ((optional_prefixFree string_free).cons (.nil ?_)))))
  rintro ⟨_, _, _, _, _⟩ ⟨_, _, _, _, _⟩ ⟨⟨⟨⟨⟨-, rfl⟩, rfl⟩, rfl⟩, rfl⟩, rfl⟩
  rfl

theorem predictionRecord_free : VariantFree .predictionRecord := by
  refine string_free.cons (i64_free.cons (string_free.cons (string_free.cons (u32_free.cons
    (string_free.cons (u64_free.cons (u32_free.cons (wrapped_free.cons (u32_free.cons
    (u32_free.cons (u32_free.cons ((u8_free.comp AvailabilityState.toU8_injective).cons
    (u32_free.cons (u32_free.cons (string_free.cons (string_free.cons
    ((optional_prefixFree string_free).cons (.nil ?_))))))))))))))))))
  intro record other hfields
  cases record
  cases other
  simpa only [PredictionRecord.mk.injEq, and_assoc, true_and] using hfields

theorem alertEvent_free : VariantFree .alertEvent := by
  refine string_free.cons (string_free.cons ((u8_free.comp AlertStatus.toU8_injective).cons
    (u8_free.cons (i64_free.cons ((optional_prefixFree i64_free).cons
    ((optional_prefixFree string_free).cons (string_free.cons (.nil ?_))))))))
  intro record other hfields
  cases record
  cases other
  simpa only [AlertEvent.mk.injEq, and_assoc, true_and] using hfields

/-- The bytes of a payload determine it, whatever follows them. -/
theorem encodePayload_free : PrefixFree encodePayload := by
  intro p q x y r s _ hp hq hxy
  obtain ⟨x₁, x₂, hx₁, hx₂, rfl⟩ := concat_cons_eq_ok.mp hp
  obtain ⟨y₁, y₂, hy₁, hy₂, rfl⟩ := concat_cons_eq_ok.mp hq
  rw [List.append_assoc, List.append_assoc] at hxy
  obtain ⟨htag, hrest⟩ := u8_free _ _ _ _ _ _ trivial hx₁ hy₁ hxy
  have htype : p.eventType = q.eventType := EventType.toU8_injective htag
  clear hp hq hx₁ hy₁ hxy htag
  -- only the 22 pairs of one variant survive; each is read by its own record lemma
  cases p <;> cases q <;> try cases htype
  case trade.trade => exact trade_free.reads hx₂ hy₂ hrest
  case topOfBook.topOfBook => exact topOfBook_free.reads hx₂ hy₂ hrest
  case bookSnapshot.bookSnapshot => exact bookSnapshot_free.reads hx₂ hy₂ hrest
  case bookDelta.bookDelta => exact bookDelta_free.reads hx₂ hy₂ hrest
  case instrumentDefinition.instrumentDefinition => exact instrumentPayload_free.reads hx₂ hy₂ hrest
  case fundingObservation.fundingObservation => exact fundingObservation_free.reads hx₂ hy₂ hrest
  case openInterestObservation.openInterestObservation =>
    exact openInterestObservation_free.reads hx₂ hy₂ hrest
  case liquidationObservation.liquidationObservation =>
    exact liquidationObservation_free.reads hx₂ hy₂ hrest
  case markIndexObservation.markIndexObservation =>
    exact markIndexObservation_free.reads hx₂ hy₂ hrest
  case futureBasisObservation.futureBasisObservation =>
    exact futureBasisObservation_free.reads hx₂ hy₂ hrest
  case optionTicker.optionTicker => exact optionTicker_free.reads hx₂ hy₂ hrest
  case optionTrade.optionTrade => exact optionTrade_free.reads hx₂ hy₂ hrest
  case venueStatus.venueStatus => exact venueStatus_free.reads hx₂ hy₂ hrest
  case chainBlock.chainBlock => exact chainBlock_free.reads hx₂ hy₂ hrest
  case chainTransactionAggregate.chainTransactionAggregate =>
    exact chainTransactionAggregate_free.reads hx₂ hy₂ hrest
  case chainMempoolObservation.chainMempoolObservation =>
    exact chainMempoolObservation_free.reads hx₂ hy₂ hrest
  case chainMetric.chainMetric => exact chainMetric_free.reads hx₂ hy₂ hrest
  case externalMarketObservation.externalMarketObservation =>
    exact externalMarketObservation_free.reads hx₂ hy₂ hrest
  case structuredEvent.structuredEvent => exact structuredEvent_free.reads hx₂ hy₂ hrest
  case dataQualityObservation.dataQualityObservation =>
    exact dataQualityObservation_free.reads hx₂ hy₂ hrest
  case predictionRecord.predictionRecord => exact predictionRecord_free.reads hx₂ hy₂ hrest
  case alertEvent.alertEvent => exact alertEvent_free.reads hx₂ hy₂ hrest

end CryptoIntelligence.Event
