/-
  The normalized records of the event contract (`event-envelope/src/payload.rs` and the market
  records of `lib.rs`), each with the validation the source applies to it.
-/
import CryptoIntelligence.Domain.Identity

namespace CryptoIntelligence.Event

open Lib Decimal Domain

inductive EventError where
  | invalidMetadata (field : String)
  | invalidPayload (field : String)
  | sequenceMismatch
  | identityMismatch
  | eventTypeMismatch
  | canonicalFieldTooLarge
  | wireTooLarge
  deriving DecidableEq, Repr

abbrev Hash32 := Vector UInt8 32

def zeroHash : Hash32 := Vector.replicate 32 0

/-! ## Shared checks -/

def maxText : Nat := 4096

def maxCollection : Nat := 10000

def maxPriority : UInt8 := 3

def validateScore (value : UInt32) (field : String) : Except EventError Unit :=
  reject (value > 1000000) (.invalidPayload field)

def validateInterval (start stop : UnixNanos) (field : String) : Except EventError Unit :=
  reject (stop ≤ start) (.invalidPayload field)

def negativeOne : FixedDecimal := .whole (-1) (by decide)

def one : FixedDecimal := .whole 1 (by decide)

theorem one_isPositive : one.isPositive = true := by decide

theorem one_not_isNegative : (!one.isNegative) = true := by decide

def validateUnitRate (value : Rate) (field : String) : Except EventError Unit :=
  reject ((compare value.value negativeOne).isLT || (compare value.value one).isGT)
    (.invalidPayload field)

def validateText (value : String) (field : String) : Except EventError Unit :=
  reject (value.toList.isEmpty || decide ((utf8 value).length > maxText)
    || value.toList.any isControl || trim value.toList != value.toList) (.invalidPayload field)

def validateOptionalText (value : Option String) (field : String) : Except EventError Unit :=
  match value with
  | some value => validateText value field
  | none => .ok ()

/-! ## Market records -/

inductive Side where
  | buy
  | sell
  | unknown
  deriving DecidableEq, Repr

def Side.toU8 : Side → UInt8
  | .buy => 0
  | .sell => 1
  | .unknown => 2

theorem Side.toU8_injective : Function.Injective Side.toU8 := by
  intro a b h
  cases a <;> cases b <;> first | rfl | cases h

structure BookLevel where
  price : Price
  quantity : Quantity
  orderCount : Option UInt32
  deriving DecidableEq

/-- Adjacent prices compare as `order` says (`windows(2).all(..)`). -/
def pricesOrdered (order : Ordering) : List BookLevel → Bool
  | a :: b :: rest => compare a.price b.price == order && pricesOrdered order (b :: rest)
  | _ => true

structure Trade where
  tradeId : String
  price : Price
  quantity : Quantity
  side : Side
  deriving DecidableEq

structure BookSnapshot where
  bids : List BookLevel
  asks : List BookLevel
  lastSequence : UInt64
  deriving DecidableEq

structure BookDelta where
  bids : List BookLevel
  asks : List BookLevel
  firstSequence : UInt64
  lastSequence : UInt64
  deriving DecidableEq

structure TopOfBook where
  bid : Option BookLevel
  ask : Option BookLevel
  deriving DecidableEq

def TopOfBook.validate (v : TopOfBook) : Except EventError Unit := do
  reject (v.bid.isNone && v.ask.isNone) (.invalidPayload "top of book")
  reject ((∃ bid ∈ v.bid, ∃ ask ∈ v.ask, (compare bid.price ask.price).isGE)
      ∨ (∃ level ∈ v.bid, level.quantity.value.isZero)
      ∨ (∃ level ∈ v.ask, level.quantity.value.isZero))
    (.invalidPayload "top of book state")

structure FundingObservation where
  fundingRate : Rate
  observedAt : UnixNanos
  nextFundingTime : Option UnixNanos
  deriving DecidableEq

def FundingObservation.validate (v : FundingObservation) : Except EventError Unit :=
  reject (∃ next ∈ v.nextFundingTime, next ≤ v.observedAt) (.invalidPayload "funding time")

structure OpenInterestObservation where
  quantity : Quantity
  quoteNotional : Option Notional
  observedAt : UnixNanos
  deriving DecidableEq

structure LiquidationObservation where
  liquidationId : String
  price : Price
  quantity : Quantity
  side : Side
  deriving DecidableEq

def LiquidationObservation.validate (v : LiquidationObservation) : Except EventError Unit := do
  validateText v.liquidationId "liquidation id"
  reject (v.quantity.value.isZero || v.side == .unknown) (.invalidPayload "liquidation")

structure MarkIndexObservation where
  markPrice : Price
  indexPrice : Price
  deriving DecidableEq

structure FutureBasisObservation where
  futurePrice : Price
  referencePrice : Price
  basisRate : Rate
  annualizedBasisRate : Option Rate
  deriving DecidableEq

structure OptionTicker where
  bidPrice : Option Price
  askPrice : Option Price
  markPrice : Price
  markIv : Rate
  delta : Rate
  openInterest : Quantity
  deriving DecidableEq

def OptionTicker.validate (v : OptionTicker) : Except EventError Unit := do
  reject ((∃ bid ∈ v.bidPrice, ∃ ask ∈ v.askPrice, (compare bid ask).isGT)
      ∨ v.markIv.value.isNegative) (.invalidPayload "option ticker")
  validateUnitRate v.delta "option delta"

structure OptionTrade where
  tradeId : String
  price : Price
  quantity : Quantity
  side : Side
  impliedVolatility : Option Rate
  deriving DecidableEq

def OptionTrade.validate (v : OptionTrade) : Except EventError Unit := do
  validateText v.tradeId "option trade id"
  reject (v.quantity.value.isZero ∨ ∃ iv ∈ v.impliedVolatility, iv.value.isNegative)
    (.invalidPayload "option trade")

inductive VenueState where
  | operational
  | degraded
  | maintenance
  | auction
  | suspended
  | offline
  deriving DecidableEq, Repr

def VenueState.toU8 : VenueState → UInt8
  | .operational => 0
  | .degraded => 1
  | .maintenance => 2
  | .auction => 3
  | .suspended => 4
  | .offline => 5

theorem VenueState.toU8_injective : Function.Injective VenueState.toU8 := by
  intro a b h
  cases a <;> cases b <;> first | rfl | cases h

structure VenueStatus where
  state : VenueState
  observedAt : UnixNanos
  message : Option String
  deriving DecidableEq

def VenueStatus.validate (v : VenueStatus) : Except EventError Unit :=
  validateOptionalText v.message "venue status message"

/-! ## Chain records -/

inductive FinalityState where
  | unconfirmed
  | confirmed
  | finalized
  | reverted
  deriving DecidableEq, Repr

def FinalityState.toU8 : FinalityState → UInt8
  | .unconfirmed => 0
  | .confirmed => 1
  | .finalized => 2
  | .reverted => 3

theorem FinalityState.toU8_injective : Function.Injective FinalityState.toU8 := by
  intro a b h
  cases a <;> cases b <;> first | rfl | cases h

structure ChainBlock where
  chain : AssetId
  blockHash : String
  parentHash : Option String
  height : UInt64
  blockTime : UnixNanos
  confirmationDepth : UInt64
  finality : FinalityState
  transactionCount : UInt64
  deriving DecidableEq

def ChainBlock.validate (v : ChainBlock) : Except EventError Unit := do
  validateText v.blockHash "block hash"
  validateOptionalText v.parentHash "parent hash"

structure ChainTransactionAggregate where
  chain : AssetId
  intervalStart : UnixNanos
  intervalEnd : UnixNanos
  transactionCount : UInt64
  transferredValue : Option Notional
  feeTotal : Option Notional
  deriving DecidableEq

def ChainTransactionAggregate.validate (v : ChainTransactionAggregate) : Except EventError Unit :=
  validateInterval v.intervalStart v.intervalEnd "chain transaction interval"

structure ChainMempoolObservation where
  chain : AssetId
  observedAt : UnixNanos
  transactionCount : UInt64
  virtualSize : UInt64
  totalFees : Option Notional
  deriving DecidableEq

structure ChainMetric where
  chain : AssetId
  metricName : String
  value : FixedDecimal
  observedAt : UnixNanos
  deriving DecidableEq

def ChainMetric.validate (v : ChainMetric) : Except EventError Unit :=
  validateText v.metricName "chain metric name"

structure ExternalMarketObservation where
  marketId : String
  value : FixedDecimal
  observedAt : UnixNanos
  sourceNativeId : Option String
  deriving DecidableEq

def ExternalMarketObservation.validate (v : ExternalMarketObservation) :
    Except EventError Unit := do
  validateText v.marketId "external market id"
  validateOptionalText v.sourceNativeId "source native id"

/-! ## Structured events, quality, predictions and alerts -/

structure StructuredFact where
  key : String
  value : String
  deriving DecidableEq

structure StructuredEvent where
  structuredEventId : String
  eventType : String
  affectedAssets : List AssetId
  affectedVenues : List VenueId
  affectedProtocols : List String
  sourceIdentity : SourceId
  sourceReliabilityPpm : UInt32
  publicationTime : UnixNanos
  effectiveTime : Option UnixNanos
  expectedEndTime : Option UnixNanos
  directionPrior : Rate
  severityPpm : UInt32
  extractionConfidencePpm : UInt32
  humanVerified : Bool
  sourceDocumentHash : Hash32
  extractorModelId : String
  extractorPromptVersion : String
  extractedFacts : List StructuredFact
  deriving DecidableEq

def StructuredEvent.validate (v : StructuredEvent) : Except EventError Unit := do
  validateText v.structuredEventId "structured event id"
  validateText v.eventType "structured event type"
  validateText v.extractorModelId "extractor model id"
  validateText v.extractorPromptVersion "extractor prompt version"
  validateScore v.sourceReliabilityPpm "source reliability"
  validateScore v.severityPpm "severity"
  validateScore v.extractionConfidencePpm "extraction confidence"
  validateUnitRate v.directionPrior "direction prior"
  reject (v.sourceDocumentHash = zeroHash
      ∨ v.affectedAssets.length > maxCollection
      ∨ v.affectedVenues.length > maxCollection
      ∨ v.affectedProtocols.length > maxCollection
      ∨ v.extractedFacts.length > maxCollection
      ∨ ∃ effective ∈ v.effectiveTime, ∃ stop ∈ v.expectedEndTime, stop ≤ effective)
    (.invalidPayload "structured event")
  checkAll (fun protocol => validateText protocol "affected protocol") v.affectedProtocols
  checkAll (fun fact => do
    validateText fact.key "structured fact key"
    validateText fact.value "structured fact value") v.extractedFacts

structure DataQualityObservation where
  component : String
  observedAt : UnixNanos
  scorePpm : UInt32
  flags : UInt64
  details : Option String
  deriving DecidableEq

def DataQualityObservation.validate (v : DataQualityObservation) : Except EventError Unit := do
  validateText v.component "quality component"
  validateScore v.scorePpm "quality score"
  validateOptionalText v.details "quality details"

inductive AvailabilityState where
  | available
  | degraded
  | unavailable
  | abstained
  deriving DecidableEq, Repr

def AvailabilityState.toU8 : AvailabilityState → UInt8
  | .available => 0
  | .degraded => 1
  | .unavailable => 2
  | .abstained => 3

theorem AvailabilityState.toU8_injective : Function.Injective AvailabilityState.toU8 := by
  intro a b h
  cases a <;> cases b <;> first | rfl | cases h

structure PredictionRecord where
  forecastId : String
  issuedAt : UnixNanos
  entityId : String
  modelPackageId : String
  forecastSchemaVersion : UInt32
  predictionEventType : String
  horizonSeconds : UInt64
  calibratedProbabilityPpm : UInt32
  rawScore : Rate
  baseRatePpm : UInt32
  lowerUncertaintyPpm : UInt32
  upperUncertaintyPpm : UInt32
  availability : AvailabilityState
  qualityScorePpm : UInt32
  applicabilityScorePpm : UInt32
  scenarioSummaryId : String
  evidenceBundleId : String
  supersedesForecastId : Option String
  deriving DecidableEq

def PredictionRecord.validate (v : PredictionRecord) : Except EventError Unit := do
  checkAll (fun (value, field) => validateText value field)
    [(v.forecastId, "forecast id"), (v.entityId, "forecast entity id"),
      (v.modelPackageId, "model package id"), (v.predictionEventType, "prediction event type"),
      (v.scenarioSummaryId, "scenario summary id"), (v.evidenceBundleId, "evidence bundle id")]
  validateOptionalText v.supersedesForecastId "superseded forecast id"
  checkAll (fun (value, field) => validateScore value field)
    [(v.calibratedProbabilityPpm, "calibrated probability"), (v.baseRatePpm, "base rate"),
      (v.lowerUncertaintyPpm, "lower uncertainty"), (v.upperUncertaintyPpm, "upper uncertainty"),
      (v.qualityScorePpm, "forecast quality"), (v.applicabilityScorePpm, "forecast applicability")]
  reject (v.forecastSchemaVersion = 0 ∨ v.horizonSeconds = 0
      ∨ v.lowerUncertaintyPpm > v.calibratedProbabilityPpm
      ∨ v.calibratedProbabilityPpm > v.upperUncertaintyPpm) (.invalidPayload "prediction record")

inductive AlertStatus where
  | triggered
  | updated
  | recovered
  | acknowledged
  deriving DecidableEq, Repr

def AlertStatus.toU8 : AlertStatus → UInt8
  | .triggered => 0
  | .updated => 1
  | .recovered => 2
  | .acknowledged => 3

theorem AlertStatus.toU8_injective : Function.Injective AlertStatus.toU8 := by
  intro a b h
  cases a <;> cases b <;> first | rfl | cases h

structure AlertEvent where
  alertId : String
  ruleId : String
  status : AlertStatus
  priority : UInt8
  triggeredAt : UnixNanos
  recoveredAt : Option UnixNanos
  forecastId : Option String
  message : String
  deriving DecidableEq

def AlertEvent.validate (v : AlertEvent) : Except EventError Unit := do
  validateText v.alertId "alert id"
  validateText v.ruleId "alert rule id"
  validateText v.message "alert message"
  validateOptionalText v.forecastId "alert forecast id"
  reject (v.priority > maxPriority
      ∨ (∃ recovered ∈ v.recoveredAt, recovered < v.triggeredAt)
      ∨ (v.status = .recovered ∧ v.recoveredAt.isNone)
      ∨ (v.status ≠ .recovered ∧ v.recoveredAt.isSome)) (.invalidPayload "alert event")

end CryptoIntelligence.Event
