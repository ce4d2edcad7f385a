/-
  The features that a trigger state is built from (`fast-state`, `trigger_state.rs`), and the
  definitions they must have (`feature-engine`, the catalogues of tasks four to six).

  The formula hashes of the catalogue are a parameter.
-/
import CryptoIntelligence.Features.Observation

namespace CryptoIntelligence.FastState

open Lib Features Domain Quality

inductive TriggerFeature where
  | bidDepthChange
  | askDepthChange
  | cancellationRatePerSecond
  | cancellationToTradeRatio
  | tradePrintSweepDirection
  | topOfBookOfi
  | crossVenueMedianAbsoluteDispersion
  | liquidationObservedVelocity
  | openInterestRelativeChange
  | logReturn
  | markIndexDivergence
  | liquidationSourceCompletenessFlag
  | featureAgeNs
  | staleQuoteDurationNs
  | sourceOutageIndicator
  | cascadeEligibilityGate
  deriving DecidableEq, Repr

namespace TriggerFeature

def id : TriggerFeature → String
  | .bidDepthChange => "bid_depth_change"
  | .askDepthChange => "ask_depth_change"
  | .cancellationRatePerSecond => "cancellation_rate_per_second"
  | .cancellationToTradeRatio => "cancellation_to_trade_ratio"
  | .tradePrintSweepDirection => "trade_print_sweep_direction"
  | .topOfBookOfi => "top_of_book_ofi"
  | .crossVenueMedianAbsoluteDispersion => "cross_venue_median_absolute_dispersion"
  | .liquidationObservedVelocity => "liquidation_observed_velocity"
  | .openInterestRelativeChange => "open_interest_relative_change"
  | .logReturn => "log_return"
  | .markIndexDivergence => "mark_index_divergence"
  | .liquidationSourceCompletenessFlag => "liquidation_source_completeness_flag"
  | .featureAgeNs => "feature_age_ns"
  | .staleQuoteDurationNs => "stale_quote_duration_ns"
  | .sourceOutageIndicator => "source_outage_indicator"
  | .cascadeEligibilityGate => "cascade_eligibility_gate"

def all : List TriggerFeature :=
  [.bidDepthChange, .askDepthChange, .cancellationRatePerSecond, .cancellationToTradeRatio,
    .tradePrintSweepDirection, .topOfBookOfi, .crossVenueMedianAbsoluteDispersion,
    .liquidationObservedVelocity, .openInterestRelativeChange, .logReturn, .markIndexDivergence,
    .liquidationSourceCompletenessFlag, .featureAgeNs, .staleQuoteDurationNs,
    .sourceOutageIndicator, .cascadeEligibilityGate]

/-- The feature of an identifier; the closed match of `expected_contract`. -/
def ofId? (value : String) : Option TriggerFeature := all.find? fun feature => feature.id == value

def role : TriggerFeature → FeatureConsumptionRole
  | .liquidationSourceCompletenessFlag | .featureAgeNs | .staleQuoteDurationNs
  | .sourceOutageIndicator => .uncertaintyOnly
  | .cascadeEligibilityGate => .gatingOnly
  | _ => .modelEligible

def valueType : TriggerFeature → FeatureValueType
  | .bidDepthChange | .askDepthChange | .topOfBookOfi => .fixedDecimal
  | .liquidationSourceCompletenessFlag | .featureAgeNs | .staleQuoteDurationNs => .integer
  | .sourceOutageIndicator | .cascadeEligibilityGate => .boolean
  | _ => .float64

def scope : TriggerFeature → EntityScope
  | .crossVenueMedianAbsoluteDispersion | .logReturn | .cascadeEligibilityGate => .asset
  | .liquidationSourceCompletenessFlag | .featureAgeNs | .staleQuoteDurationNs
  | .sourceOutageIndicator => .source
  | _ => .instrument

end TriggerFeature

/-! ## The catalogue -/

def oneSecond : UInt64 := 1000000000

def oneMinute : UInt64 := 60000000000

def oneDay : UInt64 := 86400000000000

def fiveSeconds : UInt64 := 5000000000

def snapshotWindow : WindowDefinition := ⟨"tumbling_1s", .tumbling, .time oneSecond none⟩

def flowWindow : WindowDefinition := ⟨"rolling_1m", .sliding, .time oneMinute (some oneSecond)⟩

/-- The windows of a return, by identifier. -/
def returnWindows : List WindowDefinition :=
  [⟨"rolling_15m", .sliding, .time (15 * oneMinute) (some oneMinute)⟩,
    ⟨"rolling_1h", .sliding, .time (60 * oneMinute) (some oneMinute)⟩,
    ⟨"rolling_5m", .sliding, .time (5 * oneMinute) (some oneMinute)⟩]

theorem ninetyPercent_le : 900000 ≤ maximumMillionths := by decide

theorem zero_le_maximum : 0 ≤ maximumMillionths := by decide

def ninetyPercent : QualityScore := ⟨900000, ninetyPercent_le⟩

def fullScore : QualityScore := ⟨1000000, Nat.le_refl _⟩

def zeroScore : QualityScore := ⟨0, zero_le_maximum⟩

def qualityContract : TriggerFeature → QualityRequirement
  | .logReturn => ⟨ninetyPercent, fullScore, [.healthy, .recovering]⟩
  | .bidDepthChange | .askDepthChange | .cancellationRatePerSecond | .cancellationToTradeRatio
  | .tradePrintSweepDirection | .topOfBookOfi => ⟨ninetyPercent, fullScore, [.healthy]⟩
  | .crossVenueMedianAbsoluteDispersion | .liquidationObservedVelocity
  | .openInterestRelativeChange | .markIndexDivergence => ⟨ninetyPercent, ninetyPercent, [.healthy]⟩
  | .liquidationSourceCompletenessFlag | .featureAgeNs | .staleQuoteDurationNs
  | .sourceOutageIndicator | .cascadeEligibilityGate =>
    -- sorted by name
    ⟨zeroScore, zeroScore, [.degraded, .healthy, .quarantined, .recovering, .unhealthy]⟩

def requiredInputs : TriggerFeature → List String
  | .bidDepthChange | .askDepthChange | .topOfBookOfi =>
    ["instrument.definition", "orderbook.trusted_l2", "quality.book_evidence_policy"]
  | .cancellationRatePerSecond | .cancellationToTradeRatio =>
    ["aggressor.authority", "lifecycle.certified_l3", "normalized.trades"]
  | .tradePrintSweepDirection =>
    ["aggressor.authority", "normalized.trades", "policy.microstructure_thresholds"]
  | .crossVenueMedianAbsoluteDispersion =>
    ["consolidated.catalog_bound_book_state", "consolidated.eligible_source_universe"]
  | .liquidationObservedVelocity =>
    ["connector.liquidation_normalization_receipt", "instrument.definition", "window.finalization"]
  | .openInterestRelativeChange =>
    ["connector.derivative_normalization_receipt", "instrument.definition", "window.finalization"]
  | .logReturn => ["consolidated.fair_price"]
  | .markIndexDivergence =>
    ["connector.derivative_normalization_receipt", "instrument.definition"]
  | .liquidationSourceCompletenessFlag =>
    ["connector.liquidation_normalization_receipt", "window.finalization"]
  | .featureAgeNs | .staleQuoteDurationNs | .sourceOutageIndicator =>
    ["collector.quality_gate_receipt"]
  | .cascadeEligibilityGate =>
    ["consolidated.catalog_bound_book_state", "consolidated.eligible_source_universe",
      "window.finalization"]

def windows : TriggerFeature → List WindowDefinition
  | .logReturn => returnWindows
  | .crossVenueMedianAbsoluteDispersion | .markIndexDivergence | .featureAgeNs
  | .staleQuoteDurationNs | .sourceOutageIndicator => [snapshotWindow]
  | _ => [flowWindow]

/-- The identifier with `-` for `_`. -/
def documentationAnchor (value : String) : String :=
  String.ofList (value.toList.map fun c => if c = '_' then '-' else c)

def canonicalDefinition (formulaHash : TriggerFeature → List UInt8) (feature : TriggerFeature) :
    FeatureDefinition where
  id := feature.id
  version := .release 1 0 0
  status := .required_
  consumptionRole := feature.role
  valueType := feature.valueType
  entities := feature.scope
  requiredInputs := requiredInputs feature
  eventTimePolicy := .sourceEventTime
  windows := windows feature
  outputResolution := if feature = .logReturn then oneMinute else oneSecond
  allowedLateness := fiveSeconds
  timeToLive := oneDay
  normalization := ⟨.none_, .release 1 0 0⟩
  missingness := .explicit
  qualityGate := qualityContract feature
  formulaHash := formulaHash feature
  documentation := "docs/data-dictionary/features.md#" ++ documentationAnchor feature.id

end CryptoIntelligence.FastState
