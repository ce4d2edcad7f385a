/-
  The trigger state (`fast-state`, `trigger_state.rs` and `features.rs`): one pass over the
  observations collects the values that are present and marks what is missing; the outputs are
  computed from the values; health is derived from the marks.
-/
import CryptoIntelligence.FastState.Contract
import CryptoIntelligence.Registry.Snapshot

namespace CryptoIntelligence.FastState

open Lib Features Domain Quality Decimal
open Event (Hash32)
open Registry (CatalogSnapshot)

inductive TriggerError where
  | invalidTargetSources
  | invalidInstrumentTarget
  | invalidEvaluationTime
  | invalidObservationCount
  | unsupportedFeature
  | featureContractMismatch (feature : String)
  | duplicateObservation
  | duplicateFeatureSlot
  | observationTargetMismatch
  | sourceUniverseMismatch
  | observationNotAvailable
  | invalidFeatureValue (feature : String)
  | invalidFeatureHistory (feature : String)
  | inconsistentCascadeEligibility
  | registry (error : RegistryError)
  deriving DecidableEq, Repr

/-! ## The target -/

def maximumTriggerSources : Nat := 64

/-- The checks on the sorted sources. -/
def checkSources (sources : List SourceId) : Except TriggerError Unit := do
  reject (sources = [] ∨ sources.length > maximumTriggerSources) .invalidTargetSources
  reject (anyNeighbours (fun a b => a == b) sources = true) .invalidTargetSources

structure TriggerStateTarget where
  instrument : InstrumentId
  asset : AssetId
  sources : List SourceId
  effectiveAtNs : Int64
  catalogAsKnownAtNs : Int64
  instrumentDefinitionHash : Hash32
  catalogDigest : Hash32
  valid : checkSources sources = .ok ()

def TriggerStateTarget.tryFromCatalog (blake3 : Bytes → Hash32) (catalog : CatalogSnapshot)
    (instrument : InstrumentId) (effectiveAtNs : Int64) (sources : List SourceId) :
    Except TriggerError TriggerStateTarget := do
  reject (sources = [] ∨ sources.length > maximumTriggerSources) .invalidTargetSources
  reject (effectiveAtNs ≤ 0 ∨ catalog.verifyIntegrity blake3 = false) .invalidInstrumentTarget
  let ⟨_, h⟩ ← attach (checkSources (sortSources id sources))
  let resolved ← (catalog.resolveId instrument effectiveAtNs).mapError fun _ =>
    TriggerError.invalidInstrumentTarget
  return ⟨resolved.definition.id, resolved.definition.baseAsset, sortSources id sources,
    effectiveAtNs, resolved.asKnownAt, resolved.definitionHash, resolved.catalogDigest, h⟩

/-! ## The marks -/

inductive TriggerMissingness where
  | staleBook
  | sourceLoss
  | sourceQualityDegraded
  | expiredInput
  | insufficientHistory
  | incompleteLiquidationCoverage
  | cascadeIneligible
  | depthDisappearance
  | cancellationBurst
  | sweepDirection
  | orderFlowImbalance
  | crossVenueDispersionAcceleration
  | liquidationVelocity
  | liquidationPressure
  | openInterestDestruction
  | markIndexDivergence
  | featureAge
  deriving DecidableEq, Repr

abbrev Marks := Finset TriggerMissingness

inductive TriggerHealth where
  | healthy
  | degraded
  | unavailable
  deriving DecidableEq, Repr

def isSourceEvidenceFeature : TriggerFeature → Bool
  | .liquidationSourceCompletenessFlag | .featureAgeNs | .staleQuoteDurationNs
  | .sourceOutageIndicator => true
  | _ => false

/-- The output that lacks the feature; staleness and outage have none. -/
def missingOutput? : TriggerFeature → Option TriggerMissingness
  | .bidDepthChange | .askDepthChange => some .depthDisappearance
  | .cancellationRatePerSecond | .cancellationToTradeRatio => some .cancellationBurst
  | .tradePrintSweepDirection => some .sweepDirection
  | .topOfBookOfi => some .orderFlowImbalance
  | .crossVenueMedianAbsoluteDispersion => some .crossVenueDispersionAcceleration
  | .liquidationObservedVelocity => some .liquidationVelocity
  | .openInterestRelativeChange | .logReturn => some .openInterestDestruction
  | .markIndexDivergence => some .markIndexDivergence
  | .featureAgeNs => some .featureAge
  | .liquidationSourceCompletenessFlag | .cascadeEligibilityGate =>
    some .incompleteLiquidationCoverage
  | .staleQuoteDurationNs | .sourceOutageIndicator => none

def markFeatureMissing (feature : TriggerFeature) (marks : Marks) : Marks :=
  match missingOutput? feature with
  | some mark => insert mark marks
  | none => marks

def markReason (reason : MissingnessReason) (feature : TriggerFeature) (marks : Marks) : Marks :=
  markFeatureMissing feature <| match reason with
    | .stale => if feature = .staleQuoteDurationNs then insert .staleBook marks else marks
    | .sourceDisconnected | .sequenceGap =>
      if isSourceEvidenceFeature feature then insert .sourceLoss marks else marks
    | .insufficientHistory | .windowNotFinal => insert .insufficientHistory marks
    | .notListed | .sourceNotSupported | .belowLiquidityThreshold | .vendorRevisionPending
    | .modelNotApplicable | .privacyOrLicenseRestriction | .unknown => marks

def healthyQualityMillionths : Nat := 900000

def deriveHealth (sourceLoss : Bool) (marks : Marks) (minimumQualityScore : QualityScore)
    (minimumSourceCoverageMillionths : Nat) : TriggerHealth :=
  if sourceLoss then .unavailable
  else if marks ≠ ∅ ∨ minimumQualityScore.millionths < healthyQualityMillionths
      ∨ minimumSourceCoverageMillionths < maximumMillionths then .degraded
  else .healthy

/-! ## Aggregations -/

section Aggregations

variable {F : Type} (ops : FloatOps F)

def requireFinite (feature : String) (value : F) : Except TriggerError Unit :=
  reject (ops.isFinite value = false) (.invalidFeatureValue feature)

def requireNonnegative (feature : String) (value : F) : Except TriggerError F := do
  requireFinite ops feature value
  reject (ops.le (ops.ofNat 0) value = false) (.invalidFeatureValue feature)
  return value

def validateSweepDirection (value : F) : Except TriggerError F := do
  requireFinite ops "trade_print_sweep_direction" value
  reject (¬ (ops.le (ops.neg (ops.ofNat 1)) value && ops.le value (ops.ofNat 1)) = true)
    (.invalidFeatureValue "trade_print_sweep_direction")
  return value

def validateMarkIndexDivergence (value : F) : Except TriggerError F := do
  requireFinite ops "mark_index_divergence" value
  reject (ops.lt (ops.neg (ops.ofNat 1)) value = false)
    (.invalidFeatureValue "mark_index_divergence")
  return value

def depthDisappearance (bidDepthChange askDepthChange : F) : Except TriggerError F := do
  requireFinite ops "bid_depth_change" bidDepthChange
  requireFinite ops "ask_depth_change" askDepthChange
  return ops.max (ops.max (ops.neg bidDepthChange) (ops.neg askDepthChange)) (ops.ofNat 0)

/-- The value, if it and what it was computed from are finite. -/
def finiteResult (feature : String) (argument value : F) : Except TriggerError F := do
  reject (¬ (ops.isFinite argument && ops.isFinite value) = true) (.invalidFeatureValue feature)
  return value

def cancellationBurst (rate ratio : F) : Except TriggerError F := do
  let _ ← requireNonnegative ops "cancellation_rate_per_second" rate
  let _ ← requireNonnegative ops "cancellation_to_trade_ratio" ratio
  finiteResult ops "cancellation_burst" (ops.mul rate ratio) (ops.ln1p (ops.mul rate ratio))

def dispersionAcceleration (prior : F) (priorEventTimeNs : Int64) (current : F)
    (currentEventTimeNs : Int64) : Except TriggerError F := do
  let _ ← requireNonnegative ops "cross_venue_median_absolute_dispersion" prior
  let _ ← requireNonnegative ops "cross_venue_median_absolute_dispersion" current
  -- event times are positive, so `checked_sub` does not overflow
  let elapsed := currentEventTimeNs.toInt - priorEventTimeNs.toInt
  reject (elapsed ≤ 0) (.invalidFeatureHistory "cross_venue_median_absolute_dispersion")
  let result := ops.div (ops.sub current prior) (ops.div (ops.ofInt elapsed) (ops.ofNat 1000000000))
  finiteResult ops "cross_venue_dispersion_acceleration" result result

def openInterestDestruction (alignedPriceReturn openInterestRelativeChange : F) :
    Except TriggerError F := do
  requireFinite ops "log_return" alignedPriceReturn
  requireFinite ops "open_interest_relative_change" openInterestRelativeChange
  reject (ops.lt openInterestRelativeChange (ops.neg (ops.ofNat 1)))
    (.invalidFeatureValue "open_interest_relative_change")
  let result := ops.mul (ops.max (ops.neg openInterestRelativeChange) (ops.ofNat 0))
    (ops.abs alignedPriceReturn)
  finiteResult ops "open_interest_destruction" result result

def completenessWeightedLiquidationPressure (velocity completeness openInterestDestruction : F) :
    Except TriggerError F := do
  let _ ← requireNonnegative ops "liquidation_observed_velocity" velocity
  let _ ← requireNonnegative ops "open_interest_destruction" openInterestDestruction
  reject (¬ (ops.isFinite completeness && ops.le (ops.ofNat 0) completeness
    && ops.le completeness (ops.ofNat 1)) = true) (.invalidFeatureValue "liquidation_completeness")
  let weighted := ops.mul (ops.mul velocity completeness)
    (ops.add (ops.ofNat 1) openInterestDestruction)
  finiteResult ops "liquidation_pressure" weighted (ops.ln1p weighted)

end Aggregations

/-! ## The pass over the observations -/

section Build

variable {F : Type} {ops : FloatOps F}

structure TriggerInputs (F : Type) where
  bidDepthChange : Option F
  askDepthChange : Option F
  cancellationRate : Option F
  cancellationRatio : Option F
  sweepDirection : Option F
  orderFlowImbalance : Option F
  dispersions : List (Int64 × F)
  liquidationVelocity : Option F
  openInterestRelativeChange : Option (Int64 × F)
  alignedPriceReturn : Option (Int64 × F)
  markIndexDivergence : Option F
  completeLiquidationSources : List SourceId
  cascadeEligible : Option Bool
  maximumFeatureAgeNs : Option Int64
  staleQuoteDetected : Bool
  sourceOutageDetected : Bool

def TriggerInputs.empty : TriggerInputs F :=
  ⟨none, none, none, none, none, none, [], none, none, none, none, [], none, none, false, false⟩

/-- The variables of the loop. -/
structure BuildState (F : Type) where
  values : TriggerInputs F
  seenSlots : List TriggerFeature
  sourceSlots : List (TriggerFeature × SourceId)
  missingness : Marks
  minimumQualityScore : Option QualityScore
  minimumSourceCoverageMillionths : Option Nat
  sourceQualityDegraded : Bool

def BuildState.start : BuildState F := ⟨.empty, [], [], ∅, none, none, false⟩

def floatValue (observation : FeatureObservation ops) (feature : TriggerFeature) :
    Except TriggerError F :=
  match observation.datum with
  | .present (.float64 value) => .ok value.value
  | _ => .error (.invalidFeatureValue feature.id)

/-- `to_f64_lossy_for_analysis` -/
def decimalToFloat (ops : FloatOps F) (value : FixedDecimal) : F :=
  ops.div (ops.ofInt value.mantissa) (ops.tenPow value.scale)

def decimalValue (observation : FeatureObservation ops) (feature : TriggerFeature) :
    Except TriggerError F :=
  match observation.datum with
  | .present (.fixedDecimal value) =>
    if ops.isFinite (decimalToFloat ops value) then .ok (decimalToFloat ops value)
    else .error (.invalidFeatureValue feature.id)
  | _ => .error (.invalidFeatureValue feature.id)

def integerValue (observation : FeatureObservation ops) (feature : TriggerFeature) :
    Except TriggerError Int64 :=
  match observation.datum with
  | .present (.integer value) => .ok value
  | _ => .error (.invalidFeatureValue feature.id)

def booleanValue (observation : FeatureObservation ops) (feature : TriggerFeature) :
    Except TriggerError Bool :=
  match observation.datum with
  | .present (.boolean value) => .ok value
  | _ => .error (.invalidFeatureValue feature.id)

/-- The source that an observation is about. -/
def sourceOf (observation : FeatureObservation ops) : Except TriggerError SourceId :=
  match observation.entity with
  | .source source => .ok source
  | _ => .error .observationTargetMismatch

/-- The value of a feature that is present goes to its variable. -/
def collectPresent (feature : TriggerFeature) (observation : FeatureObservation ops)
    (values : TriggerInputs F) (marks : Marks) : Except TriggerError (TriggerInputs F × Marks) :=
  match feature with
  | .bidDepthChange => do
    let value ← decimalValue observation feature
    return ({ values with bidDepthChange := some value }, marks)
  | .askDepthChange => do
    let value ← decimalValue observation feature
    return ({ values with askDepthChange := some value }, marks)
  | .cancellationRatePerSecond => do
    let value ← requireNonnegative ops feature.id (← floatValue observation feature)
    return ({ values with cancellationRate := some value }, marks)
  | .cancellationToTradeRatio => do
    let value ← requireNonnegative ops feature.id (← floatValue observation feature)
    return ({ values with cancellationRatio := some value }, marks)
  | .tradePrintSweepDirection => do
    let value ← validateSweepDirection ops (← floatValue observation feature)
    return ({ values with sweepDirection := some value }, marks)
  | .topOfBookOfi => do
    let value ← decimalValue observation feature
    return ({ values with orderFlowImbalance := some value }, marks)
  | .crossVenueMedianAbsoluteDispersion => do
    reject (values.dispersions.length = 2) .duplicateFeatureSlot
    let value ← requireNonnegative ops feature.id (← floatValue observation feature)
    return ({ values with
      dispersions := values.dispersions ++ [(observation.eventTimeEnd, value)] }, marks)
  | .liquidationObservedVelocity => do
    let value ← requireNonnegative ops feature.id (← floatValue observation feature)
    return ({ values with liquidationVelocity := some value }, marks)
  | .openInterestRelativeChange => do
    let value ← floatValue observation feature
    reject (ops.lt value (ops.neg (ops.ofNat 1))) (.invalidFeatureValue feature.id)
    return ({ values with
      openInterestRelativeChange := some (observation.eventTimeEnd, value) }, marks)
  | .logReturn => do
    let value ← floatValue observation feature
    return ({ values with alignedPriceReturn := some (observation.eventTimeEnd, value) }, marks)
  | .markIndexDivergence => do
    let value ← validateMarkIndexDivergence ops (← floatValue observation feature)
    return ({ values with markIndexDivergence := some value }, marks)
  | .liquidationSourceCompletenessFlag => do
    let class_ ← integerValue observation feature
    reject (¬ (0 ≤ class_ ∧ class_ ≤ 4)) (.invalidFeatureValue feature.id)
    if class_ = 1 ∨ class_ = 2 then
      let source ← sourceOf observation
      return ({ values with
        completeLiquidationSources := values.completeLiquidationSources ++ [source] }, marks)
    else return (values, insert .incompleteLiquidationCoverage marks)
  | .featureAgeNs => do
    let age ← integerValue observation feature
    reject (age < 0) (.invalidFeatureValue feature.id)
    let maximum := match values.maximumFeatureAgeNs with
      | some current => if current ≤ age then age else current
      | none => age
    return ({ values with maximumFeatureAgeNs := some maximum }, marks)
  | .staleQuoteDurationNs => do
    let duration ← integerValue observation feature
    reject (duration < 0) (.invalidFeatureValue feature.id)
    return ({ values with
      staleQuoteDetected := values.staleQuoteDetected || decide (0 < duration) }, marks)
  | .sourceOutageIndicator => do
    let outage ← booleanValue observation feature
    return ({ values with sourceOutageDetected := values.sourceOutageDetected || outage }, marks)
  | .cascadeEligibilityGate => do
    let eligible ← booleanValue observation feature
    return ({ values with cascadeEligible := some eligible }, marks)

/-- Trusted observations of the target, with the time of the evaluation. -/
structure TriggerStateBuilder (ops : FloatOps F) where
  registry : FeatureRegistry
  target : TriggerStateTarget
  evaluationEventTimeNs : Int64
  evaluationKnownAtNs : Int64
  observations : List (FeatureObservation ops)

def maximumTriggerObservations : Nat := 64

def TriggerStateBuilder.tryNew (registry : FeatureRegistry) (target : TriggerStateTarget)
    (evaluationEventTimeNs evaluationKnownAtNs : Int64)
    (observations : List (FeatureObservation ops)) :
    Except TriggerError (TriggerStateBuilder ops) := do
  reject (evaluationEventTimeNs ≤ 0 ∨ evaluationKnownAtNs < evaluationEventTimeNs
    ∨ target.effectiveAtNs ≠ evaluationEventTimeNs
    ∨ target.catalogAsKnownAtNs > evaluationKnownAtNs) .invalidEvaluationTime
  reject (observations = [] ∨ observations.length > maximumTriggerObservations)
    .invalidObservationCount
  return ⟨registry, target, evaluationEventTimeNs, evaluationKnownAtNs, observations⟩

def sameObservationSlot (left right : FeatureObservation ops) : Bool :=
  left.featureId == right.featureId && decide (left.featureVersion = right.featureVersion)
    && decide (left.entity = right.entity) && left.windowId == right.windowId
    && left.eventTimeStart == right.eventTimeStart && left.eventTimeEnd == right.eventTimeEnd

def rejectDuplicateObservations : List (FeatureObservation ops) → Except TriggerError Unit
  | [] => .ok ()
  | observation :: rest => do
    reject (rest.any (sameObservationSlot observation) = true) .duplicateObservation
    rejectDuplicateObservations rest

def validateContract (formulaHash : TriggerFeature → List UInt8) (registry : FeatureRegistry)
    (observation : FeatureObservation ops) (feature : TriggerFeature) :
    Except TriggerError Unit := do
  reject (observation.featureVersion ≠ .release 1 0 0) (.featureContractMismatch feature.id)
  let definition ← required (registry.get observation.featureId observation.featureVersion)
    (.registry .unknownDefinition)
  reject (definition.consumptionRole ≠ feature.role ∨ definition.valueType ≠ feature.valueType
    ∨ definition.entities ≠ feature.scope ∨ definition ≠ canonicalDefinition formulaHash feature)
    (.featureContractMismatch feature.id)
  reject (feature = .logReturn ∧ observation.windowId ≠ "rolling_5m")
    (.featureContractMismatch feature.id)
  (registry.validateObservation observation).mapError .registry

def sameSourceUniverse (left right : List SourceId) : Bool :=
  left.length == right.length && left.all fun source => right.contains source

def matchesTarget (target : TriggerStateTarget) : EntityScope → FeatureEntity → Bool
  | .instrument, .instrument instrument => instrument == target.instrument
  | .asset, .asset asset => asset == target.asset
  | .source, .source source => target.sources.contains source
  | _, _ => false

/-- The features that are consolidated over the sources. -/
def isConsolidated : TriggerFeature → Bool
  | .cascadeEligibilityGate | .crossVenueMedianAbsoluteDispersion | .logReturn => true
  | _ => false

def validateTarget (target : TriggerStateTarget) (observation : FeatureObservation ops)
    (feature : TriggerFeature) : Except TriggerError Unit := do
  reject (matchesTarget target feature.scope observation.entity = false) .observationTargetMismatch
  reject (isConsolidated feature = true
    ∧ sameSourceUniverse target.sources observation.sourceCoverage.expectedSources = false)
    .sourceUniverseMismatch

def minimumScore (current score : QualityScore) : QualityScore :=
  if score.millionths < current.millionths then score else current

def BuildState.noteQuality (s : BuildState F) (observation : FeatureObservation ops) :
    BuildState F :=
  let coverage := observation.sourceCoverage.coverageMillionths
  { s with
    minimumQualityScore := some (s.minimumQualityScore.elim observation.qualityScore
      fun current => minimumScore current observation.qualityScore)
    minimumSourceCoverageMillionths := some (s.minimumSourceCoverageMillionths.elim coverage
      fun current => min current coverage)
    sourceQualityDegraded := s.sourceQualityDegraded
      || observation.sourceCoverage.observed.any fun entry => decide (entry.health ≠ .healthy) }

/-- One value for each feature, and for each source where it is about one; dispersions apart. -/
def BuildState.claimSlot (s : BuildState F) (feature : TriggerFeature)
    (observation : FeatureObservation ops) : Except TriggerError (BuildState F) :=
  if feature.scope = .source then do
    let source ← sourceOf observation
    reject ((feature, source) ∈ s.sourceSlots) .duplicateFeatureSlot
    return { s with sourceSlots := s.sourceSlots ++ [(feature, source)] }
  else if feature = .crossVenueMedianAbsoluteDispersion then .ok s
  else do
    reject (feature ∈ s.seenSlots) .duplicateFeatureSlot
    return { s with seenSlots := feature :: s.seenSlots }

namespace TriggerStateBuilder

variable (formulaHash : TriggerFeature → List UInt8) (builder : TriggerStateBuilder ops)

/-- Older than the definition of the feature allows. -/
def expired (definition : FeatureDefinition) (observation : FeatureObservation ops) : Bool :=
  decide (builder.evaluationEventTimeNs.toInt - observation.eventTimeEnd.toInt
    > definition.timeToLive.toNat)

def available (observation : FeatureObservation ops) : Prop :=
  observation.eventTimeEnd ≤ builder.evaluationEventTimeNs
    ∧ observation.asKnownAt ≤ builder.evaluationKnownAtNs
    ∧ observation.computedAt ≤ builder.evaluationKnownAtNs

instance (observation : FeatureObservation ops) : Decidable (builder.available observation) :=
  inferInstanceAs (Decidable (_ ∧ _))

/-- One observation. -/
def observe (s : BuildState F) (observation : FeatureObservation ops) :
    Except TriggerError (BuildState F) := do
  let feature ← required (TriggerFeature.ofId? observation.featureId) .unsupportedFeature
  validateContract formulaHash builder.registry observation feature
  validateTarget builder.target observation feature
  reject (¬ builder.available observation) .observationNotAvailable
  let s ← (s.noteQuality observation).claimSlot feature observation
  let definition ← required (builder.registry.get observation.featureId observation.featureVersion)
    (.registry .unknownDefinition)
  if builder.expired definition observation then
    return { s with missingness := markFeatureMissing feature (insert .expiredInput s.missingness) }
  else
    match observation.datum with
    | .missing reason => return { s with missingness := markReason reason feature s.missingness }
    | .present _ =>
      let (values, missingness) ← collectPresent feature observation s.values s.missingness
      return { s with values, missingness }

end TriggerStateBuilder

/-! ## The outputs -/

structure TriggerOutputs (F : Type) where
  depthDisappearance : Option F
  cancellationBurst : Option F
  sweepDirection : Option F
  orderFlowImbalance : Option F
  crossVenueDispersionAcceleration : Option F
  liquidationVelocity : Option F
  liquidationPressure : Option F
  openInterestDestruction : Option F
  markIndexDivergence : Option F

def TriggerOutputs.none : TriggerOutputs F :=
  ⟨.none, .none, .none, .none, .none, .none, .none, .none, .none⟩

structure TriggerState (F : Type) extends TriggerOutputs F where
  liquidationCompletenessMillionths : Nat
  maximumFeatureAgeNs : Option Int64
  missingness : Marks
  minimumQualityScore : QualityScore
  minimumSourceCoverageMillionths : Nat
  health : TriggerHealth

/-- Inserts the mark if the condition holds. -/
def markIf (condition : Bool) (mark : TriggerMissingness) (marks : Marks) : Marks :=
  if condition then insert mark marks else marks

def markAbsentOutputs (outputs : TriggerOutputs F) (featureAge : Option Int64)
    (marks : Marks) : Marks :=
  [(outputs.depthDisappearance.isNone, TriggerMissingness.depthDisappearance),
    (outputs.cancellationBurst.isNone, .cancellationBurst),
    (outputs.sweepDirection.isNone, .sweepDirection),
    (outputs.orderFlowImbalance.isNone, .orderFlowImbalance),
    (outputs.crossVenueDispersionAcceleration.isNone, .crossVenueDispersionAcceleration),
    (outputs.liquidationVelocity.isNone, .liquidationVelocity),
    (outputs.liquidationPressure.isNone, .liquidationPressure),
    (outputs.openInterestDestruction.isNone, .openInterestDestruction),
    (outputs.markIndexDivergence.isNone, .markIndexDivergence),
    (featureAge.isNone, .featureAge)].foldl
      (fun marks (absent, mark) => markIf absent mark marks) marks

namespace BuildState

variable (s : BuildState F)

/-- The marks of the pass, with those of the flags it set. -/
def flagMarks : Marks :=
  markIf s.values.sourceOutageDetected .sourceLoss
    (markIf s.values.staleQuoteDetected .staleBook
      (markIf s.sourceQualityDegraded .sourceQualityDegraded s.missingness))

def staleBook : Bool := s.values.staleQuoteDetected || decide (.staleBook ∈ s.flagMarks)

def sourceLoss : Bool :=
  s.values.sourceOutageDetected || decide (.sourceLoss ∈ s.flagMarks) || s.sourceQualityDegraded

/-- The two dispersions in the order of their times. -/
def dispersionPair : Option ((Int64 × F) × (Int64 × F)) :=
  match s.values.dispersions.insertionSort fun a b => a.1 ≤ b.1 with
  | [prior, current] => some (prior, current)
  | _ => none

def completeSourceCount (target : TriggerStateTarget) : Nat :=
  (target.sources.filter fun source => s.values.completeLiquidationSources.contains source).length

def completenessMillionths (target : TriggerStateTarget) : Nat :=
  s.completeSourceCount target * maximumMillionths / target.sources.length

/-- The marks before those of the outputs. -/
def marks : Marks :=
  markIf (decide (s.values.cascadeEligible ≠ some true)) .cascadeIneligible
    (markIf s.dispersionPair.isNone .insufficientHistory s.flagMarks)

/-- A stale book has no depth. -/
def depth (ops : FloatOps F) : Except TriggerError (Option F) :=
  if s.staleBook then .ok none
  else (Option.map₂ Prod.mk s.values.bidDepthChange s.values.askDepthChange).mapM fun (bid, ask) =>
    depthDisappearance ops bid ask

def outputs (ops : FloatOps F) (target : TriggerStateTarget) :
    Except TriggerError (TriggerOutputs F) := do
  let values := s.values
  reject (values.cascadeEligible = some true ∧ (s.staleBook || s.sourceLoss) = true)
    .inconsistentCascadeEligibility
  let depth ← s.depth ops
  let cancellation ← (Option.map₂ Prod.mk values.cancellationRate values.cancellationRatio).mapM
    fun (rate, ratio) => cancellationBurst ops rate ratio
  let dispersion ← s.dispersionPair.mapM fun (prior, current) =>
    dispersionAcceleration ops prior.2 prior.1 current.2 current.1
  let openInterest ← (Option.map₂ Prod.mk values.openInterestRelativeChange
    values.alignedPriceReturn).mapM fun (change, priceReturn) => do
      reject (change.1 ≠ priceReturn.1) (.invalidFeatureHistory "open_interest_destruction")
      openInterestDestruction ops priceReturn.2 change.2
  reject (values.cascadeEligible = some true ∧ s.completenessMillionths target ≠ maximumMillionths)
    .inconsistentCascadeEligibility
  let confirmedCompleteness := values.cascadeEligible.map fun eligible =>
    if eligible then
      ops.div (ops.ofNat (s.completenessMillionths target)) (ops.ofNat maximumMillionths)
    else ops.ofNat 0
  let pressure ← (Option.map₂ Prod.mk confirmedCompleteness
    (Option.map₂ Prod.mk values.liquidationVelocity openInterest)).mapM
    fun (completeness, velocity, destruction) =>
      completenessWeightedLiquidationPressure ops velocity completeness destruction
  return ⟨depth, cancellation, values.sweepDirection, values.orderFlowImbalance, dispersion,
    values.liquidationVelocity, pressure, openInterest, values.markIndexDivergence⟩

def finish (ops : FloatOps F) (target : TriggerStateTarget) :
    Except TriggerError (TriggerState F) := do
  let minimumQualityScore ← required s.minimumQualityScore .invalidObservationCount
  let minimumSourceCoverageMillionths ←
    required s.minimumSourceCoverageMillionths .invalidObservationCount
  let outputs ← s.outputs ops target
  let outputs := if s.sourceLoss then .none else outputs
  let missingness := markAbsentOutputs outputs s.values.maximumFeatureAgeNs s.marks
  return ⟨outputs, s.completenessMillionths target, s.values.maximumFeatureAgeNs, missingness,
    minimumQualityScore, minimumSourceCoverageMillionths,
    deriveHealth s.sourceLoss missingness minimumQualityScore minimumSourceCoverageMillionths⟩

end BuildState

def TriggerStateBuilder.build (formulaHash : TriggerFeature → List UInt8)
    (builder : TriggerStateBuilder ops) : Except TriggerError (TriggerState F) := do
  rejectDuplicateObservations builder.observations
  let s ← builder.observations.foldlM (builder.observe formulaHash) .start
  s.finish ops builder.target

end Build

end CryptoIntelligence.FastState
