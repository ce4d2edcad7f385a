/-
  Label definitions and their evaluation at a horizon (`labels`, `definitions.rs` and `lib.rs`).

  `evaluateAtHorizon` excludes a path for what its origin lacks, for missing corroboration or
  confidence, or else looks for the first lasting passage. The first three return early with the
  origin; `passage` is the body with those exits as errors.

  A definition is any value of its type: the checks of `LabelDefinition::try_new`, and the fields
  that only they read, are left out, so that what is proved holds without them.
-/
import CryptoIntelligence.Labels.Path

namespace CryptoIntelligence.Labels

open Lib

/-! ## Definitions -/

inductive PriceThreshold (F : Type) where
  | absoluteFraction (value : F)
  | volatilityScaled (multiple : F)
  | combined (absoluteFloorFraction volatilityMultiple : F)

inductive LabelRule (F : Type) where
  | downside (threshold : PriceThreshold F)
  | upside (threshold : PriceThreshold F)
  | volatilityExplosion (referenceThreshold minimumMultiple : F)
  | liquidityVacuum (minimumSpreadMultiple maximumDepthFraction minimumCancellationMultiple
      minimumSweepCostMultiple minimumResiliencyMultiple : F) (minimumCorroboratingSources : UInt32)
  | liquidationCascade (priceThreshold : PriceThreshold F)
      (minimumLiquidationNotional minimumOpenInterestDropFraction minimumSpreadMultiple
        maximumDepthFraction : F) (minimumCorroboratingSources minimumConfidenceMillionths : UInt32)

structure LabelDefinition (F : Type) where
  rule : LabelRule F
  horizonsSeconds : List UInt64
  minimumDurationSeconds : UInt64
  minimumQualityMillionths : UInt32
  minimumSourceCoverageMillionths : UInt32
  definitionHash : Bytes

/-! ## Evaluation -/

structure LabelEvaluation where
  outcome : LabelOutcome
  horizonSeconds : UInt64
  outcomeKnownAtOffsetSeconds : UInt64
  confidenceMillionths : UInt32
  sourceCoverageMillionths : UInt32
  definitionHash : Bytes
  sourceEvidenceHash : Bytes
  entityId : String
  originTimeNs : Int64
  episodeClusterId : String
  provenanceBound : Bool
  deriving DecidableEq

structure LabelEngine (F : Type) where
  definition : LabelDefinition F

def exclusionReasonCode : ExclusionReason → UInt8
  | .unhealthyOrigin => 1
  | .lowQualityOrigin => 2
  | .missingEvidence => 3
  | .invalidVolatilityScale => 4
  | .insufficientCorroboration => 5
  | .insufficientConfidence => 6
  | .haltedOrDelisted => 7
  | .instrumentDefinitionChanged => 8
  | .unresolvedCorrection => 9
  | .timestampIntegrityCompromised => 10
  | .simultaneousCompetingEvents => 11

def outcomeBytes : LabelOutcome → Bytes
  | .occurred offsetSeconds => 1 :: (u64be offsetSeconds).reverse
  | .notOccurred => [2]
  | .censored observedSeconds => 3 :: (u64be observedSeconds).reverse
  | .excluded reason => [4, exclusionReasonCode reason]

def labelEvidenceHash (blake3 : Bytes → Bytes) (definitionHash : Bytes) (horizonSeconds : UInt64)
    (outcome : LabelOutcome) (knownAtOffsetSeconds : UInt64) (sourceHash : Bytes) : Bytes :=
  blake3 (text "cmti:label-evaluation:v1" ++ [0] ++ definitionHash ++ (u64be horizonSeconds).reverse
    ++ outcomeBytes outcome ++ (u64be knownAtOffsetSeconds).reverse ++ sourceHash)

section Evaluation

variable {F : Type} {ops : FloatOps F}

def priceLogThreshold (threshold : PriceThreshold F) (origin : MarketFrame ops) : Option F :=
  let threshold := match threshold with
    | .absoluteFraction value => some value
    | .volatilityScaled multiple =>
      origin.volatility.map fun volatility => ops.mul volatility multiple
    | .combined absoluteFloorFraction volatilityMultiple =>
      origin.volatility.map fun volatility =>
        ops.max absoluteFloorFraction (ops.mul volatility volatilityMultiple)
  threshold.filter fun value =>
    ops.isFinite value && ops.lt (ops.ofNat 0) value && ops.lt value (ops.ofNat 1)

/-- The largest value, or zero. -/
def maximumOrZero (values : List UInt32) : UInt32 := values.foldl max 0

/-- `ops.le value 0` for one of the values. -/
def anyNotPositive (ops : FloatOps F) (values : List F) : Bool :=
  values.any fun value => ops.le value (ops.ofNat 0)

/-! The closures of the rules. `?` leaves a closure at the first reading that is missing, if the
    readings before it match. -/

def downsideCondition (originPrice logThreshold : F) (frame : MarketFrame ops) : Option Bool :=
  frame.price.map fun price => ops.le (ops.ln (ops.div price originPrice)) (ops.neg logThreshold)

def upsideCondition (originPrice logThreshold : F) (frame : MarketFrame ops) : Option Bool :=
  frame.price.map fun price => ops.le logThreshold (ops.ln (ops.div price originPrice))

def volatilityCondition (referenceThreshold minimumMultiple : F) (frame : MarketFrame ops) :
    Option Bool :=
  frame.volatility.map fun value => ops.le (ops.mul referenceThreshold minimumMultiple) value

/-- What the origin of a vacuum shows. -/
structure VacuumOrigin (F : Type) where
  spread : F
  depth : F
  cancellation : F
  sweepCost : F
  resiliency : F

def vacuumCondition (origin : VacuumOrigin F) (minimumSpreadMultiple maximumDepthFraction
    minimumCancellationMultiple minimumSweepCostMultiple minimumResiliencyMultiple : F)
    (minimumCorroboratingSources : UInt32) (frame : MarketFrame ops) : Option Bool := do
  if !ops.le (ops.mul origin.spread minimumSpreadMultiple) (← frame.spreadBps) then return false
  if !ops.le (← frame.displayedDepth) (ops.mul origin.depth maximumDepthFraction) then return false
  if !ops.le (ops.mul origin.cancellation minimumCancellationMultiple)
    (← frame.cancellationRate) then
    return false
  if !ops.le (ops.mul origin.sweepCost minimumSweepCostMultiple) (← frame.sweepCostBps) then
    return false
  if !ops.le (ops.mul origin.resiliency minimumResiliencyMultiple) (← frame.resiliencySeconds) then
    return false
  return decide (minimumCorroboratingSources ≤ frame.corroboratingSources)

/-- What the origin of a cascade shows. -/
structure CascadeOrigin (F : Type) where
  price : F
  spread : F
  depth : F
  openInterest : F

def cascadeCondition (origin : CascadeOrigin F) (logThreshold minimumLiquidationNotional
    minimumOpenInterestDropFraction minimumSpreadMultiple maximumDepthFraction : F)
    (minimumCorroboratingSources minimumConfidenceMillionths : UInt32) (frame : MarketFrame ops) :
    Option Bool := do
  if !ops.le (ops.ln (ops.div (← frame.price) origin.price)) (ops.neg logThreshold)
    then return false
  if !ops.le minimumLiquidationNotional (← frame.liquidationNotional) then return false
  if !ops.le (← frame.openInterest) (ops.mul origin.openInterest
      (ops.sub (ops.ofNat 1) minimumOpenInterestDropFraction)) then return false
  if !ops.le (ops.mul origin.spread minimumSpreadMultiple) (← frame.spreadBps) then return false
  if !ops.le (← frame.displayedDepth) (ops.mul origin.depth maximumDepthFraction) then return false
  return decide (minimumCorroboratingSources ≤ frame.corroboratingSources)
    && decide (minimumConfidenceMillionths ≤ frame.liquidationConfidenceMillionths)

def VacuumOrigin.read (origin : MarketFrame ops) : Except ExclusionReason (VacuumOrigin F) := do
  let spread ← required origin.spreadBps .missingEvidence
  let depth ← required origin.displayedDepth .missingEvidence
  let cancellation ← required origin.cancellationRate .missingEvidence
  let sweepCost ← required origin.sweepCostBps .missingEvidence
  let resiliency ← required origin.resiliencySeconds .missingEvidence
  reject (anyNotPositive ops [spread, depth, cancellation, sweepCost, resiliency] = true)
    .missingEvidence
  return ⟨spread, depth, cancellation, sweepCost, resiliency⟩

def CascadeOrigin.read (origin : MarketFrame ops) (originPrice : F) :
    Except ExclusionReason (CascadeOrigin F) := do
  let spread ← required origin.spreadBps .missingEvidence
  let depth ← required origin.displayedDepth .missingEvidence
  let openInterest ← required origin.openInterest .missingEvidence
  reject (anyNotPositive ops [spread, depth, openInterest] = true) .missingEvidence
  return ⟨originPrice, spread, depth, openInterest⟩

namespace LabelEngine

variable (engine : LabelEngine F)

def maximumTrustworthySources (frames : List (MarketFrame ops)) (horizonSeconds : UInt64) :
    UInt32 :=
  maximumOrZero (((withinHorizon horizonSeconds frames).filter fun frame =>
    frame.isTrustworthyAt horizonSeconds engine.definition.minimumQualityMillionths
      engine.definition.minimumSourceCoverageMillionths).map (·.corroboratingSources))

def maximumConfidence (frames : List (MarketFrame ops)) (horizonSeconds : UInt64) : UInt32 :=
  maximumOrZero ((withinHorizon horizonSeconds frames).map (·.liquidationConfidenceMillionths))

def eligibleOrigin (origin : MarketFrame ops) : Except ExclusionReason Unit :=
  match origin.eligibility.exclusionReason with
  | some reason => .error reason
  | none => .ok ()

/-- The exits of every rule on its origin. -/
def originPrice (origin : MarketFrame ops) (horizonSeconds : UInt64) :
    Except ExclusionReason F := do
  eligibleOrigin origin
  reject (origin.isTrustworthyAt horizonSeconds 0 0 = false) .unhealthyOrigin
  reject (origin.isTrustworthyAt horizonSeconds engine.definition.minimumQualityMillionths
    engine.definition.minimumSourceCoverageMillionths = false) .lowQualityOrigin
  required origin.price .missingEvidence

def query (horizonSeconds : UInt64) (condition : MarketFrame ops → Option Bool) :
    PassageQuery ops :=
  ⟨horizonSeconds, engine.definition.minimumDurationSeconds,
    engine.definition.minimumQualityMillionths, engine.definition.minimumSourceCoverageMillionths,
    condition⟩

/-- What the rule asks of the frames, once it does not exclude the path. -/
def rulePassage (origin : MarketFrame ops) (frames : List (MarketFrame ops))
    (horizonSeconds : UInt64)
    (originPrice : F) : Except ExclusionReason (MarketFrame ops → Option Bool) :=
  match engine.definition.rule with
  | .downside threshold => do
    let logThreshold ← required (priceLogThreshold threshold origin) .invalidVolatilityScale
    return downsideCondition originPrice logThreshold
  | .upside threshold => do
    let logThreshold ← required (priceLogThreshold threshold origin) .invalidVolatilityScale
    return upsideCondition originPrice logThreshold
  | .volatilityExplosion referenceThreshold minimumMultiple => do
    reject origin.volatility.isNone .missingEvidence
    return volatilityCondition referenceThreshold minimumMultiple
  | .liquidityVacuum minimumSpreadMultiple maximumDepthFraction minimumCancellationMultiple
      minimumSweepCostMultiple minimumResiliencyMultiple minimumCorroboratingSources => do
    reject (engine.maximumTrustworthySources frames horizonSeconds < minimumCorroboratingSources)
      .insufficientCorroboration
    let shown ← VacuumOrigin.read origin
    return vacuumCondition shown minimumSpreadMultiple maximumDepthFraction
      minimumCancellationMultiple minimumSweepCostMultiple minimumResiliencyMultiple
      minimumCorroboratingSources
  | .liquidationCascade priceThreshold minimumLiquidationNotional minimumOpenInterestDropFraction
      minimumSpreadMultiple maximumDepthFraction minimumCorroboratingSources
      minimumConfidenceMillionths => do
    let logThreshold ← required (priceLogThreshold priceThreshold origin) .invalidVolatilityScale
    reject (engine.maximumTrustworthySources frames horizonSeconds < minimumCorroboratingSources)
      .insufficientCorroboration
    reject (maximumConfidence frames horizonSeconds < minimumConfidenceMillionths)
      .insufficientConfidence
    let shown ← CascadeOrigin.read origin originPrice
    return cascadeCondition shown logThreshold minimumLiquidationNotional
      minimumOpenInterestDropFraction minimumSpreadMultiple maximumDepthFraction
      minimumCorroboratingSources minimumConfidenceMillionths

/-- The body of the evaluation; an error excludes the path at its origin. -/
def passage (origin : MarketFrame ops) (frames : List (MarketFrame ops)) (horizonSeconds : UInt64) :
    Except ExclusionReason FirstPassageEvaluation := do
  let originPrice ← engine.originPrice origin horizonSeconds
  let condition ← engine.rulePassage origin frames horizonSeconds originPrice
  return (engine.query horizonSeconds condition).firstPersistentPassage frames

variable (blake3 : Bytes → Bytes) (path : LabelPath ops) (horizonSeconds : UInt64)

def evaluationWith (outcome : LabelOutcome) (knownAtOffsetSeconds : UInt64)
    (confidenceMillionths sourceCoverageMillionths : UInt32) : LabelEvaluation where
  outcome
  horizonSeconds
  outcomeKnownAtOffsetSeconds := knownAtOffsetSeconds
  confidenceMillionths
  sourceCoverageMillionths
  definitionHash := engine.definition.definitionHash
  sourceEvidenceHash := labelEvidenceHash blake3 engine.definition.definitionHash horizonSeconds
    outcome knownAtOffsetSeconds (path.evidenceHash blake3)
  entityId := path.entityId
  originTimeNs := path.originTimeNs
  episodeClusterId := path.episodeClusterId
  provenanceBound := path.provenanceBound

def excluded (reason : ExclusionReason) : LabelEvaluation :=
  engine.evaluationWith blake3 path horizonSeconds (.excluded reason)
    path.origin.knownAtOffsetSeconds 0 path.origin.sourceCoverageMillionths

def evaluation (passage : FirstPassageEvaluation) : LabelEvaluation :=
  let evidence := match passage.outcome with
    | .occurred offsetSeconds =>
      (path.frames.find? fun frame : MarketFrame ops => frame.offsetSeconds == offsetSeconds).getD
        path.origin
    | _ => (withinHorizon horizonSeconds path.frames).getLast?.getD path.origin
  let confidenceMillionths := match engine.definition.rule with
    | .liquidationCascade .. => evidence.liquidationConfidenceMillionths
    | _ => min evidence.qualityMillionths evidence.sourceCoverageMillionths
  engine.evaluationWith blake3 path horizonSeconds passage.outcome passage.knownAtOffsetSeconds
    confidenceMillionths evidence.sourceCoverageMillionths

def evaluateAtHorizon : Except LabelError LabelEvaluation := do
  reject (horizonSeconds ∉ engine.definition.horizonsSeconds) .unknownHorizon
  return match engine.passage path.origin path.frames horizonSeconds with
    | .error reason => engine.excluded blake3 path horizonSeconds reason
    | .ok passage => engine.evaluation blake3 path horizonSeconds passage

def labelAtHorizon : Except LabelError LabelOutcome := do
  return (← engine.evaluateAtHorizon blake3 path horizonSeconds).outcome

end LabelEngine

/-- The definition of the fixture engine; its hash is left out. -/
def downsideFixture (threshold : F) : LabelDefinition F where
  rule := .downside (.absoluteFraction threshold)
  horizonsSeconds := [180]
  minimumDurationSeconds := 0
  minimumQualityMillionths := 900000
  minimumSourceCoverageMillionths := 900000
  definitionHash := []

end Evaluation

end CryptoIntelligence.Labels
