/-
  Feature observations (`feature-registry`, `observation.rs`), and their check against the
  definition they name.

  An observation is present with a value or missing with a reason. It carries what `tryNew` checked:
  its times are ordered, a value is of the type it says, and an invalid observation has none.
-/
import CryptoIntelligence.Lib.Floats
import CryptoIntelligence.Lib.Grouping
import CryptoIntelligence.Features.Definition

namespace CryptoIntelligence.Features

open Lib Decimal Domain Quality

/-! ## Values -/

inductive FeatureEntity where
  | instrument (id : InstrumentId)
  | asset (id : AssetId)
  | assetPair (left right : AssetId)
  | assetSource (asset : AssetId) (source : SourceId)
  | assetSourcePair (asset : AssetId) (left right : SourceId)
  | venue (id : VenueId)
  | source (id : SourceId)
  | global
  deriving DecidableEq

variable {F : Type}

/-- A finite number. -/
structure FiniteF64 (ops : FloatOps F) where
  value : F
  finite : ops.isFinite value = true

inductive FeatureValue (ops : FloatOps F) where
  | fixedDecimal (value : FixedDecimal)
  | fixedDecimalMap (values : List (FixedDecimal × FixedDecimal))
  | float64 (value : FiniteF64 ops)
  | integer (value : Int64)
  | boolean (value : Bool)

def FeatureValue.valueType {ops : FloatOps F} : FeatureValue ops → FeatureValueType
  | .fixedDecimal _ => .fixedDecimal
  | .fixedDecimalMap _ => .fixedDecimalMap
  | .float64 _ => .float64
  | .integer _ => .integer
  | .boolean _ => .boolean

inductive MissingnessReason where
  | notListed
  | sourceNotSupported
  | sourceDisconnected
  | sequenceGap
  | stale
  | insufficientHistory
  | windowNotFinal
  | belowLiquidityThreshold
  | vendorRevisionPending
  | modelNotApplicable
  | privacyOrLicenseRestriction
  | unknown
  deriving DecidableEq, Repr

inductive FeatureDatum (ops : FloatOps F) where
  | present (value : FeatureValue ops)
  | missing (reason : MissingnessReason)

def FeatureDatum.isPresent {ops : FloatOps F} : FeatureDatum ops → Bool
  | .present _ => true
  | .missing _ => false

/-- The value, if there is one, is of the type. -/
def FeatureDatum.hasType {ops : FloatOps F} (valueType : FeatureValueType) : FeatureDatum ops → Bool
  | .present value => decide (value.valueType = valueType)
  | .missing _ => true

inductive FinalityState where
  | provisional
  | final_
  | corrected
  | invalid
  deriving DecidableEq, Repr

/-! ## Source coverage -/

def compareSource (left right : SourceId) : Ordering :=
  (compare left.kind.toU8 right.kind.toU8).then
    ((compare left.name right.name).then (compare left.generation right.generation))

structure SourceCoverageEntry where
  source : SourceId
  health : SourceHealthState
  deriving DecidableEq

def maximumSourceCoverage : Nat := 64

/-- The checks on the sorted sources. -/
def checkCoverage (expectedSources : List SourceId) (observed : List SourceCoverageEntry) :
    Except RegistryError Unit := do
  reject (expectedSources = [] ∨ expectedSources.length > maximumSourceCoverage)
    .invalidSourceCoverage
  reject (anyNeighbours (fun a b => a == b) expectedSources = true) .duplicateSource
  reject (observed.length > maximumSourceCoverage) .invalidSourceCoverage
  reject (anyNeighbours (fun a b => a.source == b.source) observed = true) .duplicateSource
  reject (∃ entry ∈ observed, entry.source ∉ expectedSources) .unexpectedSource

structure SourceCoverage where
  expectedSources : List SourceId
  observed : List SourceCoverageEntry
  valid : checkCoverage expectedSources observed = .ok ()

def sortSources {α : Type} (source : α → SourceId) (values : List α) : List α :=
  values.mergeSort fun a b => compareSource (source a) (source b) ≠ .gt

def SourceCoverage.tryNewPartial (expectedSources : List SourceId)
    (observed : List SourceCoverageEntry) : Except RegistryError SourceCoverage := do
  let ⟨_, h⟩ ← attach (checkCoverage (sortSources id expectedSources)
    (sortSources (·.source) observed))
  return ⟨sortSources id expectedSources, sortSources (·.source) observed, h⟩

/-- All sources that are expected were observed. -/
def SourceCoverage.tryNew (entries : List SourceCoverageEntry) :
    Except RegistryError SourceCoverage := do
  reject (entries = [] ∨ entries.length > maximumSourceCoverage) .invalidSourceCoverage
  SourceCoverage.tryNewPartial (entries.map (·.source)) entries

def SourceCoverage.coverageMillionths (coverage : SourceCoverage) : Nat :=
  coverage.observed.length * maximumMillionths / coverage.expectedSources.length

/-! ## Observations -/

structure FeatureObservationInput (ops : FloatOps F) where
  featureId : String
  featureVersion : Version
  entity : FeatureEntity
  windowId : String
  resolution : UInt64
  datum : FeatureDatum ops
  valueType : FeatureValueType
  eventTimeStart : UnixNanos
  eventTimeEnd : UnixNanos
  asKnownAt : UnixNanos
  computedAt : UnixNanos
  watermark : Option UnixNanos
  finalityAsKnownAt : UnixNanos
  finalityState : FinalityState
  revision : UInt32
  sourceCoverage : SourceCoverage
  qualityScore : QualityScore
  normalizationVersion : Version
  formulaHash : List UInt8

def compareAsset (left right : AssetId) : Ordering :=
  (compare left.ns.toU8 right.ns.toU8).then ((compare left.chainId right.chainId).then
    ((compare left.contractOrMint right.contractOrMint).then
      ((compare left.canonicalSymbol right.canonicalSymbol).then
        (compare left.generation right.generation))))

namespace FeatureObservationInput

variable {ops : FloatOps F} (input : FeatureObservationInput ops)

def validateTimes : Except RegistryError Unit :=
  reject (input.eventTimeStart ≤ 0 ∨ input.eventTimeStart > input.eventTimeEnd
    ∨ input.eventTimeEnd > input.asKnownAt ∨ input.asKnownAt > input.computedAt
    ∨ (∃ watermark ∈ input.watermark, watermark ≤ 0 ∨ watermark > input.computedAt)
    ∨ input.finalityAsKnownAt ≤ 0 ∨ input.finalityAsKnownAt > input.asKnownAt
    ∨ input.finalityAsKnownAt > input.computedAt
    ∨ (∃ watermark ∈ input.watermark, watermark > input.finalityAsKnownAt)
    ∨ input.resolution = 0 ∨ input.resolution.toNat > 2 ^ 63 - 1) .invalidTimeOrdering

def validEntity : Bool :=
  match input.entity with
  | .assetPair left right => !(left == right) && compareAsset left right == .lt
  | .assetSourcePair _ left right => !(left == right)
  | _ => true

def validate : Except RegistryError Unit := do
  validateVersion input.featureVersion "feature_version"
  validateVersion input.normalizationVersion "normalization_version"
  input.validateTimes
  reject (input.finalityState = .corrected ∧ input.revision = 1) .invalidCorrectionRevision
  reject (input.datum.hasType input.valueType = false) .valueTypeMismatch
  reject (input.finalityState = .invalid ∧ input.datum.isPresent) .invalidObservationMustBeMissing
  reject (input.watermark = none ∧ (input.finalityState ≠ .invalid ∨ input.datum.isPresent))
    .invalidTimeOrdering
  reject (input.validEntity = false) .invalidObservationEntity

end FeatureObservationInput

/-- An observation that passed its checks. -/
structure FeatureObservation (ops : FloatOps F) extends FeatureObservationInput ops where
  valid : toFeatureObservationInput.validate = .ok ()

def FeatureObservation.tryNew {ops : FloatOps F} (input : FeatureObservationInput ops) :
    Except RegistryError (FeatureObservation ops) := do
  let ⟨_, h⟩ ← attach input.validate
  return ⟨input, h⟩

/-! ## Conformance to the definition -/

variable {ops : FloatOps F}

def entityMatches : EntityScope → FeatureEntity → Bool
  | .instrument, .instrument _ => true
  | .asset, .asset _ => true
  | .assetPair, .assetPair _ _ => true
  | .assetSource, .assetSource _ _ => true
  | .assetSourcePair, .assetSourcePair _ _ _ => true
  | .venue, .venue _ => true
  | .source, .source _ => true
  | .global, .global => true
  | _, _ => false

/-- `start.rem_euclid(step) == 0`, for a step that fits an `i64`. -/
def alignedTo (start : Int) (step : UInt64) : Bool :=
  decide (step.toNat ≤ 2 ^ 63 - 1) && start % step.toNat == 0

def windowGeometryMatches (window : WindowDefinition) (resolution : UInt64)
    (observation : FeatureObservation ops) : Bool :=
  let start := observation.eventTimeStart.toInt
  let extent := observation.eventTimeEnd.toInt - start
  decide (0 ≤ extent) && match window.parameter with
    | .time declared advance => extent == declared.toNat && match window.kind, advance with
      | .sliding, some advance => alignedTo start advance
      | .tumbling, none => alignedTo start declared
      | _, _ => false
    | .sessionAligned declared utcAnchor =>
      -- both times are positive, so `checked_sub` does not overflow
      extent == declared.toNat && alignedTo (start - utcAnchor.toInt) declared
    | .exponentiallyWeighted _ lookback => extent == lookback.toNat && alignedTo start resolution
    | .eventCount _ _ => true
    | .threshold _ => true

/-- Quality, coverage and source health, which an invalid observation need not meet. -/
def checkQuality (definition : FeatureDefinition) (observation : FeatureObservation ops) :
    Except RegistryError Unit := do
  reject (observation.qualityScore.millionths < definition.qualityGate.minimumScore.millionths)
    .qualityBelowRequirement
  reject (observation.sourceCoverage.coverageMillionths
    < definition.qualityGate.minimumCoverage.millionths) .coverageBelowRequirement
  reject (∃ entry ∈ observation.sourceCoverage.observed,
    definition.qualityGate.allows entry.health = false) .sourceHealthRejected

/-- The watermark has passed the lateness that the definition allows. -/
def checkFinality (definition : FeatureDefinition) (observation : FeatureObservation ops) :
    Except RegistryError Unit := do
  reject (observation.finalityAsKnownAt > observation.asKnownAt) .finalityKnowledgeMismatch
  reject (definition.allowedLateness.toNat > 2 ^ 63 - 1) (.invalidDefinition "allowed_lateness")
  let finalWatermark := observation.eventTimeEnd.toInt + definition.allowedLateness.toNat
  reject (finalWatermark > 2 ^ 63 - 1) .finalityBeforeWatermark
  reject (observation.watermark.all fun watermark => watermark.toInt < finalWatermark)
    .finalityBeforeWatermark

def FeatureRegistry.validateObservation (registry : FeatureRegistry)
    (observation : FeatureObservation ops) : Except RegistryError Unit := do
  let definition ← required (registry.get observation.featureId observation.featureVersion)
    .unknownDefinition
  reject (entityMatches definition.entities observation.entity = false) .entityScopeMismatch
  let window ← required (definition.window observation.windowId) .windowMismatch
  reject (windowGeometryMatches window definition.outputResolution observation = false)
    .windowMismatch
  reject (definition.outputResolution ≠ observation.resolution) .resolutionMismatch
  reject (definition.valueType ≠ observation.valueType) .valueTypeMismatch
  reject (observation.datum.hasType definition.valueType = false) .valueTypeMismatch
  reject (definition.normalization.version ≠ observation.normalizationVersion)
    .normalizationVersionMismatch
  reject (definition.formulaHash ≠ observation.formulaHash) .formulaHashMismatch
  if observation.finalityState ≠ .invalid then checkQuality definition observation
  if observation.finalityState = .final_ ∨ observation.finalityState = .corrected then
    checkFinality definition observation

end CryptoIntelligence.Features
