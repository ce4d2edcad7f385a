/-
  Feature definitions and their registry (`feature-registry`, `definition.rs` and `lib.rs`).

  A definition says who may consume a feature, of what type and entity it is, over which windows,
  and what quality it needs. The registry holds definitions by identity and version.
-/
import CryptoIntelligence.Quality.SourceHealth

namespace CryptoIntelligence.Features

open Lib Decimal Domain Quality

inductive RegistryError where
  | invalidVersion (field : String)
  | invalidDefinition (field : String)
  | invalidTimeOrdering
  | invalidCorrectionRevision
  | valueTypeMismatch
  | invalidObservationMustBeMissing
  | invalidObservationEntity
  | invalidSourceCoverage
  | duplicateSource
  | unexpectedSource
  | unknownDefinition
  | entityScopeMismatch
  | windowMismatch
  | resolutionMismatch
  | normalizationVersionMismatch
  | formulaHashMismatch
  | qualityBelowRequirement
  | coverageBelowRequirement
  | sourceHealthRejected
  | finalityBeforeWatermark
  | finalityKnowledgeMismatch
  deriving DecidableEq, Repr

/-! ## Definitions -/

inductive FeatureStatus where
  | required_
  | optional
  | experimental
  deriving DecidableEq, Repr

inductive FeatureConsumptionRole where
  | modelEligible
  | uncertaintyOnly
  | gatingOnly
  deriving DecidableEq, Repr

inductive FeatureValueType where
  | fixedDecimal
  | fixedDecimalMap
  | float64
  | integer
  | boolean
  deriving DecidableEq, Repr

inductive EntityScope where
  | instrument
  | asset
  | assetPair
  | assetSource
  | assetSourcePair
  | venue
  | source
  | global
  deriving DecidableEq, Repr

inductive EventTimePolicy where
  | sourceEventTime
  | receiveTime
  deriving DecidableEq, Repr

inductive WindowKind where
  | tumbling
  | sliding
  | sessionAligned
  | exponentiallyWeighted
  | eventCount
  | volume
  | notional
  deriving DecidableEq, Repr

/-- Durations are in nanoseconds. -/
inductive WindowParameter where
  | time (extent : UInt64) (advance : Option UInt64)
  | sessionAligned (extent : UInt64) (utcAnchor : UnixNanos)
  | exponentiallyWeighted (halfLife lookback : UInt64)
  | eventCount (events : UInt64) (advance : Option UInt64)
  | threshold (threshold : FixedDecimal)
  deriving DecidableEq

structure WindowDefinition where
  id : String
  kind : WindowKind
  parameter : WindowParameter
  deriving DecidableEq

inductive NormalizationKind where
  | none_
  | robustRolling
  | expandingQuantile
  | trainingFoldZScore
  | log
  | signedLog
  | volatilityScaled
  | assetRelative
  | crossSectionalRank
  | timeOfWeekSeasonal
  | liquidityBucket
  deriving DecidableEq, Repr

structure NormalizationPolicy where
  kind : NormalizationKind
  version : Version
  deriving DecidableEq

inductive MissingnessPolicy where
  | explicit
  | deterministicTrainingFoldImputation
  | abstain
  deriving DecidableEq, Repr

def maximumMillionths : Nat := 1000000

/-- A score in millionths. -/
structure QualityScore where
  millionths : Nat
  bounded : millionths ≤ maximumMillionths
  deriving DecidableEq

structure QualityRequirement where
  minimumScore : QualityScore
  minimumCoverage : QualityScore
  allowedSourceStates : List SourceHealthState
  deriving DecidableEq

def QualityRequirement.allows (gate : QualityRequirement) (state : SourceHealthState) : Bool :=
  gate.allowedSourceStates.contains state

structure FeatureDefinition where
  id : String
  version : Version
  status : FeatureStatus
  consumptionRole : FeatureConsumptionRole
  valueType : FeatureValueType
  entities : EntityScope
  requiredInputs : List String
  eventTimePolicy : EventTimePolicy
  windows : List WindowDefinition
  outputResolution : UInt64
  allowedLateness : UInt64
  timeToLive : UInt64
  normalization : NormalizationPolicy
  missingness : MissingnessPolicy
  qualityGate : QualityRequirement
  formulaHash : List UInt8
  documentation : String
  deriving DecidableEq

def FeatureDefinition.window (definition : FeatureDefinition) (id : String) :
    Option WindowDefinition :=
  definition.windows.find? fun window => window.id == id

/-! ## The registry -/

def maximumVersionLength : Nat := 128

/-- The length of `value` in decimal. -/
def decimalDigits (value : Nat) : Nat := (Nat.toDigits 10 value).length

def validateVersion (version : Version) (field : String) : Except RegistryError Unit :=
  let optionalLength := fun text : String => if text = "" then 0 else 1 + (utf8 text).length
  reject (decimalDigits version.major + decimalDigits version.minor +
    decimalDigits version.patch + 2
    + optionalLength version.pre + optionalLength version.build > maximumVersionLength)
    (.invalidVersion field)

/-- The definitions, no two of one identity and version. -/
structure FeatureRegistry where
  definitions : List FeatureDefinition
  distinct : (definitions.map fun definition => (definition.id, definition.version)).Nodup

def FeatureRegistry.get (registry : FeatureRegistry) (id : String) (version : Version) :
    Option FeatureDefinition :=
  match validateVersion version "feature_version" with
  | .error _ => none
  | .ok () => registry.definitions.find? fun definition =>
      definition.id == id && decide (definition.version = version)

end CryptoIntelligence.Features
