/-
  Model packages (`model-registry/src/package.rs`): the manifest of a package and the checks that
  signing and verification run on it.

  Times are nanoseconds of type `i64` and only compared. Floating-point metrics are over `FloatOps`.
  A manifest that passed the checks has its dates in order: review after the outer test, expiry
  after review (`dates_of_validateManifest`).
-/
import CryptoIntelligence.Lib.Floats
import CryptoIntelligence.Lib.Numerals

namespace CryptoIntelligence.Models

open Lib

inductive PackageBuildError
  | invalidPeriod
  | unsupportedVersion
  | invalidField (field : String)
  | periodLeakage
  | invalidCalibration
  | invalidQuality
  | invalidRuntime
  | invalidMetrics
  | invalidLimitations
  | invalidExpiry
  | canonicalEncoding
  deriving DecidableEq

abbrev Digest := Vector UInt8 32

def Digest.zero : Digest := Vector.replicate 32 0

structure PackagePeriod where
  startNs : Int
  endNs : Int
  deriving DecidableEq

def PackagePeriod.new (startNs endNs : Int) : Except PackageBuildError PackagePeriod := do
  reject (startNs ≤ 0 ∨ endNs ≤ startNs) .invalidPeriod
  pure ⟨startNs, endNs⟩

structure CalibrationDescriptor where
  method : String
  version : String
  evidenceBlake3 : Digest
  validationPeriod : PackagePeriod
  effectiveSampleSize : Nat

structure MetricSummary (F : Type) where
  outerTestEvidenceBlake3 : Digest
  observations : Nat
  positives : Nat
  logLoss : F
  brierSkillScore : F
  calibrationIntercept : F
  calibrationSlope : F

structure QualityRequirements (F : Type) where
  minimumQualityMillionths : Nat
  minimumSourceCount : Nat
  minimumOuterTestPositives : Nat
  minimumShadowPositives : Nat
  minimumBrierSkillScore : F
  maximumLogLoss : F
  calibrationSlopeMinimum : F
  calibrationSlopeMaximum : F
  calibrationInterceptAbsoluteMaximum : F

structure RuntimeRequirements where
  minimumRuntimeVersion : Version
  requiredCapabilities : List String
  minimumMemoryBytes : Nat

structure ModelPackageManifestInput (F : Type) where
  schemaVersion : Nat
  modelId : String
  semanticVersion : Version
  modelFamily : String
  supportedAssets : List String
  supportedEventTypes : List String
  supportedHorizonsSeconds : List Nat
  trainingPeriod : PackagePeriod
  validationPeriod : PackagePeriod
  outerTestPeriod : PackagePeriod
  dataHash : Digest
  featureSchemaHash : Digest
  normalizationHash : Digest
  labelDefinitionHash : Digest
  codeCommit : String
  hyperparametersBlake3 : Digest
  calibration : CalibrationDescriptor
  qualityRequirements : QualityRequirements F
  runtimeRequirements : RuntimeRequirements
  metrics : MetricSummary F
  subgroupMetricsBlake3 : Digest
  limitations : List String
  modelCardBlake3 : Digest
  reviewAfterNs : Int
  expiresAtNs : Int

structure ModelPackageManifest (F : Type) extends ModelPackageManifestInput F where
  artifactBlake3 : Digest

structure SignedModelPackage (F : Type) where
  manifest : ModelPackageManifest F
  packageBlake3 : Digest
  signingKeyId : String
  signature : Bytes

/-! ## Checks of single fields -/

def validateText (field value : String) (maximum : Nat) : Except PackageBuildError Unit :=
  reject (value = "" ∨ maximum < (utf8 value).length ∨ (utf8 value).any isAsciiControl = true)
    (.invalidField field)

def validateIdentifier (field value : String) : Except PackageBuildError Unit := do
  validateText field value 256
  reject ((utf8 value).any isAsciiWhitespace = true) (.invalidField field)

/-- The loop of `validate_unique_strings` behind a previous value. -/
def validateIncreasing (field : String) :
    Option String → List String → Except PackageBuildError Unit
  | _, [] => .ok ()
  | previous, value :: values => do
    validateIdentifier field value
    reject (previous.any (fun item => decide (value ≤ item)) = true) (.invalidField field)
    validateIncreasing field (some value) values

def validateUniqueStrings (field : String) (values : List String) :
    Except PackageBuildError Unit := do
  reject (values = [] ∨ 256 < values.length) (.invalidField field)
  validateIncreasing field none values

def validateUniqueU64 (field : String) (values : List Nat) : Except PackageBuildError Unit :=
  reject (values = [] ∨ 256 < values.length ∨ values.contains 0 = true ∨ ¬ values.IsChain (· < ·))
    (.invalidField field)

def requireHash (field : String) (value : Digest) : Except PackageBuildError Unit :=
  reject (value = Digest.zero) (.invalidField field)

/-! ## The manifest -/

variable {F : Type} (ops : FloatOps F)

def validatePeriods (training validation outerTest : PackagePeriod) :
    Except PackageBuildError Unit := do
  reject ([training, validation, outerTest].any
    (fun period => decide (period.startNs ≤ 0 ∨ period.endNs ≤ period.startNs)) = true)
    .invalidPeriod
  reject (validation.startNs ≤ training.endNs ∨ outerTest.startNs ≤ validation.endNs) .periodLeakage

def validateQuality (quality : QualityRequirements F) : Except PackageBuildError Unit :=
  reject (1000000 < quality.minimumQualityMillionths ∨ quality.minimumSourceCount = 0 ∨
    quality.minimumOuterTestPositives = 0 ∨ quality.minimumShadowPositives = 0 ∨
    ¬ [quality.minimumBrierSkillScore, quality.maximumLogLoss, quality.calibrationSlopeMinimum,
        quality.calibrationSlopeMaximum, quality.calibrationInterceptAbsoluteMaximum].all
          ops.isFinite = true ∨
    ops.le quality.maximumLogLoss (ops.ofNat 0) = true ∨
    ops.lt (ops.ofNat 1) quality.minimumBrierSkillScore = true ∨
    ops.le quality.calibrationSlopeMinimum (ops.ofNat 0) = true ∨
    ops.lt quality.calibrationSlopeMaximum quality.calibrationSlopeMinimum = true ∨
    ops.lt quality.calibrationInterceptAbsoluteMaximum (ops.ofNat 0) = true) .invalidQuality

def validateMetrics (quality : QualityRequirements F) (metrics : MetricSummary F) :
    Except PackageBuildError Unit :=
  reject (metrics.observations < metrics.positives ∨
    metrics.positives < quality.minimumOuterTestPositives ∨
    ¬ [metrics.logLoss, metrics.brierSkillScore, metrics.calibrationIntercept,
        metrics.calibrationSlope].all ops.isFinite = true ∨
    ops.lt quality.maximumLogLoss metrics.logLoss = true ∨
    ops.lt metrics.logLoss (ops.ofNat 0) = true ∨
    ops.lt (ops.ofNat 1) metrics.brierSkillScore = true ∨
    ops.lt metrics.brierSkillScore quality.minimumBrierSkillScore = true ∨
    ops.lt metrics.calibrationSlope quality.calibrationSlopeMinimum = true ∨
    ops.lt quality.calibrationSlopeMaximum metrics.calibrationSlope = true ∨
    ops.lt quality.calibrationInterceptAbsoluteMaximum
      (ops.abs metrics.calibrationIntercept) = true)
    .invalidMetrics

def validateInputFields (input : ModelPackageManifestInput F) : Except PackageBuildError Unit := do
  reject (input.schemaVersion ≠ 1 ∨ input.semanticVersion.major = 0) .unsupportedVersion
  validateIdentifier "model_id" input.modelId
  validateIdentifier "model_family" input.modelFamily
  validateUniqueStrings "supported_assets" input.supportedAssets
  validateUniqueStrings "supported_event_types" input.supportedEventTypes
  validateUniqueU64 "supported_horizons_seconds" input.supportedHorizonsSeconds
  validatePeriods input.trainingPeriod input.validationPeriod input.outerTestPeriod
  checkAll (fun (field, hash) => requireHash field hash)
    [("data_hash", input.dataHash), ("feature_schema_hash", input.featureSchemaHash),
      ("normalization_hash", input.normalizationHash),
      ("label_definition_hash", input.labelDefinitionHash),
      ("hyperparameters_blake3", input.hyperparametersBlake3),
      ("subgroup_metrics_blake3", input.subgroupMetricsBlake3),
      ("model_card_blake3", input.modelCardBlake3)]
  reject ((utf8 input.codeCommit).length ≠ 40 ∨ ¬ (utf8 input.codeCommit).all isLowerHex = true)
    (.invalidField "code_commit")
  validateIdentifier "calibration.method" input.calibration.method
  validateIdentifier "calibration.version" input.calibration.version
  requireHash "calibration.evidence_blake3" input.calibration.evidenceBlake3
  reject (input.calibration.validationPeriod ≠ input.validationPeriod ∨
    input.calibration.effectiveSampleSize < 8) .invalidCalibration
  validateQuality ops input.qualityRequirements
  reject (input.runtimeRequirements.minimumRuntimeVersion.major = 0 ∨
    input.runtimeRequirements.minimumMemoryBytes = 0 ∨
    input.runtimeRequirements.requiredCapabilities = []) .invalidRuntime
  validateUniqueStrings "required_capabilities" input.runtimeRequirements.requiredCapabilities
  requireHash "metrics.outer_test_evidence_blake3" input.metrics.outerTestEvidenceBlake3
  validateMetrics ops input.qualityRequirements input.metrics
  reject (input.limitations = [] ∨ 64 < input.limitations.length) .invalidLimitations
  checkAll (fun limitation => validateText "limitations" limitation 1024) input.limitations
  reject (input.reviewAfterNs ≤ input.outerTestPeriod.endNs ∨
    input.expiresAtNs ≤ input.reviewAfterNs) .invalidExpiry

def validateManifest (manifest : ModelPackageManifest F) : Except PackageBuildError Unit := do
  validateInputFields ops manifest.toModelPackageManifestInput
  requireHash "artifact_blake3" manifest.artifactBlake3

/-- A manifest that passes its checks is to be reviewed after its outer test and expires later. -/
theorem dates_of_validateManifest {manifest : ModelPackageManifest F} {u : Unit}
    (h : validateManifest ops manifest = .ok u) :
    manifest.outerTestPeriod.endNs < manifest.reviewAfterNs ∧
      manifest.reviewAfterNs < manifest.expiresAtNs := by
  unfold validateManifest validateInputFields at h
  simp only [bind_eq_ok, reject_eq_ok, Unique.exists_iff, not_or, not_le] at h
  obtain ⟨⟨-, -, -, -, -, -, -, -, -, -, -, -, -, -, -, -, -, -, -, -, hdates⟩, -⟩ := h
  exact hdates

end CryptoIntelligence.Models
