/-
  Verified packages and compatibility receipts (`model-registry/src/verification.rs`).

  A `VerifiedPackage` is built by `verifyPackage` only and a `CompatiblePackage` by
  `verifyCompatibility` only; both carry the run of their checks. Hashing, the canonical encodings,
  signatures and the order of versions are third-party code and a parameter (`Primitives`).
-/
import CryptoIntelligence.Models.Package

namespace CryptoIntelligence.Models

open Lib

inductive PackageVerificationError
  | invalidManifest (error : PackageBuildError)
  | untrustedKey
  | artifactMismatch
  | contentAddressMismatch
  | invalidSignature
  | invalidRequest
  | compatibilityEncoding
  | expired
  | reviewRequired
  | assetMismatch
  | eventTypeMismatch
  | horizonMismatch
  | featureSchemaMismatch
  | normalizationMismatch
  | labelMismatch
  | runtimeVersionMismatch
  | capabilityMismatch
  | memoryMismatch
  | qualityMismatch
  deriving DecidableEq

/-- Runtime and request context that must match a package. -/
structure CompatibilityRequest where
  asset : String
  eventType : String
  horizonSeconds : Nat
  featureSchemaHash : Digest
  normalizationHash : Digest
  labelDefinitionHash : Digest
  runtimeVersion : Version
  runtimeCapabilities : List String
  availableMemoryBytes : Nat
  observedQualityMillionths : Nat
  observedSourceCount : Nat
  evaluatedAtNs : Int

abbrev VerifyingKey := Vector UInt8 32

/-- The third-party functions: `blake3::hash`, `hex::encode` of a digest, `serde_json::to_vec` on
    the two wire types, `verify_strict` and the order of `semver::Version`. -/
structure Primitives (F : Type) extends FloatOps F where
  blake3 : Bytes → Digest
  hexEncode : Digest → String
  canonicalManifest : ModelPackageManifest F → Option Bytes
  compatibilityWire : CompatibilityRequest → Option Bytes
  verifyStrict : VerifyingKey → Bytes → Bytes → Bool
  versionLt : Version → Version → Bool

structure TrustedVerifyingKey where
  keyId : String
  key : VerifyingKey

def TrustedVerifyingKey.new (keyId : String) (key : VerifyingKey) :
    Except PackageVerificationError TrustedVerifyingKey := do
  reject (keyId = "" ∨ 256 < (utf8 keyId).length ∨ (utf8 keyId).any isAsciiWhitespace = true)
    .untrustedKey
  pure ⟨keyId, key⟩

def signingDomain : Bytes := text "crypto-intelligence-model-package-v1" ++ [0]

def signingMessage (signingKeyId : String) (canonical : Bytes) : Bytes :=
  signingDomain ++ utf8 signingKeyId ++ [0] ++ canonical

variable {F : Type} (p : Primitives F)

/-! ## Packages -/

/-- The checks of `verify_package`. -/
def verifyChecks (package : SignedModelPackage F) (artifact : Bytes)
    (trustedKey : TrustedVerifyingKey) : Except PackageVerificationError Unit := do
  reject (package.signingKeyId ≠ trustedKey.keyId) .untrustedKey
  (validateManifest p.toFloatOps package.manifest).mapError .invalidManifest
  reject (package.manifest.artifactBlake3 ≠ p.blake3 artifact) .artifactMismatch
  let canonical ←
    required (p.canonicalManifest package.manifest) (.invalidManifest .canonicalEncoding)
  reject (package.packageBlake3 ≠ p.blake3 canonical) .contentAddressMismatch
  reject (package.signature.length ≠ 64) .invalidSignature
  reject (p.verifyStrict trustedKey.key (signingMessage package.signingKeyId canonical)
    package.signature = false) .invalidSignature

/-- A package whose structure, content address, artifact and signature were verified together. -/
structure VerifiedPackage where
  package : SignedModelPackage F
  verified : ∃ artifact trustedKey, verifyChecks p package artifact trustedKey = .ok ()

variable {p}

def VerifiedPackage.modelId (verified : VerifiedPackage p) : String :=
  verified.package.manifest.modelId

def VerifiedPackage.packageBlake3 (verified : VerifiedPackage p) : Digest :=
  verified.package.packageBlake3

variable (p)

def verifyPackage (package : SignedModelPackage F) (artifact : Bytes)
    (trustedKey : TrustedVerifyingKey) : Except PackageVerificationError (VerifiedPackage p) :=
  match h : verifyChecks p package artifact trustedKey with
  | .ok _ => .ok ⟨package, artifact, trustedKey, h⟩
  | .error e => .error e

/-- A verified package is due for review before it expires. -/
theorem VerifiedPackage.review_lt_expiry {p : Primitives F} (verified : VerifiedPackage p) :
    verified.package.manifest.reviewAfterNs < verified.package.manifest.expiresAtNs := by
  obtain ⟨package, artifact, trustedKey, h⟩ := verified
  unfold verifyChecks at h
  simp only [bind_eq_ok] at h
  obtain ⟨-, -, _, hmanifest, -⟩ := h
  cases hvalid : validateManifest p.toFloatOps package.manifest with
  | error e =>
    rw [hvalid] at hmanifest
    cases hmanifest
  | ok u => exact (dates_of_validateManifest p.toFloatOps hvalid).2

/-! ## Compatibility -/

/-- The checks of `verify_compatibility`, and the digest of the request. -/
def compatibilityChecks (package : VerifiedPackage p) (request : CompatibilityRequest) :
    Except PackageVerificationError Digest := do
  let manifest := package.package.manifest
  reject (request.horizonSeconds = 0 ∨ request.availableMemoryBytes = 0 ∨
    1000000 < request.observedQualityMillionths ∨ request.observedSourceCount = 0 ∨
    request.asset = "" ∨ request.eventType = "" ∨ request.runtimeCapabilities = []) .invalidRequest
  reject (request.evaluatedAtNs ≤ 0 ∨ manifest.expiresAtNs ≤ request.evaluatedAtNs) .expired
  reject (manifest.reviewAfterNs ≤ request.evaluatedAtNs) .reviewRequired
  reject (manifest.supportedAssets.contains request.asset = false) .assetMismatch
  reject (manifest.supportedEventTypes.contains request.eventType = false) .eventTypeMismatch
  reject (manifest.supportedHorizonsSeconds.contains request.horizonSeconds = false)
    .horizonMismatch
  reject (request.featureSchemaHash ≠ manifest.featureSchemaHash) .featureSchemaMismatch
  reject (request.normalizationHash ≠ manifest.normalizationHash) .normalizationMismatch
  reject (request.labelDefinitionHash ≠ manifest.labelDefinitionHash) .labelMismatch
  reject (p.versionLt request.runtimeVersion
    manifest.runtimeRequirements.minimumRuntimeVersion = true) .runtimeVersionMismatch
  reject (manifest.runtimeRequirements.requiredCapabilities.all
    (fun capability => request.runtimeCapabilities.contains capability) = false) .capabilityMismatch
  reject (request.availableMemoryBytes < manifest.runtimeRequirements.minimumMemoryBytes)
    .memoryMismatch
  reject (request.observedQualityMillionths <
      manifest.qualityRequirements.minimumQualityMillionths ∨
    request.observedSourceCount < manifest.qualityRequirements.minimumSourceCount) .qualityMismatch
  let wire ← required (p.compatibilityWire request) .compatibilityEncoding
  pure (p.blake3 wire)

/-- A compatible request is dated before the package is due for review. -/
theorem evaluated_before_review {p : Primitives F} {package : VerifiedPackage p}
    {request : CompatibilityRequest} {digest : Digest}
    (h : compatibilityChecks p package request = .ok digest) :
    request.evaluatedAtNs < package.package.manifest.reviewAfterNs := by
  simp only [compatibilityChecks, bind_eq_ok, reject_eq_ok, not_le] at h
  obtain ⟨-, -, -, -, -, hreview, -⟩ := h
  exact hreview

/-- A receipt that a package is compatible with a request. -/
structure CompatiblePackage where
  verified : VerifiedPackage p
  requestBlake3 : Digest
  compatible : ∃ request, compatibilityChecks p verified request = .ok requestBlake3

def verifyCompatibility (package : VerifiedPackage p) (request : CompatibilityRequest) :
    Except PackageVerificationError (CompatiblePackage p) :=
  match h : compatibilityChecks p package request with
  | .ok digest => .ok ⟨package, digest, request, h⟩
  | .error e => .error e

variable {p}

def CompatiblePackage.modelId (compatible : CompatiblePackage p) : String :=
  compatible.verified.modelId

def CompatiblePackage.packageBlake3 (compatible : CompatiblePackage p) : Digest :=
  compatible.verified.packageBlake3

end CryptoIntelligence.Models
