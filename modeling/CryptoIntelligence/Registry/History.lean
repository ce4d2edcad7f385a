/-
  The records of the instrument catalog (`instrument-registry`, `history.rs`): numbered definitions
  and corrections, what a batch of mutations asks for, and the limits of a registry. Texts and
  limits carry the checks of their constructors.
-/
import CryptoIntelligence.Event.Payload

namespace CryptoIntelligence.Registry

open Lib Domain Event

/-! ## Revisions and errors -/

/-- A nonzero revision number. -/
@[ext]
structure CatalogRevision where
  value : UInt64
  value_ne_zero : value ≠ 0

instance : DecidableEq CatalogRevision := fun a b =>
  decidable_of_iff (a.value = b.value) CatalogRevision.ext_iff.symm

inductive RegistryError where
  | invalidLimits
  | invalidRevisionMetadata
  | invalidCorrectionReason
  | emptyBatch
  | batchCapacityExceeded
  | recordCapacityExceeded
  | definitionCapacityExceeded
  | symbolCapacityExceeded
  | historyCapacityExceeded
  | correctionCapacityExceeded
  | canonicalEncodingCapacityExceeded
  | revisionExhausted
  | correctionVersionExhausted
  | generationConflict
  | generationNotIncreasing
  | overlappingListing
  | recordTimeRegression
  | batchKnownAtMismatch
  | revisionConflict (expected actual : Option CatalogRevision)
  | unknownCorrectionTarget
  | staleCorrection
  | correctionIdentityMismatch
  | correctionHashMismatch
  | noOpCorrection
  | correctionRequiresNewGeneration
  | internalInvariant
  deriving DecidableEq

inductive ResolveError where
  | catalogEmpty
  | catalogRevisionUnavailable
  | unknownVenue
  | unknownSymbol
  | ambiguousProductType
  | unknownInstrument
  | notListedAtTime
  | invalidIdentity (error : DomainError)
  | ambiguousHistory
  | snapshotCapacityExceeded
  deriving DecidableEq

def RegistryError.fromSnapshotValidation : ResolveError → RegistryError
  | .snapshotCapacityExceeded => .canonicalEncodingCapacityExceeded
  | .ambiguousHistory => .overlappingListing
  | _ => .internalInvariant

def CatalogRevision.new (value : UInt64) : Option CatalogRevision :=
  if h : value = 0 then none else some ⟨value, h⟩

/-- The revision after `previous`, the first one being 1. -/
def CatalogRevision.next (previous : Option CatalogRevision) :
    Except RegistryError CatalogRevision := do
  let value ←
    match previous with
    | some revision =>
      if revision.value = 0xFFFFFFFFFFFFFFFF then .error .revisionExhausted
      else pure (revision.value + 1)
    | none => pure 1
  required (CatalogRevision.new value) .revisionExhausted

/-! ## Texts and limits -/

def maximumCatalogRecords : Nat := 1000000

def maximumDefinitions : Nat := 500000

def maximumSymbolKeys : Nat := 250000

def maximumHistoryPerSymbol : Nat := 4096

def maximumCorrectionsPerInstrument : Nat := 1024

def maximumBatchRecords : Nat := 64

def maximumSnapshotBytes : Nat := 256 * 1024 * 1024

def maximumSourceReferenceBytes : Nat := 256

def maximumCorrectionReasonBytes : Nat := 256

def validBoundedText (value : String) (maximumBytes : Nat) : Bool :=
  !value.toList.isEmpty && decide ((utf8 value).length ≤ maximumBytes)
    && trim value.toList == value.toList && !value.toList.any isControl

structure RevisionMetadata where
  knownAt : UnixNanos
  sourceReference : String
  source_valid : validBoundedText sourceReference maximumSourceReferenceBytes = true
  deriving DecidableEq

def RevisionMetadata.tryNew (knownAt : UnixNanos) (sourceReference : String) :
    Except RegistryError RevisionMetadata :=
  if h : validBoundedText sourceReference maximumSourceReferenceBytes = true then
    .ok ⟨knownAt, sourceReference, h⟩
  else .error .invalidRevisionMetadata

structure RegistryLimitsInput where
  maximumRecords : ℕ+
  maximumDefinitions : ℕ+
  maximumSymbolKeys : ℕ+
  maximumHistoryPerSymbol : ℕ+
  maximumCorrectionsPerInstrument : ℕ+
  maximumBatchRecords : ℕ+
  maximumSnapshotBytes : ℕ+
  deriving DecidableEq

def RegistryLimitsInput.isValid (input : RegistryLimitsInput) : Bool :=
  decide (input.maximumRecords ≤ maximumCatalogRecords)
    && decide (input.maximumDefinitions ≤ Registry.maximumDefinitions)
    && decide (input.maximumDefinitions ≤ input.maximumRecords)
    && decide (input.maximumSymbolKeys ≤ Registry.maximumSymbolKeys)
    && decide (input.maximumSymbolKeys ≤ input.maximumDefinitions)
    && decide (input.maximumHistoryPerSymbol ≤ Registry.maximumHistoryPerSymbol)
    && decide (input.maximumHistoryPerSymbol ≤ input.maximumDefinitions)
    && decide (input.maximumCorrectionsPerInstrument ≤ Registry.maximumCorrectionsPerInstrument)
    && decide (input.maximumCorrectionsPerInstrument ≤ input.maximumRecords)
    && decide (input.maximumBatchRecords ≤ Registry.maximumBatchRecords)
    && decide (input.maximumBatchRecords ≤ input.maximumRecords)
    && decide (1024 ≤ input.maximumSnapshotBytes)
    && decide (input.maximumSnapshotBytes ≤ Registry.maximumSnapshotBytes)

structure RegistryLimits extends RegistryLimitsInput where
  valid : toRegistryLimitsInput.isValid = true

def RegistryLimits.tryNew (input : RegistryLimitsInput) : Except RegistryError RegistryLimits :=
  if h : input.isValid = true then .ok ⟨input, h⟩ else .error .invalidLimits

instance : Inhabited RegistryLimits where
  default :=
    { maximumRecords := 100000, maximumDefinitions := 50000, maximumSymbolKeys := 25000
      maximumHistoryPerSymbol := 1024, maximumCorrectionsPerInstrument := 256
      maximumBatchRecords := 64, maximumSnapshotBytes := 64 * 1024 * 1024
      valid := by decide +kernel }

/-! ## Mutations and records -/

structure CorrectionInput where
  supersedesRevision : CatalogRevision
  priorDefinitionHash : Hash32
  replacement : InstrumentDefinition
  metadata : RevisionMetadata
  reason : String
  reason_valid : validBoundedText reason maximumCorrectionReasonBytes = true
  deriving DecidableEq

def CorrectionInput.tryNew (supersedesRevision : CatalogRevision) (priorDefinitionHash : Hash32)
    (replacement : InstrumentDefinition) (metadata : RevisionMetadata) (reason : String) :
    Except RegistryError CorrectionInput :=
  if h : validBoundedText reason maximumCorrectionReasonBytes = true then
    .ok ⟨supersedesRevision, priorDefinitionHash, replacement, metadata, reason, h⟩
  else .error .invalidCorrectionReason

inductive CatalogMutation where
  | definition (definition : InstrumentDefinition) (metadata : RevisionMetadata)
  | correction (correction : CorrectionInput)
  deriving DecidableEq

structure DefinitionRecord where
  catalogRevision : CatalogRevision
  metadata : RevisionMetadata
  definitionHash : Hash32
  definition : InstrumentDefinition
  deriving DecidableEq

@[ext]
structure CorrectionRecord where
  catalogRevision : CatalogRevision
  correctionVersion : UInt32
  version_ne_zero : correctionVersion ≠ 0
  supersedesRevision : CatalogRevision
  metadata : RevisionMetadata
  priorDefinitionHash : Hash32
  definitionHash : Hash32
  correctionId : Hash32
  reason : String
  replacement : InstrumentDefinition

instance : DecidableEq CorrectionRecord := fun a b =>
  decidable_of_iff (a.catalogRevision = b.catalogRevision ∧
    a.correctionVersion = b.correctionVersion ∧ a.supersedesRevision = b.supersedesRevision ∧
    a.metadata = b.metadata ∧ a.priorDefinitionHash = b.priorDefinitionHash ∧
    a.definitionHash = b.definitionHash ∧ a.correctionId = b.correctionId ∧
    a.reason = b.reason ∧ a.replacement = b.replacement) CorrectionRecord.ext_iff.symm

inductive CatalogRecord where
  | definition (record : DefinitionRecord)
  | correction (record : CorrectionRecord)
  deriving DecidableEq

namespace CatalogRecord

def catalogRevision : CatalogRecord → CatalogRevision
  | .definition record => record.catalogRevision
  | .correction record => record.catalogRevision

def metadata : CatalogRecord → RevisionMetadata
  | .definition record => record.metadata
  | .correction record => record.metadata

def instrument : CatalogRecord → InstrumentDefinition
  | .definition record => record.definition
  | .correction record => record.replacement

def definitionHash : CatalogRecord → Hash32
  | .definition record => record.definitionHash
  | .correction record => record.definitionHash

end CatalogRecord

inductive AppendOutcome where
  | appended (revision : CatalogRevision)
  | alreadyPresent (revision : CatalogRevision)
  deriving DecidableEq

structure BatchOutcome where
  previousRevision : Option CatalogRevision
  committedRevision : Option CatalogRevision
  appendedRecords : Nat
  idempotentRecords : Nat
  deriving DecidableEq

end CryptoIntelligence.Registry
