/-
  The writer of the append-only instrument catalog (`instrument-registry`, `lib.rs`): the derived
  indexes, `append_batch` with its two single-mutation forms, and the three snapshot queries.
  A failed batch leaves the registry as it was.
-/
import CryptoIntelligence.Registry.Snapshot

namespace CryptoIntelligence.Registry

open Lib Domain Decimal
  Event
open Std (ExtTreeMap)

/-! ## Derived indexes -/

structure EffectiveDefinition where
  definition : InstrumentDefinition
  revision : CatalogRevision
  definitionHash : Hash32
  correctionCount : UInt32
  deriving DecidableEq

structure DerivedCatalog where
  byId : AList fun _ : InstrumentId => EffectiveDefinition
  bySymbol : ExtTreeMap SymbolKey (List InstrumentId) SymbolKey.compare

namespace DerivedCatalog

def empty : DerivedCatalog := ⟨∅, ∅⟩

variable (derived : DerivedCatalog)

/-- Applies a test to the definitions of two identities of the index. Every identity of the index is
    one of `by_id`, so the lookups that would panic in the source do not happen. -/
def onDefinitions {α : Type} [Inhabited α] (test : InstrumentDefinition → InstrumentDefinition → α)
    (left right : InstrumentId) : α :=
  match derived.byId.lookup left, derived.byId.lookup right with
  | some left, some right => test left.definition right.definition
  | _, _ => default

def rebuildSymbolIndex : DerivedCatalog :=
  let groups := groupInto SymbolKey.compare symbolKey
    (derived.byId.entries.map fun entry => entry.2.definition.id)
  { derived with
    bySymbol := groups.map fun _ ids => ids.insertionSort fun left right =>
      (derived.onDefinitions definitionOrder left right).isLE }

def validateSymbol (key : SymbolKey) : Except RegistryError Unit :=
  match derived.bySymbol[key]? with
  | none => .ok ()
  | some ids => do
    reject (anyNeighbours (fun left right => decide (left.generation ≥ right.generation)) ids)
      .generationNotIncreasing
    reject (anyNeighbours (derived.onDefinitions intervalsOverlap) ids) .overlappingListing

end DerivedCatalog

/-! ## The registry -/

structure InstrumentRegistry where
  limits : RegistryLimits
  records : List CatalogRecord
  derived : DerivedCatalog
  lastKnownAt : Option UnixNanos

def validateBatchTime (previous batchKnownAt : Option UnixNanos) (next : UnixNanos) :
    Except RegistryError (Option UnixNanos) := do
  reject (∃ time ∈ previous, next < time) .recordTimeRegression
  match batchKnownAt with
  | some knownAt =>
    reject (knownAt ≠ next) .batchKnownAtMismatch
    return batchKnownAt
  | none => return some next

def validateRecordCapacity (committed staged : Nat) (limits : RegistryLimits) :
    Except RegistryError Unit :=
  reject (committed + staged ≥ limits.maximumRecords) .recordCapacityExceeded

def existingCorrectionRevision (records : List CatalogRecord) (input : CorrectionInput) :
    Option CatalogRevision :=
  records.findSome? fun
    | .correction record =>
      if record.supersedesRevision = input.supersedesRevision
          ∧ record.priorDefinitionHash = input.priorDefinitionHash
          ∧ record.replacement = input.replacement ∧ record.metadata = input.metadata
          ∧ record.reason = input.reason then
        some record.catalogRevision
      else none
    | .definition _ => none

/-- The variables of the loop over the mutations of a batch. -/
structure Staging where
  derived : DerivedCatalog
  staged : List CatalogRecord
  commitRevision : Option CatalogRevision
  batchKnownAt : Option UnixNanos
  idempotentRecords : Nat

/-- `commit_revision.get_or_insert(CatalogRevision::next(actual)?)`; the argument is evaluated
    first. -/
def commitRevision (actual current : Option CatalogRevision) :
    Except RegistryError CatalogRevision := do
  let next ← CatalogRevision.next actual
  return current.getD next

namespace InstrumentRegistry

def withLimits (limits : RegistryLimits) : InstrumentRegistry := ⟨limits, [], .empty, none⟩

variable (blake3 : Bytes → Hash32) (registry : InstrumentRegistry)

def currentRevision : Option CatalogRevision := registry.records.getLast?.map (·.catalogRevision)

def definitionRevision (id : InstrumentId) : Option (CatalogRevision × Hash32) :=
  (registry.derived.byId.lookup id).map fun effective =>
    (effective.revision, effective.definitionHash)

def stageDefinition (s : Staging) (definition : InstrumentDefinition)
    (metadata : RevisionMetadata) : Except RegistryError Staging :=
  match s.derived.byId.lookup definition.id with
  | some existing =>
    if existing.definition = definition then
      return { s with idempotentRecords := s.idempotentRecords + 1 }
    else if existing.definition.listingTime ≠ definition.listingTime
        ∨ existing.definition.delistingTime ≠ definition.delistingTime then
      .error .generationNotIncreasing
    else .error .generationConflict
  | none => do
    validateRecordCapacity registry.records.length s.staged.length registry.limits
    let batchKnownAt ← validateBatchTime registry.lastKnownAt s.batchKnownAt metadata.knownAt
    reject (s.derived.byId.entries.length ≥ registry.limits.maximumDefinitions)
      .definitionCapacityExceeded
    match s.derived.bySymbol[symbolKey definition.id]? with
    | none =>
      reject (s.derived.bySymbol.size ≥ registry.limits.maximumSymbolKeys) .symbolCapacityExceeded
    | some existingIds =>
      reject (existingIds.length ≥ registry.limits.maximumHistoryPerSymbol) .historyCapacityExceeded
    let hash ← (definitionHash blake3 definition).mapError
      fun _ => .canonicalEncodingCapacityExceeded
    let revision ← commitRevision registry.currentRevision s.commitRevision
    let byId := s.derived.byId.insert definition.id ⟨definition, revision, hash, 0⟩
    return { s with
      derived := { s.derived with byId }.rebuildSymbolIndex
      staged := s.staged ++ [.definition ⟨revision, metadata, hash, definition⟩]
      commitRevision := some revision
      batchKnownAt }

def stageCorrection (s : Staging) (correction : CorrectionInput) : Except RegistryError Staging :=
  let records := registry.records ++ s.staged
  if (existingCorrectionRevision records correction).isSome then
    return { s with idempotentRecords := s.idempotentRecords + 1 }
  else do
    let target := records.find? fun record =>
      record.catalogRevision = correction.supersedesRevision
        ∧ record.definitionHash = correction.priorDefinitionHash
    let current ← required (s.derived.byId.lookup correction.replacement.id)
      (if target.isSome then .correctionIdentityMismatch else .unknownCorrectionTarget)
    reject (current.revision ≠ correction.supersedesRevision) .staleCorrection
    reject (current.definition.id ≠ correction.replacement.id) .correctionIdentityMismatch
    reject (current.definitionHash ≠ correction.priorDefinitionHash) .correctionHashMismatch
    reject (current.definition = correction.replacement) .noOpCorrection
    reject (!sameEconomicIdentity current.definition correction.replacement)
      .correctionRequiresNewGeneration
    validateRecordCapacity registry.records.length s.staged.length registry.limits
    let batchKnownAt ←
      validateBatchTime registry.lastKnownAt s.batchKnownAt correction.metadata.knownAt
    reject (current.correctionCount.toNat ≥ registry.limits.maximumCorrectionsPerInstrument)
      .correctionCapacityExceeded
    let hash ← (definitionHash blake3 correction.replacement).mapError
      fun _ => .canonicalEncodingCapacityExceeded
    let id ← (correctionId blake3 correction.supersedesRevision correction.priorDefinitionHash hash
        correction.metadata.knownAt correction.metadata.sourceReference correction.reason).mapError
      fun _ => .canonicalEncodingCapacityExceeded
    -- the count after an overflow is zero, which is not a version
    if h : current.correctionCount + 1 = 0 then .error .correctionVersionExhausted
    else
      let revision ← commitRevision registry.currentRevision s.commitRevision
      let byId := s.derived.byId.insert correction.replacement.id
        ⟨correction.replacement, revision, hash, current.correctionCount + 1⟩
      return { s with
        derived := { s.derived with byId }.rebuildSymbolIndex
        staged := s.staged ++ [.correction ⟨revision, current.correctionCount + 1, h,
          correction.supersedesRevision, correction.metadata, correction.priorDefinitionHash, hash,
          id, correction.reason, correction.replacement⟩]
        commitRevision := some revision
        batchKnownAt }

def stageMutation (s : Staging) : CatalogMutation → Except RegistryError Staging
  | .definition definition metadata => registry.stageDefinition blake3 s definition metadata
  | .correction correction => registry.stageCorrection blake3 s correction

def stageMutations (mutations : List CatalogMutation) : Except RegistryError Staging :=
  mutations.foldlM (registry.stageMutation blake3) ⟨registry.derived, [], none, none, 0⟩

/-- The whole catalog with the staged records has to give a snapshot. -/
def validateStaged (s : Staging) : Except RegistryError Unit := do
  checkAll s.derived.validateSymbol s.derived.bySymbol.keys
  if s.staged.length > 0 then
    let knownAt ← required s.batchKnownAt .internalInvariant
    let _ ← (buildSnapshot blake3 (registry.records ++ s.staged) knownAt registry.limits).mapError
      .fromSnapshotValidation

def appendBatch (expectedRevision : Option CatalogRevision) (mutations : List CatalogMutation) :
    Except RegistryError (InstrumentRegistry × BatchOutcome) := do
  let actualRevision := registry.currentRevision
  reject (expectedRevision ≠ actualRevision) (.revisionConflict expectedRevision actualRevision)
  reject (mutations = []) .emptyBatch
  reject (mutations.length > registry.limits.maximumBatchRecords) .batchCapacityExceeded
  let s ← registry.stageMutations blake3 mutations
  registry.validateStaged blake3 s
  let committed : InstrumentRegistry :=
    { registry with
      records := registry.records ++ s.staged
      derived := s.derived
      lastKnownAt := s.batchKnownAt.or registry.lastKnownAt }
  return (committed,
    ⟨actualRevision, committed.currentRevision, s.staged.length, s.idempotentRecords⟩)

/-- The registry after a batch of one mutation, and what the caller is told. -/
def appendOne (mutation : CatalogMutation) :
    InstrumentRegistry × Except RegistryError AppendOutcome :=
  match registry.appendBatch blake3 registry.currentRevision [mutation] with
  | .error err => (registry, .error err)
  | .ok (committed, outcome) =>
    (committed, (required outcome.committedRevision .internalInvariant).map .appended)

def appendDefinition (definition : InstrumentDefinition) (metadata : RevisionMetadata) :
    InstrumentRegistry × Except RegistryError AppendOutcome :=
  match registry.derived.byId.lookup definition.id with
  | some existing =>
    if existing.definition = definition then (registry, .ok (.alreadyPresent existing.revision))
    else registry.appendOne blake3 (.definition definition metadata)
  | none => registry.appendOne blake3 (.definition definition metadata)

def appendCorrection (correction : CorrectionInput) :
    InstrumentRegistry × Except RegistryError AppendOutcome :=
  match existingCorrectionRevision registry.records correction with
  | some revision => (registry, .ok (.alreadyPresent revision))
  | none => registry.appendOne blake3 (.correction correction)

/-! ## Queries -/

def snapshot : Except ResolveError CatalogSnapshot := do
  let asKnownAt ← required registry.lastKnownAt .catalogEmpty
  buildSnapshot blake3 registry.records asKnownAt registry.limits

/-- The records known at a time. -/
def knownRecords (asKnownAt : UnixNanos) : List CatalogRecord :=
  registry.records.takeWhile fun record => record.metadata.knownAt ≤ asKnownAt

def snapshotAsKnownAt (asKnownAt : UnixNanos) : Except ResolveError CatalogSnapshot :=
  buildSnapshot blake3 (registry.knownRecords asKnownAt) asKnownAt registry.limits

/-- The records up to a revision. -/
def recordsAt (revision : CatalogRevision) : List CatalogRecord :=
  registry.records.takeWhile fun record => record.catalogRevision.value ≤ revision.value

def snapshotAtRevision (revision : CatalogRevision) : Except ResolveError CatalogSnapshot := do
  reject (∀ current ∈ registry.currentRevision, revision.value > current.value)
    .catalogRevisionUnavailable
  let asKnownAt ← required ((registry.recordsAt revision).getLast?.map (·.metadata.knownAt))
    .catalogEmpty
  buildSnapshot blake3 (registry.recordsAt revision) asKnownAt registry.limits

end InstrumentRegistry

/-! ## Runs -/

inductive RegistryCall where
  | appendBatch (expectedRevision : Option CatalogRevision) (mutations : List CatalogMutation)
  | appendDefinition (definition : InstrumentDefinition) (metadata : RevisionMetadata)
  | appendCorrection (correction : CorrectionInput)

namespace InstrumentRegistry

def step (blake3 : Bytes → Hash32) (registry : InstrumentRegistry) :
    RegistryCall → InstrumentRegistry
  | .appendBatch expectedRevision mutations =>
    match registry.appendBatch blake3 expectedRevision mutations with
    | .ok (committed, _) => committed
    | .error _ => registry
  | .appendDefinition definition metadata =>
    (registry.appendDefinition blake3 definition metadata).1
  | .appendCorrection correction => (registry.appendCorrection blake3 correction).1

/-- The registry after some calls. -/
def run (blake3 : Bytes → Hash32) (registry : InstrumentRegistry) (calls : List RegistryCall) :
    InstrumentRegistry := calls.foldl (step blake3) registry

end InstrumentRegistry

/-! ## A symbol with two listings -/

def sampleInput (generation : UInt32) (hgeneration : generation ≠ 0) (listingTime : UnixNanos)
    (delistingTime : Option UnixNanos) : InstrumentDefinitionInput :=
  let quote : AssetId := ⟨.fiat, "", "", "USD", 1, by decide, by decide, by decide, one_generation⟩
  { id := { krakenSpot with generation, generation_ne_zero := hgeneration }
    productType := .spot, baseAsset := bitcoin, quoteAsset := quote, settlementAsset := quote
    contractMultiplier := Event.one, contractValueUnit := .base, contractKind := .none
    expiryTime := none, strike := none, optionSide := none
    priceTick := ⟨Event.one, Event.one_isPositive⟩
    quantityStep := ⟨Event.one, Event.one_not_isNegative⟩, listingTime, delistingTime }

def firstListing : InstrumentDefinition :=
  ⟨sampleInput 1 one_generation 10 (some 20), by decide +kernel⟩

def secondListing : InstrumentDefinition :=
  ⟨sampleInput 2 (by decide) 20 none, by decide +kernel⟩

/-- A listing becomes known. -/
def listCall (definition : InstrumentDefinition) (knownAt : UnixNanos) : RegistryCall :=
  .appendDefinition definition ⟨knownAt, "venue notice", by decide +kernel⟩

def sampleCatalog (calls : List RegistryCall) : InstrumentRegistry :=
  (InstrumentRegistry.withLimits default).run (fun _ => zeroHash) calls

end CryptoIntelligence.Registry
