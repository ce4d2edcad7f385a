/-
  Immutable catalog snapshots and their resolution (`instrument-registry`, `resolve.rs`). A snapshot
  holds the effective definitions of a record prefix in `definition_order`, with an index by symbol
  key and one by identity whose positions lie in the entries.

  The hash map of the source has no order; its values are sorted with an order that distinguishes
  any two identities.
-/
import CryptoIntelligence.Lib.Grouping
import CryptoIntelligence.Registry.Encoding

namespace CryptoIntelligence.Registry

open Lib Domain Event
open Std (ExtTreeMap ExtTreeSet TransCmp LawfulEqCmp)

/-! ## Orders -/

@[ext]
structure SymbolKey where
  venue : VenueId
  venueSymbol : String
  productType : ProductType
  deriving DecidableEq

def SymbolKey.compare : SymbolKey → SymbolKey → Ordering :=
  compareLex (compareOn (·.venue.value)) <| compareLex (compareOn (·.venueSymbol))
    (compareOn (·.productType.toU8))

instance : TransCmp SymbolKey.compare := by
  unfold SymbolKey.compare
  infer_instance

instance : LawfulEqCmp SymbolKey.compare where
  compare_self := Std.ReflCmp.compare_self
  eq_of_compare {a b} h := by
    rw [SymbolKey.compare, compareLex_eq_eq, compareLex_eq_eq] at h
    obtain ⟨hvenue, hsymbol, hproduct⟩ := h
    exact SymbolKey.ext (VenueId.ext (LawfulEqCmp.eq_of_compare hvenue))
      (LawfulEqCmp.eq_of_compare hsymbol)
      (ProductType.toU8_injective (LawfulEqCmp.eq_of_compare hproduct))

def venueCompare : VenueId → VenueId → Ordering := compareOn (·.value)

instance : TransCmp venueCompare := inferInstanceAs (TransCmp (compareOn _))

instance : LawfulEqCmp venueCompare where
  compare_self := Std.ReflCmp.compare_self
  eq_of_compare h := VenueId.ext (LawfulEqCmp.eq_of_compare h)

def symbolKey (id : InstrumentId) : SymbolKey := ⟨id.venue, id.venueSymbol, id.productType⟩

def definitionOrder : InstrumentDefinition → InstrumentDefinition → Ordering :=
  compareLex (compareOn (·.id.venue.value)) <| compareLex (compareOn (·.id.venueSymbol)) <|
    compareLex (compareOn (·.id.productType.toU8)) <| compareLex (compareOn (·.listingTime))
      (compareOn (·.id.generation))

instance : TransCmp definitionOrder := by
  unfold definitionOrder
  infer_instance

def listedAt (definition : InstrumentDefinition) (eventTime : UnixNanos) : Bool :=
  decide (eventTime ≥ definition.listingTime)
    && definition.delistingTime.all fun delisting => eventTime < delisting

def intervalsOverlap (left right : InstrumentDefinition) : Bool :=
  (right.delistingTime.all fun rightEnd => left.listingTime < rightEnd)
    && left.delistingTime.all fun leftEnd => right.listingTime < leftEnd

def sameEconomicIdentity (left right : InstrumentDefinition) : Bool :=
  left.id == right.id && left.productType == right.productType
    && left.baseAsset == right.baseAsset && left.quoteAsset == right.quoteAsset
    && left.settlementAsset == right.settlementAsset
    && left.contractMultiplier == right.contractMultiplier
    && left.contractValueUnit == right.contractValueUnit
    && left.contractKind == right.contractKind && left.expiryTime == right.expiryTime
    && left.strike == right.strike && left.optionSide == right.optionSide
    && left.priceTick == right.priceTick && left.quantityStep == right.quantityStep

/-! ## Snapshots -/

structure CatalogSnapshotEntry where
  definitionRevision : CatalogRevision
  definitionHash : Hash32
  definition : InstrumentDefinition
  deriving DecidableEq

structure CatalogSnapshot where
  schemaVersion : UInt32
  catalogRevision : CatalogRevision
  asKnownAt : UnixNanos
  records : List CatalogRecord
  entries : List CatalogSnapshotEntry
  catalogDigest : Hash32
  historyDigest : Hash32
  bySymbol : ExtTreeMap SymbolKey (List (Fin entries.length)) SymbolKey.compare
  byId : AList fun _ : InstrumentId => Fin entries.length
  venues : ExtTreeSet VenueId venueCompare

/-- The last record of every instrument. -/
def effectiveEntries (records : List CatalogRecord) :
    AList fun _ : InstrumentId => CatalogSnapshotEntry :=
  records.foldl (fun effective record => effective.insert record.instrument.id
    ⟨record.catalogRevision, record.definitionHash, record.instrument⟩) ∅

/-- The values of a hash map in `definition_order`. -/
def sortedEntries (values : List CatalogSnapshotEntry) : List CatalogSnapshotEntry :=
  values.insertionSort fun left right => (definitionOrder left.definition right.definition).isLE

theorem isLE_trans_definitionOrder : IsTrans CatalogSnapshotEntry fun left right =>
    (definitionOrder left.definition right.definition).isLE = true :=
  ⟨fun _ _ _ => TransCmp.isLE_trans⟩

theorem isLE_total_definitionOrder : Std.Total fun left right : CatalogSnapshotEntry =>
    (definitionOrder left.definition right.definition).isLE = true := by
  refine ⟨fun a b => ?_⟩
  rw [← Std.OrientedCmp.isGE_iff_isLE (a := a.definition) (b := b.definition)]
  cases definitionOrder a.definition b.definition <;> decide

theorem sortedEntries_sorted (values : List CatalogSnapshotEntry) : (sortedEntries values).Pairwise
    fun left right => (definitionOrder left.definition right.definition).isLE = true := by
  have := isLE_trans_definitionOrder
  have := isLE_total_definitionOrder
  exact List.pairwise_insertionSort _ values

section

variable (entries : List CatalogSnapshotEntry)

def indexBySymbol : ExtTreeMap SymbolKey (List (Fin entries.length)) SymbolKey.compare :=
  groupInto SymbolKey.compare (fun i => symbolKey (entries.get i).definition.id)
    (List.finRange entries.length)

def indexById : AList fun _ : InstrumentId => Fin entries.length :=
  (List.finRange entries.length).foldl
    (fun byId i => byId.insert (entries.get i).definition.id i) ∅

def venuesOf : ExtTreeSet VenueId venueCompare :=
  entries.foldl (fun venues entry => venues.insert entry.definition.id.venue) ∅

end

def buildSnapshot (blake3 : Bytes → Hash32) (records : List CatalogRecord) (asKnownAt : UnixNanos)
    (limits : RegistryLimits) : Except ResolveError CatalogSnapshot := do
  let catalogRevision ←
    required (records.getLast?.map CatalogRecord.catalogRevision) .catalogEmpty
  let entries := sortedEntries ((effectiveEntries records).entries.map Sigma.snd)
  let bySymbol := indexBySymbol entries
  reject (bySymbol.toList.any fun group => anyNeighbours
      (fun i j => intervalsOverlap (entries.get i).definition (entries.get j).definition) group.2)
    .ambiguousHistory
  match snapshotDigests blake3 catalogRevision asKnownAt records (entries.map (·.definition))
      limits.maximumSnapshotBytes with
  | .error _ => .error .snapshotCapacityExceeded
  | .ok (catalogDigest, historyDigest) =>
    return { schemaVersion := snapshotSchemaVersion, catalogRevision, asKnownAt, records, entries
             catalogDigest, historyDigest, bySymbol, byId := indexById entries
             venues := venuesOf entries }

/-! ## Resolution -/

structure ResolvedInstrument where
  definition : InstrumentDefinition
  definitionRevision : CatalogRevision
  definitionHash : Hash32
  catalogRevision : CatalogRevision
  asKnownAt : UnixNanos
  catalogDigest : Hash32
  deriving DecidableEq

namespace CatalogSnapshot

variable (s : CatalogSnapshot)

def resolvedEntry (entry : CatalogSnapshotEntry) : ResolvedInstrument :=
  ⟨entry.definition, entry.definitionRevision, entry.definitionHash, s.catalogRevision, s.asKnownAt,
    s.catalogDigest⟩

def resolved (index : Fin s.entries.length) : ResolvedInstrument :=
  s.resolvedEntry (s.entries.get index)

def resolve (venue : VenueId) (symbol : String) (eventTime : UnixNanos) :
    Except ResolveError ResolvedInstrument := do
  reject (venue ∉ s.venues) .unknownVenue
  let normalized ← (InstrumentId.new venue symbol 1).mapError .invalidIdentity
  let found := ProductType.all.filterMap fun productType =>
    s.bySymbol[(⟨venue, normalized.venueSymbol, productType⟩ : SymbolKey)]?
  match found.flatten.filter fun index => listedAt (s.entries.get index).definition eventTime with
  | [] => .error (if found.isEmpty then .unknownSymbol else .notListedAtTime)
  | [index] => return s.resolved index
  | _ :: _ :: _ => .error .ambiguousProductType

def resolveForProduct (venue : VenueId) (symbol : String) (productType : ProductType)
    (eventTime : UnixNanos) : Except ResolveError ResolvedInstrument := do
  reject (venue ∉ s.venues) .unknownVenue
  let normalized ←
    (InstrumentId.newForProduct venue symbol productType 1).mapError .invalidIdentity
  let indices ← required
    s.bySymbol[(⟨venue, normalized.venueSymbol, productType⟩ : SymbolKey)]? .unknownSymbol
  match indices.filter fun index => listedAt (s.entries.get index).definition eventTime with
  | [] => .error .notListedAtTime
  | [index] => return s.resolved index
  | _ :: _ :: _ => .error .ambiguousHistory

def resolveId (id : InstrumentId) (eventTime : UnixNanos) :
    Except ResolveError ResolvedInstrument := do
  let index ← required (s.byId.lookup id) .unknownInstrument
  reject (!listedAt (s.entries.get index).definition eventTime) .notListedAtTime
  return s.resolved index

def verifyIntegrity (blake3 : Bytes → Hash32) : Bool :=
  match snapshotDigests blake3 s.catalogRevision s.asKnownAt s.records
      (s.entries.map (·.definition)) maximumSnapshotBytes with
  | .ok digests => digests == (s.catalogDigest, s.historyDigest)
  | .error _ => false

end CatalogSnapshot

end CryptoIntelligence.Registry
