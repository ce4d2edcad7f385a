/-
  Event-time watermarks (`feature-engine`, `watermark.rs`). A tracker follows, for each partition of
  its sources, how far event time is complete. A window is final when every required partition has
  passed its end by the allowed lateness; the effective frontier is the least required watermark
  minus that lateness.

  The digests are parameters: no decision reads them. Partitions are kept in the order of their
  keys, as in the source's `BTreeMap`; only the digests see the order.
-/
import CryptoIntelligence.Lib.Codec
import CryptoIntelligence.Lib.Sorted
import CryptoIntelligence.Event.Payload
import CryptoIntelligence.Features.Observation
import CryptoIntelligence.Features.TimeWindow

namespace CryptoIntelligence.Features

open Lib Domain Event Quality
open Std (ExtTreeMap TransCmp LawfulEqCmp)

inductive WatermarkError where
  | invalidPartitionId
  | invalidTracker
  | duplicatePartition
  | unknownPartition
  | invalidWatermark
  | arithmeticOverflow
  | invalidCorrectionTime
  | invalidCorrectionState
  | regression (current attempted : UnixNanos)
  deriving DecidableEq

def maxPartitionIdLength : Nat := 96

def maxPartitions : Nat := 128

/-! ## Partitions -/

def isPartitionChar (c : Char) : Bool :=
  c.isLower || c.isDigit || c == '.' || c == '_' || c == '-'

/-- What `PartitionId::validate` accepts; all its characters are ASCII. -/
def isPartitionId (value : String) : Bool :=
  !value.toList.isEmpty && decide (value.toList.length ≤ maxPartitionIdLength)
    && value.toList.all isPartitionChar

@[ext]
structure PartitionId where
  value : String
  valid : isPartitionId value = true
  deriving DecidableEq

def PartitionId.new (value : String) : Except WatermarkError PartitionId :=
  if h : isPartitionId value = true then .ok ⟨value, h⟩ else .error .invalidPartitionId

@[ext]
structure WatermarkKey where
  source : SourceId
  partition : PartitionId
  deriving DecidableEq

def WatermarkKey.compare : WatermarkKey → WatermarkKey → Ordering :=
  compareLex (compareOn (·.source.kind.toU8)) <| compareLex (compareOn (·.source.name)) <|
    compareLex (compareOn (·.source.generation)) (compareOn (·.partition.value))

instance transWatermarkKey : TransCmp WatermarkKey.compare := by
  unfold WatermarkKey.compare
  infer_instance

instance lawfulWatermarkKey : LawfulEqCmp WatermarkKey.compare where
  compare_self := Std.ReflCmp.compare_self
  eq_of_compare {a b} h := by
    simp only [WatermarkKey.compare, compareLex_eq_eq] at h
    obtain ⟨hkind, hname, hgeneration, hpartition⟩ := h
    exact WatermarkKey.ext
      (SourceId.ext (SourceKind.toU8_injective (LawfulEqCmp.eq_of_compare hkind))
        (LawfulEqCmp.eq_of_compare hname) (LawfulEqCmp.eq_of_compare hgeneration))
      (PartitionId.ext (LawfulEqCmp.eq_of_compare hpartition))

inductive PartitionRole where
  | required_
  | optional
  deriving DecidableEq, Repr

structure PartitionConfig where
  key : WatermarkKey
  role : PartitionRole

structure WatermarkUpdate where
  eventTime : UnixNanos
  asKnownAt : UnixNanos
  health : SourceHealthState

inductive Finalization where
  | provisional
  | final
  | invalid
  deriving DecidableEq, Repr

structure PartitionState where
  role : PartitionRole
  watermark : Option UnixNanos
  asKnownAt : Option UnixNanos
  health : Option SourceHealthState

abbrev Partitions := ExtTreeMap WatermarkKey PartitionState WatermarkKey.compare

/-! ## Fingerprints -/

def healthRank : SourceHealthState → Nat
  | .healthy => 0
  | .degraded => 1
  | .unhealthy => 2
  | .quarantined => 3
  | .recovering => 4

/-- The sources of the required partitions. Partitions of one source are neighbours. -/
def canonicalRequiredSources (partitions : Partitions) : List SourceId :=
  partitions.toList.foldl (fun sources entry =>
    if entry.2.role = .required_ ∧ sources.getLast? ≠ some entry.1.source then
      sources ++ [entry.1.source]
    else sources) []

/-- The digests of a policy, an entity and a list of sources. -/
structure Fingerprints where
  fingerprintPolicy : Partitions → UInt64 → List SourceHealthState → Option FeatureEntity → Hash32
  fingerprintEntity : FeatureEntity → Hash32
  fingerprintSources : List SourceId → Hash32

/-! ## The tracker -/

structure WatermarkTracker where
  partitions : Partitions
  allowedLateness : UInt64
  allowedHealth : List SourceHealthState
  updateSequence : UInt64
  policyId : Hash32
  entityDigest : Option Hash32
  requiredSourceCount : Nat
  requiredSourceDigest : Hash32

structure FinalizationDecision where
  window : TimeWindow
  state : Finalization
  watermark : Option UnixNanos
  asKnownAt : UnixNanos
  entityDigest : Option Hash32
  requiredSourceCount : Nat
  requiredSourceDigest : Hash32
  evaluationSequence : UInt64
  policyId : Hash32

structure CorrectionDecision where
  window : TimeWindow
  source : WatermarkKey
  correctedEventTime : UnixNanos
  evaluationSequence : UInt64
  policyId : Hash32

/-- No health state is allowed twice. -/
def uniqueHealth (unique : List SourceHealthState) :
    List SourceHealthState → Except WatermarkError (List SourceHealthState)
  | [] => .ok unique
  | state :: states => do
    reject (unique.contains state = true) .invalidTracker
    uniqueHealth (unique ++ [state]) states

def insertPartitions (partitions : Partitions) :
    List PartitionConfig → Except WatermarkError Partitions
  | [] => .ok partitions
  | config :: configs => do
    reject (config.key ∈ partitions) .duplicatePartition
    insertPartitions (partitions.insert config.key ⟨config.role, none, none, none⟩) configs

namespace WatermarkTracker

def tryNew (hash : Fingerprints) (configs : List PartitionConfig) (allowedLateness : UInt64)
    (allowedHealth : List SourceHealthState) : Except WatermarkError WatermarkTracker := do
  reject (configs.isEmpty ∨ maxPartitions < configs.length ∨ allowedHealth.isEmpty
    ∨ SourceHealthState.all.length < allowedHealth.length
    ∨ Int64.maxValue.toInt < allowedLateness.toNat) .invalidTracker
  reject (¬ configs.any fun config => decide (config.role = .required_)) .invalidTracker
  let unique ← uniqueHealth [] allowedHealth
  let sorted := sortByKey healthRank unique
  let partitions ← insertPartitions ∅ configs
  let sources := canonicalRequiredSources partitions
  return ⟨partitions, allowedLateness, sorted, 0,
    hash.fingerprintPolicy partitions allowedLateness sorted none, none, sources.length,
    hash.fingerprintSources sources⟩

def tryNewForEntity (hash : Fingerprints) (configs : List PartitionConfig)
    (allowedLateness : UInt64) (allowedHealth : List SourceHealthState) (entity : FeatureEntity) :
    Except WatermarkError WatermarkTracker := do
  let tracker ← tryNew hash configs allowedLateness allowedHealth
  return { tracker with
    entityDigest := some (hash.fingerprintEntity entity)
    policyId := hash.fingerprintPolicy tracker.partitions tracker.allowedLateness
      tracker.allowedHealth (some entity) }

/-- The states of the required partitions. -/
def requiredStates (tracker : WatermarkTracker) : List PartitionState :=
  tracker.partitions.toList.map Prod.snd |>.filter fun state => decide (state.role = .required_)

def rejectRegression (current : Option UnixNanos) (attempted : UnixNanos) :
    Except WatermarkError Unit :=
  match current with
  | some current => reject (attempted < current) (.regression current attempted)
  | none => .ok ()

def advance (key : WatermarkKey) (update : WatermarkUpdate) :
    Method WatermarkTracker WatermarkError Unit := do
  .lift <| reject (update.eventTime ≤ 0 ∨ update.asKnownAt < update.eventTime) .invalidWatermark
  let tracker ← .get
  let state ← .lift <| required tracker.partitions[key]? .unknownPartition
  .lift <| rejectRegression state.watermark update.eventTime
  .lift <| reject (state.asKnownAt.any fun current => decide (update.asKnownAt < current))
    .invalidWatermark
  let nextSequence ← .lift <| required
    (toU64 (tracker.updateSequence.toNat + 1)) .arithmeticOverflow
  .update fun tracker =>
    { tracker with
      partitions := tracker.partitions.insert key
        ⟨state.role, some update.eventTime, some update.asKnownAt, some update.health⟩ }
  .update fun tracker => { tracker with updateSequence := nextSequence }

/-- The least watermark of trusted states, `none` as soon as one has no watermark, no health or a
    health that is not allowed. -/
def trustedMinimum (allowedHealth : List SourceHealthState) :
    Option UnixNanos → List PartitionState → Option (Option UnixNanos)
  | minimum, [] => some minimum
  | minimum, state :: states =>
    match state.watermark, state.health with
    | some watermark, some health =>
      if allowedHealth.contains health then
        trustedMinimum allowedHealth (some (minimum.elim watermark (min · watermark))) states
      else none
    | _, _ => none

def effectiveFrontier (tracker : WatermarkTracker) : Option UnixNanos := do
  let lateness ← toI64 tracker.allowedLateness.toNat
  let minimum ← ← trustedMinimum tracker.allowedHealth none tracker.requiredStates
  let frontier ← toI64 (minimum.toInt - lateness.toInt)
  return max frontier 0

def leastWatermark : Option UnixNanos → List PartitionState → Option (Option UnixNanos)
  | minimum, [] => some minimum
  | minimum, state :: states => do
    let watermark ← state.watermark
    leastWatermark (some (minimum.elim watermark (min · watermark))) states

def minimumRequiredWatermark (tracker : WatermarkTracker) : Option UnixNanos :=
  (leastWatermark none tracker.requiredStates).join

def latestAsKnownAt (tracker : WatermarkTracker) : Option UnixNanos :=
  (tracker.partitions.toList.filterMap fun entry => entry.2.asKnownAt).foldl
    (fun latest time => some (latest.elim time (max · time))) none

/-- The loop over the required states; it returns at the first health that is not allowed. -/
def evaluateStates (allowedHealth : List SourceHealthState) (threshold : Int64) :
    Bool → List PartitionState → Finalization
  | complete, [] => if complete then .final else .provisional
  | complete, state :: states =>
    if state.health.any fun health => !allowedHealth.contains health then .invalid
    else
      match state.watermark, state.health with
      | some watermark, some _ =>
        evaluateStates allowedHealth threshold (complete && decide (threshold ≤ watermark)) states
      | _, _ => evaluateStates allowedHealth threshold false states

def evaluate (tracker : WatermarkTracker) (window : TimeWindow) : Finalization :=
  match toI64 tracker.allowedLateness.toNat with
  | none => .invalid
  | some lateness =>
    match toI64 (window.end_.toInt + lateness.toInt) with
    | none => .invalid
    | some threshold => evaluateStates tracker.allowedHealth threshold true tracker.requiredStates

def decision (tracker : WatermarkTracker) (window : TimeWindow) : FinalizationDecision where
  window := window
  state := tracker.evaluate window
  watermark := tracker.minimumRequiredWatermark
  asKnownAt := tracker.latestAsKnownAt.elim window.end_ (max · window.end_)
  entityDigest := tracker.entityDigest
  requiredSourceCount := tracker.requiredSourceCount
  requiredSourceDigest := tracker.requiredSourceDigest
  evaluationSequence := tracker.updateSequence
  policyId := tracker.policyId

def correction (source : WatermarkKey) (window : TimeWindow) (correctedEventTime : UnixNanos) :
    Method WatermarkTracker WatermarkError CorrectionDecision := do
  .lift <| reject (correctedEventTime < window.start ∨ window.end_ ≤ correctedEventTime)
    .invalidCorrectionTime
  let tracker ← .get
  let state ← .lift <| required tracker.partitions[source]? .unknownPartition
  .lift <| reject (state.health.isNone
    ∨ (¬ state.health.any fun health => tracker.allowedHealth.contains health)
    ∨ tracker.evaluate window ≠ .final) .invalidCorrectionState
  let evaluationSequence ← .lift <|
    required (toU64 (tracker.updateSequence.toNat + 1)) .arithmeticOverflow
  .update fun tracker => { tracker with updateSequence := evaluationSequence }
  return ⟨window, source, correctedEventTime, evaluationSequence, tracker.policyId⟩

end WatermarkTracker

end CryptoIntelligence.Features
