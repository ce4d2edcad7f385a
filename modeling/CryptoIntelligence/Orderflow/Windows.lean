/-
  The windows of the order-flow features (`feature-engine`, `features/orderflow.rs`): trades and
  tops of the book.

  A window sorts what it is given by event time and, at one time, by lineage, and then checks the
  values in their order.
-/
import CryptoIntelligence.Lib.Sorted
import CryptoIntelligence.OrderBook.Book

namespace CryptoIntelligence.Orderflow

open Lib Decimal Domain
open Event (Hash32)
open OrderBook

inductive FeatureComputationError where
  | invalidParameter
  | stale
  | insufficientHistory
  | capacityExceeded
  | mixedEntity
  | sourceHealthChanged
  | outsideWindow
  | futureKnowledge
  | duplicateLineage
  | nonMonotonicTime
  | sequenceGap
  | windowNotFinal
  deriving DecidableEq, Repr

def maxFlowTrades : Nat := 100000

def maxRuleIdBytes : Nat := 128

def validBoundedIdentity (value : String) : Bool :=
  value ≠ "" && decide ((utf8 value).length ≤ maxRuleIdBytes) && trim value.toList == value.toList
    && isAscii value.toList && !value.toList.any isControl

def noLineage : Hash32 := .replicate 32 0

/-! ## Observations -/

inductive AggressorSide where
  | buy
  | sell
  deriving DecidableEq, Repr

@[ext]
structure AggressorAuthority where
  ruleId : String
  ruleVersion : UInt32
  inferred : Bool
  version_ne_zero : ruleVersion ≠ 0
  rule_valid : validBoundedIdentity ruleId = true

instance : DecidableEq AggressorAuthority := fun a b =>
  decidable_of_iff (a.ruleId = b.ruleId ∧ a.ruleVersion = b.ruleVersion ∧ a.inferred = b.inferred)
    AggressorAuthority.ext_iff.symm

/-- A trade with the side that the authority gives it. -/
structure FlowTradeObservation where
  instrument : InstrumentId
  eventTime : UnixNanos
  asKnownAt : UnixNanos
  lineage : Hash32
  price : Price
  quantity : Quantity
  side : AggressorSide
  authority : AggressorAuthority
  authenticated : Bool
  source : Option SourceId
  qualityScorePpm : UInt32
  known : eventTime ≤ asKnownAt
  lineage_ne : lineage ≠ noLineage
  quantity_ne_zero : quantity.value.isZero = false

structure BookEvidencePolicy where
  priceTick : Price
  qualityPolicyId : String
  qualityPolicyVersion : UInt32
  orderingAuthorityId : String
  orderingAuthorityVersion : UInt32
  referencePricePolicyId : String
  referencePricePolicyVersion : UInt32
  deriving DecidableEq

/-- The best levels of a book. -/
structure TopOfBookObservation where
  instrument : InstrumentId
  session : BookSession
  evidencePolicy : BookEvidencePolicy
  lastSourceSequence : UInt64
  eventTime : UnixNanos
  asKnownAt : UnixNanos
  lineage : Hash32
  bidPrice : Price
  bidQuantity : Quantity
  askPrice : Price
  askQuantity : Quantity
  authenticated : Bool
  known : eventTime ≤ asKnownAt
  lineage_ne : lineage ≠ noLineage

/-! ## Windows -/

def validateFinalizedWindow (capacity : Nat) (start stop evaluationTime : UnixNanos) :
    Except FeatureComputationError Unit := do
  reject (capacity = 0 ∨ capacity > maxFlowTrades ∨ start ≥ stop) .invalidParameter
  reject (evaluationTime < stop) .windowNotFinal

/-- Bytes in their order. -/
def lineageKey (lineage : Hash32) : List Nat := lineage.toList.map UInt8.toNat

/-- The key of trades and tops. -/
def flowKey (eventTime : UnixNanos) (lineage : Hash32) : Int ×ₗ List Nat :=
  toLex (eventTime.toInt, lineageKey lineage)

structure TradeFlowWindow where
  observations : List FlowTradeObservation
  instrument : InstrumentId
  authorities : Finset AggressorAuthority
  start : UnixNanos
  stop : UnixNanos
  evaluationTime : UnixNanos

namespace TradeFlowWindow

def check (first : FlowTradeObservation) (start stop evaluationTime : UnixNanos)
    (seen : List FlowTradeObservation) (observation : FlowTradeObservation) :
    Except FeatureComputationError Unit := do
  reject (observation.instrument ≠ first.instrument) .mixedEntity
  reject (observation.eventTime < start ∨ observation.eventTime ≥ stop) .outsideWindow
  reject (observation.asKnownAt > evaluationTime) .futureKnowledge
  reject (∃ earlier ∈ seen, earlier.lineage = observation.lineage) .duplicateLineage
  reject (∃ previous ∈ seen.head?, observation.asKnownAt < previous.asKnownAt) .nonMonotonicTime

def sort (observations : List FlowTradeObservation) : List FlowTradeObservation :=
  sortByKey (fun observation => flowKey observation.eventTime observation.lineage) observations

def new (observations : List FlowTradeObservation) (capacity : Nat)
    (start stop evaluationTime : UnixNanos) : Except FeatureComputationError TradeFlowWindow := do
  validateFinalizedWindow capacity start stop evaluationTime
  reject (observations = []) .insufficientHistory
  reject (observations.length > capacity) .capacityExceeded
  let first ← required (sort observations).head? .insufficientHistory
  checkInOrder (check first start stop evaluationTime) [] (sort observations)
  return ⟨sort observations, first.instrument,
    ((sort observations).map (·.authority)).toFinset, start, stop, evaluationTime⟩

end TradeFlowWindow

structure TopOfBookWindow where
  observations : List TopOfBookObservation
  evaluationTime : UnixNanos

namespace TopOfBookWindow

def check (first : TopOfBookObservation) (evaluationTime : UnixNanos)
    (seen : List TopOfBookObservation) (observation : TopOfBookObservation) :
    Except FeatureComputationError Unit := do
  reject (observation.instrument ≠ first.instrument) .mixedEntity
  reject (observation.session ≠ first.session) .sourceHealthChanged
  reject (observation.evidencePolicy ≠ first.evidencePolicy) .sourceHealthChanged
  reject (observation.asKnownAt > evaluationTime) .futureKnowledge
  reject (∃ earlier ∈ seen, earlier.lineage = observation.lineage) .duplicateLineage
  reject (∃ previous ∈ seen.head?, observation.lastSourceSequence ≤ previous.lastSourceSequence
    ∨ observation.asKnownAt < previous.asKnownAt) .nonMonotonicTime

def sort (observations : List TopOfBookObservation) : List TopOfBookObservation :=
  sortByKey (fun observation => flowKey observation.eventTime observation.lineage) observations

def new (observations : List TopOfBookObservation) (capacity : Nat) (evaluationTime : UnixNanos) :
    Except FeatureComputationError TopOfBookWindow := do
  reject (capacity = 0 ∨ capacity > maxFlowTrades) .invalidParameter
  reject (observations.length < 2) .insufficientHistory
  reject (observations.length > capacity) .capacityExceeded
  let first ← required (sort observations).head? .insufficientHistory
  checkInOrder (check first evaluationTime) [] (sort observations)
  return ⟨sort observations, evaluationTime⟩

end TopOfBookWindow

end CryptoIntelligence.Orderflow
