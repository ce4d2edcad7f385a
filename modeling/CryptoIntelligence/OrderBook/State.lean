/-
  Configuration, lifecycle enumerations, sessions and quality accounting of the order-book engine
  (`orderbook/src/state.rs`). `usize` values are naturals, `u64` counts are naturals that saturate
  at `u64::MAX`, sequence numbers and times are `UInt64`.
-/
import CryptoIntelligence.Event.Payload

namespace CryptoIntelligence.OrderBook

open Decimal Domain

def maxBookLevelsPerSide : Nat := 100000

def maxBufferedDeltas : Nat := 100000

def maxBufferedLevelUpdates : Nat := 1000000

def maxL3Orders : Nat := 1000000

def qualityWindowNs : UInt64 := 3600000000000

def qualityBuckets : Nat := 3601

def maxLatencySamples : Nat := 4096

/-- Synchronization lifecycle for one single-writer instrument shard. -/
inductive BookState where
  | disconnected
  | buffering
  | awaitingSnapshot
  | replaying
  | synchronized
  | untrusted
  deriving DecidableEq, Repr

/-- Observable outcome of a snapshot or delta application. -/
inductive ApplyResult where
  | applied
  | duplicate
  | gapDetected
  | checksumMismatch
  | snapshotRequired
  deriving DecidableEq, Repr

/-- Explicit top-of-book market classification. -/
inductive BookClassification where
  | normal
  | locked
  | crossed
  | oneSided
  deriving DecidableEq, Repr

/-- Sequence semantics selected by a connector. -/
inductive SequencePolicy where
  | exactNext
  | rangeContainsNext
  | previousFinal
  deriving DecidableEq, Repr

inductive SnapshotStrategy where
  | externalBuffered
  | streamSnapshot
  deriving DecidableEq, Repr

inductive ChecksumPolicy where
  | disabled
  | required
  deriving DecidableEq, Repr

inductive ChecksumStatus where
  | notSupported
  | pending
  | valid
  | mismatch
  deriving DecidableEq, Repr

inductive BookError where
  | invalidConfig
  | untrusted
  | invalidEpoch
  | staleInstrumentGeneration
  | wrongInstrument
  | invalidSequence
  | sequenceOverflow
  | bufferCapacity
  | capacity
  | misalignedLevel
  | ambiguousDelta
  | invalidBook
  | checksumRequired
  | invalidChecksumInput
  | invalidEvent
  | checksumSourceUnavailable
  | monotonicTimeRegression
  | l3Disabled
  | l3SnapshotRequired
  | invalidL3Order
  | ambiguousL3Order
  | unknownL3Order
  | sequenceGap
  | checksumMismatch
  | snapshotRequired
  | invalidTransition
  deriving DecidableEq, Repr

/-! ## Sessions and configuration -/

structure BookSession where
  connectionEpoch : UInt64
  subscriptionEpoch : UInt64
  instrumentGeneration : UInt32
  deriving DecidableEq, Repr

namespace BookSession

def isValid (s : BookSession) : Bool :=
  s.connectionEpoch != 0 && s.subscriptionEpoch != 0 && s.instrumentGeneration != 0

def isStrictlyAfter (s previous : BookSession) : Bool :=
  decide (s.connectionEpoch > previous.connectionEpoch)
    || s.connectionEpoch == previous.connectionEpoch
      && decide (s.subscriptionEpoch > previous.subscriptionEpoch)

end BookSession

structure BookConfig where
  instrument : InstrumentId
  priceTick : Price
  quantityStep : Quantity
  maxLevelsPerSide : Nat
  maxBufferedDeltas : Nat
  maxBufferedLevelUpdates : Nat
  sequencePolicy : SequencePolicy
  checksumPolicy : ChecksumPolicy
  maxL3Orders : Option Nat
  maxL3LevelsPerSide : Option Nat
  deriving DecidableEq

/-- `(1..=limit).contains(&n)`. -/
def inLimit (limit n : Nat) : Bool := decide (1 ≤ n) && decide (n ≤ limit)

def BookConfig.validate (c : BookConfig) : Bool :=
  c.priceTick.value.isPositive && c.quantityStep.value.isPositive
    && inLimit maxBookLevelsPerSide c.maxLevelsPerSide
    && inLimit OrderBook.maxBufferedDeltas c.maxBufferedDeltas
    && inLimit OrderBook.maxBufferedLevelUpdates c.maxBufferedLevelUpdates
    && c.maxL3Orders.all (inLimit OrderBook.maxL3Orders)
    && c.maxL3Orders.isSome == c.maxL3LevelsPerSide.isSome
    && c.maxL3LevelsPerSide.all (inLimit maxBookLevelsPerSide)

/-! ## Quality accounting -/

/-- A `u64` result that saturates instead of overflowing. -/
def saturate (n : Nat) : Nat := min n (2 ^ 64 - 1)

structure SourceLatencyPercentiles where
  p50Ms : Option UInt64
  p95Ms : Option UInt64
  p99Ms : Option UInt64
  sampleCount : Nat
  deriving DecidableEq, Repr

structure BookQuality where
  healthState : BookState
  lastSourceSequence : UInt64
  lastUpdateAgeMs : UInt64
  checksumStatus : ChecksumStatus
  resyncCount1h : Nat
  missingSequenceCount1h : Nat
  checksumFailureCount1h : Nat
  crossedStateCount1h : Nat
  sourceLatencyPercentiles : SourceLatencyPercentiles
  trustedDepthLevels : Nat
  qualityScorePpm : Nat
  deriving DecidableEq, Repr

def BookQuality.score (healthState : BookState) (lastSourceSequence lastUpdateAgeMs : UInt64)
    (checksumStatus : ChecksumStatus) (resyncCount1h missingSequenceCount1h
    checksumFailureCount1h crossedStateCount1h : Nat)
    (sourceLatencyPercentiles : SourceLatencyPercentiles) (trustedDepthLevels : Nat) :
    BookQuality :=
  let penalty := min 1000000
    (saturate (saturate (saturate (missingSequenceCount1h * 250000)
      + saturate (checksumFailureCount1h * 300000)) + saturate (crossedStateCount1h * 50000)))
  { healthState, lastSourceSequence, lastUpdateAgeMs, checksumStatus, resyncCount1h
    missingSequenceCount1h, checksumFailureCount1h, crossedStateCount1h
    sourceLatencyPercentiles, trustedDepthLevels, qualityScorePpm := 1000000 - penalty }

structure CountBucket where
  epochSecond : UInt64
  count : Nat
  deriving DecidableEq, Repr

structure HourlyCounter where
  buckets : List CountBucket
  deriving DecidableEq, Repr

namespace HourlyCounter

def empty : HourlyCounter := ⟨[]⟩

def prune (c : HourlyCounter) (currentSecond : UInt64) : HourlyCounter :=
  ⟨c.buckets.dropWhile fun b =>
    decide (currentSecond ≥ b.epochSecond) && decide (currentSecond - b.epochSecond ≥ 3600)⟩

def record (c : HourlyCounter) (nowMonotonicNs : UInt64) : HourlyCounter :=
  let epochSecond := nowMonotonicNs / 1000000000
  let pruned := (c.prune epochSecond).buckets
  match pruned.getLast? with
  | some last =>
    if last.epochSecond = epochSecond then
      ⟨pruned.dropLast ++ [⟨last.epochSecond, saturate (last.count + 1)⟩]⟩
    else if pruned.length = qualityBuckets then ⟨pruned.tail ++ [⟨epochSecond, 1⟩]⟩
    else ⟨pruned ++ [⟨epochSecond, 1⟩]⟩
  | none => ⟨[⟨epochSecond, 1⟩]⟩

def count (c : HourlyCounter) (nowMonotonicNs : UInt64) : Nat :=
  let currentSecond := nowMonotonicNs / 1000000000
  (c.buckets.filter fun b =>
      decide (currentSecond ≥ b.epochSecond)
        && decide (currentSecond - b.epochSecond < 3600)).foldl
    (fun total b => saturate (total + b.count)) 0

end HourlyCounter

structure LatencyWindow where
  samples : List (UInt64 × UInt64)
  deriving DecidableEq, Repr

/-- `a.saturating_sub(b)`. -/
def saturatingSub (a b : UInt64) : UInt64 := if a < b then 0 else a - b

def percentile (values : List UInt64) (percentile : Nat) : Option UInt64 :=
  if values.isEmpty then none
  else values[(values.length * percentile + 99) / 100 - 1]?

namespace LatencyWindow

def empty : LatencyWindow := ⟨[]⟩

def prune (w : LatencyWindow) (nowMonotonicNs : UInt64) : LatencyWindow :=
  ⟨w.samples.dropWhile fun s => decide (s.1 < saturatingSub nowMonotonicNs qualityWindowNs)⟩

def record (w : LatencyWindow) (nowMonotonicNs latencyMs : UInt64) : LatencyWindow :=
  let pruned := (w.prune nowMonotonicNs).samples
  let kept := if pruned.length = maxLatencySamples then pruned.tail else pruned
  ⟨kept ++ [(nowMonotonicNs, latencyMs)]⟩

def percentiles (w : LatencyWindow) (nowMonotonicNs : UInt64) : SourceLatencyPercentiles :=
  let cutoff := saturatingSub nowMonotonicNs qualityWindowNs
  let values := (w.samples.filterMap fun s =>
    if s.1 ≥ cutoff then some s.2 else none).mergeSort fun a b => decide (a ≤ b)
  { p50Ms := percentile values 50, p95Ms := percentile values 95, p99Ms := percentile values 99
    sampleCount := values.length }

end LatencyWindow

end CryptoIntelligence.OrderBook
