/-
  The order-book engine (`orderbook/src/lib.rs`): sessions, snapshot alignment with replay of
  buffered deltas, live deltas, checksums, order-level traffic and the published snapshot. A
  method that takes `&mut self` returns the engine it leaves behind with its result; what an
  error exit has already changed stays changed.
-/
import CryptoIntelligence.Lib.Words
import CryptoIntelligence.Event.Canonical
import CryptoIntelligence.OrderBook.Checksum

namespace CryptoIntelligence.OrderBook

open Lib Decimal Domain Event

structure BufferedDelta where
  delta : BookDelta
  session : BookSession
  nowMonotonicNs : UInt64
  checksum : Option KrakenV2Checksum
  previousFinalSequence : Option UInt64

/-- Mutable state owned by exactly one instrument shard writer. -/
structure OrderBookEngine where
  config : BookConfig
  state : BookState
  session : Option BookSession
  strategy : Option SnapshotStrategy
  book : Option L2Book
  l3 : Option L3Book
  buffered : List BufferedDelta
  bufferedLevelUpdates : Nat
  updatedMonotonicNs : UInt64
  lastObservedMonotonicNs : UInt64
  checksumStatus : ChecksumStatus
  l3ChecksumStatus : ChecksumStatus
  resyncCount : HourlyCounter
  missingSequenceCount : HourlyCounter
  checksumFailureCount : HourlyCounter
  crossedStateCount : HourlyCounter
  sourceLatency : LatencyWindow
  resyncInProgress : Bool

/-- The engine after a call, with what the call returned. -/
abbrev Attempt (α : Type) := OrderBookEngine × Except BookError α

def deltaLevelUpdates (delta : BookDelta) : Nat := delta.bids.length + delta.asks.length

/-- The checksum status before the first mutation under a policy. -/
def initialChecksumStatus : ChecksumPolicy → ChecksumStatus
  | .disabled => .notSupported
  | .required => .pending

/-- The order-level checksum status before the first order-level mutation. -/
def initialL3ChecksumStatus (config : BookConfig) : ChecksumStatus :=
  if config.maxL3Orders.isSome then .pending else .notSupported

namespace OrderBookEngine

/-! ## Construction and sessions -/

/-- The engine `new` returns for a valid configuration. -/
def fresh (config : BookConfig) : OrderBookEngine :=
  { config, state := .disconnected, session := none, strategy := none, book := none
    l3 := none, buffered := [], bufferedLevelUpdates := 0, updatedMonotonicNs := 0
    lastObservedMonotonicNs := 0
    checksumStatus := initialChecksumStatus config.checksumPolicy
    l3ChecksumStatus := initialL3ChecksumStatus config
    resyncCount := .empty, missingSequenceCount := .empty, checksumFailureCount := .empty
    crossedStateCount := .empty, sourceLatency := .empty, resyncInProgress := false }

def new (config : BookConfig) : Except BookError OrderBookEngine :=
  if config.validate then .ok (fresh config) else .error .invalidConfig

theorem new_of_validate {config : BookConfig} (h : config.validate = true) :
    new config = .ok (fresh config) := by
  rw [new, if_pos h]

def validateNewSession (e : OrderBookEngine) (session : BookSession) : Except BookError Unit := do
  reject (!session.isValid) .invalidEpoch
  reject (session.instrumentGeneration ≠ e.config.instrument.generation) .staleInstrumentGeneration
  reject (∃ previous ∈ e.session, !session.isStrictlyAfter previous) .invalidEpoch

def validateCurrentSession (e : OrderBookEngine) (session : BookSession) :
    Except BookError Unit := do
  reject (!session.isValid) .invalidEpoch
  reject (session.instrumentGeneration ≠ e.config.instrument.generation) .staleInstrumentGeneration
  reject (e.session ≠ some session) .invalidEpoch

def observeUpdateTime (e : OrderBookEngine) (nowMonotonicNs : UInt64) :
    Except BookError OrderBookEngine := do
  reject (nowMonotonicNs < e.lastObservedMonotonicNs) .monotonicTimeRegression
  return { e with lastObservedMonotonicNs := nowMonotonicNs }

/-- The two checks that open every update: the session is current and time does not regress. -/
def beginUpdate (e : OrderBookEngine) (session : BookSession) (nowMonotonicNs : UInt64) :
    Except BookError OrderBookEngine := do
  e.validateCurrentSession session
  e.observeUpdateTime nowMonotonicNs

/-- Drop books, buffer and update time and return both checksum states to their start. -/
def clearBook (e : OrderBookEngine) : OrderBookEngine :=
  { e with
    book := none, l3 := none, buffered := [], bufferedLevelUpdates := 0, updatedMonotonicNs := 0
    checksumStatus := initialChecksumStatus e.config.checksumPolicy
    l3ChecksumStatus := initialL3ChecksumStatus e.config }

def startSession (e : OrderBookEngine) (session : BookSession) (strategy : SnapshotStrategy) :
    Attempt Unit :=
  match e.validateNewSession session with
  | .error err => (e, .error err)
  | .ok () =>
    ({ e.clearBook with
        session := some session
        strategy := some strategy
        resyncInProgress := e.session.isSome
        state := match strategy with
          | .externalBuffered => .buffering
          | .streamSnapshot => .awaitingSnapshot }, .ok ())

def disconnect (e : OrderBookEngine) : OrderBookEngine :=
  { e.clearBook with state := .disconnected, strategy := none, resyncInProgress := false }

def beginResync (e : OrderBookEngine) : Attempt Unit :=
  if e.strategy ≠ some .externalBuffered ∨ e.state ≠ .untrusted then
    (e, .error .invalidTransition)
  else ({ e.clearBook with resyncInProgress := true, state := .buffering }, .ok ())

/-! ## Building blocks of the updates -/

def invalidate (e : OrderBookEngine) : OrderBookEngine :=
  { e with state := .untrusted, buffered := [], bufferedLevelUpdates := 0 }

def recordLatency (e : OrderBookEngine) (nowMonotonicNs : UInt64)
    (sourceLatencyMs : Option UInt64) : OrderBookEngine :=
  match sourceLatencyMs with
  | some ms => { e with sourceLatency := e.sourceLatency.record nowMonotonicNs ms }
  | none => e

/-- The sequence rule of a policy; `none` when the next sequence overflows. -/
def sequenceRule (policy : SequencePolicy) (delta : BookDelta) (current : UInt64)
    (firstReplayed : Bool) (previousFinalSequence : Option UInt64) : Option Bool :=
  match policy, firstReplayed with
  | .previousFinal, false => some (previousFinalSequence == some current)
  | .exactNext, _ =>
    (checkedNext current).map fun expected => delta.firstSequence == expected
  | .rangeContainsNext, _ | .previousFinal, true =>
    (checkedNext current).map fun expected =>
      decide (delta.firstSequence ≤ expected) && decide (expected ≤ delta.lastSequence)

def sequenceApplies (e : OrderBookEngine) (delta : BookDelta) (current : UInt64)
    (firstReplayed : Bool) (previousFinalSequence : Option UInt64) : Attempt Bool :=
  match sequenceRule e.config.sequencePolicy delta current firstReplayed previousFinalSequence with
  | some applies => (e, .ok applies)
  | none => (e.invalidate, .error .sequenceOverflow)

def installTrusted (e : OrderBookEngine) (book : L2Book) (nowMonotonicNs : UInt64) :
    OrderBookEngine :=
  { e with
    crossedStateCount := if book.classification = .crossed then
      e.crossedStateCount.record nowMonotonicNs else e.crossedStateCount
    book := some book
    l3 := none
    l3ChecksumStatus := initialL3ChecksumStatus e.config
    updatedMonotonicNs := nowMonotonicNs
    resyncInProgress := false
    state := .synchronized }

/-- The bookkeeping of a checksum that does not match. -/
def failChecksum (e : OrderBookEngine) (nowMonotonicNs : UInt64) : OrderBookEngine :=
  { e with
    checksumStatus := .mismatch
    checksumFailureCount := e.checksumFailureCount.record nowMonotonicNs }.invalidate

def validateChecksum (e : OrderBookEngine) (candidate : L2Book)
    (checksum : Option KrakenV2Checksum) (nowMonotonicNs : UInt64) : Attempt Bool :=
  match checksum with
  | none =>
    if e.config.checksumPolicy = .required then (e.invalidate, .error .checksumRequired)
    else ({ e with checksumStatus := .notSupported }, .ok true)
  | some checksum =>
    match checksum.verifyBook candidate with
    | .ok true => ({ e with checksumStatus := .valid }, .ok true)
    | .ok false => (e.failChecksum nowMonotonicNs, .ok false)
    | .error err => (e.failChecksum nowMonotonicNs, .error err)

/-! ## Snapshots -/

/-- How a replay of the buffer ends. -/
inductive ReplayOutcome where
  | stopped (result : Except BookError ApplyResult)
  | aligned (candidate : L2Book) (latestUpdate : UInt64)

/-- The replay loop of `apply_snapshot_candidate`, one buffered delta at a time. -/
def replay (session : BookSession) :
    List BufferedDelta → OrderBookEngine → L2Book → UInt64 → Bool → OrderBookEngine × ReplayOutcome
  | [], e, candidate, latestUpdate, _ => (e, .aligned candidate latestUpdate)
  | b :: rest, e, candidate, latestUpdate, firstReplayed =>
    let e := { e with
      buffered := rest
      bufferedLevelUpdates := e.bufferedLevelUpdates - deltaLevelUpdates b.delta }
    if b.session ≠ session then (e.invalidate, .stopped (.error .invalidEpoch))
    else if b.delta.lastSequence ≤ candidate.sequence then
      replay session rest e candidate latestUpdate firstReplayed
    else
      match e.sequenceApplies b.delta candidate.sequence firstReplayed b.previousFinalSequence with
      | (e, .error err) => (e, .stopped (.error err))
      | (e, .ok false) =>
        ({ e with missingSequenceCount :=
            e.missingSequenceCount.record b.nowMonotonicNs }.invalidate,
            .stopped (.ok .gapDetected))
      | (e, .ok true) =>
        match candidate.applyDelta b.delta e.config with
        | .error err => (e.invalidate, .stopped (.error err))
        | .ok candidate =>
          match e.validateChecksum candidate b.checksum b.nowMonotonicNs with
          | (e, .error err) => (e, .stopped (.error err))
          | (e, .ok false) => (e, .stopped (.ok .checksumMismatch))
          | (e, .ok true) =>
            replay session rest e candidate (max latestUpdate b.nowMonotonicNs) false

def recordResync (e : OrderBookEngine) (recovering : Bool) (nowMonotonicNs : UInt64) :
    OrderBookEngine :=
  if recovering then { e with resyncCount := e.resyncCount.record nowMonotonicNs } else e

/-- A verified snapshot candidate becomes the book, after replay when it came from outside the
    stream. -/
def alignSnapshot (e : OrderBookEngine) (strategy : SnapshotStrategy) (recovering : Bool)
    (candidate : L2Book) (session : BookSession) (nowMonotonicNs : UInt64) : Attempt ApplyResult :=
  match strategy with
  | .streamSnapshot =>
    let e := { e with buffered := [], bufferedLevelUpdates := 0 }
    ((e.installTrusted candidate nowMonotonicNs).recordResync recovering nowMonotonicNs,
      .ok .applied)
  | .externalBuffered =>
    match replay session e.buffered
        { e with state := .replaying } candidate nowMonotonicNs true with
    | (e, .stopped result) => (e, result)
    | (e, .aligned candidate latestUpdate) =>
      ((e.installTrusted candidate latestUpdate).recordResync recovering latestUpdate,
        .ok .applied)

/-- `apply_snapshot_candidate` after session, time and latency are recorded. -/
def acceptSnapshot (e : OrderBookEngine) (snapshot : BookSnapshot) (session : BookSession)
    (nowMonotonicNs : UInt64) (checksum : Option KrakenV2Checksum) : Attempt ApplyResult :=
  if e.state = .disconnected then (e, .error .untrusted)
  else match e.strategy with
    | none => (e, .error .invalidTransition)
    | some strategy =>
      if strategy = .externalBuffered ∧ (e.state = .untrusted ∨ e.state = .synchronized) then
        (e, .error .invalidTransition)
      else
        let recovering := decide (e.state = .untrusted) || e.resyncInProgress
        match L2Book.fromSnapshot snapshot e.config with
        | .error err => (e.invalidate, .error err)
        | .ok candidate =>
          match e.validateChecksum candidate checksum nowMonotonicNs with
          | (e, .error err) => (e, .error err)
          | (e, .ok false) => (e, .ok .checksumMismatch)
          | (e, .ok true) => e.alignSnapshot strategy recovering candidate session nowMonotonicNs

def applySnapshotCandidate (e : OrderBookEngine) (snapshot : BookSnapshot) (session : BookSession)
    (nowMonotonicNs : UInt64) (checksum : Option KrakenV2Checksum)
    (sourceLatencyMs : Option UInt64) : Attempt ApplyResult :=
  match e.beginUpdate session nowMonotonicNs with
  | .error err => (e, .error err)
  | .ok e =>
    (e.recordLatency nowMonotonicNs sourceLatencyMs).acceptSnapshot snapshot session
      nowMonotonicNs checksum

/-! ## Deltas -/

/-- The checks of `apply_delta_candidate` on the delta itself. -/
def checkDelta (e : OrderBookEngine) (delta : BookDelta) (checksum : Option KrakenV2Checksum) :
    Except BookError Unit := do
  reject (e.config.checksumPolicy = .required ∧ checksum.isNone) .checksumRequired
  reject (delta.firstSequence = 0 ∨ delta.lastSequence = 0
    ∨ delta.firstSequence > delta.lastSequence) .invalidSequence
  L2Book.validateDelta delta e.config

def bufferDelta (e : OrderBookEngine) (buffered : BufferedDelta) : Attempt ApplyResult :=
  let bufferedLevelUpdates := e.bufferedLevelUpdates + deltaLevelUpdates buffered.delta
  if e.buffered.length ≥ e.config.maxBufferedDeltas
      ∨ bufferedLevelUpdates > e.config.maxBufferedLevelUpdates then
    (e.invalidate, .error .bufferCapacity)
  else ({ e with buffered := e.buffered ++ [buffered], bufferedLevelUpdates },
    .ok .snapshotRequired)

/-- A delta on the trusted book. -/
def applyLive (e : OrderBookEngine) (delta : BookDelta) (nowMonotonicNs : UInt64)
    (checksum : Option KrakenV2Checksum) (previousFinalSequence : Option UInt64) :
    Attempt ApplyResult :=
  match e.book with
  | none => (e, .error .untrusted)
  | some book =>
    if delta.lastSequence ≤ book.sequence then (e, .ok .duplicate)
    else
      match e.sequenceApplies delta book.sequence false previousFinalSequence with
      | (e, .error err) => (e, .error err)
      | (e, .ok false) =>
        ({ e with missingSequenceCount :=
            e.missingSequenceCount.record nowMonotonicNs }.invalidate, .ok .gapDetected)
      | (e, .ok true) =>
        -- the book is taken out and put back only on the exits that say so
        let e := { e with book := none }
        match book.applyDelta delta e.config with
        | .error err => (e.invalidate, .error err)
        | .ok candidate =>
          match e.validateChecksum candidate checksum nowMonotonicNs with
          | (e, .error err) => (e, .error err)
          | (e, .ok false) => ({ e with book := some candidate }, .ok .checksumMismatch)
          | (e, .ok true) => (e.installTrusted candidate nowMonotonicNs, .ok .applied)

/-- `apply_delta_candidate` after session, time and latency are recorded. -/
def acceptDelta (e : OrderBookEngine) (delta : BookDelta) (session : BookSession)
    (nowMonotonicNs : UInt64) (checksum : Option KrakenV2Checksum)
    (previousFinalSequence : Option UInt64) : Attempt ApplyResult :=
  match e.checkDelta delta checksum with
  | .error err => (e.invalidate, .error err)
  | .ok () =>
    match e.state with
    | .buffering | .awaitingSnapshot =>
      e.bufferDelta { delta, session, nowMonotonicNs, checksum, previousFinalSequence }
    | .synchronized => e.applyLive delta nowMonotonicNs checksum previousFinalSequence
    | .disconnected | .replaying | .untrusted => (e, .ok .snapshotRequired)

def applyDeltaCandidate (e : OrderBookEngine) (delta : BookDelta) (session : BookSession)
    (nowMonotonicNs : UInt64) (checksum : Option KrakenV2Checksum)
    (previousFinalSequence sourceLatencyMs : Option UInt64) : Attempt ApplyResult :=
  match e.beginUpdate session nowMonotonicNs with
  | .error err => (e, .error err)
  | .ok e =>
    (e.recordLatency nowMonotonicNs sourceLatencyMs).acceptDelta delta session nowMonotonicNs
      checksum previousFinalSequence

/-! ## Public update methods -/

def applySnapshot (e : OrderBookEngine) (snapshot : BookSnapshot) (session : BookSession)
    (nowMonotonicNs : UInt64) : Attempt ApplyResult :=
  e.applySnapshotCandidate snapshot session nowMonotonicNs none none

def applySnapshotChecked (e : OrderBookEngine) (snapshot : BookSnapshot) (session : BookSession)
    (nowMonotonicNs sourceLatencyMs : UInt64) (checksum : KrakenV2Checksum) : Attempt ApplyResult :=
  e.applySnapshotCandidate snapshot session nowMonotonicNs (some checksum) (some sourceLatencyMs)

def applyDelta (e : OrderBookEngine) (delta : BookDelta) (session : BookSession)
    (nowMonotonicNs : UInt64) : Attempt ApplyResult :=
  e.applyDeltaCandidate delta session nowMonotonicNs none none none

def applyDeltaWithPrevious (e : OrderBookEngine) (delta : BookDelta) (session : BookSession)
    (nowMonotonicNs previousFinalSequence : UInt64) : Attempt ApplyResult :=
  e.applyDeltaCandidate delta session nowMonotonicNs none (some previousFinalSequence) none

def applyDeltaChecked (e : OrderBookEngine) (delta : BookDelta) (session : BookSession)
    (nowMonotonicNs sourceLatencyMs : UInt64) (checksum : KrakenV2Checksum) : Attempt ApplyResult :=
  e.applyDeltaCandidate delta session nowMonotonicNs (some checksum) none (some sourceLatencyMs)

def applyDeltaCheckedWithPrevious (e : OrderBookEngine) (delta : BookDelta)
    (session : BookSession) (nowMonotonicNs sourceLatencyMs : UInt64)
    (checksum : KrakenV2Checksum) (previousFinalSequence : UInt64) : Attempt ApplyResult :=
  e.applyDeltaCandidate delta session nowMonotonicNs (some checksum) (some previousFinalSequence)
    (some sourceLatencyMs)

/-- `u64::try_from(receive.checked_sub(exchange))` in milliseconds. -/
def eventLatencyMs (receive exchange : UnixNanos) : Option UInt64 :=
  let difference := receive.toInt - exchange.toInt
  if 0 ≤ difference ∧ difference < 2 ^ 63 then
    some (UInt64.ofNat (difference.toNat / 1000000)) else none

/-- Applies a validated normalized event when no source-exact checksum is attached. -/
def applyEvent (blake3 : Bytes → Hash32) (e : OrderBookEngine) (event : EventEnvelope) :
    Attempt ApplyResult :=
  match event.verify blake3 with
  | .error _ => (e, .error .invalidEvent)
  | .ok () =>
    let m := event.metadata
    if m.sourceChecksum.isSome then (e, .error .checksumSourceUnavailable)
    else match m.instrumentId with
      | none => (e, .error .invalidEvent)
      | some instrument =>
        if instrument ≠ e.config.instrument then (e, .error .wrongInstrument)
        else
          let session : BookSession :=
            ⟨m.connectionEpoch, m.subscriptionEpoch, instrument.generation⟩
          let latency := m.exchangeTimestamp.bind (eventLatencyMs m.receiveWallTimestamp)
          match event.payload with
          | .bookSnapshot snapshot =>
            e.applySnapshotCandidate snapshot session m.receiveMonotonicNs none latency
          | .bookDelta delta =>
            e.applyDeltaCandidate delta session m.receiveMonotonicNs none
              m.previousSequenceNumber latency
          | _ => (e, .error .invalidEvent)

/-! ## Order-level traffic -/

def failL3Checksum (e : OrderBookEngine) (nowMonotonicNs : UInt64) : OrderBookEngine :=
  { e with
    l3 := none
    l3ChecksumStatus := .mismatch
    checksumFailureCount := e.checksumFailureCount.record nowMonotonicNs }

/-- A verified order-level candidate becomes the order book. -/
def installL3 (e : OrderBookEngine) (candidate : L3Book) (checksum : KrakenV2L3Checksum)
    (nowMonotonicNs : UInt64) : Attempt ApplyResult :=
  match checksum.verifyBook candidate with
  | .ok true =>
    ({ e with
        l3ChecksumStatus := .valid, l3 := some candidate, updatedMonotonicNs := nowMonotonicNs },
      .ok .applied)
  | .ok false => (e.failL3Checksum nowMonotonicNs, .ok .checksumMismatch)
  | .error err => (e.failL3Checksum nowMonotonicNs, .error err)

/-- `apply_l3_snapshot` and `apply_l3_events`: order-level data without a checksum is refused. -/
def refuseUncheckedL3 (e : OrderBookEngine) (session : BookSession) (nowMonotonicNs : UInt64) :
    Attempt ApplyResult :=
  match e.beginUpdate session nowMonotonicNs with
  | .error err => (e, .error err)
  | .ok e =>
    if e.state ≠ .synchronized then (e, .error .untrusted)
    else if e.config.maxL3Orders.isNone then (e, .error .l3Disabled)
    else ({ e with l3 := none, l3ChecksumStatus := .pending }, .error .checksumRequired)

def applyL3Snapshot (e : OrderBookEngine) (_orders : List L3Order) (session : BookSession)
    (nowMonotonicNs : UInt64) : Attempt ApplyResult :=
  e.refuseUncheckedL3 session nowMonotonicNs

def applyL3Events (e : OrderBookEngine) (_events : List L3Event) (session : BookSession)
    (nowMonotonicNs : UInt64) : Attempt ApplyResult :=
  e.refuseUncheckedL3 session nowMonotonicNs

def applyL3SnapshotChecked (e : OrderBookEngine) (orders : List L3Order) (session : BookSession)
    (nowMonotonicNs sourceLatencyMs : UInt64) (checksum : KrakenV2L3Checksum) :
    Attempt ApplyResult :=
  match e.beginUpdate session nowMonotonicNs with
  | .error err => (e, .error err)
  | .ok e =>
    let e := e.recordLatency nowMonotonicNs (some sourceLatencyMs)
    if e.state ≠ .synchronized then (e, .error .untrusted)
    else match L3Book.fromSnapshot orders e.config with
      | .error err => (e.failL3Checksum nowMonotonicNs, .error err)
      | .ok candidate => e.installL3 candidate checksum nowMonotonicNs

def applyL3EventsChecked (e : OrderBookEngine) (events : List L3Event) (session : BookSession)
    (nowMonotonicNs sourceLatencyMs : UInt64) (checksum : KrakenV2L3Checksum) :
    Attempt ApplyResult :=
  match e.beginUpdate session nowMonotonicNs with
  | .error err => (e, .error err)
  | .ok e =>
    let e := e.recordLatency nowMonotonicNs (some sourceLatencyMs)
    if e.state ≠ .synchronized then (e, .error .untrusted)
    else match e.l3 with
      | none => (e, .error .l3SnapshotRequired)
      | some book =>
        -- the order book is taken out; every failure leaves it out
        let e := { e with l3 := none }
        match book.apply events e.config with
        | .error err => (e.failL3Checksum nowMonotonicNs, .error err)
        | .ok book => e.installL3 book checksum nowMonotonicNs

/-! ## The published snapshot -/

def combinedChecksumStatus (e : OrderBookEngine) : ChecksumStatus :=
  match e.checksumStatus, e.l3ChecksumStatus with
  | .mismatch, _ | _, .mismatch => .mismatch
  | .pending, _ | _, .pending => .pending
  | .valid, _ | _, .valid => .valid
  | .notSupported, .notSupported => .notSupported

def snapshotAt (e : OrderBookEngine) (nowMonotonicNs : UInt64) :
    Except BookError BookSnapshotView := do
  reject (e.state ≠ .synchronized) .untrusted
  reject (nowMonotonicNs < e.updatedMonotonicNs) .monotonicTimeRegression
  let book ← required e.book .untrusted
  let session ← required e.session .untrusted
  let quality := BookQuality.score e.state book.sequence
    (saturatingSub nowMonotonicNs e.updatedMonotonicNs / 1000000) e.combinedChecksumStatus
    (e.resyncCount.count nowMonotonicNs) (e.missingSequenceCount.count nowMonotonicNs)
    (e.checksumFailureCount.count nowMonotonicNs) (e.crossedStateCount.count nowMonotonicNs)
    (e.sourceLatency.percentiles nowMonotonicNs) book.levels
  return BookSnapshotView.new e.config book session e.updatedMonotonicNs quality
    (match e.l3 with
      | some l3 => l3.sortedOrders
      | none => [])

def snapshot (e : OrderBookEngine) : Except BookError BookSnapshotView :=
  e.snapshotAt e.updatedMonotonicNs

end OrderBookEngine

/-- Binds an applied event to the trusted book it left behind. -/
structure BookEventApplyReceipt where
  eventId : EventId
  snapshot : BookSnapshotView

inductive BookEventApplyOutcome where
  | applied (receipt : BookEventApplyReceipt)
  | appliedWithoutReceipt
  | notApplied (result : ApplyResult)

def BookEventApplyOutcome.result : BookEventApplyOutcome → ApplyResult
  | .applied _ | .appliedWithoutReceipt => .applied
  | .notApplied result => result

namespace OrderBookEngine

/-- Applies an event as `applyEvent` does and, only on `applied`, returns a receipt. -/
def applyEventWithReceipt (blake3 : Bytes → Hash32) (e : OrderBookEngine) (event : EventEnvelope) :
    Attempt BookEventApplyOutcome :=
  match e.applyEvent blake3 event with
  | (e, .error err) => (e, .error err)
  | (e, .ok result) =>
    if result ≠ .applied then (e, .ok (.notApplied result))
    else match e.snapshot with
      | .error err => (e, .error err)
      | .ok snapshot =>
        if event.metadata.sequenceNumber ≠ some snapshot.lastSourceSequence
            ∨ event.metadata.receiveMonotonicNs ≠ snapshot.updatedMonotonicNs then
          (e, .ok .appliedWithoutReceipt)
        else (e, .ok (.applied ⟨event.id, snapshot⟩))

end OrderBookEngine

end CryptoIntelligence.OrderBook
