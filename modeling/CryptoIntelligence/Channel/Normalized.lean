/-
  The bounded normalized channel (`connector-core/src/channel.rs`): five lanes by delivery
  priority, each bounded in items and in bytes, and a registry of the book streams whose loss has
  to be repaired by a snapshot. A method returns the channel it leaves behind with its result.

  Of a normalized output only the event is modelled; the channel reads neither the durable raw
  reference nor the derivative receipt it travels with. The length of an event's JSON form is the
  parameter `wireLength`. A lock is never poisoned here, because nothing panics while holding one.
-/
import CryptoIntelligence.Event.Canonical

namespace CryptoIntelligence.Channel

open Lib Domain Event

inductive ChannelError where
  | invalidCapacity
  | capacityRejected
  | receiverClosed
  | resynchronizationRequired
  | eventEncodingFailed
  | unknownBookStream
  | invalidBookStreamRegistry
  | snapshotDoesNotSatisfyInvalidation
  | invalidLossPolicy
  | samplingRegistryCapacityExceeded
  | requiredEventCannotBeLossy
  | undeclaredLossPolicy
  deriving DecidableEq, Repr

/-! ## Priorities -/

/-- Delivery priority; one lane for each. -/
inductive EventPriority where
  | integrity
  | marketCore
  | derivativesState
  | auxiliary
  | uiAggregate
  deriving DecidableEq, Repr

/-- The lanes in the order in which the receiver looks at them and a sink drops them. -/
def lanes : List EventPriority :=
  [.integrity, .marketCore, .derivativesState, .auxiliary, .uiAggregate]

theorem mem_lanes (lane : EventPriority) : lane ∈ lanes := by cases lane <;> decide

def priority : EventType → EventPriority
  | .instrumentDefinition | .bookSnapshot | .bookDelta => .integrity
  | .trade | .markIndexObservation => .marketCore
  | .fundingObservation | .openInterestObservation | .liquidationObservation
  | .futureBasisObservation | .optionTrade => .derivativesState
  | .topOfBook | .optionTicker | .venueStatus | .chainBlock | .chainTransactionAggregate
  | .chainMempoolObservation | .chainMetric | .externalMarketObservation
  | .structuredEvent => .auxiliary
  | .dataQualityObservation | .predictionRecord | .alertEvent => .uiAggregate

/-- An event on its way to the consumer. -/
structure NormalizedOutput where
  event : EventEnvelope

def NormalizedOutput.lane (output : NormalizedOutput) : EventPriority :=
  priority output.event.eventType

/-! ## Book streams -/

structure BookStreamKey where
  source : SourceId
  instrument : InstrumentId
  subscriptionEpoch : UInt64
  deriving DecidableEq

/-- The admitted streams; an invalidated one has the sequence a snapshot must reach. -/
structure BookStreamRegistry where
  states : BookStreamKey → Option (Option UInt64)

namespace BookStreamRegistry

def empty : BookStreamRegistry := ⟨fun _ => none⟩

def set (registry : BookStreamRegistry) (key : BookStreamKey) (state : Option UInt64) :
    BookStreamRegistry := ⟨Function.update registry.states key (some state)⟩

/-- The loop of `try_new`; `count` streams are in the registry already. -/
def admitAll (maximum : Nat) : Nat → BookStreamRegistry → List BookStreamKey →
    Except ChannelError BookStreamRegistry
  | _, registry, [] => .ok registry
  | count, registry, key :: keys =>
    if count ≥ maximum ∨ (registry.states key).isSome then .error .invalidBookStreamRegistry
    else admitAll maximum (count + 1) (registry.set key none) keys

def tryNew (maximum : Nat) (admitted : List BookStreamKey) :
    Except ChannelError BookStreamRegistry :=
  admitAll maximum 0 empty admitted

def requiredSequence (registry : BookStreamRegistry) (key : BookStreamKey) :
    Except ChannelError (Option UInt64) := required (registry.states key) .unknownBookStream

def invalidate (registry : BookStreamRegistry) (key : BookStreamKey) (sequence : UInt64) :
    Except ChannelError BookStreamRegistry := do
  let state ← registry.requiredSequence key
  return registry.set key (some (max (state.getD 0) sequence))

def markSynchronized (registry : BookStreamRegistry) (key : BookStreamKey) :
    Except ChannelError BookStreamRegistry := do
  let _ ← registry.requiredSequence key
  return registry.set key none

end BookStreamRegistry

/-- The stream whose book an output belongs to, and the output's sequence. -/
def requiredBookStream (output : NormalizedOutput) : Option (BookStreamKey × UInt64) :=
  if output.event.eventType ∈ [EventType.instrumentDefinition, .bookSnapshot, .bookDelta] then
    output.event.metadata.instrumentId.map fun instrument =>
      (⟨output.event.metadata.source, instrument, output.event.metadata.subscriptionEpoch⟩,
        output.event.metadata.sequenceNumber.getD 0)
  else none

/-! ## Sampling -/

inductive SamplingPolicy where
  | sampleEvery (intervalMs : UInt32)
  deriving DecidableEq, Repr

def maxLossPolicies : Nat := 16

def maxLossSamplingStreams : Nat := 4096

structure LossPolicyRegistry where
  policies : List (EventType × SamplingPolicy)

namespace LossPolicyRegistry

def empty : LossPolicyRegistry := ⟨[]⟩

def get (registry : LossPolicyRegistry) (eventType : EventType) : Option SamplingPolicy :=
  registry.policies.lookup eventType

/-- The loop of `try_new`: only droppable types, each once, and at most sixteen. -/
def declareAll (registry : LossPolicyRegistry) :
    List (EventType × SamplingPolicy) → Except ChannelError LossPolicyRegistry
  | [] => .ok registry
  | (eventType, policy) :: rest =>
    if priority eventType ∉ [EventPriority.auxiliary, .uiAggregate] ∨
      (registry.get eventType).isSome
        ∨ registry.policies.length + 1 > maxLossPolicies then .error .invalidLossPolicy
    else declareAll ⟨(eventType, policy) :: registry.policies⟩ rest

def tryNew (policies : List (EventType × SamplingPolicy)) :
    Except ChannelError LossPolicyRegistry :=
  declareAll empty policies

end LossPolicyRegistry

structure LossStreamKey where
  source : SourceId
  eventType : EventType
  instrument : Option InstrumentId
  connectionEpoch : UInt64
  subscriptionEpoch : UInt64
  deriving DecidableEq

def LossStreamKey.fromOutput (output : NormalizedOutput) : LossStreamKey :=
  ⟨output.event.metadata.source, output.event.eventType, output.event.metadata.instrumentId,
    output.event.metadata.connectionEpoch, output.event.metadata.subscriptionEpoch⟩

inductive LossReason where
  | samplingWindow
  | itemCapacity
  | byteCapacity
  deriving DecidableEq, Repr

structure LossAuditRecord where
  stream : LossStreamKey
  policy : SamplingPolicy
  sequenceNumber : Option UInt64
  reason : LossReason

inductive DeliveryOutcome where
  | queued
  | dropped (output : NormalizedOutput) (audit : LossAuditRecord)

def DeliveryOutcome.isQueued : DeliveryOutcome → Bool
  | .queued => true
  | .dropped _ _ => false

/-! ## The channel -/

/-- A queued output holds its bytes of the lane's budget until it is taken out. -/
structure QueuedNormalizedOutput where
  output : NormalizedOutput
  bytes : Nat

structure NormalizedChannel where
  registryId : Nat
  itemCapacity : Nat
  byteCapacity : Nat
  queue : EventPriority → List QueuedNormalizedOutput
  receiverClosed : Bool
  bookStreams : BookStreamRegistry
  lossPolicies : LossPolicyRegistry
  samplingState : List (LossStreamKey × UInt64)

/-- `Semaphore::MAX_PERMITS`, the largest item capacity. -/
def maxPermits : Nat := (2 ^ 64 - 1) / 8

def validItemCapacity (capacity : Nat) : Bool := capacity != 0 && decide (capacity ≤ maxPermits)

/-- The length of the encoding of an event, where it has one. -/
abbrev WireLength := EventEnvelope → Option Nat

/-- The length of an event's JSON form as a `u32`. -/
def encodedLength (wireLength : WireLength) (event : EventEnvelope) : Except ChannelError Nat := do
  let length ← required (wireLength event) .eventEncodingFailed
  reject (length ≥ 2 ^ 32) .capacityRejected
  return length

namespace NormalizedChannel

/-- A channel with empty lanes; `registryId` stands for the address of its registry. -/
def withRegistryAndLossPolicies (registryId itemCapacity byteCapacity : Nat)
    (bookStreams : BookStreamRegistry) (lossPolicies : LossPolicyRegistry) :
    Except ChannelError NormalizedChannel := do
  reject (byteCapacity ≥ 2 ^ 32) .invalidCapacity
  reject (!validItemCapacity itemCapacity ∨ byteCapacity = 0) .invalidCapacity
  return { registryId, itemCapacity, byteCapacity, queue := fun _ => [], receiverClosed := false
           bookStreams, lossPolicies, samplingState := [] }

/-- The bytes of a lane that are not held by queued outputs. -/
def freeBytes (c : NormalizedChannel) (lane : EventPriority) : Nat :=
  c.byteCapacity - ((c.queue lane).map QueuedNormalizedOutput.bytes).sum

def hasRoom (c : NormalizedChannel) (lane : EventPriority) : Bool :=
  decide ((c.queue lane).length < c.itemCapacity)

def enqueue (c : NormalizedChannel) (output : NormalizedOutput) (bytes : Nat) : NormalizedChannel :=
  { c with queue := Function.update c.queue output.lane (c.queue output.lane ++ [⟨output, bytes⟩]) }

/-- The checks that open `send` and `try_send_inner`: the stream is admitted, and a delta of an
    invalidated stream is refused. -/
def admits (c : NormalizedChannel) (output : NormalizedOutput) : Except ChannelError Unit :=
  match requiredBookStream output with
  | none => .ok ()
  | some (key, _) => do
    let state ← c.bookStreams.requiredSequence key
    reject (output.event.eventType = .bookDelta ∧ state.isSome) .resynchronizationRequired

/-- An output that does not fit: the loss of a book output invalidates its stream. -/
def overflow (c : NormalizedChannel) (output : NormalizedOutput) :
    NormalizedChannel × Except ChannelError Unit :=
  match requiredBookStream output with
  | none => (c, .error .capacityRejected)
  | some (key, sequence) =>
    match c.bookStreams.invalidate key sequence with
    | .ok bookStreams => ({ c with bookStreams }, .error .resynchronizationRequired)
    | .error err => (c, .error err)

def trySend (wireLength : WireLength) (c : NormalizedChannel)
    (output : NormalizedOutput) : NormalizedChannel × Except ChannelError Unit :=
  match c.admits output with
  | .error err => (c, .error err)
  | .ok () =>
    match encodedLength wireLength output.event with
    | .error err => (c, .error err)
    | .ok bytes =>
      if bytes > c.byteCapacity then c.overflow output
      else if bytes > c.freeBytes output.lane then c.overflow output
      else if c.receiverClosed then (c, .error .receiverClosed)
      else if c.hasRoom output.lane then (c.enqueue output bytes, .ok ())
      else c.overflow output

/-- `send` taken as one step; `none` while it has to wait for room. -/
def send (wireLength : WireLength) (c : NormalizedChannel)
    (output : NormalizedOutput) : Option (NormalizedChannel × Except ChannelError Unit) :=
  match c.admits output with
  | .error err => some (c, .error err)
  | .ok () =>
    match encodedLength wireLength output.event with
    | .error err => some (c, .error err)
    | .ok bytes =>
      if bytes > c.byteCapacity then some (c.overflow output)
      else if bytes > c.freeBytes output.lane then none
      else if c.receiverClosed then some (c, .error .receiverClosed)
      else if c.hasRoom output.lane then some (c.enqueue output bytes, .ok ())
      else none

/-- The sampling window of a stream is still open. -/
def sampledRecently (c : NormalizedChannel) (stream : LossStreamKey) (now : UInt64) :
    SamplingPolicy → Bool
  | .sampleEvery intervalMs =>
    match c.samplingState.lookup stream with
    | none => false
    | some previous => decide (previous ≤ now)
      && decide ((now - previous).toNat < min (intervalMs.toNat * 1000000) (2 ^ 64 - 1))

def recordSample (c : NormalizedChannel) (stream : LossStreamKey) (now : UInt64) :
    NormalizedChannel :=
  { c with samplingState := (stream, now) :: c.samplingState.filter fun entry => entry.1 != stream }

def trySendLossy (wireLength : WireLength) (c : NormalizedChannel)
    (output : NormalizedOutput) (policy : SamplingPolicy) :
    NormalizedChannel × Except ChannelError DeliveryOutcome :=
  let stream := LossStreamKey.fromOutput output
  let now := output.event.metadata.receiveMonotonicNs
  let dropped (reason : LossReason) : Except ChannelError DeliveryOutcome :=
    .ok (.dropped output ⟨stream, policy, output.event.metadata.sequenceNumber, reason⟩)
  if output.lane ∉ [EventPriority.auxiliary, .uiAggregate] then
    (c, .error .requiredEventCannotBeLossy)
  else if c.lossPolicies.get output.event.eventType ≠ some policy then
    (c, .error .undeclaredLossPolicy)
  else if (c.samplingState.lookup stream).isNone
      ∧ c.samplingState.length ≥ maxLossSamplingStreams then
    (c, .error .samplingRegistryCapacityExceeded)
  else if c.sampledRecently stream now policy then (c, dropped .samplingWindow)
  else
    match encodedLength wireLength output.event with
    | .error err => (c, .error err)
    | .ok bytes =>
      if bytes > c.byteCapacity then (c, dropped .byteCapacity)
      else if bytes > c.freeBytes output.lane then (c, dropped .byteCapacity)
      else if c.receiverClosed then (c, .error .receiverClosed)
      else if c.hasRoom output.lane then
        ((c.enqueue output bytes).recordSample stream now, .ok .queued)
      else (c, dropped .itemCapacity)

/-- `try_recv` on one lane. -/
def tryRecv (c : NormalizedChannel) (lane : EventPriority) :
    NormalizedChannel × Option NormalizedOutput :=
  match c.queue lane with
  | [] => (c, none)
  | queued :: rest => ({ c with queue := Function.update c.queue lane rest }, some queued.output)

end NormalizedChannel

/-- Evidence that a delivered book snapshot was applied, with the registry of its channel. -/
structure AppliedSnapshot where
  output : NormalizedOutput
  registryId : Nat

/-- The checks of `accept_resynchronizing_snapshot`: the stream that may be cleared. -/
def NormalizedChannel.satisfiedStream (c : NormalizedChannel) (applied : AppliedSnapshot) :
    Except ChannelError BookStreamKey := do
  reject (c.registryId ≠ applied.registryId) .snapshotDoesNotSatisfyInvalidation
  reject (applied.output.event.eventType ≠ .bookSnapshot) .snapshotDoesNotSatisfyInvalidation
  let (key, sequence) ← required
    (requiredBookStream applied.output) .snapshotDoesNotSatisfyInvalidation
  let state ← c.bookStreams.requiredSequence key
  let requiredSequence ← required state .snapshotDoesNotSatisfyInvalidation
  reject (sequence < requiredSequence) .snapshotDoesNotSatisfyInvalidation
  return key

def NormalizedChannel.acceptResynchronizingSnapshot (c : NormalizedChannel)
    (applied : AppliedSnapshot) : NormalizedChannel × Except ChannelError Unit :=
  match c.satisfiedStream applied with
  | .error err => (c, .error err)
  | .ok key =>
    match c.bookStreams.markSynchronized key with
    | .error err => (c, .error err)
    | .ok bookStreams => ({ c with bookStreams }, .ok ())

end CryptoIntelligence.Channel
