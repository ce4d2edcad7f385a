/-
  Runs of the order-book engine: one constructor of `Op` for each public method that changes it,
  and the history of calls with their outcomes that a run leaves behind.
-/
import CryptoIntelligence.Lib.Run
import CryptoIntelligence.OrderBook.Engine

namespace CryptoIntelligence.OrderBook

open Lib Event

/-- A call of a public method with its arguments. -/
inductive Op where
  | startSession (session : BookSession) (strategy : SnapshotStrategy)
  | disconnect
  | beginResync
  | applySnapshot (snapshot : BookSnapshot) (session : BookSession) (now : UInt64)
  | applySnapshotChecked (snapshot : BookSnapshot) (session : BookSession)
      (now latency : UInt64) (checksum : KrakenV2Checksum)
  | applyDelta (delta : BookDelta) (session : BookSession) (now : UInt64)
  | applyDeltaWithPrevious (delta : BookDelta) (session : BookSession) (now previous : UInt64)
  | applyDeltaChecked (delta : BookDelta) (session : BookSession) (now latency : UInt64)
      (checksum : KrakenV2Checksum)
  | applyDeltaCheckedWithPrevious (delta : BookDelta) (session : BookSession)
      (now latency : UInt64) (checksum : KrakenV2Checksum) (previous : UInt64)
  | applyEvent (event : EventEnvelope)
  | applyL3Snapshot (orders : List L3Order) (session : BookSession) (now : UInt64)
  | applyL3SnapshotChecked (orders : List L3Order) (session : BookSession)
      (now latency : UInt64) (checksum : KrakenV2L3Checksum)
  | applyL3Events (events : List L3Event) (session : BookSession) (now : UInt64)
  | applyL3EventsChecked (events : List L3Event) (session : BookSession)
      (now latency : UInt64) (checksum : KrakenV2L3Checksum)

/-- What a call returned; `none` for the methods that return `()`. -/
abbrev Outcome := Except BookError (Option ApplyResult)

/-- A call with what it returned. -/
abbrev Call := Op × Outcome

@[simp]
abbrev Call.op (call : Call) : Op := call.1

@[simp]
abbrev Call.outcome (call : Call) : Outcome := call.2

/-- The session an event is submitted with. -/
def eventSession (event : EventEnvelope) : Option BookSession :=
  event.metadata.instrumentId.map fun instrument =>
    ⟨event.metadata.connectionEpoch, event.metadata.subscriptionEpoch, instrument.generation⟩

namespace Op

/-- The book snapshot a call submits, with its session. -/
def snapshot? : Op → Option (BookSnapshot × BookSession)
  | applySnapshot snapshot session _ => some (snapshot, session)
  | applySnapshotChecked snapshot session _ _ _ => some (snapshot, session)
  | applyEvent event =>
    match event.payload with
    | .bookSnapshot snapshot => (eventSession event).map fun session => (snapshot, session)
    | _ => none
  | _ => none

/-- The book delta a call submits, with its session, time, checksum and named predecessor. -/
def delta? : Op → Option BufferedDelta
  | applyDelta delta session now => some ⟨delta, session, now, none, none⟩
  | applyDeltaWithPrevious delta session now previous =>
    some ⟨delta, session, now, none, some previous⟩
  | applyDeltaChecked delta session now _ checksum =>
    some ⟨delta, session, now, some checksum, none⟩
  | applyDeltaCheckedWithPrevious delta session now _ checksum previous =>
    some ⟨delta, session, now, some checksum, some previous⟩
  | applyEvent event =>
    match event.payload with
    | .bookDelta delta => (eventSession event).map fun session =>
      ⟨delta, session, event.metadata.receiveMonotonicNs, none,
        event.metadata.previousSequenceNumber⟩
    | _ => none
  | _ => none

/-- The monotonic time a call carries. -/
def time? : Op → Option UInt64
  | startSession _ _ | disconnect | beginResync => none
  | applySnapshot _ _ now | applySnapshotChecked _ _ now _ _ => some now
  | applyDelta _ _ now | applyDeltaWithPrevious _ _ now _ | applyDeltaChecked _ _ now _ _
  | applyDeltaCheckedWithPrevious _ _ now _ _ _ => some now
  | applyEvent event => some event.metadata.receiveMonotonicNs
  | applyL3Snapshot _ _ now | applyL3SnapshotChecked _ _ now _ _ => some now
  | applyL3Events _ _ now | applyL3EventsChecked _ _ now _ _ => some now

/-- The checksum a snapshot call carries. -/
def snapshotChecksum? : Op → Option KrakenV2Checksum
  | applySnapshotChecked _ _ _ _ checksum => some checksum
  | _ => none

end Op

namespace OrderBookEngine

/-- One call on the engine. -/
def step (blake3 : Bytes → Hash32) (e : OrderBookEngine) (op : Op) : OrderBookEngine × Outcome :=
  let session (r : Attempt Unit) : OrderBookEngine × Outcome :=
    (r.1, r.2.map fun _ => none)
  let update (r : Attempt ApplyResult) : OrderBookEngine × Outcome :=
    (r.1, r.2.map some)
  match op with
  | .startSession s strategy => session (e.startSession s strategy)
  | .disconnect => (e.disconnect, .ok none)
  | .beginResync => session e.beginResync
  | .applySnapshot snapshot s now => update (e.applySnapshot snapshot s now)
  | .applySnapshotChecked snapshot s now latency checksum =>
    update (e.applySnapshotChecked snapshot s now latency checksum)
  | .applyDelta delta s now => update (e.applyDelta delta s now)
  | .applyDeltaWithPrevious delta s now previous =>
    update (e.applyDeltaWithPrevious delta s now previous)
  | .applyDeltaChecked delta s now latency checksum =>
    update (e.applyDeltaChecked delta s now latency checksum)
  | .applyDeltaCheckedWithPrevious delta s now latency checksum previous =>
    update (e.applyDeltaCheckedWithPrevious delta s now latency checksum previous)
  | .applyEvent event => update (e.applyEvent blake3 event)
  | .applyL3Snapshot orders s now => update (e.applyL3Snapshot orders s now)
  | .applyL3SnapshotChecked orders s now latency checksum =>
    update (e.applyL3SnapshotChecked orders s now latency checksum)
  | .applyL3Events events s now => update (e.applyL3Events events s now)
  | .applyL3EventsChecked events s now latency checksum =>
    update (e.applyL3EventsChecked events s now latency checksum)

/-- The engine after a run of calls. -/
def run (blake3 : Bytes → Hash32) (e : OrderBookEngine) (ops : List Op) : OrderBookEngine :=
  runAll (step blake3) e ops

/-- The calls of a run with what each of them returned. -/
def history (blake3 : Bytes → Hash32) (e : OrderBookEngine) (ops : List Op) : List Call :=
  historyOf (step blake3) e ops

end OrderBookEngine

namespace Call

/-- A snapshot that became the trusted book. -/
def installs (call : Call) : Prop :=
  call.op.snapshot?.isSome ∧ call.outcome = .ok (some .applied)

/-- The delta of a call that was applied to the trusted book. -/
def applied? (call : Call) : Option BufferedDelta :=
  match call.outcome with
  | .ok (some .applied) => call.op.delta?
  | _ => none

/-- The delta of a call that was taken without a book to apply it to. -/
def waiting? (call : Call) : Option BufferedDelta :=
  match call.outcome with
  | .ok (some .snapshotRequired) => call.op.delta?
  | _ => none

/-- The time of a call that did not fail. -/
def acceptedTime? (call : Call) : Option UInt64 :=
  match call.outcome with
  | .ok _ => call.op.time?
  | .error _ => none

end Call

end CryptoIntelligence.OrderBook
