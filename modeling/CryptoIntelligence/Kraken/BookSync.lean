/-
  The Kraken Spot v2 synchronizer (`connector-kraken/src/book_sync.rs`, `l3.rs` and the book
  messages of `parser.rs`). Kraken sends no sequence numbers: the synchronizer numbers the messages
  it applied with a revision of its own, keeps the decimal texts of the top levels for the
  checksum, and drives an `OrderBookEngine` with `SequencePolicy.exactNext` and required checksums.

  A method that takes `&mut self` returns the synchronizer it leaves behind with its result.
  Timestamps of messages are left out: nothing here reads them.
-/
import CryptoIntelligence.Lib.Upserts
import CryptoIntelligence.OrderBook.Engine

namespace CryptoIntelligence.Kraken

open Lib Decimal Domain Event OrderBook
open Std (ExtTreeMap ExtTreeSet)

/-! ## Messages -/

inductive BookMessageKind where
  | snapshot
  | update
  deriving DecidableEq, Repr

inductive L3EventKind where
  | add
  | modify
  | delete
  deriving DecidableEq, Repr

structure NativeBookLevel where
  price : Price
  quantity : Quantity
  priceText : String
  quantityText : String
  deriving DecidableEq

structure SpotBookMessage where
  symbol : String
  kind : BookMessageKind
  checksum : UInt32
  bids : List NativeBookLevel
  asks : List NativeBookLevel
  deriving DecidableEq

structure NativeL3Order where
  event : Option L3EventKind
  orderId : String
  price : Price
  quantity : Quantity
  priceText : String
  quantityText : String
  deriving DecidableEq

structure SpotL3Message where
  symbol : String
  kind : BookMessageKind
  checksum : UInt32
  bids : List NativeL3Order
  asks : List NativeL3Order
  deriving DecidableEq

/-! ## The order-level policy -/

def maxTierASymbols : Nat := 200

inductive KrakenL3PolicyError where
  | invalidCapacity
  | invalidSymbol
  deriving DecidableEq, Repr

structure KrakenL3Policy where
  symbols : ExtTreeSet String
  depth : Nat
  maxOrdersPerSymbol : Nat

def validSymbol (symbol : String) : Bool :=
  !symbol.toList.isEmpty && decide ((utf8 symbol).length ≤ 64)
    && trim symbol.toList == symbol.toList && isAscii symbol.toList
    && !symbol.toList.any isControl

namespace KrakenL3Policy

def disabled : KrakenL3Policy := ⟨∅, 10, 1⟩

/-- The allowlist loop of `try_new`: each symbol is well formed and occurs once. -/
def retainSymbols (retained : ExtTreeSet String) :
    List String → Except KrakenL3PolicyError (ExtTreeSet String)
  | [] => .ok retained
  | symbol :: symbols =>
    if !validSymbol symbol || retained.contains symbol then .error .invalidSymbol
    else retainSymbols (retained.insert symbol) symbols

def tryNew (symbols : List String) (depth maxOrdersPerSymbol : Nat) :
    Except KrakenL3PolicyError KrakenL3Policy := do
  reject (depth ∉ [10, 100, 1000] ∨ maxOrdersPerSymbol = 0) .invalidCapacity
  let retained ← retainSymbols ∅ symbols
  reject (retained.isEmpty = true ∨ retained.size > maxTierASymbols) .invalidCapacity
  return ⟨retained, depth, maxOrdersPerSymbol⟩

def isEnabledFor (policy : KrakenL3Policy) (symbol : String) : Bool :=
  policy.symbols.contains symbol

end KrakenL3Policy

/-! ## Exact price levels -/

/-- One side as the venue wrote it. -/
abbrev NativeLevels := ExtTreeMap Price NativeBookLevel

/-- Both sides as the venue wrote them. -/
structure ExactBook where
  bids : NativeLevels
  asks : NativeLevels

def applyLevels (side : NativeLevels) (levels : List NativeBookLevel) : NativeLevels :=
  upsertAll NativeBookLevel.price
    (fun level => if level.quantity.value.isZero then none else some level) side levels

def truncateBids (side : NativeLevels) (maximum : Nat) : NativeLevels :=
  dropWorst List.head? maximum side.size side

def truncateAsks (side : NativeLevels) (maximum : Nat) : NativeLevels :=
  dropWorst List.getLast? maximum side.size side

/-- The exact book after a message, cut to the configured depth. -/
def ExactBook.apply (book : ExactBook) (depth : Nat) (message : SpotBookMessage) : ExactBook :=
  ⟨truncateBids (applyLevels book.bids message.bids) depth,
    truncateAsks (applyLevels book.asks message.asks) depth⟩

def ExactBook.empty : ExactBook := ⟨∅, ∅⟩

/-- `levels.values()`, lowest price first. -/
def levelValues (levels : NativeLevels) : List NativeBookLevel := levels.toList.map Prod.snd

def exactLevel (level : NativeBookLevel) : Except BookError ExactChecksumLevel :=
  ExactChecksumLevel.new level.priceText level.quantityText

def checksumFor (expected : UInt32) (asks bids : NativeLevels) :
    Except BookError KrakenV2Checksum := do
  let asks ← ((levelValues asks).take 10).mapM exactLevel
  let bids ← ((levelValues bids).reverse.take 10).mapM exactLevel
  KrakenV2Checksum.new expected asks bids

/-- A level without its texts. -/
def bookLevel (level : NativeBookLevel) : BookLevel := ⟨level.price, level.quantity, none⟩

/-- The last level of each price, lowest price first. -/
def collapsedBookLevels (levels : List NativeBookLevel) : List BookLevel :=
  (upsertAll NativeBookLevel.price (fun level => some (bookLevel level))
    (∅ : ExtTreeMap Price BookLevel) levels).toList.map Prod.snd

def descendingLevels (levels : NativeLevels) : List BookLevel :=
  (levelValues levels).reverse.map bookLevel

def ascendingLevels (levels : NativeLevels) : List BookLevel := (levelValues levels).map bookLevel

/-! ## Exact orders -/

structure ExactL3Entry where
  order : L3Order
  priceText : String
  quantityText : String

abbrev L3Entries := ExtTreeMap L3OrderId ExactL3Entry

structure L3Candidate where
  entries : L3Entries
  events : List L3Event
  nextQueueOrder : UInt64

inductive KrakenBookSyncError where
  | invalidConfig
  | wrongMessage
  | sessionNotStarted
  | revisionOverflow
  | l3NotAllowed
  | l2NotSynchronized
  | l3SnapshotRequired
  | unknownL3Order
  | ambiguousL3Order
  | l3Capacity
  | book (error : BookError)
  deriving DecidableEq

/-- An engine error passed on by the question mark. -/
def asSyncError {α : Type} (x : Except BookError α) : Except KrakenBookSyncError α :=
  match x with
  | .ok a => .ok a
  | .error err => .error (.book err)

/-- The entry of a new order, which takes the next place in the queue. -/
def newL3Entry (source : NativeL3Order) (side : L3Side) (nextQueueOrder : UInt64) :
    Except KrakenBookSyncError (ExactL3Entry × UInt64) := do
  let next ← required (checkedNext nextQueueOrder) .revisionOverflow
  let id ← asSyncError (L3OrderId.new source.orderId)
  let order ← asSyncError (L3Order.new id side source.price source.quantity next next)
  return (⟨order, source.priceText, source.quantityText⟩, next)

/-- Price order of a side, best first, and priority order inside a price. -/
def l3EntryCmp (side : L3Side) (left right : ExactL3Entry) : Ordering :=
  let prices := match side with
    | .ask => compare left.order.price right.order.price
    | .bid => compare right.order.price left.order.price
  prices.then (queueCmp (L3Book.priority left.order) (L3Book.priority right.order))

def sortedL3Side (entries : L3Entries) (side : L3Side) : List ExactL3Entry :=
  ((entries.toList.map Prod.snd).filter fun entry => entry.order.side == side).mergeSort
    fun left right => (l3EntryCmp side left right).isLE

/-- Each entry with the number of its price level, counted from one. -/
def numberLevels (levels : Nat) (lastPrice : Option Price) :
    List ExactL3Entry → List (ExactL3Entry × Nat)
  | [] => []
  | entry :: entries =>
    let levels := if lastPrice ≠ some entry.order.price then levels + 1 else levels
    (entry, levels) :: numberLevels levels (some entry.order.price) entries

def topL3Levels (entries : List ExactL3Entry) : List ExactL3Entry :=
  ((numberLevels 0 none entries).takeWhile fun entry => entry.2 ≤ 10).map Prod.fst

def exactL3Order (entry : ExactL3Entry) : Except BookError ExactL3ChecksumOrder :=
  ExactL3ChecksumOrder.new entry.order entry.priceText entry.quantityText

def l3ChecksumFor (expected : UInt32) (entries : L3Entries) :
    Except BookError KrakenV2L3Checksum := do
  let asks ← (topL3Levels (sortedL3Side entries .ask)).mapM exactL3Order
  let bids ← (topL3Levels (sortedL3Side entries .bid)).mapM exactL3Order
  KrakenV2L3Checksum.new expected asks bids

/-- One side of `truncate_l3`. -/
def truncateL3Side (maximumLevels : Nat) (entries : L3Entries) (side : L3Side) : L3Entries :=
  let remove := (numberLevels 0 none (sortedL3Side entries side)).filterMap fun entry =>
    if entry.2 > maximumLevels then some entry.1.order.id else none
  remove.foldl (fun entries id => entries.erase id) entries

def truncateL3 (entries : L3Entries) (maximumLevels : Nat) : L3Entries :=
  [L3Side.bid, L3Side.ask].foldl (truncateL3Side maximumLevels) entries

/-- The orders of a message with their side, bids first. -/
def SpotL3Message.sources (message : SpotL3Message) : List (L3Side × NativeL3Order) :=
  message.bids.map (fun source => (.bid, source)) ++ message.asks.map (fun source => (.ask, source))

/-- The loop of `l3_snapshot_entries`. -/
def l3SnapshotLoop (entries : L3Entries) (nextQueueOrder : UInt64) :
    List (L3Side × NativeL3Order) → Except KrakenBookSyncError L3Candidate
  | [] => .ok ⟨entries, [], nextQueueOrder⟩
  | (side, source) :: sources => do
    let (entry, next) ← newL3Entry source side nextQueueOrder
    reject (entries.contains entry.order.id) .ambiguousL3Order
    l3SnapshotLoop (entries.insert entry.order.id entry) next sources

def l3SnapshotEntries (message : SpotL3Message) : Except KrakenBookSyncError L3Candidate :=
  l3SnapshotLoop ∅ 0 message.sources

/-- One order of an update on the candidate; the event goes to the engine. -/
def l3UpdateStep (candidate : L3Candidate) (side : L3Side) (id : L3OrderId)
    (source : NativeL3Order) : Except KrakenBookSyncError L3Candidate := do
  match source.event with
  | some .add =>
    reject (candidate.entries.contains id) .ambiguousL3Order
    let (entry, next) ← newL3Entry source side candidate.nextQueueOrder
    return ⟨candidate.entries.insert id entry, candidate.events ++ [.add entry.order], next⟩
  | some .modify =>
    let entry ← required candidate.entries[id]? .unknownL3Order
    reject (entry.order.side ≠ side ∨ entry.order.price ≠ source.price) .ambiguousL3Order
    let order ← asSyncError (L3Order.new entry.order.id side source.price source.quantity
      entry.order.priorityNs entry.order.queueOrder)
    return ⟨candidate.entries.insert id ⟨order, entry.priceText, source.quantityText⟩,
      candidate.events ++ [.modify id source.quantity], candidate.nextQueueOrder⟩
  | some .delete =>
    reject (!candidate.entries.contains id) .unknownL3Order
    return ⟨candidate.entries.erase id, candidate.events ++ [.delete id], candidate.nextQueueOrder⟩
  | none => throw .ambiguousL3Order

/-- The loop of `l3_update_entries`. -/
def l3UpdateLoop (candidate : L3Candidate) (touched : List L3OrderId) :
    List (L3Side × NativeL3Order) → Except KrakenBookSyncError L3Candidate
  | [] => .ok candidate
  | (side, source) :: sources => do
    let id ← asSyncError (L3OrderId.new source.orderId)
    reject (id ∈ touched) .ambiguousL3Order
    let candidate ← l3UpdateStep candidate side id source
    l3UpdateLoop candidate (id :: touched) sources

/-! ## The synchronizer -/

structure KrakenBookSynchronizer where
  engine : OrderBookEngine
  symbol : String
  exactBids : NativeLevels
  exactAsks : NativeLevels
  localRevision : UInt64
  maxDepth : Nat
  l3Policy : KrakenL3Policy
  exactL3 : L3Entries
  nextQueueOrder : UInt64

def canonicalSpotSymbol (symbol : String) : String :=
  String.ofList (symbol.toList.filter (· != '/'))

namespace KrakenBookSynchronizer

/-- The synchronizer `try_new_with_l3` returns for an accepted configuration. -/
def fresh (config : BookConfig) (l3Policy : KrakenL3Policy) : KrakenBookSynchronizer :=
  { engine := .fresh config, symbol := config.instrument.venueSymbol
    exactBids := ∅, exactAsks := ∅, localRevision := 0, maxDepth := config.maxLevelsPerSide
    l3Policy, exactL3 := ∅, nextQueueOrder := 0 }

/-- What the synchronizer requires of a configuration. -/
def accepts (config : BookConfig) (l3Policy : KrakenL3Policy) : Bool :=
  config.instrument.venue.value == "kraken"
    && config.sequencePolicy == .exactNext && config.checksumPolicy == .required
    && (l3Policy.symbols.isEmpty != config.maxL3Orders.isSome)
    && config.maxL3Orders.all (fun maximum => maximum == l3Policy.maxOrdersPerSymbol
      && config.maxL3LevelsPerSide == some l3Policy.depth)

def tryNewWithL3 (config : BookConfig) (l3Policy : KrakenL3Policy) :
    Except KrakenBookSyncError KrakenBookSynchronizer := do
  reject (!accepts config l3Policy) .invalidConfig
  let engine ← asSyncError (OrderBookEngine.new config)
  return { fresh config l3Policy with engine }

def tryNew (config : BookConfig) : Except KrakenBookSyncError KrakenBookSynchronizer :=
  tryNewWithL3 config .disabled

def clearExact (s : KrakenBookSynchronizer) : KrakenBookSynchronizer :=
  { s with exactBids := ∅, exactAsks := ∅, exactL3 := ∅, localRevision := 0, nextQueueOrder := 0 }

def startSession (s : KrakenBookSynchronizer) (session : BookSession) :
    KrakenBookSynchronizer × Except KrakenBookSyncError Unit :=
  match s.engine.startSession session .streamSnapshot with
  | (engine, .error err) => ({ s with engine }, .error (.book err))
  | (engine, .ok ()) => ({ s with engine }.clearExact, .ok ())

def disconnect (s : KrakenBookSynchronizer) : KrakenBookSynchronizer :=
  { s with engine := s.engine.disconnect }.clearExact

def state (s : KrakenBookSynchronizer) : BookState := s.engine.state

def snapshot (s : KrakenBookSynchronizer) : Except BookError BookSnapshotView := s.engine.snapshot

/-- The exact book a message would leave behind. -/
def candidate (s : KrakenBookSynchronizer) (message : SpotBookMessage) : ExactBook :=
  match message.kind with
  | .snapshot => ExactBook.empty.apply s.maxDepth message
  | .update => (ExactBook.mk s.exactBids s.exactAsks).apply s.maxDepth message

/-- The engine call of `apply_spot`. -/
def submit (s : KrakenBookSynchronizer) (message : SpotBookMessage) (candidate : ExactBook)
    (session : BookSession) (nextRevision nowMonotonicNs sourceLatencyMs : UInt64)
    (checksum : KrakenV2Checksum) : Attempt ApplyResult :=
  match message.kind with
  | .snapshot =>
    s.engine.applySnapshotChecked
      ⟨descendingLevels candidate.bids, ascendingLevels candidate.asks, nextRevision⟩
      session nowMonotonicNs sourceLatencyMs checksum
  | .update =>
    s.engine.applyDeltaChecked
      { bids := collapsedBookLevels message.bids, asks := collapsedBookLevels message.asks
        firstSequence := nextRevision, lastSequence := nextRevision }
      session nowMonotonicNs sourceLatencyMs checksum

/-- What `apply_spot` keeps after the engine answered. -/
def settle (s : KrakenBookSynchronizer) (candidate : ExactBook) (nextRevision : UInt64)
    (answer : Attempt ApplyResult) :
    KrakenBookSynchronizer × Except KrakenBookSyncError ApplyResult :=
  match answer with
  | (engine, .error err) => ({ s with engine }, .error (.book err))
  | (engine, .ok result) =>
    if result = .applied then
      ({ s with
          engine, exactBids := candidate.bids, exactAsks := candidate.asks
          localRevision := nextRevision }, .ok result)
    else if result = .checksumMismatch then ({ s with engine }.clearExact, .ok result)
    else ({ s with engine }, .ok result)

def applySpot (s : KrakenBookSynchronizer) (message : SpotBookMessage)
    (nowMonotonicNs sourceLatencyMs : UInt64) :
    KrakenBookSynchronizer × Except KrakenBookSyncError ApplyResult :=
  if canonicalSpotSymbol message.symbol ≠ s.symbol then (s, .error .wrongMessage)
  else match s.engine.session with
    | none => (s, .error .sessionNotStarted)
    | some session =>
      match checkedNext s.localRevision with
      | none => (s, .error .revisionOverflow)
      | some nextRevision =>
        if message.kind = .update ∧ s.localRevision = 0 then (s, .ok .snapshotRequired)
        else
          let candidate := s.candidate message
          match checksumFor message.checksum candidate.asks candidate.bids with
          | .error err => (s, .error (.book err))
          | .ok checksum =>
            s.settle candidate nextRevision
              (s.submit message candidate session nextRevision nowMonotonicNs sourceLatencyMs
                checksum)

def l3UpdateEntries (s : KrakenBookSynchronizer) (message : SpotL3Message) :
    Except KrakenBookSyncError L3Candidate := do
  reject s.exactL3.isEmpty .l3SnapshotRequired
  l3UpdateLoop ⟨s.exactL3, [], s.nextQueueOrder⟩ [] message.sources

/-- The checks of `apply_level3` before the engine is called. -/
def prepareLevel3 (s : KrakenBookSynchronizer) (message : SpotL3Message) :
    Except KrakenBookSyncError (BookSession × L3Candidate × KrakenV2L3Checksum) := do
  reject (canonicalSpotSymbol message.symbol ≠ s.symbol ∨ !s.l3Policy.isEnabledFor message.symbol)
    .l3NotAllowed
  reject (s.engine.state ≠ .synchronized) .l2NotSynchronized
  let session ← required s.engine.session .sessionNotStarted
  let candidate ← match message.kind with
    | .snapshot => l3SnapshotEntries message
    | .update => s.l3UpdateEntries message
  let candidate := { candidate with entries := truncateL3 candidate.entries s.l3Policy.depth }
  reject (candidate.entries.size > s.l3Policy.maxOrdersPerSymbol) .l3Capacity
  let checksum ← asSyncError (l3ChecksumFor message.checksum candidate.entries)
  return (session, candidate, checksum)

/-- The engine call of `apply_level3`. -/
def submitLevel3 (s : KrakenBookSynchronizer) (message : SpotL3Message) (candidate : L3Candidate)
    (session : BookSession) (nowMonotonicNs sourceLatencyMs : UInt64)
    (checksum : KrakenV2L3Checksum) : Attempt ApplyResult :=
  match message.kind with
  | .snapshot =>
    s.engine.applyL3SnapshotChecked (candidate.entries.toList.map fun entry => entry.2.order)
      session nowMonotonicNs sourceLatencyMs checksum
  | .update =>
    s.engine.applyL3EventsChecked candidate.events session nowMonotonicNs sourceLatencyMs checksum

/-- What `apply_level3` keeps after the engine answered. -/
def settleLevel3 (s : KrakenBookSynchronizer) (candidate : L3Candidate)
    (answer : Attempt ApplyResult) :
    KrakenBookSynchronizer × Except KrakenBookSyncError ApplyResult :=
  match answer with
  | (engine, .error err) => ({ s with engine }, .error (.book err))
  | (engine, .ok result) =>
    if result = .applied then
      ({ s with engine, exactL3 := candidate.entries, nextQueueOrder := candidate.nextQueueOrder },
        .ok result)
    else if result = .checksumMismatch then
      ({ s with engine, exactL3 := ∅, nextQueueOrder := 0 }, .ok result)
    else ({ s with engine }, .ok result)

def applyLevel3 (s : KrakenBookSynchronizer) (message : SpotL3Message)
    (nowMonotonicNs sourceLatencyMs : UInt64) :
    KrakenBookSynchronizer × Except KrakenBookSyncError ApplyResult :=
  match s.prepareLevel3 message with
  | .error err => (s, .error err)
  | .ok (session, candidate, checksum) =>
    s.settleLevel3 candidate
      (s.submitLevel3 message candidate session nowMonotonicNs sourceLatencyMs checksum)

end KrakenBookSynchronizer

end CryptoIntelligence.Kraken
