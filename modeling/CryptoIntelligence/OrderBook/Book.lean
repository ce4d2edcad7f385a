/-
  The price-level book (`L2Book`), the order-level book (`L3Book`) and the published view
  (`orderbook/src/book.rs`). A `BTreeMap` is an extensional ordered map, so two books with the
  same levels are equal.
-/
import CryptoIntelligence.Lib.Codec
import CryptoIntelligence.OrderBook.State

namespace CryptoIntelligence.OrderBook

open Lib Decimal Domain Event Std

/-! ## Tick and step alignment -/

/-- `10_i128.checked_pow(power)`. -/
def checkedPow10 (power : Nat) : Option Int :=
  if InI128 (10 ^ power) then some (10 ^ power) else none

/-- `i128::checked_mul`. -/
def checkedMul (a b : Int) : Option Int := if InI128 (a * b) then some (a * b) else none

def decimalIsMultiple (value unit : FixedDecimal) : Bool :=
  if unit.isZero then false
  else
    let scale := max value.scale unit.scale
    match checkedPow10 (scale - value.scale), checkedPow10 (scale - unit.scale) with
    | some valueFactor, some unitFactor =>
      match checkedMul value.mantissa valueFactor, checkedMul unit.mantissa unitFactor with
      | some valueMantissa, some unitMantissa =>
        unitMantissa != 0 && valueMantissa.tmod unitMantissa == 0
      | _, _ => false
    | _, _ => false

/-! ## The price-level book -/

structure LevelValue where
  quantity : Quantity
  orderCount : Option UInt32
  deriving DecidableEq

abbrev Levels := ExtTreeMap Price LevelValue

structure L2Book where
  bids : Levels
  asks : Levels
  sequence : UInt64
  deriving DecidableEq

def levelValue (level : BookLevel) : LevelValue := ⟨level.quantity, level.orderCount⟩

/-- The check of one level in `validate_levels`. -/
def validateLevel (allowZeroQuantity : Bool) (config : BookConfig) (level : BookLevel) :
    Except BookError Unit := do
  reject (!allowZeroQuantity && level.quantity.value.isZero) .invalidBook
  reject (!level.quantity.value.isZero && level.orderCount == some 0) .invalidBook
  reject (!decimalIsMultiple level.price.value config.priceTick.value
    || !decimalIsMultiple level.quantity.value config.quantityStep.value) .misalignedLevel

def validateLevels (levels : List BookLevel) (allowZeroQuantity : Bool) (config : BookConfig) :
    Except BookError Unit := do
  reject (levels.length > config.maxLevelsPerSide) .capacity
  checkAll (validateLevel allowZeroQuantity config) levels

def strictlyDescending : List BookLevel → Bool := pricesOrdered .gt

def strictlyAscending : List BookLevel → Bool := pricesOrdered .lt

def ensureUniquePrices (levels : List BookLevel) : Except BookError Unit :=
  reject (¬ (levels.map BookLevel.price).Nodup) .ambiguousDelta

def applySide (side : Levels) (levels : List BookLevel) : Levels :=
  levels.foldl (fun side level =>
    if level.quantity.value.isZero then side.erase level.price
    else side.insert level.price (levelValue level)) side

/-- Remove the level `worst` picks until at most `depth` remain. The fuel is the number of
    levels. -/
def truncateLoop (worst : Levels → Option Price) (depth : Nat) : Nat → Levels → Levels
  | 0, side => side
  | fuel + 1, side =>
    if side.size > depth then
      match worst side with
      | some price => truncateLoop worst depth fuel (side.erase price)
      | none => side
    else side

def lowestPrice (side : Levels) : Option Price := side.keys.head?

def highestPrice (side : Levels) : Option Price := side.keys.getLast?

def truncateBids (bids : Levels) (depth : Nat) : Levels :=
  truncateLoop lowestPrice depth bids.size bids

def truncateAsks (asks : Levels) (depth : Nat) : Levels :=
  truncateLoop highestPrice depth asks.size asks

/-- `iter().map(..).collect()` into an ordered map. -/
def collectLevels (levels : List BookLevel) : Levels :=
  levels.foldl (fun side level => side.insert level.price (levelValue level)) ∅

def toBookLevel (entry : Price × LevelValue) : BookLevel :=
  ⟨entry.1, entry.2.quantity, entry.2.orderCount⟩

namespace L2Book

def fromSnapshot (snapshot : BookSnapshot) (config : BookConfig) : Except BookError L2Book := do
  reject (snapshot.lastSequence = 0) .invalidSequence
  reject (snapshot.bids.isEmpty && snapshot.asks.isEmpty) .invalidBook
  validateLevels snapshot.bids false config
  validateLevels snapshot.asks false config
  reject (snapshot.bids.length > config.maxLevelsPerSide
      ∨ snapshot.asks.length > config.maxLevelsPerSide
      ∨ strictlyDescending snapshot.bids = false ∨ strictlyAscending snapshot.asks = false)
    .invalidBook
  return ⟨collectLevels snapshot.bids, collectLevels snapshot.asks, snapshot.lastSequence⟩

def applyDelta (book : L2Book) (delta : BookDelta) (config : BookConfig) :
    Except BookError L2Book := do
  validateLevels delta.bids true config
  validateLevels delta.asks true config
  ensureUniquePrices delta.bids
  ensureUniquePrices delta.asks
  return ⟨truncateBids (applySide book.bids delta.bids) config.maxLevelsPerSide,
    truncateAsks (applySide book.asks delta.asks) config.maxLevelsPerSide, delta.lastSequence⟩

def validateDelta (delta : BookDelta) (config : BookConfig) : Except BookError Unit := do
  reject (delta.bids.isEmpty && delta.asks.isEmpty) .invalidBook
  validateLevels delta.bids true config
  validateLevels delta.asks true config
  ensureUniquePrices delta.bids
  ensureUniquePrices delta.asks

def classification (book : L2Book) : BookClassification :=
  match book.bids.keys.getLast?, book.asks.keys.head? with
  | some bid, some ask =>
    match compare bid ask with
    | .lt => .normal
    | .eq => .locked
    | .gt => .crossed
  | _, _ => .oneSided

def levels (book : L2Book) : Nat := book.bids.size + book.asks.size

def topBids (book : L2Book) (depth : Nat) : List (Price × Quantity) :=
  (book.bids.toList.reverse.take depth).map fun e => (e.1, e.2.quantity)

def topAsks (book : L2Book) (depth : Nat) : List (Price × Quantity) :=
  (book.asks.toList.take depth).map fun e => (e.1, e.2.quantity)

def bidsDescending (book : L2Book) : List BookLevel := book.bids.toList.reverse.map toBookLevel

def asksAscending (book : L2Book) : List BookLevel := book.asks.toList.map toBookLevel

end L2Book

/-! ## The order-level book -/

def maxL3OrderIdBytes : Nat := 192

inductive L3Side where
  | bid
  | ask
  deriving DecidableEq, Repr

def isL3OrderId (value : String) : Bool :=
  !value.toList.isEmpty && decide ((utf8 value).length ≤ maxL3OrderIdBytes)
    && trim value.toList == value.toList && isAscii value.toList && !value.toList.any isControl

@[ext]
structure L3OrderId where
  value : String
  valid : isL3OrderId value = true
  deriving DecidableEq

def L3OrderId.new (value : String) : Except BookError L3OrderId :=
  if h : isL3OrderId value = true then .ok ⟨value, h⟩ else .error .invalidL3Order

instance : Ord L3OrderId := ⟨fun a b => compare a.value b.value⟩

instance : TransOrd L3OrderId where
  eq_swap {a b} := OrientedOrd.eq_swap (a := a.value) (b := b.value)
  isLE_trans {a b c} := TransOrd.isLE_trans (a := a.value) (b := b.value) (c := c.value)

instance : LawfulEqOrd L3OrderId where
  compare_self {a} := ReflOrd.compare_self (a := a.value)
  eq_of_compare h := L3OrderId.ext (LawfulEqOrd.eq_of_compare h)

/-- An order of nonzero quantity. -/
structure L3Order where
  id : L3OrderId
  side : L3Side
  price : Price
  quantity : Quantity
  priorityNs : UInt64
  queueOrder : UInt64
  nonzero : quantity.value.isZero = false
  deriving DecidableEq

def L3Order.new (id : L3OrderId) (side : L3Side) (price : Price) (quantity : Quantity)
    (priorityNs queueOrder : UInt64) : Except BookError L3Order :=
  if h : quantity.value.isZero = false then
    .ok ⟨id, side, price, quantity, priorityNs, queueOrder, h⟩
  else .error .invalidL3Order

inductive L3Event where
  | add (order : L3Order)
  | modify (id : L3OrderId) (quantity : Quantity)
  | delete (id : L3OrderId)
  deriving DecidableEq

def L3Event.id : L3Event → L3OrderId
  | .add order => order.id
  | .modify id _ => id
  | .delete id => id

/-- Priority of an order inside its price level: time, then queue order. -/
abbrev QueueKey := UInt64 × UInt64

def queueCmp : QueueKey → QueueKey → Ordering :=
  compareLex (compareOn Prod.fst) (compareOn Prod.snd)

instance : TransCmp queueCmp :=
  inferInstanceAs (TransCmp (compareLex (compareOn Prod.fst) (compareOn Prod.snd)))

abbrev Queue := ExtTreeMap QueueKey L3OrderId queueCmp

abbrev Queues := ExtTreeMap Price Queue

structure L3Book where
  orders : ExtTreeMap L3OrderId L3Order
  bids : Queues
  asks : Queues

def validateL3Order (order : L3Order) (config : BookConfig) : Except BookError Unit :=
  reject (order.quantity.value.isZero
    || !decimalIsMultiple order.price.value config.priceTick.value
    || !decimalIsMultiple order.quantity.value config.quantityStep.value) .invalidL3Order

namespace L3Book

def side (book : L3Book) : L3Side → Queues
  | .bid => book.bids
  | .ask => book.asks

def withSide (book : L3Book) (s : L3Side) (queues : Queues) : L3Book :=
  match s with
  | .bid => { book with bids := queues }
  | .ask => { book with asks := queues }

def priority (order : L3Order) : QueueKey := (order.priorityNs, order.queueOrder)

def insert (book : L3Book) (order : L3Order) : Except BookError L3Book := do
  reject (book.orders.contains order.id) .ambiguousL3Order
  let queue := ((book.side order.side)[order.price]?).getD ∅
  reject (queue.contains (priority order)) .ambiguousL3Order
  let book := book.withSide order.side
    ((book.side order.side).insert order.price (queue.insert (priority order) order.id))
  return { book with orders := book.orders.insert order.id order }

def remove (book : L3Book) (id : L3OrderId) : Except BookError L3Book := do
  let order ← required book.orders[id]? .unknownL3Order
  let queues := book.side order.side
  let queue ← required queues[order.price]? .invalidL3Order
  reject (queue[priority order]? ≠ some id) .invalidL3Order
  let queue := queue.erase (priority order)
  let queues := if queue.isEmpty then queues.erase order.price else queues.insert order.price queue
  return { book.withSide order.side queues with orders := book.orders.erase id }

def removeLevel (book : L3Book) (s : L3Side) (price : Price) : L3Book :=
  let ids := match (book.side s)[price]? with
    | some queue => queue.values
    | none => []
  { book.withSide s ((book.side s).erase price) with
    orders := ids.foldl (fun orders id => orders.erase id) book.orders }

/-- Drop the worst levels of one side until at most `depth` remain. -/
def truncateSide (depth : Nat) (s : L3Side) : Nat → L3Book → L3Book
  | 0, book => book
  | fuel + 1, book =>
    if (book.side s).size > depth then
      let worst := match s with
        | .bid => book.bids.keys.head?
        | .ask => book.asks.keys.getLast?
      match worst with
      | some price => truncateSide depth s fuel (book.removeLevel s price)
      | none => book
    else book

def truncate (book : L3Book) (depth : Nat) : L3Book :=
  let book := truncateSide depth .bid book.bids.size book
  truncateSide depth .ask book.asks.size book

def empty : L3Book := ⟨∅, ∅, ∅⟩

def insertAll (config : BookConfig) (book : L3Book) : List L3Order → Except BookError L3Book
  | [] => .ok book
  | order :: orders => do
    validateL3Order order config
    let book ← book.insert order
    insertAll config book orders

def fromSnapshot (orders : List L3Order) (config : BookConfig) : Except BookError L3Book := do
  let maximum ← required config.maxL3Orders .l3Disabled
  let depth ← required config.maxL3LevelsPerSide .l3Disabled
  reject (orders.length > maximum) .capacity
  let book ← insertAll config empty orders
  return book.truncate depth

/-- The checks of `apply` before anything is changed: the count of additions and deletions. -/
def checkEvents (book : L3Book) (config : BookConfig) :
    List L3OrderId → Nat × Nat → List L3Event → Except BookError (Nat × Nat)
  | _, counts, [] => .ok counts
  | touched, (additions, deletions), event :: events => do
    reject (event.id ∈ touched) .ambiguousL3Order
    match event with
    | .add order =>
      validateL3Order order config
      reject (book.orders.contains order.id) .ambiguousL3Order
      checkEvents book config (event.id :: touched) (additions + 1, deletions) events
    | .modify id quantity =>
      reject (quantity.value.isZero
        || !decimalIsMultiple quantity.value config.quantityStep.value) .invalidL3Order
      reject (!book.orders.contains id) .unknownL3Order
      checkEvents book config (event.id :: touched) (additions, deletions) events
    | .delete id =>
      reject (!book.orders.contains id) .unknownL3Order
      checkEvents book config (event.id :: touched) (additions, deletions + 1) events

def applyDeletes (book : L3Book) : List L3Event → Except BookError L3Book
  | [] => .ok book
  | .delete id :: events => do
    let book ← book.remove id
    applyDeletes book events
  | _ :: events => applyDeletes book events

/-- `order.quantity = quantity` on a stored order; a checked modification is never zero. -/
def withQuantity (order : L3Order) (quantity : Quantity) : L3Order :=
  if h : quantity.value.isZero = false then { order with quantity, nonzero := h } else order

def applyModifies (book : L3Book) : List L3Event → Except BookError L3Book
  | [] => .ok book
  | .modify id quantity :: events => do
    let order ← required book.orders[id]? .unknownL3Order
    applyModifies { book with orders := book.orders.insert id (withQuantity order quantity) } events
  | _ :: events => applyModifies book events

def applyAdds (book : L3Book) : List L3Event → Except BookError L3Book
  | [] => .ok book
  | .add order :: events => do
    let book ← book.insert order
    applyAdds book events
  | _ :: events => applyAdds book events

def apply (book : L3Book) (events : List L3Event) (config : BookConfig) :
    Except BookError L3Book := do
  let maximum ← required config.maxL3Orders .l3Disabled
  let depth ← required config.maxL3LevelsPerSide .l3Disabled
  reject (events.length > maximum) .capacity
  let (additions, deletions) ← checkEvents book config [] (0, 0) events
  reject (book.orders.size < deletions) .capacity
  reject (book.orders.size - deletions + additions > maximum) .capacity
  let book ← applyDeletes book events
  let book ← applyModifies book events
  let book ← applyAdds book events
  return book.truncate depth

/-- The orders of one side, best level first and by priority inside a level. -/
def sideOrders (book : L3Book) (s : L3Side) (depth : Option Nat) : List L3Order :=
  let queues := match s with
    | .bid => book.bids.values.reverse
    | .ask => book.asks.values
  let shown := match depth with
    | some n => queues.take n
    | none => queues
  shown.flatMap fun queue => queue.values.filterMap fun id => book.orders[id]?

def sortedOrders (book : L3Book) : List L3Order :=
  book.sideOrders .bid none ++ book.sideOrders .ask none

def checksumOrders (book : L3Book) (s : L3Side) : List L3Order := book.sideOrders s (some 10)

end L3Book

/-! ## The published view -/

structure BookSnapshotView where
  instrument : InstrumentId
  priceTick : Price
  quantityStep : Quantity
  bids : List BookLevel
  asks : List BookLevel
  lastSourceSequence : UInt64
  session : BookSession
  classification : BookClassification
  updatedMonotonicNs : UInt64
  quality : BookQuality
  l3Orders : List L3Order
  deriving DecidableEq

def BookSnapshotView.new (config : BookConfig) (book : L2Book) (session : BookSession)
    (updatedMonotonicNs : UInt64) (quality : BookQuality) (l3Orders : List L3Order) :
    BookSnapshotView where
  instrument := config.instrument
  priceTick := config.priceTick
  quantityStep := config.quantityStep
  bids := book.bidsDescending
  asks := book.asksAscending
  lastSourceSequence := book.sequence
  session := session
  classification := book.classification
  updatedMonotonicNs := updatedMonotonicNs
  quality := quality
  l3Orders := l3Orders

/-! ## Samples -/

def sampleDigest : Bytes → Hash32 := fun _ => Vector.replicate 32 0

/-- One level at price 99 with quantity 2. -/
def sampleBid : BookLevel :=
  ⟨⟨.whole 99 (by decide), by decide⟩, ⟨.whole 2 (by decide), by decide⟩, none⟩

/-- One level at price 101 with quantity 3. -/
def sampleAsk : BookLevel :=
  ⟨⟨.whole 101 (by decide), by decide⟩, ⟨.whole 3 (by decide), by decide⟩, none⟩

end CryptoIntelligence.OrderBook
