/-
  Source-exact Kraken v2 checksums (`orderbook/src/checksum.rs`): the decimal texts of the top
  levels or orders are kept as the venue wrote them, matched against the book by value and fed to
  the IEEE CRC32. The structures carry what their constructors check.
-/
import CryptoIntelligence.Lib.Crc
import CryptoIntelligence.OrderBook.Book

namespace CryptoIntelligence.OrderBook

open Lib Decimal Event

def krakenChecksumDepth : Nat := 10

def maxDecimalTextBytes : Nat := 128

def validDecimalText (value : String) : Bool :=
  !value.toList.isEmpty && decide ((utf8 value).length ≤ maxDecimalTextBytes)
    && trim value.toList == value.toList && isAscii value.toList
    && !(value.toList.head? == some '-' || value.toList.head? == some '+')
    && !(value.toList.contains 'e' || value.toList.contains 'E')

/-- Any decimal failure is an invalid checksum input. -/
def asChecksumInput {α : Type} (x : Except DecimalError α) : Except BookError α :=
  match x with
  | .ok a => .ok a
  | .error _ => .error .invalidChecksumInput

/-- The values of a source-formatted price and quantity. -/
def parseExact (priceText quantityText : String) : Except BookError (Price × Quantity) := do
  reject (!validDecimalText priceText || !validDecimalText quantityText) .invalidChecksumInput
  let price ← asChecksumInput (FixedDecimal.parse priceText)
  let price ← asChecksumInput (Price.new price)
  let quantity ← asChecksumInput (FixedDecimal.parse quantityText)
  let quantity ← asChecksumInput (Quantity.new quantity)
  return (price, quantity)

/-! ## Price levels -/

/-- One exact source-formatted price/quantity pair used in a venue checksum. -/
structure ExactChecksumLevel where
  priceText : String
  quantityText : String
  price : Price
  quantity : Quantity
  parsed : parseExact priceText quantityText = .ok (price, quantity)
  nonzero : quantity.value.isZero = false

def ExactChecksumLevel.new (priceText quantityText : String) :
    Except BookError ExactChecksumLevel := do
  let ⟨(price, quantity), parsed⟩ ← attach (parseExact priceText quantityText)
  if nonzero : quantity.value.isZero = false then
    return ⟨priceText, quantityText, price, quantity, parsed, nonzero⟩
  else throw .invalidChecksumInput

/-- Adjacent levels compare as `order` says. -/
def exactOrdered (order : Ordering) : List ExactChecksumLevel → Bool
  | a :: b :: rest => compare a.price b.price == order && exactOrdered order (b :: rest)
  | _ => true

/-- The shape of a top-ten observation. -/
def validChecksumSides (asks bids : List ExactChecksumLevel) : Bool :=
  decide (asks.length ≤ krakenChecksumDepth) && decide (bids.length ≤ krakenChecksumDepth)
    && !(asks.isEmpty && bids.isEmpty) && exactOrdered .lt asks && exactOrdered .gt bids

/-- Source-exact Kraken WebSocket v2 top-ten CRC32 observation. -/
structure KrakenV2Checksum where
  expected : UInt32
  asks : List ExactChecksumLevel
  bids : List ExactChecksumLevel
  valid : validChecksumSides asks bids = true

def KrakenV2Checksum.new (expected : UInt32) (asks bids : List ExactChecksumLevel) :
    Except BookError KrakenV2Checksum :=
  if valid : validChecksumSides asks bids = true then .ok ⟨expected, asks, bids, valid⟩
  else .error .invalidChecksumInput

/-- The digits of a decimal text without the point and the leading zeros. -/
def checksumDecimal (value : String) : Bytes :=
  let digits := ((utf8 value).filter (· != 0x2e)).dropWhile (· == 0x30)
  if digits.isEmpty then [0x30] else digits

namespace KrakenV2Checksum

def computed (c : KrakenV2Checksum) : UInt32 :=
  ieeeCrc32 ((c.asks ++ c.bids).flatMap fun level =>
    checksumDecimal level.priceText ++ checksumDecimal level.quantityText)

def matchesExpected (c : KrakenV2Checksum) : Bool := c.computed == c.expected

/-- The exact levels agree in value with the top of a side. -/
def sideMatches (exact : List ExactChecksumLevel) (top : List (Price × Quantity)) : Bool :=
  (exact.zip top).all fun (source, price, quantity) =>
    source.price == price && source.quantity == quantity

def verifyBook (c : KrakenV2Checksum) (book : L2Book) : Except BookError Bool := do
  reject (c.asks.length ≠ min book.asks.size krakenChecksumDepth
    ∨ c.bids.length ≠ min book.bids.size krakenChecksumDepth) .invalidChecksumInput
  if sideMatches c.asks (book.topAsks krakenChecksumDepth)
      && sideMatches c.bids (book.topBids krakenChecksumDepth) then
    return c.matchesExpected
  else throw .invalidChecksumInput

end KrakenV2Checksum

/-! ## Orders -/

/-- One source-exact L3 order retained for Kraken queue checksum validation. -/
structure ExactL3ChecksumOrder where
  order : L3Order
  priceText : String
  quantityText : String
  parsed : parseExact priceText quantityText = .ok (order.price, order.quantity)

def ExactL3ChecksumOrder.new (order : L3Order) (priceText quantityText : String) :
    Except BookError ExactL3ChecksumOrder :=
  if parsed : parseExact priceText quantityText = .ok (order.price, order.quantity) then
    .ok ⟨order, priceText, quantityText, parsed⟩
  else .error .invalidChecksumInput

/-- Adjacent orders of a side are in price order and, at one price, in priority order. -/
def l3Ordered (side : L3Side) : List ExactL3ChecksumOrder → Bool
  | a :: b :: rest =>
    let prices := compare a.order.price b.order.price
    let pricesOrdered := match side with
      | .ask => prices.isLE
      | .bid => prices.isGE
    pricesOrdered
      && (prices != .eq || queueCmp (L3Book.priority a.order) (L3Book.priority b.order) == .lt)
      && l3Ordered side (b :: rest)
  | _ => true

def validL3ChecksumSide (orders : List ExactL3ChecksumOrder) (side : L3Side) : Bool :=
  orders.all (fun o => o.order.side == side)
    && decide ((orders.map fun o => o.order.price).dedup.length ≤ krakenChecksumDepth)
    && l3Ordered side orders

/-- The shape of an order-level observation: each side in order, every order id once. -/
def validL3ChecksumSides (asks bids : List ExactL3ChecksumOrder) : Bool :=
  !(asks.isEmpty && bids.isEmpty) && validL3ChecksumSide asks .ask
    && validL3ChecksumSide bids .bid && decide ((asks ++ bids).map fun o => o.order.id).Nodup

/-- Source-exact Kraken WebSocket v2 L3 CRC32 observation. -/
structure KrakenV2L3Checksum where
  expected : UInt32
  asks : List ExactL3ChecksumOrder
  bids : List ExactL3ChecksumOrder
  valid : validL3ChecksumSides asks bids = true

def KrakenV2L3Checksum.new (expected : UInt32) (asks bids : List ExactL3ChecksumOrder) :
    Except BookError KrakenV2L3Checksum :=
  if valid : validL3ChecksumSides asks bids = true then .ok ⟨expected, asks, bids, valid⟩
  else .error .invalidChecksumInput

namespace KrakenV2L3Checksum

def computed (c : KrakenV2L3Checksum) : UInt32 :=
  ieeeCrc32 ((c.asks ++ c.bids).flatMap fun order =>
    checksumDecimal order.priceText ++ checksumDecimal order.quantityText)

def matchesExpected (c : KrakenV2L3Checksum) : Bool := c.computed == c.expected

def verifyBook (c : KrakenV2L3Checksum) (book : L3Book) : Except BookError Bool := do
  reject (c.asks.map ExactL3ChecksumOrder.order ≠ book.checksumOrders .ask
    ∨ c.bids.map ExactL3ChecksumOrder.order ≠ book.checksumOrders .bid) .invalidChecksumInput
  return c.matchesExpected

end KrakenV2L3Checksum

end CryptoIntelligence.OrderBook
