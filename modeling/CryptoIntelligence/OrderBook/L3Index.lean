/-
  The order-level book as three maps in step. The queues of both sides are an index over the orders:
  `Consistent` says that a slot (side, price, priority) holds an id exactly when that id is an order
  with that side, price and priority, and that no price is kept without orders. A consistent book is
  determined by its orders, so every operation is described by what it does to them.
-/
import CryptoIntelligence.Lib.Buckets
import CryptoIntelligence.OrderBook.Book

namespace CryptoIntelligence.OrderBook

open Lib Decimal Event Std Buckets ExtTreeMap

instance : LawfulEqCmp queueCmp where
  eq_of_compare {a b} h := by
    unfold queueCmp compareLex at h
    obtain ⟨hfst, hsnd⟩ := Ordering.then_eq_eq.mp h
    exact Prod.ext (LawfulEqOrd.eq_of_compare hfst) (LawfulEqOrd.eq_of_compare hsnd)
  compare_self {a} := by
    unfold queueCmp compareLex
    exact Ordering.then_eq_eq.mpr ⟨ReflOrd.compare_self, ReflOrd.compare_self⟩

namespace L3Book

/-! ## Sides -/

@[simp] theorem side_withSide_self (book : L3Book) (s : L3Side) (queues : Queues) :
    (book.withSide s queues).side s = queues := by
  cases s with
  | bid => rfl
  | ask => rfl

variable {s s' : L3Side} {book next : L3Book} {id : L3OrderId} {order : L3Order} {price : Price}

theorem side_withSide_of_ne (book : L3Book) (queues : Queues) (h : s ≠ s') :
    (book.withSide s queues).side s' = book.side s' := by
  cases s with
  | bid =>
    cases s' with
    | bid => exact absurd rfl h
    | ask => rfl
  | ask =>
    cases s' with
    | bid => rfl
    | ask => exact absurd rfl h

@[simp] theorem orders_withSide (book : L3Book) (s : L3Side) (queues : Queues) :
    (book.withSide s queues).orders = book.orders := by
  cases s with
  | bid => rfl
  | ask => rfl

@[simp] theorem side_withOrders (book : L3Book) (orders : ExtTreeMap L3OrderId L3Order)
    (s : L3Side) : L3Book.side { book with orders } s = book.side s := by
  cases s with
  | bid => rfl
  | ask => rfl

/-- The id in a slot. -/
def slot (book : L3Book) (s : L3Side) (price : Price) (key : QueueKey) : Option L3OrderId :=
  find (book.side s) price key

/-- The order belongs into the slot. -/
def Fills (order : L3Order) (s : L3Side) (price : Price) (key : QueueKey) : Prop :=
  order.side = s ∧ order.price = price ∧ priority order = key

theorem fills_self (order : L3Order) : Fills order order.side order.price (priority order) :=
  ⟨rfl, rfl, rfl⟩

/-- The queues are an index over the orders. -/
structure Consistent (book : L3Book) : Prop where
  keyed : ∀ (id : L3OrderId) order, book.orders[id]? = some order → order.id = id
  listed : ∀ s price key id, book.slot s price key = some id ↔
    ∃ order, book.orders[id]? = some order ∧ Fills order s price key
  noEmpty : ∀ s, Buckets.NoEmpty (book.side s)

theorem Consistent.slot_of_order (h : Consistent book) (horder : book.orders[id]? = some order) :
    book.slot order.side order.price (priority order) = some id :=
  (h.listed _ _ _ _).mpr ⟨order, horder, fills_self order⟩

theorem consistent_empty : Consistent empty where
  keyed id order h := by
    rw [show empty.orders = ∅ from rfl, getElem?_empty] at h
    cases h
  listed s price key id := by
    have hslot : empty.slot s price key = none := by
      unfold slot find
      cases s with
      | bid => rfl
      | ask => rfl
    have horders : empty.orders[id]? = none := getElem?_empty
    simp [hslot, horders]
  noEmpty s price queue h := by
    have hside : (empty.side s)[price]? = none := by
      cases s with
      | bid => exact getElem?_empty
      | ask => exact getElem?_empty
    rw [hside] at h
    cases h

/-- A consistent book is determined by its orders. -/
theorem Consistent.eq_of_orders {other : L3Book} (h : Consistent book) (h' : Consistent other)
    (horders : book.orders = other.orders) : book = other := by
  have hside : ∀ s, book.side s = other.side s := by
    intro s
    refine ext_find (h.noEmpty s) (h'.noEmpty s) fun price key => ?_
    apply Option.ext
    intro id
    exact (h.listed s price key id).trans (horders ▸ (h'.listed s price key id).symm)
  obtain ⟨orders, bids, asks⟩ := book
  obtain ⟨orders', bids', asks'⟩ := other
  have hbids : bids = bids' := hside .bid
  have hasks : asks = asks' := hside .ask
  subst hbids hasks horders
  rfl

/-! ## Insertion -/

/-- What an insertion stores. -/
def inserted (book : L3Book) (order : L3Order) : L3Book :=
  { book.withSide order.side
      (put (book.side order.side) order.price (priority order) order.id) with
    orders := book.orders.insert order.id order }

theorem slot_inserted_self (book : L3Book) (order : L3Order) :
    (book.inserted order).slot order.side order.price (priority order) = some order.id := by
  unfold slot inserted
  rw [side_withOrders, side_withSide_self]
  exact find_put_self _ _ _ _

theorem slot_inserted_of_ne (book : L3Book) (order : L3Order)
    {key : QueueKey} (h : ¬ Fills order s price key) :
    (book.inserted order).slot s price key = book.slot s price key := by
  unfold slot inserted
  rw [side_withOrders]
  by_cases hs : order.side = s
  · subst hs
    rw [side_withSide_self]
    exact find_put_of_ne _ _ fun hsame => h ⟨rfl, hsame⟩
  · rw [side_withSide_of_ne _ _ hs]

theorem insert_eq_ok :
    book.insert order = .ok next ↔ book.orders[order.id]? = none
      ∧ book.slot order.side order.price (priority order) = none ∧ next = book.inserted order := by
  have hslot : ((((book.side order.side)[order.price]?).getD ∅).contains (priority order) = true)
      ↔ ¬ book.slot order.side order.price (priority order) = none := by
    unfold slot
    rw [find_eq_getD, contains_eq_isSome_getElem?, Option.isSome_iff_ne_none]
  have hid : (book.orders.contains order.id = true) ↔ ¬ book.orders[order.id]? = none := by
    rw [contains_eq_isSome_getElem?, Option.isSome_iff_ne_none]
  simp only [insert, bind_eq_ok, reject_eq_ok, pure_eq_ok, hid, hslot, not_not, orders_withSide]
  constructor
  · rintro ⟨_, hfree, _, hopen, rfl⟩
    exact ⟨hfree, hopen, rfl⟩
  · rintro ⟨hfree, hopen, rfl⟩
    exact ⟨(), hfree, (), hopen, rfl⟩

theorem Consistent.inserted (h : Consistent book) (hfree : book.orders[order.id]? = none)
    (hopen : book.slot order.side order.price (priority order) = none) :
    Consistent (book.inserted order) := by
  have hself : (book.inserted order).orders[order.id]? = some order :=
    getElem?_insert_self
  have hother : ∀ id, order.id ≠ id → (book.inserted order).orders[id]? = book.orders[id]? :=
    fun id hid => getElem?_insert_of_ne book.orders order hid
  refine ⟨fun id found hfound => ?_, fun s price key id => ?_, fun s => ?_⟩
  · by_cases hid : order.id = id
    · subst hid
      rw [hself] at hfound
      cases hfound
      rfl
    · rw [hother id hid] at hfound
      exact h.keyed id found hfound
  · by_cases hfills : Fills order s price key
    · obtain ⟨rfl, rfl, rfl⟩ := hfills
      rw [slot_inserted_self]
      constructor
      · rintro ⟨rfl⟩
        exact ⟨order, hself, fills_self order⟩
      · rintro ⟨found, hfound, hsame⟩
        by_cases hid : order.id = id
        · rw [hid]
        · -- another order in this slot would have been found there
          rw [hother id hid] at hfound
          have hslot := (h.listed _ _ _ _).mpr ⟨found, hfound, hsame⟩
          rw [hopen] at hslot
          cases hslot
    · rw [slot_inserted_of_ne book order hfills, h.listed]
      by_cases hid : order.id = id
      · subst hid
        rw [hself, hfree]
        constructor
        · rintro ⟨found, hfound, -⟩
          cases hfound
        · rintro ⟨found, hfound, hsame⟩
          cases hfound
          exact absurd hsame hfills
      · rw [hother id hid]
  · unfold L3Book.inserted
    rw [side_withOrders]
    by_cases hs : order.side = s
    · subst hs
      rw [side_withSide_self]
      exact (h.noEmpty order.side).put _ _ _
    · rw [side_withSide_of_ne _ _ hs]
      exact h.noEmpty s

theorem Consistent.insert (h : Consistent book)
    (hinsert : book.insert order = .ok next) : Consistent next := by
  obtain ⟨hfree, hopen, rfl⟩ := insert_eq_ok.mp hinsert
  exact h.inserted hfree hopen

/-! ## Removal -/

/-- What a removal leaves. -/
def removed (book : L3Book) (id : L3OrderId) (order : L3Order) : L3Book :=
  { book.withSide order.side (drop (book.side order.side) order.price (priority order)) with
    orders := book.orders.erase id }

theorem slot_removed_self (book : L3Book) (id : L3OrderId) (order : L3Order) :
    (book.removed id order).slot order.side order.price (priority order) = none := by
  unfold slot removed
  rw [side_withOrders, side_withSide_self]
  exact find_drop_self _ _ _

theorem slot_removed_of_ne (book : L3Book) (id : L3OrderId) (order : L3Order) {key : QueueKey}
    (h : ¬ Fills order s price key) :
    (book.removed id order).slot s price key = book.slot s price key := by
  unfold slot removed
  rw [side_withOrders]
  by_cases hs : order.side = s
  · subst hs
    rw [side_withSide_self]
    exact find_drop_of_ne _ fun hsame => h ⟨rfl, hsame⟩
  · rw [side_withSide_of_ne _ _ hs]

/-- In a consistent book the queue of an order has it, so its removal succeeds. -/
theorem Consistent.remove_eq (h : Consistent book) (horder : book.orders[id]? = some order) :
    book.remove id = .ok (book.removed id order) := by
  have hslot := h.slot_of_order horder
  unfold slot find at hslot
  obtain ⟨queue, hqueue, hentry⟩ := Option.bind_eq_some_iff.mp hslot
  have hpresent : ¬ queue[priority order]? ≠ some id := not_not.mpr hentry
  unfold remove removed drop
  simp only [horder, required_some, ok_bind, hqueue, reject_neg hpresent, Option.getD_some]
  rfl

theorem remove_of_missing (h : book.orders[id]? = none) :
    book.remove id = .error .unknownL3Order := by
  unfold remove
  rw [h, required_none, error_bind]

theorem Consistent.remove_eq_ok (h : Consistent book) :
    book.remove id = .ok next ↔
      ∃ order, book.orders[id]? = some order ∧ next = book.removed id order := by
  cases horder : book.orders[id]? with
  | none =>
    rw [remove_of_missing horder]
    constructor
    · intro hok
      cases hok
    · rintro ⟨order, hsome, -⟩
      cases hsome
  | some order =>
    rw [h.remove_eq horder]
    constructor
    · intro hok
      exact ⟨order, rfl, (Except.ok.inj hok).symm⟩
    · rintro ⟨found, hsome, rfl⟩
      cases hsome
      rfl

theorem Consistent.removed (h : Consistent book)
    (horder : book.orders[id]? = some order) : Consistent (book.removed id order) := by
  have hself : (book.removed id order).orders[id]? = none := getElem?_erase_self
  have hother : ∀ id', id ≠ id' → (book.removed id order).orders[id']? = book.orders[id']? :=
    fun id' hid => getElem?_erase_of_ne book.orders hid
  refine ⟨fun id' found hfound => ?_, fun s price key id' => ?_, fun s => ?_⟩
  · by_cases hid : id = id'
    · subst hid
      rw [hself] at hfound
      cases hfound
    · rw [hother id' hid] at hfound
      exact h.keyed id' found hfound
  · by_cases hfills : Fills order s price key
    · have hslot : (book.removed id order).slot s price key = none := by
        obtain ⟨rfl, rfl, rfl⟩ := hfills
        exact slot_removed_self book id order
      rw [hslot]
      constructor
      · intro hsome
        cases hsome
      · rintro ⟨found, hfound, hsame⟩
        by_cases hid : id = id'
        · subst hid
          rw [hself] at hfound
          cases hfound
        · -- two orders in one slot are one order
          rw [hother id' hid] at hfound
          have hone := (h.listed s price key id').mpr ⟨found, hfound, hsame⟩
          rw [(h.listed s price key id).mpr ⟨order, horder, hfills⟩] at hone
          exact absurd (Option.some.inj hone) hid
    · rw [slot_removed_of_ne book id order hfills, h.listed]
      by_cases hid : id = id'
      · subst hid
        rw [hself, horder]
        constructor
        · rintro ⟨found, hfound, hsame⟩
          cases hfound
          exact absurd hsame hfills
        · rintro ⟨found, hfound, -⟩
          cases hfound
      · rw [hother id' hid]
  · unfold L3Book.removed
    rw [side_withOrders]
    by_cases hs : order.side = s
    · subst hs
      rw [side_withSide_self]
      exact (h.noEmpty order.side).drop _ _
    · rw [side_withSide_of_ne _ _ hs]
      exact h.noEmpty s

theorem Consistent.remove (h : Consistent book)
    (hremove : book.remove id = .ok next) : Consistent next := by
  obtain ⟨order, horder, rfl⟩ := h.remove_eq_ok.mp hremove
  exact h.removed horder

/-! ## New quantities -/

theorem withQuantity_fills (order : L3Order) (quantity : Quantity) (s : L3Side) (price : Price)
    (key : QueueKey) :
    Fills (withQuantity order quantity) s price key ↔ Fills order s price key := by
  unfold withQuantity
  split
  · exact Iff.rfl
  · exact Iff.rfl

theorem withQuantity_id (order : L3Order) (quantity : Quantity) :
    (withQuantity order quantity).id = order.id := by
  unfold withQuantity
  split
  · rfl
  · rfl

/-- A new quantity moves no order. -/
theorem Consistent.requantified (h : Consistent book) (horder : book.orders[id]? = some order)
    (quantity : Quantity) :
    Consistent { book with orders := book.orders.insert id (withQuantity order quantity) } := by
  refine ⟨fun id' found hfound => ?_, fun s price key id' => ?_, fun s => ?_⟩
  · by_cases hid : id = id'
    · subst hid
      rw [getElem?_insert_self] at hfound
      cases hfound
      rw [withQuantity_id]
      exact h.keyed id order horder
    · rw [getElem?_insert_of_ne book.orders _ hid] at hfound
      exact h.keyed id' found hfound
  · have hslot : slot { book with orders := book.orders.insert id (withQuantity order quantity) }
        s price key = book.slot s price key := by
      unfold slot
      rw [side_withOrders]
    rw [hslot, h.listed]
    by_cases hid : id = id'
    · subst hid
      rw [getElem?_insert_self, horder]
      constructor
      · rintro ⟨found, hfound, hfills⟩
        cases hfound
        exact ⟨_, rfl, (withQuantity_fills order quantity s price key).mpr hfills⟩
      · rintro ⟨found, hfound, hfills⟩
        cases hfound
        exact ⟨_, rfl, (withQuantity_fills order quantity s price key).mp hfills⟩
    · rw [getElem?_insert_of_ne book.orders _ hid]
  · rw [side_withOrders]
    exact h.noEmpty s

/-! ## Truncation -/

/-- The ids of one level. -/
def levelIds (book : L3Book) (s : L3Side) (price : Price) : List L3OrderId :=
  match (book.side s)[price]? with
  | some queue => queue.values
  | none => []

theorem mem_levelIds :
    id ∈ book.levelIds s price ↔ ∃ key, book.slot s price key = some id := by
  unfold levelIds slot find
  cases (book.side s)[price]? with
  | none => simp
  | some queue => exact mem_values

theorem side_removeLevel_self (book : L3Book) (s : L3Side) (price : Price) :
    (book.removeLevel s price).side s = (book.side s).erase price := by
  unfold removeLevel
  dsimp only
  rw [side_withOrders, side_withSide_self]

theorem side_removeLevel_of_ne (book : L3Book) (price : Price) (h : s ≠ s') :
    (book.removeLevel s price).side s' = book.side s' := by
  unfold removeLevel
  dsimp only
  rw [side_withOrders, side_withSide_of_ne _ _ h]

theorem orders_removeLevel (book : L3Book) (s : L3Side) (price : Price) :
    (book.removeLevel s price).orders
      = (book.levelIds s price).foldl (fun orders id => orders.erase id) book.orders := rfl

theorem slot_removeLevel_self (book : L3Book) (s : L3Side) (price : Price) (key : QueueKey) :
    (book.removeLevel s price).slot s price key = none := by
  unfold slot
  rw [side_removeLevel_self]
  exact find_erase_self _ _ _

theorem slot_removeLevel_of_ne (book : L3Book) {price' : Price}
    (key : QueueKey) (h : ¬ (s = s' ∧ price = price')) :
    (book.removeLevel s price).slot s' price' key = book.slot s' price' key := by
  unfold slot
  by_cases hs : s = s'
  · subst hs
    rw [side_removeLevel_self]
    exact find_erase_of_ne _ _ fun hprice => h ⟨rfl, hprice⟩
  · rw [side_removeLevel_of_ne book price hs]

theorem Consistent.removeLevel (h : Consistent book) (s : L3Side) (price : Price) :
    Consistent (book.removeLevel s price) := by
  -- an order goes with its level, and only with it
  have horders : ∀ (id : L3OrderId) order, (book.removeLevel s price).orders[id]? = some order ↔
      book.orders[id]? = some order ∧ ¬ (order.side = s ∧ order.price = price) := by
    intro id order
    obtain ⟨hin, hout⟩ := getElem?_foldl_erase (book.levelIds s price) book.orders id
    rw [orders_removeLevel]
    by_cases hmem : id ∈ book.levelIds s price
    · rw [hin hmem]
      constructor
      · intro hsome
        cases hsome
      · rintro ⟨horder, hlevel⟩
        obtain ⟨key, hslot⟩ := mem_levelIds.mp hmem
        obtain ⟨found, hfound, hside, hprice, -⟩ := (h.listed _ _ _ _).mp hslot
        rw [hfound] at horder
        cases horder
        exact absurd ⟨hside, hprice⟩ hlevel
    · rw [hout hmem]
      constructor
      · intro horder
        refine ⟨horder, fun hlevel => hmem (mem_levelIds.mpr ⟨priority order, ?_⟩)⟩
        exact (h.listed _ _ _ _).mpr ⟨order, horder, hlevel.1, hlevel.2, rfl⟩
      · exact fun hboth => hboth.1
  refine ⟨fun id order horder => ?_, fun s' price' key id => ?_, fun s' => ?_⟩
  · exact h.keyed id order ((horders id order).mp horder).1
  · by_cases hlevel : s = s' ∧ price = price'
    · obtain ⟨rfl, rfl⟩ := hlevel
      rw [slot_removeLevel_self]
      constructor
      · intro hsome
        cases hsome
      · rintro ⟨order, horder, hside, hprice, -⟩
        exact absurd ⟨hside, hprice⟩ ((horders id order).mp horder).2
    · rw [slot_removeLevel_of_ne book key hlevel, h.listed]
      constructor
      · rintro ⟨order, horder, hfills⟩
        refine ⟨order, (horders id order).mpr ⟨horder, fun hsame => hlevel ?_⟩, hfills⟩
        exact ⟨hsame.1.symm.trans hfills.1, hsame.2.symm.trans hfills.2.1⟩
      · rintro ⟨order, horder, hfills⟩
        exact ⟨order, ((horders id order).mp horder).1, hfills⟩
  · by_cases hs : s = s'
    · subst hs
      rw [side_removeLevel_self]
      exact (h.noEmpty s).erase price
    · rw [side_removeLevel_of_ne book price hs]
      exact h.noEmpty s'

theorem size_removeLevel_of_mem (h : price ∈ (book.side s).keys) :
    ((book.removeLevel s price).side s).size = (book.side s).size - 1 := by
  have hmem : price ∈ book.side s := mem_keys.mp h
  rw [side_removeLevel_self, size_erase, if_pos (mem_iff_contains.mp hmem)]

/-- The level that goes first. -/
def worstLevel (book : L3Book) : L3Side → Option Price
  | .bid => book.bids.keys.head?
  | .ask => book.asks.keys.getLast?

theorem truncateSide_succ (depth : Nat) (s : L3Side) (fuel : Nat) (book : L3Book) :
    truncateSide depth s (fuel + 1) book = if (book.side s).size > depth then
      (match book.worstLevel s with
        | some price => truncateSide depth s fuel (book.removeLevel s price)
        | none => book) else book := by
  cases s with
  | bid => rfl
  | ask => rfl

theorem exists_worstLevel (h : 0 < (book.side s).size) :
    ∃ price, book.worstLevel s = some price ∧ price ∈ (book.side s).keys := by
  have hsome : (book.side s).keys ≠ [] := by
    intro hnil
    have hlength := length_keys (t := book.side s)
    rw [hnil, List.length_nil] at hlength
    omega
  cases s with
  | bid => exact ⟨_, List.head?_eq_some_head hsome, List.head_mem hsome⟩
  | ask => exact ⟨_, List.getLast?_eq_some_getLast hsome, List.getLast_mem hsome⟩

/-- What the truncation of one side keeps. -/
structure Truncated (depth : Nat) (s : L3Side) (book next : L3Book) : Prop where
  consistent : Consistent book → Consistent next
  orders : next.orders.size ≤ book.orders.size
  other : ∀ s', s ≠ s' → next.side s' = book.side s'
  bounded : (next.side s).size ≤ depth

theorem truncateSide_truncated (depth : Nat) (s : L3Side) (fuel : Nat) (book : L3Book)
    (hfuel : (book.side s).size ≤ fuel) :
    Truncated depth s book (truncateSide depth s fuel book) := by
  induction fuel generalizing book with
  | zero => exact ⟨id, Nat.le_refl _, fun _ _ => rfl, by unfold truncateSide; omega⟩
  | succ fuel ih =>
    rw [truncateSide_succ]
    split
    · next hmore =>
      obtain ⟨price, hprice, hmem⟩ := exists_worstLevel (Nat.zero_lt_of_lt hmore)
      have hsize := size_removeLevel_of_mem hmem
      have hrest := ih (book.removeLevel s price) (by omega)
      rw [hprice]
      refine ⟨fun h => hrest.consistent (h.removeLevel s price), ?_, fun s' hs => ?_, hrest.bounded⟩
      · refine hrest.orders.trans ?_
        rw [orders_removeLevel]
        exact size_foldl_erase_le _ _
      · exact (hrest.other s' hs).trans (side_removeLevel_of_ne book price hs)
    · next hfits => exact ⟨id, Nat.le_refl _, fun _ _ => rfl, Nat.not_lt.mp hfits⟩

/-- What truncation keeps of a whole book. -/
theorem truncate_truncated (book : L3Book) (depth : Nat) :
    (Consistent book → Consistent (book.truncate depth))
      ∧ (book.truncate depth).orders.size ≤ book.orders.size
      ∧ ∀ s, ((book.truncate depth).side s).size ≤ depth := by
  have hbid := truncateSide_truncated depth .bid book.bids.size book (Nat.le_refl _)
  have hask := truncateSide_truncated depth .ask
    (truncateSide depth .bid book.bids.size book).asks.size
    (truncateSide depth .bid book.bids.size book) (Nat.le_refl _)
  refine ⟨fun h => hask.consistent (hbid.consistent h), hask.orders.trans hbid.orders, fun s => ?_⟩
  cases s with
  | bid =>
    unfold truncate
    dsimp only
    rw [hask.other .bid (by decide)]
    exact hbid.bounded
  | ask => exact hask.bounded

end L3Book

end CryptoIntelligence.OrderBook
