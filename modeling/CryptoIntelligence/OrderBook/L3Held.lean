/-
  The order-level book that an engine holds. A book comes into the engine only from an order-level
  snapshot or from a batch on the book held before, both of which leave a consistent book within the
  configured bounds. A batch that fails drops the book, so no half-applied one is ever held.
-/
import CryptoIntelligence.OrderBook.L3Batch
import CryptoIntelligence.OrderBook.L3Listing

namespace CryptoIntelligence.OrderBook

open Lib Decimal Event Std L3Book OrderBookEngine

namespace L3Book

/-! ## The number of orders -/

variable {book next : L3Book} {event : L3Event} {events : List L3Event} {config : BookConfig}

theorem size_insert {order : L3Order} (h : book.insert order = .ok next) :
    next.orders.size = book.orders.size + 1 := by
  obtain ⟨hfree, -, rfl⟩ := insert_eq_ok.mp h
  have hnew : ¬ book.orders.contains order.id = true := by
    rw [ExtTreeMap.contains_eq_isSome_getElem?, hfree]
    decide
  unfold inserted
  rw [ExtTreeMap.size_insert, if_neg hnew]

theorem size_deleteStep (h : Consistent book) (hstep : book.deleteStep event = .ok next) :
    next.orders.size = book.orders.size - event.isDelete.toNat := by
  cases event with
  | delete id =>
    obtain ⟨order, horder, rfl⟩ := h.remove_eq_ok.mp hstep
    have hpresent : book.orders.contains id = true := by
      rw [ExtTreeMap.contains_eq_isSome_getElem?, horder]
      rfl
    unfold removed
    rw [ExtTreeMap.size_erase, if_pos hpresent]
    rfl
  | add order =>
    cases hstep
    rfl
  | modify id quantity =>
    cases hstep
    rfl

theorem size_modifyStep
    (hstep : book.modifyStep event = .ok next) : next.orders.size = book.orders.size := by
  cases event with
  | modify id quantity =>
    obtain ⟨order, horder, rfl⟩ := modifyStep_eq_ok.mp hstep
    have hpresent : book.orders.contains id = true := by
      rw [ExtTreeMap.contains_eq_isSome_getElem?, horder]
      rfl
    rw [ExtTreeMap.size_insert, if_pos hpresent]
  | add order =>
    cases hstep
    rfl
  | delete id =>
    cases hstep
    rfl

theorem size_addStep (hstep : book.addStep event = .ok next) :
    next.orders.size = book.orders.size + event.isAdd.toNat := by
  cases event with
  | add order => exact size_insert hstep
  | modify id quantity =>
    cases hstep
    rfl
  | delete id =>
    cases hstep
    rfl

theorem size_deletes (h : Consistent book) (hok : events.foldlM deleteStep book = .ok next) :
    next.orders.size = book.orders.size - events.countP L3Event.isDelete := by
  induction events generalizing book with
  | nil =>
    cases hok
    rfl
  | cons event events ih =>
    rw [List.foldlM_cons, bind_eq_ok] at hok
    obtain ⟨middle, hstep, hrest⟩ := hok
    rw [ih (h.deleteStep hstep) hrest, size_deleteStep h hstep, countP_cons_toNat, Nat.sub_sub]

theorem size_modifies (hok : events.foldlM modifyStep book = .ok next) :
    next.orders.size = book.orders.size := by
  refine foldlM_keeps (fun s : L3Book => s.orders.size = book.orders.size) ?_ rfl hok
  intro event _ s s' hs hstep
  rw [size_modifyStep hstep, hs]

theorem size_adds (hok : events.foldlM addStep book = .ok next) :
    next.orders.size = book.orders.size + events.countP L3Event.isAdd := by
  induction events generalizing book with
  | nil =>
    cases hok
    rfl
  | cons event events ih =>
    rw [List.foldlM_cons, bind_eq_ok] at hok
    obtain ⟨middle, hstep, hrest⟩ := hok
    rw [ih hrest, size_addStep hstep, countP_cons_toNat, Nat.add_assoc]

/-! ## Books within the bounds -/

/-- A book that an engine may hold. -/
structure Held (config : BookConfig) (book : L3Book) : Prop where
  consistent : Consistent book
  bounded : ∃ maximum depth, config.maxL3Orders = some maximum
    ∧ config.maxL3LevelsPerSide = some depth ∧ book.orders.size ≤ maximum
    ∧ ∀ s, (book.side s).size ≤ depth

theorem held_truncate {maximum depth : Nat}
    (h : Consistent book) (hmaximum : config.maxL3Orders = some maximum)
    (hdepth : config.maxL3LevelsPerSide = some depth) (hsize : book.orders.size ≤ maximum) :
    Held config (book.truncate depth) := by
  obtain ⟨hconsistent, horders, hsides⟩ := truncate_truncated book depth
  exact ⟨hconsistent h, maximum, depth, hmaximum, hdepth, horders.trans hsize, hsides⟩

theorem insertAll_spec {orders : List L3Order}
    (h : Consistent book) (hok : insertAll config book orders = .ok next) :
    Consistent next ∧ next.orders.size = book.orders.size + orders.length := by
  induction orders generalizing book with
  | nil =>
    cases hok
    exact ⟨h, rfl⟩
  | cons order orders ih =>
    simp only [insertAll, bind_eq_ok] at hok
    obtain ⟨_, -, middle, hinsert, hrest⟩ := hok
    obtain ⟨hconsistent, hsize⟩ := ih (h.insert hinsert) hrest
    refine ⟨hconsistent, ?_⟩
    rw [hsize, size_insert hinsert, List.length_cons]
    omega

theorem held_fromSnapshot {orders : List L3Order}
    (hok : fromSnapshot orders config = .ok book) : Held config book := by
  simp only [fromSnapshot, bind_eq_ok, required_eq_ok, reject_eq_ok, pure_eq_ok] at hok
  obtain ⟨maximum, hmaximum, depth, hdepth, _, hlength, whole, hwhole, rfl⟩ := hok
  obtain ⟨hconsistent, hsize⟩ := insertAll_spec consistent_empty hwhole
  have hempty : empty.orders.size = 0 := rfl
  exact held_truncate hconsistent hmaximum hdepth (by omega)

theorem Held.apply
    (h : Held config book) (hok : book.apply events config = .ok next) : Held config next := by
  obtain ⟨maximum, depth, hmaximum, hdepth, -, -, -, -, hcapacity, deleted, modified, added,
    hdeleted, hmodified, hadded, rfl⟩ := apply_eq_ok.mp hok
  have hcdeleted : Consistent deleted :=
    foldlM_keeps Consistent (fun _ _ _ _ hs hstep => hs.deleteStep hstep) h.consistent hdeleted
  have hcmodified : Consistent modified :=
    foldlM_keeps Consistent (fun _ _ _ _ hs hstep => hs.modifyStep hstep) hcdeleted hmodified
  have hcadded : Consistent added :=
    foldlM_keeps Consistent (fun _ _ _ _ hs hstep => hs.addStep hstep) hcmodified hadded
  refine held_truncate hcadded hmaximum hdepth ?_
  rw [size_adds hadded, size_modifies hmodified, size_deletes h.consistent hdeleted]
  exact hcapacity

/-- No deletion of a batch finds its order missing from the queue. -/
theorem Consistent.applyDeletes_ne_invalid (h : Consistent book)
    (events : List L3Event) : book.applyDeletes events ≠ .error .invalidL3Order := by
  intro herror
  rw [applyDeletes_eq_foldlM] at herror
  obtain ⟨front, event, later, reached, -, hfront, hstep⟩ := foldlM_eq_error herror
  have hreached : Consistent reached :=
    foldlM_keeps Consistent (fun _ _ _ _ hs hstep => hs.deleteStep hstep) h hfront
  cases event with
  | delete id =>
    cases horder : reached.orders[id]? with
    | none => exact absurd ((remove_of_missing horder).symm.trans hstep) (by simp)
    | some order => exact absurd ((hreached.remove_eq horder).symm.trans hstep) (by simp)
  | add order => cases hstep
  | modify id quantity => cases hstep

end L3Book

/-! ## How a book comes into the engine -/

namespace OrderBookEngine

variable {e : OrderBookEngine} {op : Op} {config : BookConfig}
    {r : Attempt ApplyResult}

/-- Price-level traffic keeps the order-level book or drops it. -/
theorem Effect.l3 (h : Effect e op r) : r.1.l3 = none ∨ r.1.l3 = e.l3 := by
  cases h with
  | declined ho => exact .inr ho.l3
  | duplicate _ ho => exact .inr ho.l3
  | unheard _ ho => exact .inr ho.l3
  | lost ho hl => exact .inr (hl.l3.trans ho.l3)
  | collected _ ho => exact .inr ho.l3
  | streamed _ _ _ _ _ hi => exact .inl hi.l3
  | aligned _ _ _ _ _ _ _ _ _ _ hi => exact .inl hi.l3
  | live _ _ _ _ _ _ hi => exact .inl hi.l3

/-- Whatever book the engine holds is one that may be held. -/
def HoldsL3 (config : BookConfig) (e : OrderBookEngine) : Prop :=
  ∀ book, e.l3 = some book → L3Book.Held config book

theorem HoldsL3.of_l3 {e' : OrderBookEngine} (h : HoldsL3 config e)
    (hl3 : e'.l3 = none ∨ e'.l3 = e.l3) : HoldsL3 config e' := by
  intro book hbook
  rcases hl3 with hnone | hsame
  · rw [hnone] at hbook
    cases hbook
  · exact h book (hsame.symm.trans hbook)

theorem L3Effect.holds (heffect : L3Effect e op r) (h : HoldsL3 e.config e) :
    HoldsL3 e.config r.1 := by
  cases heffect with
  | declined ho => exact h.of_l3 (.inr ho.l3)
  | dropped _ hnone => exact h.of_l3 (.inl hnone)
  | held _ _ _ hcandidate hl3 =>
    intro book hbook
    obtain rfl := Option.some.inj (hl3.symm.trans hbook)
    rcases hcandidate with ⟨orders, hok⟩ | ⟨before, events, hbefore, hok⟩
    · exact L3Book.held_fromSnapshot hok
    · exact (h before hbefore).apply hok

theorem step_holdsL3 (blake3 : Bytes → Hash32) (h : HoldsL3 e.config e) (op : Op) :
    HoldsL3 e.config (e.step blake3 op).1 := by
  have heffect := step_effect blake3 e op
  generalize e.step blake3 op = r at heffect ⊢
  cases heffect with
  | unstarted | unresynced | refused => exact h
  | started | disconnected | resynced => exact h.of_l3 (.inl rfl)
  | updated heffect => exact h.of_l3 heffect.l3
  | ordered _ _ heffect => exact heffect.holds h

end OrderBookEngine

theorem holdsL3_run (blake3 : Bytes → Hash32) {config : BookConfig} {e : OrderBookEngine}
    (hnew : new config = .ok e) (ops : List Op) :
    (e.run blake3 ops).HoldsL3 config := by
  have hstart : e.config = config ∧ e.state = .disconnected ∧ e.l3 = none := by
    unfold new at hnew
    split at hnew
    · cases hnew
      exact ⟨rfl, rfl, rfl⟩
    · cases hnew
  obtain ⟨hconfig, hstate, hnone⟩ := hstart
  refine (run_induction (step blake3)
    (fun _ e => e.config = config ∧ e.state ≠ .replaying ∧ e.HoldsL3 config)
    ⟨hconfig, by rw [hstate]; decide, ?_⟩ ?_ ops).2.2
  · intro book hbook
    rw [hnone] at hbook
    cases hbook
  · rintro calls e op ⟨rfl, hstate, hholds⟩
    obtain ⟨-, hstate', hconfig'⟩ := step_refines blake3 hstate op
    exact ⟨hconfig', hstate', OrderBookEngine.step_holdsL3 blake3 hholds op⟩

/-- Every order-level book of a reachable engine: an id is a key of the orders exactly when it is in
    one slot, that of its order; no price is without orders; the bounds of the configuration hold;
    the list of all orders has each of them once, in order; and no removal finds its order missing
    from its queue. -/
theorem held_l3_consistent (blake3 : Bytes → Hash32) (config : BookConfig) (e : OrderBookEngine)
    (hnew : new config = .ok e) (ops : List Op) (book : L3Book)
    (hbook : (e.run blake3 ops).l3 = some book) :
    (∀ id : L3OrderId, id ∈ book.orders ↔
      ∃! place : L3Side × Price × QueueKey, book.slot place.1 place.2.1 place.2.2 = some id)
    ∧ (∀ (id : L3OrderId) order, book.orders[id]? = some order → order.id = id
      ∧ book.slot order.side order.price (order.priorityNs, order.queueOrder) = some id)
    ∧ (∀ s (price : Price) queue, (book.side s)[price]? = some queue → queue ≠ ∅)
    ∧ (∃ maximum depth, config.maxL3Orders = some maximum ∧ config.maxL3LevelsPerSide = some depth
      ∧ book.orders.size ≤ maximum ∧ book.bids.size ≤ depth ∧ book.asks.size ≤ depth)
    ∧ (∀ order, order ∈ book.sortedOrders ↔ book.orders[order.id]? = some order)
    ∧ book.sortedOrders.Pairwise L3Book.Before ∧ book.sortedOrders.Nodup
    ∧ (∀ id, book.remove id ≠ .error .invalidL3Order)
    ∧ ∀ events, book.applyDeletes events ≠ .error .invalidL3Order := by
  obtain ⟨hconsistent, maximum, depth, hmaximum, hdepth, hsize, hsides⟩ :=
    holdsL3_run blake3 hnew ops book hbook
  obtain ⟨hlisted, hpairwise, hnodup⟩ := hconsistent.sortedOrders_listing
  refine ⟨fun id => ?_, fun id order horder => ?_, fun s => hconsistent.noEmpty s,
    ⟨maximum, depth, hmaximum, hdepth, hsize, hsides .bid, hsides .ask⟩, hlisted, hpairwise, hnodup,
    fun id => ?_, fun events => hconsistent.applyDeletes_ne_invalid events⟩
  · constructor
    · intro hmem
      obtain ⟨order, horder⟩ := Option.isSome_iff_exists.mp
        (ExtTreeMap.mem_iff_isSome_getElem?.mp hmem)
      refine ⟨(order.side, order.price, priority order), hconsistent.slot_of_order horder, ?_⟩
      rintro ⟨s, price, key⟩ hslot
      obtain ⟨found, hfound, rfl, rfl, rfl⟩ := (hconsistent.listed _ _ _ _).mp hslot
      rw [horder] at hfound
      cases hfound
      rfl
    · rintro ⟨⟨s, price, key⟩, hslot, -⟩
      obtain ⟨order, horder, -⟩ := (hconsistent.listed _ _ _ _).mp hslot
      exact ExtTreeMap.mem_iff_isSome_getElem?.mpr (Option.isSome_iff_exists.mpr ⟨order, horder⟩)
  · exact ⟨hconsistent.keyed id order horder, hconsistent.slot_of_order horder⟩
  · have hdeletes := hconsistent.applyDeletes_ne_invalid [.delete id]
    intro herror
    apply hdeletes
    unfold applyDeletes
    rw [herror]
    rfl

theorem sampleBid_parsed :
    parseExact "99" "2" = .ok (sampleBid.price, sampleBid.quantity) := by decide

theorem sampleAsk_parsed :
    parseExact "101" "3" = .ok (sampleAsk.price, sampleAsk.quantity) := by decide

/-- An order of the sample bid with its texts. -/
def exactBid (id : L3OrderId) (queueOrder : UInt64) : ExactL3ChecksumOrder :=
  ⟨sampleOrder id queueOrder, "99", "2", sampleBid_parsed⟩

theorem sampleAsk_nonzero : sampleAsk.quantity.value.isZero = false := by decide

/-- An order of the sample ask with its texts. -/
def exactAsk (id : L3OrderId) (queueOrder : UInt64) : ExactL3ChecksumOrder :=
  ⟨⟨id, .ask, sampleAsk.price, sampleAsk.quantity, 1, queueOrder, sampleAsk_nonzero⟩, "101", "3",
    sampleAsk_parsed⟩

def thirdId : L3OrderId := ⟨"c", by decide⟩

def fourthId : L3OrderId := ⟨"d", by decide⟩

def fifthId : L3OrderId := ⟨"e", by decide⟩

/-- The checksum that both sides have. -/
def checksumOf (asks bids : List ExactL3ChecksumOrder)
    (valid : validL3ChecksumSides asks bids = true) : KrakenV2L3Checksum :=
  ⟨(⟨0, asks, bids, valid⟩ : KrakenV2L3Checksum).computed, asks, bids, valid⟩

/-- A snapshot of two bids and an ask, and a batch that deletes a bid, adds one and adds an
    ask. -/
def batchRun : List Op :=
  [.startSession sampleSession .streamSnapshot, .applySnapshot sampleSnapshot sampleSession 1,
    .applyL3SnapshotChecked
      [(exactBid firstId 1).order, (exactBid secondId 2).order, (exactAsk thirdId 1).order]
      sampleSession 2 0
      (checksumOf [exactAsk thirdId 1] [exactBid firstId 1, exactBid secondId 2] (by decide)),
    .applyL3EventsChecked
      [.delete firstId, .add (exactAsk fourthId 2).order, .add (exactBid fifthId 3).order]
      sampleSession 3 0
      (checksumOf [exactAsk thirdId 1, exactAsk fourthId 2]
        [exactBid secondId 2, exactBid fifthId 3] (by decide))]

/-- The book after the batch holds two orders on each side. -/
theorem held_after_batch :
    ∃ book, ((fresh orderConfig).run sampleDigest batchRun).l3 = some book
      ∧ book.sortedOrders.map L3Order.id = [secondId, fifthId, thirdId, fourthId]
      ∧ book.sortedOrders.Pairwise L3Book.Before
      ∧ ∀ id, book.remove id ≠ .error .invalidL3Order := by
  have hheld : ((fresh orderConfig).run sampleDigest batchRun).l3.map
      (fun book => book.sortedOrders.map L3Order.id) =
          some [secondId, fifthId, thirdId, fourthId] := by
    decide +kernel
  obtain ⟨book, hbook, hids⟩ := Option.map_eq_some_iff.mp hheld
  obtain ⟨-, -, -, -, -, hpairwise, -, hremove, -⟩ := held_l3_consistent
    sampleDigest orderConfig _
    (new_of_validate (by decide)) batchRun book hbook
  exact ⟨book, hbook, hids, hpairwise, hremove⟩

end CryptoIntelligence.OrderBook
