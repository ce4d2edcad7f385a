/-
  Batches of order-level events. The checks and the three passes of `apply` (deletions, new
  quantities, additions) are described for a consistent book. Two events of one batch never touch
  the same order, so each pass is a loop of steps that commute, and the whole batch does not depend
  on the order of its events.
-/
import CryptoIntelligence.OrderBook.L3Index
import CryptoIntelligence.OrderBook.Provenance

namespace CryptoIntelligence.OrderBook

open Lib Decimal Event Std List

/-! ## Checks -/

def L3Event.isAdd : L3Event → Bool
  | .add _ => true
  | _ => false

def L3Event.isDelete : L3Event → Bool
  | .delete _ => true
  | _ => false

namespace L3Book

/-- The check of one event against the book before the batch. -/
def checkEvent (book : L3Book) (config : BookConfig) : L3Event → Except BookError Unit
  | .add order => do
    validateL3Order order config
    reject (book.orders.contains order.id) .ambiguousL3Order
  | .modify id quantity => do
    reject (quantity.value.isZero
      || !decimalIsMultiple quantity.value config.quantityStep.value) .invalidL3Order
    reject (!book.orders.contains id) .unknownL3Order
  | .delete id => reject (!book.orders.contains id) .unknownL3Order

theorem checkEvents_cons (book : L3Book) (config : BookConfig) (touched : List L3OrderId)
    (counts : Nat × Nat) (event : L3Event) (events : List L3Event) :
    checkEvents book config touched counts (event :: events) = (do
      reject (event.id ∈ touched) .ambiguousL3Order
      checkEvent book config event
      checkEvents book config (event.id :: touched)
        (counts.1 + event.isAdd.toNat, counts.2 + event.isDelete.toNat) events) := by
  cases event with
  | add order =>
    conv_lhs => unfold checkEvents
    unfold checkEvent
    simp only [bind_assoc]
    rfl
  | modify id quantity =>
    conv_lhs => unfold checkEvents
    unfold checkEvent
    simp only [bind_assoc]
    rfl
  | delete id =>
    conv_lhs => unfold checkEvents
    unfold checkEvent
    rfl

theorem countP_cons_toNat (p : L3Event → Bool) (event : L3Event) (events : List L3Event) :
    (event :: events).countP p = (p event).toNat + events.countP p := by
  rw [countP_cons, Nat.add_comm]
  cases p event with
  | true => rfl
  | false => rfl

variable {book next : L3Book} {config : BookConfig} {events : List L3Event} {event : L3Event}

/-- What the checks of a batch amount to. -/
theorem checkEvents_eq_ok {touched : List L3OrderId} {counts counts' : Nat × Nat} :
    checkEvents book config touched counts events = .ok counts' ↔
      (∀ event ∈ events, event.id ∉ touched) ∧ (events.map L3Event.id).Nodup
        ∧ (∀ event ∈ events, checkEvent book config event = .ok ())
        ∧ counts' = (counts.1 + events.countP L3Event.isAdd,
          counts.2 + events.countP L3Event.isDelete) := by
  induction events generalizing touched counts with
  | nil =>
    unfold checkEvents
    simp [eq_comm]
  | cons event events ih =>
    rw [checkEvents_cons, forall_mem_cons, forall_mem_cons, map_cons,
      nodup_cons, countP_cons_toNat, countP_cons_toNat, ← Nat.add_assoc, ← Nat.add_assoc]
    simp only [bind_eq_ok, reject_eq_ok, ih, mem_cons, not_or, mem_map]
    constructor
    · rintro ⟨_, htouched, _, hevent, houtside, hnodup, hall, rfl⟩
      refine ⟨⟨htouched, fun e he => (houtside e he).2⟩, ⟨?_, hnodup⟩, ⟨hevent, hall⟩, rfl⟩
      rintro ⟨e, he, heq⟩
      exact (houtside e he).1 heq
    · rintro ⟨⟨htouched, hrest⟩, ⟨hnew, hnodup⟩, ⟨hevent, hall⟩, rfl⟩
      refine ⟨(), htouched, (), hevent, fun e he => ⟨fun heq => hnew ⟨e, he, heq⟩, hrest e he⟩,
        hnodup, hall, rfl⟩

/-! ## One event of a pass -/

def deleteStep (book : L3Book) : L3Event → Except BookError L3Book
  | .delete id => book.remove id
  | _ => .ok book

def modifyStep (book : L3Book) : L3Event → Except BookError L3Book
  | .modify id quantity => do
    let order ← required book.orders[id]? .unknownL3Order
    return { book with orders := book.orders.insert id (withQuantity order quantity) }
  | _ => .ok book

def addStep (book : L3Book) : L3Event → Except BookError L3Book
  | .add order => book.insert order
  | _ => .ok book

theorem applyDeletes_eq_foldlM (book : L3Book) (events : List L3Event) :
    book.applyDeletes events = events.foldlM deleteStep book := by
  induction events generalizing book with
  | nil => rfl
  | cons event events ih =>
    rw [foldlM_cons]
    cases event with
    | delete id =>
      unfold applyDeletes
      simp only [ih]
      rfl
    | add order => exact ih book
    | modify id quantity => exact ih book

theorem applyModifies_eq_foldlM (book : L3Book) (events : List L3Event) :
    book.applyModifies events = events.foldlM modifyStep book := by
  induction events generalizing book with
  | nil => rfl
  | cons event events ih =>
    rw [foldlM_cons]
    cases event with
    | modify id quantity =>
      unfold applyModifies
      simp only [ih, modifyStep, bind_assoc, pure_ok, ok_bind]
    | add order => exact ih book
    | delete id => exact ih book

theorem applyAdds_eq_foldlM (book : L3Book) (events : List L3Event) :
    book.applyAdds events = events.foldlM addStep book := by
  induction events generalizing book with
  | nil => rfl
  | cons event events ih =>
    rw [foldlM_cons]
    cases event with
    | add order =>
      unfold applyAdds
      simp only [ih]
      rfl
    | modify id quantity => exact ih book
    | delete id => exact ih book

theorem modifyStep_eq_ok {id : L3OrderId} {quantity : Quantity} :
    book.modifyStep (.modify id quantity) = .ok next ↔ ∃ order, book.orders[id]? = some order
      ∧ next = { book with orders := book.orders.insert id (withQuantity order quantity) } := by
  simp only [modifyStep, bind_eq_ok, required_eq_ok, pure_eq_ok]
  constructor
  · rintro ⟨order, horder, rfl⟩
    exact ⟨order, horder, rfl⟩
  · rintro ⟨order, horder, rfl⟩
    exact ⟨order, horder, rfl⟩

/-! ## What a step keeps -/

theorem Consistent.deleteStep (h : Consistent book)
    (hstep : book.deleteStep event = .ok next) : Consistent next := by
  cases event with
  | delete id => exact h.remove hstep
  | add order =>
    cases hstep
    exact h
  | modify id quantity =>
    cases hstep
    exact h

theorem Consistent.modifyStep (h : Consistent book)
    (hstep : book.modifyStep event = .ok next) : Consistent next := by
  cases event with
  | modify id quantity =>
    obtain ⟨order, horder, rfl⟩ := modifyStep_eq_ok.mp hstep
    exact h.requantified horder quantity
  | add order =>
    cases hstep
    exact h
  | delete id =>
    cases hstep
    exact h

theorem Consistent.addStep (h : Consistent book)
    (hstep : book.addStep event = .ok next) : Consistent next := by
  cases event with
  | add order => exact h.insert hstep
  | modify id quantity =>
    cases hstep
    exact h
  | delete id =>
    cases hstep
    exact h

/-- A batch that goes through, taken apart. -/
theorem apply_eq_ok :
    book.apply events config = .ok next ↔
      ∃ maximum depth, config.maxL3Orders = some maximum ∧ config.maxL3LevelsPerSide = some depth
        ∧ events.length ≤ maximum ∧ (events.map L3Event.id).Nodup
        ∧ (∀ event ∈ events, checkEvent book config event = .ok ())
        ∧ events.countP L3Event.isDelete ≤ book.orders.size
        ∧ book.orders.size - events.countP L3Event.isDelete + events.countP L3Event.isAdd ≤ maximum
        ∧ ∃ deleted modified added, events.foldlM L3Book.deleteStep book = .ok deleted
          ∧ events.foldlM L3Book.modifyStep deleted = .ok modified
          ∧ events.foldlM L3Book.addStep modified = .ok added ∧ next = added.truncate depth := by
  simp only [apply, bind_eq_ok, required_eq_ok, reject_eq_ok, checkEvents_eq_ok, pure_eq_ok,
    applyDeletes_eq_foldlM, applyModifies_eq_foldlM, applyAdds_eq_foldlM, Nat.not_lt, Nat.zero_add,
    gt_iff_lt]
  constructor
  · rintro ⟨maximum, hmaximum, depth, hdepth, _, hlength, counts, ⟨-, hnodup, hchecks, rfl⟩, _,
      hdeletions, _, hcapacity, deleted, hdeleted, modified, hmodified, added, hadded, rfl⟩
    exact ⟨maximum, depth, hmaximum, hdepth, hlength, hnodup, hchecks, hdeletions,
      hcapacity, deleted, modified, added, hdeleted, hmodified, hadded, rfl⟩
  · rintro ⟨maximum, depth, hmaximum, hdepth, hlength, hnodup, hchecks, hdeletions, hcapacity,
      deleted, modified, added, hdeleted, hmodified, hadded, rfl⟩
    exact ⟨maximum, hmaximum, depth, hdepth, (), hlength, _,
      ⟨fun _ _ => not_mem_nil, hnodup, hchecks, rfl⟩, (), hdeletions, (), hcapacity, deleted,
      hdeleted, modified, hmodified, added, hadded, rfl⟩

/-! ## Steps commute -/

/-- The events touch different orders. -/
def Apart (a b : L3Event) : Prop := a.id ≠ b.id

theorem remove_comm (h : Consistent book) {a b : L3OrderId} (hne : a ≠ b)
    (hok : (book.remove a >>= fun t => t.remove b) = .ok next) :
    (book.remove b >>= fun t => t.remove a) = .ok next := by
  obtain ⟨middle, hremove, hremove'⟩ := bind_eq_ok.mp hok
  obtain ⟨first, hfirst, rfl⟩ := h.remove_eq_ok.mp hremove
  have hmiddle := h.removed hfirst
  obtain ⟨second, hsecond, rfl⟩ := hmiddle.remove_eq_ok.mp hremove'
  have hother : book.orders[b]? = some second :=
    (getElem?_erase_of_ne book.orders hne).symm.trans hsecond
  have hmiddle' := h.removed hother
  have hfirst' : (book.removed b second).orders[a]? = some first :=
    (getElem?_erase_of_ne book.orders hne.symm).trans hfirst
  refine bind_eq_ok.mpr ⟨_, h.remove_eq hother, ?_⟩
  rw [hmiddle'.remove_eq hfirst']
  congr 1
  exact (hmiddle'.removed hfirst').eq_of_orders (hmiddle.removed hsecond)
    (erase_comm book.orders b a)

theorem modify_comm {a b : L3OrderId} (hne : a ≠ b) (q r : Quantity)
    (hok : (book.modifyStep (.modify a q) >>= fun t => t.modifyStep (.modify b r)) = .ok next) :
    (book.modifyStep (.modify b r) >>= fun t => t.modifyStep (.modify a q)) = .ok next := by
  obtain ⟨middle, hmodify, hmodify'⟩ := bind_eq_ok.mp hok
  obtain ⟨first, hfirst, rfl⟩ := modifyStep_eq_ok.mp hmodify
  obtain ⟨second, hsecond, rfl⟩ := modifyStep_eq_ok.mp hmodify'
  have hother : book.orders[b]? = some second :=
    (getElem?_insert_of_ne book.orders _ hne).symm.trans hsecond
  refine bind_eq_ok.mpr ⟨_, modifyStep_eq_ok.mpr ⟨second, hother, rfl⟩, ?_⟩
  refine modifyStep_eq_ok.mpr ⟨first, ?_, ?_⟩
  · rw [getElem?_insert_of_ne book.orders _ hne.symm]
    exact hfirst
  · rw [insert_comm book.orders hne.symm]

/-- Two orders that can both be added go into two slots. -/
theorem insert_comm_of_ne (h : Consistent book) {a b : L3Order}
    (hne : a.id ≠ b.id) (hok : (book.insert a >>= fun t => t.insert b) = .ok next) :
    (book.insert b >>= fun t => t.insert a) = .ok next := by
  obtain ⟨middle, hfirst, hsecond⟩ := bind_eq_ok.mp hok
  obtain ⟨hafree, haopen, rfl⟩ := insert_eq_ok.mp hfirst
  obtain ⟨hbfree, hbopen, rfl⟩ := insert_eq_ok.mp hsecond
  have hmiddle := h.inserted hafree haopen
  have hslots : ¬ Fills a b.side b.price (priority b) := by
    rintro ⟨hside, hprice, hkey⟩
    rw [← hside, ← hprice, ← hkey, slot_inserted_self] at hbopen
    cases hbopen
  have hbfree' : book.orders[b.id]? = none :=
    (getElem?_insert_of_ne book.orders a hne).symm.trans hbfree
  have hbopen' : book.slot b.side b.price (priority b) = none :=
    (slot_inserted_of_ne book a hslots).symm.trans hbopen
  have hafree' : (book.inserted b).orders[a.id]? = none :=
    (getElem?_insert_of_ne book.orders b hne.symm).trans hafree
  have hslots' : ¬ Fills b a.side a.price (priority a) := by
    rintro ⟨hside, hprice, hkey⟩
    exact hslots ⟨hside.symm, hprice.symm, hkey.symm⟩
  have haopen' : (book.inserted b).slot a.side a.price (priority a) = none :=
    (slot_inserted_of_ne book b hslots').trans haopen
  have hmiddle' := h.inserted hbfree' hbopen'
  refine bind_eq_ok.mpr ⟨_, insert_eq_ok.mpr ⟨hbfree', hbopen', rfl⟩, ?_⟩
  refine insert_eq_ok.mpr ⟨hafree', haopen', ?_⟩
  exact (hmiddle.inserted hbfree hbopen).eq_of_orders (hmiddle'.inserted hafree' haopen')
    (insert_comm book.orders hne a b)

theorem deleteStep_comm (h : Consistent book) {a b : L3Event} (hne : Apart a b)
    (hok : (book.deleteStep a >>= fun t => t.deleteStep b) = .ok next) :
    (book.deleteStep b >>= fun t => t.deleteStep a) = .ok next := by
  cases a with
  | delete a =>
    cases b with
    | delete b => exact remove_comm h hne hok
    | add order => exact (bind_pure (book.remove a)).symm.trans hok
    | modify id quantity => exact (bind_pure (book.remove a)).symm.trans hok
  | add order => exact (bind_pure (book.deleteStep b)).trans hok
  | modify id quantity => exact (bind_pure (book.deleteStep b)).trans hok

theorem modifyStep_comm {a b : L3Event} (hne : Apart a b)
    (hok : (book.modifyStep a >>= fun t => t.modifyStep b) = .ok next) :
    (book.modifyStep b >>= fun t => t.modifyStep a) = .ok next := by
  cases a with
  | modify a q =>
    cases b with
    | modify b r => exact modify_comm hne q r hok
    | add order => exact (bind_pure (book.modifyStep (.modify a q))).symm.trans hok
    | delete id => exact (bind_pure (book.modifyStep (.modify a q))).symm.trans hok
  | add order => exact (bind_pure (book.modifyStep b)).trans hok
  | delete id => exact (bind_pure (book.modifyStep b)).trans hok

theorem addStep_comm (h : Consistent book) {a b : L3Event} (hne : Apart a b)
    (hok : (book.addStep a >>= fun t => t.addStep b) = .ok next) :
    (book.addStep b >>= fun t => t.addStep a) = .ok next := by
  cases a with
  | add a =>
    cases b with
    | add b => exact insert_comm_of_ne h hne hok
    | modify id quantity => exact (bind_pure (book.insert a)).symm.trans hok
    | delete id => exact (bind_pure (book.insert a)).symm.trans hok
  | modify id quantity => exact (bind_pure (book.addStep b)).trans hok
  | delete id => exact (bind_pure (book.addStep b)).trans hok

/-! ## The order of a batch -/

theorem apply_of_perm (h : Consistent book) {events' : List L3Event} (hperm : events.Perm events')
    (hok : book.apply events config = .ok next) : book.apply events' config = .ok next := by
  obtain ⟨maximum, depth, hmaximum, hdepth, hlength, hnodup, hchecks, hdeletions,
    hcapacity, deleted, modified, added, hdeleted, hmodified, hadded, rfl⟩ := apply_eq_ok.mp hok
  have hapart : events.Pairwise Apart := (pairwise_map (R := (· ≠ ·))).mp hnodup
  have hsymm : ∀ a b : L3Event, Apart a b → Apart b a := fun a b hab => Ne.symm hab
  have hcdeleted : Consistent deleted :=
    foldlM_keeps Consistent (fun _ _ _ _ hs hstep => hs.deleteStep hstep) h hdeleted
  have hcmodified : Consistent modified :=
    foldlM_keeps Consistent (fun _ _ _ _ hs hstep => hs.modifyStep hstep) hcdeleted hmodified
  refine apply_eq_ok.mpr ⟨maximum, depth, hmaximum, hdepth, ?_, ?_, ?_, ?_, ?_, deleted, modified,
    added, ?_, ?_, ?_, rfl⟩
  · rw [← hperm.length_eq]
    exact hlength
  · exact (hperm.map L3Event.id).nodup_iff.mp hnodup
  · exact fun event hevent => hchecks event (hperm.mem_iff.mpr hevent)
  · rw [← hperm.countP_eq]
    exact hdeletions
  · rw [← hperm.countP_eq, ← hperm.countP_eq]
    exact hcapacity
  · refine foldlM_perm hsymm ?_ ?_ hperm hapart h hdeleted
    · exact fun _ _ _ hs hstep => Consistent.deleteStep hs hstep
    · exact fun _ _ _ _ hs hab hstep => deleteStep_comm hs hab hstep
  · refine foldlM_perm hsymm ?_ ?_ hperm hapart hcdeleted hmodified
    · exact fun _ _ _ hs hstep => Consistent.modifyStep hs hstep
    · exact fun _ _ _ _ _ hab hstep => modifyStep_comm hab hstep
  · refine foldlM_perm hsymm ?_ ?_ hperm hapart hcmodified hadded
    · exact fun _ _ _ hs hstep => Consistent.addStep hs hstep
    · exact fun _ _ _ _ hs hab hstep => addStep_comm hs hab hstep

/-- A batch on a consistent book succeeds in every order of its events or in none, with the same
    book. -/
theorem apply_order_independent (book : L3Book) (hbook : Consistent book) (config : BookConfig)
    (events events' : List L3Event) (hperm : events.Perm events') (next : L3Book) :
    book.apply events config = .ok next ↔ book.apply events' config = .ok next :=
  ⟨apply_of_perm hbook hperm, apply_of_perm hbook hperm.symm⟩

/-- The sample configuration with order-level data. -/
def orderConfig : BookConfig :=
  { sampleConfig .rangeContainsNext with maxL3Orders := some 10, maxL3LevelsPerSide := some 10 }

theorem sampleBid_nonzero : sampleBid.quantity.value.isZero = false := by decide

/-- An order at the price of the sample bid. -/
def sampleOrder (id : L3OrderId) (queueOrder : UInt64) : L3Order :=
  ⟨id, .bid, sampleBid.price, sampleBid.quantity, 1, queueOrder, sampleBid_nonzero⟩

def firstId : L3OrderId := ⟨"a", by decide⟩

def secondId : L3OrderId := ⟨"b", by decide⟩

/-- Two orders of one queue, added in both orders. -/
theorem apply_two_orders :
    ∃ next, empty.apply [.add (sampleOrder firstId 1), .add (sampleOrder secondId 2)] orderConfig
        = .ok next
      ∧ empty.apply [.add (sampleOrder secondId 2), .add (sampleOrder firstId 1)] orderConfig
        = .ok next := by
  obtain ⟨next, hnext⟩ : ∃ next, empty.apply
      [.add (sampleOrder firstId 1), .add (sampleOrder secondId 2)] orderConfig =
        .ok next := ⟨_, rfl⟩
  exact ⟨next, hnext, (apply_order_independent empty consistent_empty orderConfig _ _
    (.swap _ _ []) next).mp hnext⟩

end L3Book

end CryptoIntelligence.OrderBook
