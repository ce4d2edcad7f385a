/-
  The list of all orders of a consistent book: bids before asks, on each side the best price first
  and at one price by priority, and every order once.
-/
import CryptoIntelligence.OrderBook.L3Index

namespace CryptoIntelligence.OrderBook

open Lib Decimal Event Std ExtTreeMap List

namespace L3Book

/-- The order of prices on a side, best first. -/
def betterPrice (s : L3Side) (a b : Price) : Prop :=
  match s with
  | .bid => compare a b = .gt
  | .ask => compare a b = .lt

/-- The order of the list. -/
def Before (a b : L3Order) : Prop :=
  (a.side = .bid ∧ b.side = .ask)
    ∨ (a.side = b.side ∧ (betterPrice a.side a.price b.price
      ∨ (a.price = b.price ∧ queueCmp (priority a) (priority b) = .lt)))

theorem betterPrice_irrefl (s : L3Side) (p : Price) : ¬ betterPrice s p p := by
  cases s with
  | bid =>
    unfold betterPrice
    rw [ReflOrd.compare_self]
    decide
  | ask =>
    unfold betterPrice
    rw [ReflOrd.compare_self]
    decide

theorem before_irrefl (order : L3Order) : ¬ Before order order := by
  rintro (⟨hbid, hask⟩ | ⟨-, hprice | ⟨-, hpriority⟩⟩)
  · rw [hbid] at hask
    cases hask
  · exact betterPrice_irrefl _ _ hprice
  · have hself : queueCmp (priority order) (priority order) = .eq := ReflCmp.compare_self
    rw [hself] at hpriority
    cases hpriority

/-- The levels of a side, best first. -/
def levelsBestFirst (book : L3Book) : L3Side → List (Price × Queue)
  | .bid => book.bids.toList.reverse
  | .ask => book.asks.toList

variable {book : L3Book} {s : L3Side} {level : Price × Queue}

theorem mem_levelsBestFirst :
    level ∈ book.levelsBestFirst s ↔ (book.side s)[level.1]? = some level.2 := by
  cases s with
  | bid =>
    unfold levelsBestFirst
    rw [mem_reverse]
    exact mem_toList_iff_getElem?_eq_some
  | ask => exact mem_toList_iff_getElem?_eq_some

theorem levelsBestFirst_pairwise (book : L3Book) (s : L3Side) :
    (book.levelsBestFirst s).Pairwise fun a b => betterPrice s a.1 b.1 := by
  cases s with
  | bid =>
    unfold levelsBestFirst
    rw [pairwise_reverse]
    refine ordered_keys_toList.imp fun hlt => ?_
    exact OrientedCmp.gt_of_lt hlt
  | ask => exact ordered_keys_toList

/-- The orders of one level by priority. -/
def levelOrders (book : L3Book) (level : Price × Queue) : List L3Order :=
  level.2.toList.filterMap fun entry => book.orders[entry.2]?

theorem sideOrders_eq (book : L3Book) (s : L3Side) :
    book.sideOrders s none = (book.levelsBestFirst s).flatMap book.levelOrders := by
  have hqueue : ∀ queue : Queue, (queue.values.filterMap fun id => book.orders[id]?)
      = queue.toList.filterMap fun entry => book.orders[entry.2]? := by
    intro queue
    rw [values_eq_map_snd, filterMap_map]
    rfl
  unfold sideOrders
  simp only [hqueue]
  cases s with
  | bid =>
    dsimp only
    rw [values_eq_map_snd, ← map_reverse, flatMap_map]
    rfl
  | ask =>
    dsimp only
    rw [values_eq_map_snd, flatMap_map]
    rfl

theorem Consistent.mem_levelOrders (h : Consistent book) (hlevel : level ∈ book.levelsBestFirst s)
    {order : L3Order} :
    order ∈ book.levelOrders level ↔
      book.orders[order.id]? = some order ∧ order.side = s ∧ order.price = level.1 := by
  have hslot : ∀ key, book.slot s level.1 key = level.2[key]? := by
    intro key
    unfold slot Buckets.find
    rw [mem_levelsBestFirst.mp hlevel]
    rfl
  unfold levelOrders
  rw [mem_filterMap]
  constructor
  · rintro ⟨⟨key, id⟩, hentry, horder⟩
    have hfound := mem_toList_iff_getElem?_eq_some.mp hentry
    rw [← hslot key] at hfound
    obtain ⟨found, hsame, hside, hprice, -⟩ := (h.listed _ _ _ _).mp hfound
    rw [horder] at hsame
    cases hsame
    rw [h.keyed id order horder]
    exact ⟨horder, hside, hprice⟩
  · rintro ⟨horder, hside, hprice⟩
    refine ⟨(priority order, order.id), ?_, horder⟩
    apply mem_toList_iff_getElem?_eq_some.mpr
    rw [← hslot]
    exact (h.listed _ _ _ _).mpr ⟨order, horder, hside, hprice, rfl⟩

/-- At one price the list follows the priorities. -/
theorem Consistent.levelOrders_pairwise (h : Consistent book)
    (hlevel : level ∈ book.levelsBestFirst s) :
    (book.levelOrders level).Pairwise fun a b => queueCmp (priority a) (priority b) = .lt := by
  have hpriority : ∀ entry ∈ level.2.toList, ∀ order, book.orders[entry.2]? = some order →
      priority order = entry.1 := by
    intro entry hentry order horder
    have hfound : level.2[entry.1]? = some entry.2 :=
      mem_toList_iff_getElem?_eq_some.mp hentry
    have hslot : book.slot s level.1 entry.1 = some entry.2 := by
      unfold slot Buckets.find
      rw [mem_levelsBestFirst.mp hlevel]
      exact hfound
    obtain ⟨found, hsame, -, -, hkey⟩ := (h.listed _ _ _ _).mp hslot
    rw [horder] at hsame
    cases hsame
    exact hkey
  unfold levelOrders
  rw [pairwise_filterMap]
  refine List.Pairwise.imp_of_mem ?_ ordered_keys_toList
  intro a b ha hb hlt x hx y hy
  rw [hpriority a ha x hx, hpriority b hb y hy]
  exact hlt

theorem Consistent.mem_sideOrders (h : Consistent book)
    {order : L3Order} : order ∈ book.sideOrders s none ↔
      book.orders[order.id]? = some order ∧ order.side = s := by
  rw [sideOrders_eq, mem_flatMap]
  constructor
  · rintro ⟨level, hlevel, horder⟩
    obtain ⟨hfound, hside, -⟩ := (h.mem_levelOrders hlevel).mp horder
    exact ⟨hfound, hside⟩
  · rintro ⟨hfound, rfl⟩
    have hslot := h.slot_of_order hfound
    unfold slot Buckets.find at hslot
    obtain ⟨queue, hqueue, -⟩ := Option.bind_eq_some_iff.mp hslot
    have hlevel : (order.price, queue) ∈ book.levelsBestFirst order.side :=
      mem_levelsBestFirst.mpr hqueue
    exact ⟨_, hlevel, (h.mem_levelOrders hlevel).mpr ⟨hfound, rfl, rfl⟩⟩

theorem Consistent.sideOrders_pairwise (h : Consistent book) (s : L3Side) :
    (book.sideOrders s none).Pairwise Before := by
  rw [sideOrders_eq, pairwise_flatMap]
  refine ⟨fun level hlevel => ?_, ?_⟩
  · refine List.Pairwise.imp_of_mem ?_ (h.levelOrders_pairwise hlevel)
    intro a b ha hb hlt
    obtain ⟨-, haside, haprice⟩ := (h.mem_levelOrders hlevel).mp ha
    obtain ⟨-, hbside, hbprice⟩ := (h.mem_levelOrders hlevel).mp hb
    exact .inr ⟨haside.trans hbside.symm, .inr ⟨haprice.trans hbprice.symm, hlt⟩⟩
  · refine List.Pairwise.imp_of_mem ?_ (book.levelsBestFirst_pairwise s)
    intro first second hfirst hsecond hbetter a ha b hb
    obtain ⟨-, haside, haprice⟩ := (h.mem_levelOrders hfirst).mp ha
    obtain ⟨-, hbside, hbprice⟩ := (h.mem_levelOrders hsecond).mp hb
    refine .inr ⟨haside.trans hbside.symm, .inl ?_⟩
    rw [haside, haprice, hbprice]
    exact hbetter

/-- The list of all orders has every order once, in the order of the list. -/
theorem Consistent.sortedOrders_listing (h : Consistent book) :
    (∀ order, order ∈ book.sortedOrders ↔ book.orders[order.id]? = some order)
      ∧ book.sortedOrders.Pairwise Before ∧ book.sortedOrders.Nodup := by
  have hpairwise : book.sortedOrders.Pairwise Before := by
    unfold sortedOrders
    rw [pairwise_append]
    refine ⟨h.sideOrders_pairwise .bid, h.sideOrders_pairwise .ask, fun a ha b hb => ?_⟩
    exact .inl ⟨(h.mem_sideOrders.mp ha).2, (h.mem_sideOrders.mp hb).2⟩
  refine ⟨fun order => ?_, hpairwise, hpairwise.imp fun hbefore heq => ?_⟩
  · unfold sortedOrders
    rw [mem_append, h.mem_sideOrders, h.mem_sideOrders]
    cases order.side with
    | bid => simp
    | ask => simp
  · subst heq
    exact before_irrefl _ hbefore

end L3Book

end CryptoIntelligence.OrderBook
