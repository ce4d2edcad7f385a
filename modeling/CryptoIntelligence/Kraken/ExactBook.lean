/-
  The exact book of the synchronizer and the book of its engine hold the same levels. The
  synchronizer applies the levels of a message one after the other; the engine gets a snapshot
  that lists the exact book, or a delta with the last level of each price.

  What is proved: forgetting the texts (`visible`) takes one application to the other
  (`visible_applyLevels`, `visible_truncateBids`, `visible_truncateAsks`), a listed side is
  collected back (`collectLevels_descending`, `collectLevels_ascending`), and the engine lists a
  side as the synchronizer does (`Shown.bidsDescending`, `Shown.asksAscending`).
-/
import CryptoIntelligence.OrderBook.Levels
import CryptoIntelligence.Kraken.BookSync

namespace CryptoIntelligence.Kraken

open Lib Decimal Event OrderBook
open Std (ExtTreeMap)

/-! ## Sides -/

/-- A side without its texts, as the engine holds it. -/
def visible (side : NativeLevels) : Levels := side.map fun _ level => ⟨level.quantity, none⟩

theorem getElem?_visible (side : NativeLevels) (price : Price) :
    (visible side)[price]? = side[price]?.map fun level => ⟨level.quantity, none⟩ :=
  ExtTreeMap.getElem?_map

/-- The engine's fold over a delta is a list of changes. -/
theorem applySide_eq_upsertAll (side : Levels) (levels : List BookLevel) :
    applySide side levels = upsertAll BookLevel.price
      (fun level => if level.quantity.value.isZero then none else some (levelValue level))
      side levels := by
  unfold applySide upsertAll
  congr 1
  funext side level
  dsimp only
  cases level.quantity.value.isZero <;> rfl

theorem collectLevels_eq_upsertAll (levels : List BookLevel) :
    collectLevels levels = upsertAll BookLevel.price
      (fun level => some (levelValue level)) ∅ levels :=
  rfl

theorem truncateLoop_eq_dropWorst (worst : List Price → Option Price) (depth : Nat) :
    ∀ fuel (side : Levels), truncateLoop (fun side => worst side.keys) depth fuel side =
      dropWorst worst depth fuel side
  | 0, _ => rfl
  | fuel + 1, side => by
    unfold truncateLoop dropWorst
    split
    · cases worst side.keys with
      | none => rfl
      | some price => exact truncateLoop_eq_dropWorst worst depth fuel _
    · rfl

/-- The level each price ends with is the last one of the message. -/
theorem lastAt_collapsed (levels : List NativeBookLevel) (price : Price) :
    lastAt BookLevel.price price (collapsedBookLevels levels) =
      (lastAt NativeBookLevel.price price levels).map bookLevel := by
  have hkeyed : Keyed BookLevel.price (upsertAll NativeBookLevel.price
      (fun level => some (bookLevel level)) (∅ : ExtTreeMap Price BookLevel) levels) :=
    (keyed_empty _).upsertAll (fun level value h => by rw [← Option.some.inj h]; rfl) levels
  unfold collapsedBookLevels
  rw [lastAt_of_mem_iff hkeyed (mem_values_iff hkeyed), getElem?_upsertAll]
  cases lastAt NativeBookLevel.price price levels with
  | none => simp
  | some level => rfl

/-- Applying a message and forgetting the texts is applying its delta. -/
theorem visible_applyLevels (side : NativeLevels) (levels : List NativeBookLevel) :
    visible (applyLevels side levels) = applySide (visible side) (collapsedBookLevels levels) := by
  refine ExtTreeMap.ext_getElem? fun price => ?_
  rw [getElem?_visible, applySide_eq_upsertAll, applyLevels, getElem?_upsertAll, getElem?_upsertAll,
    lastAt_collapsed, getElem?_visible]
  cases lastAt NativeBookLevel.price price levels with
  | none => rfl
  | some level =>
    change Option.map _ (if level.quantity.value.isZero = true then none else some level) =
      if level.quantity.value.isZero = true then none else some (levelValue (bookLevel level))
    split <;> rfl

theorem visible_truncateBids (side : NativeLevels) (depth : Nat) :
    visible (truncateBids side depth) = OrderBook.truncateBids (visible side) depth := by
  unfold truncateBids OrderBook.truncateBids visible
  rw [map_dropWorst, ExtTreeMap.size_map]
  exact (truncateLoop_eq_dropWorst List.head? depth _ _).symm

theorem visible_truncateAsks (side : NativeLevels) (depth : Nat) :
    visible (truncateAsks side depth) = OrderBook.truncateAsks (visible side) depth := by
  unfold truncateAsks OrderBook.truncateAsks visible
  rw [map_dropWorst, ExtTreeMap.size_map]
  exact (truncateLoop_eq_dropWorst List.getLast? depth _ _).symm

/-! ## Levels stored under their own price -/

theorem keyed_applyLevels {side : NativeLevels} (h : Keyed NativeBookLevel.price side)
    (levels : List NativeBookLevel) : Keyed NativeBookLevel.price (applyLevels side levels) := by
  refine h.upsertAll (fun level value hvalue => ?_) levels
  split at hvalue
  · cases hvalue
  · rw [Option.some.inj hvalue]

/-- Both sides store each level under its own price. -/
structure ExactBook.Keyed (book : ExactBook) : Prop where
  bids : Lib.Keyed NativeBookLevel.price book.bids
  asks : Lib.Keyed NativeBookLevel.price book.asks

theorem ExactBook.keyed_empty : ExactBook.empty.Keyed := ⟨Lib.keyed_empty _, Lib.keyed_empty _⟩

theorem ExactBook.Keyed.apply {book : ExactBook} (h : book.Keyed) (depth : Nat)
    (message : SpotBookMessage) : (book.apply depth message).Keyed :=
  ⟨(keyed_applyLevels h.bids message.bids).dropWorst _ _ _,
    (keyed_applyLevels h.asks message.asks).dropWorst _ _ _⟩

theorem ExactBook.Keyed.foldl {depth : Nat} {messages : List SpotBookMessage} {book : ExactBook}
    (h : book.Keyed) :
    (messages.foldl (fun book message => book.apply depth message) book).Keyed := by
  induction messages generalizing book with
  | nil => exact h
  | cons message messages ih => exact ih (h.apply depth message)

/-- A listed side says at each price what the side says. -/
theorem collectLevels_of_mem {side : NativeLevels} {levels : List NativeBookLevel}
    (h : Keyed NativeBookLevel.price side)
    (hmem : ∀ level, level ∈ levels ↔ side[level.price]? = some level) :
    collectLevels (levels.map bookLevel) = visible side := by
  refine ExtTreeMap.ext_getElem? fun price => ?_
  have hlast : lastAt BookLevel.price price (levels.map bookLevel) =
      side[price]?.map bookLevel := by
    rw [← lastAt_of_mem_iff h hmem price]
    exact lastAt_map (fun _ => rfl) price levels
  rw [collectLevels_eq_upsertAll, getElem?_upsertAll, hlast, getElem?_visible]
  cases side[price]? with
  | none => simp
  | some level => rfl

theorem collectLevels_ascending {side : NativeLevels} (h : Keyed NativeBookLevel.price side) :
    collectLevels (ascendingLevels side) = visible side :=
  collectLevels_of_mem h (mem_values_iff h)

theorem collectLevels_descending {side : NativeLevels} (h : Keyed NativeBookLevel.price side) :
    collectLevels (descendingLevels side) = visible side :=
  collectLevels_of_mem h fun level => List.mem_reverse.trans (mem_values_iff h level)

theorem map_toBookLevel_visible {side : NativeLevels} (h : Keyed NativeBookLevel.price side) :
    (visible side).toList.map toBookLevel = ascendingLevels side := by
  unfold visible ascendingLevels levelValues
  rw [ExtTreeMap.toList_map, List.map_map, List.map_map]
  refine List.map_congr_left fun entry hentry => ?_
  have hprice := h entry.1 entry.2 (ExtTreeMap.mem_toList_iff_getElem?_eq_some.mp hentry)
  simp only [Function.comp_apply, toBookLevel, bookLevel, hprice]

/-! ## Books -/

/-- The engine's book holds the levels of the exact book. -/
structure ExactBook.Shown (exact : ExactBook) (book : L2Book) : Prop where
  keyed : exact.Keyed
  bids : book.bids = visible exact.bids
  asks : book.asks = visible exact.asks

variable {exact : ExactBook}

theorem ExactBook.Shown.bidsDescending {book : L2Book} (h : exact.Shown book) :
    book.bidsDescending = descendingLevels exact.bids := by
  unfold L2Book.bidsDescending descendingLevels
  rw [h.bids, List.map_reverse, map_toBookLevel_visible h.keyed.bids, List.map_reverse]
  rfl

theorem ExactBook.Shown.asksAscending {book : L2Book} (h : exact.Shown book) :
    book.asksAscending = ascendingLevels exact.asks := by
  unfold L2Book.asksAscending
  rw [h.asks, map_toBookLevel_visible h.keyed.asks]

/-- A snapshot that lists the exact book installs it. -/
theorem ExactBook.Shown.of_snapshot (h : exact.Keyed) {revision : UInt64}
    {config : BookConfig} {book : L2Book}
    (hbook : L2Book.fromSnapshot ⟨descendingLevels exact.bids, ascendingLevels exact.asks, revision⟩
      config = .ok book) : exact.Shown book ∧ book.sequence = revision := by
  obtain ⟨-, -, rfl⟩ := fromSnapshot_ok hbook
  exact ⟨⟨h, collectLevels_descending h.bids, collectLevels_ascending h.asks⟩, rfl⟩

/-- The delta of an update takes the engine's book where the message takes the exact book. -/
theorem ExactBook.Shown.of_delta {book next : L2Book} (h : exact.Shown book)
    {message : SpotBookMessage} {revision : UInt64} {config : BookConfig}
    (hnext : book.applyDelta { bids := collapsedBookLevels message.bids
                               asks := collapsedBookLevels message.asks
                               firstSequence := revision, lastSequence := revision } config =
                                 .ok next) :
    (exact.apply config.maxLevelsPerSide message).Shown next ∧ next.sequence = revision := by
  obtain ⟨-, -, rfl⟩ := applyDelta_ok hnext
  refine ⟨⟨h.keyed.apply _ _, ?_, ?_⟩, rfl⟩
  · change _ = visible (truncateBids (applyLevels exact.bids message.bids) config.maxLevelsPerSide)
    rw [visible_truncateBids, visible_applyLevels, h.bids]
  · change _ = visible (truncateAsks (applyLevels exact.asks message.asks) config.maxLevelsPerSide)
    rw [visible_truncateAsks, visible_applyLevels, h.asks]

end CryptoIntelligence.Kraken
