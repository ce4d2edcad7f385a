/-
  The book cut to its depth, against the book that is never cut.

  After each delta the worst levels beyond the depth are dropped. A dropped level is gone from the
  cut book until a delta sets it again, and a delta sets it in both books alike, so the cut book
  never shows a level that the whole book does not have.
-/
import CryptoIntelligence.OrderBook.Provenance

namespace CryptoIntelligence.OrderBook

open Lib Decimal Event
open Std (ExtTreeMap)
open List

/-! ## One side -/

/-- Every level of the side is a level of the whole one, with the same value. -/
def Within (side whole : Levels) : Prop :=
  ∀ (price : Price) (value : LevelValue), side[price]? = some value → whole[price]? = some value

theorem Within.refl (side : Levels) : Within side side := fun _ _ h => h

variable {side whole : Levels}

theorem Within.trans {middle : Levels} (h : Within side middle) (h' : Within middle whole) :
    Within side whole := fun price value hvalue => h' price value (h price value hvalue)

theorem Within.erase (h : Within side whole) (price : Price) :
    Within (side.erase price) (whole.erase price) := by
  intro other value hvalue
  rw [ExtTreeMap.getElem?_erase] at hvalue ⊢
  split at hvalue
  · cases hvalue
  · next hne =>
    rw [if_neg hne]
    exact h other value hvalue

theorem Within.insert (h : Within side whole) (price : Price)
    (value : LevelValue) : Within (side.insert price value) (whole.insert price value) := by
  intro other found hfound
  rw [ExtTreeMap.getElem?_insert] at hfound ⊢
  split at hfound
  · next heq =>
    rw [if_pos heq]
    exact hfound
  · next hne =>
    rw [if_neg hne]
    exact h other found hfound

theorem within_erase (side : Levels) (price : Price) : Within (side.erase price) side := by
  intro other value hvalue
  rw [ExtTreeMap.getElem?_erase] at hvalue
  split at hvalue
  · cases hvalue
  · exact hvalue

/-- The levels of a delta change both sides alike. -/
theorem Within.applySide (h : Within side whole) (levels : List BookLevel) :
    Within (applySide side levels) (applySide whole levels) := by
  unfold CryptoIntelligence.OrderBook.applySide
  induction levels generalizing side whole with
  | nil => exact h
  | cons level levels ih =>
    rw [foldl_cons, foldl_cons]
    apply ih
    split
    · exact h.erase level.price
    · exact h.insert level.price (levelValue level)

theorem truncateLoop_within (worst : Levels → Option Price) (depth : Nat) :
    ∀ fuel (side : Levels), Within (truncateLoop worst depth fuel side) side
  | 0, side => .refl side
  | fuel + 1, side => by
    unfold truncateLoop
    split
    · split
      · next price _ =>
        exact (truncateLoop_within worst depth fuel _).trans (within_erase side price)
      · exact .refl side
    · exact .refl side

theorem truncateLoop_of_fits (worst : Levels → Option Price) {depth : Nat} (fuel : Nat)
    (h : side.size ≤ depth) : truncateLoop worst depth fuel side = side := by
  cases fuel with
  | zero => rfl
  | succ fuel =>
    unfold truncateLoop
    rw [if_neg (Nat.not_lt.mpr h)]

/-! ## The whole book -/

namespace L2Book

/-- A delta without the cut. -/
def applyUncut (book : L2Book) (delta : BookDelta) : L2Book :=
  ⟨applySide book.bids delta.bids, applySide book.asks delta.asks, delta.lastSequence⟩

def uncut (base : L2Book) (deltas : List BookDelta) : L2Book := deltas.foldl applyUncut base

theorem uncut_concat (base : L2Book) (deltas : List BookDelta) (delta : BookDelta) :
    base.uncut (deltas ++ [delta]) = (base.uncut deltas).applyUncut delta := by
  unfold uncut
  rw [foldl_append, foldl_cons, foldl_nil]

def applyDeltas (config : BookConfig) (base : L2Book) (deltas : List BookDelta) :
    Except BookError L2Book :=
  deltas.foldlM (fun book delta => book.applyDelta delta config) base

variable {config : BookConfig} {base book : L2Book} {deltas : List BookDelta} {delta : BookDelta}

theorem applyDeltas_concat (h : applyDeltas config base (deltas ++ [delta]) = .ok book) :
    ∃ middle, applyDeltas config base deltas = .ok middle ∧
      middle.applyDelta delta config = .ok book := by
  rw [applyDeltas, foldlM_append, bind_eq_ok] at h
  obtain ⟨middle, hmiddle, hlast⟩ := h
  simp only [foldlM_cons, foldlM_nil, bind_eq_ok, pure_eq_ok] at hlast
  obtain ⟨last, hlast, rfl⟩ := hlast
  exact ⟨middle, hmiddle, hlast⟩

/-- The side of the whole book kept to the depth after every delta so far. -/
def Fits (config : BookConfig) (base : L2Book) (deltas : List BookDelta) (side : L2Book → Levels) :
    Prop :=
  ∀ front, front <+: deltas → (side (base.uncut front)).size ≤ config.maxLevelsPerSide

theorem Fits.of_concat {side : L2Book → Levels} (h : Fits config base (deltas ++ [delta]) side) :
    Fits config base deltas side := by
  intro front hfront
  exact h front (hfront.trans (prefix_append deltas [delta]))

/-- What the cut book keeps of the whole one. -/
structure Cut (config : BookConfig) (base : L2Book) (deltas : List BookDelta) (book : L2Book) :
    Prop where
  bids : Within book.bids (base.uncut deltas).bids
  asks : Within book.asks (base.uncut deltas).asks
  wholeBids : Fits config base deltas L2Book.bids → book.bids = (base.uncut deltas).bids
  wholeAsks : Fits config base deltas L2Book.asks → book.asks = (base.uncut deltas).asks

theorem Cut.applyDelta {next : L2Book} (h : Cut config base deltas book)
    (hdelta : book.applyDelta delta config = .ok next) :
    Cut config base (deltas ++ [delta]) next := by
  obtain ⟨-, -, rfl⟩ := applyDelta_ok hdelta
  have hwhole := uncut_concat base deltas delta
  refine ⟨?_, ?_, fun hfits => ?_, fun hfits => ?_⟩
  · rw [hwhole]
    exact (truncateLoop_within _ _ _ _).trans (h.bids.applySide delta.bids)
  · rw [hwhole]
    exact (truncateLoop_within _ _ _ _).trans (h.asks.applySide delta.asks)
  · have hsize := hfits _ (prefix_refl _)
    rw [hwhole] at hsize ⊢
    dsimp only
    rw [h.wholeBids hfits.of_concat]
    exact truncateLoop_of_fits _ _ hsize
  · have hsize := hfits _ (prefix_refl _)
    rw [hwhole] at hsize ⊢
    dsimp only
    rw [h.wholeAsks hfits.of_concat]
    exact truncateLoop_of_fits _ _ hsize

theorem cut_of_applyDeltas
    (h : applyDeltas config base deltas = .ok book) : Cut config base deltas book := by
  induction deltas using List.reverseRecOn generalizing book with
  | nil =>
    cases h
    exact ⟨.refl _, .refl _, fun _ => rfl, fun _ => rfl⟩
  | append_singleton deltas delta ih =>
    obtain ⟨middle, hmiddle, hlast⟩ := applyDeltas_concat h
    exact (ih hmiddle).applyDelta hlast

/-- The book of a snapshot and the deltas after it. -/
def ofHistory (config : BookConfig) (snapshot : BookSnapshot) (deltas : List BookDelta) :
    Except BookError L2Book := do
  let base ← fromSnapshot snapshot config
  applyDeltas config base deltas

/-- Every level of a book is a level of the whole book, and a side that never grew beyond the depth
    in the whole book is the side of the whole book. -/
theorem truncation_sound (config : BookConfig) (snapshot : BookSnapshot) (deltas : List BookDelta)
    (book : L2Book) (h : ofHistory config snapshot deltas = .ok book) :
    ∃ base, fromSnapshot snapshot config = .ok base
      ∧ Within book.bids (base.uncut deltas).bids
      ∧ Within book.asks (base.uncut deltas).asks
      ∧ (Fits config base deltas L2Book.bids → book.bids = (base.uncut deltas).bids)
      ∧ (Fits config base deltas L2Book.asks → book.asks = (base.uncut deltas).asks) := by
  unfold ofHistory at h
  rw [bind_eq_ok] at h
  obtain ⟨base, hbase, hdeltas⟩ := h
  have hcut := cut_of_applyDeltas hdeltas
  exact ⟨base, hbase, hcut.bids, hcut.asks, hcut.wholeBids, hcut.wholeAsks⟩

/-- A book of depth one. -/
def shallowConfig : BookConfig := { sampleConfig .rangeContainsNext with maxLevelsPerSide := 1 }

/-- A second bid below the first one, which a book of depth one drops. -/
def droppedBid : BookDelta :=
  ⟨[⟨⟨.whole 97 (by decide), by decide⟩, sampleBid.quantity, none⟩], [], 11, 11⟩

/-- The dropped level is missing from the bids and the asks are the whole side. -/
theorem truncation_drops_worst :
    ∃ book base, ofHistory shallowConfig sampleSnapshot [droppedBid] = .ok book
      ∧ fromSnapshot sampleSnapshot shallowConfig = .ok base
      ∧ book.bids.size = 1 ∧ (base.uncut [droppedBid]).bids.size = 2
      ∧ book.asks = (base.uncut [droppedBid]).asks := by
  obtain ⟨book, hbook, hsize⟩ : ∃ book,
    ofHistory shallowConfig sampleSnapshot [droppedBid] = .ok book
      ∧ book.bids.size = 1 := ⟨_, rfl, by decide +kernel⟩
  obtain ⟨base, hbase, -, -, -, hasks⟩ := truncation_sound _ _ _ _ hbook
  have hfresh : fromSnapshot sampleSnapshot shallowConfig
      = .ok ⟨collectLevels [sampleBid], collectLevels [sampleAsk], 10⟩ := rfl
  rw [hbase] at hfresh
  cases hfresh
  refine ⟨book, _, hbook, hbase, hsize, by decide +kernel, hasks ?_⟩
  intro front hfront
  have hasks : (L2Book.uncut ⟨collectLevels [sampleBid], collectLevels [sampleAsk], 10⟩ front).asks
      = collectLevels [sampleAsk] := by
    rcases prefix_cons_iff.mp hfront with rfl | ⟨rest, rfl, hrest⟩
    · rfl
    · rw [prefix_nil] at hrest
      subst hrest
      rfl
  rw [hasks]
  decide +kernel

end L2Book

end CryptoIntelligence.OrderBook
