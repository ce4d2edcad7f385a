/-
  What the book operations keep: levels stay aligned to the tick and step, never have a zero
  quantity, and never exceed the configured depth.

  What is proved: `decimalIsMultiple` accepts exact integer multiples only
  (`decimalIsMultiple_sound`), a snapshot installs and a delta keeps a well-formed book
  (`fromSnapshot_wellFormed`, `applyDelta_wellFormed`), and a well-formed book lists its bids
  strictly descending and its asks strictly ascending.
-/
import CryptoIntelligence.OrderBook.Book

namespace CryptoIntelligence.OrderBook

open Lib Decimal Event L2Book Std.ExtTreeMap
open Std (LawfulEqCmp)

/-! ## Exact multiples -/

theorem checkedPow10_eq {power : Nat} {v : Int} (h : checkedPow10 power = some v) :
    v = 10 ^ power := by
  unfold checkedPow10 at h
  split at h
  · exact (Option.some.inj h).symm
  · cases h

theorem checkedMul_eq {a b v : Int} (h : checkedMul a b = some v) : v = a * b := by
  unfold checkedMul at h
  split at h
  · exact (Option.some.inj h).symm
  · cases h

/-- The mantissa of a decimal at a larger scale. -/
theorem toRat_eq_scaled (d : FixedDecimal) {scale : Nat} (h : d.scale ≤ scale) :
    d.toRat = (d.mantissa * 10 ^ (scale - d.scale) : Int) / 10 ^ scale := by
  have hpow : (10 : ℚ) ^ scale = 10 ^ (scale - d.scale) * 10 ^ d.scale := by
    rw [← pow_add, Nat.sub_add_cancel h]
  unfold FixedDecimal.toRat
  rw [hpow]
  push_cast
  field_simp

/-- An accepted value is an exact integer multiple of the unit. -/
theorem decimalIsMultiple_sound {value unit : FixedDecimal}
    (h : decimalIsMultiple value unit = true) : ∃ k : ℤ, value.toRat = k * unit.toRat := by
  unfold decimalIsMultiple at h
  split at h
  · cases h
  · dsimp only at h
    split at h
    · rename_i vf uf hvf huf
      split at h
      · rename_i vm um hvm hum
        have hv := checkedMul_eq hvm
        have hu := checkedMul_eq hum
        rw [checkedPow10_eq hvf] at hv
        rw [checkedPow10_eq huf] at hu
        simp only [Bool.and_eq_true, bne_iff_ne, beq_iff_eq] at h
        obtain ⟨k, hk⟩ := Int.dvd_of_tmod_eq_zero h.2
        refine ⟨k, ?_⟩
        rw [toRat_eq_scaled value (le_max_left _ unit.scale),
          toRat_eq_scaled unit (le_max_right value.scale _), ← hv, ← hu, hk]
        push_cast
        ring
      · cases h
    · cases h

/-! ## Sides -/

/-- A level that may stand in the book. -/
structure LevelOk (config : BookConfig) (price : Price) (value : LevelValue) : Prop where
  nonzero : value.quantity.value.isZero = false
  onTick : decimalIsMultiple price.value config.priceTick.value = true
  onStep : decimalIsMultiple value.quantity.value config.quantityStep.value = true

/-- Every level of a side may stand in the book. -/
def SideOk (config : BookConfig) (side : Levels) : Prop :=
  ∀ price value, side[price]? = some value → LevelOk config price value

theorem sideOk_empty (config : BookConfig) : SideOk config ∅ := by
  intro price value h
  simp at h

variable {config : BookConfig} {side : Levels} {levels : List BookLevel} {level : BookLevel}
    {snapshot : BookSnapshot} {book next : L2Book} {delta : BookDelta}

theorem SideOk.erase (h : SideOk config side) (k : Price) :
    SideOk config (side.erase k) := by
  intro price value hv
  rw [getElem?_erase] at hv
  split at hv
  · cases hv
  · exact h price value hv

theorem SideOk.insert (h : SideOk config side) {k : Price}
    {v : LevelValue} (hv : LevelOk config k v) : SideOk config (side.insert k v) := by
  intro price value hp
  rw [getElem?_insert] at hp
  split at hp
  · rename_i hk
    rw [← LawfulEqCmp.eq_of_compare hk, ← Option.some.inj hp]
    exact hv
  · exact h price value hp

/-- A level that passed `validate_levels` is aligned. -/
theorem validateLevels_ok {allowZero : Bool} (h : validateLevels levels allowZero config = .ok ()) :
    levels.length ≤ config.maxLevelsPerSide ∧ ∀ level ∈ levels,
      (allowZero = false → level.quantity.value.isZero = false) ∧
      decimalIsMultiple level.price.value config.priceTick.value = true ∧
      decimalIsMultiple level.quantity.value config.quantityStep.value = true := by
  simp only [validateLevels, bind_eq_ok, reject_eq_ok, checkAll_eq_ok, validateLevel] at h
  obtain ⟨_, hlen, hall⟩ := h
  refine ⟨not_lt.mp hlen, fun level hmem => ?_⟩
  obtain ⟨_, hzero, _, -, halign⟩ := hall level hmem
  simp only [Bool.and_eq_true, Bool.not_eq_true', not_and, Bool.not_eq_true, Bool.or_eq_true,
    not_or, Bool.not_eq_false] at hzero halign
  exact ⟨hzero, halign⟩

theorem levelOk_of_valid (hnonzero : level.quantity.value.isZero = false)
    (htick : decimalIsMultiple level.price.value config.priceTick.value = true)
    (hstep : decimalIsMultiple level.quantity.value config.quantityStep.value = true) :
    LevelOk config level.price (levelValue level) := ⟨hnonzero, htick, hstep⟩

theorem applySide_sideOk
    (hside : SideOk config side) (h : validateLevels levels true config = .ok ()) :
    SideOk config (applySide side levels) := by
  have hlevels := (validateLevels_ok h).2
  clear h
  unfold applySide
  induction levels generalizing side with
  | nil => exact hside
  | cons level levels ih =>
    obtain ⟨-, htick, hstep⟩ := hlevels level (by simp)
    refine ih ?_ fun l hl => hlevels l (by simp [hl])
    dsimp only
    split
    · exact hside.erase _
    · rename_i hz
      exact hside.insert (levelOk_of_valid (by simpa using hz) htick hstep)

theorem collectLevels_sideOk (h : validateLevels levels false config = .ok ()) :
    SideOk config (collectLevels levels) ∧ (collectLevels levels).size ≤ levels.length := by
  have hlevels := (validateLevels_ok h).2
  clear h
  unfold collectLevels
  -- the fold starts from the empty side and adds at most one level each time
  have key : ∀ side : Levels, SideOk config side →
      SideOk config (levels.foldl (fun s l => s.insert l.price (levelValue l)) side) ∧
        (levels.foldl (fun s l => s.insert l.price (levelValue l)) side).size ≤
          side.size + levels.length := by
    induction levels with
    | nil => exact fun side hside => ⟨hside, le_rfl⟩
    | cons level levels ih =>
      intro side hside
      obtain ⟨hz, htick, hstep⟩ := hlevels level (by simp)
      obtain ⟨h1, h2⟩ := ih (fun l hl => hlevels l (by simp [hl])) _
        (hside.insert (levelOk_of_valid (hz rfl) htick hstep))
      refine ⟨h1, le_trans h2 ?_⟩
      have := size_insert_le (t := side) (k := level.price) (v := levelValue level)
      rw [List.length_cons]
      omega
  simpa using key ∅ (sideOk_empty config)

/-- `worst` picks a level of every nonempty side. -/
def PicksLevel (worst : Levels → Option Price) : Prop :=
  ∀ side : Levels, match worst side with
    | some price => price ∈ side
    | none => side.size = 0

theorem lowestPrice_picks : PicksLevel lowestPrice := by
  intro side
  unfold lowestPrice
  split
  · rename_i price h
    exact mem_keys.mp (List.mem_of_head? h)
  · rename_i h
    rw [← length_keys, List.head?_eq_none_iff.mp h, List.length_nil]

theorem highestPrice_picks : PicksLevel highestPrice := by
  intro side
  unfold highestPrice
  split
  · rename_i price h
    exact mem_keys.mp (List.mem_of_getLast? h)
  · rename_i h
    rw [← length_keys, List.getLast?_eq_none_iff.mp h, List.length_nil]

theorem size_erase_of_mem {k : Price} (h : k ∈ side) :
    (side.erase k).size = side.size - 1 := by
  rw [size_erase, if_pos (contains_iff_mem.mpr h)]

theorem truncateLoop_sideOk (worst : Levels → Option Price) (depth : Nat) :
    ∀ fuel (side : Levels), SideOk config side →
      SideOk config (truncateLoop worst depth fuel side)
  | 0, _, h => h
  | fuel + 1, side, h => by
    unfold truncateLoop
    split
    · split
      · exact truncateLoop_sideOk worst depth fuel _ (h.erase _)
      · exact h
    · exact h

theorem truncateLoop_size {worst : Levels → Option Price} (hworst : PicksLevel worst)
    (depth : Nat) : ∀ fuel (side : Levels), side.size ≤ fuel →
      (truncateLoop worst depth fuel side).size ≤ depth
  | 0, side, h => by unfold truncateLoop; omega
  | fuel + 1, side, h => by
    have hpick := hworst side
    unfold truncateLoop
    split
    · split
      · rename_i price hprice
        rw [hprice] at hpick
        have hsize := size_erase_of_mem hpick
        exact truncateLoop_size hworst depth fuel _ (by omega)
      · rename_i hnone
        rw [hnone] at hpick
        exact hpick ▸ Nat.zero_le depth
    · rename_i hfits
      exact Nat.le_of_not_lt hfits

/-! ## Books -/

/-- A book that may be published: every level aligned and nonzero, and both sides within the
    configured depth. -/
structure L2Book.WellFormed (config : BookConfig) (book : L2Book) : Prop where
  bids : SideOk config book.bids
  asks : SideOk config book.asks
  bidsDepth : book.bids.size ≤ config.maxLevelsPerSide
  asksDepth : book.asks.size ≤ config.maxLevelsPerSide

theorem fromSnapshot_ok (h : fromSnapshot snapshot config = .ok book) :
    validateLevels snapshot.bids false config = .ok () ∧
      validateLevels snapshot.asks false config = .ok () ∧
      book = ⟨collectLevels snapshot.bids, collectLevels snapshot.asks, snapshot.lastSequence⟩ := by
  simp only [fromSnapshot, bind_eq_ok, pure_eq_ok] at h
  obtain ⟨_, -, _, -, _, hb, _, ha, _, -, rfl⟩ := h
  exact ⟨hb, ha, rfl⟩

/-- A snapshot installs a well-formed book at its own sequence. -/
theorem fromSnapshot_wellFormed
    (h : fromSnapshot snapshot config = .ok book) : book.WellFormed config := by
  obtain ⟨hb, ha, rfl⟩ := fromSnapshot_ok h
  have hbids := collectLevels_sideOk hb
  have hasks := collectLevels_sideOk ha
  exact ⟨hbids.1, hasks.1, hbids.2.trans (validateLevels_ok hb).1,
    hasks.2.trans (validateLevels_ok ha).1⟩

theorem fromSnapshot_sequence (h : fromSnapshot snapshot config = .ok book) :
    book.sequence = snapshot.lastSequence := by
  rw [(fromSnapshot_ok h).2.2]

theorem applyDelta_ok (h : book.applyDelta delta config = .ok next) :
    validateLevels delta.bids true config = .ok () ∧
      validateLevels delta.asks true config = .ok () ∧
      next = ⟨truncateBids (applySide book.bids delta.bids) config.maxLevelsPerSide,
        truncateAsks (applySide book.asks delta.asks) config.maxLevelsPerSide,
        delta.lastSequence⟩ := by
  simp only [applyDelta, bind_eq_ok, pure_eq_ok] at h
  obtain ⟨_, hb, _, ha, _, -, _, -, rfl⟩ := h
  exact ⟨hb, ha, rfl⟩

/-- A delta keeps a well-formed book well-formed. -/
theorem applyDelta_wellFormed
    (hbook : book.WellFormed config) (h : book.applyDelta delta config = .ok next) :
    next.WellFormed config := by
  obtain ⟨hb, ha, rfl⟩ := applyDelta_ok h
  exact ⟨truncateLoop_sideOk _ _ _ _ (applySide_sideOk hbook.bids hb),
    truncateLoop_sideOk _ _ _ _ (applySide_sideOk hbook.asks ha),
    truncateLoop_size lowestPrice_picks _ _ _ le_rfl,
    truncateLoop_size highestPrice_picks _ _ _ le_rfl⟩

theorem applyDelta_sequence
    (h : book.applyDelta delta config = .ok next) : next.sequence = delta.lastSequence := by
  rw [(applyDelta_ok h).2.2]

/-- A delta that passed `validate_delta` applies to every book. -/
theorem applyDelta_of_validateDelta
    (h : validateDelta delta config = .ok ()) (book : L2Book) :
    ∃ next, book.applyDelta delta config = .ok next := by
  simp only [validateDelta, bind_eq_ok] at h
  obtain ⟨_, -, _, hb, _, ha, _, hub, hua⟩ := h
  simp only [applyDelta, hb, ha, hub, hua, ok_bind]
  exact ⟨_, rfl⟩

/-! ## Published order -/

theorem mem_bidsDescending :
    level ∈ book.bidsDescending ↔ book.bids[level.price]? = some (levelValue level) := by
  simp only [bidsDescending, List.mem_map, List.mem_reverse, Prod.exists,
    mem_toList_iff_getElem?_eq_some, toBookLevel]
  constructor
  · rintro ⟨price, value, h, rfl⟩
    exact h
  · exact fun h => ⟨_, _, h, rfl⟩

theorem mem_asksAscending :
    level ∈ book.asksAscending ↔ book.asks[level.price]? = some (levelValue level) := by
  simp only [asksAscending, List.mem_map, Prod.exists,
    mem_toList_iff_getElem?_eq_some, toBookLevel]
  constructor
  · rintro ⟨price, value, h, rfl⟩
    exact h
  · exact fun h => ⟨_, _, h, rfl⟩

/-- Bids are published best first: strictly descending prices. -/
theorem bidsDescending_sorted (book : L2Book) :
    book.bidsDescending.Pairwise fun a b => compare b.price a.price = .lt := by
  unfold bidsDescending
  rw [List.pairwise_map, List.pairwise_reverse]
  exact ordered_keys_toList

/-- Asks are published best first: strictly ascending prices. -/
theorem asksAscending_sorted (book : L2Book) :
    book.asksAscending.Pairwise fun a b => compare a.price b.price = .lt := by
  unfold asksAscending
  rw [List.pairwise_map]
  exact ordered_keys_toList

theorem bidsDescending_length (book : L2Book) : book.bidsDescending.length = book.bids.size := by
  simp [bidsDescending, length_toList]

theorem asksAscending_length (book : L2Book) : book.asksAscending.length = book.asks.size := by
  simp [asksAscending, length_toList]

/-! ## The errors of the checks on levels -/

/-- What a check on a snapshot or a delta can fail with. -/
def levelErrors : List BookError :=
  [.invalidSequence, .invalidBook, .capacity, .misalignedLevel, .ambiguousDelta]

theorem validateLevels_failsOnly (levels : List BookLevel) (allowZeroQuantity : Bool)
    (config : BookConfig) :
    FailsOnly (· ∈ levelErrors) (validateLevels levels allowZeroQuantity config) := by
  refine .bind (.reject (by simp [levelErrors])) fun _ => .checkAll (fun level => ?_) levels
  refine .bind (.reject (by simp [levelErrors])) fun _ => ?_
  exact .bind (.reject (by simp [levelErrors])) fun _ => .reject (by simp [levelErrors])

theorem ensureUniquePrices_failsOnly (levels : List BookLevel) :
    FailsOnly (· ∈ levelErrors) (ensureUniquePrices levels) := .reject (by simp [levelErrors])

theorem fromSnapshot_failsOnly (snapshot : BookSnapshot) (config : BookConfig) :
    FailsOnly (· ∈ levelErrors) (fromSnapshot snapshot config) := by
  refine .bind (.reject (by simp [levelErrors])) fun _ => ?_
  refine .bind (.reject (by simp [levelErrors])) fun _ => ?_
  refine .bind (validateLevels_failsOnly _ _ _) fun _ => ?_
  refine .bind (validateLevels_failsOnly _ _ _) fun _ => ?_
  exact .bind (.reject (by simp [levelErrors])) fun _ => .ok _

theorem applyDelta_failsOnly (book : L2Book) (delta : BookDelta) (config : BookConfig) :
    FailsOnly (· ∈ levelErrors) (book.applyDelta delta config) := by
  refine .bind (validateLevels_failsOnly _ _ _) fun _ => ?_
  refine .bind (validateLevels_failsOnly _ _ _) fun _ => ?_
  refine .bind (ensureUniquePrices_failsOnly _) fun _ => ?_
  exact .bind (ensureUniquePrices_failsOnly _) fun _ => .ok _

theorem validateDelta_failsOnly (delta : BookDelta) (config : BookConfig) :
    FailsOnly (· ∈ levelErrors) (validateDelta delta config) := by
  refine .bind (.reject (by simp [levelErrors])) fun _ => ?_
  refine .bind (validateLevels_failsOnly _ _ _) fun _ => ?_
  refine .bind (validateLevels_failsOnly _ _ _) fun _ => ?_
  exact .bind (ensureUniquePrices_failsOnly _) fun _ => ensureUniquePrices_failsOnly _

end CryptoIntelligence.OrderBook
