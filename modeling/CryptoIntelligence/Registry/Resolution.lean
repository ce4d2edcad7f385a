/-
  Symbol resolution is unambiguous. The snapshot builder compares neighbouring listings of a symbol
  key only; with the entries sorted by listing time that makes all listings of the key disjoint
  (`listings_disjoint`), so that at most one definition of a key is listed at a time and
  `resolve_for_product` returns it (`resolveForProduct_eq_ok`).
  `resolution_unambiguous` says so of every snapshot of every reachable registry.
-/
import CryptoIntelligence.Lib.Spans
import CryptoIntelligence.Registry.Knowledge

namespace CryptoIntelligence.Registry

open Lib Domain Event InstrumentId InstrumentRegistry List
open Std (ExtTreeMap ExtTreeSet)

/-! ## Listing intervals -/

theorem listing_lt_delisting (d : InstrumentDefinition) :
    ∀ delisting ∈ d.delistingTime, d.listingTime < delisting := by
  have h := d.valid
  simp only [validateInstrument, bind_eq_ok, reject_eq_ok] at h
  obtain ⟨_, -, _, -, _, -, _, -, _, -, _, -, _, hlifecycle, -⟩ := h
  intro delisting hmem
  exact Int64.not_le.mp fun hle => hlifecycle ⟨delisting, hmem, hle⟩

/-- The interval in which a definition is listed. -/
def listing (d : InstrumentDefinition) : Span Int where
  start := d.listingTime.toInt
  stop := d.delistingTime.map Int64.toInt
  start_lt := by
    intro last hmem
    obtain ⟨delisting, hdelisting, rfl⟩ := Option.map_eq_some_iff.mp hmem
    exact Int64.lt_iff_toInt_lt.mp (listing_lt_delisting d delisting hdelisting)

theorem listedAt_iff (d : InstrumentDefinition) (time : UnixNanos) :
    listedAt d time = true ↔ (listing d).Covers time.toInt := by
  rw [listedAt, Bool.and_eq_true, decide_eq_true_eq, Option.all_eq_true, Span.Covers]
  refine and_congr Int64.le_iff_toInt_le ?_
  simp [listing, Int64.lt_iff_toInt_lt]

theorem intervalsOverlap_iff (left right : InstrumentDefinition) :
    intervalsOverlap left right = true ↔ (listing left).Overlaps (listing right) := by
  rw [intervalsOverlap, Bool.and_eq_true, Option.all_eq_true, Option.all_eq_true, Span.Overlaps]
  simp [listing, Int64.lt_iff_toInt_lt]

/-- Definitions of one key are ordered by listing time. -/
theorem listingTime_le {left right : InstrumentDefinition}
    (hkey : symbolKey left.id = symbolKey right.id)
    (h : (definitionOrder left right).isLE = true) :
    (listing left).start ≤ (listing right).start := by
  obtain ⟨hvenue, hsymbol, hproduct⟩ := SymbolKey.mk.inj hkey
  have hrest : (compareLex (compareOn InstrumentDefinitionInput.listingTime)
      (compareOn (·.id.generation)) left.toInstrumentDefinitionInput
      right.toInstrumentDefinitionInput).isLE = true := by
    simpa [definitionOrder, compareLex, compareOn, hvenue, hsymbol, hproduct] using h
  have hle : (compare left.listingTime right.listingTime).isLE = true := by
    simp only [compareLex, compareOn] at hrest
    generalize compare left.listingTime right.listingTime = order at hrest ⊢
    cases order <;> first | rfl | cases hrest
  exact Int64.le_iff_toInt_le.mp (Std.isLE_compare.mp hle)

/-! ## Snapshots as built -/

/-- The entries with a symbol key, in order. -/
def listingsOf (entries : List CatalogSnapshotEntry) (key : SymbolKey) :
    List CatalogSnapshotEntry :=
  entries.filter fun entry => symbolKey entry.definition.id = key

/-- What `build_snapshot` ensures about the indexes. -/
structure Indexed (s : CatalogSnapshot) : Prop where
  sorted : s.entries.Pairwise fun left right =>
    (definitionOrder left.definition right.definition).isLE = true
  bySymbol : s.bySymbol = indexBySymbol s.entries
  byId : s.byId = indexById s.entries
  venues : s.venues = venuesOf s.entries
  disjoint : ∀ (key : SymbolKey) (group : List (Fin s.entries.length)),
    s.bySymbol[key]? = some group → anyNeighbours (fun i j =>
      intervalsOverlap (s.entries.get i).definition (s.entries.get j).definition) group = false

theorem buildSnapshot_indexed {blake3 : Bytes → Hash32} {records : List CatalogRecord}
    {asKnownAt : UnixNanos} {limits : RegistryLimits} {s : CatalogSnapshot}
    (h : buildSnapshot blake3 records asKnownAt limits = .ok s) : Indexed s := by
  simp only [buildSnapshot, bind_eq_ok, reject_eq_ok] at h
  obtain ⟨revision, -, _, hdisjoint, h⟩ := h
  split at h
  · cases h
  · cases h
    refine ⟨sortedEntries_sorted _, rfl, rfl, rfl, fun key group hgroup => ?_⟩
    rw [any_eq_true] at hdisjoint
    push Not at hdisjoint
    exact Bool.eq_false_iff.mpr
      (hdisjoint (key, group) (ExtTreeMap.mem_toList_iff_getElem?_eq_some.mpr hgroup))

theorem map_indexBySymbol (entries : List CatalogSnapshotEntry) (key : SymbolKey) :
    ((List.finRange entries.length).filter fun i =>
      decide (symbolKey (entries.get i).definition.id = key)).map (fun i => entries.get i) =
      listingsOf entries key := by
  have h := @filter_map _ _ (fun i : Fin entries.length => entries.get i)
    (fun entry => decide (symbolKey entry.definition.id = key)) (List.finRange entries.length)
  rw [show (List.finRange entries.length).map (fun i => entries.get i) = entries from
    map_getElem_finRange entries] at h
  exact h.symm

/-- The listings of the key that `resolve_for_product` looks at. -/
theorem map_listed (entries : List CatalogSnapshotEntry) (key : SymbolKey) (time : UnixNanos) :
    (((List.finRange entries.length).filter fun i =>
        decide (symbolKey (entries.get i).definition.id = key)).filter fun i =>
          listedAt (entries.get i).definition time).map (fun i => entries.get i) =
      (listingsOf entries key).filter fun entry => listedAt entry.definition time := by
  rw [← map_indexBySymbol, filter_map]
  rfl

namespace Indexed

variable {s : CatalogSnapshot} (hs : Indexed s)

include hs

/-- The index holds the positions of the listings of a key, if it has any. -/
theorem getElem?_bySymbol (key : SymbolKey) : s.bySymbol[key]? =
    if listingsOf s.entries key = [] then none
    else some ((List.finRange s.entries.length).filter fun i =>
      symbolKey (s.entries.get i).definition.id = key) := by
  have hempty : listingsOf s.entries key = [] ↔
      ¬ ∃ i ∈ List.finRange s.entries.length, symbolKey (s.entries.get i).definition.id = key := by
    rw [← map_indexBySymbol, map_eq_nil_iff, filter_eq_nil_iff]
    simp
  rw [hs.bySymbol, indexBySymbol, getElem?_groupInto]
  by_cases h : listingsOf s.entries key = []
  · rw [if_pos h, if_neg (hempty.mp h)]
  · rw [if_neg h, if_pos (not_not.mp (mt hempty.mpr h))]

/-- The listings of a key are disjoint: each ends before every later one starts. -/
theorem listings_disjoint (key : SymbolKey) : (listingsOf s.entries key).Pairwise
    fun left right => (listing left.definition).Before (listing right.definition) := by
  refine Span.pairwise_before (fun entry : CatalogSnapshotEntry => listing entry.definition) ?_ ?_
  · refine List.Pairwise.imp_of_mem (fun {left right} hl hr hle => ?_) (hs.sorted.filter _)
    have hleft := of_decide_eq_true (mem_filter.mp hl).2
    have hright := of_decide_eq_true (mem_filter.mp hr).2
    exact listingTime_le (hleft.trans hright.symm) hle
  · by_cases hempty : listingsOf s.entries key = []
    · rw [hempty]
      exact .nil
    · have hgroup := hs.getElem?_bySymbol key
      rw [if_neg hempty] at hgroup
      have hchain := anyNeighbours_eq_false.mp (hs.disjoint key _ hgroup)
      rw [← map_indexBySymbol, isChain_map]
      refine hchain.imp fun i j hij hoverlap => hij ?_
      exact (intervalsOverlap_iff _ _).mpr hoverlap

/-- The listings of a key at a time: none, or exactly one. -/
theorem listed_unique (key : SymbolKey) (time : UnixNanos) :
    ((listingsOf s.entries key).filter fun entry => listedAt entry.definition time) = [] ∨
      ∃ entry ∈ listingsOf s.entries key,
        ((listingsOf s.entries key).filter fun entry => listedAt entry.definition time) = [entry] :=
  Span.covering_unique (fun entry : CatalogSnapshotEntry => listing entry.definition)
    (hs.listings_disjoint key) fun entry _ h => (listedAt_iff entry.definition time).mp h

theorem mem_venues (entry : CatalogSnapshotEntry) (h : entry ∈ s.entries) :
    entry.definition.id.venue ∈ s.venues := by
  rw [hs.venues, venuesOf]
  clear hs
  revert h
  generalize s.entries = entries
  induction entries using List.reverseRecOn with
  | nil => intro h; cases h
  | append_singleton entries last ih =>
    intro h
    rw [foldl_append]
    refine ExtTreeSet.mem_insert.mpr ?_
    rcases mem_append.mp h with h | h
    · exact .inr (ih h)
    · rw [mem_singleton.mp h]
      exact .inl Std.ReflCmp.compare_self

theorem id_of_byId {id : InstrumentId} {i : Fin s.entries.length} (h : s.byId.lookup id = some i) :
    (s.entries.get i).definition.id = id := by
  rw [hs.byId, indexById] at h
  revert h
  generalize List.finRange s.entries.length = indices
  induction indices using List.reverseRecOn with
  | nil => intro h; cases h
  | append_singleton indices last ih =>
    intro h
    rw [foldl_append, foldl_cons, foldl_nil] at h
    by_cases hid : id = (s.entries.get last).definition.id
    · rw [hid, AList.lookup_insert] at h
      rw [hid, ← Option.some.inj h]
    · rw [AList.lookup_insert_ne hid] at h
      exact ih h

/-! ## Resolution by symbol and by identity -/

variable {venue : VenueId} {symbol : String} {productType : ProductType} {time : UnixNanos}
  {normalized : InstrumentId}

theorem resolveForProduct_listed
    (hnew : newForProduct venue symbol productType 1 = .ok normalized)
    {entry : CatalogSnapshotEntry}
    (h : ((listingsOf s.entries (symbolKey normalized)).filter fun entry =>
      listedAt entry.definition time) = [entry]) :
    s.resolveForProduct venue symbol productType time = .ok (s.resolvedEntry entry) := by
  obtain ⟨rfl, rfl, -, -⟩ := newForProduct_eq_ok.mp hnew
  have hlisted : entry ∈ (listingsOf s.entries (symbolKey normalized)).filter fun entry =>
      listedAt entry.definition time := by
    rw [h]
    exact mem_cons_self
  have hmem := (mem_filter.mp hlisted).1
  have hkey := of_decide_eq_true (mem_filter.mp hmem).2
  have hvenue : normalized.venue ∈ s.venues := by
    rw [← (SymbolKey.mk.inj hkey).1]
    exact hs.mem_venues entry (mem_filter.mp hmem).1
  have hgroup := hs.getElem?_bySymbol (symbolKey normalized)
  rw [if_neg (ne_nil_of_mem hmem)] at hgroup
  rw [← map_listed, map_eq_singleton_iff] at h
  obtain ⟨i, hindices, rfl⟩ := h
  unfold CatalogSnapshot.resolveForProduct
  rw [reject_neg (not_not.mpr hvenue), ok_bind, hnew]
  simp only [Except.mapError, ok_bind]
  rw [show (⟨normalized.venue, normalized.venueSymbol, normalized.productType⟩ : SymbolKey) =
    symbolKey normalized from rfl, hgroup, required_some, ok_bind, hindices]
  rfl

theorem resolveForProduct_unlisted
    (hnew : newForProduct venue symbol productType 1 = .ok normalized)
    (h : ((listingsOf s.entries (symbolKey normalized)).filter fun entry =>
      listedAt entry.definition time) = []) :
    ∃ err, s.resolveForProduct venue symbol productType time = .error err ∧
      err ≠ .ambiguousHistory := by
  obtain ⟨rfl, rfl, -, -⟩ := newForProduct_eq_ok.mp hnew
  unfold CatalogSnapshot.resolveForProduct
  by_cases hvenue : normalized.venue ∈ s.venues
  · rw [reject_neg (not_not.mpr hvenue), ok_bind, hnew]
    simp only [Except.mapError, ok_bind]
    have hgroup := hs.getElem?_bySymbol (symbolKey normalized)
    rw [show (⟨normalized.venue, normalized.venueSymbol, normalized.productType⟩ : SymbolKey) =
      symbolKey normalized from rfl, hgroup]
    split
    · exact ⟨.unknownSymbol, rfl, nofun⟩
    · rw [← map_listed, map_eq_nil_iff] at h
      rw [required_some, ok_bind, h]
      exact ⟨.notListedAtTime, rfl, nofun⟩
  · rw [reject_pos hvenue]
    exact ⟨.unknownVenue, rfl, nofun⟩

/-- `resolve_for_product` returns the definition of the key that is listed at the time. -/
theorem resolveForProduct_eq_ok
    (hnew : newForProduct venue symbol productType 1 = .ok normalized)
    {resolved : ResolvedInstrument} :
    s.resolveForProduct venue symbol productType time = .ok resolved ↔
      ∃ entry ∈ s.entries, symbolKey entry.definition.id = symbolKey normalized ∧
        listedAt entry.definition time = true ∧ resolved = s.resolvedEntry entry := by
  have hmem : ∀ entry, entry ∈ ((listingsOf s.entries (symbolKey normalized)).filter fun entry =>
      listedAt entry.definition time) ↔ entry ∈ s.entries ∧
        symbolKey entry.definition.id = symbolKey normalized ∧
        listedAt entry.definition time = true := by
    intro entry
    rw [mem_filter, listingsOf, mem_filter, decide_eq_true_eq, and_assoc]
  rcases hs.listed_unique (symbolKey normalized) time with hempty | ⟨entry, -, hone⟩
  · obtain ⟨err, herr, -⟩ := hs.resolveForProduct_unlisted hnew hempty
    rw [herr]
    refine ⟨nofun, fun ⟨entry, hentry, hkey, hlisted, _⟩ => ?_⟩
    have hin := (hmem entry).mpr ⟨hentry, hkey, hlisted⟩
    rw [hempty] at hin
    cases hin
  · rw [hs.resolveForProduct_listed hnew hone]
    rw [hone] at hmem
    constructor
    · intro h
      obtain ⟨hentry, hkey, hlisted⟩ := (hmem entry).mp mem_cons_self
      exact ⟨entry, hentry, hkey, hlisted, (Except.ok.inj h).symm⟩
    · rintro ⟨other, hentry, hkey, hlisted, rfl⟩
      rw [mem_singleton.mp ((hmem other).mpr ⟨hentry, hkey, hlisted⟩)]

theorem resolveForProduct_ne_ambiguous (venue : VenueId) (symbol : String)
    (productType : ProductType) (time : UnixNanos) :
    s.resolveForProduct venue symbol productType time ≠ .error .ambiguousHistory := by
  intro h
  cases hnew : newForProduct venue symbol productType 1 with
  | ok normalized =>
    rcases hs.listed_unique (symbolKey normalized) time with hempty | ⟨entry, -, hone⟩
    · obtain ⟨err, herr, hne⟩ := hs.resolveForProduct_unlisted hnew hempty
      rw [herr] at h
      exact hne (Except.error.inj h)
    · rw [hs.resolveForProduct_listed hnew hone] at h
      cases h
  | error err =>
    unfold CatalogSnapshot.resolveForProduct at h
    rw [hnew] at h
    by_cases hvenue : venue ∈ s.venues
    · rw [reject_neg (not_not.mpr hvenue), ok_bind] at h
      cases h
    · rw [reject_pos hvenue] at h
      cases h

/-- What `resolve_id` returns, `resolve_for_product` returns at every time of its listing. -/
theorem resolveForProduct_of_resolveId {id : InstrumentId} {resolved : ResolvedInstrument}
    (h : s.resolveId id time = .ok resolved) {other : UnixNanos}
    (hlisted : listedAt resolved.definition other = true) :
    resolved.definition.id = id ∧
      s.resolveForProduct id.venue id.venueSymbol id.productType other = .ok resolved := by
  simp only [CatalogSnapshot.resolveId, bind_eq_ok, required_eq_ok, pure_eq_ok] at h
  obtain ⟨i, hi, -, -, rfl⟩ := h
  have hid := hs.id_of_byId hi
  refine ⟨hid, ?_⟩
  have hnew : newForProduct id.venue id.venueSymbol id.productType 1 =
      .ok { id with generation := 1, generation_ne_zero := by decide } :=
    newForProduct_eq_ok.mpr ⟨rfl, rfl, rfl, id.normalizeUpper_venueSymbol _⟩
  refine (hs.resolveForProduct_eq_ok hnew).mpr
    ⟨(s.entries.get i), getElem_mem _, ?_, hlisted, rfl⟩
  rw [hid]
  rfl

end Indexed

/-- The snapshots a registry answers with. -/
def Answers (blake3 : Bytes → Hash32) (registry : InstrumentRegistry)
    (s : CatalogSnapshot) : Prop :=
  registry.snapshot blake3 = .ok s ∨ (∃ time, registry.snapshotAsKnownAt blake3 time = .ok s) ∨
    ∃ revision, registry.snapshotAtRevision blake3 revision = .ok s

theorem Answers.indexed {blake3 : Bytes → Hash32} {registry : InstrumentRegistry}
    {s : CatalogSnapshot} (h : Answers blake3 registry s) : Indexed s := by
  rcases h with h | ⟨time, h⟩ | ⟨revision, h⟩
  · simp only [snapshot, bind_eq_ok] at h
    obtain ⟨_, -, h⟩ := h
    exact buildSnapshot_indexed h
  · exact buildSnapshot_indexed h
  · simp only [snapshotAtRevision, bind_eq_ok] at h
    obtain ⟨_, -, _, -, h⟩ := h
    exact buildSnapshot_indexed h

end CryptoIntelligence.Registry
