/-
  What every published book looks like. In every state a run can reach, a published view has its
  bids strictly descending and its asks strictly ascending, only nonzero quantities, prices and
  quantities on the grid, no more levels than configured, and an update time no later than the
  latest accepted call; the replaying state is never seen (`published_wellFormed`).
-/
import CryptoIntelligence.OrderBook.Provenance

namespace CryptoIntelligence.OrderBook

open Lib Decimal Event OrderBookEngine List

variable {config : BookConfig} {session : BookSession}

/-! ## Exact values -/

theorem price_lt_iff (a b : Price) : compare a b = .lt ↔ a.value.toRat < b.value.toRat := by
  rw [Wrapped.compare_def, FixedDecimal.compare_def, FixedDecimal.cmp_eq_compare_toRat,
    compare_lt_iff_lt]

theorem toRat_ne_zero {d : FixedDecimal} (h : d.isZero = false) : d.toRat ≠ 0 := by
  have hm : (d.mantissa : ℚ) ≠ 0 := by
    rw [FixedDecimal.isZero, beq_eq_false_iff_ne] at h
    exact_mod_cast h
  unfold FixedDecimal.toRat
  positivity

/-- A level on the exact grid of a configuration, with a quantity. -/
def OnGrid (config : BookConfig) (level : BookLevel) : Prop :=
  level.quantity.value.toRat ≠ 0 ∧
    (∃ k : ℤ, level.price.value.toRat = k * config.priceTick.value.toRat) ∧
    ∃ k : ℤ, level.quantity.value.toRat = k * config.quantityStep.value.toRat

theorem LevelOk.onGrid {level : BookLevel}
    (h : LevelOk config level.price (levelValue level)) : OnGrid config level :=
  ⟨toRat_ne_zero h.nonzero, decimalIsMultiple_sound h.onTick, decimalIsMultiple_sound h.onStep⟩

/-! ## Accepted times -/

/-- The latest time of the calls that did not fail. -/
def latestAccepted (calls : List Call) : UInt64 :=
  (calls.filterMap Call.acceptedTime?).foldr max 0

variable {calls : List Call} {now : UInt64}

theorem le_latestAccepted
    (h : now ∈ calls.filterMap Call.acceptedTime?) : now ≤ latestAccepted calls := by
  unfold latestAccepted
  generalize calls.filterMap Call.acceptedTime? = times at h ⊢
  induction times with
  | nil => cases h
  | cons t ts ih =>
    rcases mem_cons.mp h with rfl | h
    · exact (le_max_uint64 _ _).1
    · exact UInt64.le_trans (ih h) (le_max_uint64 _ _).2

/-! ## The invariant -/

theorem Chain.wellFormed {first : Bool} {base book : L2Book} {ds : List BufferedDelta}
    (h : Chain config session first base ds book) (hbase : base.WellFormed config) :
    book.WellFormed config := by
  induction h with
  | nil first book => exact hbase
  | cons _ _ hfollow _ ih => exact ih (applyDelta_wellFormed hbase (follow_eq_some hfollow).2.1)

/-- A trusted book is well formed, and the times a feed keeps are those of accepted calls. -/
structure Sound (config : BookConfig) (calls : List Call) (f : Feed) : Prop where
  book : ∀ book, f.phase = .trusted book → book.WellFormed config
  updated : f.updated = 0 ∨ f.updated ∈ calls.filterMap Call.acceptedTime?
  pending : ∀ d ∈ f.phase.pending, d.nowMonotonicNs ∈ calls.filterMap Call.acceptedTime?

theorem mem_acceptedTimes_concat (call : Call) (h : now ∈ calls.filterMap Call.acceptedTime?) :
    now ∈ (calls ++ [call]).filterMap Call.acceptedTime? := by
  rw [filterMap_append]
  exact mem_append_left _ h

theorem mem_acceptedTimes_last {op : Op} {result : Option ApplyResult}
    (calls : List Call) (h : op.time? = some now) :
    now ∈ (calls ++ [(⟨op, .ok result⟩ : Call)]).filterMap Call.acceptedTime? := by
  rw [filterMap_append, mem_append]
  exact .inr (by simp [Call.acceptedTime?, h])

theorem Sound.later {f f' : Feed} (h : Sound config calls f) (call : Call)
    (hphase : f'.phase = f.phase) (hupdated : f'.updated = f.updated) :
    Sound config (calls ++ [call]) f' := by
  refine ⟨?_, ?_, ?_⟩
  · rw [hphase]
    exact h.book
  · rw [hupdated]
    exact h.updated.imp_right (mem_acceptedTimes_concat call)
  · rw [hphase]
    exact fun d hd => mem_acceptedTimes_concat call (h.pending d hd)

theorem sound_step {f f' : Feed} {call : Call} (h : Sound config calls f)
    (hstep : f.Step config call f') : Sound config (calls ++ [call]) f' := by
  cases hstep with
  | stay => exact h.later call rfl rfl
  | start => exact ⟨nofun, .inl rfl, nofun⟩
  | disconnect => exact ⟨nofun, .inl rfl, nofun⟩
  | resync => exact ⟨nofun, .inl rfl, nofun⟩
  | lose => exact ⟨nofun, h.updated.imp_right (mem_acceptedTimes_concat call), nofun⟩
  | @collect _ ds d hwaiting htime hsession hphase =>
    refine ⟨nofun, h.updated.imp_right (mem_acceptedTimes_concat call), ?_⟩
    refine forall_mem_concat.mpr
      ⟨fun b hb => mem_acceptedTimes_concat call (h.pending b (by rw [hphase]; exact hb)), ?_⟩
    rw [filterMap_append, mem_append]
    refine .inr ?_
    -- only a call that returned can have been told to wait
    unfold Call.waiting? at hwaiting
    split at hwaiting
    · rename_i houtcome
      simp [Call.acceptedTime?, houtcome, htime]
    · cases hwaiting
  | @install op snapshot session base book replayed updated hop hdelta hsession hbase hsub hchain
      htime =>
    refine ⟨?_, .inr ?_, nofun⟩
    · intro book' hbook
      cases hbook
      exact hchain.wellFormed (fromSnapshot_wellFormed hbase)
    · rcases htime with htime | ⟨d, hd, rfl⟩
      · exact mem_acceptedTimes_last calls htime
      · exact mem_acceptedTimes_concat _ (h.pending d hd)
  | @live op d book next hop hsnapshot htime hsession hphase hnewer hfollow =>
    refine ⟨?_, .inr (mem_acceptedTimes_last calls htime), nofun⟩
    intro book' hbook
    cases hbook
    exact applyDelta_wellFormed (h.book book hphase) (follow_eq_some hfollow).2.1
  | refresh hsnapshot hdelta htime =>
    exact ⟨h.book, .inr (mem_acceptedTimes_last calls htime),
      fun d hd => mem_acceptedTimes_concat _ (h.pending d hd)⟩

/-- Every run from a fresh engine leaves a sound feed. -/
theorem sound_run (blake3 : Bytes → Hash32) {e : OrderBookEngine}
    (hnew : new config = .ok e) (ops : List Op) :
    (e.run blake3 ops).state ≠ .replaying ∧
      Sound config (e.history blake3 ops) (e.run blake3 ops).feed := by
  obtain ⟨hconfig, hstate, hupdated⟩ := new_eq_ok hnew
  refine (run_induction (step blake3)
    (fun calls e => e.config = config ∧ e.state ≠ .replaying ∧ Sound config calls e.feed)
    ⟨hconfig, by rw [hstate]; decide, ?_⟩ ?_ ops).2
  · simp only [feed, phase, hstate, hupdated]
    refine ⟨fun book hphase => ?_, .inl rfl, fun d hd => ?_⟩
    · cases hphase
    · cases hd
  · rintro calls e op ⟨hconfig, hstate, hsound⟩
    obtain ⟨hstep, hstate', hconfig'⟩ := step_refines blake3 hstate op
    rw [hconfig] at hstep
    exact ⟨hconfig'.trans hconfig, hstate', sound_step hsound hstep⟩

/-! ## Published views -/

/-- In every reachable state the replaying state is hidden, and a published view is ordered, on
    the grid, within the configured depth and not newer than the latest accepted call. -/
theorem published_wellFormed (blake3 : Bytes → Hash32) (config : BookConfig) (e : OrderBookEngine)
    (hnew : new config = .ok e) (ops : List Op) :
    (e.run blake3 ops).state ≠ .replaying ∧
    ∀ view, (e.run blake3 ops).snapshot = .ok view →
      view.bids.Pairwise (fun a b => b.price.value.toRat < a.price.value.toRat) ∧
      view.asks.Pairwise (fun a b => a.price.value.toRat < b.price.value.toRat) ∧
      (∀ level ∈ view.bids ++ view.asks, OnGrid config level) ∧
      view.bids.length ≤ config.maxLevelsPerSide ∧ view.asks.length ≤ config.maxLevelsPerSide ∧
      view.updatedMonotonicNs ≤ latestAccepted (e.history blake3 ops) := by
  obtain ⟨hstate, hsound⟩ := sound_run blake3 hnew ops
  refine ⟨hstate, fun view hview => ?_⟩
  obtain ⟨book, hphase, -, hbids, hasks, -, hupdated⟩ := snapshot_eq_ok hview
  have hbook := hsound.book book hphase
  rw [hbids, hasks]
  refine ⟨?_, ?_, ?_, ?_, ?_, ?_⟩
  · exact (bidsDescending_sorted book).imp fun h => (price_lt_iff _ _).mp h
  · exact (asksAscending_sorted book).imp fun h => (price_lt_iff _ _).mp h
  · intro level hlevel
    rcases mem_append.mp hlevel with h | h
    · exact (hbook.bids _ _ (mem_bidsDescending.mp h)).onGrid
    · exact (hbook.asks _ _ (mem_asksAscending.mp h)).onGrid
  · rw [bidsDescending_length]
    exact hbook.bidsDepth
  · rw [asksAscending_length]
    exact hbook.asksDepth
  · rw [hupdated]
    rcases hsound.updated with h | h
    · rw [show (e.run blake3 ops).updatedMonotonicNs = 0 from h]
      exact UInt64.zero_le
    · exact le_latestAccepted h

/-- The run with a replayed and a live delta publishes a book on the grid. -/
theorem published_wellFormed_sample :
    ∃ view : BookSnapshotView,
      ((fresh (sampleConfig .rangeContainsNext)).run
        sampleDigest sampleRun).snapshot = .ok view ∧
      ∀ level ∈ view.bids ++ view.asks, OnGrid (sampleConfig .rangeContainsNext) level := by
  obtain ⟨view, hview⟩ : ∃ view : BookSnapshotView,
      ((fresh (sampleConfig .rangeContainsNext)).run
        sampleDigest sampleRun).snapshot = .ok view := ⟨_, rfl⟩
  have h := (published_wellFormed sampleDigest
    (sampleConfig .rangeContainsNext) _ (new_of_validate (by decide))
    sampleRun).2 view hview
  exact ⟨view, hview, h.2.2.1⟩

end CryptoIntelligence.OrderBook
