/-
  A session under an outside snapshot: deltas arrive before it and wait, the snapshot comes, and
  deltas arrive after it. `session_reaches` computes the whole run: the replay of the buffer, then
  the live deltas, each by `advance`, and the first delta that does not follow ends the trust.

  Under the contiguous policies the moment the snapshot arrives makes no difference
  (`buffering_transparent`).
-/
import CryptoIntelligence.OrderBook.Provenance

namespace CryptoIntelligence.OrderBook

open Lib Event List

/-! ## Arrivals -/

/-- A delta as it arrives, without a checksum. -/
structure Arrival where
  delta : BookDelta
  now : UInt64
  previous : Option UInt64

def Arrival.op (session : BookSession) (a : Arrival) : Op :=
  match a.previous with
  | none => .applyDelta a.delta session a.now
  | some previous => .applyDeltaWithPrevious a.delta session a.now previous

/-- The arrival as the engine buffers it. -/
def Arrival.buffered (session : BookSession) (a : Arrival) : BufferedDelta :=
  ⟨a.delta, session, a.now, none, a.previous⟩

/-- Times that never go back, from `start` on. -/
def NonDecreasing : UInt64 → List UInt64 → Prop
  | _, [] => True
  | start, now :: times => start ≤ now ∧ NonDecreasing now times

instance decidableNonDecreasing : ∀ start times, Decidable (NonDecreasing start times)
  | _, [] => .isTrue trivial
  | start, now :: times =>
    have := decidableNonDecreasing now times
    inferInstanceAs (Decidable (start ≤ now ∧ NonDecreasing now times))

def lastTime (start : UInt64) (times : List UInt64) : UInt64 := times.getLastD start

theorem nonDecreasing_append {start : UInt64} {as bs : List UInt64} :
    NonDecreasing start (as ++ bs) ↔ NonDecreasing start as ∧
      NonDecreasing (lastTime start as) bs := by
  induction as generalizing start with
  | nil => simp [NonDecreasing, lastTime]
  | cons a as ih =>
    rw [cons_append, NonDecreasing, NonDecreasing, ih, and_assoc]
    simp only [lastTime, getLastD_cons]

/-- The delta passes the checks the engine makes on every delta. -/
def PassesChecks (config : BookConfig) (delta : BookDelta) : Prop :=
  (OrderBookEngine.fresh config).checkDelta delta none = .ok ()

theorem PassesChecks.applies {config : BookConfig} {delta : BookDelta}
    (h : PassesChecks config delta) (book : L2Book) :
    ∃ next, book.applyDelta delta config = .ok next := by
  simp only [PassesChecks, OrderBookEngine.checkDelta, bind_eq_ok] at h
  obtain ⟨_, -, _, -, h⟩ := h
  exact applyDelta_of_validateDelta h book

namespace OrderBookEngine

/-- The engine serves a session: the next call of the session with a later time is admitted. -/
structure Serves (e : OrderBookEngine) (config : BookConfig) (session : BookSession)
    (observed : UInt64) : Prop where
  config : e.config = config
  current : e.validateCurrentSession session = .ok ()
  observed : e.lastObservedMonotonicNs = observed

variable {e : OrderBookEngine} {observed now : UInt64} {a : Arrival}

theorem Serves.session {config : BookConfig} {session : BookSession}
    (h : e.Serves config session observed) : e.session = some session :=
  validateCurrentSession_session h.current

theorem Serves.of_same {e' : OrderBookEngine} {config : BookConfig} {session : BookSession}
    {observed' : UInt64} (h : e.Serves config session observed)
    (hconfig : e'.config = e.config) (hsession : e'.session = e.session)
    (hobserved : e'.lastObservedMonotonicNs = observed') : e'.Serves config session observed' := by
  refine ⟨hconfig.trans h.config, ?_, hobserved⟩
  rw [← h.current]
  unfold validateCurrentSession
  rw [hconfig, hsession]

/-- An admitted call sees the engine with the new time and nothing else changed. -/
theorem Serves.begins {config : BookConfig} {session : BookSession}
    (h : e.Serves config session observed) (hnow : observed ≤ now) :
    e.beginUpdate session now = .ok { e with lastObservedMonotonicNs := now } := by
  refine beginUpdate_eq_ok.mpr ⟨h.current, ?_, rfl⟩
  rw [h.observed]
  exact UInt64.not_lt.mpr hnow

/-- The state an engine is in once its book is trusted or lost. -/
def Reaches (e : OrderBookEngine) : Option L2Book → Prop
  | some book => e.state = .synchronized ∧ e.book = some book
  | none => e.state = .untrusted

variable {config : BookConfig} {session : BookSession}

open Arrival

/-- An admitted delta that passes its checks is handled by the state of the engine. -/
theorem step_arrival (blake3 : Bytes → Hash32)
    (hserves : e.Serves config session observed) (hnow : observed ≤ a.now)
    (hchecks : PassesChecks config a.delta) :
    (e.step blake3 (a.op session)).1 =
      match e.state with
      | .buffering | .awaitingSnapshot =>
        ({ e with lastObservedMonotonicNs := a.now }.bufferDelta (a.buffered session)).1
      | .synchronized =>
        ({ e with lastObservedMonotonicNs := a.now }.applyLive a.delta a.now none a.previous).1
      | .disconnected | .replaying | .untrusted => { e with lastObservedMonotonicNs := a.now } := by
  have hcheck : OrderBookEngine.checkDelta
      { e with lastObservedMonotonicNs := a.now } a.delta none = .ok () := by
    rw [← hchecks]
    unfold checkDelta
    rw [hserves.config]
    rfl
  have hcandidate : (e.step blake3 (a.op session)).1 =
      (e.applyDeltaCandidate a.delta session a.now none a.previous none).1 := by
    unfold op
    cases a.previous <;> rfl
  rw [hcandidate, applyDeltaCandidate, hserves.begins hnow]
  simp only [recordLatency, acceptDelta, hcheck]
  cases e.state <;> rfl

/-! ## Before the snapshot -/

/-- The size of the arrivals in level updates. -/
def levelUpdates (as : List Arrival) : Nat := (as.map fun a => deltaLevelUpdates a.delta).sum

theorem bufferDelta_of_room {d : BufferedDelta}
    (hcount : e.buffered.length < e.config.maxBufferedDeltas)
    (hupdates : e.bufferedLevelUpdates + deltaLevelUpdates d.delta ≤
      e.config.maxBufferedLevelUpdates) :
    e.bufferDelta d = ({ e with
      buffered := e.buffered ++ [d]
      bufferedLevelUpdates := e.bufferedLevelUpdates + deltaLevelUpdates d.delta },
      .ok .snapshotRequired) := by
  unfold bufferDelta
  dsimp only
  rw [if_neg (by omega)]

/-- Arrivals within the limits of the buffer all wait, in order. -/
theorem run_collects (blake3 : Bytes → Hash32) {as : List Arrival} :
    ∀ {e : OrderBookEngine} {observed : UInt64}, e.Serves config session observed →
    e.state = .buffering → (∀ a ∈ as, PassesChecks config a.delta) →
    NonDecreasing observed (as.map Arrival.now) →
    e.buffered.length + as.length ≤ config.maxBufferedDeltas →
    e.bufferedLevelUpdates + levelUpdates as ≤ config.maxBufferedLevelUpdates →
    (e.run blake3 (as.map (op session))).Serves config session
        (lastTime observed (as.map Arrival.now)) ∧
      (e.run blake3 (as.map (op session))).state = .buffering ∧
      (e.run blake3 (as.map (op session))).strategy = e.strategy ∧
      (e.run blake3 (as.map (op session))).buffered =
        e.buffered ++ as.map (Arrival.buffered session) := by
  induction as with
  | nil =>
    intro e observed hserves hstate _ _ _ _
    exact ⟨hserves, hstate, rfl, by simp [run, runAll]⟩
  | cons a as ih =>
    intro e observed hserves hstate hchecks htimes hcount hupdates
    obtain ⟨hnow, htimes⟩ := htimes
    simp only [levelUpdates, map_cons, sum_cons, length_cons] at hcount hupdates
    have hstep : (e.step blake3 (a.op session)).1 = { e with
        lastObservedMonotonicNs := a.now
        buffered := e.buffered ++ [a.buffered session]
        bufferedLevelUpdates := e.bufferedLevelUpdates + deltaLevelUpdates a.delta } := by
      rw [step_arrival blake3 hserves hnow (hchecks a (by simp))]
      simp only [hstate]
      rw [bufferDelta_of_room]
      · rfl
      · simp only [hserves.config]
        omega
      · simp only [hserves.config, Arrival.buffered]
        omega
    have hserves' : (e.step blake3 (a.op session)).1.Serves config session a.now := by
      rw [hstep]
      exact hserves.of_same rfl rfl rfl
    obtain ⟨h₁, h₂, h₃, h₄⟩ := ih hserves' (by rw [hstep]; exact hstate)
      (fun b hb => hchecks b (by simp [hb])) htimes
      (by rw [hstep]; simp only [length_append, length_singleton]; omega)
      (by rw [hstep]; simp only [levelUpdates]; omega)
    simp only [run, runAll, map_cons, foldl_cons] at h₁ h₂ h₃ h₄ ⊢
    refine ⟨?_, h₂, ?_, ?_⟩
    · simpa only [lastTime, getLastD_cons] using h₁
    · rw [h₃, hstep]
    · rw [h₄, hstep]
      simp

/-! ## After the snapshot -/

theorem advance_live {book : L2Book} {d : BufferedDelta} {next : L2Book × Bool}
    (h : advance config session (book, false) d = some next) : next.2 = false := by
  unfold advance at h
  split at h
  · cases h
  · split at h
    · cases h
      rfl
    · obtain ⟨candidate, -, rfl⟩ := Option.map_eq_some_iff.mp h
      rfl

theorem foldlM_advance_live {ds : List BufferedDelta} :
    ∀ {book : L2Book} {last : L2Book × Bool},
    ds.foldlM (advance config session) (book, false) = some last → last.2 = false := by
  induction ds with
  | nil =>
    intro book last h
    cases h
    rfl
  | cons d ds ih =>
    intro book last h
    rw [foldlM_cons] at h
    obtain ⟨⟨next, flag⟩, hnext, hrest⟩ := Option.bind_eq_some_iff.mp h
    obtain rfl : flag = false := advance_live hnext
    exact ih hrest

/-- A delta on a trusted book does what `advance` says. -/
theorem step_live (blake3 : Bytes → Hash32)
    (hserves : e.Serves config session observed) {book : L2Book} (hbook : e.Reaches (some book))
    (hnow : observed ≤ a.now) (hchecks : PassesChecks config a.delta) :
    (e.step blake3 (a.op session)).1.Serves config session a.now ∧
      (e.step blake3 (a.op session)).1.Reaches
        ((advance config session (book, false) (a.buffered session)).map Prod.fst) := by
  obtain ⟨hstate, hbook⟩ := hbook
  rw [step_arrival blake3 hserves hnow hchecks]
  simp only [hstate]
  rw [← hstate]
  set e₁ : OrderBookEngine := { e with lastObservedMonotonicNs := a.now } with he₁
  have hserves₁ : e₁.Serves config session a.now := hserves.of_same rfl rfl rfl
  have hbook₁ : e₁.book = some book := hbook
  by_cases hstale : a.delta.lastSequence ≤ book.sequence
  · have hlive := applyLive_of_stale (d := a.buffered session) hbook₁ hstale
    have hadvance : advance config session (book, false) (a.buffered session) =
        some (book, false) := by
      simp [advance, Arrival.buffered, hstale]
    simp only [Arrival.buffered] at hlive
    rw [hlive, hadvance]
    exact ⟨hserves₁, hstate, hbook⟩
  · have hadvance : advance config session (book, false) (a.buffered session) =
        (follow config false book (a.buffered session)).map fun next => (next, false) := by
      simp [advance, Arrival.buffered, hstale]
    rw [hadvance]
    cases hfollow : follow config false book (a.buffered session) with
    | none =>
      rw [← hserves₁.config] at hfollow
      obtain ⟨e', result, hlive, hlost, -⟩ := applyLive_of_not_follow hbook₁ hstale hfollow
      simp only [Arrival.buffered] at hlive
      rw [hlive]
      exact ⟨hserves₁.of_same hlost.config hlost.session (hlost.lastObserved), hlost.state⟩
    | some next =>
      rw [← hserves₁.config] at hfollow
      obtain ⟨e', hlive, hinstalled⟩ := applyLive_of_follow hbook₁ hstale hfollow
      simp only [Arrival.buffered] at hlive
      rw [hlive]
      exact ⟨hserves₁.of_same hinstalled.config hinstalled.session hinstalled.lastObserved,
        hinstalled.state, hinstalled.book⟩

/-- Without trust a delta changes nothing but the time. -/
theorem step_lost (blake3 : Bytes → Hash32)
    (hserves : e.Serves config session observed) (hlost : e.Reaches none) (hnow : observed ≤ a.now)
    (hchecks : PassesChecks config a.delta) :
    (e.step blake3 (a.op session)).1.Serves config session a.now ∧
      (e.step blake3 (a.op session)).1.Reaches none := by
  have hstate : e.state = .untrusted := hlost
  rw [step_arrival blake3 hserves hnow hchecks]
  simp only [hstate]
  exact ⟨hserves.of_same rfl rfl rfl, rfl⟩

/-- The live deltas of a session, from a trusted book or after it was lost. -/
theorem run_live (blake3 : Bytes → Hash32) {bs : List Arrival} :
    ∀ {e : OrderBookEngine} {observed : UInt64} {start : Option L2Book},
    e.Serves config session observed → e.Reaches start →
    (∀ b ∈ bs, PassesChecks config b.delta) → NonDecreasing observed (bs.map Arrival.now) →
    (e.run blake3 (bs.map (op session))).session = some session ∧
      (e.run blake3 (bs.map (op session))).Reaches
        (start.bind fun book => ((bs.map (Arrival.buffered session)).foldlM
          (advance config session) (book, false)).map Prod.fst) := by
  induction bs with
  | nil =>
    intro e observed start hserves hstart _ _
    refine ⟨hserves.session, ?_⟩
    cases start with
    | none => exact hstart
    | some book => exact hstart
  | cons b bs ih =>
    intro e observed start hserves hstart hchecks htimes
    obtain ⟨hnow, htimes⟩ := htimes
    have hb := hchecks b (by simp)
    have hbs : ∀ c ∈ bs, PassesChecks config c.delta := fun c hc => hchecks c (by simp [hc])
    cases start with
    | none =>
      obtain ⟨hserves', hlost⟩ := step_lost blake3 hserves hstart hnow hb
      exact ih hserves' hlost hbs htimes
    | some book =>
      obtain ⟨hserves', hreaches⟩ := step_live blake3 hserves hstart hnow hb
      have hrest := ih hserves' hreaches hbs htimes
      simp only [run, runAll, map_cons, foldl_cons, Option.bind_some, foldlM_cons] at hrest ⊢
      cases hadvance : advance config session (book, false) (b.buffered session) with
      | none =>
        simp only [hadvance, Option.map_none, Option.bind_none] at hrest
        exact hrest
      | some next =>
        obtain ⟨candidate, flag⟩ := next
        obtain rfl : flag = false := advance_live hadvance
        simp only [hadvance, Option.map_some, Option.bind_some] at hrest
        exact hrest

/-! ## The snapshot -/

/-- The snapshot replays what waited for it. -/
theorem step_snapshot (blake3 : Bytes → Hash32)
    (hserves : e.Serves config session observed) (hpolicy : config.checksumPolicy = .disabled)
    (hstate : e.state = .buffering) (hstrategy : e.strategy = some .externalBuffered)
    {snapshot : BookSnapshot} {base : L2Book}
    (hbase : L2Book.fromSnapshot snapshot config = .ok base) (hnow : observed ≤ now) :
    (e.step blake3 (.applySnapshot snapshot session now)).1.Serves config session now ∧
      (e.step blake3 (.applySnapshot snapshot session now)).1.Reaches
        ((e.buffered.foldlM (advance config session) (base, true)).map Prod.fst) := by
  have haccept : checksumAccepts e.config base none = true := by
    simp [checksumAccepts, hserves.config, hpolicy]
  obtain ⟨status, hvalidate⟩ := validateChecksum_of_accepts
    (e := { e with lastObservedMonotonicNs := now }) haccept now
  set e₁ : OrderBookEngine := { e with
    lastObservedMonotonicNs := now, checksumStatus := status } with he₁
  have hserves₁ : e₁.Serves config session now := hserves.of_same rfl rfl rfl
  have hstep : (e.step blake3 (.applySnapshot snapshot session now)).1 =
      (e₁.alignSnapshot .externalBuffered e.resyncInProgress base session now).1 := by
    simp only [step, applySnapshot, applySnapshotCandidate, hserves.begins hnow, recordLatency,
      acceptSnapshot, hstate, hstrategy, hserves.config, hbase]
    simp only [hstate, hserves.config, hstrategy] at hvalidate
    simp only [hvalidate]
    simp [he₁, hstate, hserves.config, hstrategy]
  rw [hstep]
  have haligned := alignSnapshot_aligned e₁ e.resyncInProgress base session now
  rw [hserves₁.config] at haligned
  change e₁.Aligned session now (e.buffered.foldlM (advance config session)
    (base, true)) _ at haligned
  generalize e.buffered.foldlM (advance config session) (base, true) = last at haligned ⊢
  generalize e₁.alignSnapshot .externalBuffered e.resyncInProgress base session now =
    r at haligned ⊢
  cases haligned with
  | installed hinstalled =>
    exact ⟨hserves₁.of_same hinstalled.config hinstalled.session hinstalled.lastObserved,
      hinstalled.state, hinstalled.book⟩
  | lost hlost =>
    exact ⟨hserves₁.of_same hlost.config hlost.session hlost.lastObserved, hlost.state⟩

/-! ## A whole session -/

/-- The calls of a session in which `as` arrives before the snapshot and `bs` after it. -/
def sessionOps (session : BookSession) (as : List Arrival) (snapshot : BookSnapshot)
    (now : UInt64) (bs : List Arrival) : List Op :=
  .startSession session .externalBuffered ::
    (as.map (op session) ++ .applySnapshot snapshot session now ::
      bs.map (op session))

def sessionTimes (as : List Arrival) (now : UInt64) (bs : List Arrival) : List UInt64 :=
  as.map Arrival.now ++ now :: bs.map Arrival.now

/-- The book a session ends with: replay of what waited, then the live deltas. -/
def sessionBook (config : BookConfig) (session : BookSession) (base : L2Book)
    (as bs : List Arrival) : Option L2Book :=
  (((as.map (Arrival.buffered session)).foldlM (advance config session) (base, true)).map
    Prod.fst).bind fun book =>
      ((bs.map (Arrival.buffered session)).foldlM (advance config session) (book, false)).map
        Prod.fst

theorem validateNewSession_valid {s : BookSession} (h : e.validateNewSession s = .ok ()) :
    s.isValid = true ∧ s.instrumentGeneration = e.config.instrument.generation := by
  simp only [validateNewSession, bind_eq_ok, reject_eq_ok] at h
  obtain ⟨_, hvalid, _, hgeneration, -⟩ := h
  exact ⟨by simpa using hvalid, not_not.mp hgeneration⟩

/-- A new session starts with an empty buffer and is served. -/
theorem step_startSession (blake3 : Bytes → Hash32) (h : e.validateNewSession session = .ok ()) :
    (e.step blake3 (.startSession session .externalBuffered)).1.Serves e.config session
        e.lastObservedMonotonicNs ∧
      (e.step blake3 (.startSession session .externalBuffered)).1.state = .buffering ∧
      (e.step blake3 (.startSession session .externalBuffered)).1.strategy =
        some .externalBuffered ∧
      (e.step blake3 (.startSession session .externalBuffered)).1.buffered = [] ∧
      (e.step blake3 (.startSession session .externalBuffered)).1.bufferedLevelUpdates = 0 := by
  obtain ⟨hvalid, hgeneration⟩ := validateNewSession_valid h
  simp only [step, startSession, h]
  refine ⟨⟨rfl, ?_, rfl⟩, trivial, trivial, rfl, rfl⟩
  simp [validateCurrentSession, clearBook, hvalid, hgeneration, reject]

/-- The whole session: it ends with `sessionBook`, or without trust where that is `none`. -/
theorem session_reaches (blake3 : Bytes → Hash32) (hsession : e.validateNewSession session = .ok ())
    (hpolicy : e.config.checksumPolicy = .disabled) {snapshot : BookSnapshot} {base : L2Book}
    (hbase : L2Book.fromSnapshot snapshot e.config = .ok base) {as bs : List Arrival}
    (hchecks : ∀ a ∈ as ++ bs, PassesChecks e.config a.delta)
    (hcount : as.length ≤ e.config.maxBufferedDeltas)
    (hupdates : levelUpdates as ≤ e.config.maxBufferedLevelUpdates)
    (htimes : NonDecreasing e.lastObservedMonotonicNs (sessionTimes as now bs)) :
    (e.run blake3 (sessionOps session as snapshot now bs)).session = some session ∧
      (e.run blake3 (sessionOps session as snapshot now bs)).Reaches
        (sessionBook e.config session base as bs) := by
  obtain ⟨hserves, hstate, hstrategy, hbuffered, hlevels⟩ := step_startSession blake3 hsession
  obtain ⟨htimes₁, hnow, htimes₂⟩ := nonDecreasing_append.mp htimes
  obtain ⟨hserves₁, hstate₁, hstrategy₁, hbuffered₁⟩ := run_collects blake3 hserves hstate
    (fun a ha => hchecks a (by simp [ha])) htimes₁ (by simpa [hbuffered] using hcount)
    (by simpa [hlevels] using hupdates)
  obtain ⟨hserves₂, hreaches₂⟩ := step_snapshot blake3 hserves₁ hpolicy hstate₁
    (hstrategy₁.trans hstrategy) hbase hnow
  have hlive := run_live blake3 hserves₂ hreaches₂ (fun b hb => hchecks b (by simp [hb])) htimes₂
  rw [hbuffered₁, hbuffered, nil_append] at hlive
  simpa only [run, runAll, sessionOps, foldl_cons, foldl_append, sessionBook] using hlive

/-- What a subscriber sees: levels and sequence of a trusted book, or nothing. -/
def published (e : OrderBookEngine) : Option (List BookLevel × List BookLevel × UInt64) :=
  match e.snapshot with
  | .ok view => some (view.bids, view.asks, view.lastSourceSequence)
  | .error _ => none

theorem published_of_reaches {r : Option L2Book}
    (hsession : e.session = some session) (h : e.Reaches r) :
    e.published = r.map fun book => (book.bidsDescending, book.asksAscending, book.sequence) := by
  unfold published snapshot snapshotAt
  cases r with
  | none =>
    have hstate : e.state = .untrusted := h
    rw [hstate, reject_pos (by decide)]
    rfl
  | some book =>
    obtain ⟨hstate, hbook⟩ := h
    rw [hstate, reject_neg (by decide), reject_neg (UInt64.lt_irrefl _), hbook, hsession]
    rfl

/-! ## Contiguous policies -/

/-- A delta on a book under a contiguous policy without checksums. -/
def advanceBook (config : BookConfig) (book : L2Book) (delta : BookDelta) : Option L2Book :=
  (advance config ⟨0, 0, 0⟩ (book, false) ⟨delta, ⟨0, 0, 0⟩, 0, none, none⟩).map Prod.fst

/-- Under a contiguous policy the rule for a delta does not depend on whether it is the first
    replayed one, nor on the predecessor it names. -/
theorem sequenceRule_contiguous {policy : SequencePolicy} (hpolicy : policy ≠ .previousFinal)
    (delta : BookDelta) (current : UInt64) (first first' : Bool)
    (previous previous' : Option UInt64) :
    sequenceRule policy delta current first previous =
      sequenceRule policy delta current first' previous' := by
  cases policy with
  | exactNext => cases first <;> cases first' <;> rfl
  | rangeContainsNext => cases first <;> cases first' <;> rfl
  | previousFinal => exact absurd rfl hpolicy

theorem advance_contiguous (hpolicy : config.sequencePolicy ≠ .previousFinal) (a : Arrival)
    (position : L2Book × Bool) :
    (advance config session position (a.buffered session)).map Prod.fst =
      advanceBook config position.1 a.delta := by
  have hrule := sequenceRule_contiguous hpolicy a.delta position.1.sequence position.2 false
    a.previous none
  unfold advanceBook advance follow
  simp only [Arrival.buffered, ne_eq, not_true_eq_false, if_false, hrule]
  split
  · rfl
  · simp only [Option.map_map]
    rfl

/-- Under a contiguous policy a session's book is the fold of its deltas, wherever the snapshot
    came. -/
theorem sessionBook_contiguous (hpolicy : config.sequencePolicy ≠ .previousFinal) (base : L2Book)
    (as bs : List Arrival) :
    sessionBook config session base as bs =
      ((as ++ bs).map Arrival.delta).foldlM (advanceBook config) base := by
  have fold (as : List Arrival) (position : L2Book × Bool) :
      ((as.map (Arrival.buffered session)).foldlM (advance config session) position).map Prod.fst =
        (as.map Arrival.delta).foldlM (advanceBook config) position.1 := by
    rw [foldlM_map_of_step (g := advanceBook config) Prod.fst BufferedDelta.delta, map_map]
    · rfl
    · intro d hd position
      obtain ⟨a, -, rfl⟩ := mem_map.mp hd
      exact advance_contiguous hpolicy a position
  unfold sessionBook
  rw [fold, map_append, foldlM_append]
  exact congrArg _ (funext fun book => fold bs (book, false))

/-- Buffering is transparent under the contiguous policies: the published levels and sequence, or
    their absence, do not depend on how many deltas came before the snapshot. -/
theorem buffering_transparent (blake3 : Bytes → Hash32) (e : OrderBookEngine)
    (session : BookSession) (hsession : e.validateNewSession session = .ok ())
    (hchecksum : e.config.checksumPolicy = .disabled)
    (hpolicy : e.config.sequencePolicy ≠ .previousFinal)
    (snapshot : BookSnapshot) (base : L2Book)
    (hbase : L2Book.fromSnapshot snapshot e.config = .ok base)
    (as bs cs : List Arrival) (hsame : cs.map Arrival.delta = (as ++ bs).map Arrival.delta)
    (hchecks : ∀ a ∈ as ++ bs, PassesChecks e.config a.delta)
    (hcount : as.length ≤ e.config.maxBufferedDeltas)
    (hupdates : levelUpdates as ≤ e.config.maxBufferedLevelUpdates)
    (now now' : UInt64)
    (htimes : NonDecreasing e.lastObservedMonotonicNs (sessionTimes as now bs))
    (htimes' : NonDecreasing e.lastObservedMonotonicNs (sessionTimes [] now' cs)) :
    (e.run blake3 (sessionOps session as snapshot now bs)).published =
      (e.run blake3 (sessionOps session [] snapshot now' cs)).published := by
  have hchecks' : ∀ c ∈ [] ++ cs, PassesChecks e.config c.delta := by
    intro c hc
    have hmem : c.delta ∈ (as ++ bs).map Arrival.delta := hsame ▸ mem_map_of_mem hc
    obtain ⟨a, ha, hac⟩ := mem_map.mp hmem
    exact hac ▸ hchecks a ha
  obtain ⟨hs, hr⟩ := session_reaches blake3 hsession hchecksum hbase hchecks hcount hupdates htimes
  obtain ⟨hs', hr'⟩ := session_reaches blake3 hsession hchecksum hbase hchecks'
    (Nat.zero_le _) (Nat.zero_le _) htimes'
  rw [published_of_reaches hs hr, published_of_reaches hs' hr', sessionBook_contiguous hpolicy,
    sessionBook_contiguous hpolicy, nil_append, hsame]

/-- The book of `sampleSnapshot`. -/
def sampleBase : L2Book := ⟨collectLevels [sampleBid], collectLevels [sampleAsk], 10⟩

theorem sampleSnapshot_accepted (policy : SequencePolicy) :
    L2Book.fromSnapshot sampleSnapshot (sampleConfig policy) = .ok sampleBase := by
  cases policy <;> rfl

theorem sampleSession_starts (policy : SequencePolicy) :
    (fresh (sampleConfig policy)).validateNewSession sampleSession = .ok () := by
  cases policy <;> rfl

/-- A stale, an overlapping and an exact delta at given times. -/
def sampleArrivals (t₁ t₂ t₃ : UInt64) : List Arrival :=
  [⟨sampleDelta 7 9, t₁, none⟩, ⟨sampleDelta 10 11, t₂, none⟩, ⟨sampleDelta 12 12, t₃, none⟩]

theorem sampleArrivals_checks (policy : SequencePolicy) (t₁ t₂ t₃ : UInt64) :
    ∀ a ∈ sampleArrivals t₁ t₂ t₃, PassesChecks (sampleConfig policy) a.delta := by
  simp only [sampleArrivals, forall_mem_cons, not_mem_nil, false_imp_iff, implies_true,
    and_true]
  cases policy <;> exact ⟨rfl, rfl, rfl⟩

/-- Three deltas split around the snapshot after the second, and all of them after it. -/
theorem buffering_transparent_sample :
    ((fresh (sampleConfig .rangeContainsNext)).run sampleDigest
        (sessionOps sampleSession ((sampleArrivals 1 2 4).take 2) sampleSnapshot 3
          ((sampleArrivals 1 2 4).drop 2))).published =
      ((fresh (sampleConfig .rangeContainsNext)).run sampleDigest
        (sessionOps sampleSession [] sampleSnapshot 5 (sampleArrivals 6 6 7))).published :=
  buffering_transparent _ (fresh (sampleConfig .rangeContainsNext)) sampleSession
    (sampleSession_starts _) rfl nofun sampleSnapshot sampleBase (sampleSnapshot_accepted _)
    ((sampleArrivals 1 2 4).take 2) ((sampleArrivals 1 2 4).drop 2) (sampleArrivals 6 6 7) rfl
    (sampleArrivals_checks _ 1 2 4) (by decide) (by decide) 3 5 (by decide) (by decide)

end OrderBookEngine

end CryptoIntelligence.OrderBook
