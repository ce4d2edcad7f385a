/-
  Receipts of applied events. A receipt is given when the book ends at the sequence number and the
  time of the event, so it has to be shown that nothing else can end there: a delta that is replayed
  on top of a snapshot always moves the sequence past that of the snapshot, and a valid event
  carries the sequence of its own payload.
-/
import CryptoIntelligence.Event.Identity
import CryptoIntelligence.OrderBook.Provenance

namespace CryptoIntelligence.OrderBook

open Lib Event OrderBookEngine

variable {config : BookConfig}

/-! ## Sequence numbers -/

variable {session : BookSession} {book : L2Book} {event : EventEnvelope} {snapshot : BookSnapshot}
    {e : OrderBookEngine}

theorem Chain.sequence_le {first : Bool} {base : L2Book}
    {deltas : List BufferedDelta} (h : Chain config session first base deltas book) :
    base.sequence ≤ book.sequence := by
  induction h with
  | nil first book => exact UInt64.le_refl _
  | cons hsession hnewer hfollow hrest ih =>
    obtain ⟨-, happly, -⟩ := follow_eq_some hfollow
    rw [applyDelta_sequence happly] at ih
    exact UInt64.le_trans (UInt64.le_of_lt hnewer) ih

/-- A delta that was applied moved the sequence. -/
theorem Chain.sequence_lt {first : Bool} {base : L2Book}
    {deltas : List BufferedDelta} (h : Chain config session first base deltas book)
    (hsome : deltas ≠ []) : base.sequence < book.sequence := by
  cases h with
  | nil => exact absurd rfl hsome
  | cons hsession hnewer hfollow hrest =>
    obtain ⟨-, happly, -⟩ := follow_eq_some hfollow
    have hlast := hrest.sequence_le
    rw [applyDelta_sequence happly] at hlast
    exact UInt64.lt_of_lt_of_le hnewer hlast

theorem snapshot_event_sequence (hpayload : event.payload = .bookSnapshot snapshot) :
    event.metadata.sequenceNumber = some snapshot.lastSequence := by
  have hvalid := event.valid
  simp only [hpayload, UncheckedEventPayload.validate, bind_eq_ok, reject_eq_ok, not_or,
    not_not] at hvalid
  obtain ⟨_, -, _, -, _, -, -, hsequence⟩ := hvalid
  exact hsequence

/-! ## The step that applied -/

/-- A snapshot that was applied is the book, after a chain of the deltas that waited. -/
theorem Feed.Step.snapshot_applied {f f' : Feed} {op : Op}
    (hop : op.snapshot? = some (snapshot, session))
    (h : f.Step config ⟨op, .ok (some .applied)⟩ f') :
    ∃ base replayed book, f.session = some session ∧ L2Book.fromSnapshot snapshot config = .ok base
      ∧ replayed.Sublist f.phase.pending ∧ Chain config session true base replayed book
      ∧ f'.phase = .trusted book := by
  have hsome : op.snapshot?.isSome = true := by
    rw [hop]
    rfl
  cases h with
  | stay hinstalls => exact absurd ⟨hsome, rfl⟩ hinstalls
  | lose hinstalls => exact absurd ⟨hsome, rfl⟩ hinstalls
  | collect hwaiting => cases hwaiting
  | @install _ other session' base book replayed updated hop' hdelta hsession hbase hsub hchain =>
    rw [hop] at hop'
    cases hop'
    exact ⟨base, replayed, book, hsession, hbase, hsub, hchain, rfl⟩
  | live hdelta hsnapshot =>
    rw [hsnapshot] at hsome
    cases hsome
  | refresh hsnapshot =>
    rw [hsnapshot] at hsome
    cases hsome

/-- A delta that was applied followed the trusted book. -/
theorem Feed.Step.delta_applied {f f' : Feed} {op : Op} {d : BufferedDelta}
    (hop : op.delta? = some d) (h : f.Step config ⟨op, .ok (some .applied)⟩ f') :
    ∃ before book, f.phase = .trusted before ∧ follow config false before d = some book
      ∧ f'.phase = .trusted book := by
  have happlied : Call.applied? ⟨op, .ok (some .applied)⟩ = some d := hop
  cases h with
  | stay _ hnone => exact absurd (hnone.symm.trans happlied) (by simp)
  | lose _ hnone => exact absurd (hnone.symm.trans happlied) (by simp)
  | collect hwaiting => cases hwaiting
  | install _ hnone => exact absurd (hnone.symm.trans hop) (by simp)
  | @live _ d' before next hop' hsnapshot htime hsession hphase hnewer hfollow =>
    rw [hop] at hop'
    cases hop'
    exact ⟨before, next, hphase, hfollow, rfl⟩
  | refresh _ hnone => exact absurd (hnone.symm.trans hop) (by simp)

namespace OrderBookEngine

theorem pending_sublist_buffered (e : OrderBookEngine) :
    e.feed.phase.pending.Sublist e.buffered := by
  unfold feed phase
  dsimp only
  split
  · exact List.nil_sublist _
  · exact .refl _
  · exact .refl _
  · exact List.nil_sublist _
  · exact List.nil_sublist _
  · exact List.nil_sublist _
  · exact List.nil_sublist _

/-- An event that returned names an instrument and carries a snapshot or a delta. -/
theorem applyEvent_eq_ok {blake3 : Bytes → Hash32} {e e' : OrderBookEngine} {event : EventEnvelope}
    {result : ApplyResult} (h : e.applyEvent blake3 event = (e', .ok result)) :
    ∃ session, eventSession event = some session
      ∧ ((∃ snapshot, event.payload = .bookSnapshot snapshot)
        ∨ ∃ delta, event.payload = .bookDelta delta) := by
  unfold applyEvent at h
  split at h
  · cases h
  dsimp only at h
  split at h
  · cases h
  split at h
  · cases h
  next instrument hinstrument =>
  split at h
  · cases h
  have hsession : eventSession event = some ⟨event.metadata.connectionEpoch,
      event.metadata.subscriptionEpoch, instrument.generation⟩ := by
    unfold eventSession
    rw [hinstrument]
    rfl
  refine ⟨_, hsession, ?_⟩
  split at h
  · next snapshot hpayload => exact .inl ⟨snapshot, hpayload⟩
  · next delta hpayload => exact .inr ⟨delta, hpayload⟩
  · cases h

/-- What an outcome that is not an error says: `applyEvent` returned its result, and a receipt shows
    the published book, at the sequence number of the event. -/
theorem applyEventWithReceipt_eq_ok {blake3 : Bytes → Hash32} {e e' : OrderBookEngine}
    {event : EventEnvelope} {outcome : BookEventApplyOutcome}
    (h : e.applyEventWithReceipt blake3 event = (e', .ok outcome)) :
    e.applyEvent blake3 event = (e', .ok outcome.result) ∧
      (outcome = .appliedWithoutReceipt ∨
        (∃ result, outcome = .notApplied result ∧ result ≠ .applied)
        ∨ ∃ view, outcome = .applied ⟨event.id, view⟩ ∧ e'.snapshot = .ok view
          ∧ event.metadata.sequenceNumber = some view.lastSourceSequence) := by
  unfold applyEventWithReceipt at h
  split at h
  · cases h
  next e₁ result happlied =>
  split at h
  · next hresult =>
    cases h
    exact ⟨happlied, .inr (.inl ⟨result, rfl, hresult⟩)⟩
  next hresult =>
  obtain rfl := not_not.mp hresult
  split at h
  · cases h
  next view hview =>
  split at h
  · cases h
    exact ⟨happlied, .inl rfl⟩
  next hmatch =>
  cases h
  obtain ⟨hsequence, -⟩ := not_or.mp hmatch
  exact ⟨happlied, .inr (.inr ⟨view, rfl, hview, not_not.mp hsequence⟩)⟩

end OrderBookEngine

/-- The view lists the levels of the book, at its sequence. -/
def Shows (view : BookSnapshotView) (book : L2Book) : Prop :=
  view.bids = book.bidsDescending ∧ view.asks = book.asksAscending
    ∧ view.lastSourceSequence = book.sequence

theorem shows_of_snapshot {view : BookSnapshotView}
    (hview : e.snapshot = .ok view) (hphase : e.feed.phase = .trusted book) : Shows view book := by
  obtain ⟨other, htrusted, -, hbids, hasks, hsequence, -⟩ := snapshot_eq_ok hview
  rw [hphase] at htrusted
  cases htrusted
  exact ⟨hbids, hasks, hsequence⟩

/-- Every outcome of a snapshot event that was applied. -/
theorem snapshot_event_applied {blake3 : Bytes → Hash32} {e' : OrderBookEngine}
    {outcome : BookEventApplyOutcome}
    (hstate : e.state ≠ .replaying) (hpayload : event.payload = .bookSnapshot snapshot)
    (h : e.applyEventWithReceipt blake3 event = (e', .ok outcome))
    (happlied : outcome.result = .applied) :
    ∃ session base replayed book, e.session = some session
      ∧ L2Book.fromSnapshot snapshot e.config = .ok base ∧ replayed.Sublist e.buffered
      ∧ Chain e.config session true base replayed book ∧ e'.book = some book
      ∧ (replayed ≠ [] → outcome = .appliedWithoutReceipt)
      ∧ ∀ receipt, outcome = .applied receipt →
        receipt.eventId = event.id ∧ replayed = [] ∧ Shows receipt.snapshot base := by
  obtain ⟨hevent, hcases⟩ := OrderBookEngine.applyEventWithReceipt_eq_ok h
  obtain ⟨session, hsession, -⟩ := OrderBookEngine.applyEvent_eq_ok hevent
  have hop : (Op.applyEvent event).snapshot? = some (snapshot, session) := by
    simp only [Op.snapshot?, hpayload, hsession, Option.map_some]
  have hstep := (step_refines blake3 hstate (.applyEvent event)).1
  simp only [step, hevent, happlied, Except.map] at hstep
  obtain ⟨base, replayed, book, hcurrent, hbase, hsub, hchain, hphase⟩ := hstep.snapshot_applied hop
  obtain ⟨-, hbook⟩ := phase_eq_trusted hphase
  -- a receipt means that the book is at the sequence of the snapshot
  have hbound : ∀ view, outcome = .applied ⟨event.id, view⟩ → e'.snapshot = .ok view →
      event.metadata.sequenceNumber = some view.lastSourceSequence →
      replayed = [] ∧ Shows view base := by
    intro view _ hview hsequence
    have hshows := shows_of_snapshot hview hphase
    have hsame : base.sequence = book.sequence := by
      rw [fromSnapshot_sequence hbase, ← hshows.2.2]
      exact Option.some.inj ((snapshot_event_sequence hpayload).symm.trans hsequence)
    have hnone : replayed = [] := by
      by_contra hsome
      have hlt := hchain.sequence_lt hsome
      rw [hsame] at hlt
      exact UInt64.lt_irrefl _ hlt
    subst hnone
    cases hchain
    exact ⟨rfl, hshows⟩
  refine ⟨session, base, replayed, book, hcurrent, hbase,
    hsub.trans e.pending_sublist_buffered, hchain, hbook, ?_, ?_⟩
  · intro hsome
    rcases hcases with hwithout | ⟨result, rfl, hresult⟩ | ⟨view, hreceipt, hview, hsequence⟩
    · exact hwithout
    · exact absurd happlied hresult
    · exact absurd (hbound view hreceipt hview hsequence).1 hsome
  · rintro receipt rfl
    rcases hcases with hwithout | ⟨result, hresult, -⟩ | ⟨view, hreceipt, hview, hsequence⟩
    · cases hwithout
    · cases hresult
    · obtain ⟨hnone, hshows⟩ := hbound view hreceipt hview hsequence
      cases hreceipt
      exact ⟨rfl, hnone, hshows⟩

/-- Every outcome of a delta event that was applied. -/
theorem delta_event_applied {blake3 : Bytes → Hash32} {e' : OrderBookEngine}
    {outcome : BookEventApplyOutcome} {delta : BookDelta}
    (hstate : e.state ≠ .replaying) (hpayload : event.payload = .bookDelta delta)
    (h : e.applyEventWithReceipt blake3 event = (e', .ok outcome))
    (happlied : outcome.result = .applied) :
    ∃ before book, e.state = .synchronized ∧ e.book = some before
      ∧ before.applyDelta delta e.config = .ok book ∧ e'.book = some book
      ∧ ∀ receipt, outcome = .applied receipt →
        receipt.eventId = event.id ∧ Shows receipt.snapshot book := by
  obtain ⟨hevent, hcases⟩ := OrderBookEngine.applyEventWithReceipt_eq_ok h
  obtain ⟨session, hsession, -⟩ := OrderBookEngine.applyEvent_eq_ok hevent
  have hop : (Op.applyEvent event).delta? = some ⟨delta, session,
      event.metadata.receiveMonotonicNs, none, event.metadata.previousSequenceNumber⟩ := by
    simp only [Op.delta?, hpayload, hsession, Option.map_some]
  have hstep := (step_refines blake3 hstate (.applyEvent event)).1
  simp only [step, hevent, happlied, Except.map] at hstep
  obtain ⟨before, book, hphase, hfollow, hphase'⟩ := hstep.delta_applied hop
  obtain ⟨hsynchronized, hbefore⟩ := phase_eq_trusted hphase
  obtain ⟨-, hbook⟩ := phase_eq_trusted hphase'
  obtain ⟨-, happly, -⟩ := follow_eq_some hfollow
  refine ⟨before, book, hsynchronized, hbefore, happly, hbook, ?_⟩
  rintro receipt rfl
  rcases hcases with hwithout | ⟨result, hresult, -⟩ | ⟨view, hreceipt, hview, -⟩
  · cases hwithout
  · cases hresult
  · cases hreceipt
    exact ⟨rfl, shows_of_snapshot hview hphase'⟩

/-- Metadata of a snapshot event for the sample book. -/
def snapshotMetadata : UncheckedEventMetadata :=
  { tradeMetadata with
    schemaVersion := 3
    venue := some (sampleConfig .rangeContainsNext).instrument.venue
    instrumentId := some (sampleConfig .rangeContainsNext).instrument
    sequenceNumber := some 10
    previousSequenceNumber := none
    snapshotKind := .snapshot }

/-- The sample snapshot as an event, under a hash that is always zero. -/
def snapshotEvent : EventEnvelope where
  id := Vector.replicate 32 0
  eventType := .bookSnapshot
  metadata := snapshotMetadata
  payload := .bookSnapshot sampleSnapshot
  valid := by decide
  typed := rfl

end CryptoIntelligence.OrderBook
