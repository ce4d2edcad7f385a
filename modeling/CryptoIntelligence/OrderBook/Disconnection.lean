/-
  What leaves the disconnected state. A disconnect keeps the session as a watermark, so a late
  delta of the old connection still passes the session check; when it is malformed it costs a trust
  the engine does not have, and the state becomes untrusted. Everything else but a new session
  leaves the state as it is: `disconnected_until_session` says exactly when a run of calls stays
  disconnected, `disconnected_left_by_delta` is a run that does not.
-/
import CryptoIntelligence.OrderBook.Provenance

namespace CryptoIntelligence.OrderBook

open Lib Event

namespace OrderBookEngine

/-- An event that reaches the book: it verifies, brings no checksum and names the instrument. -/
def passesEvent (blake3 : Bytes → Hash32) (e : OrderBookEngine) : Op → Prop
  | .applyEvent event => event.verify blake3 = .ok () ∧ event.metadata.sourceChecksum = none ∧
      event.metadata.instrumentId = some e.config.instrument
  | _ => True

/-- The call brings a delta of the kept session, not older than the last observed call, that fails
    the checks on the delta itself. -/
def Spoils (blake3 : Bytes → Hash32) (e : OrderBookEngine) (op : Op) : Prop :=
  ∃ d, op.delta? = some d ∧ e.passesEvent blake3 op ∧
    (∃ begun, e.beginUpdate d.session d.nowMonotonicNs = .ok begun) ∧
    ∃ err, e.checkDelta d.delta d.checksum = .error err

variable {e : OrderBookEngine} {op : Op}

theorem not_spoils_of_delta_none {blake3 : Bytes → Hash32}
    (h : op.delta? = none) : ¬ e.Spoils blake3 op := by
  rintro ⟨d, hd, -⟩
  rw [h] at hd
  nomatch hd

theorem spoils_iff {blake3 : Bytes → Hash32} {d : BufferedDelta}
    (hdelta : op.delta? = some d) (hpasses : e.passesEvent blake3 op) :
    e.Spoils blake3 op ↔ (∃ begun, e.beginUpdate d.session d.nowMonotonicNs = .ok begun) ∧
      ∃ err, e.checkDelta d.delta d.checksum = .error err := by
  constructor
  · rintro ⟨d', hd', -, hrest⟩
    obtain rfl := Option.some.inj (hdelta.symm.trans hd')
    exact hrest
  · exact fun hrest => ⟨d, hdelta, hpasses, hrest⟩

/-! ## One call -/

theorem applySnapshotCandidate_disconnected (h : e.state = .disconnected)
    (snapshot : BookSnapshot) (session : BookSession) (now : UInt64)
    (checksum : Option KrakenV2Checksum) (latency : Option UInt64) :
    (e.applySnapshotCandidate snapshot session now checksum latency).1.state = .disconnected := by
  unfold applySnapshotCandidate
  cases hbegin : e.beginUpdate session now with
  | error err => exact h
  | ok e₁ =>
    have hstate := (opened_of_beginUpdate hbegin latency).state.trans h
    dsimp only
    rw [acceptSnapshot, if_pos hstate]
    exact hstate

theorem applyDeltaCandidate_disconnected (h : e.state = .disconnected)
    (d : BufferedDelta) (latency : Option UInt64) :
    (e.applyDeltaCandidate d.delta d.session d.nowMonotonicNs d.checksum d.previousFinalSequence
        latency).1.state = .disconnected ↔
      ¬ ((∃ begun, e.beginUpdate d.session d.nowMonotonicNs = .ok begun) ∧
        ∃ err, e.checkDelta d.delta d.checksum = .error err) := by
  unfold applyDeltaCandidate
  cases hbegin : e.beginUpdate d.session d.nowMonotonicNs with
  | error err => simp [h]
  | ok e₁ =>
    have ho := opened_of_beginUpdate hbegin latency
    have hcheck : (e₁.recordLatency d.nowMonotonicNs latency).checkDelta d.delta d.checksum =
        e.checkDelta d.delta d.checksum := by
      simp only [checkDelta, ho.config]
    have hstate := ho.state.trans h
    dsimp only
    rw [acceptDelta, hcheck]
    cases e.checkDelta d.delta d.checksum with
    | error err => simp [invalidate]
    | ok _ =>
      simp only [hstate]
      simp

theorem applyEvent_disconnected (blake3 : Bytes → Hash32)
    (h : e.state = .disconnected) (event : EventEnvelope) :
    (e.applyEvent blake3 event).1.state = .disconnected ↔
      ¬ e.Spoils blake3 (.applyEvent event) := by
  unfold applyEvent
  cases hverify : event.verify blake3 with
  | error err =>
    exact iff_of_true h fun ⟨_, _, hpasses, _⟩ => by simp [passesEvent, hverify] at hpasses
  | ok _ =>
    dsimp only
    split
    · rename_i hchecksum
      refine iff_of_true h fun ⟨_, _, hpasses, _⟩ => ?_
      simp [hpasses.2.1] at hchecksum
    rename_i hchecksum
    cases hinstrument : event.metadata.instrumentId with
    | none =>
      exact iff_of_true h fun ⟨_, _, hpasses, _⟩ => by simp [passesEvent, hinstrument] at hpasses
    | some instrument =>
      dsimp only
      split
      · rename_i hother
        refine iff_of_true h fun ⟨_, _, hpasses, _⟩ => hother ?_
        exact Option.some.inj (hinstrument.symm.trans hpasses.2.2)
      rename_i hsame
      have hpasses : e.passesEvent blake3 (.applyEvent event) :=
        ⟨hverify, by simpa using hchecksum, by rw [hinstrument, not_not.mp hsame]⟩
      cases hpayload : event.payload with
      | bookSnapshot snapshot =>
        refine iff_of_true (applySnapshotCandidate_disconnected h _ _ _ _ _)
          (not_spoils_of_delta_none ?_)
        simp only [Op.delta?, hpayload]
      | bookDelta delta =>
        have hdelta : Op.delta? (.applyEvent event) = some ⟨delta,
            ⟨event.metadata.connectionEpoch, event.metadata.subscriptionEpoch,
              instrument.generation⟩,
            event.metadata.receiveMonotonicNs, none, event.metadata.previousSequenceNumber⟩ := by
          simp only [Op.delta?, hpayload, eventSession, hinstrument, Option.map_some]
        rw [spoils_iff hdelta hpasses]
        exact applyDeltaCandidate_disconnected h ⟨delta, _, _, none, _⟩ _
      | _ =>
        refine iff_of_true h (not_spoils_of_delta_none ?_)
        simp only [Op.delta?, hpayload]

/-- A call other than a new session leaves the disconnected state exactly when it brings a delta
    that spoils it. -/
theorem step_disconnected (blake3 : Bytes → Hash32)
    (h : e.state = .disconnected) (hop : ∀ session strategy, op ≠ .startSession session strategy) :
    (e.step blake3 op).1.state = .disconnected ↔ ¬ e.Spoils blake3 op := by
  have delta {d : BufferedDelta} (hdelta : op.delta? = some d) (hpasses : e.passesEvent blake3 op)
      (latency : Option UInt64) :
      (e.applyDeltaCandidate d.delta d.session d.nowMonotonicNs d.checksum d.previousFinalSequence
        latency).1.state = .disconnected ↔ ¬ e.Spoils blake3 op := by
    rw [spoils_iff hdelta hpasses]
    exact applyDeltaCandidate_disconnected h d latency
  have ordered {op' other : Op} {r : Attempt ApplyResult}
      (hanswer : Answer e (L3Effect e op') r) (hother : other.delta? = none) :
      r.1.state = .disconnected ↔ ¬ e.Spoils blake3 other :=
    iff_of_true ((l3_same hanswer).2.2.2.1.trans h) (not_spoils_of_delta_none hother)
  cases op with
  | startSession session strategy => exact absurd rfl (hop session strategy)
  | disconnect => exact iff_of_true rfl (not_spoils_of_delta_none rfl)
  | beginResync =>
    refine iff_of_true ?_ (not_spoils_of_delta_none rfl)
    simp only [step, beginResync, h]
    rw [if_pos (.inr (by decide))]
    exact h
  | applySnapshot snapshot session now =>
    exact iff_of_true (applySnapshotCandidate_disconnected h _ _ _ _ _)
      (not_spoils_of_delta_none rfl)
  | applySnapshotChecked snapshot session now latency checksum =>
    exact iff_of_true (applySnapshotCandidate_disconnected h _ _ _ _ _)
      (not_spoils_of_delta_none rfl)
  | applyDelta => exact delta rfl trivial none
  | applyDeltaWithPrevious => exact delta rfl trivial none
  | applyDeltaChecked _ _ _ latency => exact delta rfl trivial (some latency)
  | applyDeltaCheckedWithPrevious _ _ _ latency => exact delta rfl trivial (some latency)
  | applyEvent event => exact applyEvent_disconnected blake3 h event
  | applyL3Snapshot => exact ordered (refuseUncheckedL3_effect e .disconnect _ _) rfl
  | applyL3Events => exact ordered (refuseUncheckedL3_effect e .disconnect _ _) rfl
  | applyL3SnapshotChecked => exact ordered (applyL3SnapshotChecked_effect e _ _ _ _ _) rfl
  | applyL3EventsChecked => exact ordered (applyL3EventsChecked_effect e _ _ _ _ _) rfl

end OrderBookEngine

/-! ## Runs -/

/-- From every disconnected engine, a run of calls without a new session stays disconnected
    throughout exactly when no call brings a malformed delta of the kept session. -/
theorem disconnected_until_session (blake3 : Bytes → Hash32) (e : OrderBookEngine)
    (hstate : e.state = .disconnected) (ops : List Op)
    (hops : ∀ op ∈ ops, ∀ session strategy, op ≠ .startSession session strategy) :
    (∀ before after, ops = before ++ after → (e.run blake3 before).state = .disconnected) ↔
      ∀ before op after, ops = before ++ op :: after →
        ¬ (e.run blake3 before).Spoils blake3 op := by
  constructor
  · intro hstays before op after hsplit
    have hop := hops op (by rw [hsplit]; simp)
    rw [← OrderBookEngine.step_disconnected blake3 (hstays before (op :: after) hsplit) hop,
      OrderBookEngine.run, ← runAll_concat]
    exact hstays (before ++ [op]) after (by rw [hsplit, List.append_assoc]; rfl)
  · intro hspoils before after hsplit
    induction before using List.reverseRecOn generalizing after with
    | nil => exact hstate
    | append_singleton before op ih =>
      rw [List.append_assoc] at hsplit
      have hop := hops op (by rw [hsplit]; simp)
      rw [OrderBookEngine.run, runAll_concat]
      exact (OrderBookEngine.step_disconnected blake3 (ih _ hsplit) hop).mpr
        (hspoils before op after hsplit)

/-- The engine after a session that ended. -/
def endedSession : OrderBookEngine :=
  (OrderBookEngine.fresh (sampleConfig .exactNext)).run sampleDigest
    [.startSession sampleSession .externalBuffered, .disconnect]

/-- A well-formed late delta of the ended session leaves the state disconnected. -/
theorem disconnected_until_session_sample :
    endedSession.state = .disconnected ∧
      (endedSession.run sampleDigest
        [.applyDelta (sampleDelta 9 11) sampleSession 1]).state = .disconnected := by
  refine ⟨rfl, (disconnected_until_session sampleDigest endedSession rfl
    [.applyDelta (sampleDelta 9 11) sampleSession 1] (by simp)).mpr ?_ _ [] rfl⟩
  rintro before op after hsplit ⟨d, hdelta, -, -, err, herr⟩
  obtain ⟨rfl, rfl, rfl⟩ : before = [] ∧ op = .applyDelta (sampleDelta 9 11) sampleSession 1 ∧
      after = [] := by
    cases before <;> simp_all
  obtain rfl := Option.some.inj hdelta
  nomatch herr

/-- A late delta of the ended session without sequence numbers leaves the engine untrusted. -/
theorem disconnected_left_by_delta :
    endedSession.state = .disconnected ∧
      (endedSession.run sampleDigest
        [.applyDelta (sampleDelta 0 0) sampleSession 1]).state = .untrusted := by
  decide

end CryptoIntelligence.OrderBook
