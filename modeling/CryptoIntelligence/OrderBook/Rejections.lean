/-
  Rejections by the guards of the order-book engine. An update first checks its session and its
  time, an event also its identity, instrument and checksum, and none of these checks stores
  anything. What comes after them fails with other errors, with one exception: the replay loop has
  an exit for a buffered delta of another session, which drops the buffer. No run reaches that exit,
  because every delta that waits has the session of the engine.
-/
import CryptoIntelligence.OrderBook.Provenance

namespace CryptoIntelligence.OrderBook

open Lib Event OrderBookEngine

/-! ## Waiting deltas -/

/-- Every delta that waits has the session of the feed. -/
def Feed.Current (f : Feed) : Prop := ∀ d ∈ f.phase.pending, f.session = some d.session

theorem Feed.Current.of_empty {f : Feed} (h : f.phase.pending = []) : f.Current := by
  intro d hd
  rw [h] at hd
  cases hd

theorem Feed.Current.step {config : BookConfig} {f f' : Feed} {call : Call} (h : f.Current)
    (hstep : f.Step config call f') : f'.Current := by
  cases hstep with
  | stay => exact h
  | start => exact .of_empty rfl
  | disconnect => exact .of_empty rfl
  | resync => exact .of_empty rfl
  | lose => exact .of_empty rfl
  | install => exact .of_empty rfl
  | live => exact .of_empty rfl
  | refresh => exact h
  | @collect _ ds d hwaiting htime hsession hphase =>
    exact forall_mem_concat.mpr ⟨fun d' hold => h d' (by rw [hphase]; exact hold), hsession⟩

theorem current_run (blake3 : Bytes → Hash32) {config : BookConfig} {e : OrderBookEngine}
    (hnew : new config = .ok e) (ops : List Op) :
    (e.run blake3 ops).state ≠ .replaying ∧ (e.run blake3 ops).feed.Current := by
  obtain ⟨-, hstate, -⟩ := new_eq_ok hnew
  refine run_induction (step blake3)
    (fun _ e => e.state ≠ .replaying ∧ e.feed.Current) ⟨by rw [hstate]; decide, .of_empty ?_⟩ ?_ ops
  · unfold feed phase
    rw [hstate]
    rfl
  · rintro calls e op ⟨hstate, hcurrent⟩
    obtain ⟨hstep, hstate', -⟩ := step_refines blake3 hstate op
    exact ⟨hstate', hcurrent.step hstep⟩

/-! ## Every update -/

theorem Loss.unguarded {foreign : Prop} {verified : Except BookError Bool → Prop}
    {result : Except BookError ApplyResult} (h : Loss foreign verified result) (hnone : ¬ foreign) :
    Unguarded result := by
  have hlossErrors : ∀ err ∈ lossErrors, err.isGuard = false := by decide
  cases h with
  | gap => exact .ok _
  | mismatch => exact .ok _
  | error herr => exact .error (hlossErrors _ herr)
  | input => exact .error rfl
  | foreign h => exact absurd h hnone

namespace OrderBookEngine

/-- A call that returns an error of the guards leaves the engine as it was. -/
def Atomic {α : Type} (e : OrderBookEngine) (r : Attempt α) : Prop :=
  ∀ err, r.2 = .error err → err.isGuard = true → r.1 = e

variable {α : Type} {e : OrderBookEngine}

theorem Atomic.same (e : OrderBookEngine) (result : Except BookError α) :
    Atomic e (e, result) := fun _ _ _ => rfl

theorem Atomic.of_unguarded
    {r : Attempt α} (h : Unguarded r.2) : Atomic e r := by
  intro err herr hguard
  have hnot : err.isGuard = false := h err herr
  rw [hguard] at hnot
  cases hnot

theorem Atomic.map {β : Type} {r : Attempt α}
    (h : Atomic e r) (f : α → β) : Atomic e (r.1, r.2.map f) := by
  intro err herr hguard
  refine h err ?_ hguard
  cases hr : r.2 with
  | error err' =>
    simp only [hr, Except.map] at herr
    cases herr
    rfl
  | ok value =>
    simp only [hr, Except.map] at herr
    cases herr

theorem Effect.atomic {op : Op} {r : Attempt ApplyResult}
    (h : Effect e op r) (hstate : e.state ≠ .replaying) (hcurrent : e.feed.Current) :
    Atomic e r := by
  cases h with
  | declined _ herr => rcases herr with rfl | rfl <;> exact .of_unguarded (.error rfl)
  | lost ho _ hresult =>
    refine .of_unguarded (hresult.unguarded ?_)
    rintro ⟨hwaits, d, hd, hother⟩
    rw [← pending_eq_buffered hstate hwaits] at hd
    exact hother (Option.some.inj ((hcurrent d hd).symm.trans ho.current))
  | _ => exact .of_unguarded (.ok _)

theorem L3Effect.atomic {op : Op} {r : Attempt ApplyResult}
    (h : L3Effect e op r) : Atomic e r := by
  cases h with
  | declined _ herr => rcases herr with rfl | rfl | ⟨rfl, -⟩ <;> exact .of_unguarded (.error rfl)
  | dropped _ _ _ hresult => exact .of_unguarded hresult
  | held => exact .of_unguarded (.ok _)

theorem step_atomic (blake3 : Bytes → Hash32) (hstate : e.state ≠ .replaying)
    (hcurrent : e.feed.Current) (op : Op) : Atomic e (e.step blake3 op) := by
  have heffect := step_effect blake3 e op
  generalize e.step blake3 op = r at heffect ⊢
  cases heffect with
  | unstarted | unresynced | refused => exact .same e _
  | started | disconnected | resynced => exact .of_unguarded (.ok _)
  | updated h => exact (h.atomic hstate hcurrent).map _
  | ordered _ _ h => exact h.atomic.map _

theorem snapshot_unguarded (e : OrderBookEngine) : Unguarded e.snapshot := by
  unfold snapshot snapshotAt
  refine .bind (.reject rfl) fun _ => ?_
  -- a view at the time of the last update cannot be before it
  rw [reject_neg (UInt64.lt_irrefl e.updatedMonotonicNs), ok_bind]
  exact .bind (.required rfl) fun book => .bind (.required rfl) fun session => .ok _

theorem applyEventWithReceipt_atomic (blake3 : Bytes → Hash32)
    (hstate : e.state ≠ .replaying) (hcurrent : e.feed.Current) (event : EventEnvelope) :
    Atomic e (e.applyEventWithReceipt blake3 event) := by
  unfold applyEventWithReceipt
  have hevent : Atomic e (e.applyEvent blake3 event) := by
    have hanswer := applyEvent_effect blake3 e event
    generalize e.applyEvent blake3 event = r at hanswer ⊢
    cases hanswer with
    | refused => exact .same e _
    | taken h => exact h.atomic hstate hcurrent
  split
  · next e₁ err happlied =>
    intro err' herr hguard
    cases herr
    rw [happlied] at hevent
    exact hevent err rfl hguard
  · split
    · exact .of_unguarded (.ok _)
    · split
      · next err herr => exact .of_unguarded (.error (snapshot_unguarded _ err herr))
      · split
        · exact .of_unguarded (.ok _)
        · exact .of_unguarded (.ok _)

end OrderBookEngine

/-- In every reachable state a call that ends with an error of the guards leaves the whole engine as
    it was, and a replay of the buffer of a waiting engine, whatever the snapshot, never stops at
    the exit for another session. -/
theorem guard_rejections_atomic (blake3 : Bytes → Hash32) (config : BookConfig)
    (e : OrderBookEngine) (hnew : new config = .ok e) (ops : List Op) :
    (∀ op err, ((e.run blake3 ops).step blake3 op).2 = .error err → err.isGuard = true →
      ((e.run blake3 ops).step blake3 op).1 = e.run blake3 ops)
    ∧ (∀ event err, ((e.run blake3 ops).applyEventWithReceipt blake3 event).2 = .error err →
      err.isGuard = true →
      ((e.run blake3 ops).applyEventWithReceipt blake3 event).1 = e.run blake3 ops)
    ∧ (∀ session, (e.run blake3 ops).session = some session →
      (e.run blake3 ops).state = .buffering ∨ (e.run blake3 ops).state = .awaitingSnapshot →
      ∀ engine candidate now first,
        (replay session (e.run blake3 ops).buffered engine candidate now first).2
          ≠ .stopped (.error .invalidEpoch)) := by
  obtain ⟨hstate, hcurrent⟩ := current_run blake3 hnew ops
  refine ⟨fun op => OrderBookEngine.step_atomic blake3 hstate hcurrent op, fun event =>
    OrderBookEngine.applyEventWithReceipt_atomic blake3 hstate hcurrent event, ?_⟩
  intro session hsession hwaits engine candidate now first hstopped
  have hpending : (e.run blake3 ops).feed.phase.pending = (e.run blake3 ops).buffered := by
    unfold feed phase
    rcases hwaits with hwaits | hwaits <;> rw [hwaits] <;> rfl
  have hsame : ∀ d ∈ (e.run blake3 ops).buffered, d.session = session := by
    intro d hd
    rw [← hpending] at hd
    exact Option.some.inj ((hcurrent d hd).symm.trans hsession)
  have hreplayed := replay_replayed session (e.run blake3 ops).buffered engine
    candidate now first
  generalize replay session _ engine candidate now first = r at hreplayed hstopped
  generalize List.foldlM (advance engine.config session) (candidate, first) _ = last at hreplayed
  cases hreplayed with
  | aligned => cases hstopped
  | stopped _ hresult =>
    cases hstopped
    have hnone : ¬ ∃ d ∈ (e.run blake3 ops).buffered, d.session ≠ session :=
      fun ⟨d, hd, hother⟩ => hother (hsame d hd)
    exact absurd (hresult.unguarded hnone .invalidEpoch rfl) (by decide)

/-- A delta of an earlier session is refused and the engine that waits for a snapshot keeps its
    buffer. -/
theorem stale_session_refused :
    ((fresh (sampleConfig .rangeContainsNext)).run sampleDigest
      [.startSession ⟨1, 2, 1⟩ .externalBuffered,
        .applyDelta (sampleDelta 9 11) ⟨1, 2, 1⟩ 1]).buffered.length = 1
    ∧ (((fresh (sampleConfig .rangeContainsNext)).run
      sampleDigest
      [.startSession ⟨1, 2, 1⟩ .externalBuffered,
        .applyDelta (sampleDelta 9 11) ⟨1, 2, 1⟩ 1]).step sampleDigest
      (.applyDelta (sampleDelta 12 12) sampleSession 2)).1
      = (fresh (sampleConfig .rangeContainsNext)).run
        sampleDigest
        [.startSession ⟨1, 2, 1⟩ .externalBuffered,
          .applyDelta (sampleDelta 9 11) ⟨1, 2, 1⟩ 1] := by
  refine ⟨by decide +kernel, ?_⟩
  exact (guard_rejections_atomic _ (sampleConfig .rangeContainsNext) _
    (new_of_validate (by decide)) _).1 _ .invalidEpoch rfl rfl

end CryptoIntelligence.OrderBook
