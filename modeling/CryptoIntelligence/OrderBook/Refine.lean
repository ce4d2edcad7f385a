/-
  The order-book engine refines the feed: every call of every public method, on success and on every
  error exit, is a step of the feed (`step_refines`). The cases are those of `step_effect`; each
  says what became of the fields a feed is made of.
-/
import CryptoIntelligence.OrderBook.Effects

namespace CryptoIntelligence.OrderBook

open Lib Event

namespace OrderBookEngine

/-! ## Abstraction -/

/-- The phase of the feed an engine is in. -/
def phase (e : OrderBookEngine) : Phase :=
  match e.state, e.book with
  | .disconnected, _ => .idle
  | .buffering, _ | .awaitingSnapshot, _ => .collecting e.buffered
  | .synchronized, some book => .trusted book
  | .synchronized, none | .replaying, _ | .untrusted, _ => .lost

/-- The feed an engine maintains. -/
def feed (e : OrderBookEngine) : Feed := ⟨e.session, e.strategy, e.phase, e.updatedMonotonicNs⟩

variable {e e₁ e' : OrderBookEngine} {book : L2Book} {session : BookSession}
    {now updated : UInt64} {result : Except BookError ApplyResult} {op : Op}

theorem phase_eq_trusted (h : e.phase = .trusted book) :
    e.state = .synchronized ∧ e.book = some book := by
  unfold phase at h
  split at h
  case h_4 hstate hbook =>
    obtain rfl := Phase.trusted.inj h
    exact ⟨hstate, hbook⟩
  all_goals cases h

theorem phase_of_waits (h : e.state = .buffering ∨ e.state = .awaitingSnapshot) :
    e.phase = .collecting e.buffered := by
  unfold phase
  rcases h with h | h <;> rw [h]

/-- In a state that accepts an outside snapshot the pending deltas are the buffer. -/
theorem pending_eq_buffered (hreplaying : e.state ≠ .replaying) (h : e.state ≠ .disconnected ∧
    e.state ≠ .untrusted ∧ e.state ≠ .synchronized) : e.feed.phase.pending = e.buffered := by
  unfold feed phase
  cases hs : e.state with
  | buffering => rfl
  | awaitingSnapshot => rfl
  | disconnected => exact absurd hs h.1
  | replaying => exact absurd hs hreplaying
  | untrusted => exact absurd hs h.2.1
  | synchronized => exact absurd hs h.2.2

theorem Entered.phase (h : Entered e session now e') : e'.phase = e.phase := by
  unfold OrderBookEngine.phase
  rw [h.state, h.book, h.buffered]

theorem Entered.feed (h : Entered e session now e') :
    e'.feed = { e.feed with updated := e'.updatedMonotonicNs } := by
  unfold OrderBookEngine.feed
  rw [h.phase, h.session, h.strategy]

theorem Opened.feed (h : Opened e session now e') : e'.feed = e.feed := by
  rw [h.toEntered.feed, h.updated]
  rfl

theorem Lost.feed (h : Lost e e') : e'.feed = { e.feed with phase := .lost } := by
  unfold OrderBookEngine.feed OrderBookEngine.phase
  rw [h.state, h.session, h.strategy, h.updated]

theorem Installed.feed (h : Installed e e' book updated) :
    e'.feed = { e.feed with phase := .trusted book, updated } := by
  unfold OrderBookEngine.feed OrderBookEngine.phase
  rw [h.state, h.book, h.session, h.strategy, h.updated]

/-! ## Refinement -/

/-- A call is a step of the feed, and the replaying state never shows. -/
structure Refined (e : OrderBookEngine) (op : Op) (r : OrderBookEngine × Outcome) : Prop where
  step : e.feed.Step e.config ⟨op, r.2⟩ r.1.feed
  state : r.1.state ≠ .replaying
  config : r.1.config = e.config

/-- A call that applied nothing neither installed a snapshot nor applied a delta. -/
theorem quiet_of_not_applied (op : Op) (h : result ≠ .ok .applied) :
    ¬ Call.installs ⟨op, result.map some⟩ ∧ Call.applied? ⟨op, result.map some⟩ = none := by
  cases result with
  | error err => exact ⟨(fun hi => nomatch hi.2), rfl⟩
  | ok r =>
    cases r with
    | applied => exact absurd rfl h
    | _ => exact ⟨(fun hi => nomatch hi.2), rfl⟩

theorem refined_of_same (op : Op) (hfeed : e'.feed = e.feed) (hstate : e'.state ≠ .replaying)
    (hconfig : e'.config = e.config) (hresult : result ≠ .ok .applied) :
    Refined e op (e', result.map some) := by
  obtain ⟨hi, ha⟩ := quiet_of_not_applied op hresult
  refine ⟨?_, hstate, hconfig⟩
  rw [hfeed]
  exact .stay hi ha

theorem refined_of_opened (op : Op) (hstate : e.state ≠ .replaying) (h : Opened e session now e')
    (hresult : result ≠ .ok .applied) : Refined e op (e', result.map some) :=
  refined_of_same op h.feed (h.state ▸ hstate) h.config hresult

theorem refined_of_installed (ho : Opened e session now e₁) (h : Installed e₁ e' book updated)
    (hstep : e.feed.Step e.config ⟨op, .ok (some .applied)⟩
      { e.feed with phase := .trusted book, updated }) :
    Refined e op (e', .ok (some .applied)) := by
  refine ⟨?_, by rw [h.state]; decide, h.config.trans ho.config⟩
  rw [h.feed, ho.feed]
  exact hstep

theorem effect_refined (hstate : e.state ≠ .replaying)
    {r : Attempt ApplyResult} (h : Effect e op r) :
    Refined e op (r.1, r.2.map some) := by
  cases h with
  | declined ho => exact refined_of_opened op hstate ho nofun
  | duplicate _ ho => exact refined_of_opened op hstate ho nofun
  | unheard _ ho => exact refined_of_opened op hstate ho nofun
  | lost ho hl hresult =>
    obtain ⟨hi, ha⟩ := quiet_of_not_applied op hresult.ne_applied
    refine ⟨?_, by rw [hl.state]; decide, hl.config.trans ho.config⟩
    rw [hl.feed, ho.feed]
    exact .lose hi ha
  | @collected e₁ d levelUpdates hop ho hwaits =>
    refine ⟨?_, ho.state ▸ hstate, ho.config⟩
    have hphase := phase_of_waits hwaits
    have hphase' : OrderBookEngine.phase { e₁ with
        buffered := e₁.buffered ++ [d], bufferedLevelUpdates := levelUpdates } =
          .collecting (e₁.buffered ++ [d]) := phase_of_waits (ho.state ▸ hwaits)
    unfold feed
    rw [hphase', ho.buffered, ho.session, ho.strategy, ho.updated]
    exact .collect hop (Op.of_delta hop).2 ho.current hphase
  | streamed hop htime ho hbase _ hi =>
    exact refined_of_installed ho hi (.install hop (Op.delta?_of_snapshot hop) ho.current hbase
      (List.nil_sublist _) (.nil _ _) (.inl htime))
  | aligned hop htime ho _ hwaits hbase _ hsub hchain hupdated hi =>
    have hpending := pending_eq_buffered hstate hwaits
    refine refined_of_installed ho hi (.install hop (Op.delta?_of_snapshot hop) ho.current hbase
      (hpending ▸ hsub) hchain ?_)
    rw [hpending]
    exact hupdated.imp_left fun h => by rw [h, htime]
  | live hop ho hsynchronized hbook hnewer hfollow hi =>
    obtain ⟨hsnapshot, htime⟩ := Op.of_delta hop
    refine refined_of_installed ho hi
      (.live hop hsnapshot htime ho.current ?_ hnewer hfollow)
    simp only [feed, phase, hsynchronized, hbook]

theorem l3Effect_refined (hstate : e.state ≠ .replaying) (hsnapshot : op.snapshot? = none)
    (hdelta : op.delta? = none) {r : Attempt ApplyResult}
    (h : L3Effect e op r) : Refined e op (r.1, r.2.map some) := by
  cases h with
  | declined ho => exact refined_of_opened op hstate ho nofun
  | dropped ht _ hupdated _ hresult =>
    refine refined_of_same op ?_ (ht.state ▸ hstate) ht.config hresult
    rw [ht.feed, hupdated]
    rfl
  | held htime ht _ _ _ hupdated =>
    refine ⟨?_, ht.state ▸ hstate, ht.config⟩
    rw [ht.feed, hupdated]
    exact .refresh hsnapshot hdelta htime

/-- Every call of the engine is a step of the feed, keeps the configuration, and leaves no engine
    in the replaying state. -/
theorem step_refines (blake3 : Bytes → Hash32) (hstate : e.state ≠ .replaying) (op : Op) :
    e.feed.Step e.config ⟨op, (e.step blake3 op).2⟩ (e.step blake3 op).1.feed ∧
      (e.step blake3 op).1.state ≠ .replaying ∧ (e.step blake3 op).1.config = e.config := by
  have heffect := step_effect blake3 e op
  generalize e.step blake3 op = r at heffect ⊢
  suffices h : Refined e op r from ⟨h.step, h.state, h.config⟩
  cases heffect with
  | unstarted => exact ⟨.stay (fun h => nomatch h.1) rfl, hstate, rfl⟩
  | @started session strategy _ =>
    cases strategy with
    | externalBuffered => exact ⟨.start session .externalBuffered, nofun, rfl⟩
    | streamSnapshot => exact ⟨.start session .streamSnapshot, nofun, rfl⟩
  | disconnected => exact ⟨.disconnect, nofun, rfl⟩
  | unresynced => exact ⟨.stay (fun h => nomatch h.1) rfl, hstate, rfl⟩
  | resynced => exact ⟨.resync, nofun, rfl⟩
  | refused => exact ⟨.stay (fun h => nomatch h.2) rfl, hstate, rfl⟩
  | updated h => exact effect_refined hstate h
  | ordered hsnapshot hdelta h => exact l3Effect_refined hstate hsnapshot hdelta h

end OrderBookEngine

end CryptoIntelligence.OrderBook
