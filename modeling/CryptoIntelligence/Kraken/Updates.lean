/-
  No update of a trusted Kraken book is skipped silently, with three exceptions. Kraken sends no
  sequence numbers, so a skipped update leaves no gap behind it: the next update gets the revision
  the skipped one would have had.

  `updates_drop_trust` gives the exact condition under which an update that is not applied costs
  the trust, shows that without trust no update is applied before a snapshot is, and that a run
  which meets the condition publishes the fold of every update offered since its last snapshot.
  `emptied_book_stays_published` is a run that does not meet it: an update that removes every level
  is refused, the book stays trusted, and later updates are applied to the levels it removed.
-/
import CryptoIntelligence.Kraken.Replica

namespace CryptoIntelligence.Kraken

open Lib Event OrderBook Decimal KrakenBookSynchronizer SyncCall List

variable {config : BookConfig} {s : KrakenBookSynchronizer}

theorem run_follows {r : Replica} (h : Follows config s r) (ops : List SyncOp) :
    ∃ r', Follows config (s.run ops) r' :=
  run_induction step (fun _ s => ∃ r', Follows config s r') ⟨r, h⟩
    (fun _ _ op ⟨_, h⟩ => (step_follows h op).imp fun _ h' => h'.2) ops

/-- Out of step, a call that installs no snapshot applies nothing and stays out of step. -/
theorem step_out (h : Follows config s none) {op : SyncOp}
    (hquiet : ¬ installs (op, (s.step op).2)) :
    appliedBook? (op, (s.step op).2) = none ∧ Follows config (s.step op).1 none := by
  obtain ⟨r', hstep, hfollows⟩ := step_follows h op
  generalize hcall : (op, (s.step op).2) = call at hstep hquiet ⊢
  cases hstep with
  | keep hnone _ => exact ⟨hnone, hfollows⟩
  | lose hnone _ => exact ⟨hnone, hfollows⟩
  | install hkind => exact absurd ⟨_, rfl, hkind⟩ hquiet

/-- Out of step, a run without an installed snapshot applies no update. -/
theorem run_out (ops : List SyncOp) : ∀ {s : KrakenBookSynchronizer}, Follows config s none →
    (∀ call ∈ s.history ops, ¬ installs call) →
    ∀ call ∈ s.history ops, appliedBook? call = none := by
  induction ops with
  | nil => exact fun _ _ call hmem => nomatch hmem
  | cons op ops ih =>
    intro s h hquiet call hmem
    obtain ⟨hnone, hnext⟩ := step_out h (hquiet _ mem_cons_self)
    rcases mem_cons.mp hmem with rfl | hrest
    · exact hnone
    · exact ih hnext (fun c hc => hquiet c (mem_cons_of_mem _ hc)) call hrest

/-- Every update for the instrument, offered while the book is trusted, gets past the early
    exits. -/
def KrakenBookSynchronizer.Attends (s : KrakenBookSynchronizer) (op : SyncOp) : Prop :=
  ∀ message now latency, op = .applySpot message now latency → s.state = .synchronized →
    message.Updates s.symbol → s.Takes message now

/-- The messages of a replica are the last installed snapshot and every update offered since. -/
def LoggedIn (symbol : String) (history : List SyncCall) (messages : List SpotBookMessage) : Prop :=
  ∃ before snapshot now latency after,
    history = before ++ (.applySpot snapshot now latency, .ok (some .applied)) :: after ∧
    snapshot.kind = .snapshot ∧ (∀ call ∈ after, ¬ installs call) ∧
    messages = snapshot :: after.filterMap (update? symbol)

theorem LoggedIn.concat {symbol : String} {history : List SyncCall}
    {messages : List SpotBookMessage} (h : LoggedIn symbol history messages) {call : SyncCall}
    (hquiet : ¬ installs call) :
    LoggedIn symbol (history ++ [call]) (messages ++ (update? symbol call).toList) := by
  obtain ⟨before, snapshot, now, latency, after, rfl, hkind, hafter, rfl⟩ := h
  refine ⟨before, snapshot, now, latency, after ++ [call], by simp, hkind,
    forall_mem_append.mpr ⟨hafter, forall_mem_singleton.mpr hquiet⟩, ?_⟩
  rw [filterMap_append, cons_append]
  cases hu : update? symbol call <;> simp [hu]

theorem not_installs_of_none {call : SyncCall} (h : appliedBook? call = none) :
    ¬ installs call := by
  rintro ⟨message, hsome, -⟩
  rw [h] at hsome
  cases hsome

theorem not_installs_of_updates {symbol : String} {message : SpotBookMessage}
    (h : message.Updates symbol) (now latency : UInt64) :
    ¬ installs (.applySpot message now latency, .ok (some .applied)) := by
  rintro ⟨snapshot, hsome, hkind⟩
  rw [← Option.some.inj hsome, h.kind] at hkind
  cases hkind

/-- One attended call keeps the log of the replica complete. -/
theorem logged_step {r : Replica} {history : List SyncCall} (h : Follows config s r)
    (hlog : ∀ messages, r = some messages →
      LoggedIn config.instrument.venueSymbol history messages) {op : SyncOp}
        (hattends : s.Attends op) :
    ∃ r', Follows config (s.step op).1 r' ∧ ∀ messages, r' = some messages →
      LoggedIn config.instrument.venueSymbol (history ++ [(op, (s.step op).2)]) messages := by
  obtain ⟨r', hstep, hfollows⟩ := step_follows h op
  refine ⟨r', hfollows, ?_⟩
  generalize hcall : (op, (s.step op).2) = call at hstep
  have hop : call.1 = op := by rw [← hcall]
  cases hstep with
  | keep hnone hearly =>
    rintro messages rfl
    have hoffers : update? config.instrument.venueSymbol call = none := by
      unfold update?
      split
      · rename_i message now latency heq
        split
        · rename_i hupdates
          refine absurd ?_ (hearly message now latency rfl heq hupdates)
          refine hattends message now latency (hop.symm.trans heq) (h.trusted.mpr rfl) ?_
          rw [h.symbol]
          exact hupdates
        · rfl
      · rfl
    have hsame := (hlog messages rfl).concat (not_installs_of_none hnone)
    rw [hoffers] at hsame
    simpa using hsame
  | lose _ _ => exact nofun
  | install hkind =>
    rintro messages hmessages
    rw [← Option.some.inj hmessages]
    exact ⟨history, _, _, _, [], rfl, hkind, nofun, rfl⟩
  | @extend earlier message now latency hupdates =>
    rintro messages hmessages
    rw [← Option.some.inj hmessages]
    have hnext := (hlog earlier rfl).concat
      (not_installs_of_updates hupdates now latency)
    have hoffers : update? config.instrument.venueSymbol
        (.applySpot message now latency, .ok (some .applied)) = some message := if_pos hupdates
    rw [hoffers] at hnext
    exact hnext

/-- An update that a trusted synchronizer does not apply costs the trust exactly when it gets past
    the early exits; without trust no update is applied before a snapshot is; and a run that
    attends to every update publishes the last installed snapshot and every update offered since. -/
theorem updates_drop_trust (config : BookConfig) (policy : KrakenL3Policy)
    (s : KrakenBookSynchronizer)
    (hnew : tryNewWithL3 config policy = .ok s) (ops : List SyncOp) :
    (∀ message now latency, (s.run ops).state = .synchronized → message.Updates s.symbol →
      ((s.run ops).applySpot message now latency).2 ≠ .ok .applied →
      (((s.run ops).applySpot message now latency).1.state ≠ .synchronized ↔
        (s.run ops).Takes message now)) ∧
    ((s.run ops).state ≠ .synchronized → ∀ later,
      (∀ call ∈ (s.run ops).history later, ¬ installs call) →
      ∀ call ∈ (s.run ops).history later, appliedBook? call = none) ∧
    ((∀ before op after, ops = before ++ op :: after → (s.run before).Attends op) →
      ∀ view, (s.run ops).snapshot = .ok view →
        ∃ messages, LoggedIn s.symbol (s.history ops) messages ∧
          view.bids = descendingLevels (exactOf config.maxLevelsPerSide messages).bids ∧
          view.asks = ascendingLevels (exactOf config.maxLevelsPerSide messages).asks) := by
  have hstart := tryNewWithL3_follows hnew
  have hsymbol : s.symbol = config.instrument.venueSymbol := hstart.symbol
  refine ⟨fun message now latency hstate hupdates hresult => ?_, fun hstate later hquiet => ?_,
    fun hattends view hview => ?_⟩
  · obtain ⟨r, hfollows⟩ := run_follows hstart ops
    obtain ⟨r', hstep, hfollows'⟩ := applySpot_follows hfollows message now latency
    rw [hsymbol] at hupdates
    have hr : r.isSome := hfollows.trusted.mp hstate
    generalize hcall : (SyncOp.applySpot message now latency,
      ((s.run ops).applySpot message now latency).2.map some) = call at hstep
    have hop : call.1 = .applySpot message now latency := by rw [← hcall]
    have hnone : appliedBook? call = none := hcall ▸ appliedBook?_eq_none hresult
    rw [ne_eq, not_congr hfollows'.trusted]
    cases hstep with
    | keep _ hearly =>
      exact iff_of_false (not_not.mpr hr) (hearly message now latency hr hop hupdates)
    | lose _ htakes => exact iff_of_true nofun (htakes message now latency hr hop hupdates)
    | install _ => nomatch hnone
    | extend _ => nomatch hnone
  · obtain ⟨r, hfollows⟩ := run_follows hstart ops
    obtain rfl : r = none := Option.not_isSome_iff_eq_none.mp fun h =>
      hstate (hfollows.trusted.mpr h)
    exact run_out later hfollows hquiet
  · obtain ⟨r, hfollows, hlog⟩ := run_induction_of step
      KrakenBookSynchronizer.Attends
      (fun history s => ∃ r, Follows config s r ∧ ∀ messages, r = some messages →
        LoggedIn config.instrument.venueSymbol history messages)
      ⟨none, hstart, nofun⟩ (fun _ _ _ ⟨_, h, hlog⟩ hok => logged_step h hlog hok) ops hattends
    obtain ⟨book, hphase, -, hbids, hasks, -, -⟩ := snapshot_eq_ok hview
    obtain ⟨hstate, hbook⟩ := OrderBookEngine.phase_eq_trusted hphase
    obtain ⟨messages, rfl⟩ := Option.isSome_iff_exists.mp (hfollows.trusted.mp hstate)
    obtain ⟨held, hheld, hshown, -⟩ := (hfollows.held messages rfl).book
    obtain rfl : book = held := Option.some.inj (hbook.symm.trans hheld)
    refine ⟨messages, hsymbol.symm ▸ hlog messages rfl, ?_, ?_⟩
    · rw [hbids, hshown.bidsDescending]
    · rw [hasks, hshown.asksAscending]

/-! ## A run that skips an update -/

/-- The sample configuration on Kraken's terms. -/
def krakenConfig : BookConfig :=
  { sampleConfig .exactNext with
    instrument := Domain.krakenSpot
    checksumPolicy := .required }

def krakenSync : KrakenBookSynchronizer := .fresh krakenConfig .disabled

theorem tryNew_krakenConfig : tryNewWithL3 krakenConfig .disabled =
    .ok krakenSync := by
  have haccepts : accepts krakenConfig .disabled = true := by decide +kernel
  have hengine : OrderBookEngine.new krakenConfig = .ok (.fresh krakenConfig) :=
    OrderBookEngine.new_of_validate (by decide)
  unfold tryNewWithL3
  rw [haccepts, hengine]
  rfl

/-- The empty quantity, which removes a level. -/
def noQuantity : Quantity := ⟨.whole 0 (by decide), by decide⟩

/-- A level at price 98 with quantity 2. -/
def lowBid : BookLevel := { sampleBid with price := ⟨.whole 98 (by decide), by decide⟩ }

def bookSnapshotMessage : SpotBookMessage where
  symbol := "BTC/USD"
  kind := .snapshot
  checksum := ieeeCrc32 (utf8 "1013992")
  bids := [⟨sampleBid.price, sampleBid.quantity, "99", "2"⟩]
  asks := [⟨sampleAsk.price, sampleAsk.quantity, "101", "3"⟩]

/-- An update that removes both levels of the snapshot. -/
def removeAll : SpotBookMessage where
  symbol := "BTC/USD"
  kind := .update
  checksum := 0
  bids := [⟨sampleBid.price, noQuantity, "99", "0"⟩]
  asks := [⟨sampleAsk.price, noQuantity, "101", "0"⟩]

/-- An update that adds a bid below the best one. -/
def addLow : SpotBookMessage where
  symbol := "BTC/USD"
  kind := .update
  checksum := ieeeCrc32 (utf8 "1013992982")
  bids := [⟨lowBid.price, lowBid.quantity, "98", "2"⟩]
  asks := []

/-- A session with its snapshot. -/
def krakenStart : List SyncOp :=
  [.startSession sampleSession, .applySpot bookSnapshotMessage 1 0]

/-- A snapshot and an update, attended to and published. -/
def krakenRun : List SyncOp := krakenStart ++ [.applySpot addLow 2 0]

theorem krakenRun_attends (before : List SyncOp) (op : SyncOp) (after : List SyncOp)
    (h : krakenRun = before ++ op :: after) : (krakenSync.run before).Attends op := by
  intro message now latency hop hstate hupdates
  subst hop
  rcases before with _ | ⟨first, _ | ⟨second, _ | ⟨third, rest⟩⟩⟩
  · nomatch h
  · obtain ⟨-, htail⟩ := List.cons.inj h
    obtain ⟨rfl, -, -⟩ := SyncOp.applySpot.inj (List.cons.inj htail).1
    exact nomatch hupdates.kind
  · obtain ⟨rfl, htail⟩ := List.cons.inj h
    obtain ⟨rfl, hlast⟩ := List.cons.inj htail
    obtain ⟨rfl, rfl, -⟩ := SyncOp.applySpot.inj (List.cons.inj hlast).1
    exact ⟨by decide +kernel, by decide +kernel, by decide +kernel⟩
  · have hlength := congrArg List.length h
    simp [krakenRun, krakenStart] at hlength

/-- The view after the run is the fold of its snapshot and its update. -/
theorem updates_drop_trust_sample :
    ∃ view messages, (krakenSync.run krakenRun).snapshot = .ok view ∧
      LoggedIn krakenSync.symbol (krakenSync.history krakenRun) messages ∧
      view.bids = descendingLevels (exactOf 10 messages).bids := by
  have hsome : (krakenSync.run krakenRun).snapshot.toOption.isSome = true := by decide +kernel
  cases hview : (krakenSync.run krakenRun).snapshot with
  | error err =>
    rw [hview] at hsome
    nomatch hsome
  | ok view =>
    obtain ⟨messages, hlog, hbids, -⟩ := (updates_drop_trust krakenConfig .disabled krakenSync
      tryNew_krakenConfig krakenRun).2.2 krakenRun_attends view hview
    exact ⟨view, messages, rfl, hlog, hbids⟩

/-- The update that removes every level is refused, the book stays trusted, and after the next
    update both removed levels are still published, while the messages make a book of one bid. -/
theorem emptied_book_stays_published :
    (krakenSync.run krakenStart).state = .synchronized ∧ removeAll.Updates krakenSync.symbol ∧
      ((krakenSync.run krakenStart).applySpot removeAll 2 0).2 =
        .error (.book .invalidChecksumInput) ∧
      ((krakenSync.run krakenStart).applySpot removeAll 2 0).1.state = .synchronized ∧
      ((krakenSync.run krakenStart).applySpot removeAll 2 0).1.snapshot.toOption.isSome = true ∧
      ((krakenSync.run (krakenStart ++ [.applySpot removeAll 2 0])).applySpot addLow 3 0).2 =
        .ok .applied ∧
      (krakenSync.run (krakenStart ++ [.applySpot removeAll 2 0,
          .applySpot addLow 3 0])).snapshot.toOption.map (fun view => (view.bids, view.asks)) =
        some ([sampleBid, lowBid], [sampleAsk]) ∧
      descendingLevels (exactOf 10 [bookSnapshotMessage, removeAll, addLow]).bids = [lowBid] ∧
      ascendingLevels (exactOf 10 [bookSnapshotMessage, removeAll, addLow]).asks = [] := by
  decide +kernel

end CryptoIntelligence.Kraken
