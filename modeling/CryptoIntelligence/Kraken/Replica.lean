/-
  The synchronizer as a replica of the venue's book. A replica is either out of step or holds the
  messages its book is made of: a snapshot and the updates after it. `Replica.Step` says how a call
  may move it, and `step_follows` that every call of the synchronizer is such a step. An update
  offered to a replica in step either extends it or puts it out of step, unless it leaves
  `apply_spot` by one of the three early exits that `Takes` rules out: then the book stays trusted
  without it.
-/
import CryptoIntelligence.Lib.Run
import CryptoIntelligence.OrderBook.Published
import CryptoIntelligence.Kraken.ExactBook

namespace CryptoIntelligence.Kraken

open Lib Event OrderBook KrakenBookSynchronizer OrderBookEngine

/-! ## Runs -/

/-- A call of a public method that changes the synchronizer. -/
inductive SyncOp where
  | startSession (session : BookSession)
  | disconnect
  | applySpot (message : SpotBookMessage) (now latency : UInt64)
  | applyLevel3 (message : SpotL3Message) (now latency : UInt64)

/-- What a call returned; `none` for the methods that return `()`. -/
abbrev SyncOutcome := Except KrakenBookSyncError (Option ApplyResult)

/-- One call on the synchronizer. -/
def KrakenBookSynchronizer.step (s : KrakenBookSynchronizer) :
    SyncOp → KrakenBookSynchronizer × SyncOutcome
  | .startSession session =>
    ((s.startSession session).1, (s.startSession session).2.map fun _ => none)
  | .disconnect => (s.disconnect, .ok none)
  | .applySpot message now latency =>
    ((s.applySpot message now latency).1, (s.applySpot message now latency).2.map some)
  | .applyLevel3 message now latency =>
    ((s.applyLevel3 message now latency).1, (s.applyLevel3 message now latency).2.map some)

abbrev SyncCall := SyncOp × SyncOutcome

/-- The synchronizer after a run of calls. -/
abbrev KrakenBookSynchronizer.run (s : KrakenBookSynchronizer) (ops : List SyncOp) :
    KrakenBookSynchronizer := runAll step s ops

/-- The calls of a run with what each of them returned. -/
abbrev KrakenBookSynchronizer.history (s : KrakenBookSynchronizer) (ops : List SyncOp) :
    List SyncCall := historyOf step s ops

/-- An update for the configured instrument. -/
structure SpotBookMessage.Updates (symbol : String) (message : SpotBookMessage) : Prop where
  kind : message.kind = .update
  symbol : canonicalSpotSymbol message.symbol = symbol

instance (symbol : String) (message : SpotBookMessage) : Decidable (message.Updates symbol) :=
  decidable_of_iff (message.kind = .update ∧ canonicalSpotSymbol message.symbol = symbol)
    ⟨fun h => ⟨h.1, h.2⟩, fun h => ⟨h.1, h.2⟩⟩

/-- A book message that was applied. -/
def SyncCall.appliedBook? (call : SyncCall) : Option SpotBookMessage :=
  match call with
  | (.applySpot message _ _, .ok (some .applied)) => some message
  | _ => none

/-- A snapshot that became the book. -/
def SyncCall.installs (call : SyncCall) : Prop :=
  ∃ message, SyncCall.appliedBook? call = some message ∧ message.kind = .snapshot

/-- The update for the configured instrument that a call offers. -/
def SyncCall.update? (symbol : String) (call : SyncCall) : Option SpotBookMessage :=
  match call.1 with
  | .applySpot message _ _ => if message.Updates symbol then some message else none
  | _ => none

/-- The message leaves `apply_spot` by none of the early exits, which return an error before the
    book is put in doubt: the revision has a successor, the checksum of the new book can be built,
    and the clock did not go back. -/
structure KrakenBookSynchronizer.Takes (s : KrakenBookSynchronizer) (message : SpotBookMessage)
    (now : UInt64) : Prop where
  revision : (checkedNext s.localRevision).isSome
  checksum : (checksumFor message.checksum (s.candidate message).asks
    (s.candidate message).bids).toBool = true
  clock : s.engine.lastObservedMonotonicNs ≤ now

/-! ## The replica -/

/-- The messages the book is made of, first the snapshot; `none` when the book is not trusted. -/
abbrev Replica := Option (List SpotBookMessage)

/-- The exact book a list of messages makes. -/
def exactOf (depth : Nat) (messages : List SpotBookMessage) : ExactBook :=
  messages.foldl (fun book message => book.apply depth message) ExactBook.empty

/-- The ways a call can move a replica; `takes` says which updates do not leave early. -/
inductive Replica.Step (symbol : String) (takes : SpotBookMessage → UInt64 → Prop) :
    Replica → SyncCall → Replica → Prop
  /-- Nothing changes. An update to a replica in step gets here only by leaving early. -/
  | keep {r : Replica} {call : SyncCall} :
    SyncCall.appliedBook? call = none →
    (∀ message now latency, r.isSome → call.1 = .applySpot message now latency →
      message.Updates symbol → ¬ takes message now) → Step symbol takes r call r
  /-- The book is given up. -/
  | lose {r : Replica} {call : SyncCall} :
    SyncCall.appliedBook? call = none →
    (∀ message now latency, r.isSome → call.1 = .applySpot message now latency →
      message.Updates symbol → takes message now) → Step symbol takes r call none
  | install {r : Replica} {message : SpotBookMessage} {now latency : UInt64} :
    message.kind = .snapshot →
    Step symbol takes r (.applySpot message now latency, .ok (some .applied)) (some [message])
  | extend {messages : List SpotBookMessage} {message : SpotBookMessage} {now latency : UInt64} :
    message.Updates symbol →
    Step symbol takes (some messages) (.applySpot message now latency, .ok (some .applied))
      (some (messages ++ [message]))

/-! ## The engine below -/

/-- What no update of the engine touches. -/
structure Kept (e e' : OrderBookEngine) : Prop where
  config : e'.config = e.config
  session : e'.session = e.session
  strategy : e'.strategy = e.strategy

variable {e e₁ e' : OrderBookEngine} {session : BookSession} {now : UInt64}

/-- The engine after a call that moved neither the state nor the book. -/
structure Opened (e e' : OrderBookEngine) : Prop extends Kept e e' where
  state : e'.state = e.state
  book : e'.book = e.book

theorem Opened.refl (e : OrderBookEngine) : Opened e e := ⟨⟨rfl, rfl, rfl⟩, rfl, rfl⟩

theorem opened_of (h : e.Opened session now e') : Opened e e' :=
  ⟨⟨h.config, h.session, h.strategy⟩, h.state, h.book⟩

theorem kept_of_lost (ho : e.Opened session now e₁) (hl : e₁.Lost e') : Kept e e' :=
  ⟨hl.config.trans ho.config, hl.session.trans ho.session, hl.strategy.trans ho.strategy⟩

theorem kept_of_installed {book : L2Book} {updated : UInt64} (ho : e.Opened session now e₁)
    (hi : e₁.Installed e' book updated) : Kept e e' :=
  ⟨hi.config.trans ho.config, hi.session.trans ho.session, hi.strategy.trans ho.strategy⟩

/-- The ways the engine answers a message: nothing moves, the trust is lost, or a book is made. -/
inductive Moved (e : OrderBookEngine) (stays heard : Prop) (makes : L2Book → Prop) :
    Attempt ApplyResult → Prop
  | kept {e' : OrderBookEngine} {result : Except BookError ApplyResult} :
    Opened e e' → result ≠ .ok .applied ∧ result ≠ .ok .checksumMismatch → stays →
    Moved e stays heard makes (e', result)
  | lost {e' : OrderBookEngine} {result : Except BookError ApplyResult} :
    Kept e e' → result ≠ .ok .applied → e'.state = .untrusted → heard →
    Moved e stays heard makes (e', result)
  | made {e' : OrderBookEngine} {next : L2Book} :
    Kept e e' → e'.state = .synchronized → e'.book = some next → makes next →
    Moved e stays heard makes (e', .ok .applied)

/-- A delta to a trusted book is applied or costs the trust, unless it fails the opening checks or
    is not newer than the book. -/
theorem applyDeltaChecked_moved (e : OrderBookEngine) (delta : BookDelta) (session : BookSession)
    (now latency : UInt64) (checksum : KrakenV2Checksum) :
    Moved e
      (e.state = .synchronized → e.validateCurrentSession session = .ok () →
        e.lastObservedMonotonicNs ≤ now → ∀ book, e.book = some book →
          delta.lastSequence ≤ book.sequence)
      (e.lastObservedMonotonicNs ≤ now)
      (fun next => e.state = .synchronized ∧
        ∃ book, e.book = some book ∧ book.applyDelta delta e.config = .ok next)
      (e.applyDeltaChecked delta session now latency checksum) := by
  unfold applyDeltaChecked applyDeltaCandidate
  cases hbegin : e.beginUpdate session now with
  | error err =>
    refine .kept (.refl e) ⟨nofun, nofun⟩ fun _ hsession hclock => ?_
    rw [beginUpdate_eq_ok.mpr ⟨hsession, UInt64.not_lt.mpr hclock, rfl⟩] at hbegin
    cases hbegin
  | ok e₀ =>
    have hclock := UInt64.not_lt.mp (beginUpdate_eq_ok.mp hbegin).2.1
    have heffect : e.Effect (.applyDeltaChecked delta session now latency checksum)
        (acceptDelta _ delta session now (some checksum) none) :=
      acceptDelta_effect (d := ⟨delta, session, now, some checksum, none⟩)
        (opened_of_beginUpdate hbegin (some latency)) rfl
    dsimp only
    generalize acceptDelta _ delta session now (some checksum) none = r at heffect ⊢
    cases heffect with
    | declined ho _ hreason =>
      refine .kept (opened_of ho) ⟨nofun, nofun⟩ fun _ _ _ book hbook => ?_
      rw [hbook] at hreason
      rcases hreason with h | h <;> cases h
    | duplicate hop ho _ hold hstale =>
      cases hop
      refine .kept (opened_of ho) ⟨nofun, nofun⟩ fun _ _ _ book hbook => ?_
      rw [← Option.some.inj (hold.symm.trans hbook)]
      exact hstale
    | unheard _ ho hother =>
      exact .kept (opened_of ho) ⟨nofun, nofun⟩ fun hstate => absurd hstate hother.1
    | lost ho hl hresult => exact .lost (kept_of_lost ho hl) hresult.ne_applied hl.state hclock
    | collected _ ho hwaits =>
      refine .kept ⟨⟨ho.config, ho.session, ho.strategy⟩, ho.state, ho.book⟩
        ⟨nofun, nofun⟩ fun hstate => ?_
      rw [hstate] at hwaits
      rcases hwaits with h | h <;> cases h
    | streamed hop => cases hop
    | aligned hop => cases hop
    | live hop ho hstate hold _ hfollow hi =>
      cases hop
      exact .made (kept_of_installed ho hi) hi.state hi.book
        ⟨hstate, _, hold, (follow_eq_some hfollow).2.1⟩

/-- A snapshot of a stream becomes the book, costs the trust, or is refused. -/
theorem applySnapshotChecked_moved
    (hstrategy : ∀ strategy ∈ e.strategy, strategy = .streamSnapshot) (snapshot : BookSnapshot)
    (session : BookSession) (now latency : UInt64) (checksum : KrakenV2Checksum) :
    Moved e True True (fun base => L2Book.fromSnapshot snapshot e.config = .ok base)
      (e.applySnapshotChecked snapshot session now latency checksum) := by
  have hanswer : e.Answer (e.Effect (.applySnapshotChecked snapshot session now latency checksum))
      (e.applySnapshotCandidate snapshot session now (some checksum) (some latency)) :=
    applySnapshotCandidate_effect e rfl rfl rfl (some latency)
  unfold applySnapshotChecked
  generalize e.applySnapshotCandidate snapshot session now (some checksum) (some latency) = r
    at hanswer ⊢
  cases hanswer with
  | refused => exact .kept (.refl e) ⟨nofun, nofun⟩ trivial
  | taken heffect =>
    cases heffect with
    | declined ho => exact .kept (opened_of ho) ⟨nofun, nofun⟩ trivial
    | lost ho hl hresult => exact .lost (kept_of_lost ho hl) hresult.ne_applied hl.state trivial
    | streamed hop _ ho hbase _ hi =>
      cases hop
      exact .made (kept_of_installed ho hi) hi.state hi.book hbase
    | aligned _ _ _ hexternal => cases hstrategy _ hexternal
    | duplicate hop => cases hop
    | unheard hop => cases hop
    | collected hop => cases hop
    | live hop => cases hop

/-- Order-level messages leave the price-level book alone. -/
theorem opened_of_l3 {op : Op} {r : Attempt ApplyResult}
    (h : e.Answer (e.L3Effect op) r) : Opened e r.1 := by
  obtain ⟨hconfig, hsession, hstrategy, hstate, hbook⟩ := l3_same h
  exact ⟨⟨hconfig, hsession, hstrategy⟩, hstate, hbook⟩

/-! ## The synchronizer follows the replica -/

/-- What the synchronizer never changes, and what its sessions have passed. -/
structure Configured (config : BookConfig) (s : KrakenBookSynchronizer) : Prop where
  engineConfig : s.engine.config = config
  depth : s.maxDepth = config.maxLevelsPerSide
  symbol : s.symbol = config.instrument.venueSymbol
  strategy : ∀ strategy ∈ s.engine.strategy, strategy = .streamSnapshot
  session : ∀ session ∈ s.engine.session, s.engine.validateCurrentSession session = .ok ()

/-- The book of the engine is the one the messages make, numbered by the local revision. -/
structure Holds (config : BookConfig) (s : KrakenBookSynchronizer)
    (messages : List SpotBookMessage) : Prop where
  exact : ExactBook.mk s.exactBids s.exactAsks = exactOf config.maxLevelsPerSide messages
  book : ∃ book, s.engine.book = some book ∧
    (exactOf config.maxLevelsPerSide messages).Shown book ∧ book.sequence = s.localRevision
  revision : s.localRevision ≠ 0
  session : s.engine.session.isSome

/-- The synchronizer is where the replica says. -/
structure Follows (config : BookConfig) (s : KrakenBookSynchronizer) (r : Replica) : Prop
    extends Configured config s where
  trusted : s.state = .synchronized ↔ r.isSome
  held : ∀ messages, r = some messages → Holds config s messages

theorem validateCurrentSession_kept {e' : OrderBookEngine} (h : Kept e e') (session : BookSession) :
    e'.validateCurrentSession session = e.validateCurrentSession session := by
  unfold validateCurrentSession
  rw [h.config, h.session]

/-- Only the engine and the exact levels moved. -/
theorem Configured.of_kept {config : BookConfig} {s s' : KrakenBookSynchronizer}
    (h : Configured config s) (hkept : Kept s.engine s'.engine) (hdepth : s'.maxDepth = s.maxDepth)
    (hsymbol : s'.symbol = s.symbol) : Configured config s' := by
  refine ⟨hkept.config.trans h.engineConfig, hdepth.trans h.depth, hsymbol.trans h.symbol, ?_, ?_⟩
  · rw [hkept.strategy]
    exact h.strategy
  · intro session hs
    rw [validateCurrentSession_kept hkept]
    exact h.session session (hkept.session ▸ hs)

/-- The book, the exact levels and the revision stayed. -/
theorem Follows.of_opened {config : BookConfig} {s s' : KrakenBookSynchronizer} {r : Replica}
    (h : Follows config s r) (hopened : Opened s.engine s'.engine)
    (hdepth : s'.maxDepth = s.maxDepth)
    (hsymbol : s'.symbol = s.symbol) (hbids : s'.exactBids = s.exactBids)
    (hasks : s'.exactAsks = s.exactAsks) (hrevision : s'.localRevision = s.localRevision) :
    Follows config s' r := by
  refine ⟨h.toConfigured.of_kept hopened.toKept hdepth hsymbol, ?_, fun messages hr => ?_⟩
  · unfold KrakenBookSynchronizer.state
    rw [hopened.state]
    exact h.trusted
  · have hheld := h.held messages hr
    refine ⟨?_, ?_, ?_, ?_⟩
    · rw [hbids, hasks]
      exact hheld.exact
    · rw [hopened.book, hrevision]
      exact hheld.book
    · rw [hrevision]
      exact hheld.revision
    · rw [hopened.session]
      exact hheld.session

/-- Without trust the replica is out of step. -/
theorem Configured.out {config : BookConfig} {s : KrakenBookSynchronizer} (h : Configured config s)
    (hstate : s.state ≠ .synchronized) : Follows config s none :=
  ⟨h, ⟨fun hs => absurd hs hstate, nofun⟩, nofun⟩

/-! ## One call -/

theorem exactOf_concat (depth : Nat) (messages : List SpotBookMessage) (message : SpotBookMessage) :
    exactOf depth (messages ++ [message]) = (exactOf depth messages).apply depth message := by
  unfold exactOf
  rw [List.foldl_append]
  rfl

theorem exactOf_keyed (depth : Nat) (messages : List SpotBookMessage) :
    (exactOf depth messages).Keyed :=
  ExactBook.keyed_empty.foldl

theorem appliedBook?_eq_none {message : SpotBookMessage} {latency : UInt64}
    {result : Except KrakenBookSyncError ApplyResult} (h : result ≠ .ok .applied) :
    SyncCall.appliedBook? (.applySpot message now latency, result.map some) = none := by
  cases result with
  | error err => rfl
  | ok result =>
    cases result with
    | applied => exact absurd rfl h
    | _ => rfl

theorem settle_frame (s : KrakenBookSynchronizer) (candidate : ExactBook) (revision : UInt64)
    (engine : OrderBookEngine) {result : Except BookError ApplyResult} (h : result ≠ .ok .applied) :
    ∃ s', s.settle candidate revision (engine, result) = (s', asSyncError result) ∧
      s'.engine = engine ∧ s'.maxDepth = s.maxDepth ∧ s'.symbol = s.symbol ∧
      (result ≠ .ok .checksumMismatch → s' = { s with engine := engine }) := by
  cases result with
  | error err => exact ⟨_, rfl, rfl, rfl, rfl, fun _ => rfl⟩
  | ok result =>
    cases result with
    | applied => exact absurd rfl h
    | checksumMismatch => exact ⟨_, rfl, rfl, rfl, rfl, fun hne => absurd rfl hne⟩
    | _ => exact ⟨_, rfl, rfl, rfl, rfl, fun _ => rfl⟩

theorem asSyncError_ne {result : Except BookError ApplyResult} (h : result ≠ .ok .applied) :
    asSyncError result ≠ .ok .applied := by
  cases result with
  | error err => nofun
  | ok result => exact fun heq => h (by rw [Except.ok.inj heq])

section

variable {config : BookConfig} {s : KrakenBookSynchronizer} {r : Replica}
  {message : SpotBookMessage} {revision : UInt64}

theorem Follows.candidate_of_snapshot (h : Follows config s r) (hkind : message.kind = .snapshot) :
    s.candidate message = exactOf config.maxLevelsPerSide [message] := by
  unfold KrakenBookSynchronizer.candidate
  rw [hkind, h.depth]
  rfl

theorem Follows.candidate_of_update {messages : List SpotBookMessage}
    (h : Follows config s (some messages)) (hkind : message.kind = .update) :
    s.candidate message = exactOf config.maxLevelsPerSide (messages ++ [message]) := by
  unfold KrakenBookSynchronizer.candidate
  rw [hkind, h.depth, exactOf_concat, ← (h.held messages rfl).exact]

/-- A message moves the replica as the engine answers it. -/
theorem settle_moved (h : Follows config s r) {stays heard : Prop} {makes : L2Book → Prop}
    {answer : Attempt ApplyResult}
    (hmoved : Moved s.engine stays heard makes answer) (hsession : s.engine.session = some session)
    (hrevision : revision ≠ 0) (now latency : UInt64)
    (hkeep : stays → r.isSome → message.Updates config.instrument.venueSymbol →
      ¬ s.Takes message now)
    (hlose : heard → r.isSome → message.Updates config.instrument.venueSymbol → s.Takes message now)
    (hmade : ∀ next, makes next → ∃ messages, Replica.Step config.instrument.venueSymbol s.Takes r
        (.applySpot message now latency, .ok (some .applied)) (some messages) ∧
      s.candidate message = exactOf config.maxLevelsPerSide messages ∧
      (exactOf config.maxLevelsPerSide messages).Shown next ∧ next.sequence = revision) :
    ∃ r', Replica.Step config.instrument.venueSymbol s.Takes r
        (.applySpot message now latency,
          (s.settle (s.candidate message) revision answer).2.map some) r' ∧
      Follows config (s.settle (s.candidate message) revision answer).1 r' := by
  cases hmoved with
  | kept hopened hresult hstays =>
    obtain ⟨s', hsettle, -, -, -, hsame⟩ :=
      settle_frame s (s.candidate message) revision _ hresult.1
    rw [hsettle, hsame hresult.2]
    refine ⟨r, .keep (appliedBook?_eq_none (asSyncError_ne hresult.1)) ?_,
      h.of_opened hopened rfl rfl rfl rfl rfl⟩
    intro m n l hr hop hupdates
    obtain ⟨rfl, rfl, -⟩ := SyncOp.applySpot.inj hop
    exact hkeep hstays hr hupdates
  | @lost engine _ hkept hresult hstate hheard =>
    obtain ⟨s', hsettle, rfl, hdepth, hsymbol, -⟩ :=
      settle_frame s (s.candidate message) revision engine hresult
    rw [hsettle]
    refine ⟨none, .lose (appliedBook?_eq_none (asSyncError_ne hresult)) ?_,
      (h.toConfigured.of_kept hkept hdepth hsymbol).out ?_⟩
    · intro m n l hr hop hupdates
      obtain ⟨rfl, rfl, -⟩ := SyncOp.applySpot.inj hop
      exact hlose hheard hr hupdates
    · rw [KrakenBookSynchronizer.state, hstate]
      nofun
  | @made engine next hkept hstate hbook hnext =>
    obtain ⟨messages, hstep, hcandidate, hshown, hsequence⟩ := hmade next hnext
    refine ⟨some messages, hstep, h.toConfigured.of_kept hkept rfl rfl,
      ⟨fun _ => rfl, fun _ => hstate⟩, fun ms hms => ?_⟩
    obtain rfl := Option.some.inj hms
    refine ⟨hcandidate, ⟨next, hbook, hshown, hsequence⟩, hrevision, ?_⟩
    change engine.session.isSome
    rw [hkept.session, hsession]
    rfl

/-- A snapshot message moves the replica by `install`, `lose` or `keep`. -/
theorem settle_snapshot (h : Follows config s r) (hkind : message.kind = .snapshot)
    (hsession : s.engine.session = some session) (hrevision : revision ≠ 0)
    (now latency : UInt64) (checksum : KrakenV2Checksum) :
    ∃ r', Replica.Step config.instrument.venueSymbol s.Takes r
        (.applySpot message now latency, (s.settle (s.candidate message) revision
          (s.submit message (s.candidate message) session revision now latency
            checksum)).2.map some)
        r' ∧
      Follows config (s.settle (s.candidate message) revision
        (s.submit message (s.candidate message) session revision now latency checksum)).1 r' := by
  have hother : ¬ message.Updates config.instrument.venueSymbol := fun hupdates => by
    rw [hupdates.kind] at hkind
    cases hkind
  unfold KrakenBookSynchronizer.submit
  rw [hkind]
  refine settle_moved h (applySnapshotChecked_moved h.strategy _ session now latency checksum)
    hsession hrevision now latency (fun _ _ hupdates => absurd hupdates hother)
    (fun _ _ hupdates => absurd hupdates hother) fun base hbase => ?_
  rw [h.candidate_of_snapshot hkind, h.engineConfig] at hbase
  exact ⟨[message], .install hkind, h.candidate_of_snapshot hkind,
    ExactBook.Shown.of_snapshot (exactOf_keyed _ _) hbase⟩

/-- An update moves a replica in step by `extend` or `lose`, or leaves early. -/
theorem settle_update (h : Follows config s r) (hkind : message.kind = .update)
    (hsymbol : canonicalSpotSymbol message.symbol = s.symbol)
    (hsession : s.engine.session = some session) (hrevision : revision ≠ 0)
    (hnext : checkedNext s.localRevision = some revision) (now latency : UInt64)
    {checksum : KrakenV2Checksum} (hchecksum : checksumFor message.checksum
      (s.candidate message).asks (s.candidate message).bids = .ok checksum) :
    ∃ r', Replica.Step config.instrument.venueSymbol s.Takes r
        (.applySpot message now latency, (s.settle (s.candidate message) revision
          (s.submit message (s.candidate message) session revision now latency
            checksum)).2.map some)
        r' ∧
      Follows config (s.settle (s.candidate message) revision
        (s.submit message (s.candidate message) session revision now latency checksum)).1 r' := by
  unfold KrakenBookSynchronizer.submit
  rw [hkind]
  refine settle_moved h (applyDeltaChecked_moved _ _ session now latency checksum) hsession
    hrevision now latency (fun hstays hr _ htakes => ?_)
    (fun hclock _ _ => ⟨by rw [hnext]; rfl, by rw [hchecksum]; rfl, hclock⟩) fun next hmakes => ?_
  · -- the revision is newer than the book, so only the clock is left as a reason
    obtain ⟨messages, rfl⟩ := Option.isSome_iff_exists.mp hr
    obtain ⟨book, hbook, -, hsequence⟩ := (h.held messages rfl).book
    have hstale : revision ≤ book.sequence :=
      hstays (h.trusted.mpr rfl) (h.session session hsession) htakes.clock book hbook
    rw [hsequence, UInt64.le_iff_toNat_le, checkedNext_eq_some hnext] at hstale
    omega
  · obtain ⟨hstate, book, hbook, happly⟩ := hmakes
    obtain ⟨messages, rfl⟩ := Option.isSome_iff_exists.mp (h.trusted.mp hstate)
    obtain ⟨shown, hheldBook, hshown, -⟩ := (h.held messages rfl).book
    obtain rfl := Option.some.inj (hheldBook.symm.trans hbook)
    rw [h.engineConfig] at happly
    refine ⟨messages ++ [message], .extend ⟨hkind, hsymbol.trans h.symbol⟩,
      h.candidate_of_update hkind, ?_⟩
    rw [exactOf_concat]
    exact hshown.of_delta happly

/-- Every book message moves the replica as `Replica.Step` allows. -/
theorem applySpot_follows (h : Follows config s r) (message : SpotBookMessage)
    (now latency : UInt64) :
    ∃ r', Replica.Step config.instrument.venueSymbol s.Takes r
        (.applySpot message now latency, (s.applySpot message now latency).2.map some) r' ∧
      Follows config (s.applySpot message now latency).1 r' := by
  have keep {result : Except KrakenBookSyncError ApplyResult} (hresult : result ≠ .ok .applied)
      (hearly : r.isSome → message.Updates config.instrument.venueSymbol → ¬ s.Takes message now) :
      Replica.Step config.instrument.venueSymbol s.Takes r
        (.applySpot message now latency, result.map some) r := by
    refine .keep (appliedBook?_eq_none hresult) fun m n l hr hop hupdates => ?_
    obtain ⟨rfl, rfl, -⟩ := SyncOp.applySpot.inj hop
    exact hearly hr hupdates
  unfold KrakenBookSynchronizer.applySpot
  split
  · rename_i hsymbol
    exact ⟨r, keep nofun fun _ hupdates => absurd (hupdates.symbol.trans h.symbol.symm) hsymbol, h⟩
  rename_i hsymbol
  cases hsession : s.engine.session with
  | none =>
    refine ⟨r, keep nofun fun hr _ => ?_, h⟩
    obtain ⟨messages, rfl⟩ := Option.isSome_iff_exists.mp hr
    have hsome := (h.held messages rfl).session
    rw [hsession] at hsome
    cases hsome
  | some session =>
    dsimp only
    cases hnext : checkedNext s.localRevision with
    | none =>
      refine ⟨r, keep nofun fun _ _ htakes => ?_, h⟩
      have hsome := htakes.revision
      rw [hnext] at hsome
      cases hsome
    | some revision =>
      dsimp only
      split
      · rename_i hfirst
        refine ⟨r, keep nofun fun hr _ => ?_, h⟩
        obtain ⟨messages, rfl⟩ := Option.isSome_iff_exists.mp hr
        exact absurd hfirst.2 (h.held messages rfl).revision
      · cases hchecksum : checksumFor message.checksum (s.candidate message).asks
            (s.candidate message).bids with
        | error err =>
          refine ⟨r, keep nofun fun _ _ htakes => ?_, h⟩
          have hok := htakes.checksum
          rw [hchecksum] at hok
          cases hok
        | ok checksum =>
          have hrevision : revision ≠ 0 := by
            rintro rfl
            exact absurd (checkedNext_eq_some hnext) (by simp)
          cases hkind : message.kind with
          | snapshot => exact settle_snapshot h hkind hsession hrevision now latency checksum
          | update =>
            exact settle_update h hkind (not_not.mp hsymbol) hsession hrevision hnext now latency
              hchecksum

/-- Order-level messages leave the replica alone. -/
theorem applyLevel3_follows (h : Follows config s r) (message : SpotL3Message)
    (now latency : UInt64) : Follows config (s.applyLevel3 message now latency).1 r := by
  unfold KrakenBookSynchronizer.applyLevel3
  cases s.prepareLevel3 message with
  | error err => exact h
  | ok prepared =>
    obtain ⟨session, candidate, checksum⟩ := prepared
    have hopened : Opened s.engine
        (s.submitLevel3 message candidate session now latency checksum).1 := by
      unfold submitLevel3
      cases message.kind with
      | snapshot => exact opened_of_l3 (applyL3SnapshotChecked_effect _ _ _ _ _ _)
      | update => exact opened_of_l3 (applyL3EventsChecked_effect _ _ _ _ _ _)
    dsimp only
    generalize s.submitLevel3 message candidate session now latency checksum = answer at hopened ⊢
    obtain ⟨engine, result⟩ := answer
    unfold settleLevel3
    cases result with
    | error err => exact h.of_opened hopened rfl rfl rfl rfl rfl
    | ok result =>
      dsimp only
      split
      · exact h.of_opened hopened rfl rfl rfl rfl rfl
      · split
        · exact h.of_opened hopened rfl rfl rfl rfl rfl
        · exact h.of_opened hopened rfl rfl rfl rfl rfl

/-- A new session puts the replica out of step; a refused one changes nothing. -/
theorem startSession_follows (h : Follows config s r) (session : BookSession) :
    Follows config (s.startSession session).1 r ∨
      Follows config (s.startSession session).1 none := by
  unfold KrakenBookSynchronizer.startSession OrderBookEngine.startSession
  cases hvalid : s.engine.validateNewSession session with
  | error err => exact .inl (h.of_opened (.refl _) rfl rfl rfl rfl rfl)
  | ok _ =>
    refine .inr (Configured.out ⟨h.engineConfig, h.depth, h.symbol, ?_, ?_⟩ nofun)
    · intro strategy hs
      exact (Option.some.inj hs).symm
    · intro current hs
      obtain rfl : session = current := Option.some.inj hs
      simp only [validateNewSession, bind_eq_ok, reject_eq_ok] at hvalid
      obtain ⟨_, hepochs, _, hgeneration, -⟩ := hvalid
      simp only [validateCurrentSession, bind_eq_ok, reject_eq_ok]
      exact ⟨(), hepochs, (), hgeneration, not_not.mpr rfl⟩

theorem disconnect_follows (h : Follows config s r) : Follows config s.disconnect none := by
  refine Configured.out ⟨h.engineConfig, h.depth, h.symbol, nofun, ?_⟩ nofun
  intro session hs
  have hsame := h.session session hs
  simp only [validateCurrentSession, bind_eq_ok, reject_eq_ok] at hsame ⊢
  exact hsame

/-- Every call moves the replica as `Replica.Step` allows. -/
theorem step_follows (h : Follows config s r) (op : SyncOp) :
    ∃ r', Replica.Step config.instrument.venueSymbol s.Takes r (op, (s.step op).2) r' ∧
      Follows config (s.step op).1 r' := by
  cases op with
  | startSession session =>
    rcases startSession_follows h session with hsame | hout
    · exact ⟨r, .keep rfl nofun, hsame⟩
    · exact ⟨none, .lose rfl nofun, hout⟩
  | disconnect => exact ⟨none, .lose rfl nofun, disconnect_follows h⟩
  | applySpot message now latency => exact applySpot_follows h message now latency
  | applyLevel3 message now latency =>
    exact ⟨r, .keep rfl nofun, applyLevel3_follows h message now latency⟩

end

theorem tryNewWithL3_follows {config : BookConfig} {policy : KrakenL3Policy}
    {s : KrakenBookSynchronizer} (h : tryNewWithL3 config policy = .ok s) :
    Follows config s none := by
  simp only [tryNewWithL3, bind_eq_ok, reject_eq_ok, pure_eq_ok] at h
  obtain ⟨_, -, engine, hengine, rfl⟩ := h
  have hfresh : engine = .fresh config := by
    unfold new at hengine
    split at hengine
    · exact (Except.ok.inj hengine).symm
    · cases hengine
  rw [hfresh]
  refine Configured.out ⟨rfl, rfl, rfl, ?_, ?_⟩ ?_
  · intro strategy hstrategy
    cases hstrategy
  · intro session hsession
    cases hsession
  · intro hstate
    cases hstate

end CryptoIntelligence.Kraken
