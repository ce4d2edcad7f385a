/-
  What an update does to the engine. Each building block gets one statement; `step_effect` puts them
  together into the cases in which a call can end, each with everything that later modules ask about
  it: what the result was, what became of the book, the buffer and the order-level book, and for a
  book that was installed where it came from.
-/
import CryptoIntelligence.OrderBook.Feed

namespace CryptoIntelligence.OrderBook

open Lib Event

/-! ## Errors -/

/-- The errors of the checks that come before anything is stored. -/
def BookError.isGuard : BookError → Bool
  | .invalidEpoch | .staleInstrumentGeneration | .monotonicTimeRegression | .wrongInstrument
  | .invalidEvent | .checksumSourceUnavailable => true
  | _ => false

/-- The errors that come with the loss of the book, whatever a checksum says. -/
def lossErrors : List BookError :=
  [.invalidSequence, .invalidBook, .capacity, .misalignedLevel, .ambiguousDelta, .sequenceOverflow,
    .bufferCapacity, .checksumRequired]

theorem lossErrors_of_levelErrors : ∀ err ∈ levelErrors, err ∈ lossErrors := by decide

/-- The results that come with the loss of the book. Of the answers a checksum gave, `verified`, two
    cost the book; the last result is for a delta of another session in the buffer, if there is
    one. -/
inductive Loss (foreign : Prop) (verified : Except BookError Bool → Prop) :
    Except BookError ApplyResult → Prop
  | gap : Loss foreign verified (.ok .gapDetected)
  | mismatch : verified (.ok false) → Loss foreign verified (.ok .checksumMismatch)
  | error {err : BookError} : err ∈ lossErrors → Loss foreign verified (.error err)
  | input : verified (.error .invalidChecksumInput) →
    Loss foreign verified (.error .invalidChecksumInput)
  | foreign : foreign → Loss foreign verified (.error .invalidEpoch)

section

variable {p q : Prop} {v w : Except BookError Bool → Prop} {result : Except BookError ApplyResult}

theorem Loss.ne_applied (h : Loss p v result) : result ≠ .ok .applied := by
  rintro rfl
  cases h

theorem Loss.mono (h : Loss p v result) (hpq : p → q) (hvw : ∀ answer, v answer → w answer) :
    Loss q w result := by
  cases h with
  | gap => exact .gap
  | mismatch hv => exact .mismatch (hvw _ hv)
  | error herr => exact .error herr
  | input hv => exact .input (hvw _ hv)
  | foreign hp => exact .foreign (hpq hp)

end

theorem Op.of_delta {op : Op} {d : BufferedDelta} (h : op.delta? = some d) :
    op.snapshot? = none ∧ op.time? = some d.nowMonotonicNs := by
  cases op with
  | applyEvent event =>
    simp only [delta?] at h
    split at h
    · next hpayload =>
      obtain ⟨session, -, rfl⟩ := Option.map_eq_some_iff.mp h
      simp only [snapshot?, hpayload, time?, and_self]
    · cases h
  | applyDelta | applyDeltaWithPrevious | applyDeltaChecked | applyDeltaCheckedWithPrevious =>
    cases h
    exact ⟨rfl, rfl⟩
  | _ => cases h

theorem Op.delta?_of_snapshot {op : Op} {entry : BookSnapshot × BookSession}
    (h : op.snapshot? = some entry) : op.delta? = none := by
  cases hdelta : op.delta? with
  | none => rfl
  | some d =>
    rw [(of_delta hdelta).1] at h
    cases h

theorem verifyBook_failsOnly (checksum : KrakenV2Checksum) (book : L2Book) :
    FailsOnly (· = .invalidChecksumInput) (checksum.verifyBook book) := by
  refine .bind (.reject rfl) fun _ => ?_
  split
  · exact .ok _
  · exact .error rfl

/-- An update's checksum answers so about a candidate. -/
def Verifies (checksum : Option KrakenV2Checksum) (candidate : L2Book)
    (answer : Except BookError Bool) : Prop := ∃ c ∈ checksum, c.verifyBook candidate = answer

/-- Why a delta does not follow a book. -/
theorem of_follow_eq_none {config : BookConfig} {first : Bool} {book : L2Book} {d : BufferedDelta}
    (h : follow config first book d = none) :
    let rule := OrderBookEngine.sequenceRule config.sequencePolicy d.delta book.sequence first
      d.previousFinalSequence
    rule = none ∨ rule = some false ∨ rule = some true ∧
      ((∃ err ∈ lossErrors, book.applyDelta d.delta config = .error err) ∨
        ∃ next, book.applyDelta d.delta config = .ok next ∧
          checksumAccepts config next d.checksum = false) := by
  unfold follow at h
  dsimp only
  generalize OrderBookEngine.sequenceRule _ _ _ _ _ = rule at h ⊢
  cases rule with
  | none => exact .inl rfl
  | some applies =>
    cases applies with
    | false => exact .inr (.inl rfl)
    | true =>
      refine .inr (.inr ⟨rfl, ?_⟩)
      cases happly : book.applyDelta d.delta config with
      | error err =>
        exact .inl ⟨err, lossErrors_of_levelErrors err (applyDelta_failsOnly _ _ _ err happly), rfl⟩
      | ok next => exact .inr ⟨next, rfl, by simpa [happly] using h⟩

/-- A computation that fails with none of the errors of the guards. -/
abbrev Unguarded {α : Type} (x : Except BookError α) : Prop :=
  FailsOnly (fun err => err.isGuard = false) x

namespace L3Book

theorem insert_unguarded (book : L3Book) (order : L3Order) : Unguarded (book.insert order) :=
  .bind (.reject rfl) fun _ => .bind (.reject rfl) fun _ => .ok _

theorem remove_unguarded (book : L3Book) (id : L3OrderId) : Unguarded (book.remove id) := by
  refine .bind (.required rfl) fun order => .bind (.required rfl) fun queue => ?_
  exact .bind (.reject rfl) fun _ => .ok _

theorem validateL3Order_unguarded (order : L3Order) (config : BookConfig) :
    Unguarded (validateL3Order order config) := .reject rfl

theorem insertAll_unguarded (config : BookConfig) (book : L3Book) (orders : List L3Order) :
    Unguarded (insertAll config book orders) := by
  induction orders generalizing book with
  | nil => exact .ok _
  | cons order orders ih =>
    refine .bind (validateL3Order_unguarded order config) fun _ => ?_
    exact .bind (insert_unguarded book order) fun next => ih next

theorem fromSnapshot_unguarded (orders : List L3Order) (config : BookConfig) :
    Unguarded (fromSnapshot orders config) := by
  refine .bind (.required rfl) fun maximum => .bind (.required rfl) fun depth => ?_
  refine .bind (.reject rfl) fun _ => ?_
  exact .bind (insertAll_unguarded config empty orders) fun _ => .ok _

theorem checkEvents_unguarded (book : L3Book) (config : BookConfig) (touched : List L3OrderId)
    (counts : Nat × Nat) (events : List L3Event) :
    Unguarded (checkEvents book config touched counts events) := by
  induction events generalizing touched counts with
  | nil => exact .ok _
  | cons event events ih =>
    refine .bind (.reject rfl) fun _ => ?_
    cases event with
    | add order =>
      refine .bind (validateL3Order_unguarded order config) fun _ => ?_
      exact .bind (.reject rfl) fun _ => ih _ _
    | modify id quantity => exact .bind (.reject rfl) fun _ => .bind (.reject rfl) fun _ => ih _ _
    | delete id => exact .bind (.reject rfl) fun _ => ih _ _

theorem applyDeletes_unguarded (book : L3Book) (events : List L3Event) :
    Unguarded (book.applyDeletes events) := by
  induction events generalizing book with
  | nil => exact .ok _
  | cons event events ih =>
    cases event with
    | delete id => exact .bind (remove_unguarded book id) fun next => ih next
    | add order => exact ih book
    | modify id quantity => exact ih book

theorem applyModifies_unguarded (book : L3Book) (events : List L3Event) :
    Unguarded (book.applyModifies events) := by
  induction events generalizing book with
  | nil => exact .ok _
  | cons event events ih =>
    cases event with
    | modify id quantity => exact .bind (.required rfl) fun order => ih _
    | add order => exact ih book
    | delete id => exact ih book

theorem applyAdds_unguarded (book : L3Book) (events : List L3Event) :
    Unguarded (book.applyAdds events) := by
  induction events generalizing book with
  | nil => exact .ok _
  | cons event events ih =>
    cases event with
    | add order => exact .bind (insert_unguarded book order) fun next => ih next
    | modify id quantity => exact ih book
    | delete id => exact ih book

theorem apply_unguarded (book : L3Book) (events : List L3Event) (config : BookConfig) :
    Unguarded (book.apply events config) := by
  refine .bind (.required rfl) fun maximum => .bind (.required rfl) fun depth => ?_
  refine .bind (.reject rfl) fun _ => ?_
  refine .bind (checkEvents_unguarded book config _ _ events) fun counts => ?_
  refine .bind (.reject rfl) fun _ => .bind (.reject rfl) fun _ => ?_
  refine .bind (applyDeletes_unguarded book events) fun deleted => ?_
  refine .bind (applyModifies_unguarded deleted events) fun modified => ?_
  exact .bind (applyAdds_unguarded modified events) fun _ => .ok _

end L3Book

theorem verifyL3Book_unguarded (checksum : KrakenV2L3Checksum) (book : L3Book) :
    Unguarded (checksum.verifyBook book) := .bind (.reject rfl) fun _ => .ok _

namespace OrderBookEngine

/-! ## Parts of the engine -/

variable {e e₁ e₂ e₃ e' : OrderBookEngine} {book : L2Book} {session : BookSession}
    {now updated : UInt64} {result : Except BookError ApplyResult} {d : BufferedDelta}
    {ds : List BufferedDelta} {op : Op} {snapshot : BookSnapshot}

/-- What no building block of an update touches. -/
structure Frame (e e' : OrderBookEngine) : Prop where
  config : e'.config = e.config
  session : e'.session = e.session
  strategy : e'.strategy = e.strategy
  lastObserved : e'.lastObservedMonotonicNs = e.lastObservedMonotonicNs
  updated : e'.updatedMonotonicNs = e.updatedMonotonicNs
  l3 : e'.l3 = e.l3

theorem Frame.refl (e : OrderBookEngine) : Frame e e := ⟨rfl, rfl, rfl, rfl, rfl, rfl⟩

theorem Frame.trans (h₁ : Frame e₁ e₂) (h₂ : Frame e₂ e₃) :
    Frame e₁ e₃ :=
  ⟨h₂.config.trans h₁.config, h₂.session.trans h₁.session, h₂.strategy.trans h₁.strategy,
    h₂.lastObserved.trans h₁.lastObserved, h₂.updated.trans h₁.updated, h₂.l3.trans h₁.l3⟩

/-- The engine has given up the book. -/
structure Lost (e e' : OrderBookEngine) : Prop extends Frame e e' where
  state : e'.state = .untrusted
  buffered : e'.buffered = []

theorem Lost.of_frame (h₁ : Frame e₁ e₂) (h₂ : Lost e₂ e₃) :
    Lost e₁ e₃ := ⟨h₁.trans h₂.toFrame, h₂.state, h₂.buffered⟩

theorem invalidate_lost (e : OrderBookEngine) : Lost e e.invalidate :=
  ⟨⟨rfl, rfl, rfl, rfl, rfl, rfl⟩, rfl, rfl⟩

theorem beginUpdate_eq_ok :
    e.beginUpdate session now = .ok e' ↔
      e.validateCurrentSession session = .ok () ∧ ¬ now < e.lastObservedMonotonicNs ∧
        e' = { e with lastObservedMonotonicNs := now } := by
  simp only [beginUpdate, observeUpdateTime, bind_eq_ok, reject_eq_ok, pure_eq_ok]
  constructor
  · rintro ⟨_, hs, _, ht, rfl⟩
    exact ⟨hs, ht, rfl⟩
  · rintro ⟨hs, ht, rfl⟩
    exact ⟨(), hs, (), ht, rfl⟩

theorem validateCurrentSession_session
    (h : e.validateCurrentSession session = .ok ()) : e.session = some session := by
  simp only [validateCurrentSession, bind_eq_ok, reject_eq_ok] at h
  obtain ⟨_, -, _, -, h⟩ := h
  exact not_not.mp h

/-! ## Building blocks -/

/-- The engine with the first buffered delta taken out. -/
def popped (e : OrderBookEngine) (d : BufferedDelta) (rest : List BufferedDelta) :
    OrderBookEngine :=
  { e with
    buffered := rest
    bufferedLevelUpdates := e.bufferedLevelUpdates - deltaLevelUpdates d.delta }

theorem popped_frame (e : OrderBookEngine) (d : BufferedDelta) (rest : List BufferedDelta) :
    Frame e (e.popped d rest) := ⟨rfl, rfl, rfl, rfl, rfl, rfl⟩

theorem validateChecksum_of_accepts {candidate : L2Book}
    {checksum : Option KrakenV2Checksum} (h : checksumAccepts e.config candidate checksum = true)
    (now : UInt64) : ∃ status, e.validateChecksum candidate checksum now =
      ({ e with checksumStatus := status }, .ok true) := by
  unfold validateChecksum
  cases checksum with
  | none =>
    have hp : e.config.checksumPolicy ≠ .required := by simpa [checksumAccepts] using h
    exact ⟨_, if_neg hp⟩
  | some checksum =>
    cases hv : checksum.verifyBook candidate with
    | ok same =>
      obtain rfl : same = true := by simpa [checksumAccepts, hv] using h
      exact ⟨.valid, by simp only [hv]⟩
    | error err => simp [checksumAccepts, hv] at h

/-- A checksum that is not accepted costs the trust in the book. -/
theorem validateChecksum_of_refuses {candidate : L2Book} {checksum : Option KrakenV2Checksum}
    (h : checksumAccepts e.config candidate checksum = false) (now : UInt64) :
    ∃ e', Lost e e' ∧ (e.validateChecksum candidate checksum now = (e', .ok false) ∧
        Verifies checksum candidate (.ok false) ∨
      ∃ err, e.validateChecksum candidate checksum now = (e', .error err) ∧
        Loss False (Verifies checksum candidate) (.error err)) := by
  unfold validateChecksum
  cases checksum with
  | none =>
    have hp : e.config.checksumPolicy = .required := by simpa [checksumAccepts] using h
    exact ⟨_, invalidate_lost e, .inr ⟨_, if_pos hp, .error (by decide)⟩⟩
  | some checksum =>
    have hlost : Lost e (e.failChecksum now) := ⟨⟨rfl, rfl, rfl, rfl, rfl, rfl⟩, rfl, rfl⟩
    refine ⟨_, hlost, ?_⟩
    cases hv : checksum.verifyBook candidate with
    | ok same =>
      obtain rfl : same = false := by simpa [checksumAccepts, hv] using h
      exact .inl ⟨by simp only [hv], checksum, rfl, hv⟩
    | error err =>
      obtain rfl := verifyBook_failsOnly checksum candidate err hv
      exact .inr ⟨_, by simp only [hv], .input ⟨checksum, rfl, hv⟩⟩

/-- What the engine does with a delta that is not stale, in the replay loop. -/
theorem replay_cons_of_follow (ds : List BufferedDelta)
    (latest : UInt64) {candidate : L2Book} {first : Bool}
    (hsession : d.session = session) (hnewer : ¬ d.delta.lastSequence ≤ candidate.sequence)
    {next : L2Book} (h : follow e.config first candidate d = some next) :
    ∃ e', replay session (d :: ds) e candidate latest first =
        replay session ds e' next (max latest d.nowMonotonicNs) false ∧ Frame e e' := by
  obtain ⟨hrule, happly, haccept⟩ := follow_eq_some h
  obtain ⟨status, hstatus⟩ := validateChecksum_of_accepts (e := e.popped d ds) haccept
    d.nowMonotonicNs
  refine ⟨{ e.popped d ds with checksumStatus := status }, ?_, ⟨rfl, rfl, rfl, rfl, rfl, rfl⟩⟩
  unfold popped at hstatus
  rw [replay]
  simp only [hsession, ne_eq, not_true_eq_false, if_false, if_neg hnewer, sequenceApplies, hrule,
    happly, hstatus]
  rfl

theorem replay_cons_of_not_follow {candidate : L2Book} {first : Bool} {foreign : Prop}
    (ds : List BufferedDelta) (latest : UInt64) (hsession : d.session = session)
    (hnewer : ¬ d.delta.lastSequence ≤ candidate.sequence)
    (h : follow e.config first candidate d = none) :
    ∃ e' result, replay session (d :: ds) e candidate latest first = (e', .stopped result) ∧
      Lost e e' ∧ Loss foreign (fun _ => True) result := by
  have hlost : ∀ e' : OrderBookEngine, Frame e e' → Lost e e'.invalidate :=
    fun e' hframe => (invalidate_lost e').of_frame hframe
  rw [replay]
  simp only [hsession, ne_eq, not_true_eq_false, if_false, if_neg hnewer, sequenceApplies]
  rcases of_follow_eq_none h with hrule | hrule
    | ⟨hrule, ⟨err, herr, happly⟩ | ⟨next, happly, haccept⟩⟩
  · simp only [hrule]
    exact ⟨_, _, rfl, hlost _ ⟨rfl, rfl, rfl, rfl, rfl, rfl⟩, .error (by decide)⟩
  · simp only [hrule]
    exact ⟨_, _, rfl, hlost _ ⟨rfl, rfl, rfl, rfl, rfl, rfl⟩, .gap⟩
  · simp only [hrule, happly]
    exact ⟨_, _, rfl, hlost _ ⟨rfl, rfl, rfl, rfl, rfl, rfl⟩, .error herr⟩
  · obtain ⟨e', hlost', hvalidate⟩ :=
      validateChecksum_of_refuses (e := e.popped d ds) haccept d.nowMonotonicNs
    have hlost' := hlost'.of_frame (popped_frame e d ds)
    unfold popped at hvalidate
    rcases hvalidate with ⟨hvalidate, -⟩ | ⟨err, hvalidate, hresult⟩ <;>
      simp only [hrule, happly, hvalidate]
    · exact ⟨_, _, rfl, hlost', .mismatch trivial⟩
    · exact ⟨_, _, rfl, hlost', hresult.mono False.elim fun _ _ => trivial⟩

/-- How a replay ends, by where `advance` gets with the buffer. -/
inductive Replayed (e : OrderBookEngine) (session : BookSession) (ds : List BufferedDelta)
    (latest : UInt64) : Option (L2Book × Bool) → OrderBookEngine × ReplayOutcome → Prop
  | aligned {e' : OrderBookEngine} {last : L2Book × Bool} {updated : UInt64} : Frame e e' →
    updated = latest ∨ (∃ d ∈ ds, d.nowMonotonicNs = updated) →
    Replayed e session ds latest (some last) (e', .aligned last.1 updated)
  | stopped {e' : OrderBookEngine} {result : Except BookError ApplyResult} : Lost e e' →
    Loss (∃ d ∈ ds, d.session ≠ session) (fun _ => True) result →
    Replayed e session ds latest none (e', .stopped result)

theorem Replayed.cons {latest latest' : UInt64} {last : Option (L2Book × Bool)}
    {r : OrderBookEngine × ReplayOutcome} (hframe : Frame e e₁)
    (hlatest : latest' = latest ∨ latest' = d.nowMonotonicNs)
    (h : Replayed e₁ session ds latest' last r) : Replayed e session (d :: ds) latest last r := by
  cases h with
  | aligned h hupdated =>
    refine .aligned (hframe.trans h) ?_
    rcases hupdated with rfl | ⟨b, hb, ht⟩
    · exact hlatest.imp_right fun h => ⟨d, List.mem_cons_self, h.symm⟩
    · exact .inr ⟨b, List.mem_cons_of_mem d hb, ht⟩
  | stopped hlost hresult =>
    refine .stopped (hlost.of_frame hframe) (hresult.mono ?_ fun _ => id)
    exact fun ⟨b, hb, hne⟩ => ⟨b, List.mem_cons_of_mem d hb, hne⟩

theorem max_eq_or (a b : UInt64) : max a b = a ∨ max a b = b := by
  change (if a ≤ b then b else a) = a ∨ (if a ≤ b then b else a) = b
  split
  · exact .inr rfl
  · exact .inl rfl

/-- The replay loop goes through the buffer as `advance` does, and where that stops it gives up the
    book. -/
theorem replay_replayed (session : BookSession) (ds : List BufferedDelta) :
    ∀ (e : OrderBookEngine) (candidate : L2Book) (latest : UInt64) (first : Bool),
      Replayed e session ds latest (ds.foldlM (advance e.config session) (candidate, first))
        (replay session ds e candidate latest first) := by
  induction ds with
  | nil => exact fun e _ _ _ => .aligned (.refl e) (.inl rfl)
  | cons d ds ih =>
    intro e candidate latest first
    rw [List.foldlM_cons]
    by_cases hsession : d.session = session
    · by_cases hstale : d.delta.lastSequence ≤ candidate.sequence
      · -- a stale delta is dropped and the loop goes on with the same candidate
        rw [replay]
        simp only [advance, hsession, ne_eq, not_true_eq_false, if_false, if_pos hstale]
        exact .cons (popped_frame e d ds) (.inl rfl) (ih (e.popped d ds) candidate latest first)
      · have hadvance : advance e.config session (candidate, first) d =
            (follow e.config first candidate d).map fun next => (next, false) := by
          simp only [advance, hsession, ne_eq, not_true_eq_false, if_false, if_neg hstale]
        rw [hadvance]
        cases hfollow : follow e.config first candidate d with
        | none =>
          obtain ⟨e', result, hreplay, hlost, hresult⟩ :=
            replay_cons_of_not_follow ds latest hsession hstale hfollow
          rw [hreplay]
          exact .stopped hlost hresult
        | some next =>
          obtain ⟨e₁, hstep, hframe⟩ := replay_cons_of_follow ds latest hsession hstale hfollow
          rw [hstep, ← hframe.config]
          exact .cons hframe (max_eq_or _ _) (ih e₁ next _ false)
    · rw [replay]
      simp only [advance, hsession, ne_eq, not_false_eq_true, if_true]
      exact .stopped ((invalidate_lost _).of_frame (popped_frame e d ds))
        (.foreign ⟨d, List.mem_cons_self, hsession⟩)

/-! ## Installing a book -/

/-- A book has become the trusted one. -/
structure Installed (e e' : OrderBookEngine) (book : L2Book) (updated : UInt64) : Prop where
  config : e'.config = e.config
  session : e'.session = e.session
  strategy : e'.strategy = e.strategy
  lastObserved : e'.lastObservedMonotonicNs = e.lastObservedMonotonicNs
  state : e'.state = .synchronized
  book : e'.book = some book
  updated : e'.updatedMonotonicNs = updated
  l3 : e'.l3 = none

theorem Installed.of_frame
    (h₁ : Frame e₁ e₂) (h₂ : Installed e₂ e₃ book updated) : Installed e₁ e₃ book updated :=
  ⟨h₂.config.trans h₁.config, h₂.session.trans h₁.session, h₂.strategy.trans h₁.strategy,
    h₂.lastObserved.trans h₁.lastObserved, h₂.state, h₂.book, h₂.updated, h₂.l3⟩

theorem installTrusted_installed (e : OrderBookEngine) (book : L2Book) (now : UInt64) :
    Installed e (e.installTrusted book now) book now := ⟨rfl, rfl, rfl, rfl, rfl, rfl, rfl, rfl⟩

theorem recordResync_installed
    (h : Installed e e' book updated) (recovering : Bool) (now : UInt64) :
    Installed e (e'.recordResync recovering now) book updated := by
  unfold recordResync
  split
  · exact ⟨h.config, h.session, h.strategy, h.lastObserved, h.state, h.book, h.updated, h.l3⟩
  · exact h

theorem alignSnapshot_stream (e : OrderBookEngine) (recovering : Bool) (candidate : L2Book)
    (session : BookSession) (now : UInt64) :
    ∃ e', e.alignSnapshot .streamSnapshot recovering candidate session now = (e', .ok .applied) ∧
      Installed e e' candidate now := by
  have hframe : Frame e { e with buffered := [], bufferedLevelUpdates := 0 } :=
    ⟨rfl, rfl, rfl, rfl, rfl, rfl⟩
  exact ⟨_, rfl, recordResync_installed
    (.of_frame hframe (installTrusted_installed _ candidate now)) recovering now⟩

/-- How the alignment of a snapshot with the buffer ends. -/
inductive Aligned (e : OrderBookEngine) (session : BookSession) (now : UInt64) :
    Option (L2Book × Bool) → Attempt ApplyResult → Prop
  | installed {e' : OrderBookEngine} {last : L2Book × Bool} {updated : UInt64} :
    Installed e e' last.1 updated →
    updated = now ∨ (∃ d ∈ e.buffered, d.nowMonotonicNs = updated) →
    Aligned e session now (some last) (e', .ok .applied)
  | lost {e' : OrderBookEngine} {result : Except BookError ApplyResult} : Lost e e' →
    Loss (∃ d ∈ e.buffered, d.session ≠ session) (fun _ => True) result →
    Aligned e session now none (e', result)

theorem alignSnapshot_aligned (e : OrderBookEngine) (recovering : Bool) (candidate : L2Book)
    (session : BookSession) (now : UInt64) :
    Aligned e session now (e.buffered.foldlM (advance e.config session) (candidate, true))
      (e.alignSnapshot .externalBuffered recovering candidate session now) := by
  have hstart : Frame e { e with state := .replaying } := ⟨rfl, rfl, rfl, rfl, rfl, rfl⟩
  have hreplayed := replay_replayed session e.buffered
    { e with state := .replaying } candidate now true
  simp only [alignSnapshot]
  generalize replay session e.buffered { e with state := .replaying } candidate now true = r
    at hreplayed ⊢
  generalize e.buffered.foldlM (advance e.config session) (candidate, true) = last at hreplayed ⊢
  cases hreplayed with
  | aligned hframe hupdated =>
    exact .installed (recordResync_installed
      (.of_frame (hstart.trans hframe) (installTrusted_installed _ _ _)) _ _) hupdated
  | stopped hlost hresult => exact .lost (hlost.of_frame hstart) hresult

/-! ## Live deltas -/

theorem applyLive_of_stale
    (hbook : e.book = some book) (hstale : d.delta.lastSequence ≤ book.sequence) :
    e.applyLive d.delta d.nowMonotonicNs d.checksum d.previousFinalSequence =
      (e, .ok .duplicate) := by
  simp only [applyLive, hbook, if_pos hstale]

theorem applyLive_of_follow {next : L2Book}
    (hbook : e.book = some book) (hnewer : ¬ d.delta.lastSequence ≤ book.sequence)
    (h : follow e.config false book d = some next) :
    ∃ e', e.applyLive d.delta d.nowMonotonicNs d.checksum d.previousFinalSequence =
        (e', .ok .applied) ∧ Installed e e' next d.nowMonotonicNs := by
  obtain ⟨hrule, happly, haccept⟩ := follow_eq_some h
  obtain ⟨status, hstatus⟩ := validateChecksum_of_accepts (e := { e with book := none })
    haccept d.nowMonotonicNs
  have hframe : Frame e { e with book := none, checksumStatus := status } :=
    ⟨rfl, rfl, rfl, rfl, rfl, rfl⟩
  simp only [applyLive, hbook, if_neg hnewer, sequenceApplies, hrule, happly, hstatus]
  exact ⟨_, rfl, .of_frame hframe (installTrusted_installed _ _ _)⟩

theorem applyLive_of_not_follow
    (hbook : e.book = some book) (hnewer : ¬ d.delta.lastSequence ≤ book.sequence)
    (h : follow e.config false book d = none) :
    ∃ e' result, e.applyLive d.delta d.nowMonotonicNs d.checksum d.previousFinalSequence =
        (e', result) ∧ Lost e e' ∧ Loss False (fun answer => ∃ next,
          book.applyDelta d.delta e.config = .ok next ∧ Verifies d.checksum next answer)
            result := by
  have hlost : ∀ e' : OrderBookEngine, Frame e e' → Lost e e'.invalidate :=
    fun e' hframe => (invalidate_lost e').of_frame hframe
  have hframe : Frame e { e with book := none } := ⟨rfl, rfl, rfl, rfl, rfl, rfl⟩
  simp only [applyLive, hbook, if_neg hnewer, sequenceApplies]
  rcases of_follow_eq_none h with hrule | hrule
    | ⟨hrule, ⟨err, herr, happly⟩ | ⟨next, happly, haccept⟩⟩
  · simp only [hrule]
    exact ⟨_, _, rfl, invalidate_lost e, .error (by decide)⟩
  · simp only [hrule]
    exact ⟨_, _, rfl, hlost _ ⟨rfl, rfl, rfl, rfl, rfl, rfl⟩, .gap⟩
  · simp only [hrule, happly]
    exact ⟨_, _, rfl, hlost _ hframe, .error herr⟩
  · obtain ⟨e', hlost', hvalidate⟩ := validateChecksum_of_refuses (e := { e with book := none })
      haccept d.nowMonotonicNs
    have hlost' := hlost'.of_frame hframe
    rcases hvalidate with ⟨hvalidate, hverifies⟩ | ⟨err, hvalidate, hresult⟩ <;>
      simp only [hrule, happly, hvalidate]
    · exact ⟨_, _, rfl, ⟨⟨hlost'.config, hlost'.session, hlost'.strategy, hlost'.lastObserved,
        hlost'.updated, hlost'.l3⟩, hlost'.state, hlost'.buffered⟩,
        .mismatch ⟨next, rfl, hverifies⟩⟩
    · exact ⟨_, _, rfl, hlost', hresult.mono id fun _ hverifies => ⟨next, rfl, hverifies⟩⟩

/-! ## The cases of an update -/

/-- What a call past the opening checks leaves alone, whatever it does to the order-level book. -/
structure Entered (e : OrderBookEngine) (session : BookSession) (now : UInt64)
    (e' : OrderBookEngine) : Prop where
  current : e.session = some session
  config : e'.config = e.config
  session : e'.session = e.session
  strategy : e'.strategy = e.strategy
  state : e'.state = e.state
  book : e'.book = e.book
  buffered : e'.buffered = e.buffered
  lastObserved : e'.lastObservedMonotonicNs = now

/-- The engine of a call that passed the opening checks, with its time and latency noted. -/
structure Opened (e : OrderBookEngine) (session : BookSession) (now : UInt64)
    (e' : OrderBookEngine) : Prop extends Entered e session now e' where
  l3 : e'.l3 = e.l3
  updated : e'.updatedMonotonicNs = e.updatedMonotonicNs

theorem opened_of_beginUpdate (h : e.beginUpdate session now = .ok e₁) (latency : Option UInt64) :
    Opened e session now (e₁.recordLatency now latency) := by
  obtain ⟨hsession, -, rfl⟩ := beginUpdate_eq_ok.mp h
  have hcurrent := validateCurrentSession_session hsession
  cases latency <;> exact ⟨⟨hcurrent, rfl, rfl, rfl, rfl, rfl, rfl, rfl⟩, rfl, rfl⟩

theorem isGuard_of_beginUpdate {err : BookError} (h : e.beginUpdate session now = .error err) :
    err.isGuard = true := by
  simp only [beginUpdate, validateCurrentSession, observeUpdateTime, bind_eq_error,
    reject_eq_error, pure_ok] at h
  obtain (⟨-, rfl⟩ | ⟨_, -, ⟨-, rfl⟩ | ⟨_, -, -, rfl⟩⟩) | ⟨_, -, ⟨-, rfl⟩ | ⟨_, -, h⟩⟩ := h
  iterate 4 rfl
  cases h

/-- A call is refused by the opening checks, or it ends in one of the ways of `taken`. -/
inductive Answer (e : OrderBookEngine)
    (taken : Attempt ApplyResult → Prop) :
    Attempt ApplyResult → Prop
  | refused {err : BookError} : err.isGuard = true → Answer e taken (e, .error err)
  | taken {r : Attempt ApplyResult} : taken r → Answer e taken r

/-- The answers of a checksum about the book a call was to install. A replay checks the deltas of
    the buffer. -/
inductive Verified (e : OrderBookEngine) (op : Op) (answer : Except BookError Bool) : Prop
  | snapshot {snapshot : BookSnapshot} {session : BookSession} {base : L2Book} :
    op.snapshot? = some (snapshot, session) → L2Book.fromSnapshot snapshot e.config = .ok base →
    Verifies op.snapshotChecksum? base answer → Verified e op answer
  | replayed : e.strategy = some .externalBuffered → Verified e op answer
  | live {d : BufferedDelta} {book next : L2Book} :
    op.delta? = some d → e.state = .synchronized → e.book = some book →
    book.applyDelta d.delta e.config = .ok next → Verifies d.checksum next answer →
    Verified e op answer

/-- The ways in which a call with a snapshot or a delta can end past the opening checks. -/
inductive Effect (e : OrderBookEngine) (op : Op) :
    Attempt ApplyResult → Prop
  /-- The call came at a moment that has no use for it. -/
  | declined {session : BookSession} {now : UInt64} {e₁ : OrderBookEngine} {err : BookError} :
    Opened e session now e₁ → err = .untrusted ∨ err = .invalidTransition →
    op.delta? = none ∨ e.book = none → Effect e op (e₁, .error err)
  | duplicate {e₁ : OrderBookEngine} {d : BufferedDelta} {book : L2Book} :
    op.delta? = some d → Opened e d.session d.nowMonotonicNs e₁ → e.state = .synchronized →
    e.book = some book → d.delta.lastSequence ≤ book.sequence → Effect e op (e₁, .ok .duplicate)
  | unheard {e₁ : OrderBookEngine} {d : BufferedDelta} :
    op.delta? = some d → Opened e d.session d.nowMonotonicNs e₁ →
    e.state ≠ .synchronized ∧ e.state ≠ .buffering ∧ e.state ≠ .awaitingSnapshot →
    Effect e op (e₁, .ok .snapshotRequired)
  | lost {session : BookSession} {now : UInt64} {e₁ e' : OrderBookEngine}
      {result : Except BookError ApplyResult} :
    Opened e session now e₁ → Lost e₁ e' →
    Loss ((e.state ≠ .disconnected ∧ e.state ≠ .untrusted ∧ e.state ≠ .synchronized) ∧
      ∃ d ∈ e.buffered, d.session ≠ session) (Verified e op) result → Effect e op (e', result)
  | collected {e₁ : OrderBookEngine} {d : BufferedDelta} {levelUpdates : Nat} :
    op.delta? = some d → Opened e d.session d.nowMonotonicNs e₁ →
    e.state = .buffering ∨ e.state = .awaitingSnapshot →
    Effect e op ({ e₁ with
      buffered := e₁.buffered ++ [d], bufferedLevelUpdates := levelUpdates }, .ok .snapshotRequired)
  /-- A snapshot of the stream becomes the book. -/
  | streamed {snapshot : BookSnapshot} {session : BookSession} {now : UInt64}
      {e₁ e' : OrderBookEngine} {base : L2Book} :
    op.snapshot? = some (snapshot, session) → op.time? = some now → Opened e session now e₁ →
    L2Book.fromSnapshot snapshot e.config = .ok base →
    checksumAccepts e.config base op.snapshotChecksum? = true → Installed e₁ e' base now →
    Effect e op (e', .ok .applied)
  /-- A snapshot from outside the stream becomes the book after the deltas that waited for it. -/
  | aligned {snapshot : BookSnapshot} {session : BookSession} {now updated : UInt64}
      {e₁ e' : OrderBookEngine} {base book : L2Book} {replayed : List BufferedDelta} :
    op.snapshot? = some (snapshot, session) → op.time? = some now → Opened e session now e₁ →
    e.strategy = some .externalBuffered →
    e.state ≠ .disconnected ∧ e.state ≠ .untrusted ∧ e.state ≠ .synchronized →
    L2Book.fromSnapshot snapshot e.config = .ok base →
    checksumAccepts e.config base op.snapshotChecksum? = true → replayed.Sublist e.buffered →
    Chain e.config session true base replayed book →
    updated = now ∨ (∃ d ∈ e.buffered, d.nowMonotonicNs = updated) → Installed e₁ e' book updated →
    Effect e op (e', .ok .applied)
  | live {e₁ e' : OrderBookEngine} {d : BufferedDelta} {book next : L2Book} :
    op.delta? = some d → Opened e d.session d.nowMonotonicNs e₁ → e.state = .synchronized →
    e.book = some book → book.sequence < d.delta.lastSequence →
    follow e.config false book d = some next → Installed e₁ e' next d.nowMonotonicNs →
    Effect e op (e', .ok .applied)

theorem acceptSnapshot_effect (ho : Opened e session now e₁)
    (hop : op.snapshot? = some (snapshot, session)) (htime : op.time? = some now)
    {checksum : Option KrakenV2Checksum} (hchecksum : op.snapshotChecksum? = checksum) :
    Effect e op (e₁.acceptSnapshot snapshot session now checksum) := by
  subst hchecksum
  have hdelta := Op.delta?_of_snapshot hop
  unfold acceptSnapshot
  split
  · exact .declined ho (.inl rfl) (.inl hdelta)
  rename_i hconnected
  cases hstrategy : e₁.strategy with
  | none => exact .declined ho (.inr rfl) (.inl hdelta)
  | some strategy =>
    dsimp only
    split
    · exact .declined ho (.inr rfl) (.inl hdelta)
    rename_i hallowed
    cases hbase : L2Book.fromSnapshot snapshot e₁.config with
    | error err =>
      exact .lost ho (invalidate_lost e₁)
        (.error (lossErrors_of_levelErrors err (fromSnapshot_failsOnly _ _ err hbase)))
    | ok base =>
      dsimp only
      cases haccept : checksumAccepts e₁.config base op.snapshotChecksum? with
      | false =>
        obtain ⟨e', hlost, hvalidate⟩ := validateChecksum_of_refuses haccept now
        rw [ho.config] at hbase
        rcases hvalidate with ⟨hvalidate, hverifies⟩ | ⟨err, hvalidate, hresult⟩ <;>
          simp only [hvalidate]
        · exact .lost ho hlost (.mismatch (.snapshot hop hbase hverifies))
        · exact .lost ho hlost (hresult.mono False.elim fun _ => .snapshot hop hbase)
      | true =>
        obtain ⟨status, hvalidate⟩ := validateChecksum_of_accepts haccept now
        have hframe : Frame e₁ { e₁ with checksumStatus := status } :=
          ⟨rfl, rfl, rfl, rfl, rfl, rfl⟩
        simp only [hvalidate]
        cases strategy with
        | streamSnapshot =>
          obtain ⟨e', halign, hinstalled⟩ := alignSnapshot_stream
            { e₁ with checksumStatus := status }
            (decide (e₁.state = .untrusted) || e₁.resyncInProgress) base session now
          rw [halign]
          exact .streamed hop htime ho (ho.config ▸ hbase) (ho.config ▸ haccept)
            (.of_frame hframe hinstalled)
        | externalBuffered =>
          have hwaits : e.state ≠ .disconnected ∧ e.state ≠ .untrusted ∧
              e.state ≠ .synchronized := by
            rw [← ho.state]
            exact ⟨hconnected, fun h => hallowed ⟨rfl, .inl h⟩, fun h => hallowed ⟨rfl, .inr h⟩⟩
          have haligned := alignSnapshot_aligned { e₁ with checksumStatus := status }
            (decide (e₁.state = .untrusted) || e₁.resyncInProgress) base session now
          rw [ho.strategy] at hstrategy
          generalize alignSnapshot _ _ _ base session now = r at haligned ⊢
          generalize hlast : e₁.buffered.foldlM (advance e₁.config session) (base, true) =
            last at haligned
          cases haligned with
          | installed hinstalled hupdated =>
            obtain ⟨replayed, hsub, hchain⟩ := chain_of_foldlM_advance hlast
            rw [ho.config] at hbase haccept hchain
            exact .aligned hop htime ho hstrategy hwaits hbase haccept (ho.buffered ▸ hsub) hchain
              (ho.buffered ▸ hupdated) (.of_frame hframe hinstalled)
          | lost hlost hresult =>
            exact .lost ho (hlost.of_frame hframe) (hresult.mono
              (fun hforeign => ⟨hwaits, ho.buffered ▸ hforeign⟩) fun _ _ => .replayed hstrategy)

theorem bufferDelta_effect (ho : Opened e d.session d.nowMonotonicNs e₁) (hop : op.delta? = some d)
    (hstate : e.state = .buffering ∨ e.state = .awaitingSnapshot) :
    Effect e op (e₁.bufferDelta d) := by
  unfold bufferDelta
  dsimp only
  split
  · exact .lost ho (invalidate_lost e₁) (.error (by decide))
  · exact .collected hop ho hstate

theorem applyLive_effect (ho : Opened e d.session d.nowMonotonicNs e₁) (hop : op.delta? = some d)
    (hstate : e.state = .synchronized) :
    Effect e op (e₁.applyLive d.delta d.nowMonotonicNs d.checksum d.previousFinalSequence) := by
  cases hbook : e₁.book with
  | none =>
    simp only [applyLive, hbook]
    exact .declined ho (.inl rfl) (.inr (ho.book ▸ hbook))
  | some book =>
    have hold : e.book = some book := ho.book ▸ hbook
    by_cases hstale : d.delta.lastSequence ≤ book.sequence
    · rw [applyLive_of_stale hbook hstale]
      exact .duplicate hop ho hstate hold hstale
    · cases hfollow : follow e₁.config false book d with
      | none =>
        obtain ⟨e', result, hlive, hlost, hresult⟩ := applyLive_of_not_follow hbook hstale hfollow
        rw [hlive]
        exact .lost ho hlost (hresult.mono False.elim fun _ ⟨next, hnext, hverifies⟩ =>
          .live hop hstate hold (ho.config ▸ hnext) hverifies)
      | some next =>
        obtain ⟨e', hlive, hinstalled⟩ := applyLive_of_follow hbook hstale hfollow
        rw [hlive]
        exact .live hop ho hstate hold (UInt64.not_le.mp hstale) (ho.config ▸ hfollow) hinstalled

theorem acceptDelta_effect (ho : Opened e d.session d.nowMonotonicNs e₁)
    (hop : op.delta? = some d) :
    Effect e op (e₁.acceptDelta d.delta d.session d.nowMonotonicNs d.checksum
      d.previousFinalSequence) := by
  unfold acceptDelta
  have hcheck : FailsOnly (· ∈ lossErrors) (e₁.checkDelta d.delta d.checksum) :=
    .bind (.reject (by decide)) fun _ => .bind (.reject (by decide)) fun _ =>
      (validateDelta_failsOnly _ _).mono lossErrors_of_levelErrors
  cases hchecked : e₁.checkDelta d.delta d.checksum with
  | error err => exact .lost ho (invalidate_lost e₁) (.error (hcheck err hchecked))
  | ok _ =>
    dsimp only
    rw [ho.state]
    cases hstate : e.state with
    | buffering => exact bufferDelta_effect ho hop (.inl hstate)
    | awaitingSnapshot => exact bufferDelta_effect ho hop (.inr hstate)
    | synchronized => exact applyLive_effect ho hop hstate
    | disconnected => exact .unheard hop ho (by rw [hstate]; decide)
    | replaying => exact .unheard hop ho (by rw [hstate]; decide)
    | untrusted => exact .unheard hop ho (by rw [hstate]; decide)

theorem applySnapshotCandidate_effect (e : OrderBookEngine)
    (hop : op.snapshot? = some (snapshot, session)) (htime : op.time? = some now)
    {checksum : Option KrakenV2Checksum} (hchecksum : op.snapshotChecksum? = checksum)
    (latency : Option UInt64) :
    Answer e (Effect e op) (e.applySnapshotCandidate snapshot session now checksum latency) := by
  unfold applySnapshotCandidate
  cases hbegin : e.beginUpdate session now with
  | error err => exact .refused (isGuard_of_beginUpdate hbegin)
  | ok e₁ =>
    exact .taken (acceptSnapshot_effect (opened_of_beginUpdate hbegin latency) hop htime hchecksum)

theorem applyDeltaCandidate_effect (e : OrderBookEngine) (hop : op.delta? = some d)
    (latency : Option UInt64) :
    Answer e (Effect e op) (e.applyDeltaCandidate d.delta d.session d.nowMonotonicNs d.checksum
      d.previousFinalSequence latency) := by
  unfold applyDeltaCandidate
  cases hbegin : e.beginUpdate d.session d.nowMonotonicNs with
  | error err => exact .refused (isGuard_of_beginUpdate hbegin)
  | ok e₁ => exact .taken (acceptDelta_effect (opened_of_beginUpdate hbegin latency) hop)

theorem applyEvent_effect (blake3 : Bytes → Hash32) (e : OrderBookEngine) (event : EventEnvelope) :
    Answer e (Effect e (.applyEvent event)) (e.applyEvent blake3 event) := by
  unfold applyEvent
  cases event.verify blake3 with
  | error err => exact .refused rfl
  | ok _ =>
    dsimp only
    split
    · exact .refused rfl
    cases hinstrument : event.metadata.instrumentId with
    | none => exact .refused rfl
    | some instrument =>
      dsimp only
      split
      · exact .refused rfl
      have hsession : eventSession event = some ⟨event.metadata.connectionEpoch,
          event.metadata.subscriptionEpoch, instrument.generation⟩ := by
        simp only [eventSession, hinstrument, Option.map_some]
      cases hpayload : event.payload with
      | bookSnapshot snapshot =>
        refine applySnapshotCandidate_effect e ?_ rfl rfl _
        simp only [Op.snapshot?, hpayload, hsession, Option.map_some]
      | bookDelta delta =>
        refine applyDeltaCandidate_effect e (d := ⟨delta, _, _, none, _⟩) ?_ _
        simp only [Op.delta?, hpayload, hsession, Option.map_some]
      | _ => exact .refused rfl

/-! ## The cases of an order-level call -/

/-- The ways in which a call with order-level data can end past the opening checks. -/
inductive L3Effect (e : OrderBookEngine) (op : Op) :
    Attempt ApplyResult → Prop
  | declined {session : BookSession} {now : UInt64} {e₁ : OrderBookEngine} {err : BookError} :
    Opened e session now e₁ →
    err = .untrusted ∨ err = .l3Disabled ∨ (err = .l3SnapshotRequired ∧ e.l3 = none) →
    L3Effect e op (e₁, .error err)
  | dropped {session : BookSession} {now : UInt64} {e' : OrderBookEngine}
      {result : Except BookError ApplyResult} :
    Entered e session now e' → e'.l3 = none → e'.updatedMonotonicNs = e.updatedMonotonicNs →
    Unguarded result → result ≠ .ok .applied → L3Effect e op (e', result)
  | held {session : BookSession} {now : UInt64} {e' : OrderBookEngine} {candidate : L3Book} :
    op.time? = some now → Entered e session now e' → e.state = .synchronized →
    (∃ orders, L3Book.fromSnapshot orders e.config = .ok candidate) ∨
      (∃ book events, e.l3 = some book ∧ book.apply events e.config = .ok candidate) →
    e'.l3 = some candidate → e'.updatedMonotonicNs = now → L3Effect e op (e', .ok .applied)

theorem refuseUncheckedL3_effect (e : OrderBookEngine) (op : Op) (session : BookSession)
    (now : UInt64) : Answer e (L3Effect e op) (e.refuseUncheckedL3 session now) := by
  unfold refuseUncheckedL3
  cases hbegin : e.beginUpdate session now with
  | error err => exact .refused (isGuard_of_beginUpdate hbegin)
  | ok e₁ =>
    have ho : Opened e session now e₁ := opened_of_beginUpdate hbegin none
    dsimp only
    split
    · exact .taken (.declined ho (.inl rfl))
    · split
      · exact .taken (.declined ho (.inr (.inl rfl)))
      · exact .taken (.dropped { ho.toEntered with } rfl ho.updated (.error rfl) nofun)

/-- The candidate becomes the order-level book, or there is none. -/
theorem installL3_effect (ht : Entered e session now e₁) (htime : op.time? = some now)
    (hupdated : e₁.updatedMonotonicNs = e.updatedMonotonicNs) (hstate : e.state = .synchronized)
    {candidate : L3Book}
    (hcandidate : (∃ orders, L3Book.fromSnapshot orders e.config = .ok candidate) ∨
      (∃ book events, e.l3 = some book ∧ book.apply events e.config = .ok candidate))
    (checksum : KrakenV2L3Checksum) : L3Effect e op (e₁.installL3 candidate checksum now) := by
  have hfailed : Entered e session now (e₁.failL3Checksum now) := { ht with }
  unfold installL3
  split
  · exact .held htime { ht with } hstate hcandidate rfl rfl
  · exact .dropped hfailed rfl hupdated (.ok _) nofun
  · next err herr =>
    exact .dropped hfailed rfl hupdated
      (.error (verifyL3Book_unguarded checksum candidate err herr)) nofun

theorem applyL3SnapshotChecked_effect (e : OrderBookEngine) (orders : List L3Order)
    (session : BookSession) (now latency : UInt64) (checksum : KrakenV2L3Checksum) :
    Answer e (L3Effect e (.applyL3SnapshotChecked orders session now latency checksum))
      (e.applyL3SnapshotChecked orders session now latency checksum) := by
  unfold applyL3SnapshotChecked
  cases hbegin : e.beginUpdate session now with
  | error err => exact .refused (isGuard_of_beginUpdate hbegin)
  | ok e₁ =>
    have ho := opened_of_beginUpdate hbegin (some latency)
    refine .taken ?_
    dsimp only
    generalize e₁.recordLatency now (some latency) = e₂ at ho ⊢
    split
    · exact .declined ho (.inl rfl)
    next hstate =>
    rw [ho.state, not_not] at hstate
    rw [ho.config]
    cases hcandidate : L3Book.fromSnapshot orders e.config with
    | error err =>
      exact .dropped { ho.toEntered with } rfl ho.updated
        (.error (L3Book.fromSnapshot_unguarded _ _ err hcandidate)) nofun
    | ok candidate =>
      exact installL3_effect ho.toEntered rfl ho.updated hstate (.inl ⟨orders, hcandidate⟩) checksum

theorem applyL3EventsChecked_effect (e : OrderBookEngine) (events : List L3Event)
    (session : BookSession) (now latency : UInt64) (checksum : KrakenV2L3Checksum) :
    Answer e (L3Effect e (.applyL3EventsChecked events session now latency checksum))
      (e.applyL3EventsChecked events session now latency checksum) := by
  unfold applyL3EventsChecked
  cases hbegin : e.beginUpdate session now with
  | error err => exact .refused (isGuard_of_beginUpdate hbegin)
  | ok e₁ =>
    have ho := opened_of_beginUpdate hbegin (some latency)
    refine .taken ?_
    dsimp only
    generalize e₁.recordLatency now (some latency) = e₂ at ho ⊢
    split
    · exact .declined ho (.inl rfl)
    next hstate =>
    rw [ho.state, not_not] at hstate
    rw [ho.l3]
    cases hl3 : e.l3 with
    | none => exact .declined ho (.inr (.inr ⟨rfl, hl3⟩))
    | some book =>
      have ht : Entered e session now { e₂ with l3 := none } := { ho.toEntered with }
      dsimp only
      cases hcandidate : book.apply events e₂.config with
      | error err =>
        exact .dropped { ht with } rfl ho.updated
          (.error (L3Book.apply_unguarded _ _ _ err hcandidate)) nofun
      | ok candidate =>
        exact installL3_effect ht rfl ho.updated hstate
          (.inr ⟨book, events, hl3, ho.config ▸ hcandidate⟩) checksum

/-- Order-level traffic leaves the price-level book alone. -/
theorem l3_same {r : Attempt ApplyResult}
    (h : Answer e (L3Effect e op) r) :
    r.1.config = e.config ∧ r.1.session = e.session ∧ r.1.strategy = e.strategy ∧
      r.1.state = e.state ∧ r.1.book = e.book := by
  cases h with
  | refused => exact ⟨rfl, rfl, rfl, rfl, rfl⟩
  | taken h =>
    cases h with
    | declined ho => exact ⟨ho.config, ho.session, ho.strategy, ho.state, ho.book⟩
    | dropped ht => exact ⟨ht.config, ht.session, ht.strategy, ht.state, ht.book⟩
    | held _ ht => exact ⟨ht.config, ht.session, ht.strategy, ht.state, ht.book⟩

/-! ## Every call -/

/-- The ways in which a call can end. -/
inductive StepEffect (e : OrderBookEngine) : Op → OrderBookEngine × Outcome → Prop
  | unstarted {session : BookSession} {strategy : SnapshotStrategy} {err : BookError} :
    StepEffect e (.startSession session strategy) (e, .error err)
  | started {session : BookSession} {strategy : SnapshotStrategy} :
    e.validateNewSession session = .ok () → StepEffect e (.startSession session strategy)
      ({ e.clearBook with
          session := some session
          strategy := some strategy
          resyncInProgress := e.session.isSome
          state := match strategy with
            | .externalBuffered => .buffering
            | .streamSnapshot => .awaitingSnapshot }, .ok none)
  | disconnected : StepEffect e .disconnect (e.disconnect, .ok none)
  | unresynced : StepEffect e .beginResync (e, .error .invalidTransition)
  | resynced :
    e.strategy = some .externalBuffered → e.state = .untrusted → StepEffect e .beginResync
      ({ e.clearBook with resyncInProgress := true, state := .buffering }, .ok none)
  | refused {op : Op} {err : BookError} : err.isGuard = true → StepEffect e op (e, .error err)
  | updated {op : Op} {r : Attempt ApplyResult} :
    Effect e op r → StepEffect e op (r.1, r.2.map some)
  | ordered {op : Op} {r : Attempt ApplyResult} :
    op.snapshot? = none → op.delta? = none → L3Effect e op r → StepEffect e op (r.1, r.2.map some)

theorem step_effect (blake3 : Bytes → Hash32) (e : OrderBookEngine) (op : Op) :
    StepEffect e op (e.step blake3 op) := by
  have updated {r : Attempt ApplyResult} (h : Answer e (Effect e op) r) :
      StepEffect e op (r.1, r.2.map some) := by
    cases h with
    | refused hguard => exact .refused hguard
    | taken h => exact .updated h
  have ordered {r : Attempt ApplyResult}
    (hsnapshot : op.snapshot? = none)
      (hdelta : op.delta? = none) (h : Answer e (L3Effect e op) r) :
      StepEffect e op (r.1, r.2.map some) := by
    cases h with
    | refused hguard => exact .refused hguard
    | taken h => exact .ordered hsnapshot hdelta h
  cases op with
  | startSession session strategy =>
    simp only [step, startSession]
    cases hvalid : e.validateNewSession session with
    | error err => exact .unstarted
    | ok _ => exact .started hvalid
  | disconnect => exact .disconnected
  | beginResync =>
    simp only [step, beginResync]
    split
    · exact .unresynced
    · next hallowed =>
      rw [not_or, not_not, not_not] at hallowed
      exact .resynced hallowed.1 hallowed.2
  | applySnapshot snapshot session now =>
    exact updated (applySnapshotCandidate_effect e rfl rfl rfl none)
  | applySnapshotChecked snapshot session now latency checksum =>
    exact updated (applySnapshotCandidate_effect e rfl rfl rfl (some latency))
  | applyDelta delta session now =>
    exact updated (applyDeltaCandidate_effect e (d := ⟨delta, session, now, none, none⟩) rfl none)
  | applyDeltaWithPrevious delta session now previous =>
    exact updated (applyDeltaCandidate_effect e
      (d := ⟨delta, session, now, none, some previous⟩) rfl none)
  | applyDeltaChecked delta session now latency checksum =>
    exact updated (applyDeltaCandidate_effect e
      (d := ⟨delta, session, now, some checksum, none⟩) rfl (some latency))
  | applyDeltaCheckedWithPrevious delta session now latency checksum previous =>
    exact updated (applyDeltaCandidate_effect e
      (d := ⟨delta, session, now, some checksum, some previous⟩) rfl (some latency))
  | applyEvent event => exact updated (applyEvent_effect blake3 e event)
  | applyL3Snapshot orders session now =>
    exact ordered rfl rfl (refuseUncheckedL3_effect e _ session now)
  | applyL3SnapshotChecked orders session now latency checksum =>
    exact ordered rfl rfl (applyL3SnapshotChecked_effect e orders session now latency checksum)
  | applyL3Events events session now =>
    exact ordered rfl rfl (refuseUncheckedL3_effect e _ session now)
  | applyL3EventsChecked events session now latency checksum =>
    exact ordered rfl rfl (applyL3EventsChecked_effect e events session now latency checksum)

end OrderBookEngine

end CryptoIntelligence.OrderBook
