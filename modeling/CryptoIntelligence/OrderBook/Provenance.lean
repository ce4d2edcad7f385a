/-
  Where a published book comes from. Over every run of calls from a fresh engine, a published
  view is one snapshot of its session followed by deltas of that session, each newer than the one
  before and accepted by the sequence policy; under the two contiguous policies their ranges leave
  no sequence number out (`snapshot_provenance`).

  The invariant `Traced` says of a feed what its history must contain; `traced_step` keeps it over
  one step, `traced_run` over every run.
-/
import CryptoIntelligence.OrderBook.Refine

namespace CryptoIntelligence.OrderBook

open Lib Event OrderBookEngine Call List

/-! ## The sequence policies -/

/-- The range of a delta contains the sequence after `previous`. -/
def ContainsNext (d : BookDelta) (previous : UInt64) : Prop :=
  d.firstSequence.toNat ≤ previous.toNat + 1 ∧ previous.toNat + 1 ≤ d.lastSequence.toNat

/-- What a policy asks of a delta that follows `previous`. Under `previousFinal` the first
    replayed delta aligns by range and every other names its predecessor. -/
def SequencePolicy.Satisfied (policy : SequencePolicy) (firstReplayed : Bool) (d : BufferedDelta)
    (previous : UInt64) : Prop :=
  match policy with
  | .exactNext => d.delta.firstSequence.toNat = previous.toNat + 1
  | .rangeContainsNext => ContainsNext d.delta previous
  | .previousFinal =>
    if firstReplayed then ContainsNext d.delta previous
    else d.previousFinalSequence = some previous

/-- Deltas that continue from `previous`, each newer than its predecessor and as the policy
    asks. -/
def Continues (policy : SequencePolicy) : Bool → UInt64 → List BufferedDelta → Prop
  | _, _, [] => True
  | firstReplayed, previous, d :: ds =>
    previous < d.delta.lastSequence ∧ policy.Satisfied firstReplayed d previous ∧
      Continues policy false d.delta.lastSequence ds

/-- The sequence reached by a snapshot and the deltas after it. -/
def lastSequence (start : UInt64) (ds : List BufferedDelta) : UInt64 :=
  (ds.getLast?.map fun d => d.delta.lastSequence).getD start

theorem lastSequence_cons (start : UInt64) (d : BufferedDelta) (ds : List BufferedDelta) :
    lastSequence start (d :: ds) = lastSequence d.delta.lastSequence ds := by
  cases ds with
  | nil => rfl
  | cons e es => simp only [lastSequence, getLast?_cons, Option.map_some, Option.getD_some]

theorem lastSequence_append (start : UInt64) (as bs : List BufferedDelta) :
    lastSequence start (as ++ bs) = lastSequence (lastSequence start as) bs := by
  induction as generalizing start with
  | nil => rfl
  | cons a as ih => rw [cons_append, lastSequence_cons, ih, lastSequence_cons]

variable {first : Bool} {calls : List Call} {f : Feed} {call : Call} {e : OrderBookEngine}

/-- The sequence rule of the engine accepts only what the policy asks. -/
theorem satisfied_of_sequenceRule {policy : SequencePolicy} {d : BufferedDelta} {previous : UInt64}
    (h : sequenceRule policy d.delta previous first d.previousFinalSequence =
      some true) : policy.Satisfied first d previous := by
  have range (h : ((checkedNext previous).map fun expected =>
      decide (d.delta.firstSequence ≤ expected) && decide (expected ≤ d.delta.lastSequence)) =
        some true) : ContainsNext d.delta previous := by
    obtain ⟨expected, hnext, hrange⟩ := Option.map_eq_some_iff.mp h
    simp only [Bool.and_eq_true, decide_eq_true_eq, UInt64.le_iff_toNat_le,
      checkedNext_eq_some hnext] at hrange
    exact hrange
  cases policy with
  | exactNext =>
    obtain ⟨expected, hnext, heq⟩ := Option.map_eq_some_iff.mp h
    rw [beq_iff_eq] at heq
    exact (congrArg UInt64.toNat heq).trans (checkedNext_eq_some hnext)
  | rangeContainsNext => exact range h
  | previousFinal =>
    cases first with
    | true => exact range h
    | false => simpa [sequenceRule, SequencePolicy.Satisfied] using h

/-! ## Chains -/

variable {config : BookConfig} {session : BookSession}

/-- What a chain of applied deltas amounts to. -/
theorem Chain.spec {base book : L2Book} {ds : List BufferedDelta}
    (h : Chain config session first base ds book) :
    (∀ d ∈ ds, d.session = session) ∧
      ds.foldlM (fun b d => b.applyDelta d.delta config) base = .ok book ∧
      Continues config.sequencePolicy first base.sequence ds ∧
      book.sequence = lastSequence base.sequence ds := by
  induction h with
  | nil first book => exact ⟨by simp, rfl, trivial, rfl⟩
  | cons hsession hnewer hfollow _ ih =>
    obtain ⟨hsessions, hfold, hcontinues, hlast⟩ := ih
    obtain ⟨hrule, happly, -⟩ := follow_eq_some hfollow
    have hnext := applyDelta_sequence happly
    rw [hnext] at hcontinues hlast
    refine ⟨by simpa [hsession] using hsessions, ?_,
      ⟨hnewer, satisfied_of_sequenceRule hrule, hcontinues⟩, ?_⟩
    · rw [foldlM_cons, happly, ok_bind, hfold]
    · rw [hlast, lastSequence_cons]

/-- Under the contiguous policies the ranges of the deltas leave no sequence number out. -/
theorem Continues.covers {policy : SequencePolicy} (hpolicy : policy ≠ .previousFinal)
    {previous : UInt64} {ds : List BufferedDelta}
    (h : Continues policy first previous ds) {n : UInt64} (hlow : previous < n)
    (hhigh : n ≤ lastSequence previous ds) :
    ∃ d ∈ ds, d.delta.firstSequence ≤ n ∧ n ≤ d.delta.lastSequence := by
  induction ds generalizing first previous with
  | nil => exact absurd hlow (UInt64.not_lt.mpr hhigh)
  | cons d ds ih =>
    obtain ⟨-, hsatisfied, hrest⟩ := h
    by_cases hn : n ≤ d.delta.lastSequence
    · refine ⟨d, by simp, ?_, hn⟩
      have hfirst : d.delta.firstSequence.toNat ≤ previous.toNat + 1 := by
        cases policy with
        | exactNext => exact le_of_eq hsatisfied
        | rangeContainsNext => exact hsatisfied.1
        | previousFinal => exact absurd rfl hpolicy
      rw [UInt64.lt_iff_toNat_lt] at hlow
      rw [UInt64.le_iff_toNat_le]
      omega
    · rw [lastSequence_cons] at hhigh
      obtain ⟨b, hb, hrange⟩ := ih hrest (UInt64.not_le.mp hn) hhigh
      exact ⟨b, by simp [hb], hrange⟩

/-! ## The invariant -/

/-- How a trusted book came about in a history of calls. -/
structure Origin (config : BookConfig) (session : BookSession) (calls : List Call)
    (book : L2Book) where
  before : List Call
  waiting : List Call
  after : List Call
  install : Op
  snapshot : BookSnapshot
  base : L2Book
  aligned : L2Book
  replayed : List BufferedDelta
  live : List BufferedDelta
  calls_eq : calls = before ++ waiting ++ ⟨install, .ok (some .applied)⟩ :: after
  submitted : install.snapshot? = some (snapshot, session)
  waiting_quiet : ∀ call ∈ waiting, ¬ call.installs
  after_quiet : ∀ call ∈ after, ¬ call.installs
  replayed_waited : replayed.Sublist (waiting.filterMap waiting?)
  live_applied : live = after.filterMap applied?
  base_eq : L2Book.fromSnapshot snapshot config = .ok base
  replay_chain : Chain config session true base replayed aligned
  live_chain : Chain config session false aligned live book

/-- A call that neither installs nor applies leaves the origin of the book as it was. -/
def Origin.quiet {calls : List Call} {book : L2Book} (o : Origin config session calls book)
    {call : Call} (hi : ¬ call.installs) (ha : call.applied? = none) :
    Origin config session (calls ++ [call]) book :=
  { o with
    after := o.after ++ [call]
    calls_eq := by simp [o.calls_eq]
    after_quiet := forall_mem_concat.mpr ⟨o.after_quiet, hi⟩
    live_applied := by simp [o.live_applied, ha] }

/-- A live delta extends the origin of the book. -/
def Origin.extend {calls : List Call} {book next : L2Book} (o : Origin config session calls book)
    {op : Op} {d : BufferedDelta} (hop : op.delta? = some d) (hsnapshot : op.snapshot? = none)
    (hsession : d.session = session) (hnewer : book.sequence < d.delta.lastSequence)
    (hfollow : follow config false book d = some next) :
    Origin config session (calls ++ [⟨op, .ok (some .applied)⟩]) next :=
  { o with
    after := o.after ++ [⟨op, .ok (some .applied)⟩]
    live := o.live ++ [d]
    calls_eq := by simp [o.calls_eq]
    after_quiet := by
      refine forall_mem_concat.mpr ⟨o.after_quiet, ?_⟩
      rintro ⟨h, -⟩
      simp [hsnapshot] at h
    live_applied := by simp [o.live_applied, applied?, hop]
    live_chain := o.live_chain.concat (fun _ => rfl) hsession hnewer hfollow }

/-- What a feed's history contains: the deltas that wait, since the last install, and the origin
    of the trusted book. -/
structure Traced (config : BookConfig) (calls : List Call) (f : Feed) : Prop where
  pending : ∃ before waiting, calls = before ++ waiting ∧ (∀ call ∈ waiting, ¬ call.installs) ∧
    f.phase.pending.Sublist (waiting.filterMap waiting?)
  trusted : ∀ book, f.phase = .trusted book →
    ∃ session, f.session = some session ∧ Nonempty (Origin config session calls book)

theorem traced_of_empty (hpending : f.phase.pending = [])
    (htrusted : ∀ book, f.phase ≠ .trusted book) : Traced config calls f :=
  ⟨⟨calls, [], by simp, by simp, by simp [hpending]⟩,
    fun book h => absurd h (htrusted book)⟩

/-- A quiet call extends the calls since the last install. -/
theorem pending_concat {pending : List BufferedDelta}
    (h : ∃ before waiting, calls = before ++ waiting ∧ (∀ call ∈ waiting, ¬ call.installs) ∧
      pending.Sublist (waiting.filterMap waiting?)) (hi : ¬ call.installs) :
    ∃ before waiting, calls ++ [call] = before ++ waiting ∧
      (∀ call ∈ waiting, ¬ call.installs) ∧
      (pending ++ call.waiting?.toList).Sublist (waiting.filterMap waiting?) := by
  obtain ⟨before, waiting, rfl, hquiet, hsub⟩ := h
  refine ⟨before, waiting ++ [call], by simp, forall_mem_concat.mpr ⟨hquiet, hi⟩, ?_⟩
  rw [filterMap_append]
  refine hsub.append ?_
  cases hw : call.waiting? with
  | none => simp
  | some d => simp [hw]

theorem Traced.quiet {f' : Feed} (h : Traced config calls f)
    (hphase : f'.phase = f.phase) (hsession : f'.session = f.session)
    (hi : ¬ call.installs) (ha : call.applied? = none) : Traced config (calls ++ [call]) f' := by
  refine ⟨?_, ?_⟩
  · obtain ⟨before, waiting, hcalls, hquiet, hsub⟩ := pending_concat h.pending hi
    rw [hphase]
    exact ⟨before, waiting, hcalls, hquiet, (sublist_append_left _ _).trans hsub⟩
  · intro book hbook
    rw [hphase] at hbook
    obtain ⟨session, hs, ⟨origin⟩⟩ := h.trusted book hbook
    exact ⟨session, hsession.trans hs, ⟨origin.quiet hi ha⟩⟩

/-- One step of a feed keeps its history. -/
theorem traced_step {f' : Feed} (h : Traced config calls f)
    (hstep : f.Step config call f') : Traced config (calls ++ [call]) f' := by
  cases hstep with
  | stay hi ha => exact h.quiet rfl rfl hi ha
  | start session strategy => exact traced_of_empty rfl nofun
  | disconnect => exact traced_of_empty rfl nofun
  | resync => exact traced_of_empty rfl nofun
  | lose hi ha => exact traced_of_empty rfl nofun
  | @collect _ ds d hwaiting htime hsession hphase =>
    refine ⟨?_, nofun⟩
    have hi : ¬ call.installs := by
      intro hinstalls
      simp [waiting?, hinstalls.2] at hwaiting
    have := pending_concat h.pending hi
    rwa [hphase, hwaiting] at this
  | @install op snapshot session base book replayed updated hop hdelta hsession hbase hsub
      hchain htime =>
    refine ⟨⟨_, [], (append_nil _).symm, by simp, by simp [Phase.pending]⟩, ?_⟩
    intro book' hbook
    cases hbook
    obtain ⟨before, waiting, rfl, hquiet, hwaited⟩ := h.pending
    exact ⟨session, hsession, ⟨{
      before, waiting, after := [], install := op, snapshot, base, aligned := book, replayed
      live := [], calls_eq := rfl, submitted := hop, waiting_quiet := hquiet
      after_quiet := by simp, replayed_waited := hsub.trans hwaited, live_applied := rfl
      base_eq := hbase, replay_chain := hchain, live_chain := .nil _ _ }⟩⟩
  | @live op d book next hop hsnapshot htime hsession hphase hnewer hfollow =>
    refine ⟨⟨_, [], (append_nil _).symm, by simp, by simp [Phase.pending]⟩, ?_⟩
    intro book' hbook
    cases hbook
    obtain ⟨session, hs, ⟨origin⟩⟩ := h.trusted book hphase
    obtain rfl : d.session = session := Option.some.inj (hsession.symm.trans hs)
    exact ⟨_, hsession, ⟨origin.extend hop hsnapshot rfl hnewer hfollow⟩⟩
  | refresh hsnapshot hdelta htime =>
    refine h.quiet rfl rfl ?_ (by simp [applied?, hdelta])
    rintro ⟨hsome, -⟩
    simp [hsnapshot] at hsome

/-! ## Runs -/

theorem new_eq_ok {config : BookConfig} (h : new config = .ok e) :
    e.config = config ∧ e.state = .disconnected ∧ e.updatedMonotonicNs = 0 := by
  unfold new at h
  split at h
  · cases h
    exact ⟨rfl, rfl, rfl⟩
  · cases h

/-- Every run from a fresh engine keeps the configuration, hides the replaying state and traces
    its feed. -/
theorem traced_run (blake3 : Bytes → Hash32)
    (hnew : new config = .ok e) (ops : List Op) :
    (e.run blake3 ops).config = config ∧ (e.run blake3 ops).state ≠ .replaying ∧
      Traced config (e.history blake3 ops) (e.run blake3 ops).feed := by
  obtain ⟨hconfig, hstate, -⟩ := new_eq_ok hnew
  refine run_induction (step blake3)
    (fun calls e => e.config = config ∧ e.state ≠ .replaying ∧ Traced config calls e.feed)
    ⟨hconfig, by rw [hstate]; decide, traced_of_empty ?_ ?_⟩ ?_ ops
  · simp only [feed, phase, hstate, Phase.pending]
  · intro book hphase
    simp only [feed, phase, hstate] at hphase
    cases hphase
  · rintro calls e op ⟨hconfig, hstate, htraced⟩
    obtain ⟨hstep, hstate', hconfig'⟩ := step_refines blake3 hstate op
    rw [hconfig] at hstep
    exact ⟨hconfig'.trans hconfig, hstate', traced_step htraced hstep⟩

/-- A published view shows the trusted book of the current session. -/
theorem snapshot_eq_ok {view : BookSnapshotView} (h : e.snapshot = .ok view) :
    ∃ book, e.feed.phase = .trusted book ∧ e.session = some view.session ∧
      view.bids = book.bidsDescending ∧ view.asks = book.asksAscending ∧
      view.lastSourceSequence = book.sequence ∧ view.updatedMonotonicNs = e.updatedMonotonicNs := by
  simp only [OrderBookEngine.snapshot, snapshotAt, bind_eq_ok, reject_eq_ok,
    required_eq_ok, pure_eq_ok] at h
  obtain ⟨_, hstate, _, -, book, hbook, session, hsession, rfl⟩ := h
  refine ⟨book, ?_, hsession, rfl, rfl, rfl, rfl⟩
  simp only [feed, phase, not_not.mp hstate, hbook]

/-- Every published view is one snapshot of the current session and a run of its deltas: those
    that waited since the previous install and were replayed, and those applied since. -/
theorem snapshot_provenance (blake3 : Bytes → Hash32) (config : BookConfig) (e : OrderBookEngine)
    (hnew : new config = .ok e) (ops : List Op) (view : BookSnapshotView)
    (hview : (e.run blake3 ops).snapshot = .ok view) :
    (e.run blake3 ops).session = some view.session ∧
    ∃ (before waiting after : List Call) (install : Op) (snapshot : BookSnapshot)
      (replayed live : List BufferedDelta) (base book : L2Book),
      e.history blake3 ops = before ++ waiting ++ ⟨install, .ok (some .applied)⟩ :: after ∧
      install.snapshot? = some (snapshot, view.session) ∧
      (∀ call ∈ waiting ++ after, ¬ call.installs) ∧
      replayed.Sublist (waiting.filterMap waiting?) ∧
      live = after.filterMap applied? ∧
      (∀ d ∈ replayed ++ live, d.session = view.session) ∧
      L2Book.fromSnapshot snapshot config = .ok base ∧
      (replayed ++ live).foldlM (fun b d => b.applyDelta d.delta config) base = .ok book ∧
      view.bids = book.bidsDescending ∧ view.asks = book.asksAscending ∧
      view.lastSourceSequence = lastSequence snapshot.lastSequence (replayed ++ live) ∧
      Continues config.sequencePolicy true snapshot.lastSequence replayed ∧
      Continues config.sequencePolicy false (lastSequence snapshot.lastSequence replayed) live ∧
      (config.sequencePolicy ≠ .previousFinal → ∀ n, snapshot.lastSequence < n →
        n ≤ view.lastSourceSequence → ∃ d ∈ replayed ++ live,
          d.delta.firstSequence ≤ n ∧ n ≤ d.delta.lastSequence) := by
  obtain ⟨-, -, htraced⟩ := traced_run blake3 hnew ops
  obtain ⟨book, hphase, hsession, hbids, hasks, hsequence, -⟩ := snapshot_eq_ok hview
  obtain ⟨session, hs, ⟨o⟩⟩ := htraced.trusted book hphase
  obtain rfl : view.session = session := Option.some.inj (hsession.symm.trans hs)
  obtain ⟨hsessions₁, hfold₁, hcontinues₁, hlast₁⟩ := o.replay_chain.spec
  obtain ⟨hsessions₂, hfold₂, hcontinues₂, hlast₂⟩ := o.live_chain.spec
  rw [fromSnapshot_sequence o.base_eq] at hcontinues₁ hlast₁
  rw [hlast₁] at hcontinues₂ hlast₂
  have hlast : view.lastSourceSequence =
      lastSequence o.snapshot.lastSequence (o.replayed ++ o.live) := by
    rw [hsequence, hlast₂, lastSequence_append]
  refine ⟨hsession, o.before, o.waiting, o.after, o.install, o.snapshot, o.replayed, o.live, o.base,
    book, o.calls_eq, o.submitted, ?_, o.replayed_waited, o.live_applied, ?_, o.base_eq, ?_, hbids,
    hasks, hlast, hcontinues₁, hcontinues₂, ?_⟩
  · intro call hcall
    exact (mem_append.mp hcall).elim (o.waiting_quiet call) (o.after_quiet call)
  · intro d hd
    exact (mem_append.mp hd).elim (hsessions₁ d) (hsessions₂ d)
  · rw [foldlM_append, hfold₁, ok_bind, hfold₂]
  · intro hpolicy n hlow hhigh
    rw [hlast, lastSequence_append] at hhigh
    by_cases hn : n ≤ lastSequence o.snapshot.lastSequence o.replayed
    · obtain ⟨d, hd, hrange⟩ := hcontinues₁.covers hpolicy hlow hn
      exact ⟨d, mem_append_left _ hd, hrange⟩
    · obtain ⟨d, hd, hrange⟩ := hcontinues₂.covers hpolicy (UInt64.not_le.mp hn) hhigh
      exact ⟨d, mem_append_right _ hd, hrange⟩

/-- A perpetual on a whole-number grid, without checksums or order-level data. -/
def sampleConfig (sequencePolicy : SequencePolicy) : BookConfig where
  instrument := Domain.binancePerpetual
  priceTick := ⟨one, one_isPositive⟩
  quantityStep := ⟨one, one_not_isNegative⟩
  maxLevelsPerSide := 10
  maxBufferedDeltas := 10
  maxBufferedLevelUpdates := 10
  sequencePolicy
  checksumPolicy := .disabled
  maxL3Orders := none
  maxL3LevelsPerSide := none

def sampleSession : BookSession := ⟨1, 1, 1⟩

def sampleSnapshot : BookSnapshot := ⟨[sampleBid], [sampleAsk], 10⟩

/-- A delta that changes the bid, over a range of sequence numbers. -/
def sampleDelta (first last : UInt64) : BookDelta := ⟨[sampleBid], [], first, last⟩

/-- A session in which one delta waits for the snapshot and the next comes after it. -/
def sampleRun : List Op :=
  [.startSession sampleSession .externalBuffered,
    .applyDelta (sampleDelta 9 11) sampleSession 1,
    .applySnapshot sampleSnapshot sampleSession 2,
    .applyDelta (sampleDelta 12 12) sampleSession 3]

/-- A published view after a replayed and a live delta. -/
theorem snapshot_provenance_sample :
    ∃ view : BookSnapshotView,
      ((fresh (sampleConfig .rangeContainsNext)).run
        sampleDigest sampleRun).snapshot = .ok view ∧
      view.lastSourceSequence = 12 ∧
      ((fresh (sampleConfig .rangeContainsNext)).run
        sampleDigest sampleRun).session = some view.session := by
  obtain ⟨view, hview, hlast⟩ : ∃ view : BookSnapshotView,
      ((fresh (sampleConfig .rangeContainsNext)).run
        sampleDigest sampleRun).snapshot = .ok view ∧
      view.lastSourceSequence = 12 := ⟨_, rfl, by decide⟩
  exact ⟨view, hview, hlast, (snapshot_provenance _ (sampleConfig .rangeContainsNext) _
    (new_of_validate (by decide)) sampleRun view hview).1⟩

end CryptoIntelligence.OrderBook
