/-
  The feed: what the order-book engine is for, without its counters, latencies and checksums.
  A feed has a session and is in one of four phases: it has no stream, it collects deltas while it
  waits for a snapshot, it has a trusted book, or it has lost the book. `Feed.Step` is the only
  way a call can move it, and `Chain` the only way a trusted book can come from a snapshot.

  This layer is a specification; `Refine` shows that every call of the engine is such a step.
-/
import CryptoIntelligence.OrderBook.Levels
import CryptoIntelligence.OrderBook.Run

namespace CryptoIntelligence.OrderBook

open Lib Event

/-! ## One delta on a trusted book -/

/-- A checksum that comes with a mutation, or its absence, is acceptable for the new book. -/
def checksumAccepts (config : BookConfig) (book : L2Book) : Option KrakenV2Checksum → Bool
  | none => config.checksumPolicy != .required
  | some checksum =>
    match checksum.verifyBook book with
    | .ok same => same
    | .error _ => false

/-- The book after a delta that follows it; `none` when the delta cannot be trusted to follow. -/
def follow (config : BookConfig) (first : Bool) (book : L2Book) (d : BufferedDelta) :
    Option L2Book :=
  match OrderBookEngine.sequenceRule config.sequencePolicy d.delta book.sequence first
      d.previousFinalSequence with
  | some true =>
    match book.applyDelta d.delta config with
    | .ok next => if checksumAccepts config next d.checksum then some next else none
    | .error _ => none
  | _ => none

/-- One delta against a book: a stale one is skipped, any other has to follow. The flag says that
    no delta was applied since the snapshot and that alignment by range is allowed. -/
def advance (config : BookConfig) (session : BookSession) (position : L2Book × Bool)
    (d : BufferedDelta) : Option (L2Book × Bool) :=
  if d.session ≠ session then none
  else if d.delta.lastSequence ≤ position.1.sequence then some position
  else (follow config position.2 position.1 d).map fun next => (next, false)

/-- A path of applied deltas, each newer than the book it is applied to. -/
inductive Chain (config : BookConfig) (session : BookSession) :
    Bool → L2Book → List BufferedDelta → L2Book → Prop
  | nil (first : Bool) (book : L2Book) : Chain config session first book [] book
  | cons {first : Bool} {book next last : L2Book} {d : BufferedDelta} {ds : List BufferedDelta} :
    d.session = session → book.sequence < d.delta.lastSequence →
    follow config first book d = some next →
    Chain config session false next ds last → Chain config session first book (d :: ds) last

variable {config : BookConfig} {session : BookSession}

theorem Chain.concat {first : Bool} {book last next : L2Book} {ds : List BufferedDelta}
    {d : BufferedDelta} (h : Chain config session first book ds last)
    (hfirst : ds = [] → first = false) (hsession : d.session = session)
    (hnewer : last.sequence < d.delta.lastSequence)
    (hfollow : follow config false last d = some next) :
    Chain config session first book (ds ++ [d]) next := by
  induction h with
  | nil first book =>
    rw [hfirst rfl]
    exact .cons hsession hnewer hfollow (.nil _ _)
  | cons hs hlt hf _ ih => exact .cons hs hlt hf (ih (fun _ => rfl) hnewer hfollow)

/-- A replay that goes through applies a chain taken from the buffer, in order. -/
theorem chain_of_foldlM_advance {ds : List BufferedDelta} {start last : L2Book × Bool}
    (h : ds.foldlM (advance config session) start = some last) :
    ∃ applied, applied.Sublist ds ∧ Chain config session start.2 start.1 applied last.1 := by
  induction ds generalizing start with
  | nil =>
    obtain rfl : start = last := by simpa using h
    exact ⟨[], .slnil, .nil _ _⟩
  | cons d ds ih =>
    rw [List.foldlM_cons] at h
    obtain ⟨mid, hmid, hrest⟩ := Option.bind_eq_some_iff.mp h
    obtain ⟨applied, hsub, hchain⟩ := ih hrest
    unfold advance at hmid
    split at hmid
    · cases hmid
    · rename_i hsession
      split at hmid
      · cases hmid
        exact ⟨applied, hsub.cons _, hchain⟩
      · rename_i hnewer
        obtain ⟨next, hnext, rfl⟩ := Option.map_eq_some_iff.mp hmid
        exact ⟨d :: applied, hsub.cons_cons _,
          .cons (not_not.mp hsession) (UInt64.not_le.mp hnewer) hnext hchain⟩

theorem follow_eq_some {first : Bool} {book next : L2Book} {d : BufferedDelta}
    (h : follow config first book d = some next) :
    OrderBookEngine.sequenceRule config.sequencePolicy d.delta book.sequence first
        d.previousFinalSequence = some true ∧
      book.applyDelta d.delta config = .ok next ∧
        checksumAccepts config next d.checksum = true := by
  unfold follow at h
  split at h
  · rename_i hrule
    split at h
    · rename_i candidate happly
      split at h
      · rename_i haccept
        cases h
        exact ⟨hrule, happly, haccept⟩
      · cases h
    · cases h
  · cases h

/-! ## Phases -/

inductive Phase where
  | idle
  | collecting (deltas : List BufferedDelta)
  | trusted (book : L2Book)
  | lost

structure Feed where
  session : Option BookSession
  strategy : Option SnapshotStrategy
  phase : Phase
  updated : UInt64

/-- The deltas that wait for a snapshot. -/
def Phase.pending : Phase → List BufferedDelta
  | .collecting deltas => deltas
  | _ => []

/-- The ways a call can move a feed. -/
inductive Feed.Step (config : BookConfig) : Feed → Call → Feed → Prop
  /-- Nothing changes: a refusal, a duplicate, or a delta that nobody waits for. -/
  | stay {f : Feed} {call : Call} :
    ¬ call.installs → call.applied? = none → Step config f call f
  | start {f : Feed} (session : BookSession) (strategy : SnapshotStrategy) :
    Step config f ⟨.startSession session strategy, .ok none⟩
      ⟨some session, some strategy, .collecting [], 0⟩
  | disconnect {f : Feed} :
    Step config f ⟨.disconnect, .ok none⟩ ⟨f.session, none, .idle, 0⟩
  | resync {f : Feed} :
    Step config f ⟨.beginResync, .ok none⟩ ⟨f.session, f.strategy, .collecting [], 0⟩
  /-- Trust is lost and the buffer dropped. -/
  | lose {f : Feed} {call : Call} :
    ¬ call.installs → call.applied? = none → Step config f call { f with phase := .lost }
  | collect {f : Feed} {call : Call} {ds : List BufferedDelta} {d : BufferedDelta} :
    call.waiting? = some d → call.op.time? = some d.nowMonotonicNs → f.session = some d.session →
    f.phase = .collecting ds → Step config f call { f with phase := .collecting (ds ++ [d]) }
  /-- A snapshot of the session becomes the book, after the deltas that waited for it. -/
  | install {f : Feed} {op : Op} {snapshot : BookSnapshot} {session : BookSession}
      {base book : L2Book} {replayed : List BufferedDelta} {updated : UInt64} :
    op.snapshot? = some (snapshot, session) → op.delta? = none → f.session = some session →
    L2Book.fromSnapshot snapshot config = .ok base → replayed.Sublist f.phase.pending →
    Chain config session true base replayed book →
    (op.time? = some updated ∨ ∃ d ∈ f.phase.pending, d.nowMonotonicNs = updated) →
    Step config f ⟨op, .ok (some .applied)⟩ { f with phase := .trusted book, updated }
  | live {f : Feed} {op : Op} {d : BufferedDelta} {book next : L2Book} :
    op.delta? = some d → op.snapshot? = none → op.time? = some d.nowMonotonicNs →
    f.session = some d.session → f.phase = .trusted book →
    book.sequence < d.delta.lastSequence → follow config false book d = some next →
    Step config f ⟨op, .ok (some .applied)⟩
      { f with phase := .trusted next, updated := d.nowMonotonicNs }
  /-- Order-level traffic only moves the update time. -/
  | refresh {f : Feed} {op : Op} {now : UInt64} :
    op.snapshot? = none → op.delta? = none → op.time? = some now →
    Step config f ⟨op, .ok (some .applied)⟩ { f with updated := now }

end CryptoIntelligence.OrderBook
