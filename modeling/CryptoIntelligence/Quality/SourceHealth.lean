/-
  The health of a source (`quality`, `source_health.rs`). A tracker numbers the transitions of one
  connection: a transition is prepared against the current state, which makes its event, and
  committed.

  A nonzero word is a plain one: sequences start at one and only grow.
-/
import CryptoIntelligence.Lib.Method
import CryptoIntelligence.Lib.Run
import CryptoIntelligence.Lib.Words
import CryptoIntelligence.Domain.Identity

namespace CryptoIntelligence.Quality

open Lib Domain List

inductive SourceHealthState where
  | healthy
  | degraded
  | unhealthy
  | quarantined
  | recovering
  deriving DecidableEq, Repr

def SourceHealthState.all : List SourceHealthState :=
  [.healthy, .degraded, .unhealthy, .quarantined, .recovering]

inductive QualityCause where
  | recoveryVerified
  | freshnessRestored
  | sourceStale
  | capacityPressure
  | sequenceIntegrityFailed
  | checksumIntegrityFailed
  | schemaValidityFailed
  | normalizationFailed
  | recoveryStarted
  | retryBudgetExhausted
  | policyQuarantine
  | policyReleased
  deriving DecidableEq

inductive QualityError where
  | invalidTransition (source target : SourceHealthState)
  | incompatibleCause
  | invalidObservationTime
  | nonMonotonicObservationTime
  | staleTransition
  | sequenceExhausted
  deriving DecidableEq

def validTransition : SourceHealthState → SourceHealthState → Bool
  | .recovering, .healthy | .recovering, .degraded | .recovering, .unhealthy
  | .recovering, .quarantined => true
  | .healthy, .degraded | .healthy, .unhealthy | .healthy, .quarantined => true
  | .degraded, .healthy | .degraded, .unhealthy | .degraded, .recovering
  | .degraded, .quarantined => true
  | .unhealthy, .recovering | .unhealthy, .quarantined => true
  | .quarantined, .recovering => true
  | _, _ => false

def validCause (source target : SourceHealthState) : QualityCause → Bool
  | .recoveryVerified => source == .recovering && target == .healthy
  | .freshnessRestored => source == .degraded && target == .healthy
  | .sourceStale => (source == .healthy || source == .recovering) && target == .degraded
  | .capacityPressure =>
    ((source == .healthy || source == .recovering) && target == .degraded) || target == .unhealthy
  | .sequenceIntegrityFailed | .checksumIntegrityFailed => target == .unhealthy
  | .schemaValidityFailed | .normalizationFailed => target == .unhealthy
  | .recoveryStarted => (source == .degraded || source == .unhealthy) && target == .recovering
  | .retryBudgetExhausted =>
    (source == .degraded || source == .unhealthy || source == .recovering) && target == .quarantined
  | .policyQuarantine => target == .quarantined
  | .policyReleased => source == .quarantined && target == .recovering

def SourceHealthState.transitionTo (source target : SourceHealthState) :
    Except QualityError SourceHealthState := do
  reject (¬ validTransition source target) (.invalidTransition source target)
  return target

structure QualityEvent where
  source : SourceId
  connectionEpoch : UInt64
  sequence : UInt64
  observedAt : UnixNanos
  from_ : SourceHealthState
  to_ : SourceHealthState
  cause : QualityCause

structure PreparedQualityTransition where
  event : QualityEvent
  nextSequence : UInt64

@[ext]
structure SourceHealthTracker where
  source : SourceId
  connectionEpoch : UInt64
  state : SourceHealthState
  nextSequence : UInt64
  lastObservedAt : Option UnixNanos

namespace SourceHealthTracker

def new (source : SourceId) (connectionEpoch : UInt64) : SourceHealthTracker :=
  ⟨source, connectionEpoch, .recovering, 1, none⟩

def prepare (tracker : SourceHealthTracker) (to_ : SourceHealthState) (cause : QualityCause)
    (observedAt : UnixNanos) : Except QualityError PreparedQualityTransition := do
  let _ ← tracker.state.transitionTo to_
  reject (¬ validCause tracker.state to_ cause) .incompatibleCause
  reject (observedAt ≤ 0) .invalidObservationTime
  reject (tracker.lastObservedAt.any fun previous => decide (observedAt ≤ previous))
    .nonMonotonicObservationTime
  let nextSequence ← required (toU64 (tracker.nextSequence.toNat + 1)) .sequenceExhausted
  return ⟨⟨tracker.source, tracker.connectionEpoch, tracker.nextSequence, observedAt,
    tracker.state, to_, cause⟩, nextSequence⟩

def commit (prepared : PreparedQualityTransition) :
    Method SourceHealthTracker QualityError Unit := do
  let tracker ← .get
  .lift <| reject (prepared.event.source ≠ tracker.source
    ∨ prepared.event.connectionEpoch ≠ tracker.connectionEpoch
    ∨ prepared.event.from_ ≠ tracker.state ∨ prepared.event.sequence ≠ tracker.nextSequence
    ∨ tracker.lastObservedAt.any fun previous => decide (prepared.event.observedAt ≤ previous))
    .staleTransition
  .update fun tracker => { tracker with
    state := prepared.event.to_
    nextSequence := prepared.nextSequence
    lastObservedAt := some prepared.event.observedAt }

/-! ## Runs -/

/-- Only `prepare` makes a transition, perhaps on another tracker or in an earlier state. -/
abbrev Prepared := { call // ∃ tracker to_ cause time, prepare tracker to_ cause time = .ok call }

def step (tracker : SourceHealthTracker) (call : Prepared) := commit call.1 tracker

def committed (history : List (Prepared × Except QualityError Unit)) : List QualityEvent :=
  (history.filter (·.2.isOk)).map (·.1.1.event)

def eventLog : Log QualityEvent SourceHealthState UnixNanos :=
  ⟨(·.sequence.toNat), (·.from_), (·.to_), (·.observedAt)⟩

/-- The events lead from the first state to that of the tracker. -/
structure Recorded (events : List QualityEvent) (tracker : SourceHealthTracker) : Prop where
  trail : Trail eventLog .recovering events tracker.state
  next : tracker.nextSequence.toNat = events.length + 1
  last : tracker.lastObservedAt = events.getLast?.map (·.observedAt)
  own : ∀ event ∈ events, event.source = tracker.source ∧
    event.connectionEpoch = tracker.connectionEpoch ∧ validTransition event.from_ event.to_ = true ∧
    validCause event.from_ event.to_ event.cause = true

theorem Prepared.valid (call : Prepared) :
    validTransition call.1.event.from_ call.1.event.to_ = true ∧
      validCause call.1.event.from_ call.1.event.to_ call.1.event.cause = true ∧
      call.1.nextSequence.toNat = call.1.event.sequence.toNat + 1 := by
  obtain ⟨_, tracker, to_, cause, time, h⟩ := call
  simp only [prepare, SourceHealthState.transitionTo, bind_eq_ok, reject_eq_ok, required_eq_ok,
    pure_eq_ok] at h
  obtain ⟨_, ⟨_, htransition, -⟩, _, hcause, _, -, _, -, _, hnext, rfl⟩ := h
  exact ⟨not_not.mp htransition, not_not.mp hcause, toU64_eq_some.mp hnext⟩

theorem Recorded.step {history : List (Prepared × Except QualityError Unit)}
    {tracker : SourceHealthTracker} (h : Recorded (committed history) tracker) (call : Prepared) :
    Recorded (committed (history ++ [(call, (tracker.step call).2)])) (tracker.step call).1 := by
  rcases hstep : tracker.step call with ⟨next, e | _⟩ <;>
    simp [SourceHealthTracker.step, commit] at hstep <;>
    simp [committed, Except.isOk, Except.toBool] at h ⊢
  · exact hstep.1 ▸ h
  obtain ⟨⟨hsource, hepoch, hfrom, hsequence, htime⟩, rfl⟩ := hstep
  obtain ⟨htransition, hcause, hnext⟩ := call.valid
  have hnumber := (congrArg UInt64.toNat hsequence).trans h.next
  refine ⟨h.trail.concat hfrom hnumber fun last hlast => ?_, ?_, by simp,
    forall_mem_concat.mpr ⟨h.own, hsource, hepoch, htransition, hcause⟩⟩
  · rw [h.last, Option.mem_def.mp hlast] at htime
    exact Int64.not_le.mp (of_decide_eq_false htime)
  · rw [hnext, hnumber, length_append]
    rfl

/-- In every run the committed events are recorded, also when stale transitions are offered. -/
theorem committed_trail (source : SourceId) (epoch : UInt64) (calls : List Prepared) :
    Recorded (committed (historyOf step (new source epoch) calls))
      (runAll step (new source epoch) calls) :=
  run_induction step (fun history tracker => Recorded (committed history) tracker)
    ⟨⟨rfl, rfl, .nil⟩, rfl, rfl, nofun⟩ (fun _ _ call h => h.step call) calls

end SourceHealthTracker

end CryptoIntelligence.Quality
