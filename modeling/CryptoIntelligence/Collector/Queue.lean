/-
  Accounting of bounded queues (`collector-runtime`, `supervisor.rs`). A tracker counts what is
  offered to a queue and what leaves it, and on the classes that coalesce it holds the keys that are
  queued. Every counter is checked before the first one is written.

  Counters and sizes are 64-bit words. The errors are those of the trackers; the probes of the data
  volume are left out.
-/
import CryptoIntelligence.Lib.Method
import CryptoIntelligence.Lib.Run
import CryptoIntelligence.Lib.Text
import CryptoIntelligence.Lib.Words

namespace CryptoIntelligence.Collector

open Lib

inductive AdmissionError where
  | invalidQueueCapacity
  | queueCapacity
  | queueEmpty
  | missingCoalescingKey
  | invalidCoalescingKey
  | unknownQueueKey
  | counterExhausted
  deriving DecidableEq

def maxQueueCapacity : UInt64 := 1048576

inductive QueueClass where
  | instrumentDefinition
  | bookSnapshot
  | bookDelta
  | trade
  | markIndex
  | derivativesState
  | optionalTicker
  | uiTicker
  | rawWal
  | historicalCompaction
  deriving DecidableEq

def QueueClass.coalescingAllowed : QueueClass → Bool
  | .optionalTicker | .uiTicker => true
  | _ => false

inductive OverflowAction where
  | backpressure
  | coalesceByKey
  | degradeAndResnapshot
  | rejectAdmission
  deriving DecidableEq

def overflowAction : QueueClass → OverflowAction
  | .bookDelta => .degradeAndResnapshot
  | .optionalTicker | .uiTicker => .coalesceByKey
  | .historicalCompaction => .rejectAdmission
  | .instrumentDefinition | .bookSnapshot | .trade | .markIndex | .derivativesState
  | .rawWal => .backpressure

inductive OfferOutcome where
  | queued
  | coalesced
  | backpressured
  | resynchronize
  deriving DecidableEq

structure QueueMetrics where
  capacity : UInt64
  occupancy : UInt64
  accepted : UInt64
  completed : UInt64
  overflows : UInt64
  coalesced : UInt64
  backpressured : UInt64
  resynchronizations : UInt64
  rejected : UInt64
  silentDrops : UInt64

structure QueueTracker where
  queueClass : QueueClass
  keys : Finset String
  metrics : QueueMetrics

def validateQueueKey (key : Option String) : Except AdmissionError String := do
  let key ← required key .missingCoalescingKey
  reject (key.isEmpty ∨ 256 < (utf8 key).length ∨ key.toList.any isControl) .invalidCoalescingKey
  return key

def checkedIncrement (counter : UInt64) : Except AdmissionError UInt64 :=
  required (toU64 (counter.toNat + 1)) .counterExhausted

namespace QueueTracker

def tryNew (queueClass : QueueClass) (capacity : UInt64) : Except AdmissionError QueueTracker := do
  reject (maxQueueCapacity < capacity) .invalidQueueCapacity
  return ⟨queueClass, ∅, ⟨capacity, 0, 0, 0, 0, 0, 0, 0, 0, 0⟩⟩

/-- The key that counts for the class: none where nothing is coalesced. -/
def queueKey (tracker : QueueTracker) (key : Option String) :
    Except AdmissionError (Option String) :=
  if tracker.queueClass.coalescingAllowed then (validateQueueKey key).map some else .ok none

/-- The branch of `offer` for a full queue. -/
def overflow : Method QueueTracker AdmissionError OfferOutcome := do
  let tracker ← .get
  let overflows ← .lift <| checkedIncrement tracker.metrics.overflows
  match overflowAction tracker.queueClass with
  | .backpressure =>
    let backpressured ← .lift <| checkedIncrement tracker.metrics.backpressured
    .update fun tracker => { tracker with metrics := { tracker.metrics with
      overflows := overflows, backpressured := backpressured } }
    return .backpressured
  | .degradeAndResnapshot =>
    let resynchronizations ← .lift <| checkedIncrement tracker.metrics.resynchronizations
    .update fun tracker => { tracker with metrics := { tracker.metrics with
      overflows := overflows, resynchronizations := resynchronizations } }
    return .resynchronize
  | .coalesceByKey | .rejectAdmission =>
    let rejected ← .lift <| checkedIncrement tracker.metrics.rejected
    .update fun tracker => { tracker with metrics := { tracker.metrics with
      overflows := overflows, rejected := rejected } }
    .lift <| .error .queueCapacity

def offer (key : Option String) : Method QueueTracker AdmissionError OfferOutcome := do
  let tracker ← .get
  let key ← .lift <| tracker.queueKey key
  if key.any fun value => decide (value ∈ tracker.keys) then
    let overflows ← .lift <| checkedIncrement tracker.metrics.overflows
    let coalesced ← .lift <| checkedIncrement tracker.metrics.coalesced
    .update fun tracker => { tracker with metrics := { tracker.metrics with
      overflows := overflows, coalesced := coalesced } }
    return .coalesced
  else if tracker.metrics.occupancy < tracker.metrics.capacity then
    let occupancy ← .lift <| checkedIncrement tracker.metrics.occupancy
    let accepted ← .lift <| checkedIncrement tracker.metrics.accepted
    .update fun tracker => { tracker with keys := key.elim tracker.keys (insert · tracker.keys) }
    .update fun tracker => { tracker with metrics := { tracker.metrics with
      occupancy := occupancy, accepted := accepted } }
    return .queued
  else overflow

def complete (key : Option String) : Method QueueTracker AdmissionError Unit := do
  let tracker ← .get
  .lift <| reject (tracker.metrics.occupancy = 0) .queueEmpty
  let completed ← .lift <| checkedIncrement tracker.metrics.completed
  let occupancy ← .lift <| required
    (if 1 ≤ tracker.metrics.occupancy then some (tracker.metrics.occupancy - 1) else none)
    .counterExhausted
  let key ← .lift <| tracker.queueKey key
  .lift <| reject (key.any fun value => decide (value ∉ tracker.keys)) .unknownQueueKey
  .update fun tracker => { tracker with keys := key.elim tracker.keys tracker.keys.erase }
  .update fun tracker => { tracker with metrics := { tracker.metrics with
    occupancy := occupancy, completed := completed } }

/-! ## What a call does -/

/-- The offers that were not queued, by what became of them. -/
def refusals (metrics : QueueMetrics) : Nat :=
  metrics.coalesced.toNat + metrics.backpressured.toNat + metrics.resynchronizations.toNat
    + metrics.rejected.toNat

/-- What a call adds to the counters: an offer is accepted or an overflow, a completion frees a
    place. -/
structure Effect (a c o : Nat) (before after : QueueTracker) : Prop where
  queue : after.queueClass = before.queueClass
    ∧ after.metrics.capacity = before.metrics.capacity
  accepted : after.metrics.accepted.toNat = before.metrics.accepted.toNat + a
  completed : after.metrics.completed.toNat = before.metrics.completed.toNat + c
  overflows : after.metrics.overflows.toNat = before.metrics.overflows.toNat + o
  refusals : refusals after.metrics = refusals before.metrics + o
  occupancy : after.metrics.occupancy.toNat + c = before.metrics.occupancy.toNat + a
  room : before.metrics.occupancy.toNat ≤ before.metrics.capacity.toNat →
    after.metrics.occupancy.toNat ≤ before.metrics.capacity.toNat
  keys : before.queueClass.coalescingAllowed →
    after.keys.card + c = before.keys.card + a

variable {counter : UInt64} {error : AdmissionError} {key : Option String}

theorem checkedIncrement_eq_ok {next : UInt64} :
    checkedIncrement counter = .ok next ↔ next.toNat = counter.toNat + 1 := by
  rw [checkedIncrement, required_eq_ok, toU64_eq_some]

theorem checkedIncrement_eq_error
    (h : checkedIncrement counter = .error error) : error = .counterExhausted := by
  rw [checkedIncrement, required_eq_error] at h
  exact h.2.symm

theorem queueKey_eq_ok {tracker : QueueTracker} {key' : Option String}
    (h : tracker.queueKey key = .ok key') (hcoalescing : tracker.queueClass.coalescingAllowed) :
    ∃ value, key' = some value := by
  rw [queueKey, if_pos hcoalescing] at h
  obtain ⟨value, -, rfl⟩ := map_eq_ok.mp h
  exact ⟨value, rfl⟩

theorem queueKey_ne_queueCapacity {tracker : QueueTracker}
    (h : tracker.queueKey key = .error error) : error ≠ .queueCapacity := by
  unfold queueKey at h
  split at h
  · have hkey := map_eq_error.mp h
    simp only [validateQueueKey, bind_eq_error, required_eq_error, reject_eq_error] at hkey
    obtain ⟨-, rfl⟩ | ⟨_, -, ⟨-, rfl⟩ | ⟨_, -, hpure⟩⟩ := hkey
    · decide
    · decide
    · cases hpure
  · cases h

/-- A call that failed without counting. -/
structure Refused (before after : QueueTracker) (key : Option String) (error : AdmissionError) :
    Prop where
  unchanged : after = before
  reason : error = .counterExhausted ∨ before.queueKey key = .error error

theorem refused_of_exhausted {tracker : QueueTracker}
    (h : checkedIncrement counter = .error error) :
    ∃ error', (Except.error error : Except AdmissionError OfferOutcome) = .error error'
      ∧ Refused tracker tracker key error' :=
  ⟨error, rfl, rfl, .inl (checkedIncrement_eq_error h)⟩

theorem overflow_yields (tracker : QueueTracker) (key : Option String) :
    overflow.Yields tracker fun after result =>
      (∃ error, result = .error error ∧ Refused tracker after key error) ∨
      (Effect 0 0 1 tracker after ∧ ∀ error, result = .error error → error = .queueCapacity) := by
  unfold overflow
  refine .get_bind (.lift_bind (fun _ h => .inl (refused_of_exhausted h))
    fun overflows hoverflows => ?_)
  have hcount := checkedIncrement_eq_ok.mp hoverflows
  cases overflowAction tracker.queueClass <;>
    refine .lift_bind (fun _ h => .inl (refused_of_exhausted h)) fun count h =>
      .update_bind (.inr ?_)
  all_goals
    refine ⟨⟨⟨rfl, rfl⟩, rfl, rfl, hcount, ?_, rfl, id, fun _ => rfl⟩,
      fun _ herror => by cases herror <;> rfl⟩
    simp only [refusals, Method.pure_apply, Method.lift_apply, checkedIncrement_eq_ok.mp h]
    omega

theorem offer_yields (tracker : QueueTracker) (key : Option String) :
    (offer key).Yields tracker fun after result =>
      (∃ error, result = .error error ∧ Refused tracker after key error) ∨
      (Effect 0 0 1 tracker after ∧ ∀ error, result = .error error → error = .queueCapacity) ∨
      (Effect 1 0 0 tracker after ∧ result = .ok .queued) := by
  unfold offer
  refine .get_bind (.lift_bind (fun error h => .inl ⟨error, rfl, rfl, .inr h⟩) fun key' hkey => ?_)
  split
  · refine .lift_bind (fun _ h => .inl (refused_of_exhausted h)) fun overflows hoverflows => ?_
    refine .lift_bind (fun _ h => .inl (refused_of_exhausted h)) fun count h => ?_
    refine .update_bind (.inr (.inl ⟨⟨⟨rfl, rfl⟩, rfl, rfl, ?_, ?_, rfl, id, fun _ => rfl⟩, ?_⟩))
    · exact checkedIncrement_eq_ok.mp hoverflows
    · simp only [refusals, Method.pure_apply, checkedIncrement_eq_ok.mp h]
      omega
    · intro error herror
      cases herror
  · rename_i hfresh
    split
    · rename_i hroom
      refine .lift_bind (fun _ h => .inl (refused_of_exhausted h)) fun occupancy hoccupancy => ?_
      refine .lift_bind (fun _ h => .inl (refused_of_exhausted h)) fun accepted haccepted => ?_
      have hmore := checkedIncrement_eq_ok.mp hoccupancy
      refine .update_bind (.update_bind
        (.inr (.inr ⟨⟨⟨rfl, rfl⟩, ?_, rfl, rfl, rfl, hmore, ?_, ?_⟩, rfl⟩)))
      · exact checkedIncrement_eq_ok.mp haccepted
      · intro _
        exact hmore.trans_le (UInt64.lt_iff_toNat_lt.mp hroom)
      · intro hcoalescing
        obtain ⟨value, rfl⟩ := queueKey_eq_ok hkey hcoalescing
        rw [Option.any_some, decide_eq_true_eq] at hfresh
        exact Finset.card_insert_of_notMem hfresh
    · rcases overflow_yields tracker key with hrefused | hoverflowed
      · exact .inl hrefused
      · exact .inr (.inl hoverflowed)

theorem complete_yields (tracker : QueueTracker) (key : Option String) :
    (complete key).Yields tracker fun after result =>
      (∃ error, result = .error error ∧ error ≠ .queueCapacity ∧ after = tracker) ∨
      (Effect 0 1 0 tracker after ∧ result = .ok ()) := by
  unfold complete
  refine .get_bind (.lift_bind (fun error h => .inl ⟨error, rfl, ?_, rfl⟩) fun _ hbusy => ?_)
  · obtain ⟨-, rfl⟩ := reject_eq_error.mp h
    decide
  refine .lift_bind (fun error h => .inl ⟨error, rfl, ?_, rfl⟩) fun completed hcompleted => ?_
  · rw [checkedIncrement_eq_error h]
    decide
  refine .lift_bind (fun error h => .inl ⟨error, rfl, ?_, rfl⟩) fun occupancy hoccupancy => ?_
  · obtain ⟨-, rfl⟩ := required_eq_error.mp h
    decide
  refine .lift_bind (fun error h => .inl ⟨error, rfl, ?_, rfl⟩) fun key' hkey => ?_
  · exact queueKey_ne_queueCapacity h
  refine .lift_bind (fun error h => .inl ⟨error, rfl, ?_, rfl⟩) fun _ hqueued => ?_
  · obtain ⟨-, rfl⟩ := reject_eq_error.mp h
    decide
  have hless : occupancy.toNat + 1 = tracker.metrics.occupancy.toNat := by
    rw [required_eq_ok] at hoccupancy
    split at hoccupancy
    · rename_i hle
      cases hoccupancy
      rw [UInt64.toNat_sub_of_le _ _ hle]
      exact Nat.sub_add_cancel (UInt64.le_iff_toNat_le.mp hle)
    · cases hoccupancy
  refine .update_bind (.inr ⟨⟨⟨rfl, rfl⟩, rfl, ?_, rfl, rfl, hless, ?_, ?_⟩, rfl⟩)
  · exact checkedIncrement_eq_ok.mp hcompleted
  · exact fun hbound => (Nat.le_of_lt (Nat.lt_of_succ_le hless.le)).trans hbound
  · intro hcoalescing
    obtain ⟨value, rfl⟩ := queueKey_eq_ok hkey hcoalescing
    have hmem := reject_eq_ok.mp hqueued
    rw [Option.any_some, decide_eq_true_eq, not_not] at hmem
    exact Finset.card_erase_add_one hmem

/-! ## Runs -/

inductive Call where
  | offer (key : Option String)
  | complete (key : Option String)

/-- One call, with its outcome if it was an offer. -/
def step (tracker : QueueTracker) :
    Call → QueueTracker × Except AdmissionError (Option OfferOutcome)
  | .offer key => ((offer key tracker).1, (offer key tracker).2.map some)
  | .complete key => ((complete key tracker).1, (complete key tracker).2.map fun _ => none)

/-- The balance of a queue of the class and capacity. -/
structure Balanced (queueClass : QueueClass) (capacity : UInt64) (tracker : QueueTracker) :
    Prop where
  queue : tracker.queueClass = queueClass ∧ tracker.metrics.capacity = capacity
  occupancy : tracker.metrics.accepted.toNat =
    tracker.metrics.completed.toNat + tracker.metrics.occupancy.toNat
  bounded : tracker.metrics.occupancy.toNat ≤ capacity.toNat
  overflows : tracker.metrics.overflows.toNat = refusals tracker.metrics
  keys : queueClass.coalescingAllowed → tracker.keys.card = tracker.metrics.occupancy.toNat

section Balance

variable {queueClass : QueueClass} {capacity : UInt64} {tracker after : QueueTracker}

theorem Balanced.effect {a c o : Nat} (h : Balanced queueClass capacity tracker)
    (heffect : Effect a c o tracker after) : Balanced queueClass capacity after := by
  obtain ⟨⟨hclass, hcapacity⟩, haccepted, hcompleted, hoverflows, hrefusals, hoccupancy, hroom,
      hkeys⟩ :=
    heffect
  obtain ⟨⟨rfl, rfl⟩, hbalance, hbounded, hsum, hcard⟩ := h
  refine ⟨⟨hclass, hcapacity⟩, by omega, hroom hbounded, by omega, fun hcoalescing => ?_⟩
  have hmoved := hkeys hcoalescing
  rw [hcard hcoalescing] at hmoved
  omega

theorem Balanced.step (h : Balanced queueClass capacity tracker) (call : Call) :
    Balanced queueClass capacity (tracker.step call).1 := by
  cases call with
  | offer key =>
    rcases offer_yields tracker key with ⟨_, -, hrefused⟩ | ⟨hoverflowed, -⟩ | ⟨hqueued, -⟩
    · show Balanced queueClass capacity (offer key tracker).1
      rw [hrefused.unchanged]
      exact h
    · exact h.effect hoverflowed
    · exact h.effect hqueued
  | complete key =>
    rcases complete_yields tracker key with ⟨_, -, -, hsame⟩ | ⟨hcompleted, -⟩
    · show Balanced queueClass capacity (complete key tracker).1
      rw [hsame]
      exact h
    · exact h.effect hcompleted

theorem balanced_tryNew (h : tryNew queueClass capacity = .ok tracker) :
    Balanced queueClass capacity tracker := by
  simp only [tryNew, bind_eq_ok, pure_eq_ok] at h
  obtain ⟨-, -, rfl⟩ := h
  exact ⟨⟨rfl, rfl⟩, rfl, Nat.zero_le _, rfl, fun _ => rfl⟩

/-- One of the two counters of offers has gone up by one. -/
def CountedOnce (before after : QueueTracker) : Prop :=
  (after.metrics.accepted.toNat = before.metrics.accepted.toNat + 1
    ∧ after.metrics.overflows.toNat = before.metrics.overflows.toNat) ∨
  (after.metrics.accepted.toNat = before.metrics.accepted.toNat
    ∧ after.metrics.overflows.toNat = before.metrics.overflows.toNat + 1)

/-- After any run of offers and completions on a queue the counters balance, an offer whose key is
    admissible is counted once unless a counter is exhausted, and every error but the one for a full
    queue leaves the tracker as it was. -/
theorem accounting_conservative (queueClass : QueueClass) (capacity : UInt64)
    (tracker : QueueTracker) (hnew : tryNew queueClass capacity = .ok tracker) (calls : List Call) :
    Balanced queueClass capacity (runAll step tracker calls) ∧
    (∀ key key', (runAll step tracker calls).queueKey key = .ok key' →
      (step (runAll step tracker calls) (.offer key)).2 ≠ .error .counterExhausted →
      CountedOnce (runAll step tracker calls) (step (runAll step tracker calls) (.offer key)).1) ∧
    (∀ call error, (step (runAll step tracker calls) call).2 = .error error →
      error ≠ .queueCapacity →
      (step (runAll step tracker calls) call).1 = runAll step tracker calls) := by
  refine ⟨?_, ?_, ?_⟩
  · exact run_induction _ (fun _ tracker => Balanced queueClass capacity tracker)
      (balanced_tryNew hnew) (fun _ _ call h => h.step call) calls
  · intro key key' hkey hexhausted
    rcases offer_yields (runAll step tracker calls) key with
      ⟨error, herror, -, hreason⟩ | ⟨hoverflowed, -⟩ | ⟨hqueued, -⟩
    · rcases hreason with rfl | hreason
      · refine absurd ?_ hexhausted
        show (offer key (runAll step tracker calls)).2.map some = _
        rw [herror]
        rfl
      · rw [hkey] at hreason
        cases hreason
    · exact .inr ⟨hoverflowed.accepted, hoverflowed.overflows⟩
    · exact .inl ⟨hqueued.accepted, hqueued.overflows⟩
  · intro call error herror hnot
    cases call with
    | offer key =>
      have hresult := map_eq_error.mp herror
      rcases offer_yields (runAll step tracker calls) key with
        ⟨_, -, hrefused⟩ | ⟨-, hcapacity⟩ | ⟨-, hqueued⟩
      · exact hrefused.unchanged
      · exact absurd (hcapacity error hresult) hnot
      · rw [hresult] at hqueued
        cases hqueued
    | complete key =>
      rcases complete_yields (runAll step tracker calls) key with ⟨_, -, -, hsame⟩ | ⟨-, hok⟩
      · exact hsame
      · rw [map_eq_error.mp herror] at hok
        cases hok

/-- Two offers of one key and one of another on a queue with one place, the completion of the first
    key and another offer. -/
def tickerCalls : List Call :=
  [.offer (some "a"), .offer (some "a"), .offer (some "b"), .complete (some "a"),
    .offer (some "b")]

/-- Two of the offers are accepted and one of them completed; the other two are overflows. -/
theorem accounting_of_tickers :
    ∃ tracker, tryNew .uiTicker 1 = .ok tracker ∧
      Balanced .uiTicker 1 (runAll step tracker tickerCalls) ∧
      (runAll step tracker tickerCalls).metrics.accepted = 2 ∧
      (runAll step tracker tickerCalls).metrics.completed = 1 ∧
      (runAll step tracker tickerCalls).metrics.overflows = 2 :=
  ⟨_, rfl, (accounting_conservative .uiTicker 1 _ rfl _).1, by decide +kernel⟩

end Balance

end QueueTracker

end CryptoIntelligence.Collector
