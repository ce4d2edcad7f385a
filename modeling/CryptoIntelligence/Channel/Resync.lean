/-
  Invalidated book streams and the snapshots that clear them. When a book output does not fit, its
  stream is invalidated at the output's sequence, and only a snapshot that reaches this sequence
  clears it. A delta that is refused because its stream is already invalid leaves no trace in the
  registry.

  `refused_covered_iff` gives the exact condition under which an accepted snapshot covers every
  delta refused before it, and shows that no delta of an invalid stream is queued.
  `refused_delta_not_covered` is a run in which a snapshot that is older than a refused delta
  clears the stream.
-/
import CryptoIntelligence.Lib.Words
import CryptoIntelligence.Lib.Run
import CryptoIntelligence.Event.Identity
import CryptoIntelligence.Channel.Normalized

namespace CryptoIntelligence.Channel

open Lib Domain Event BookStreamRegistry NormalizedChannel UncheckedEventPayload List Option

/-! ## What a call can do to the registry -/

namespace NormalizedChannel

/-- The ways `try_send` can end. -/
inductive SendEffect (c : NormalizedChannel) (output : NormalizedOutput) :
    NormalizedChannel × Except ChannelError Unit → Prop
  /-- A delta of a stream that is invalid already. -/
  | refused {key : BookStreamKey} {sequence recorded : UInt64} :
    requiredBookStream output = some (key, sequence) → output.event.eventType = .bookDelta →
    c.bookStreams.states key = some (some recorded) →
    SendEffect c output (c, .error .resynchronizationRequired)
  /-- A book output that does not fit. -/
  | lost {key : BookStreamKey} {sequence : UInt64} {state : Option UInt64} :
    requiredBookStream output = some (key, sequence) → c.bookStreams.states key = some state →
    (output.event.eventType = .bookDelta → state = none) →
    SendEffect c output ({ c with
      bookStreams := c.bookStreams.set key (some (max (state.getD 0) sequence)) },
      .error .resynchronizationRequired)
  | queued (bytes : Nat) :
    (∀ key sequence, requiredBookStream output = some (key, sequence) →
      output.event.eventType = .bookDelta → c.bookStreams.states key = some none) →
    SendEffect c output (c.enqueue output bytes, .ok ())
  /-- Any other error; nothing changes. -/
  | rejected {err : ChannelError} :
    err ≠ .resynchronizationRequired → SendEffect c output (c, .error err)

variable {output : NormalizedOutput}

theorem admits_eq_ok {c : NormalizedChannel}
    (h : c.admits output = .ok ()) {key : BookStreamKey} {sequence : UInt64}
    (hstream : requiredBookStream output = some (key, sequence)) :
    ∃ state, c.bookStreams.states key = some state ∧
      (output.event.eventType = .bookDelta → state = none) := by
  simp only [admits, hstream, requiredSequence, bind_eq_ok, required_eq_ok,
    reject_eq_ok, not_and, not_isSome_iff_eq_none] at h
  exact h

theorem admits_eq_error {c : NormalizedChannel} {err : ChannelError}
    (h : c.admits output = .error err) : SendEffect c output (c, .error err) := by
  unfold admits at h
  cases hstream : requiredBookStream output with
  | none =>
    rw [hstream] at h
    cases h
  | some stream =>
    obtain ⟨key, sequence⟩ := stream
    simp only [hstream, requiredSequence] at h
    cases hstate : c.bookStreams.states key with
    | none =>
      rw [hstate, required_none, error_bind] at h
      rw [← Except.error.inj h]
      exact .rejected nofun
    | some state =>
      rw [hstate, required_some, ok_bind, reject_eq_error] at h
      obtain ⟨⟨hdelta, hsome⟩, rfl⟩ := h
      obtain ⟨recorded, rfl⟩ := isSome_iff_exists.mp hsome
      exact .refused hstream hdelta hstate

theorem overflow_effect {c : NormalizedChannel}
    (h : c.admits output = .ok ()) : SendEffect c output (c.overflow output) := by
  unfold overflow
  cases hstream : requiredBookStream output with
  | none => exact .rejected nofun
  | some stream =>
    obtain ⟨key, sequence⟩ := stream
    obtain ⟨state, hstate, hdelta⟩ := admits_eq_ok h hstream
    have hinvalidate : c.bookStreams.invalidate key sequence =
        .ok (c.bookStreams.set key (some (max (state.getD 0) sequence))) := by
      unfold invalidate requiredSequence
      rw [hstate]
      rfl
    dsimp only
    rw [hinvalidate]
    exact .lost hstream hstate hdelta

theorem encodedLength_eq_error {wireLength : WireLength} {event : EventEnvelope}
    {err : ChannelError} (h : encodedLength wireLength event = .error err) :
    err ≠ .resynchronizationRequired := by
  rintro rfl
  simp only [encodedLength, bind_eq_error, reject_eq_error] at h
  obtain h | ⟨length, -, ⟨-, h⟩ | ⟨_, -, h⟩⟩ := h
  · cases hlength : wireLength event <;> rw [hlength] at h <;> cases h
  · cases h
  · cases h

theorem trySend_effect (wireLength : WireLength) (c : NormalizedChannel)
    (output : NormalizedOutput) : SendEffect c output (c.trySend wireLength output) := by
  unfold trySend
  cases hadmits : c.admits output with
  | error err => exact admits_eq_error hadmits
  | ok _ =>
    dsimp only
    cases hlength : encodedLength wireLength output.event with
    | error err => exact .rejected (encodedLength_eq_error hlength)
    | ok bytes =>
      dsimp only
      split
      · exact overflow_effect hadmits
      split
      · exact overflow_effect hadmits
      split
      · exact .rejected nofun
      split
      · refine .queued bytes fun key sequence hstream hdelta => ?_
        obtain ⟨state, hstate, hnone⟩ := admits_eq_ok hadmits hstream
        rw [hstate, hnone hdelta]
      · exact overflow_effect hadmits

/-- A delta of an invalid stream is refused and nothing changes. -/
theorem trySend_of_invalid {wireLength : WireLength} {c : NormalizedChannel}
    {key : BookStreamKey} {sequence recorded : UInt64}
    (hstream : requiredBookStream output = some (key, sequence))
    (hdelta : output.event.eventType = .bookDelta)
    (hstate : c.bookStreams.states key = some (some recorded)) :
    c.trySend wireLength output = (c, .error .resynchronizationRequired) := by
  have hadmits : c.admits output = .error .resynchronizationRequired := by
    unfold admits requiredSequence
    rw [hstream]
    dsimp only
    rw [hstate, required_some, ok_bind]
    exact reject_pos ⟨hdelta, rfl⟩
  unfold trySend
  rw [hadmits]

/-- A snapshot is accepted when its stream is invalid at a sequence it reaches. -/
theorem accept_cases (c : NormalizedChannel) (applied : AppliedSnapshot) :
    (∃ err, c.acceptResynchronizingSnapshot applied = (c, .error err)) ∨
      ∃ key sequence recorded, requiredBookStream applied.output = some (key, sequence) ∧
        c.bookStreams.states key = some (some recorded) ∧ recorded ≤ sequence ∧
        c.acceptResynchronizingSnapshot applied =
          ({ c with bookStreams := c.bookStreams.set key none }, .ok ()) := by
  unfold acceptResynchronizingSnapshot
  cases h : c.satisfiedStream applied with
  | error err => exact .inl ⟨err, rfl⟩
  | ok key =>
    simp only [satisfiedStream, requiredSequence, bind_eq_ok, reject_eq_ok,
      required_eq_ok, pure_eq_ok, Prod.exists] at h
    obtain ⟨_, -, _, -, key', sequence, hstream, state, hstate, recorded, rfl, _, hreaches, rfl⟩ :=
      h
    refine .inr ⟨key', sequence, recorded, hstream, hstate, UInt64.not_lt.mp hreaches, ?_⟩
    simp only [markSynchronized, requiredSequence, hstate,
      required_some, ok_bind, pure_ok]

end NormalizedChannel

/-! ## Runs -/

/-- The calls that concern the registry, and the polls that make room in a lane. -/
inductive ChannelOp where
  | trySend (output : NormalizedOutput)
  | tryRecv (lane : EventPriority)
  | acceptResynchronizingSnapshot (applied : AppliedSnapshot)

abbrev ChannelCall := ChannelOp × Except ChannelError Unit

/-- One call on the channel. -/
def NormalizedChannel.step (wireLength : WireLength) (c : NormalizedChannel) :
    ChannelOp → NormalizedChannel × Except ChannelError Unit
  | .trySend output => c.trySend wireLength output
  | .tryRecv lane => ((c.tryRecv lane).1, .ok ())
  | .acceptResynchronizingSnapshot applied => c.acceptResynchronizingSnapshot applied

/-- The channel after a run of calls. -/
abbrev NormalizedChannel.run (wireLength : WireLength) (c : NormalizedChannel)
    (ops : List ChannelOp) : NormalizedChannel := runAll (step wireLength) c ops

/-- The calls of a run with what each of them returned. -/
abbrev NormalizedChannel.history (wireLength : WireLength) (c : NormalizedChannel)
    (ops : List ChannelOp) : List ChannelCall := historyOf (step wireLength) c ops

theorem NormalizedChannel.run_concat (wireLength : WireLength)
    (c : NormalizedChannel) (ops : List ChannelOp) (op : ChannelOp) :
    c.run wireLength (ops ++ [op]) = ((c.run wireLength ops).step wireLength op).1 :=
  runAll_concat _ c ops op

theorem NormalizedChannel.history_concat (wireLength : WireLength)
    (c : NormalizedChannel) (ops : List ChannelOp) (op : ChannelOp) :
    c.history wireLength (ops ++ [op]) = c.history wireLength ops ++
      [(op, ((c.run wireLength ops).step wireLength op).2)] :=
  historyOf_concat _ c ops op

/-- The sequence of an output, if it belongs to the stream. -/
def sequenceOn (key : BookStreamKey) (output : NormalizedOutput) : Option UInt64 :=
  (requiredBookStream output).bind fun stream => if stream.1 = key then some stream.2 else none

namespace ChannelCall

/-- The output of the stream that a call refused, for good until a resynchronization. -/
def lost? (key : BookStreamKey) (call : ChannelCall) : Option (NormalizedOutput × UInt64) :=
  match call with
  | (.trySend output, .error .resynchronizationRequired) =>
    (sequenceOn key output).map fun sequence => (output, sequence)
  | _ => none

/-- The sequence of a delta of the stream that a call refused. -/
def refusedDelta? (key : BookStreamKey) (call : ChannelCall) : Option UInt64 :=
  (lost? key call).bind fun lost =>
    if lost.1.event.eventType = .bookDelta then some lost.2 else none

/-- The sequence of a snapshot of the stream that a call accepted. -/
def accepted? (key : BookStreamKey) (call : ChannelCall) : Option UInt64 :=
  match call with
  | (.acceptResynchronizingSnapshot applied, .ok ()) => sequenceOn key applied.output
  | _ => none

end ChannelCall

/-- The sequences of the deltas of a stream that were ever refused. -/
def refusedDeltas (key : BookStreamKey) (history : List ChannelCall) : List UInt64 :=
  history.filterMap (ChannelCall.refusedDelta? key)

/-- The sequence of the last snapshot accepted for a stream. -/
def lastAccepted (key : BookStreamKey) (history : List ChannelCall) : Option UInt64 :=
  (history.filterMap (ChannelCall.accepted? key)).getLast?

/-- What the registry does not know of the refused deltas of a stream. -/
structure Ledger where
  /-- An output of the stream was lost since the last accepted snapshot. -/
  invalid : Bool
  refused : List UInt64
  /-- Refused when the stream was invalid already, or before the last accepted snapshot. -/
  unrecorded : List UInt64

def Ledger.record (key : BookStreamKey) (l : Ledger) (call : ChannelCall) : Ledger :=
  match ChannelCall.lost? key call with
  | some _ =>
    let delta := (ChannelCall.refusedDelta? key call).toList
    ⟨true, l.refused ++ delta, if l.invalid then l.unrecorded ++ delta else l.unrecorded⟩
  | none => if (ChannelCall.accepted? key call).isSome then ⟨false, l.refused, l.refused⟩ else l

def ledger (key : BookStreamKey) (history : List ChannelCall) : Ledger :=
  history.foldl (Ledger.record key) ⟨false, [], []⟩

/-- The refused deltas of a stream that the registry does not hold against a snapshot. -/
def unrecorded (key : BookStreamKey) (history : List ChannelCall) : List UInt64 :=
  (ledger key history).unrecorded

/-! ## The registry and the ledger -/

theorem ledger_concat (key : BookStreamKey) (history : List ChannelCall) (call : ChannelCall) :
    ledger key (history ++ [call]) = (ledger key history).record key call := by
  unfold ledger
  rw [foldl_append]
  rfl

section

variable {key : BookStreamKey} {call : ChannelCall}

theorem refusedDelta?_of_not_lost (h : ChannelCall.lost? key call = none) :
    ChannelCall.refusedDelta? key call = none := by
  rw [ChannelCall.refusedDelta?, h, bind_none]

theorem accepted?_of_lost {lost : NormalizedOutput × UInt64}
    (h : ChannelCall.lost? key call = some lost) : ChannelCall.accepted? key call = none := by
  unfold ChannelCall.lost? at h
  split at h
  · rfl
  · cases h

theorem record_of_lost {lost : NormalizedOutput × UInt64}
    (h : ChannelCall.lost? key call = some lost) (l : Ledger) :
    l.record key call = ⟨true, l.refused ++ (ChannelCall.refusedDelta? key call).toList,
      if l.invalid then l.unrecorded ++ (ChannelCall.refusedDelta? key call).toList
      else l.unrecorded⟩ := by
  rw [Ledger.record, h]

theorem record_of_quiet (hlost : ChannelCall.lost? key call = none)
    (haccepted : ChannelCall.accepted? key call = none) (l : Ledger) : l.record key call = l := by
  rw [Ledger.record, hlost, haccepted]
  rfl

theorem record_of_accepted (hlost : ChannelCall.lost? key call = none) {sequence : UInt64}
    (haccepted : ChannelCall.accepted? key call = some sequence) (l : Ledger) :
    l.record key call = ⟨false, l.refused, l.refused⟩ := by
  rw [Ledger.record, hlost, haccepted]
  rfl

end

theorem refusedDeltas_concat (key : BookStreamKey) (history : List ChannelCall)
    (call : ChannelCall) : refusedDeltas key (history ++ [call]) =
      refusedDeltas key history ++ (ChannelCall.refusedDelta? key call).toList := by
  rw [refusedDeltas, filterMap_append]
  cases h : ChannelCall.refusedDelta? key call <;> simp [refusedDeltas, h]

theorem ledger_refused (key : BookStreamKey) (history : List ChannelCall) :
    (ledger key history).refused = refusedDeltas key history := by
  induction history using List.reverseRecOn with
  | nil => rfl
  | append_singleton history call ih =>
    rw [ledger_concat, refusedDeltas_concat, ← ih]
    cases hlost : ChannelCall.lost? key call with
    | some lost => rw [record_of_lost hlost]
    | none =>
      rw [refusedDelta?_of_not_lost hlost, toList_none, append_nil]
      cases haccepted : ChannelCall.accepted? key call with
      | none => rw [record_of_quiet hlost haccepted]
      | some sequence => rw [record_of_accepted hlost haccepted]

theorem states_set_self (registry : BookStreamRegistry) (key : BookStreamKey)
    (state : Option UInt64) : (registry.set key state).states key = some state :=
  Function.update_self ..

theorem states_set_of_ne (registry : BookStreamRegistry) {key other : BookStreamKey}
    (h : other ≠ key) (state : Option UInt64) :
    (registry.set key state).states other = registry.states other :=
  Function.update_of_ne h ..

theorem sequenceOn_of_stream {output : NormalizedOutput} {key : BookStreamKey} {sequence : UInt64}
    (h : requiredBookStream output = some (key, sequence)) (other : BookStreamKey) :
    sequenceOn other output = if key = other then some sequence else none := by
  rw [sequenceOn, h]
  rfl

/-- What a call can do to one stream. -/
inductive StreamEffect (key : BookStreamKey) (c : NormalizedChannel) (call : ChannelCall)
    (c' : NormalizedChannel) : Prop
  | quiet : ChannelCall.lost? key call = none → ChannelCall.accepted? key call = none →
    c'.bookStreams.states key = c.bookStreams.states key → StreamEffect key c call c'
  | refused {lost : NormalizedOutput × UInt64} {r : UInt64} :
    ChannelCall.lost? key call = some lost → c.bookStreams.states key = some (some r) →
    c' = c → StreamEffect key c call c'
  | lost {output : NormalizedOutput} {sequence : UInt64} {state : Option UInt64} :
    ChannelCall.lost? key call = some (output, sequence) → c.bookStreams.states key = some state →
    (output.event.eventType = .bookDelta → state = none) →
    c'.bookStreams.states key = some (some (max (state.getD 0) sequence)) →
    StreamEffect key c call c'
  | accepted {sequence r : UInt64} :
    ChannelCall.lost? key call = none → ChannelCall.accepted? key call = some sequence →
    c.bookStreams.states key = some (some r) → r ≤ sequence →
    c'.bookStreams.states key = some none → StreamEffect key c call c'

section

variable (wireLength : WireLength)

theorem trySend_stream (key : BookStreamKey)
    (c : NormalizedChannel) (output : NormalizedOutput) :
    StreamEffect key c (.trySend output, (c.trySend wireLength output).2)
      (c.trySend wireLength output).1 := by
  have heffect := NormalizedChannel.trySend_effect wireLength c output
  generalize c.trySend wireLength output = r at heffect ⊢
  have hlost {stream : BookStreamKey} {sequence : UInt64}
      (hstream : requiredBookStream output = some (stream, sequence)) :
      ChannelCall.lost? key (.trySend output, .error .resynchronizationRequired) =
        (if stream = key then some sequence else none).map fun q => (output, q) := by
    rw [← sequenceOn_of_stream hstream key]
    rfl
  cases heffect with
  | @refused stream sequence recorded hstream hdelta hstate =>
    have hcall := hlost hstream
    by_cases hkey : stream = key
    · rw [if_pos hkey] at hcall
      exact .refused hcall (hkey ▸ hstate) rfl
    · rw [if_neg hkey] at hcall
      exact .quiet hcall rfl rfl
  | @lost stream sequence state hstream hstate hdelta =>
    have hcall := hlost hstream
    by_cases hkey : stream = key
    · rw [if_pos hkey] at hcall
      subst hkey
      exact .lost hcall hstate hdelta (states_set_self _ _ _)
    · rw [if_neg hkey] at hcall
      exact .quiet hcall rfl (states_set_of_ne _ (Ne.symm hkey) _)
  | queued bytes _ => exact .quiet rfl rfl rfl
  | rejected herr =>
    refine .quiet ?_ rfl rfl
    unfold ChannelCall.lost?
    split
    · rename_i heq
      exact absurd (Except.error.inj (Prod.mk.inj heq).2) herr
    · rfl

theorem accept_stream (key : BookStreamKey) (c : NormalizedChannel) (applied : AppliedSnapshot) :
    StreamEffect key c (.acceptResynchronizingSnapshot applied,
      (c.acceptResynchronizingSnapshot applied).2) (c.acceptResynchronizingSnapshot applied).1 := by
  rcases c.accept_cases applied with ⟨err, heq⟩ | ⟨stream, sequence, r, hstream, hstate, hle, heq⟩
  · rw [heq]
    exact .quiet rfl rfl rfl
  · rw [heq]
    have haccepted : ChannelCall.accepted? key (.acceptResynchronizingSnapshot applied, .ok ()) =
        if stream = key then some sequence else none := sequenceOn_of_stream hstream key
    by_cases hkey : stream = key
    · rw [if_pos hkey] at haccepted
      subst hkey
      exact .accepted rfl haccepted hstate hle (states_set_self _ _ _)
    · rw [if_neg hkey] at haccepted
      exact .quiet rfl haccepted (states_set_of_ne _ (Ne.symm hkey) _)

theorem step_stream (key : BookStreamKey)
    (c : NormalizedChannel) (op : ChannelOp) :
    StreamEffect key c (op, (c.step wireLength op).2) (c.step wireLength op).1 := by
  cases op with
  | trySend output => exact trySend_stream wireLength key c output
  | acceptResynchronizingSnapshot applied => exact accept_stream key c applied
  | tryRecv lane =>
    refine .quiet rfl rfl ?_
    change (c.tryRecv lane).1.bookStreams.states key = _
    unfold NormalizedChannel.tryRecv
    split <;> rfl

/-- The registry holds what the ledger of a stream says: the ledger knows an invalid stream, and
    every refused delta is unrecorded or at most the recorded sequence. -/
structure Tracks (key : BookStreamKey) (history : List ChannelCall) (c : NormalizedChannel) :
    Prop where
  invalid : ∀ r, c.bookStreams.states key = some (some r) → (ledger key history).invalid = true
  recorded : ∀ sequence ∈ refusedDeltas key history, sequence ∈ unrecorded key history ∨
    ∃ r, c.bookStreams.states key = some (some r) ∧ sequence ≤ r

section

variable {key : BookStreamKey} {history : List ChannelCall} {c c' : NormalizedChannel}
  {call : ChannelCall}

/-- A call that loses no output of the stream refuses no delta of it. -/
theorem refusedDeltas_of_not_lost (hlost : ChannelCall.lost? key call = none) :
    refusedDeltas key (history ++ [call]) = refusedDeltas key history := by
  rw [refusedDeltas_concat, refusedDelta?_of_not_lost hlost, toList_none, append_nil]

/-- A lost output raises the recorded sequence to its own. -/
theorem Tracks.lost (h : Tracks key history c) {output : NormalizedOutput} {sequence : UInt64}
    {state : Option UInt64} (hlost : ChannelCall.lost? key call = some (output, sequence))
    (hstate : c.bookStreams.states key = some state)
    (hstates : c'.bookStreams.states key = some (some (max (state.getD 0) sequence))) :
    Tracks key (history ++ [call]) c' := by
  obtain ⟨hleft, hright⟩ := le_max_uint64 (state.getD 0) sequence
  constructor
  · intro r _
    rw [ledger_concat, record_of_lost hlost]
  · intro q hmem
    rw [refusedDeltas_concat] at hmem
    rw [unrecorded, ledger_concat, record_of_lost hlost, hstates]
    dsimp only
    rcases mem_append.mp hmem with hmem | hmem
    · rcases h.recorded q hmem with hu | ⟨r, hr, hle⟩
      · left
        split
        · exact mem_append_left _ hu
        · exact hu
      · right
        obtain rfl : state = some r := Option.some.inj (hstate.symm.trans hr)
        exact ⟨_, rfl, UInt64.le_trans hle hleft⟩
    · right
      rw [ChannelCall.refusedDelta?, hlost, bind_some] at hmem
      split at hmem
      · rw [toList_some, mem_singleton] at hmem
        exact ⟨_, rfl, hmem ▸ hright⟩
      · rw [toList_none] at hmem
        cases hmem

/-- Every call keeps registry and ledger together. -/
theorem Tracks.step (h : Tracks key history c) (heffect : StreamEffect key c call c') :
    Tracks key (history ++ [call]) c' := by
  cases heffect with
  | quiet hlost haccepted hstates =>
    have hledger : ledger key (history ++ [call]) = ledger key history := by
      rw [ledger_concat, record_of_quiet hlost haccepted]
    constructor
    · rw [hledger, hstates]
      exact h.invalid
    · rw [refusedDeltas_of_not_lost hlost, unrecorded, hledger, hstates]
      exact h.recorded
  | refused hlost hstate hsame =>
    subst hsame
    constructor
    · intro r _
      rw [ledger_concat, record_of_lost hlost]
    · intro q hmem
      rw [refusedDeltas_concat] at hmem
      rw [unrecorded, ledger_concat, record_of_lost hlost, if_pos (h.invalid _ hstate)]
      rcases mem_append.mp hmem with hmem | hmem
      · exact (h.recorded q hmem).imp_left fun hu => mem_append_left _ hu
      · exact .inl (mem_append_right _ hmem)
  | lost hlost hstate _ hstates => exact h.lost hlost hstate hstates
  | accepted hlost haccepted _ _ hstates =>
    constructor
    · intro r hr
      rw [hstates] at hr
      cases hr
    · intro q hmem
      rw [refusedDeltas_of_not_lost hlost] at hmem
      rw [unrecorded, ledger_concat, record_of_accepted hlost haccepted, ledger_refused]
      exact .inl hmem

end

theorem unrecorded_subset (key : BookStreamKey) (history : List ChannelCall) :
    ∀ q ∈ unrecorded key history, q ∈ refusedDeltas key history := by
  rw [← ledger_refused]
  unfold unrecorded
  induction history using List.reverseRecOn with
  | nil => exact fun _ h => h
  | append_singleton history call ih =>
    intro q hq
    rw [ledger_concat] at hq ⊢
    cases hlost : ChannelCall.lost? key call with
    | some lost =>
      rw [record_of_lost hlost] at hq ⊢
      dsimp only at hq ⊢
      split at hq
      · exact (mem_append.mp hq).elim (fun h => mem_append_left _ (ih q h))
          (mem_append_right _)
      · exact mem_append_left _ (ih q hq)
    | none =>
      cases haccepted : ChannelCall.accepted? key call with
      | none =>
        rw [record_of_quiet hlost haccepted] at hq ⊢
        exact ih q hq
      | some sequence =>
        rw [record_of_accepted hlost haccepted] at hq ⊢
        exact hq

theorem lastAccepted_concat (key : BookStreamKey) (history : List ChannelCall)
    (call : ChannelCall) : lastAccepted key (history ++ [call]) =
      (ChannelCall.accepted? key call).or (lastAccepted key history) := by
  rw [lastAccepted, filterMap_append]
  cases h : ChannelCall.accepted? key call <;> simp [lastAccepted, h]

/-! ## Covered deltas -/

/-- Unless the stream is invalid, its last accepted snapshot reaches every delta refused on it. -/
def Covered (key : BookStreamKey) (history : List ChannelCall) (c : NormalizedChannel) : Prop :=
  c.bookStreams.states key = some none → ∀ q ∈ refusedDeltas key history,
    ∃ sequence, lastAccepted key history = some sequence ∧ q ≤ sequence

/-- One call keeps the refused deltas covered if the snapshot it accepts reaches the unrecorded
    ones; the registry itself sees to the others. -/
theorem covered_step {key : BookStreamKey}
    {history : List ChannelCall} {c : NormalizedChannel} (h : Tracks key history c)
    (hcovered : Covered key history c) {op : ChannelOp}
    (hreaches : ∀ sequence, ChannelCall.accepted? key (op, (c.step wireLength op).2) =
      some sequence → ∀ q ∈ unrecorded key history, q ≤ sequence) :
    Covered key (history ++ [(op, (c.step wireLength op).2)]) (c.step wireLength op).1 := by
  have heffect := step_stream wireLength key c op
  unfold Covered
  rw [lastAccepted_concat]
  cases heffect with
  | quiet hlost haccepted hstates =>
    rw [hstates, refusedDeltas_of_not_lost hlost, haccepted, none_or]
    exact hcovered
  | refused _ hstate hsame =>
    rw [hsame, hstate]
    exact nofun
  | lost _ _ _ hstates =>
    rw [hstates]
    exact nofun
  | @accepted sequence r hlost haccepted hstate hle _ =>
    rw [refusedDeltas_of_not_lost hlost, haccepted, some_or]
    intro _ q hq
    refine ⟨sequence, rfl, ?_⟩
    rcases h.recorded q hq with hu | ⟨r', hr', hle'⟩
    · exact hreaches sequence haccepted q hu
    · obtain rfl : r = r' := Option.some.inj (Option.some.inj (hstate.symm.trans hr'))
      exact UInt64.le_trans hle' hle

theorem admitAll_states {maximum : Nat} {keys : List BookStreamKey} : ∀ {count : Nat}
    {registry streams : BookStreamRegistry},
    admitAll maximum count registry keys = .ok streams →
    ∀ key, streams.states key = if key ∈ keys then some none else registry.states key := by
  induction keys with
  | nil =>
    intro count registry streams h key
    rw [← Except.ok.inj h, if_neg not_mem_nil]
  | cons first keys ih =>
    intro count registry streams h key
    unfold admitAll at h
    split at h
    · cases h
    · rw [ih h key]
      by_cases hkey : key = first
      · subst hkey
        rw [states_set_self, if_pos mem_cons_self, ite_self]
      · rw [states_set_of_ne _ hkey]
        simp only [mem_cons, hkey, false_or]

theorem tracks_run {key : BookStreamKey}
    {c : NormalizedChannel} (h : c.bookStreams.states key = some none) (ops : List ChannelOp) :
    Tracks key (c.history wireLength ops) (c.run wireLength ops) := by
  have hstart : Tracks key [] c := by
    refine ⟨fun r hr => ?_, nofun⟩
    rw [h] at hr
    cases hr
  exact run_induction (step wireLength) (Tracks key) hstart
    (fun _ s op hs => hs.step (step_stream wireLength key s op)) ops

/-- Every accepted snapshot of a stream reaches its unrecorded deltas. -/
def Reaches (wireLength : WireLength) (key : BookStreamKey) (c : NormalizedChannel)
    (ops : List ChannelOp) : Prop :=
  ∀ done op rest sequence, ops = done ++ op :: rest →
    ChannelCall.accepted? key (op, ((c.run wireLength done).step wireLength op).2) = some sequence →
    ∀ q ∈ unrecorded key (c.history wireLength done), q ≤ sequence

theorem covered_run {key : BookStreamKey}
    {c : NormalizedChannel} (h : c.bookStreams.states key = some none) (ops : List ChannelOp)
    (hreaches : Reaches wireLength key c ops) :
    Covered key (c.history wireLength ops) (c.run wireLength ops) := by
  induction ops using List.reverseRecOn with
  | nil => exact fun _ => nofun
  | append_singleton ops op ih =>
    have hbefore : Reaches wireLength key c ops := by
      intro done op' rest sequence heq
      refine hreaches done op' (rest ++ [op]) sequence ?_
      rw [heq, append_assoc, cons_append]
    rw [c.run_concat, c.history_concat]
    exact covered_step wireLength (tracks_run wireLength h ops) (ih hbefore) fun sequence =>
      hreaches ops op [] sequence rfl

end

/-- At every moment of a run the refused deltas of a valid stream are covered by its last accepted
    snapshot, if and only if every accepted snapshot reaches the deltas that were refused when the
    stream was invalid already or before the snapshot accepted last. No delta of an invalid stream
    is queued. -/
theorem refused_covered_iff (wireLength : WireLength)
    (maximum registryId itemCapacity byteCapacity : Nat) (admitted : List BookStreamKey)
    (streams : BookStreamRegistry) (policies : LossPolicyRegistry) (c : NormalizedChannel)
    (hstreams : tryNew maximum admitted = .ok streams)
    (hnew : withRegistryAndLossPolicies registryId itemCapacity byteCapacity
      streams policies = .ok c) (key : BookStreamKey) (hkey : key ∈ admitted)
    (ops : List ChannelOp) :
    ((∀ done rest, ops = done ++ rest →
        Covered key (c.history wireLength done) (c.run wireLength done)) ↔
      Reaches wireLength key c ops) ∧
    (∀ recorded, (c.run wireLength ops).bookStreams.states key = some (some recorded) →
      ∀ output sequence, requiredBookStream output = some (key, sequence) →
        output.event.eventType = .bookDelta →
        (c.run wireLength ops).trySend wireLength output =
          (c.run wireLength ops, .error .resynchronizationRequired)) := by
  have hstart : c.bookStreams.states key = some none := by
    simp only [withRegistryAndLossPolicies, bind_eq_ok, pure_eq_ok] at hnew
    obtain ⟨_, -, _, -, rfl⟩ := hnew
    rw [admitAll_states hstreams key, if_pos hkey]
  refine ⟨⟨fun hcovered done op rest sequence heq haccepted q hq => ?_,
    fun hreaches done rest heq => ?_⟩, fun recorded hstate output sequence hstream hdelta =>
      NormalizedChannel.trySend_of_invalid hstream hdelta hstate⟩
  · have hafter := hcovered (done ++ [op]) rest (by rw [heq, append_assoc]; rfl)
    unfold Covered at hafter
    rw [c.run_concat, c.history_concat, refusedDeltas_concat, lastAccepted_concat] at hafter
    have heffect := step_stream wireLength key (c.run wireLength done) op
    cases heffect with
    | quiet _ hnone _ =>
      rw [hnone] at haccepted
      cases haccepted
    | refused hlost _ _ =>
      rw [accepted?_of_lost hlost] at haccepted
      cases haccepted
    | lost hlost _ _ _ =>
      rw [accepted?_of_lost hlost] at haccepted
      cases haccepted
    | accepted _ _ _ _ hstate =>
      obtain ⟨last, hlast, hle⟩ := hafter hstate q
        (mem_append_left _ (unrecorded_subset key _ q hq))
      rw [haccepted, some_or] at hlast
      exact Option.some.inj hlast ▸ hle
  · refine covered_run wireLength hstart done fun d op r sequence hd => ?_
    exact hreaches d op (r ++ rest) sequence (by rw [heq, hd, append_assoc, cons_append])

/-! ## A snapshot that is too old -/

def sampleKey : BookStreamKey := ⟨krakenSource, krakenSpot, 1⟩

/-- A delta of the sample stream. -/
def deltaOutput (sequence : UInt64) (valid : (bookDelta
      ⟨[], [], sequence, sequence⟩).validate { tradeMetadata with
        sequenceNumber := some sequence, previousSequenceNumber := some (sequence - 1)
        snapshotKind := .delta } = .ok ()) : NormalizedOutput :=
  ⟨⟨Vector.replicate 32 1, _, _, _, valid, rfl⟩⟩

theorem firstDelta_valid : (bookDelta ⟨[], [], 1, 1⟩).validate
    { tradeMetadata with
      sequenceNumber := some 1, previousSequenceNumber := some (1 - 1)
      snapshotKind := .delta } = .ok () := by
  decide

/-- A snapshot of the sample stream. -/
def snapshotOutput (sequence : UInt64) (valid : (bookSnapshot
      ⟨[], [], sequence⟩).validate { tradeMetadata with
        sequenceNumber := some sequence, previousSequenceNumber := none
        snapshotKind := .snapshot } = .ok ()) : NormalizedOutput :=
  ⟨⟨Vector.replicate 32 1, _, _, _, valid, rfl⟩⟩

/-- One item to a lane and the sample stream. -/
def sampleChannel : NormalizedChannel :=
  { registryId := 0, itemCapacity := 1, byteCapacity := 16, queue := fun _ => []
    receiverClosed := false, bookStreams := empty.set sampleKey none
    lossPolicies := .empty, samplingState := [] }

/-- The lane is full when delta 2 comes, delta 5 is refused, and a snapshot is delivered and
    accepted. -/
def resyncRun (snapshot : NormalizedOutput) : List ChannelOp :=
  [.trySend (deltaOutput 1 firstDelta_valid), .trySend (deltaOutput 2 (by decide)),
    .trySend (deltaOutput 5 (by decide)), .tryRecv .integrity, .trySend snapshot,
    .tryRecv .integrity, .acceptResynchronizingSnapshot ⟨snapshot, 0⟩]

theorem sampleChannel_streams :
    tryNew 1 [sampleKey] = .ok (empty.set sampleKey none) :=
  rfl

theorem sampleChannel_new : withRegistryAndLossPolicies 0 1 16
    (empty.set sampleKey none) .empty = .ok sampleChannel := by
  have hcapacity : validItemCapacity 1 = true := by decide
  simp only [withRegistryAndLossPolicies, hcapacity]
  rfl

/-- A snapshot at the sequence of the refused delta covers it. -/
theorem refused_covered_iff_sample :
    Covered sampleKey
      (sampleChannel.history (fun _ => some 1) (resyncRun (snapshotOutput 5 (by decide))))
      (sampleChannel.run (fun _ => some 1) (resyncRun (snapshotOutput 5 (by decide)))) := by
  refine (refused_covered_iff (fun _ => some 1) 1 0 1 16 [sampleKey] _ .empty sampleChannel
    sampleChannel_streams sampleChannel_new sampleKey mem_cons_self
    (resyncRun (snapshotOutput 5 (by decide)))).1.mpr ?_ _ [] (append_nil _).symm
  intro done op rest sequence heq haccepted
  -- checked at each of the seven calls
  have hall := forall_split_of_get (motive := fun done op => (ChannelCall.accepted? sampleKey
      (op, ((sampleChannel.run (fun _ => some 1) done).step (fun _ => some 1) op).2)).all
          (fun last =>
    (unrecorded sampleKey (sampleChannel.history (fun _ => some 1) done)).all (· ≤ last)) = true)
    (by decide +kernel) done op rest heq
  rw [haccepted] at hall
  simpa using hall

/-- Snapshot 2 clears the stream although delta 5 was refused, and delta 6 is queued behind it. -/
theorem refused_delta_not_covered :
    (sampleChannel.history (fun _ => some 1) (resyncRun (snapshotOutput 2 (by decide)))).map
        Prod.snd = [.ok (), .error .resynchronizationRequired, .error .resynchronizationRequired,
          .ok (), .ok (), .ok (), .ok ()] ∧
      refusedDeltas sampleKey (sampleChannel.history (fun _ => some 1)
        (resyncRun (snapshotOutput 2 (by decide)))) = [2, 5] ∧
      lastAccepted sampleKey (sampleChannel.history (fun _ => some 1)
        (resyncRun (snapshotOutput 2 (by decide)))) = some 2 ∧
      (sampleChannel.run (fun _ => some 1)
        (resyncRun (snapshotOutput 2 (by decide)))).bookStreams.states sampleKey = some none ∧
      ((sampleChannel.run (fun _ => some 1) (resyncRun (snapshotOutput 2 (by decide)))).trySend
        (fun _ => some 1) (deltaOutput 6 (by decide))).2 = .ok () := by
  decide +kernel

end CryptoIntelligence.Channel
