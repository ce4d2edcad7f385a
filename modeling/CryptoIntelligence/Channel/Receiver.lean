/-
  `BoundedNormalizedReceiver::recv` among concurrent sinks. A send, the drop of one lane sender, a
  `try_recv` and an `is_closed` test are one atomic step each, in any interleaving. A sink drops its
  five lane senders one after the other; a lane is closed when its last sender is gone, with or
  without outputs still queued. The all-closed test and the guards of the select read the closed
  flags one lane at a time.

  Every lane is a queue: what `recv` returned from it, followed by what is queued, is what was sent
  (`Accounted`). `recv_none_iff` says when the `None` at the end comes after every output, and
  `recv_none_overtakes` is an interleaving in which it does not. `select_has_branch` says when the
  select has an enabled branch, and `select_without_branch` is an interleaving in which it panics.
-/
import CryptoIntelligence.Channel.Resync

namespace CryptoIntelligence.Channel

open Lib Event NormalizedChannel List

/-! ## The machine -/

/-- Where the receiver is. -/
inductive Phase where
  /-- Outside of `recv`. -/
  | idle
  /-- Before `try_recv` on the first of these lanes. -/
  | poll (rest : List EventPriority)
  /-- Before the `is_closed` test of the first of these lanes. -/
  | test (rest : List EventPriority)
  /-- The test found `seen` open; before the guard of the first lane of `rest`. -/
  | guard (seen : EventPriority) (rest enabled : List EventPriority)
  /-- In the select, before the poll of the first branch of `rest`. -/
  | select (enabled rest : List EventPriority)
  | panicked
  deriving DecidableEq

structure Machine where
  channel : NormalizedChannel
  /-- The lanes whose sender each sink still holds; a sink in use holds all of them. -/
  sinks : List (List EventPriority)
  phase : Phase

inductive Action where
  | trySend (sink : Nat) (output : NormalizedOutput)
  | send (sink : Nat) (output : NormalizedOutput)
  | trySendLossy (sink : Nat) (output : NormalizedOutput) (policy : SamplingPolicy)
  | acceptResynchronizingSnapshot (applied : AppliedSnapshot)
  | cloneSink (sink : Nat)
  /-- A sink drops the next of its senders. -/
  | dropSender (sink : Nat)
  | recv
  /-- The running `recv` takes its next step. -/
  | tick
  /-- The future of a waiting `recv` is dropped. -/
  | cancel

/-- What a step shows. -/
inductive Observation where
  | quiet
  | queued (output : NormalizedOutput)
  /-- `recv` found the lane empty. -/
  | missed (lane : EventPriority)
  | returned (output : NormalizedOutput)
  /-- `recv` returned `None`. -/
  | ended
  | panicked

namespace Machine

def start (channel : NormalizedChannel) : Machine := ⟨channel, [lanes], .idle⟩

/-- `is_closed` on one lane. -/
def isClosed (m : Machine) (lane : EventPriority) : Bool := m.sinks.all fun held => lane ∉ held

def usable (m : Machine) (sink : Nat) : Bool := m.sinks[sink]? == some lanes

/-- A poll of one lane; `next` is where the receiver goes when the lane is empty. -/
def pollLane (m : Machine) (lane : EventPriority) (next : Phase) : Machine × Observation :=
  match m.channel.tryRecv lane with
  | (channel, some output) => ({ m with channel, phase := .idle }, .returned output)
  | (_, none) => ({ m with phase := next }, .missed lane)

/-- One step of the running `recv`. -/
def tick (m : Machine) : Machine × Observation :=
  match m.phase with
  | .idle | .panicked => (m, .quiet)
  | .poll [] => ({ m with phase := .test lanes }, .quiet)
  | .poll (lane :: rest) => m.pollLane lane (.poll rest)
  | .test [] => ({ m with phase := .idle }, .ended)
  | .test (lane :: rest) =>
    if m.isClosed lane then ({ m with phase := .test rest }, .quiet)
    else ({ m with phase := .guard lane lanes [] }, .quiet)
  | .guard seen (lane :: rest) enabled =>
    let enabled := if m.isClosed lane then enabled else enabled ++ [lane]
    ({ m with phase := .guard seen rest enabled }, .quiet)
  | .guard _ [] [] => ({ m with phase := .panicked }, .panicked)
  | .guard _ [] (first :: others) =>
    ({ m with phase := .select (first :: others) (first :: others) }, .quiet)
  -- every branch is pending; the select polls them again when it is woken
  | .select enabled [] => ({ m with phase := .select enabled enabled }, .quiet)
  | .select enabled (lane :: rest) =>
    m.pollLane lane (if m.isClosed lane then .poll lanes else .select enabled rest)

/-- The result of a send attempt. -/
def sent {α : Type} (m : Machine) (output : NormalizedOutput) (accepted : α → Bool)
    (attempt : NormalizedChannel × Except ChannelError α) : Machine × Observation :=
  ({ m with channel := attempt.1 },
    match attempt.2 with
    | .ok value => if accepted value then .queued output else .quiet
    | .error _ => .quiet)

def step (wireLength : WireLength) (m : Machine) : Action → Machine × Observation
  | .trySend sink output =>
    if m.usable sink then m.sent output (fun _ => true) (m.channel.trySend wireLength output)
    else (m, .quiet)
  | .send sink output =>
    if m.usable sink then
      match m.channel.send wireLength output with
      | some attempt => m.sent output (fun _ => true) attempt
      | none => (m, .quiet)
    else (m, .quiet)
  | .trySendLossy sink output policy =>
    if m.usable sink then
      m.sent output DeliveryOutcome.isQueued (m.channel.trySendLossy wireLength output policy)
    else (m, .quiet)
  | .acceptResynchronizingSnapshot applied =>
    ({ m with channel := (m.channel.acceptResynchronizingSnapshot applied).1 }, .quiet)
  | .cloneSink sink =>
    if m.usable sink then ({ m with sinks := m.sinks ++ [lanes] }, .quiet) else (m, .quiet)
  | .dropSender sink =>
    match m.sinks[sink]? with
    | some (_ :: rest) => ({ m with sinks := m.sinks.set sink rest }, .quiet)
    | _ => (m, .quiet)
  | .recv => if m.phase = .idle then ({ m with phase := .poll lanes }, .quiet) else (m, .quiet)
  | .tick => m.tick
  | .cancel =>
    match m.phase with
    | .select _ _ => ({ m with phase := .idle }, .quiet)
    | _ => (m, .quiet)

/-- The machine after some actions. -/
abbrev run (wireLength : WireLength) (m : Machine) (actions : List Action) :
    Machine :=
  runAll (step wireLength) m actions

/-- What the actions of a run showed, in order. -/
def observations (wireLength : WireLength) (m : Machine) (actions : List Action) :
    List Observation := (historyOf (step wireLength) m actions).map Prod.snd

end Machine

/-! ## What was sent and what was returned -/

/-- The outputs queued on a lane. -/
def sentOn (lane : EventPriority) (seen : List Observation) : List NormalizedOutput :=
  seen.filterMap fun
    | .queued output => if output.lane = lane then some output else none
    | _ => none

/-- The outputs `recv` returned from a lane. -/
def returnedOn (lane : EventPriority) (seen : List Observation) : List NormalizedOutput :=
  seen.filterMap fun
    | .returned output => if output.lane = lane then some output else none
    | _ => none

/-- The outputs queued on a lane since `recv` last found it empty. -/
def queuedSince (lane : EventPriority) (seen : List Observation) : List NormalizedOutput :=
  seen.foldl (fun outputs observation =>
    match observation with
    | .queued output => if output.lane = lane then outputs ++ [output] else outputs
    | .missed other => if other = lane then [] else outputs
    | _ => outputs) []

section

variable (lane : EventPriority) (seen : List Observation) (observation : Observation)

theorem sentOn_concat : sentOn lane (seen ++ [observation]) = sentOn lane seen ++
    match observation with
    | .queued output => if output.lane = lane then [output] else []
    | _ => [] := by
  rw [sentOn, filterMap_append, ← sentOn]
  cases observation with
  | queued output => by_cases h : output.lane = lane <;> simp [h]
  | _ => rfl

theorem returnedOn_concat : returnedOn lane (seen ++ [observation]) = returnedOn lane seen ++
    match observation with
    | .returned output => if output.lane = lane then [output] else []
    | _ => [] := by
  rw [returnedOn, filterMap_append, ← returnedOn]
  cases observation with
  | returned output => by_cases h : output.lane = lane <;> simp [h]
  | _ => rfl

theorem queuedSince_concat : queuedSince lane (seen ++ [observation]) =
    match observation with
    | .queued output =>
      if output.lane = lane then queuedSince lane seen ++ [output] else queuedSince lane seen
    | .missed other => if other = lane then [] else queuedSince lane seen
    | _ => queuedSince lane seen := by
  rw [queuedSince, foldl_append]
  rfl

end

/-! ## One step -/

/-- What a send attempt can do to the lanes: nothing, or queue its output. -/
inductive Attempted (c : NormalizedChannel) (output : NormalizedOutput) (c' : NormalizedChannel) :
    Bool → Prop
  | refused : c'.queue = c.queue → Attempted c output c' false
  | queued (bytes : Nat) : c'.queue = (c.enqueue output bytes).queue → Attempted c output c' true

/-- The attempt succeeded and its output is queued. -/
def succeeds {α : Type} (accepted : α → Bool) : Except ChannelError α → Bool
  | .ok value => accepted value
  | .error _ => false

section

variable (wireLength : WireLength)

theorem overflow_attempted (c : NormalizedChannel) (output : NormalizedOutput) :
    Attempted c output (c.overflow output).1 (succeeds (fun _ => true) (c.overflow output).2) := by
  unfold overflow
  split
  · exact .refused rfl
  · split <;> exact .refused rfl

theorem trySend_attempted (c : NormalizedChannel)
    (output : NormalizedOutput) : Attempted c output (c.trySend wireLength output).1
      (succeeds (fun _ => true) (c.trySend wireLength output).2) := by
  have heffect := c.trySend_effect wireLength output
  generalize c.trySend wireLength output = attempt at heffect ⊢
  cases heffect with
  | refused _ _ _ => exact .refused rfl
  | lost _ _ _ => exact .refused rfl
  | queued bytes _ => exact .queued bytes rfl
  | rejected _ => exact .refused rfl

theorem send_attempted {c : NormalizedChannel}
    {output : NormalizedOutput} {attempt : NormalizedChannel × Except ChannelError Unit}
    (h : c.send wireLength output = some attempt) :
    Attempted c output attempt.1 (succeeds (fun _ => true) attempt.2) := by
  unfold NormalizedChannel.send at h
  split at h
  · rw [← Option.some.inj h]
    exact .refused rfl
  split at h
  · rw [← Option.some.inj h]
    exact .refused rfl
  split at h
  · rw [← Option.some.inj h]
    exact overflow_attempted c output
  split at h
  · cases h
  split at h
  · rw [← Option.some.inj h]
    exact .refused rfl
  split at h
  · rw [← Option.some.inj h]
    exact .queued _ rfl
  · cases h

theorem trySendLossy_attempted (c : NormalizedChannel)
    (output : NormalizedOutput) (policy : SamplingPolicy) :
    Attempted c output (c.trySendLossy wireLength output policy).1
      (succeeds DeliveryOutcome.isQueued (c.trySendLossy wireLength output policy).2) := by
  unfold NormalizedChannel.trySendLossy
  dsimp only
  split
  · exact .refused rfl
  split
  · exact .refused rfl
  split
  · exact .refused rfl
  split
  · exact .refused rfl
  split
  · exact .refused rfl
  split
  · exact .refused rfl
  split
  · exact .refused rfl
  split
  · exact .refused rfl
  split
  · exact .queued _ rfl
  · exact .refused rfl

end

/-- The current iteration of `recv` has found the lane empty. -/
def Phase.Polled (lane : EventPriority) : Phase → Prop
  | .poll rest => lane ∉ rest
  | .test _ => True
  | _ => False

/-- The lane that the all-closed test found open is open or its branch is enabled, and the select
    has not panicked. -/
def Guarded (m : Machine) : Prop :=
  match m.phase with
  | .guard seen rest enabled => seen ∈ rest ∧ m.isClosed seen = false ∨ seen ∈ enabled
  | .panicked => False
  | _ => True

/-- What a step can do. Only the steps of `recv` move the receiver. -/
inductive StepEffect (m : Machine) : Machine × Observation → Prop
  | still {m' : Machine} : m'.channel.queue = m.channel.queue → m'.phase = m.phase →
    StepEffect m (m', .quiet)
  | queued {output : NormalizedOutput} {m' : Machine} (bytes : Nat) :
    m'.channel.queue = (m.channel.enqueue output bytes).queue → m'.phase = m.phase →
    StepEffect m (m', .queued output)
  /-- The receiver goes on without a look at a lane. -/
  | moved {next : Phase} : (∀ lane, next.Polled lane → m.phase.Polled lane) →
    (Guarded m → Guarded { m with phase := next }) → StepEffect m ({ m with phase := next }, .quiet)
  | missed {lane : EventPriority} {next : Phase} : m.channel.queue lane = [] →
    (∀ other, next.Polled other → m.phase.Polled other ∨ lane = other) →
    Guarded { m with phase := next } → StepEffect m ({ m with phase := next }, .missed lane)
  | returned {lane : EventPriority} {first : QueuedNormalizedOutput}
      {others : List QueuedNormalizedOutput} : m.channel.queue lane = first :: others →
    StepEffect m ({ m with
      channel := { m.channel with queue := Function.update m.channel.queue lane others },
      phase := .idle }, .returned first.output)
  | ended : m.phase = .test [] → StepEffect m ({ m with phase := .idle }, .ended)
  | panicked : ¬ Guarded m → StepEffect m ({ m with phase := .panicked }, .panicked)

namespace Machine

variable (wireLength : WireLength) (m : Machine)

theorem sent_effect {α : Type} {output : NormalizedOutput} {accepted : α → Bool}
    {attempt : NormalizedChannel × Except ChannelError α}
    (h : Attempted m.channel output attempt.1 (succeeds accepted attempt.2)) :
    StepEffect m (m.sent output accepted attempt) := by
  obtain ⟨c', result⟩ := attempt
  unfold sent
  cases result with
  | error err =>
    cases h with
    | refused hsame => exact .still hsame rfl
  | ok value =>
    dsimp only [succeeds] at h ⊢
    generalize accepted value = queued at h ⊢
    cases h with
    | refused hsame => exact .still hsame rfl
    | queued bytes hqueue => exact .queued bytes hqueue rfl

theorem pollLane_effect {lane : EventPriority} {next : Phase}
    (hpolled : ∀ other, next.Polled other → m.phase.Polled other ∨ lane = other)
    (hguarded : Guarded { m with phase := next }) : StepEffect m (m.pollLane lane next) := by
  unfold pollLane tryRecv
  cases hqueue : m.channel.queue lane with
  | nil => exact .missed hqueue hpolled hguarded
  | cons first others => exact .returned hqueue

/-- The guard of a lane is read; the lane that the test found open stays open or gets its branch. -/
theorem guarded_read {seen lane : EventPriority} {rest enabled : List EventPriority}
    (hphase : m.phase = .guard seen (lane :: rest) enabled) (h : Guarded m) :
    Guarded { m with
      phase := .guard seen rest (if m.isClosed lane then enabled else enabled ++ [lane]) } := by
  rw [Guarded, hphase] at h
  rcases h with ⟨hmem, hopen⟩ | henabled
  · rcases mem_cons.mp hmem with rfl | hrest
    · refine .inr ?_
      rw [if_neg (by rw [hopen]; decide)]
      exact mem_concat_self
    · exact .inl ⟨hrest, hopen⟩
  · refine .inr ?_
    split
    · exact henabled
    · exact mem_append_left _ henabled

theorem tick_effect : StepEffect m m.tick := by
  unfold tick
  split
  · exact .still rfl rfl
  · exact .still rfl rfl
  · rename_i hphase
    refine .moved (fun _ _ => ?_) fun _ => trivial
    rw [hphase]
    exact not_mem_nil
  · rename_i lane rest hphase
    refine m.pollLane_effect (fun other hrest => ?_) trivial
    rw [hphase]
    by_cases hsame : lane = other
    · exact .inr hsame
    · exact .inl fun hmem => (mem_cons.mp hmem).elim (fun he => hsame he.symm) hrest
  · rename_i hphase
    exact .ended hphase
  · rename_i lane rest hphase
    split
    · refine .moved (fun _ _ => ?_) fun _ => trivial
      rw [hphase]
      trivial
    · rename_i hopen
      exact .moved (fun _ h => h.elim) fun _ => .inl ⟨mem_lanes lane, Bool.eq_false_iff.mpr hopen⟩
  · rename_i hphase
    exact .moved (fun _ h => h.elim) (m.guarded_read hphase)
  · rename_i hphase
    refine .panicked fun h => ?_
    rw [Guarded, hphase] at h
    rcases h with ⟨hmem, -⟩ | hmem <;> cases hmem
  · exact .moved (fun _ h => h.elim) fun _ => trivial
  · exact .moved (fun _ h => h.elim) fun _ => trivial
  · refine m.pollLane_effect (fun other hnext => ?_) ?_
    · split at hnext
      · exact absurd (mem_lanes other) hnext
      · exact hnext.elim
    · split <;> trivial

theorem accept_queue (c : NormalizedChannel) (applied : AppliedSnapshot) :
    (c.acceptResynchronizingSnapshot applied).1.queue = c.queue := by
  rcases c.accept_cases applied with ⟨err, heq⟩ | ⟨_, _, _, _, _, _, heq⟩ <;> rw [heq]

theorem step_effect (action : Action) : StepEffect m (m.step wireLength action) := by
  have hquiet : StepEffect m (m, .quiet) := .still rfl rfl
  cases action with
  | trySend sink output =>
    dsimp only [step]
    split
    · exact m.sent_effect (trySend_attempted wireLength m.channel output)
    · exact hquiet
  | send sink output =>
    dsimp only [step]
    split
    · split
      · rename_i attempt hsend
        exact m.sent_effect (send_attempted wireLength hsend)
      · exact hquiet
    · exact hquiet
  | trySendLossy sink output policy =>
    dsimp only [step]
    split
    · exact m.sent_effect (trySendLossy_attempted wireLength m.channel output policy)
    · exact hquiet
  | acceptResynchronizingSnapshot applied => exact .still (accept_queue _ applied) rfl
  | cloneSink sink =>
    dsimp only [step]
    split <;> exact .still rfl rfl
  | dropSender sink =>
    dsimp only [step]
    split <;> exact .still rfl rfl
  | recv =>
    dsimp only [step]
    split
    · exact .moved (fun lane h => absurd (mem_lanes lane) h) fun _ => trivial
    · exact hquiet
  | tick => exact m.tick_effect
  | cancel =>
    dsimp only [step]
    split
    · exact .moved (fun _ h => h.elim) fun _ => trivial
    · exact hquiet

end Machine

/-! ## Accounting for the lanes -/

/-- Each lane is a queue between what was sent and what was returned, and a lane that the current
    iteration of `recv` has polled holds what was queued since it was found empty. -/
structure Accounted (seen : List Observation) (m : Machine) : Prop where
  onLane : ∀ lane, ∀ queued ∈ m.channel.queue lane, queued.output.lane = lane
  fifo : ∀ lane, sentOn lane seen =
    returnedOn lane seen ++ (m.channel.queue lane).map QueuedNormalizedOutput.output
  since : ∀ lane, m.phase.Polled lane →
    (m.channel.queue lane).map QueuedNormalizedOutput.output = queuedSince lane seen

theorem enqueue_queue (c : NormalizedChannel) (output : NormalizedOutput) (bytes : Nat)
    (lane : EventPriority) : (c.enqueue output bytes).queue lane =
      if output.lane = lane then c.queue lane ++ [⟨output, bytes⟩] else c.queue lane := by
  unfold enqueue
  by_cases h : output.lane = lane
  · subst h
    simp
  · simp [h, Function.update_of_ne (Ne.symm h)]

section

variable {seen : List Observation} {m m' : Machine} {observation : Observation}

/-- The observation tells of no lane. -/
def Observation.Silent (observation : Observation) : Prop :=
  observation = .quiet ∨ observation = .ended ∨ observation = .panicked

theorem Accounted.silent (h : Accounted seen m) (hsilent : observation.Silent)
    (hsame : m'.channel.queue = m.channel.queue)
    (hpolled : ∀ lane, m'.phase.Polled lane → m.phase.Polled lane) :
    Accounted (seen ++ [observation]) m' := by
  refine ⟨fun lane => hsame ▸ h.onLane lane, fun lane => ?_, fun lane hp => ?_⟩
  · rw [hsame, sentOn_concat, returnedOn_concat, h.fifo lane]
    rcases hsilent with rfl | rfl | rfl <;> simp
  · rw [hsame, queuedSince_concat, h.since lane (hpolled lane hp)]
    rcases hsilent with rfl | rfl | rfl <;> rfl

theorem Accounted.queued (h : Accounted seen m) {output : NormalizedOutput} {bytes : Nat}
    (hqueue : m'.channel.queue = (m.channel.enqueue output bytes).queue)
    (hphase : m'.phase = m.phase) :
    Accounted (seen ++ [.queued output]) m' := by
  refine ⟨fun lane q hq => ?_, fun lane => ?_, fun lane hp => ?_⟩
  · rw [hqueue, enqueue_queue] at hq
    split at hq
    · rename_i hlane
      exact forall_mem_concat.mpr ⟨h.onLane lane, hlane⟩ q hq
    · exact h.onLane lane q hq
  · rw [hqueue, enqueue_queue, sentOn_concat, returnedOn_concat, h.fifo lane]
    by_cases hlane : output.lane = lane <;> simp [hlane]
  · have hbefore := h.since lane (hphase ▸ hp)
    rw [hqueue, enqueue_queue, queuedSince_concat]
    dsimp only
    split
    · rw [map_append, hbefore]
      rfl
    · exact hbefore

theorem Accounted.missed (h : Accounted seen m) {lane : EventPriority} {next : Phase}
    (hempty : m.channel.queue lane = [])
    (hpolled : ∀ other, next.Polled other → m.phase.Polled other ∨ lane = other) :
    Accounted (seen ++ [.missed lane]) { m with phase := next } := by
  refine ⟨h.onLane, fun other => ?_, fun other hp => ?_⟩
  · rw [sentOn_concat, returnedOn_concat, h.fifo other]
    simp
  · rw [queuedSince_concat]
    dsimp only
    split
    · rename_i hlane
      rw [← hlane, hempty]
      rfl
    · rename_i hlane
      exact h.since other ((hpolled other hp).resolve_right hlane)

theorem Accounted.returned (h : Accounted seen m) {taken : EventPriority}
    {first : QueuedNormalizedOutput} {others : List QueuedNormalizedOutput}
    (hqueue : m.channel.queue taken = first :: others)
    (hnext : m'.channel.queue = Function.update m.channel.queue taken others)
    (hphase : m'.phase = .idle) : Accounted (seen ++ [.returned first.output]) m' := by
  have hfirst : first.output.lane = taken := h.onLane taken first (by rw [hqueue]; simp)
  refine ⟨fun lane q hq => ?_, fun lane => ?_, fun lane hp => ?_⟩
  · rw [hnext] at hq
    by_cases hlane : lane = taken
    · subst hlane
      rw [Function.update_self] at hq
      exact h.onLane lane q (by rw [hqueue]; exact mem_cons_of_mem _ hq)
    · rw [Function.update_of_ne hlane] at hq
      exact h.onLane lane q hq
  · rw [hnext, sentOn_concat, returnedOn_concat, h.fifo lane]
    by_cases hlane : lane = taken
    · subst hlane
      simp [hqueue, hfirst]
    · simp [Function.update_of_ne hlane, hfirst, Ne.symm hlane]
  · rw [hphase] at hp
    exact hp.elim

theorem Accounted.step (h : Accounted seen m) {after : Machine × Observation}
    (heffect : StepEffect m after) : Accounted (seen ++ [after.2]) after.1 := by
  cases heffect with
  | still hsame hphase => exact h.silent (.inl rfl) hsame fun _ hp => hphase ▸ hp
  | queued bytes hqueue hphase => exact h.queued hqueue hphase
  | moved hpolled _ => exact h.silent (.inl rfl) rfl hpolled
  | missed hempty hpolled _ => exact h.missed hempty hpolled
  | returned hqueue => exact h.returned hqueue rfl rfl
  | ended _ => exact h.silent (.inr (.inl rfl)) rfl fun _ hp => hp.elim
  | panicked _ => exact h.silent (.inr (.inr rfl)) rfl fun _ hp => hp.elim

end

theorem accounted_run (wireLength : WireLength) {c : NormalizedChannel}
    (h : ∀ lane, c.queue lane = []) (actions : List Action) :
    Accounted ((Machine.start c).observations wireLength actions)
      ((Machine.start c).run wireLength actions) := by
  refine run_induction (Machine.step wireLength)
    (fun history m => Accounted (history.map Prod.snd) m) ?_ (fun history m action hm => ?_) actions
  · refine ⟨fun lane q hq => ?_, fun lane => ?_, fun _ hp => hp.elim⟩
    · have hempty : (Machine.start c).channel.queue lane = [] := h lane
      rw [hempty] at hq
      cases hq
    · have hempty : (Machine.start c).channel.queue lane = [] := h lane
      rw [hempty]
      rfl
  · rw [map_append]
    exact hm.step (m.step_effect wireLength action)

/-- In every interleaving, a lane that starts empty returns what was sent on it, each output once
    and in turn, and holds the rest. -/
theorem lanes_fifo (wireLength : WireLength) (c : NormalizedChannel)
    (actions : List Action) (lane : EventPriority) :
    let start := Machine.start { c with queue := fun _ => [] }
    sentOn lane (start.observations wireLength actions) =
      returnedOn lane (start.observations wireLength actions) ++
        ((start.run wireLength actions).channel.queue lane).map (·.output) :=
  (accounted_run wireLength (fun _ => rfl) actions).fifo lane

theorem phase_of_ended {m : Machine} (h : m.tick.2 = .ended) : m.phase = .test [] := by
  have heffect := m.tick_effect
  generalize m.tick = after at heffect h
  cases heffect with
  | ended hphase => exact hphase
  | _ => cases h

/-- When `recv` returns `None`, a lane has been returned in full and in order if and only if nothing
    was queued on it since `recv` last found it empty. -/
theorem recv_none_iff (wireLength : WireLength)
    (registryId itemCapacity byteCapacity : Nat) (streams : BookStreamRegistry)
    (policies : LossPolicyRegistry) (c : NormalizedChannel)
    (hnew : withRegistryAndLossPolicies registryId itemCapacity byteCapacity
      streams policies = .ok c) (actions : List Action)
    (hended : ((Machine.start c).run wireLength actions).tick.2 = .ended) (lane : EventPriority) :
    sentOn lane ((Machine.start c).observations wireLength actions) =
        returnedOn lane ((Machine.start c).observations wireLength actions) ↔
      queuedSince lane ((Machine.start c).observations wireLength actions) = [] := by
  have hempty : ∀ lane, c.queue lane = [] := by
    simp only [withRegistryAndLossPolicies, bind_eq_ok, pure_eq_ok] at hnew
    obtain ⟨_, -, _, -, rfl⟩ := hnew
    exact fun _ => rfl
  have haccounted := accounted_run wireLength hempty actions
  have hpolled : ((Machine.start c).run wireLength actions).phase.Polled lane := by
    rw [phase_of_ended hended]
    trivial
  rw [← haccounted.since lane hpolled, haccounted.fifo lane, append_right_eq_self]

/-- The one output is returned before the sink is dropped. -/
def drainedRun : List Action :=
  [.trySend 0 (deltaOutput 1 firstDelta_valid), .recv, .tick] ++ List.replicate 5 (.dropSender 0) ++
    [.recv] ++ List.replicate 11 .tick

theorem recv_none_iff_sample :
    sentOn .integrity ((Machine.start sampleChannel).observations (fun _ => some 1) drainedRun) =
      returnedOn .integrity
        ((Machine.start sampleChannel).observations (fun _ => some 1) drainedRun) :=
  (recv_none_iff (fun _ => some 1) 0 1 16 (BookStreamRegistry.empty.set sampleKey none) .empty
    sampleChannel sampleChannel_new drainedRun rfl .integrity).mpr rfl

/-- The sink queues an output after `recv` polled the lanes, and is dropped before `recv` tests
    them. -/
def overtakenRun : List Action :=
  [.recv] ++ List.replicate 5 .tick ++ [.trySend 0 (deltaOutput 1 firstDelta_valid)] ++
    List.replicate 5 (.dropSender 0) ++ List.replicate 6 .tick

/-- `recv` returns `None` with the output still queued. -/
theorem recv_none_overtakes :
    ((Machine.start sampleChannel).run (fun _ => some 1) overtakenRun).tick.2 = .ended ∧
      sentOn .integrity
        ((Machine.start sampleChannel).observations (fun _ => some 1) overtakenRun) =
          [deltaOutput 1 (by decide)] ∧
      returnedOn .integrity
        ((Machine.start sampleChannel).observations (fun _ => some 1) overtakenRun) = [] :=
  ⟨rfl, rfl, rfl⟩

/-! ## The guards of the select -/

/-- The step does not close the lane that the all-closed test found open while the guard of that
    lane is unread. -/
def KeepsSeenOpen (wireLength : WireLength) (m : Machine)
    (action : Action) : Prop :=
  match m.phase with
  | .guard seen rest _ =>
    seen ∈ rest → m.isClosed seen = false → (m.step wireLength action).1.isClosed seen = false
  | _ => True

instance (wireLength : WireLength) (m : Machine) (action : Action) :
    Decidable (KeepsSeenOpen wireLength m action) := by
  unfold KeepsSeenOpen
  split <;> infer_instance

theorem step_guarded (wireLength : WireLength) {m : Machine} {action : Action}
    (h : Guarded m) (hkeeps : KeepsSeenOpen wireLength m action) :
    Guarded (m.step wireLength action).1 ∧ (m.step wireLength action).2 ≠ .panicked := by
  have heffect := m.step_effect wireLength action
  unfold KeepsSeenOpen at hkeeps
  generalize m.step wireLength action = after at heffect hkeeps ⊢
  have hstays (hphase : after.1.phase = m.phase) : Guarded after.1 := by
    unfold Guarded at h ⊢
    rw [hphase]
    split at h
    · rename_i heq
      rw [heq] at hkeeps
      exact h.imp_left fun hseen => ⟨hseen.1, hkeeps hseen.1 hseen.2⟩
    · exact h.elim
    · trivial
  cases heffect with
  | still _ hphase => exact ⟨hstays hphase, nofun⟩
  | queued _ _ hphase => exact ⟨hstays hphase, nofun⟩
  | moved _ hguarded => exact ⟨hguarded h, nofun⟩
  | missed _ _ hguarded => exact ⟨hguarded, nofun⟩
  | returned _ => exact ⟨trivial, nofun⟩
  | ended _ => exact ⟨trivial, nofun⟩
  | panicked hnot => exact absurd h hnot

/-- In a run that never closes the lane the all-closed test found open before the guard of that lane
    is read, the select always has an enabled branch. -/
theorem select_has_branch (wireLength : WireLength) (c : NormalizedChannel)
    (actions : List Action)
    (hkeeps : ∀ before action after, actions = before ++ action :: after →
      KeepsSeenOpen wireLength ((Machine.start c).run wireLength before) action) :
    ((Machine.start c).run wireLength actions).phase ≠ .panicked ∧
      .panicked ∉ (Machine.start c).observations wireLength actions := by
  have hrun := run_induction_of (s := Machine.start c) (Machine.step wireLength)
    (KeepsSeenOpen wireLength)
    (fun history m => Guarded m ∧ .panicked ∉ history.map Prod.snd)
    ⟨trivial, not_mem_nil⟩ ?_ actions hkeeps
  · refine ⟨fun hpanicked => ?_, hrun.2⟩
    have hguarded := hrun.1
    rw [Guarded, hpanicked] at hguarded
    exact hguarded
  · intro history m action hm hok
    obtain ⟨hguarded, hquiet⟩ := step_guarded wireLength hm.1 hok
    refine ⟨hguarded, ?_⟩
    rw [map_append, mem_append]
    rintro (hbefore | hlast)
    · exact hm.2 hbefore
    · exact hquiet (mem_singleton.mp hlast).symm

/-- A second sink is dropped while `recv` reads the guards. -/
def droppedCloneRun : List Action :=
  [.cloneSink 0, .recv] ++ List.replicate 7 .tick ++ List.replicate 5 (.dropSender 1) ++
    List.replicate 6 .tick

theorem select_has_branch_sample :
    ((Machine.start sampleChannel).run (fun _ => some 1) droppedCloneRun).phase ≠ .panicked ∧
      .panicked ∉ (Machine.start sampleChannel).observations (fun _ => some 1) droppedCloneRun :=
  select_has_branch (fun _ => some 1) sampleChannel droppedCloneRun
    (forall_split_of_get (by decide +kernel))

/-- The only sink is dropped after the all-closed test found the first lane open, and before its
    guard is read. -/
def droppedRun : List Action :=
  [.recv] ++ List.replicate 7 .tick ++ List.replicate 5 (.dropSender 0) ++ List.replicate 6 .tick

/-- The select is entered with every guard false. -/
theorem select_without_branch :
    ((Machine.start sampleChannel).run (fun _ => some 1) (droppedRun.take 18)).phase =
        .guard .integrity [] [] ∧
      ((Machine.start sampleChannel).run (fun _ => some 1) droppedRun).phase = .panicked := by
  decide +kernel

end CryptoIntelligence.Channel
