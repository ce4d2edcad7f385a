/-
  Logical time (`feature-engine`, `clock.rs`). A clock moves only when it is told to and then fires
  the timers whose deadline it has reached, in the order of deadline and id. It keeps each timer in
  two maps, one ordered by deadline and one by id.

  `timers_fire_once` says what a run of calls fires in terms of the calls alone: a timer is live
  from the call that scheduled it until a call cancels it or reaches its deadline (`Live`), and an
  advance fires the live timers it reaches.
-/
import CryptoIntelligence.Lib.Checked
import CryptoIntelligence.Lib.Run
import CryptoIntelligence.Domain.Identity

namespace CryptoIntelligence.Features

open Lib Domain Std.ExtTreeMap
open Std (ExtTreeMap TransCmp LawfulEqCmp)

def maxTimerCapacity : Nat := 4096

inductive ClockError where
  | invalidTimerId
  | invalidClock
  | duplicateTimer
  | timerCapacity
  | deadlineBeforeNow
  | regression (current attempted : UnixNanos)
  deriving DecidableEq

@[ext]
structure TimerId where
  value : UInt64
  nonzero : value ≠ 0
  deriving DecidableEq

def TimerId.new (value : UInt64) : Except ClockError TimerId :=
  if h : value ≠ 0 then .ok ⟨value, h⟩ else .error .invalidTimerId

/-- `TimerId(NonZeroU64::MAX)` -/
def TimerId.last : TimerId := ⟨18446744073709551615, by decide⟩

def TimerId.compare : TimerId → TimerId → Ordering := compareOn (·.value.toNat)

instance transTimerId : TransCmp TimerId.compare := by
  unfold TimerId.compare
  infer_instance

instance lawfulTimerId : LawfulEqCmp TimerId.compare where
  compare_self := Std.ReflCmp.compare_self
  eq_of_compare h := TimerId.ext (UInt64.toNat_inj.mp (LawfulEqCmp.eq_of_compare h))

/-- A deadline with the timer it is for. -/
abbrev Timer := UnixNanos × TimerId

def Timer.compare : Timer → Timer → Ordering :=
  compareLex (compareOn (·.1.toInt)) (compareOn (·.2.value.toNat))

instance transTimer : TransCmp Timer.compare := by
  unfold Timer.compare
  infer_instance

instance lawfulTimer : LawfulEqCmp Timer.compare where
  compare_self := Std.ReflCmp.compare_self
  eq_of_compare h := by
    rw [Timer.compare, compareLex_eq_eq] at h
    exact Prod.ext (Int64.toInt_inj.mp (LawfulEqCmp.eq_of_compare h.1))
      (TimerId.ext (UInt64.toNat_inj.mp (LawfulEqCmp.eq_of_compare h.2)))

structure LogicalClock where
  now : UnixNanos
  capacity : Nat
  timers : ExtTreeMap Timer Unit Timer.compare
  deadlines : ExtTreeMap TimerId UnixNanos TimerId.compare

namespace LogicalClock

def tryNew (now : UnixNanos) (capacity : Nat) : Except ClockError LogicalClock := do
  reject (now ≤ 0 ∨ capacity = 0 ∨ maxTimerCapacity < capacity) .invalidClock
  return ⟨now, capacity, ∅, ∅⟩

def schedule (c : LogicalClock) (id : TimerId) (deadline : UnixNanos) :
    Except ClockError LogicalClock := do
  reject (deadline < c.now) .deadlineBeforeNow
  reject (id ∈ c.deadlines) .duplicateTimer
  reject (c.capacity ≤ c.deadlines.size) .timerCapacity
  return { c with
    deadlines := c.deadlines.insert id deadline, timers := c.timers.insert (deadline, id) () }

/-- A timer leaves both maps. -/
def remove (c : LogicalClock) (timer : Timer) : LogicalClock :=
  { c with timers := c.timers.erase timer, deadlines := c.deadlines.erase timer.2 }

def cancel (c : LogicalClock) (id : TimerId) : LogicalClock × Bool :=
  match c.deadlines[id]? with
  | none => (c, false)
  | some deadline => (c.remove (deadline, id), true)

/-- `timers.range(..=(target, TimerId(NonZeroU64::MAX)))` -/
def dueKeys (c : LogicalClock) (target : UnixNanos) : List Timer :=
  c.timers.keys.filter fun timer => (Timer.compare timer (target, .last)).isLE

def advanceTo (c : LogicalClock) (target : UnixNanos) :
    Except ClockError (LogicalClock × List TimerId) := do
  reject (target < c.now) (.regression c.now target)
  let due := c.dueKeys target
  return ({ due.foldl remove c with now := target }, due.map Prod.snd)

end LogicalClock

/-! ## Runs -/

inductive ClockOp where
  | schedule (id : TimerId) (deadline : UnixNanos)
  | cancel (id : TimerId)
  | advanceTo (target : UnixNanos)

/-- What a call returned: the timers it fired, none for a call that fires nothing. -/
abbrev ClockOutcome := Except ClockError (List TimerId)

namespace LogicalClock

/-- One call on the clock; a failed one leaves it as it was. -/
def step (c : LogicalClock) : ClockOp → LogicalClock × ClockOutcome
  | .schedule id deadline =>
    match c.schedule id deadline with
    | .ok c' => (c', .ok [])
    | .error err => (c, .error err)
  | .cancel id => ((c.cancel id).1, .ok [])
  | .advanceTo target =>
    match c.advanceTo target with
    | .ok (c', fired) => (c', .ok fired)
    | .error err => (c, .error err)

abbrev run (c : LogicalClock) (ops : List ClockOp) : LogicalClock := runAll step c ops

abbrev history (c : LogicalClock) (ops : List ClockOp) : List (ClockOp × ClockOutcome) :=
  historyOf step c ops

end LogicalClock

/-- The call scheduled the timer. -/
def Schedules (timer : Timer) (call : ClockOp × ClockOutcome) : Prop :=
  call = (.schedule timer.2 timer.1, .ok [])

/-- The call cancelled the timer or reached its deadline. -/
def Ends (timer : Timer) (call : ClockOp × ClockOutcome) : Prop :=
  call.1 = .cancel timer.2 ∨ ∃ target fired, call = (.advanceTo target, .ok fired) ∧
    timer.1 ≤ target

/-- The timer was scheduled and nothing has ended it since. -/
def Live (calls : List (ClockOp × ClockOutcome)) (timer : Timer) : Prop :=
  ∃ before call mid, calls = before ++ call :: mid ∧ Schedules timer call ∧
    ∀ c ∈ mid, ¬ Ends timer c

theorem live_concat {calls : List (ClockOp × ClockOutcome)} {call : ClockOp × ClockOutcome}
    {timer : Timer} :
    Live (calls ++ [call]) timer ↔ Schedules timer call ∨
      (Live calls timer ∧ ¬ Ends timer call) := by
  constructor
  · rintro ⟨before, first, mid, hsplit, hschedules, hmid⟩
    rcases List.eq_nil_or_concat' mid with rfl | ⟨mid, last, rfl⟩
    · obtain ⟨-, hlast⟩ := List.append_inj' hsplit rfl
      obtain rfl := (List.cons.inj hlast).1
      exact .inl hschedules
    · rw [← List.cons_append, ← List.append_assoc] at hsplit
      obtain ⟨rfl, hlast⟩ := List.append_inj' hsplit rfl
      obtain rfl := (List.cons.inj hlast).1
      exact .inr ⟨⟨before, first, mid, rfl, hschedules, fun c hc => hmid c (by simp [hc])⟩,
        hmid call (by simp)⟩
  · rintro (hschedules | ⟨⟨before, first, mid, rfl, hschedules, hmid⟩, hends⟩)
    · exact ⟨calls, call, [], rfl, hschedules, by simp⟩
    · exact ⟨before, first, mid ++ [call], by simp, hschedules, forall_mem_concat.mpr ⟨hmid, hends⟩⟩

namespace LogicalClock

variable {c c' : LogicalClock} {timer : Timer} {target : UnixNanos}

/-! ## One call -/

/-- The two maps hold the same timers, within the capacity. -/
structure Agrees (c : LogicalClock) : Prop where
  same : ∀ timer, timer ∈ c.timers ↔ c.deadlines[timer.2]? = some timer.1
  size : c.timers.size = c.deadlines.size
  bounded : c.deadlines.size ≤ c.capacity

theorem mem_timers_remove (c : LogicalClock) (timer other : Timer) :
    other ∈ (c.remove timer).timers ↔ timer ≠ other ∧ other ∈ c.timers := by
  rw [remove, mem_erase, ne_eq, LawfulEqCmp.compare_eq_iff_eq]

theorem Agrees.remove (h : Agrees c) (hmem : timer ∈ c.timers) : Agrees (c.remove timer) := by
  have hdeadline := (h.same timer).mp hmem
  have hpresent : timer.2 ∈ c.deadlines :=
    mem_iff_isSome_getElem?.mpr (by rw [hdeadline]; rfl)
  have hsizes : (c.remove timer).timers.size = c.timers.size - 1 ∧
      (c.remove timer).deadlines.size = c.deadlines.size - 1 := by
    simp only [LogicalClock.remove, size_erase, contains_iff_mem, hmem, hpresent,
      if_true, and_self]
  refine ⟨fun other => ?_, by rw [hsizes.1, hsizes.2, h.size], ?_⟩
  · rw [mem_timers_remove, h.same, LogicalClock.remove, getElem?_erase]
    simp only [LawfulEqCmp.compare_eq_iff_eq]
    split
    · rename_i hid
      simp only [reduceCtorEq, iff_false, not_and]
      rw [← hid, hdeadline]
      intro hne hsame
      exact hne (Prod.ext (Option.some.inj hsame) hid)
    · rename_i hid
      exact and_iff_right fun heq => hid (congrArg Prod.snd heq)
  · rw [hsizes.2]
    exact (Nat.sub_le _ _).trans h.bounded

/-- The loop over the due timers takes exactly them out of both maps. -/
theorem foldl_remove (h : Agrees c) {due : List Timer} (hdue : ∀ timer ∈ due, timer ∈ c.timers)
    (hnodup : due.Nodup) :
    Agrees (due.foldl LogicalClock.remove c) ∧
      (due.foldl LogicalClock.remove c).capacity = c.capacity ∧
      ∀ timer, timer ∈ (due.foldl LogicalClock.remove c).timers ↔ timer ∉ due ∧
        timer ∈ c.timers := by
  induction due generalizing c with
  | nil => exact ⟨h, rfl, fun timer => by simp⟩
  | cons first due ih =>
    rw [List.nodup_cons] at hnodup
    rw [List.forall_mem_cons] at hdue
    have hrest : ∀ timer ∈ due, timer ∈ (c.remove first).timers := by
      intro timer hmem
      rw [mem_timers_remove]
      exact ⟨fun heq => hnodup.1 (heq ▸ hmem), hdue.2 timer hmem⟩
    obtain ⟨hagrees, hcapacity, hmem⟩ := ih (h.remove hdue.1) hrest hnodup.2
    refine ⟨hagrees, hcapacity, fun timer => ?_⟩
    rw [List.foldl_cons, hmem, mem_timers_remove, List.mem_cons, not_or, ne_comm, and_assoc,
      and_left_comm]

theorem isLE_last : (Timer.compare timer (target, .last)).isLE ↔ timer.1 ≤ target := by
  have hid : timer.2.value.toNat ≤ TimerId.last.value.toNat :=
    Nat.le_of_lt_succ timer.2.value.toNat_lt
  rw [Int64.le_iff_toInt_le, Timer.compare, compareLex]
  rcases lt_trichotomy timer.1.toInt target.toInt with hlt | heq | hgt
  · simp [compareOn, compare_lt_iff_lt.mpr hlt, hlt.le]
  · simpa [compareOn, heq, Std.isLE_compare] using hid
  · simp [compareOn, compare_gt_iff_gt.mpr hgt, hgt]

theorem mem_dueKeys : timer ∈ c.dueKeys target ↔ timer ∈ c.timers ∧ timer.1 ≤ target := by
  rw [dueKeys, List.mem_filter, mem_keys, isLE_last]

theorem dueKeys_pairwise (c : LogicalClock) (target : UnixNanos) :
    (c.dueKeys target).Pairwise fun a b => Timer.compare a b = .lt :=
  ordered_keys.sublist List.filter_sublist

theorem dueKeys_nodup (c : LogicalClock) (target : UnixNanos) : (c.dueKeys target).Nodup :=
  nodup_keys.sublist List.filter_sublist

theorem advanceTo_spec (h : Agrees c) {fired : List TimerId}
    (hadvance : c.advanceTo target = .ok (c', fired)) :
    fired = (c.dueKeys target).map Prod.snd ∧ Agrees c' ∧ c'.now = target ∧
      c'.capacity = c.capacity ∧
      ∀ timer, timer ∈ c'.timers ↔ timer ∈ c.timers ∧ ¬ timer.1 ≤ target := by
  simp only [advanceTo, bind_eq_ok, reject_eq_ok, pure_eq_ok, Prod.mk.injEq] at hadvance
  obtain ⟨_, -, rfl, rfl⟩ := hadvance
  obtain ⟨hagrees, hcapacity, hmem⟩ := foldl_remove h (fun timer hdue => (mem_dueKeys.mp hdue).1)
    (dueKeys_nodup c target)
  refine ⟨rfl, ⟨hagrees.same, hagrees.size, hagrees.bounded⟩, rfl, hcapacity, fun timer => ?_⟩
  exact (hmem timer).trans (by rw [mem_dueKeys]; tauto)

/-! ## Every run -/

/-- The clock holds the live timers, within the capacity it was made with. -/
structure Tracks (capacity : Nat) (calls : List (ClockOp × ClockOutcome)) (c : LogicalClock) : Prop
    extends Agrees c where
  fixed : c.capacity = capacity
  live : ∀ timer, timer ∈ c.timers ↔ Live calls timer

variable {capacity : Nat} {calls : List (ClockOp × ClockOutcome)}

theorem Tracks.schedule (h : Tracks capacity calls c) {id : TimerId} {deadline : UnixNanos}
    (hschedule : c.schedule id deadline = .ok c') :
    Tracks capacity (calls ++ [(.schedule id deadline, .ok [])]) c' := by
  simp only [LogicalClock.schedule, bind_eq_ok, reject_eq_ok, pure_eq_ok] at hschedule
  obtain ⟨_, -, _, hfree, _, hroom, rfl⟩ := hschedule
  have hnone : c.deadlines[id]? = none := by
    rw [← Option.not_isSome_iff_eq_none, ← mem_iff_isSome_getElem?]
    exact hfree
  have hnew : (deadline, id) ∉ c.timers := by
    rw [h.same, hnone]
    simp
  have hmem (timer : Timer) : timer ∈ c.timers.insert (deadline, id) () ↔
      (deadline, id) = timer ∨ timer ∈ c.timers := by
    rw [mem_insert, LawfulEqCmp.compare_eq_iff_eq]
  refine ⟨⟨fun timer => ?_, ?_, ?_⟩, h.fixed, fun timer => ?_⟩
  · rw [hmem, h.same, getElem?_insert]
    simp only [LawfulEqCmp.compare_eq_iff_eq]
    split
    · rename_i hid
      rw [← hid, hnone, Prod.ext_iff]
      simp [hid]
    · rename_i hid
      exact or_iff_right fun heq => hid (congrArg Prod.snd heq)
  · simp only [size_insert, contains_iff_mem, hnew, hfree, if_false, h.size]
  · simp only [size_insert, contains_iff_mem, hfree, if_false]
    omega
  · rw [hmem, live_concat, h.live]
    refine or_congr ⟨fun heq => heq ▸ rfl, fun heq => ?_⟩ (and_iff_left ?_).symm
    · obtain ⟨hid, hdeadline⟩ := ClockOp.schedule.inj (Prod.mk.inj heq).1
      exact Prod.ext hdeadline hid
    · rintro (hends | ⟨target, fired, hends, -⟩) <;> cases hends

theorem Tracks.cancel (h : Tracks capacity calls c) (id : TimerId) :
    Tracks capacity (calls ++ [(.cancel id, .ok [])]) (c.cancel id).1 := by
  have hends (timer : Timer) : Ends timer (.cancel id, .ok []) ↔ id = timer.2 := by
    simp [Ends]
  have hlive (timer : Timer) : Live (calls ++ [(.cancel id, .ok [])]) timer ↔
      timer ∈ c.timers ∧ id ≠ timer.2 := by
    rw [live_concat, ← h.live, hends]
    exact or_iff_right (by simp [Schedules])
  unfold LogicalClock.cancel
  cases hdeadline : c.deadlines[id]? with
  | none =>
    refine ⟨h.toAgrees, h.fixed, fun timer => ?_⟩
    rw [hlive]
    refine (and_iff_left_of_imp fun hmem hid => ?_).symm
    rw [h.same, ← hid, hdeadline] at hmem
    cases hmem
  | some deadline =>
    refine ⟨h.toAgrees.remove ((h.same (deadline, id)).mpr hdeadline), h.fixed, fun timer => ?_⟩
    rw [hlive, mem_timers_remove, and_comm]
    refine and_congr_right fun hmem => not_congr ⟨fun heq => congrArg Prod.snd heq, fun hid => ?_⟩
    rw [h.same, ← hid, hdeadline] at hmem
    exact Prod.ext (Option.some.inj hmem) hid

theorem Tracks.advanceTo (h : Tracks capacity calls c) {fired : List TimerId}
    (hadvance : c.advanceTo target = .ok (c', fired)) :
    Tracks capacity (calls ++ [(.advanceTo target, .ok fired)]) c' := by
  obtain ⟨-, hagrees, -, hcapacity, hmem⟩ := advanceTo_spec h.toAgrees hadvance
  refine ⟨hagrees, hcapacity.trans h.fixed, fun timer => ?_⟩
  rw [hmem, live_concat, h.live, or_iff_right (by simp [Schedules])]
  refine and_congr_right fun _ => not_congr ?_
  simp [Ends]

theorem Tracks.of_error (h : Tracks capacity calls c) (op : ClockOp) (hop : ∀ id, op ≠ .cancel id)
    (err : ClockError) : Tracks capacity (calls ++ [(op, .error err)]) c := by
  refine ⟨h.toAgrees, h.fixed, fun timer => ?_⟩
  rw [live_concat, h.live]
  refine ((or_iff_right (by simp [Schedules])).trans (and_iff_left ?_)).symm
  rintro (hends | ⟨target, fired, hends, -⟩)
  · exact hop _ hends
  · cases hends

theorem Tracks.step (h : Tracks capacity calls c) (op : ClockOp) :
    Tracks capacity (calls ++ [(op, (c.step op).2)]) (c.step op).1 := by
  cases op with
  | schedule id deadline =>
    simp only [LogicalClock.step]
    cases hschedule : c.schedule id deadline with
    | ok c' => exact h.schedule hschedule
    | error err => exact h.of_error _ (by simp) err
  | cancel id => exact h.cancel id
  | advanceTo target =>
    simp only [LogicalClock.step]
    cases hadvance : c.advanceTo target with
    | ok answer => exact h.advanceTo hadvance
    | error err => exact h.of_error _ (by simp) err

theorem tracks_run {now : UnixNanos} (hnew : tryNew now capacity = .ok c)
    (ops : List ClockOp) : Tracks capacity (c.history ops) (c.run ops) := by
  simp only [tryNew, bind_eq_ok, reject_eq_ok, pure_eq_ok] at hnew
  obtain ⟨_, -, rfl⟩ := hnew
  refine run_induction LogicalClock.step (Tracks capacity)
    ⟨⟨fun timer => ?_, rfl, Nat.zero_le _⟩, rfl, fun timer => ?_⟩
      (fun calls c op h => h.step op) ops
  · simp
  · refine iff_of_false (by simp) ?_
    rintro ⟨before, call, mid, hsplit, -⟩
    simp at hsplit

/-- The order of the timers, spelled out. -/
theorem compare_eq_lt {a b : Timer} :
    Timer.compare a b = .lt ↔ a.1 < b.1 ∨ (a.1 = b.1 ∧ a.2.value < b.2.value) := by
  rw [Int64.lt_iff_toInt_lt, ← Int64.toInt_inj, UInt64.lt_iff_toNat_lt, Timer.compare, compareLex]
  rcases lt_trichotomy a.1.toInt b.1.toInt with hlt | heq | hgt
  · simp [compareOn, compare_lt_iff_lt.mpr hlt, hlt]
  · simp [compareOn, heq, compare_lt_iff_lt]
  · simp [compareOn, compare_gt_iff_gt.mpr hgt, hgt.not_gt, hgt.ne']

/-- Clocks with the same timers, time and capacity are the same. -/
theorem Agrees.eq (h : Agrees c) (h' : Agrees c') (hnow : c.now = c'.now)
    (hcapacity : c.capacity = c'.capacity) (hmem : ∀ timer, timer ∈ c.timers ↔ timer ∈ c'.timers) :
    c = c' := by
  have htimers : c.timers = c'.timers := ext_mem_unit hmem
  have hdeadlines : c.deadlines = c'.deadlines := by
    refine ext_getElem? fun id => Option.ext fun deadline => ?_
    exact (h.same (deadline, id)).symm.trans ((hmem _).trans (h'.same (deadline, id)))
  cases c
  cases c'
  simp_all

/-- Two advances take what one to the later time takes, in the same order. -/
theorem dueKeys_split (h : Agrees c) {a b : UnixNanos} {mid : LogicalClock} {first : List TimerId}
    (hfirst : c.advanceTo a = .ok (mid, first)) (hab : a ≤ b) :
    c.dueKeys b = c.dueKeys a ++ mid.dueKeys b := by
  obtain ⟨-, -, -, -, hmem⟩ := advanceTo_spec h hfirst
  have hbefore : ∀ x ∈ c.dueKeys a, ∀ y ∈ mid.dueKeys b, Timer.compare x y = .lt := by
    intro x hx y hy
    rw [mem_dueKeys] at hx hy
    rw [hmem] at hy
    rw [compare_eq_lt, Int64.lt_iff_toInt_lt]
    have hxa := Int64.le_iff_toInt_le.mp hx.2
    have hay := mt Int64.le_iff_toInt_le.mpr hy.1.2
    exact .inl (by omega)
  have hordered : (c.dueKeys a ++ mid.dueKeys b).Pairwise fun x y => Timer.compare x y = .lt :=
    List.pairwise_append.mpr ⟨dueKeys_pairwise c a, dueKeys_pairwise mid b, hbefore⟩
  have hdistinct : (c.dueKeys a ++ mid.dueKeys b).Nodup := by
    refine hordered.imp fun {x y} hlt heq => ?_
    subst heq
    exact Std.OrientedCmp.not_lt_of_lt hlt hlt
  have hantisymm : ∀ x y : Timer, Timer.compare x y = .lt → Timer.compare y x = .lt → x = y :=
    fun x y hxy hyx => absurd hyx (Std.OrientedCmp.not_lt_of_lt hxy)
  refine List.Perm.eq_of_pairwise (fun x y _ _ => hantisymm x y) (dueKeys_pairwise c b) hordered
    ((List.perm_ext_iff_of_nodup (dueKeys_nodup c b) hdistinct).mpr fun timer => ?_)
  have hreach : timer.1 ≤ a → timer.1 ≤ b := fun hle => Int64.le_trans hle hab
  rw [List.mem_append, mem_dueKeys, mem_dueKeys, mem_dueKeys, hmem]
  tauto

theorem advanceTo_of_le (h : c.now ≤ target) :
    ∃ c', c.advanceTo target = .ok (c', (c.dueKeys target).map Prod.snd) := by
  refine ⟨{ (c.dueKeys target).foldl remove c with now := target }, ?_⟩
  rw [advanceTo, reject_neg (Int64.not_lt.mpr h), ok_bind]
  rfl

/-- Two advances fire what one to the later time would, and leave the same clock. -/
theorem advanceTo_compose (h : Agrees c) {a b : UnixNanos} (ha : c.now ≤ a) (hab : a ≤ b) :
    ∃ mid last first second, c.advanceTo a = .ok (mid, first) ∧
      mid.advanceTo b = .ok (last, second) ∧ c.advanceTo b = .ok (last, first ++ second) := by
  obtain ⟨mid, hmid⟩ := advanceTo_of_le ha
  obtain ⟨-, hagrees, hnow, hcapacity, hmem⟩ := advanceTo_spec h hmid
  obtain ⟨last, hlast⟩ := advanceTo_of_le (hnow ▸ hab : mid.now ≤ b)
  obtain ⟨whole, hwhole⟩ := advanceTo_of_le (Int64.le_trans ha hab)
  obtain ⟨-, hagreesLast, hnowLast, hcapacityLast, hmemLast⟩ := advanceTo_spec hagrees hlast
  obtain ⟨-, hagreesWhole, hnowWhole, hcapacityWhole, hmemWhole⟩ := advanceTo_spec h hwhole
  obtain rfl : whole = last := by
    refine hagreesWhole.eq hagreesLast (hnowWhole.trans hnowLast.symm)
      (hcapacityWhole.trans (hcapacityLast.trans hcapacity).symm) fun timer => ?_
    have hreach : timer.1 ≤ a → timer.1 ≤ b := fun hle => Int64.le_trans hle hab
    rw [hmemWhole, hmemLast, hmem]
    tauto
  refine ⟨mid, whole, _, _, hmid, hlast, ?_⟩
  rw [hwhole, dueKeys_split h hmid hab, List.map_append]

/-- For every run: the two maps hold the same timers within the capacity. An advance fires, once
    each and in the order of deadline and id, the timers that were scheduled before it with a
    deadline it reaches and that no call since then has cancelled or reached. Two advances in a row
    fire what the second alone would have fired. -/
theorem timers_fire_once (now : UnixNanos) (capacity : Nat) (c : LogicalClock)
    (hnew : tryNew now capacity = .ok c) (ops : List ClockOp) :
    (∀ deadline id, (deadline, id) ∈ (c.run ops).timers ↔
      (c.run ops).deadlines[id]? = some deadline)
    ∧ (c.run ops).timers.size = (c.run ops).deadlines.size
    ∧ (c.run ops).deadlines.size ≤ capacity
    ∧ (∀ before target fired after,
      c.history ops = before ++ (.advanceTo target, .ok fired) :: after →
      ∃ due : List Timer, fired = due.map Prod.snd ∧ fired.Nodup
        ∧ due.Pairwise (fun a b => a.1 < b.1 ∨ (a.1 = b.1 ∧ a.2.value < b.2.value))
        ∧ ∀ timer, timer ∈ due ↔ Live before timer ∧ timer.1 ≤ target)
    ∧ ∀ a b, (c.run ops).now ≤ a → a ≤ b →
      ∃ mid last first second, (c.run ops).advanceTo a = .ok (mid, first)
        ∧ mid.advanceTo b = .ok (last, second)
        ∧ (c.run ops).advanceTo b = .ok (last, first ++ second) := by
  have htracks := tracks_run hnew ops
  refine ⟨fun deadline id => htracks.same (deadline, id), htracks.size,
    htracks.bounded.trans_eq htracks.fixed, ?_, fun a b ha hab =>
      advanceTo_compose htracks.toAgrees ha hab⟩
  intro before target fired after hsplit
  obtain ⟨earlier, rfl, hout⟩ := historyOf_split step hsplit
  have hbefore := tracks_run hnew earlier
  simp only [LogicalClock.step] at hout
  split at hout
  · rename_i c' answer hadvance
    cases hout
    obtain ⟨rfl, -⟩ := advanceTo_spec hbefore.toAgrees hadvance
    refine ⟨(runAll step c earlier).dueKeys target, rfl, ?_,
      (dueKeys_pairwise _ target).imp compare_eq_lt.mp, fun timer => ?_⟩
    · refine List.Nodup.map_on (fun x hx y hy hid => ?_) (dueKeys_nodup _ target)
      have hx := (hbefore.same x).mp (mem_dueKeys.mp hx).1
      have hy := (hbefore.same y).mp (mem_dueKeys.mp hy).1
      rw [hid, hy] at hx
      exact Prod.ext (Option.some.inj hx).symm hid
    · rw [mem_dueKeys, hbefore.live]
  · cases hout

/-- A timer rescheduled after it was cancelled fires with the others of its deadline. -/
theorem rescheduled_fires :
    let one : TimerId := ⟨1, by decide⟩
    let two : TimerId := ⟨2, by decide⟩
    let ops := [.schedule two 5, .schedule one 5, .cancel two, .schedule two 5]
    ∃ (c : LogicalClock) (due : List Timer), tryNew 1 4 = .ok c
      ∧ c.history (ops ++ [.advanceTo 5]) = c.history ops ++ [(.advanceTo 5, .ok [one, two])]
      ∧ [one, two] = due.map Prod.snd
      ∧ ∀ timer, timer ∈ due ↔ Live (c.history ops) timer ∧ timer.1 ≤ 5 := by
  intro one two ops
  obtain ⟨-, -, -, hfires, -⟩ := timers_fire_once 1 4 _ rfl (ops ++ [.advanceTo 5])
  obtain ⟨due, hfired, -, -, hlive⟩ := hfires (history _ ops) 5 [one, two] [] rfl
  exact ⟨_, due, rfl, rfl, hfired, hlive⟩

end LogicalClock

end CryptoIntelligence.Features
