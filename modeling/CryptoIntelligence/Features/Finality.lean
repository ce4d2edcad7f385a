/-
  Finality of windows and the effective frontier (`feature-engine`, `watermark.rs`). Two parts of
  the engine read the same watermarks in opposite directions: a decision adds the lateness to the
  end of the window, the frontier subtracts it from the least watermark.

  Both are put in one form: a positive bound is behind the frontier, or a window ending there is
  final, when every required partition is trusted and its watermark is past the bound by the
  lateness (`le_frontier_iff`, `evaluate_eq_final`). Along a run watermarks only grow (`Later`).
-/
import CryptoIntelligence.Lib.Run
import CryptoIntelligence.Lib.Buckets
import CryptoIntelligence.Features.Watermark

namespace CryptoIntelligence.Features

open Lib Domain Event Quality Std.ExtTreeMap
open Std (LawfulEqCmp)
open Option

namespace WatermarkTracker

/-! ## The loops over the required partitions -/

section Loops

variable {allowedHealth : List SourceHealthState} {threshold : Int64}

/-- The partition has a watermark and a health that is allowed. -/
def Trusted (allowedHealth : List SourceHealthState) (state : PartitionState) : Prop :=
  ∃ watermark health, state.watermark = some watermark ∧ state.health = some health
    ∧ allowedHealth.contains health = true

variable {minimum least : Option UnixNanos} {states : List PartitionState}

theorem trustedMinimum_cons {state : PartitionState} :
    trustedMinimum allowedHealth minimum (state :: states) = some least ↔
      Trusted allowedHealth state ∧ ∃ watermark, state.watermark = some watermark ∧
        trustedMinimum allowedHealth (some (minimum.elim watermark (min · watermark))) states =
          some least := by
  rw [trustedMinimum, Trusted]
  split
  · rename_i watermark health hwatermark hhealth
    rw [hwatermark, hhealth]
    simp
  · rename_i hnot
    refine iff_of_false (by simp) ?_
    rintro ⟨⟨watermark, health, hwatermark, hhealth, -⟩, -⟩
    exact hnot watermark health hwatermark hhealth

theorem trustedMinimum_isSome_iff :
    (∃ least, trustedMinimum allowedHealth minimum states = some least) ↔
      ∀ state ∈ states, Trusted allowedHealth state := by
  induction states generalizing minimum with
  | nil => simp [trustedMinimum]
  | cons state states ih =>
    simp only [trustedMinimum_cons, List.forall_mem_cons]
    constructor
    · rintro ⟨least, htrusted, watermark, -, hrest⟩
      exact ⟨htrusted, ih.mp ⟨least, hrest⟩⟩
    · rintro ⟨⟨watermark, health, hwatermark, hhealth⟩, hrest⟩
      obtain ⟨least, hleast⟩ := ih.mpr hrest
      exact ⟨least, ⟨watermark, health, hwatermark, hhealth⟩, watermark, hwatermark, hleast⟩

/-- The least watermark is not below a bound exactly when none of the watermarks is. -/
theorem le_trustedMinimum_iff
    (h : trustedMinimum allowedHealth minimum states = some least) (bound : Int) :
    (∀ time, least = some time → bound ≤ time.toInt) ↔
      (∀ time, minimum = some time → bound ≤ time.toInt) ∧
        ∀ state ∈ states, ∀ time, state.watermark = some time → bound ≤ time.toInt := by
  induction states generalizing minimum with
  | nil =>
    cases h
    simp
  | cons state states ih =>
    obtain ⟨-, watermark, hwatermark, hrest⟩ := trustedMinimum_cons.mp h
    rw [ih hrest, List.forall_mem_cons, ← and_assoc]
    refine and_congr_left fun _ => ?_
    cases minimum with
    | none => simp [hwatermark]
    | some current => simp [hwatermark, toInt_min]

theorem trustedMinimum_ne_none (h : trustedMinimum allowedHealth minimum states = some least)
    (hsome : states ≠ [] ∨ minimum ≠ none) : least ≠ none := by
  induction states generalizing minimum with
  | nil =>
    cases h
    simpa using hsome
  | cons state states ih =>
    obtain ⟨-, watermark, -, hrest⟩ := trustedMinimum_cons.mp h
    exact ih hrest (.inr (by simp))

/-- The partition's watermark has passed the threshold, whatever its health. -/
def Passed (threshold : Int64) (state : PartitionState) : Prop :=
  ∃ watermark health, state.watermark = some watermark ∧ state.health = some health
    ∧ threshold ≤ watermark

theorem evaluateStates_eq_final {complete : Bool} :
    evaluateStates allowedHealth threshold complete states = .final ↔
      complete = true ∧ ∀ state ∈ states, Trusted allowedHealth state ∧ Passed threshold state := by
  induction states generalizing complete with
  | nil => cases complete <;> simp [evaluateStates]
  | cons state states ih =>
    rw [evaluateStates, List.forall_mem_cons]
    split
    · rename_i hany
      refine iff_of_false (by simp) ?_
      rintro ⟨-, ⟨⟨_, health, -, hhealth, hallowed⟩, -⟩, -⟩
      rw [hhealth, any_some, hallowed] at hany
      cases hany
    · rename_i hany
      split
      · rename_i watermark health hwatermark hhealth
        rw [ih]
        simp only [Trusted, Passed, hwatermark, hhealth] at hany ⊢
        simp at hany ⊢
        tauto
      · rename_i hnot
        rw [ih]
        refine iff_of_false (by simp) ?_
        rintro ⟨-, ⟨⟨watermark, health, hwatermark, hhealth, -⟩, -⟩, -⟩
        exact hnot watermark health hwatermark hhealth

theorem evaluateStates_ne_provisional (h : ∀ state ∈ states, Passed threshold state) :
    evaluateStates allowedHealth threshold true states ≠ .provisional := by
  induction states with
  | nil => simp [evaluateStates]
  | cons state states ih =>
    obtain ⟨⟨watermark, health, hwatermark, hhealth, hpassed⟩, hrest⟩ := List.forall_mem_cons.mp h
    rw [evaluateStates]
    split
    · simp
    · rw [hwatermark, hhealth]
      simpa [hpassed] using ih hrest
end Loops

/-! ## Sound trackers -/

theorem mem_requiredStates {tracker : WatermarkTracker} {state : PartitionState} :
    state ∈ tracker.requiredStates ↔
      state.role = .required_ ∧ ∃ key : WatermarkKey, tracker.partitions[key]? = some state := by
  unfold requiredStates
  rw [List.mem_filter, decide_eq_true_eq, and_comm, List.mem_map]
  refine and_congr_right fun _ => ?_
  constructor
  · rintro ⟨⟨key, _⟩, hmem, rfl⟩
    exact ⟨key, mem_toList_iff_getElem?_eq_some.mp hmem⟩
  · rintro ⟨key, hkey⟩
    exact ⟨(key, state), mem_toList_iff_getElem?_eq_some.mpr hkey, rfl⟩

theorem decision_state (tracker : WatermarkTracker) (window : TimeWindow) :
    (tracker.decision window).state = tracker.evaluate window := by
  unfold decision
  dsimp only

/-- What construction establishes and every call keeps. -/
structure Sound (tracker : WatermarkTracker) : Prop where
  lateness : (tracker.allowedLateness.toNat : Int) ≤ Int64.maxValue.toInt
  required_ : ∃ (key : WatermarkKey) (state : PartitionState),
    tracker.partitions[key]? = some state ∧ state.role = .required_
  positive : ∀ (key : WatermarkKey) (state : PartitionState) (time : UnixNanos),
    tracker.partitions[key]? = some state → state.watermark = some time → 0 < time.toInt

namespace Sound

variable {tracker : WatermarkTracker}

theorem toI64_lateness (h : Sound tracker) :
    ∃ lateness, toI64 tracker.allowedLateness.toNat = some lateness
      ∧ lateness.toInt = tracker.allowedLateness.toNat := by
  have hmax : Int64.maxValue.toInt = 2 ^ 63 - 1 := by decide
  have hle := h.lateness
  exact exists_toI64 (by omega) (by omega)

theorem requiredStates_ne_nil (h : Sound tracker) : tracker.requiredStates ≠ [] := by
  obtain ⟨key, state, hstate, hrole⟩ := h.required_
  exact List.ne_nil_of_mem (mem_requiredStates.mpr ⟨hrole, key, hstate⟩)

theorem watermark_pos (h : Sound tracker) {state : PartitionState}
    (hstate : state ∈ tracker.requiredStates)
    {time : UnixNanos} (htime : state.watermark = some time) : 0 < time.toInt := by
  obtain ⟨-, key, hkey⟩ := mem_requiredStates.mp hstate
  exact h.positive key state time hkey htime

/-- The least required watermark is positive, so taking the lateness off it cannot overflow. -/
theorem exists_difference (h : Sound tracker) {least : UnixNanos}
    (hleast : trustedMinimum tracker.allowedHealth none tracker.requiredStates =
      some (some least)) :
    ∃ difference : Int64, difference.toInt = least.toInt - tracker.allowedLateness.toNat := by
  have hpos : 1 ≤ least.toInt := by
    refine (le_trustedMinimum_iff hleast 1).mpr
      ⟨by simp, fun state hstate time htime => ?_⟩ least rfl
    exact h.watermark_pos hstate htime
  have hmax : Int64.maxValue.toInt = 2 ^ 63 - 1 := by decide
  have hle := h.lateness
  have hlt := least.toInt_lt
  obtain ⟨difference, -, hdifference⟩ := exists_toI64
    (by omega : -2 ^ 63 ≤ least.toInt - tracker.allowedLateness.toNat) (by omega)
  exact ⟨difference, hdifference⟩

variable {frontier : UnixNanos}

theorem effectiveFrontier_eq_some (h : Sound tracker) :
    tracker.effectiveFrontier = some frontier ↔
      ∃ least : UnixNanos,
        trustedMinimum tracker.allowedHealth none tracker.requiredStates = some (some least) ∧
          frontier.toInt = max (least.toInt - tracker.allowedLateness.toNat) 0 := by
  obtain ⟨lateness, hlateness, hvalue⟩ := h.toI64_lateness
  have hfrontier : tracker.effectiveFrontier = some frontier ↔
      ∃ least : UnixNanos,
        trustedMinimum tracker.allowedHealth none tracker.requiredStates = some (some least) ∧
          ∃ difference : Int64, difference.toInt = least.toInt - tracker.allowedLateness.toNat ∧
            max difference 0 = frontier := by
    simp [effectiveFrontier, hlateness, bind_eq_some_iff, toI64_eq_some, hvalue]
  rw [hfrontier]
  refine exists_congr fun least => and_congr_right fun hleast => ?_
  constructor
  · rintro ⟨difference, hdifference, rfl⟩
    rw [toInt_max, hdifference]
    rfl
  · intro hmax
    obtain ⟨difference, hdifference⟩ := h.exists_difference hleast
    refine ⟨difference, hdifference, Int64.toInt_inj.mp ?_⟩
    rw [toInt_max, hdifference, hmax]
    rfl

/-- The frontier is available when every required partition is trusted. -/
theorem frontier_isSome_iff (h : Sound tracker) :
    (∃ frontier, tracker.effectiveFrontier = some frontier) ↔
      ∀ state ∈ tracker.requiredStates, Trusted tracker.allowedHealth state := by
  rw [← trustedMinimum_isSome_iff]
  constructor
  · rintro ⟨frontier, hfrontier⟩
    obtain ⟨least, hleast, -⟩ := h.effectiveFrontier_eq_some.mp hfrontier
    exact ⟨some least, hleast⟩
  · rintro ⟨least, hleast⟩
    have hsome := trustedMinimum_ne_none hleast (.inl h.requiredStates_ne_nil)
    obtain ⟨time, rfl⟩ := ne_none_iff_exists'.mp hsome
    obtain ⟨difference, hdifference⟩ := h.exists_difference hleast
    refine ⟨max difference 0, h.effectiveFrontier_eq_some.mpr ⟨time, hleast, ?_⟩⟩
    rw [toInt_max, hdifference]
    rfl

/-- A positive bound is not past the frontier when no required watermark is below the bound and the
    lateness together. -/
theorem le_frontier_iff (h : Sound tracker)
    (hfrontier : tracker.effectiveFrontier = some frontier) {bound : Int} (hbound : 0 < bound) :
    bound ≤ frontier.toInt ↔ ∀ state ∈ tracker.requiredStates, ∀ time, state.watermark = some time →
      bound + tracker.allowedLateness.toNat ≤ time.toInt := by
  obtain ⟨least, hleast, hvalue⟩ := h.effectiveFrontier_eq_some.mp hfrontier
  have hiff := le_trustedMinimum_iff hleast (bound + tracker.allowedLateness.toNat)
  simp only [Option.some.injEq, forall_eq', reduceCtorEq, false_imp_iff, implies_true,
    true_and] at hiff
  rw [hvalue, ← hiff]
  omega

theorem frontier_nonneg (h : Sound tracker)
    (hfrontier : tracker.effectiveFrontier = some frontier) : 0 ≤ frontier.toInt := by
  obtain ⟨least, -, hvalue⟩ := h.effectiveFrontier_eq_some.mp hfrontier
  omega

theorem evaluate_of_threshold {window : TimeWindow} {lateness : Int64} {threshold : Option Int64}
    (hlateness : toI64 tracker.allowedLateness.toNat = some lateness)
    (hthreshold : toI64 (window.end_.toInt + lateness.toInt) = threshold) :
    tracker.evaluate window = threshold.elim .invalid fun threshold =>
      evaluateStates tracker.allowedHealth threshold true tracker.requiredStates := by
  unfold evaluate
  simp only [hlateness, hthreshold]
  cases threshold <;> simp only [Option.elim]

/-- A window is final when every required partition is trusted and past its end by the lateness. An
    end whose threshold overflows is past every watermark. -/
theorem evaluate_eq_final (h : Sound tracker) {window : TimeWindow} :
    tracker.evaluate window = .final ↔
      ∀ state ∈ tracker.requiredStates, Trusted tracker.allowedHealth state ∧
        ∀ time, state.watermark = some time →
          window.end_.toInt + tracker.allowedLateness.toNat ≤ time.toInt := by
  obtain ⟨lateness, hlateness, hvalue⟩ := h.toI64_lateness
  cases hthreshold : toI64 (window.end_.toInt + lateness.toInt) with
  | none =>
    rw [evaluate_of_threshold hlateness hthreshold, elim_none]
    refine iff_of_false (by simp) fun hall => ?_
    obtain ⟨state, hstate⟩ := List.exists_mem_of_ne_nil _ h.requiredStates_ne_nil
    obtain ⟨⟨watermark, _, hwatermark, -⟩, hpast⟩ := hall state hstate
    have hle := hpast watermark hwatermark
    have hlt := watermark.toInt_lt
    have hend := window.end_.le_toInt
    obtain ⟨threshold, hsome, -⟩ := exists_toI64
      (by omega : -2 ^ 63 ≤ window.end_.toInt + lateness.toInt) (by omega)
    rw [hsome] at hthreshold
    cases hthreshold
  | some threshold =>
    rw [evaluate_of_threshold hlateness hthreshold, elim_some, evaluateStates_eq_final,
      ← hvalue, ← toI64_eq_some.mp hthreshold]
    simp only [true_and]
    refine forall₂_congr fun state _ => and_congr_right ?_
    rintro ⟨watermark, health, hwatermark, hhealth, -⟩
    simp [Passed, hwatermark, hhealth, Int64.le_iff_toInt_le]

/-- The two readings of the watermarks agree. -/
theorem final_iff_frontier (h : Sound tracker) (window : TimeWindow) :
    (tracker.decision window).state = .final ↔
      ∃ frontier, tracker.effectiveFrontier = some frontier ∧ window.end_ ≤ frontier := by
  have hend : 0 < window.end_.toInt := by
    have hstart := Int64.le_iff_toInt_le.mp window.nonnegative
    have hlt := Int64.lt_iff_toInt_lt.mp window.ordered
    rw [Int64.toInt_zero] at hstart
    omega
  rw [decision_state, h.evaluate_eq_final]
  constructor
  · intro hall
    obtain ⟨frontier, hfrontier⟩ :=
      h.frontier_isSome_iff.mpr fun state hstate => (hall state hstate).1
    refine ⟨frontier, hfrontier, Int64.le_iff_toInt_le.mpr ?_⟩
    exact (h.le_frontier_iff hfrontier hend).mpr fun state hstate => (hall state hstate).2
  · rintro ⟨frontier, hfrontier, hle⟩ state hstate
    refine ⟨h.frontier_isSome_iff.mp ⟨frontier, hfrontier⟩ state hstate, ?_⟩
    exact (h.le_frontier_iff hfrontier hend).mp (Int64.le_iff_toInt_le.mp hle) state hstate

end Sound

/-! ## Construction -/

variable {configs : List PartitionConfig}

/-- Partitions that have heard nothing yet, one for each configuration. -/
theorem insertPartitions_eq_ok {partitions partitions' : Partitions}
    (h : insertPartitions partitions configs = .ok partitions') :
    (∀ (key : WatermarkKey) (state : PartitionState), partitions'[key]? = some state →
      partitions[key]? = some state ∨ state.watermark = none) ∧
    (∀ config ∈ configs, ∃ state, partitions'[config.key]? = some state ∧
      state.role = config.role) ∧
    ∀ (key : WatermarkKey) (state : PartitionState), partitions[key]? = some state →
      partitions'[key]? = some state := by
  induction configs generalizing partitions with
  | nil =>
    cases h
    exact ⟨fun _ _ hstate => .inl hstate, by simp, fun _ _ hstate => hstate⟩
  | cons config configs ih =>
    simp only [insertPartitions, bind_eq_ok, reject_eq_ok] at h
    obtain ⟨_, hfresh, hrest⟩ := h
    obtain ⟨hnew, hroles, hkept⟩ := ih hrest
    refine ⟨?_, ?_, ?_⟩
    · intro key state hstate
      rcases hnew key state hstate with hold | hnone
      · rw [getElem?_insert] at hold
        split at hold
        · cases hold
          exact .inr rfl
        · exact .inl hold
      · exact .inr hnone
    · refine List.forall_mem_cons.mpr ⟨?_, hroles⟩
      exact ⟨_, hkept config.key _ getElem?_insert_self, rfl⟩
    · intro key state hstate
      refine hkept key state ?_
      rw [getElem?_insert, if_neg, hstate]
      intro heq
      rw [LawfulEqCmp.eq_of_compare heq] at hfresh
      exact hfresh (mem_iff_isSome_getElem?.mpr (by rw [hstate]; rfl))

theorem sound_tryNew {hash : Fingerprints}
    {allowedLateness : UInt64} {allowedHealth : List SourceHealthState} {tracker : WatermarkTracker}
    (h : tryNew hash configs allowedLateness allowedHealth = .ok tracker) : Sound tracker := by
  simp only [tryNew, bind_eq_ok, reject_eq_ok, pure_eq_ok, not_or, not_not] at h
  obtain ⟨_, ⟨-, -, -, -, hlateness⟩, _, hrequired, unique, -, partitions, hpartitions, rfl⟩ := h
  obtain ⟨hnew, hroles, -⟩ := insertPartitions_eq_ok hpartitions
  obtain ⟨config, hconfig, hrole⟩ := List.any_eq_true.mp hrequired
  obtain ⟨state, hstate, hstateRole⟩ := hroles config hconfig
  refine ⟨not_lt.mp hlateness, ⟨config.key, state, hstate, ?_⟩, ?_⟩
  · rw [hstateRole]
    exact of_decide_eq_true hrole
  · intro key state time hstate htime
    rcases hnew key state hstate with hempty | hnone
    · simp at hempty
    · rw [hnone] at htime
      cases htime

theorem sound_tryNewForEntity {hash : Fingerprints}
    {allowedLateness : UInt64} {allowedHealth : List SourceHealthState} {entity : FeatureEntity}
    {tracker : WatermarkTracker}
    (h : tryNewForEntity hash configs allowedLateness allowedHealth entity = .ok tracker) :
    Sound tracker := by
  simp only [tryNewForEntity, bind_eq_ok, pure_eq_ok] at h
  obtain ⟨plain, hplain, rfl⟩ := h
  obtain ⟨hlateness, hrequired, hpositive⟩ := sound_tryNew hplain
  exact ⟨hlateness, hrequired, hpositive⟩

/-! ## Calls -/

inductive Call where
  | advance (key : WatermarkKey) (update : WatermarkUpdate)
  | correction (source : WatermarkKey) (window : TimeWindow) (correctedEventTime : UnixNanos)

/-- One call, with its error if it failed. -/
def step (tracker : WatermarkTracker) : Call → WatermarkTracker × Except WatermarkError Unit
  | .advance key update => advance key update tracker
  | .correction source window correctedEventTime =>
    let (tracker, result) := correction source window correctedEventTime tracker
    (tracker, result.map fun _ => ())

/-- A successful update replaces the state of its partition by one that is not behind. -/
theorem advance_eq_ok {key : WatermarkKey} {update : WatermarkUpdate}
    {tracker tracker' : WatermarkTracker} (h : advance key update tracker = (tracker', .ok ())) :
    0 < update.eventTime.toInt ∧ ∃ state sequence, tracker.partitions[key]? = some state ∧
      (∀ time, state.watermark = some time → time ≤ update.eventTime) ∧
      tracker' = { tracker with
        partitions := tracker.partitions.insert key
          ⟨state.role, some update.eventTime, some update.asKnownAt, some update.health⟩
        updateSequence := sequence } := by
  simp only [advance, Method.bind_eq_ok, Method.lift_apply, Method.get_apply, Method.update_apply,
    Prod.mk.injEq, reject_eq_ok, required_eq_ok, Except.ok.injEq, not_or] at h
  obtain ⟨_, _, ⟨rfl, hpositive, -⟩, _, _, ⟨rfl, rfl⟩, state, _, ⟨rfl, hstate⟩, _, _,
    ⟨rfl, hordered⟩, _, _, ⟨rfl, -⟩, sequence, _, ⟨rfl, -⟩, _, _, ⟨rfl, -⟩, rfl, -⟩ := h
  refine ⟨?_, state, sequence, hstate, ?_, rfl⟩
  · have hlt := Int64.not_le.mp hpositive
    simpa using Int64.lt_iff_toInt_lt.mp hlt
  · intro time htime
    unfold rejectRegression at hordered
    rw [htime] at hordered
    exact Int64.not_lt.mp (reject_eq_ok.mp hordered)

theorem advance_allOrNothing (key : WatermarkKey) (update : WatermarkUpdate)
    (tracker : WatermarkTracker) : (advance key update).AllOrNothing tracker := by
  unfold advance
  refine .lift_bind fun _ _ => .get_bind (.lift_bind fun state _ => ?_)
  refine .lift_bind fun _ _ => .lift_bind fun _ _ => .lift_bind fun sequence _ => ?_
  exact .of_ok rfl

theorem correction_allOrNothing (source : WatermarkKey) (window : TimeWindow)
    (correctedEventTime : UnixNanos) (tracker : WatermarkTracker) :
    (correction source window correctedEventTime).AllOrNothing tracker := by
  unfold correction
  refine .lift_bind fun _ _ => .get_bind (.lift_bind fun state _ => ?_)
  exact .lift_bind fun _ _ => .lift_bind fun sequence _ => .of_ok rfl

/-- A correction only counts. -/
theorem correction_partitions (source : WatermarkKey) (window : TimeWindow)
    (correctedEventTime : UnixNanos) (tracker : WatermarkTracker) :
    ∃ sequence, (correction source window correctedEventTime tracker).1 =
      { tracker with updateSequence := sequence } := by
  rcases h : correction source window correctedEventTime tracker with ⟨tracker', error | decision⟩
  · exact ⟨tracker.updateSequence, correction_allOrNothing _ _ _ _ tracker' error h⟩
  · simp only [correction, Method.bind_eq_ok, Method.lift_apply, Method.get_apply,
      Method.update_apply, Method.pure_apply, Prod.mk.injEq] at h
    obtain ⟨_, _, ⟨rfl, -⟩, _, _, ⟨rfl, -⟩, _, _, ⟨rfl, -⟩, _, _, ⟨rfl, -⟩, sequence, _,
      ⟨rfl, -⟩, _, _, ⟨rfl, -⟩, rfl, -⟩ := h
    exact ⟨sequence, rfl⟩

/-- What a call can do to the tracker: nothing, count, or advance a partition. -/
theorem step_cases (tracker : WatermarkTracker) (call : Call) :
    (∃ sequence, (step tracker call).1 = { tracker with updateSequence := sequence }) ∨
    ∃ (key : WatermarkKey) (update : WatermarkUpdate) (state : PartitionState) (sequence : UInt64),
      0 < update.eventTime.toInt ∧ tracker.partitions[key]? = some state ∧
      (∀ time, state.watermark = some time → time ≤ update.eventTime) ∧
      (step tracker call).1 = { tracker with
        partitions := tracker.partitions.insert key
          ⟨state.role, some update.eventTime, some update.asKnownAt, some update.health⟩
        updateSequence := sequence } := by
  cases call with
  | advance key update =>
    rcases h : advance key update tracker with ⟨tracker', error | ⟨⟩⟩
    · left
      exact ⟨tracker.updateSequence, (congrArg Prod.fst h).trans
        (advance_allOrNothing key update tracker tracker' error h)⟩
    · right
      obtain ⟨hpositive, state, sequence, hstate, hordered, rfl⟩ := advance_eq_ok h
      exact ⟨key, update, state, sequence, hpositive, hstate, hordered, congrArg Prod.fst h⟩
  | correction source window correctedEventTime =>
    left
    exact correction_partitions source window correctedEventTime tracker

theorem Sound.step {tracker : WatermarkTracker} (h : Sound tracker) (call : Call) :
    Sound (tracker.step call).1 := by
  obtain ⟨hlateness, ⟨required, state, hrequired, hrole⟩, hpositive⟩ := h
  rcases step_cases tracker call with ⟨sequence, hstep⟩ |
    ⟨key, update, old, sequence, hupdate, hold, -, hstep⟩ <;> rw [hstep]
  · exact ⟨hlateness, ⟨required, state, hrequired, hrole⟩, hpositive⟩
  refine ⟨hlateness, ?_, fun key' state' time hstate' htime => ?_⟩
  · by_cases heq : key = required
    · obtain rfl : old = state := Option.some.inj (hold.symm.trans (heq ▸ hrequired))
      exact ⟨key, _, getElem?_insert_self, hrole⟩
    · exact ⟨required, state, (getElem?_insert_of_ne _ _ heq).trans hrequired, hrole⟩
  · by_cases heq : key' = key
    · subst heq
      cases getElem?_insert_self.symm.trans hstate'
      cases htime
      exact hupdate
    · exact hpositive key' state' time
        ((getElem?_insert_of_ne _ _ (Ne.symm heq)).symm.trans hstate') htime

/-! ## Runs -/

/-- What a partition that was heard of has later: a watermark that is not behind, and a health. -/
structure Before (state later : PartitionState) : Prop where
  watermark : ∀ time, state.watermark = some time →
    ∃ time', later.watermark = some time' ∧ time ≤ time'
  health : state.health.isSome → later.health.isSome

/-- The same policy, and every required partition of the later tracker was one of the tracker. -/
structure Later (tracker later : WatermarkTracker) : Prop where
  lateness : later.allowedLateness = tracker.allowedLateness
  allowedHealth : later.allowedHealth = tracker.allowedHealth
  states : ∀ state' ∈ later.requiredStates, ∃ state ∈ tracker.requiredStates, Before state state'

theorem Before.refl (state : PartitionState) : Before state state :=
  ⟨fun time h => ⟨time, h, Int64.le_refl time⟩, id⟩

theorem Later.step {tracker later : WatermarkTracker} (h : Later tracker later) (call : Call) :
    Later tracker (later.step call).1 := by
  obtain ⟨hlateness, hhealth, hstates⟩ := h
  rcases step_cases later call with ⟨sequence, hstep⟩ |
    ⟨key, update, old, sequence, -, hold, hordered, hstep⟩ <;> rw [hstep]
  · exact ⟨hlateness, hhealth, hstates⟩
  refine ⟨hlateness, hhealth, fun state' hstate' => ?_⟩
  obtain ⟨hrole, key', hkey'⟩ := mem_requiredStates.mp hstate'
  by_cases heq : key' = key
  · subst heq
    cases getElem?_insert_self.symm.trans hkey'
    obtain ⟨state, hstate, hbefore⟩ := hstates old (mem_requiredStates.mpr ⟨hrole, key', hold⟩)
    refine ⟨state, hstate, fun time htime => ?_, fun _ => rfl⟩
    obtain ⟨time', htime', hle⟩ := hbefore.watermark time htime
    exact ⟨update.eventTime, rfl, Int64.le_trans hle (hordered time' htime')⟩
  · exact hstates state'
      (mem_requiredStates.mpr ⟨hrole, key',
        (getElem?_insert_of_ne _ _ (Ne.symm heq)).symm.trans hkey'⟩)

theorem Sound.run {tracker : WatermarkTracker} (h : Sound tracker) (calls : List Call) :
    Sound (runAll WatermarkTracker.step tracker calls) :=
  run_induction _ (fun _ tracker => Sound tracker) h (fun _ _ call h => h.step call) calls

theorem later_run (tracker : WatermarkTracker) (calls : List Call) :
    Later tracker (runAll WatermarkTracker.step tracker calls) :=
  run_induction _ (fun _ => Later tracker) ⟨rfl, rfl, fun state h => ⟨state, h, .refl state⟩⟩
    (fun _ _ call h => h.step call) calls

theorem Later.frontier_le {tracker later : WatermarkTracker} (hsound : Sound tracker)
    (hlater : Sound later) (h : Later tracker later) {frontier frontier' : UnixNanos}
    (hfrontier : tracker.effectiveFrontier = some frontier)
    (hfrontier' : later.effectiveFrontier = some frontier') : frontier ≤ frontier' := by
  rw [Int64.le_iff_toInt_le]
  by_cases hpositive : 0 < frontier.toInt
  · refine (hlater.le_frontier_iff hfrontier' hpositive).mpr fun state' hstate' time' htime' => ?_
    obtain ⟨state, hstate, hbefore⟩ := h.states state' hstate'
    obtain ⟨time, -, htime, -⟩ := hsound.frontier_isSome_iff.mp ⟨frontier, hfrontier⟩ state hstate
    have hpast := (hsound.le_frontier_iff hfrontier hpositive).mp le_rfl state hstate time htime
    obtain ⟨_, hsome, hle⟩ := hbefore.watermark time htime
    obtain rfl := Option.some.inj (htime'.symm.trans hsome)
    rw [h.lateness]
    exact hpast.trans (Int64.le_iff_toInt_le.mp hle)
  · have hnonneg := hlater.frontier_nonneg hfrontier'
    omega

/-- Past the threshold a partition can only lose its health, which makes the decision invalid. -/
theorem Later.ne_provisional {tracker later : WatermarkTracker} (hsound : Sound tracker)
    (h : Later tracker later) {window : TimeWindow} (hfinal : tracker.evaluate window = .final) :
    later.evaluate window ≠ .provisional := by
  obtain ⟨lateness, hlateness, -⟩ := hsound.toI64_lateness
  rw [Sound.evaluate_of_threshold hlateness rfl] at hfinal
  rw [Sound.evaluate_of_threshold (h.lateness ▸ hlateness) rfl]
  cases hthreshold : toI64 (window.end_.toInt + lateness.toInt) with
  | none => simp
  | some threshold =>
    rw [hthreshold, elim_some, evaluateStates_eq_final] at hfinal
    refine evaluateStates_ne_provisional fun state' hstate' => ?_
    obtain ⟨state, hstate, hbefore⟩ := h.states state' hstate'
    obtain ⟨-, time, health, htime, hhealth, hle⟩ := hfinal.2 state hstate
    obtain ⟨time', htime', hle'⟩ := hbefore.watermark time htime
    obtain ⟨health', hhealth'⟩ := isSome_iff_exists.mp (hbefore.health (by rw [hhealth]; rfl))
    exact ⟨time', health', htime', hhealth', Int64.le_trans hle hle'⟩

/-- On every reachable tracker a window is final exactly when the frontier is available and not
    before its end. Later calls never take the frontier back, a window that was final is never
    provisional again, and a failed advance changes nothing. -/
theorem finality_agrees_with_frontier (hash : Fingerprints) (configs : List PartitionConfig)
    (allowedLateness : UInt64) (allowedHealth : List SourceHealthState) (tracker : WatermarkTracker)
    (hnew : tryNew hash configs allowedLateness allowedHealth = .ok tracker ∨
      ∃ entity, tryNewForEntity hash configs allowedLateness allowedHealth entity = .ok tracker)
    (calls later : List Call) :
    (∀ window, ((runAll step tracker calls).decision window).state = .final ↔
      ∃ frontier, (runAll step tracker calls).effectiveFrontier = some frontier
        ∧ window.end_ ≤ frontier) ∧
    (∀ frontier frontier', (runAll step tracker calls).effectiveFrontier = some frontier →
      (runAll step tracker (calls ++ later)).effectiveFrontier = some frontier' →
        frontier ≤ frontier') ∧
    (∀ window, ((runAll step tracker calls).decision window).state = .final →
      ((runAll step tracker (calls ++ later)).decision window).state ≠ .provisional) ∧
    (∀ key update failed error,
      advance key update (runAll step tracker calls) = (failed, .error error) →
        failed = runAll step tracker calls) := by
  have hstart : Sound tracker := by
    rcases hnew with hnew | ⟨entity, hnew⟩
    · exact sound_tryNew hnew
    · exact sound_tryNewForEntity hnew
  have hsound := hstart.run calls
  have hlater := later_run (runAll step tracker calls) later
  rw [runAll_append]
  refine ⟨hsound.final_iff_frontier, fun _ _ =>
    hlater.frontier_le hsound (hsound.run later), ?_, ?_⟩
  · intro window hfinal
    rw [decision_state] at hfinal ⊢
    exact hlater.ne_provisional hsound hfinal
  · exact fun key update => advance_allOrNothing key update _

def sampleHash : Fingerprints :=
  ⟨fun _ _ _ _ => .replicate 32 0, fun _ => .replicate 32 0, fun _ => .replicate 32 0⟩

/-- A required partition. -/
def samplePartition : WatermarkKey where
  source := binanceSource
  partition := ⟨"0", by decide +kernel⟩

/-- A window that ends at ten. -/
def sampleWindow : TimeWindow := ⟨0, 10, by decide, by decide⟩

/-- With lateness five, a watermark at fifteen puts the frontier at the end of the window. -/
theorem finality_at_frontier :
    ∃ tracker, tryNew sampleHash [⟨samplePartition, .required_⟩] 5 [.healthy]
        = .ok tracker ∧
      ((runAll step tracker [.advance samplePartition ⟨15, 15, .healthy⟩]).decision
        sampleWindow).state = .final ∧
      ∃ frontier, (runAll step tracker
          [.advance samplePartition ⟨15, 15, .healthy⟩]).effectiveFrontier = some frontier ∧
        sampleWindow.end_ ≤ frontier := by
  have hfinal : ((tryNew sampleHash [⟨samplePartition, .required_⟩] 5
      [.healthy]).toOption.any fun tracker => ((runAll step tracker
        [.advance samplePartition ⟨15, 15, .healthy⟩]).decision sampleWindow).state == .final)
      = true := by
    decide +kernel
  cases hnew : tryNew sampleHash [⟨samplePartition, .required_⟩] 5
      [.healthy] with
  | error error =>
    rw [hnew] at hfinal
    cases hfinal
  | ok tracker =>
    rw [hnew] at hfinal
    have hstate := eq_of_beq hfinal
    refine ⟨tracker, rfl, hstate, ?_⟩
    exact ((finality_agrees_with_frontier _ _ _ _ tracker (.inl hnew) _ []).1 _).mp hstate

end WatermarkTracker

end CryptoIntelligence.Features
