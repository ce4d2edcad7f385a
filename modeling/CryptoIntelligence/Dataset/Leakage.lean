/-
  Walk-forward folds never leak the future. A selected sample starts in its range and is complete
  and known when the range ends (`selectSamples_bounds`), so one role is known before the next one
  starts when their ranges are apart (`knownBefore_of_ranges`). Both loops build ranges that are a
  purge and embargo apart, and both end.

  `folds_never_leak` puts this together for every builder and every sample list.
-/
import CryptoIntelligence.Dataset.Folds

namespace CryptoIntelligence.Dataset

open Lib FoldBuilder List

/-! ## Selected samples -/

theorem checkedI64_eq_ok {value result : Int} (h : checkedI64 value = .ok result) :
    result = value := by
  simp only [checkedI64, bind_eq_ok, pure_eq_ok] at h
  obtain ⟨_, -, rfl⟩ := h
  rfl

theorem checkedAdd_eq_ok {left right result : Int} (h : checkedAdd left right = .ok result) :
    result = left + right := checkedI64_eq_ok h

theorem tryNew_eq_ok {startNs endNs : Int} {range : TimeRange}
    (h : TimeRange.tryNew startNs endNs = .ok range) :
    range.startNs = startNs ∧ range.endNs = endNs := by
  unfold TimeRange.tryNew at h
  split at h
  · cases h
    exact ⟨rfl, rfl⟩
  · cases h

variable {samples : List Sample} {builder : FoldBuilder} {hashing : Hashing}

theorem validateSamples_sorted (h : validateSamples samples = .ok ()) :
    samples.Pairwise fun a b => a.originTimeNs < b.originTimeNs := by
  simp only [validateSamples, bind_eq_ok, reject_eq_ok] at h
  obtain ⟨_, -, _, -, hordered⟩ := h
  have hchain := anyNeighbours_eq_false.mp (Bool.eq_false_iff.mpr hordered)
  have : Trans (fun a b : Sample => a.originTimeNs < b.originTimeNs)
      (fun a b : Sample => a.originTimeNs < b.originTimeNs)
      (fun a b : Sample => a.originTimeNs < b.originTimeNs) := ⟨fun hab hbc => lt_trans hab hbc⟩
  refine isChain_iff_pairwise.mp (hchain.imp fun a b hab => ?_)
  by_contra hle
  exact hab (by simp [Int.not_lt.mp hle])

/-- In a sorted list the partition point separates the samples before a time from the others,
    however it is searched. -/
theorem partitionPoint_spec
    (h : samples.Pairwise fun a b => a.originTimeNs < b.originTimeNs) (time : Int) :
    (∀ sample ∈ samples.take (partitionPoint samples time), sample.originTimeNs < time) ∧
      ∀ sample ∈ samples.drop (partitionPoint samples time), time ≤ sample.originTimeNs := by
  induction samples with
  | nil => exact ⟨fun _ hmem => absurd hmem not_mem_nil, fun _ hmem => absurd hmem not_mem_nil⟩
  | cons first rest ih =>
    obtain ⟨hfirst, hrest⟩ := pairwise_cons.mp h
    by_cases hlt : first.originTimeNs < time
    · have hpoint : partitionPoint (first :: rest) time = partitionPoint rest time + 1 := by
        rw [partitionPoint, takeWhile_cons, if_pos (decide_eq_true hlt), length_cons]
        rfl
      rw [hpoint, take_succ_cons, drop_succ_cons]
      exact ⟨forall_mem_cons.mpr ⟨hlt, (ih hrest).1⟩, (ih hrest).2⟩
    · have hpoint : partitionPoint (first :: rest) time = 0 := by
        rw [partitionPoint, takeWhile_cons, if_neg (by simpa using hlt)]
        rfl
      rw [hpoint, take_zero, drop_zero]
      refine ⟨fun _ hmem => absurd hmem not_mem_nil, forall_mem_cons.mpr ⟨Int.not_lt.mp hlt, ?_⟩⟩
      exact fun sample hmem => le_trans (Int.not_lt.mp hlt) (le_of_lt (hfirst sample hmem))

theorem selectSamples_bounds {chosen : List Sample} {range : TimeRange}
    (h : selectSamples samples range = .ok chosen) {sample : Sample} (hmem : sample ∈ chosen) :
    (range.startNs ≤ sample.originTimeNs ∧ sample.originTimeNs < range.endNs) ∧
      sample.outcomeEndNs ≤ range.endNs ∧ sample.asKnownAtNs ≤ range.endNs := by
  simp only [selectSamples, bind_eq_ok, pure_eq_ok] at h
  obtain ⟨_, hvalid, rfl⟩ := h
  obtain ⟨hrange, heligible⟩ := mem_filter.mp hmem
  have hsorted := validateSamples_sorted hvalid
  rw [isEligible, Bool.and_eq_true, decide_eq_true_eq, decide_eq_true_eq] at heligible
  refine ⟨⟨?_, ?_⟩, heligible⟩
  · refine (partitionPoint_spec hsorted range.startNs).2 sample ?_
    exact ((take_sublist _ _).drop _).subset hrange
  · exact (partitionPoint_spec hsorted range.endNs).1 sample (drop_subset _ _ hrange)

/-- The sample is one that a role selects from some list. -/
def SelectedBy (role : List Sample → Except DatasetError (List Sample)) (sample : Sample) : Prop :=
  ∃ samples chosen, role samples = .ok chosen ∧ sample ∈ chosen

/-- The outcome of one sample is complete and known before another one starts. -/
def KnownBefore (a b : Sample) : Prop :=
  a.outcomeEndNs < b.originTimeNs ∧ a.asKnownAtNs < b.originTimeNs

theorem knownBefore_of_ranges {first second : TimeRange} (h : first.endNs < second.startNs)
    {a b : Sample} (ha : SelectedBy (selectSamples · first) a)
    (hb : SelectedBy (selectSamples · second) b) : KnownBefore a b := by
  obtain ⟨_, _, hselect, hmem⟩ := ha
  obtain ⟨-, houtcome, hknown⟩ := selectSamples_bounds hselect hmem
  obtain ⟨_, _, hselect, hmem⟩ := hb
  obtain ⟨⟨horigin, -⟩, -⟩ := selectSamples_bounds hselect hmem
  unfold KnownBefore
  omega

/-! ## The geometry of a fold -/

/-- The roles are apart, and both loops advance. -/
structure Positive (builder : FoldBuilder) : Prop where
  purge : 0 < builder.purgeEmbargoNs
  step : 0 < builder.stepNs

theorem secondsToNs_pos {seconds : Nat} {ns : Int} (h : secondsToNs seconds = .ok ns)
    (hpos : 0 < seconds) : 0 < ns := by
  simp only [secondsToNs, checkedU64, bind_eq_ok, pure_eq_ok] at h
  obtain ⟨value, ⟨_, -, rfl⟩, h⟩ := h
  rw [checkedI64_eq_ok h]
  unfold nanosPerSecond
  omega

theorem tryWithSchedule_positive {horizon lag : Nat} {schedule : WalkForwardSchedule}
    (h : tryWithSchedule horizon lag schedule = .ok builder) :
    Positive builder := by
  simp only [tryWithSchedule, checkedU64, bind_eq_ok, reject_eq_ok, pure_eq_ok,
    mem_cons, not_mem_nil, or_false, not_or] at h
  obtain ⟨_, hhorizon, _, ⟨⟨-, -, -, -, -, hstep⟩, -⟩, purge, ⟨_, -, rfl⟩, _, -, _, -, _, -,
    purgeNs, hpurge, _, -, _, -, _, -, _, -, _, -, stepNs, hstepNs, rfl⟩ := h
  exact ⟨secondsToNs_pos hpurge (by omega), secondsToNs_pos hstepNs (by omega)⟩

/-- An inner fold inside an outer training range. -/
structure Nested (builder : FoldBuilder) (outerTraining : TimeRange) (inner : InnerFold) :
    Prop where
  start : inner.training.startNs = outerTraining.startNs
  apart : inner.training.endNs + builder.purgeEmbargoNs = inner.validation.startNs
  inside : inner.validation.endNs ≤ outerTraining.endNs

theorem innerFold_next {outerTraining : TimeRange} {s next : Int × List InnerFold}
    (h : builder.innerFold hashing outerTraining s = .ok (.inl next)) :
    ∃ inner, next = (s.1 + builder.stepNs, s.2 ++ [inner]) ∧ s.1 < outerTraining.endNs ∧
      Nested builder outerTraining inner := by
  obtain ⟨validationStart, folds⟩ := s
  simp only [innerFold, bind_eq_ok] at h
  obtain ⟨validationEnd, hend, h⟩ := h
  split at h
  · cases h
  · rename_i hinside
    simp only [bind_eq_ok, pure_eq_ok, Sum.inl.injEq] at h
    obtain ⟨trainingEnd, htrainingEnd, training, htraining, validation, hvalidation, hash, -, start,
      hstart, rfl⟩ := h
    obtain ⟨hts, hte⟩ := tryNew_eq_ok htraining
    obtain ⟨hvs, hve⟩ := tryNew_eq_ok hvalidation
    have hpurge := checkedI64_eq_ok htrainingEnd
    have hlt := validation.start_lt_end
    rw [checkedAdd_eq_ok hstart]
    refine ⟨_, rfl, ?_, hts, ?_, ?_⟩
    · dsimp only
      omega
    · dsimp only
      omega
    · dsimp only
      omega

theorem innerFold_done {outerTraining : TimeRange}
    {s : Int × List InnerFold} {folds : List InnerFold}
    (h : builder.innerFold hashing outerTraining s = .ok (.inr folds)) : folds = s.2 := by
  obtain ⟨validationStart, before⟩ := s
  simp only [innerFold, bind_eq_ok] at h
  obtain ⟨_, -, h⟩ := h
  split at h
  · cases h
    rfl
  · simp only [bind_eq_ok, pure_eq_ok, reduceCtorEq, and_false, exists_false] at h

theorem stepOf_eq_inl {σ ρ : Type} {body : σ → Except DatasetError (σ ⊕ ρ)} {s next : σ}
    (h : stepOf body s = .inl next) : body s = .ok (.inl next) := by
  unfold stepOf at h
  split at h
  · rename_i hbody
    rw [hbody, Sum.inl.inj h]
  · cases h
  · cases h

theorem stepOf_eq_inr {σ ρ : Type} {body : σ → Except DatasetError (σ ⊕ ρ)} {s : σ} {result : ρ}
    (h : stepOf body s = .inr (.ok result)) : body s = .ok (.inr result) := by
  unfold stepOf at h
  split at h
  · cases h
  · rename_i hbody
    rw [hbody, Except.ok.inj (Sum.inr.inj h)]
  · cases h

/-- The inner loop ends, and its folds are nested. -/
theorem buildInnerFolds_spec (hpos : Positive builder) (hashing : Hashing)
    (outerTraining : TimeRange) :
    ∃ result, builder.buildInnerFolds hashing outerTraining = some result ∧
      ∀ folds, result = .ok folds → ∀ inner ∈ folds, Nested builder outerTraining inner := by
  unfold buildInnerFolds
  split
  · exact ⟨_, rfl, fun folds h => nomatch h⟩
  · refine loop_returns (fun s => ∀ inner ∈ s.2, Nested builder outerTraining inner)
      (fun s => (outerTraining.endNs - s.1).toNat) _ (fun s next hs hstep => ?_)
      (fun s result hs hstep folds hfolds => ?_) (fun _ hmem => absurd hmem not_mem_nil)
      (Nat.lt_succ_self _)
    · obtain ⟨inner, rfl, hlt, hnested⟩ := innerFold_next (stepOf_eq_inl hstep)
      have := hpos.step
      refine ⟨forall_mem_append.mpr ⟨hs, forall_mem_singleton.mpr hnested⟩, ?_⟩
      dsimp only
      omega
    · rw [hfolds] at hstep
      rw [innerFold_done (stepOf_eq_inr hstep)]
      exact hs

/-- The roles of an outer fold. -/
structure Apart (builder : FoldBuilder) (fold : OuterFold) : Prop where
  calibration : fold.training.endNs + builder.purgeEmbargoNs = fold.calibration.startNs
  test : fold.calibration.endNs + builder.purgeEmbargoNs = fold.test.startNs
  inner : ∀ inner ∈ fold.innerFolds, Nested builder fold.training inner

theorem foldTimes_eq_ok {trainingStart : Int} {times : FoldBuilder.FoldTimes}
    (h : builder.foldTimes trainingStart = .ok times) :
    times.trainingEnd + builder.purgeEmbargoNs = times.calibrationStart ∧
      times.calibrationEnd + builder.purgeEmbargoNs = times.testStart := by
  simp only [foldTimes, bind_eq_ok, pure_eq_ok] at h
  obtain ⟨_, -, _, hcalibration, _, -, _, htest, _, -, rfl⟩ := h
  exact ⟨(checkedAdd_eq_ok hcalibration).symm, (checkedAdd_eq_ok htest).symm⟩

theorem pushFold_eq_ok {training calibration test : TimeRange} {innerFolds : List InnerFold}
    {s next : Int × List OuterFold}
    (h : builder.pushFold hashing samples training calibration test innerFolds s = .ok next) :
    s.2.length ≠ maximumFolds ∧ ∃ foldHash, next.2 =
      s.2 ++ [⟨training, innerFolds, calibration, test, builder.purgeEmbargoNs, foldHash⟩] := by
  simp only [pushFold, bind_eq_ok, pure_eq_ok, reject_eq_ok] at h
  obtain ⟨_, -, _, -, foldHash, -, _, hcapacity, _, -, rfl⟩ := h
  exact ⟨hcapacity, foldHash, rfl⟩

theorem outerStep_next (hpos : Positive builder) {coverageEnd : Int} {s next : Int × List OuterFold}
    (h : builder.outerStep hashing samples coverageEnd s = .inl next) :
    s.2.length ≠ maximumFolds ∧ ∃ fold, next.2 = s.2 ++ [fold] ∧ Apart builder fold := by
  unfold outerStep at h
  split at h
  · cases h
  · rename_i times htimes
    split at h
    · cases h
    · split at h
      · cases h
      · rename_i training calibration test hranges
        obtain ⟨_, hfolds, hnested⟩ := buildInnerFolds_spec hpos hashing training
        simp only [bind_eq_ok, pure_eq_ok, Prod.mk.injEq] at hranges
        obtain ⟨_, htraining, _, hcalibration, _, htest, rfl, rfl, rfl⟩ := hranges
        split at h
        · cases h
        · cases h
        · rename_i innerFolds hinner
          split at h
          · cases h
          · rename_i hpush
            cases h
            obtain ⟨hcapacity, foldHash, hnext⟩ := pushFold_eq_ok hpush
            obtain ⟨hfirst, hsecond⟩ := foldTimes_eq_ok htimes
            refine ⟨hcapacity, _, hnext, ?_, ?_,
              hnested _ (Option.some.inj (hfolds.symm.trans hinner))⟩
            · rw [(tryNew_eq_ok htraining).2, (tryNew_eq_ok hcalibration).1, hfirst]
            · rw [(tryNew_eq_ok hcalibration).2, (tryNew_eq_ok htest).1, hsecond]

/-- A round that is the last one returns the folds so far or an error, and never gives up. -/
theorem outerStep_done (hpos : Positive builder) {coverageEnd : Int} {s : Int × List OuterFold}
    {result : Option (Except DatasetError (List OuterFold))}
    (h : builder.outerStep hashing samples coverageEnd s = .inr result) :
    result = some (.ok s.2) ∨ ∃ err, result = some (.error err) := by
  unfold outerStep at h
  split at h
  · cases h
    exact .inr ⟨_, rfl⟩
  · split at h
    · cases h
      exact .inl rfl
    · split at h
      · cases h
        exact .inr ⟨_, rfl⟩
      · rename_i training _ _ _
        split at h
        · rename_i hinner
          obtain ⟨_, hends, -⟩ := buildInnerFolds_spec hpos hashing training
          rw [hinner] at hends
          cases hends
        · cases h
          exact .inr ⟨_, rfl⟩
        · split at h
          · cases h
            exact .inr ⟨_, rfl⟩
          · cases h

/-- The outer loop ends with folds whose roles are apart, or with an error. -/
theorem outerLoop_spec (hpos : Positive builder) (hashing : Hashing)
    (samples : List Sample) (coverageEnd trainingStart : Int) :
    ∃ result, (loop (builder.outerStep hashing samples coverageEnd) (maximumFolds + 1)
        (trainingStart, [])).join = some result ∧
      ∀ folds, result = .ok folds → ∀ fold ∈ folds, Apart builder fold := by
  suffices hloop : ∃ last, loop (builder.outerStep hashing samples coverageEnd) (maximumFolds + 1)
      (trainingStart, []) = some last ∧ ∃ result, last = some result ∧
        ∀ folds, result = .ok folds → ∀ fold ∈ folds, Apart builder fold by
    obtain ⟨_, hlast, result, rfl, hresult⟩ := hloop
    exact ⟨result, by rw [hlast, Option.join_some], hresult⟩
  refine loop_returns (fun s => s.2.length ≤ maximumFolds ∧ ∀ fold ∈ s.2, Apart builder fold)
    (fun s => maximumFolds - s.2.length) _ (fun s next hs hstep => ?_) (fun s result hs hstep => ?_)
    ⟨Nat.zero_le _, fun _ hmem => absurd hmem not_mem_nil⟩ (Nat.lt_succ_self _)
  · obtain ⟨hcapacity, fold, hnext, hfold⟩ := outerStep_next hpos hstep
    rw [hnext, length_append, length_singleton]
    refine ⟨⟨by omega, ?_⟩, by omega⟩
    exact forall_mem_append.mpr ⟨hs.2, forall_mem_singleton.mpr hfold⟩
  · rcases outerStep_done hpos hstep with rfl | ⟨err, rfl⟩
    · refine ⟨_, rfl, fun folds hfolds => ?_⟩
      rw [← Except.ok.inj hfolds]
      exact hs.2
    · exact ⟨_, rfl, fun folds hfolds => nomatch hfolds⟩

theorem outerFolds_spec (hpos : Positive builder) (hashing : Hashing) (samples : List Sample) :
    ∃ result, builder.outerFolds hashing samples = some result ∧
      ∀ folds, result = .ok folds → ∀ fold ∈ folds, Apart builder fold := by
  unfold outerFolds
  split
  · exact ⟨_, rfl, fun folds hfolds => nomatch hfolds⟩
  · rename_i trainingStart coverageEnd _
    obtain ⟨result, hloop, hresult⟩ :=
      outerLoop_spec hpos hashing samples coverageEnd trainingStart
    rw [hloop]
    cases result with
    | error err => exact ⟨_, rfl, fun folds hfolds => nomatch hfolds⟩
    | ok found =>
      refine ⟨_, rfl, fun folds hfolds => ?_⟩
      split at hfolds
      · cases hfolds
      · exact hresult folds hfolds

/-! ## No leakage -/

/-- No role of the fold sees the outcomes of a later one. -/
structure LeakFree (builder : FoldBuilder) (fold : OuterFold) : Prop where
  training_known : ∀ a, SelectedBy fold.trainingSamples a →
    a.outcomeEndNs ≤ fold.training.endNs ∧ a.asKnownAtNs ≤ fold.training.endNs
  training_calibration : ∀ a b, SelectedBy fold.trainingSamples a →
    SelectedBy fold.calibrationSamples b → KnownBefore a b
  training_test : ∀ a b, SelectedBy fold.trainingSamples a → SelectedBy fold.testSamples b →
    KnownBefore a b
  calibration_test : ∀ a b, SelectedBy fold.calibrationSamples a → SelectedBy fold.testSamples b →
    KnownBefore a b
  inner : ∀ inner ∈ fold.innerFolds, ∀ a b, SelectedBy inner.trainingSamples a →
    SelectedBy inner.validationSamples b → KnownBefore a b
  inside : ∀ inner ∈ fold.innerFolds, ∀ range ∈ [inner.training, inner.validation],
    fold.training.startNs ≤ range.startNs ∧ range.endNs ≤ fold.training.endNs
  separated : fold.training.endNs + builder.purgeEmbargoNs ≤ fold.calibration.startNs ∧
    fold.calibration.endNs + builder.purgeEmbargoNs ≤ fold.test.startNs ∧
    ∀ inner ∈ fold.innerFolds,
      inner.training.endNs + builder.purgeEmbargoNs ≤ inner.validation.startNs

theorem leakFree_of_apart (hpos : Positive builder) {fold : OuterFold}
    (h : Apart builder fold) : LeakFree builder fold := by
  have hpurge := hpos.purge
  have hcalibration := h.calibration
  have htest := h.test
  have hlt := fold.calibration.start_lt_end
  refine ⟨?_, ?_, ?_, ?_, ?_, ?_, hcalibration.le, htest.le,
    fun inner hmem => (h.inner inner hmem).apart.le⟩
  · rintro a ⟨_, _, hselect, hmem⟩
    exact (selectSamples_bounds hselect hmem).2
  · exact fun a b => knownBefore_of_ranges (by omega)
  · exact fun a b => knownBefore_of_ranges (by omega)
  · exact fun a b => knownBefore_of_ranges (by omega)
  · intro inner hmem a b
    have hapart := (h.inner inner hmem).apart
    exact knownBefore_of_ranges (by omega)
  · intro inner hmem range hrange
    obtain ⟨hstart, hapart, hinside⟩ := h.inner inner hmem
    have htraining := inner.training.start_lt_end
    have hvalidation := inner.validation.start_lt_end
    rcases mem_cons.mp hrange with rfl | hrange
    · omega
    · rw [mem_singleton.mp hrange]
      omega

/-- Building folds ends for every builder and every sample list, and no fold that is returned leaks
    the future into an earlier role. -/
theorem folds_never_leak (hashing : Hashing) {horizon lag : Nat} {schedule : WalkForwardSchedule}
    {builder : FoldBuilder} (h : tryWithSchedule horizon lag schedule = .ok builder)
    (samples : List Sample) :
    (∃ result, builder.outerFolds hashing samples = some result) ∧
      ∀ folds, builder.outerFolds hashing samples = some (.ok folds) →
        ∀ fold ∈ folds, LeakFree builder fold := by
  have hpos := tryWithSchedule_positive h
  obtain ⟨result, hresult, hapart⟩ := outerFolds_spec hpos hashing samples
  refine ⟨⟨result, hresult⟩, fun folds hfolds fold hmem => ?_⟩
  rw [hresult] at hfolds
  exact leakFree_of_apart hpos (hapart folds (Option.some.inj hfolds) fold hmem)

/-- A sample a second, each with the outcome of the second after it. -/
def sampleHistory : List Sample :=
  (List.range 21).filterMap fun n =>
    (Sample.tryNew (n + 1) ((n + 1) * 1000000000) ((n + 2) * 1000000000)
      ((n + 2) * 1000000000)).toOption

def sampleBuilder : FoldBuilder :=
  ⟨2000000000, 10000000000, 3000000000, 2000000000, 3000000000, 3000000000, 2000000000⟩

theorem folds_never_leak_sample :
    tryWithSchedule 1 1 ⟨10, 3, 2, 3, 3, 2⟩ = .ok sampleBuilder ∧
      ∃ fold, sampleBuilder.outerFolds ⟨fun _ => some [], id⟩ sampleHistory = some (.ok [fold]) ∧
        fold.innerFolds.length = 2 ∧ LeakFree sampleBuilder fold := by
  have hbuilder : tryWithSchedule 1 1 ⟨10, 3, 2, 3, 3, 2⟩ = .ok sampleBuilder := by
    rfl
  have hfold : ∃ fold, sampleBuilder.outerFolds ⟨fun _ => some [], id⟩ sampleHistory =
      some (.ok [fold]) ∧ fold.innerFolds.length = 2 := by
    refine ⟨_, rfl, rfl⟩
  obtain ⟨fold, hfolds, hlength⟩ := hfold
  exact ⟨hbuilder, fold, hfolds, hlength,
    (folds_never_leak _ hbuilder _).2 _ hfolds fold (mem_singleton.mpr rfl)⟩

end CryptoIntelligence.Dataset
