/-
  Time windows (`feature-engine`, `window.rs`): half-open intervals `[start, end)` placed on a grid
  around an anchor, and the windows of a specification that an event time belongs to.

  The source computes in `i64` and checks every operation. A sum or product is taken here over the
  integers and brought back by `toI64`; the integers are what the statements speak about.
-/
import CryptoIntelligence.Features.Definition

namespace CryptoIntelligence.Features

open Lib Domain List

inductive WindowError where
  | invalidTimeWindow
  | invalidWindowSpec
  | invalidEventTime
  | membershipCapacity
  | definitionKindMismatch
  | invalidThreshold
  | invalidAmount
  | invalidLifecycle
  | invalidTransition
  | arithmeticOverflow
  | decimal (error : Decimal.DecimalError)
  /-- Not a value of the source: `div_euclid` panics on a zero divisor. -/
  | panicked
  deriving DecidableEq, Repr

def maxSlidingMemberships : Nat := 1024

def canonicalUtcAnchor : UnixNanos := 0

structure TimeWindow where
  start : UnixNanos
  end_ : UnixNanos
  nonnegative : 0 ≤ start
  ordered : start < end_

def TimeWindow.tryNew (start end_ : UnixNanos) : Except WindowError TimeWindow :=
  if h : 0 ≤ start ∧ start < end_ then .ok ⟨start, end_, h.1, h.2⟩ else .error .invalidTimeWindow

inductive TimeWindowSpec where
  | tumbling (extent : UInt64) (anchor : UnixNanos)
  | sliding (extent advance : UInt64) (anchor : UnixNanos)
  | sessionAligned (extent : UInt64) (utcAnchor : UnixNanos)
  deriving DecidableEq

/-! ## Specifications -/

/-- How many windows of a sliding specification can hold one time. -/
def memberships (extent advance : UInt64) : Except WindowError UInt64 := do
  let total ← required (toU64 (extent.toNat + (advance.toNat - 1))) .arithmeticOverflow
  return total / advance

def validateSlidingShape (extent advance : UInt64) : Except WindowError Unit := do
  reject (advance = 0 ∨ extent < advance) .invalidWindowSpec
  let count ← memberships extent advance
  reject (maxSlidingMemberships < count.toNat) .membershipCapacity

def validateTimeShape (extent : UInt64) (anchor : UnixNanos) : Except WindowError Unit :=
  reject (extent = 0 ∨ Int64.maxValue.toInt < extent.toNat ∨ anchor < 0) .invalidWindowSpec

def TimeWindowSpec.tryFromDefinition (definition : WindowDefinition) :
    Except WindowError TimeWindowSpec :=
  match definition.kind, definition.parameter with
  | .tumbling, .time extent none => do
    validateTimeShape extent canonicalUtcAnchor
    return .tumbling extent canonicalUtcAnchor
  | .sliding, .time extent (some advance) => do
    validateTimeShape extent canonicalUtcAnchor
    validateSlidingShape extent advance
    return .sliding extent advance canonicalUtcAnchor
  | .sessionAligned, .sessionAligned extent utcAnchor => do
    validateTimeShape extent utcAnchor
    return .sessionAligned extent utcAnchor
  | _, _ => .error .definitionKindMismatch

namespace TimeWindowSpec

def extent : TimeWindowSpec → UInt64
  | .tumbling extent _ => extent
  | .sliding extent _ _ => extent
  | .sessionAligned extent _ => extent

/-- The distance of two neighbouring starts. -/
def advance : TimeWindowSpec → UInt64
  | .tumbling extent _ => extent
  | .sliding _ advance _ => advance
  | .sessionAligned extent _ => extent

def anchor : TimeWindowSpec → UnixNanos
  | .tumbling _ anchor => anchor
  | .sliding _ _ anchor => anchor
  | .sessionAligned _ utcAnchor => utcAnchor

/-- The checks a specification passes when it is built, for any anchor. -/
def validate : TimeWindowSpec → Except WindowError Unit
  | .tumbling extent anchor => validateTimeShape extent anchor
  | .sliding extent advance anchor => do
    validateTimeShape extent anchor
    validateSlidingShape extent advance
  | .sessionAligned extent utcAnchor => validateTimeShape extent utcAnchor

end TimeWindowSpec

/-! ## Membership -/

def divEuclid (dividend divisor : Int64) : Except WindowError Int := do
  reject (divisor = 0) .panicked
  return dividend.toInt / divisor.toInt

/-- The latest grid point that is not after the time. -/
def latestStart (eventTime anchor : UnixNanos) (advance : Int64) : Except WindowError Int64 := do
  let delta ← required (toI64 (eventTime.toInt - anchor.toInt)) .arithmeticOverflow
  let step ← divEuclid delta advance
  let distance ← required (toI64 (step * advance.toInt)) .arithmeticOverflow
  required (toI64 (anchor.toInt + distance.toInt)) .arithmeticOverflow

open TimeWindow

def alignedWindow (eventTime : UnixNanos) (extent : UInt64) (anchor : UnixNanos)
    (advance : UInt64) : Except WindowError TimeWindow := do
  let extentI64 ← required (toI64 extent.toNat) .invalidWindowSpec
  let advanceI64 ← required (toI64 advance.toNat) .invalidWindowSpec
  let start ← latestStart eventTime anchor advanceI64
  let end_ ← required (toI64 (start.toInt + extentI64.toInt)) .arithmeticOverflow
  tryNew start end_

/-- One turn of the loop over the offsets. -/
def slidingStep (eventTime : UnixNanos) (latest extent advance : Int64) (windows : List TimeWindow)
    (offset : Nat) : Except WindowError (List TimeWindow) := do
  let offsetI64 ← required (toI64 offset) .arithmeticOverflow
  let distance ← required (toI64 (offsetI64.toInt * advance.toInt)) .arithmeticOverflow
  let start ← required (toI64 (latest.toInt - distance.toInt)) .arithmeticOverflow
  let end_ ← required (toI64 (start.toInt + extent.toInt)) .arithmeticOverflow
  if 0 ≤ start ∧ start ≤ eventTime ∧ eventTime < end_ then
    let window ← tryNew start end_
    return windows ++ [window]
  else
    return windows

/-- The offsets the loop goes through, `(0..memberships).rev()`. -/
def slidingOffsets (extent advance : UInt64) : Except WindowError (List Nat) := do
  let count ← memberships extent advance
  return (List.range count.toNat).reverse

def TimeWindowSpec.windowsFor (spec : TimeWindowSpec) (eventTime : UnixNanos) :
    Except WindowError (List TimeWindow) := do
  reject (eventTime ≤ 0) .invalidEventTime
  match spec with
  | .tumbling extent anchor => do
    let window ← alignedWindow eventTime extent anchor extent
    return [window]
  | .sessionAligned extent utcAnchor => do
    let window ← alignedWindow eventTime extent utcAnchor extent
    return [window]
  | .sliding extent advance anchor => do
    let extentI64 ← required (toI64 extent.toNat) .invalidWindowSpec
    let advanceI64 ← required (toI64 advance.toNat) .invalidWindowSpec
    let latest ← latestStart eventTime anchor advanceI64
    let offsets ← slidingOffsets extent advance
    offsets.foldlM (slidingStep eventTime latest extentI64 advanceI64) []

/-! ## The grid

  Over the integers: starts are the numbers congruent to the anchor, and the latest one not after a
  time is less than one advance away. -/

section Grid

/-- The latest grid point that is not after `time`. -/
def gridBefore (anchor time width : Int) : Int := anchor + (time - anchor) / width * width

variable (anchor time : Int) {width : Int}

theorem gridBefore_modEq : gridBefore anchor time width ≡ anchor [ZMOD width] :=
  Int.modEq_iff_dvd.mpr ⟨-((time - anchor) / width), by unfold gridBefore; ring⟩

theorem gridBefore_le (hwidth : 0 < width) : gridBefore anchor time width ≤ time := by
  have h := Int.ediv_mul_le (time - anchor) hwidth.ne'
  unfold gridBefore
  omega

theorem lt_gridBefore_add (hwidth : 0 < width) : time < gridBefore anchor time width + width := by
  have h := Int.lt_ediv_add_one_mul_self (time - anchor) hwidth
  unfold gridBefore
  rw [add_mul] at h
  omega

/-- A grid point not after the time lies a whole number of steps before the latest one. -/
theorem eq_gridBefore_sub (hwidth : 0 < width) {start : Int}
    (haligned : start ≡ anchor [ZMOD width]) (hstarted : start ≤ time) :
    ∃ offset : Nat, start = gridBefore anchor time width - offset * width := by
  obtain ⟨steps, hsteps⟩ := (haligned.trans (gridBefore_modEq anchor time).symm).dvd
  have hlt := lt_gridBefore_add anchor time hwidth
  have hpos : -1 < steps := by
    by_contra hneg
    have hle : width * steps ≤ width * (-1) := by
      apply mul_le_mul_of_nonneg_left _ hwidth.le
      omega
    omega
  refine ⟨steps.toNat, ?_⟩
  rw [Int.toNat_of_nonneg (by omega), mul_comm]
  omega

/-- The starts of the last `count` windows, the earliest first. -/
def lastStarts (anchor time width : Int) (count : Nat) : List Int :=
  (List.range count).reverse.map fun offset : Nat => gridBefore anchor time width - offset * width

theorem lastStarts_pairwise (hwidth : 0 < width) (count : Nat) :
    (lastStarts anchor time width count).Pairwise (· < ·) := by
  unfold lastStarts
  rw [pairwise_map, pairwise_reverse]
  refine pairwise_lt_range.imp fun {earlier later} h => ?_
  have hmul : (earlier : Int) * width < later * width :=
    mul_lt_mul_of_pos_right (by exact_mod_cast h) hwidth
  omega

/-- With enough of them, the last starts whose window is still open are all the grid points whose
    window holds the time. -/
theorem mem_lastStarts_iff {extent : Int} (hwidth : 0 < width) {count : Nat}
    (hcount : extent ≤ count * width) {start : Int} (hopen : time < start + extent) :
    start ∈ lastStarts anchor time width count ↔ start ≡ anchor [ZMOD width] ∧ start ≤ time := by
  unfold lastStarts
  simp only [mem_map, mem_reverse, mem_range]
  have hle := gridBefore_le anchor time hwidth
  constructor
  · rintro ⟨offset, -, rfl⟩
    refine ⟨?_, ?_⟩
    · refine Int.ModEq.trans ?_ (gridBefore_modEq anchor time)
      exact Int.modEq_iff_dvd.mpr ⟨offset, by ring⟩
    · have hnonneg : 0 ≤ (offset : Int) * width := mul_nonneg (by omega) hwidth.le
      omega
  · rintro ⟨haligned, hstarted⟩
    obtain ⟨offset, rfl⟩ := eq_gridBefore_sub anchor time hwidth haligned hstarted
    refine ⟨offset, ?_, rfl⟩
    have hlt : (offset : Int) * width < count * width := by omega
    exact_mod_cast lt_of_mul_lt_mul_right hlt hwidth.le

/-- The windows at the given starts that hold the time, without those that start before zero. -/
def windowsAt (time extent : Int) (starts : List Int) : List (Int × Int) :=
  (starts.filter fun start => decide (0 ≤ start ∧ start ≤ time ∧ time < start + extent)).map
    fun start => (start, start + extent)

theorem windowsAt_append (extent : Int) (starts later : List Int) :
    windowsAt time extent (starts ++ later) =
      windowsAt time extent starts ++ windowsAt time extent later := by
  unfold windowsAt
  rw [filter_append, map_append]

theorem mem_windowsAt {extent : Int} {starts : List Int} {start end_ : Int} :
    (start, end_) ∈ windowsAt time extent starts ↔
      start ∈ starts ∧ end_ = start + extent ∧ 0 ≤ start ∧ start ≤ time ∧
        time < start + extent := by
  simp only [windowsAt, mem_map, mem_filter, decide_eq_true_eq, Prod.mk.injEq]
  constructor
  · rintro ⟨_, ⟨hmem, hholds⟩, rfl, rfl⟩
    exact ⟨hmem, rfl, hholds⟩
  · rintro ⟨hmem, rfl, hholds⟩
    exact ⟨start, ⟨hmem, hholds⟩, rfl, rfl⟩

theorem windowsAt_pairwise (extent : Int) {starts : List Int} (h : starts.Pairwise (· < ·)) :
    (windowsAt time extent starts).Pairwise fun a b => a.1 < b.1 :=
  pairwise_map.mpr (h.filter _)

end Grid

/-! ## What each function computes -/

/-- The bounds of a window as integers. -/
def TimeWindow.bounds (window : TimeWindow) : Int × Int := (window.start.toInt, window.end_.toInt)

theorem TimeWindow.tryNew_eq_ok {start end_ : UnixNanos} {window : TimeWindow}
    (h : tryNew start end_ = .ok window) :
    window.bounds = (start.toInt, end_.toInt) ∧ 0 ≤ start.toInt := by
  unfold tryNew at h
  split at h
  · rename_i hvalid
    cases h
    exact ⟨rfl, Int64.le_iff_toInt_le.mp hvalid.1⟩
  · cases h

theorem latestStart_eq_ok {eventTime anchor : UnixNanos} {advance start : Int64}
    (h : latestStart eventTime anchor advance = .ok start) :
    start.toInt = gridBefore anchor.toInt eventTime.toInt advance.toInt := by
  simp only [latestStart, divEuclid, bind_eq_ok, required_eq_ok, reject_eq_ok, toI64_eq_some,
    pure_eq_ok] at h
  obtain ⟨delta, hdelta, step, ⟨_, -, rfl⟩, distance, hdistance, hstart⟩ := h
  rw [hstart, hdistance, hdelta]
  rfl

theorem alignedWindow_eq_ok {eventTime anchor : UnixNanos} {extent advance : UInt64}
    {window : TimeWindow} (h : alignedWindow eventTime extent anchor advance = .ok window) :
    ∃ start, start = gridBefore anchor.toInt eventTime.toInt advance.toNat
      ∧ window.bounds = (start, start + extent.toNat) ∧ 0 ≤ start := by
  simp only [alignedWindow, bind_eq_ok, required_eq_ok, toI64_eq_some] at h
  obtain ⟨extentI64, hextent, advanceI64, hadvance, start, hstart, end_, hend, hwindow⟩ := h
  obtain ⟨hbounds, hnonneg⟩ := tryNew_eq_ok hwindow
  refine ⟨start.toInt, ?_, ?_, hnonneg⟩
  · rw [latestStart_eq_ok hstart, hadvance]
  · rw [hbounds, hend, hextent]

/-- The window at an offset is added when it holds the time and does not start before zero. -/
theorem slidingStep_eq_ok {eventTime : UnixNanos} {latest extent advance : Int64}
    {windows next : List TimeWindow} {offset : Nat}
    (h : slidingStep eventTime latest extent advance windows offset = .ok next) :
    next.map bounds = windows.map bounds ++
      windowsAt eventTime.toInt extent.toInt [latest.toInt - offset * advance.toInt] := by
  simp only [slidingStep, bind_eq_ok, required_eq_ok, toI64_eq_some] at h
  obtain ⟨offsetI64, hoffset, distance, hdistance, start, hstart, end_, hend, h⟩ := h
  rw [hoffset] at hdistance
  rw [← hdistance, ← hstart]
  have hguard : (0 ≤ start ∧ start ≤ eventTime ∧ eventTime < end_) ↔
      (0 ≤ start.toInt ∧ start.toInt ≤ eventTime.toInt ∧
        eventTime.toInt < start.toInt + extent.toInt) := by
    rw [Int64.le_iff_toInt_le, Int64.le_iff_toInt_le, Int64.lt_iff_toInt_lt, hend]
    rfl
  split at h
  · rename_i hin
    simp only [bind_eq_ok, pure_eq_ok] at h
    obtain ⟨window, hwindow, rfl⟩ := h
    have hkept : windowsAt eventTime.toInt extent.toInt [start.toInt] =
        [(start.toInt, start.toInt + extent.toInt)] := by
      rw [windowsAt, filter_cons_of_pos (by simpa using hguard.mp hin)]
      rfl
    rw [hkept, map_append, map_singleton, (tryNew_eq_ok hwindow).1, hend]
  · rename_i hout
    cases h
    have hdropped : windowsAt eventTime.toInt extent.toInt [start.toInt] = [] := by
      rw [windowsAt, filter_cons_of_neg (by simpa using fun hin => hout (hguard.mpr hin))]
      rfl
    rw [hdropped, append_nil]

theorem slidingLoop_eq_ok {eventTime : UnixNanos} {latest extent advance : Int64}
    {offsets : List Nat} {windows next : List TimeWindow}
    (h : offsets.foldlM (slidingStep eventTime latest extent advance) windows = .ok next) :
    next.map bounds = windows.map bounds ++
      windowsAt eventTime.toInt extent.toInt
        (offsets.map fun offset : Nat => latest.toInt - offset * advance.toInt) := by
  induction offsets generalizing windows with
  | nil =>
    cases h
    exact (append_nil _).symm
  | cons offset offsets ih =>
    rw [foldlM_cons, bind_eq_ok] at h
    obtain ⟨middle, hmiddle, hrest⟩ := h
    rw [ih hrest, slidingStep_eq_ok hmiddle, append_assoc, ← windowsAt_append]
    rfl

/-! ## Valid specifications -/

theorem memberships_eq_ok {extent advance count : UInt64}
    (h : memberships extent advance = .ok count)
    (hadvance : 0 < advance.toNat) : count.toNat = extent.toNat ⌈/⌉ advance.toNat := by
  simp only [memberships, bind_eq_ok, required_eq_ok, toU64_eq_some, pure_eq_ok] at h
  obtain ⟨total, htotal, rfl⟩ := h
  rw [UInt64.toNat_div, htotal, Nat.ceilDiv_eq_add_pred_div, Nat.add_sub_assoc hadvance]

theorem validateTimeShape_eq_ok {extent : UInt64} {anchor : UnixNanos}
    (h : validateTimeShape extent anchor = .ok ()) : 0 < extent.toNat := by
  rw [validateTimeShape, reject_eq_ok] at h
  by_contra hzero
  exact h (.inl (UInt64.toNat_inj.mp (by simpa using hzero)))

theorem validateSlidingShape_eq_ok {extent advance : UInt64}
    (h : validateSlidingShape extent advance = .ok ()) :
    0 < advance.toNat ∧ advance.toNat ≤ extent.toNat := by
  simp only [validateSlidingShape, bind_eq_ok, reject_eq_ok, not_or] at h
  obtain ⟨_, ⟨hne, hle⟩, -⟩ := h
  refine ⟨?_, ?_⟩
  · by_contra hzero
    exact hne (UInt64.toNat_inj.mp (by simpa using hzero))
  · exact UInt64.le_iff_toNat_le.mp (UInt64.not_lt.mp hle)

namespace TimeWindowSpec

variable {spec : TimeWindowSpec} {eventTime : UnixNanos} {windows : List TimeWindow}

/-- A window of the specification starts at `start` and holds `time`. -/
structure Holds (spec : TimeWindowSpec) (time start : Int) : Prop where
  nonnegative : 0 ≤ start
  aligned : start ≡ spec.anchor.toInt [ZMOD spec.advance.toNat]
  started : start ≤ time
  unfinished : time < start + spec.extent.toNat

theorem advance_pos (h : spec.validate = .ok ()) : 0 < spec.advance.toNat := by
  cases spec with
  | tumbling extent anchor => exact validateTimeShape_eq_ok h
  | sessionAligned extent utcAnchor => exact validateTimeShape_eq_ok h
  | sliding extent advance anchor =>
    rw [validate, bind_eq_ok] at h
    obtain ⟨_, -, hsliding⟩ := h
    exact (validateSlidingShape_eq_ok hsliding).1

/-- A single window, at the latest start. -/
theorem bounds_of_alignedWindow {anchor : UnixNanos} {extent : UInt64} {window : TimeWindow}
    (hextent : 0 < extent.toNat) (h : alignedWindow eventTime extent anchor extent = .ok window) :
    [window].map bounds = windowsAt eventTime.toInt extent.toNat
      (lastStarts anchor.toInt eventTime.toInt extent.toNat 1) := by
  obtain ⟨start, hstart, hbounds, hnonneg⟩ := alignedWindow_eq_ok h
  have hwidth : (0 : Int) < extent.toNat := by exact_mod_cast hextent
  have hlatest : lastStarts anchor.toInt eventTime.toInt extent.toNat 1 = [start] := by
    simp [lastStarts, hstart]
  have hle : start ≤ eventTime.toInt := hstart ▸ gridBefore_le _ _ hwidth
  have hlt : eventTime.toInt < start + extent.toNat := hstart ▸ lt_gridBefore_add _ _ hwidth
  rw [hlatest, windowsAt, filter_cons_of_pos (by simpa using ⟨hnonneg, hle, hlt⟩),
    map_singleton, hbounds]
  rfl

/-- The windows are the last few of the grid that hold the time, and those few are enough. -/
theorem windowsFor_bounds (hvalid : spec.validate = .ok ())
    (h : spec.windowsFor eventTime = .ok windows) :
    ∃ count : Nat, spec.extent.toNat ≤ count * spec.advance.toNat
      ∧ windows.map bounds = windowsAt eventTime.toInt spec.extent.toNat
          (lastStarts spec.anchor.toInt eventTime.toInt spec.advance.toNat count) := by
  have hpos := advance_pos hvalid
  unfold windowsFor at h
  rw [bind_eq_ok] at h
  obtain ⟨_, -, h⟩ := h
  cases spec with
  | tumbling extent anchor =>
    simp only [bind_eq_ok, pure_eq_ok] at h
    obtain ⟨window, hwindow, rfl⟩ := h
    exact ⟨1, (one_mul extent.toNat).ge, bounds_of_alignedWindow hpos hwindow⟩
  | sessionAligned extent utcAnchor =>
    simp only [bind_eq_ok, pure_eq_ok] at h
    obtain ⟨window, hwindow, rfl⟩ := h
    exact ⟨1, (one_mul extent.toNat).ge, bounds_of_alignedWindow hpos hwindow⟩
  | sliding extent advance anchor =>
    simp only [slidingOffsets, bind_eq_ok, required_eq_ok, toI64_eq_some, pure_eq_ok] at h
    obtain ⟨extentI64, hextent, advanceI64, hadvance, latest, hlatest, _,
      ⟨count, hcount, rfl⟩, h⟩ := h
    refine ⟨count.toNat, ?_, ?_⟩
    · rw [memberships_eq_ok hcount hpos, mul_comm]
      exact le_smul_ceilDiv hpos
    · have hloop := slidingLoop_eq_ok h
      rw [hextent, hadvance, latestStart_eq_ok hlatest, hadvance] at hloop
      exact hloop

/-- The windows of a valid specification for a time are exactly those that hold it, in the order of
    their starts, and a sliding specification looks at no more of them than can hold one time. -/
theorem windowsFor_exact (hvalid : spec.validate = .ok ())
    (h : spec.windowsFor eventTime = .ok windows) :
    ((∃ start, spec.Holds eventTime.toInt start) → windows ≠ []) ∧
    windows.Pairwise (fun a b => a.start < b.start) ∧
    (∀ start end_ : Int, (start, end_) ∈ windows.map bounds ↔
      end_ = start + spec.extent.toNat ∧ spec.Holds eventTime.toInt start) ∧
    ∀ offsets, slidingOffsets spec.extent spec.advance = .ok offsets →
      offsets.length ≤ spec.extent.toNat ⌈/⌉ spec.advance.toNat := by
  have hpos := advance_pos hvalid
  have hwidth : (0 : Int) < spec.advance.toNat := by exact_mod_cast hpos
  obtain ⟨count, henough, hbounds⟩ := windowsFor_bounds hvalid h
  have hcount : (spec.extent.toNat : Int) ≤ count * spec.advance.toNat := by exact_mod_cast henough
  have hmem (start end_ : Int) : (start, end_) ∈ windows.map bounds ↔
      end_ = start + spec.extent.toNat ∧ spec.Holds eventTime.toInt start := by
    rw [hbounds, mem_windowsAt]
    constructor
    · rintro ⟨hstart, hend, hnonneg, hstarted, hopen⟩
      have haligned := (mem_lastStarts_iff _ _ hwidth hcount hopen).mp hstart
      exact ⟨hend, hnonneg, haligned.1, hstarted, hopen⟩
    · rintro ⟨hend, hnonneg, haligned, hstarted, hopen⟩
      have hstart := (mem_lastStarts_iff _ _ hwidth hcount hopen).mpr ⟨haligned, hstarted⟩
      exact ⟨hstart, hend, hnonneg, hstarted, hopen⟩
  refine ⟨?_, ?_, hmem, ?_⟩
  · rintro ⟨start, hholds⟩ rfl
    simpa using (hmem start _).mpr ⟨rfl, hholds⟩
  · have hsorted := windowsAt_pairwise eventTime.toInt spec.extent.toNat
      (lastStarts_pairwise spec.anchor.toInt eventTime.toInt hwidth count)
    rw [← hbounds, pairwise_map] at hsorted
    exact hsorted.imp fun hlt => Int64.lt_iff_toInt_lt.mpr hlt
  · intro offsets hoffsets
    simp only [slidingOffsets, bind_eq_ok, pure_eq_ok] at hoffsets
    obtain ⟨count, hcount, rfl⟩ := hoffsets
    rw [length_reverse, length_range, memberships_eq_ok hcount hpos]

/-- Three starts are within reach of the time 8, and the one before zero is left out. -/
theorem windowsFor_before_zero :
    ∃ windows, (sliding 10 4 3).windowsFor 8 = .ok windows ∧
      windows.map bounds = [(3, 13), (7, 17)] ∧
      windows.Pairwise (fun a b => a.start < b.start) := by
  have hrun : ((sliding 10 4 3).windowsFor 8).map (List.map bounds) =
      .ok [(3, 13), (7, 17)] := by decide +kernel
  obtain ⟨windows, hwindows, hbounds⟩ := map_eq_ok.mp hrun
  exact ⟨windows, hwindows, hbounds, (windowsFor_exact (by decide +kernel) hwindows).2.1⟩

end TimeWindowSpec

end CryptoIntelligence.Features
