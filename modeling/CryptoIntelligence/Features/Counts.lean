/-
  Windows that close by what they hold (`feature-engine`, `window.rs`): after a number of events, or
  when the amounts add up to a threshold.

  A method returns its state also where it fails, so that "a rejected call changes nothing" is a
  statement about the order of its assignments. `windows_conserve` says what whole runs close: the
  count windows that end at or before the last event, each once and in order, and threshold windows
  that together with the open amount hold every accepted amount once.
-/
import CryptoIntelligence.Lib.Method
import CryptoIntelligence.Lib.Run
import CryptoIntelligence.Decimal.Products
import CryptoIntelligence.Features.TimeWindow

namespace CryptoIntelligence.Features

open Lib Decimal FixedDecimal List

/-! ## Counts of events -/

structure CountWindow where
  index : UInt64
  startEvent : UInt64
  endEvent : UInt64
  deriving DecidableEq

structure EventCountState where
  extent : UInt64
  advance : UInt64
  observed : UInt64
  nextIndex : UInt64
  nonzero : extent ≠ 0 ∧ advance ≠ 0

namespace EventCountState

def tryFromDefinition (definition : WindowDefinition) : Except WindowError EventCountState :=
  match definition.kind, definition.parameter with
  | .eventCount, .eventCount events advance =>
    -- a count is nonzero by its type in the source
    if h : events ≠ 0 ∧ advance.getD events ≠ 0 then do
      reject (events < advance.getD events) .invalidWindowSpec
      return ⟨events, advance.getD events, 0, 0, h⟩
    else .error .invalidWindowSpec
  | _, _ => .error .definitionKindMismatch

def observe : Method EventCountState WindowError (Option CountWindow) := do
  let s ← .get
  let observed ← .lift (required (toU64 (s.observed.toNat + 1)) .arithmeticOverflow)
  if observed < s.extent ∨ (observed - s.extent) % s.advance ≠ 0 then
    .update fun s => { s with observed }
    return none
  else
    let startEvent ← .lift (required
      (if s.extent - 1 ≤ observed then some (observed - (s.extent - 1))
      else none) .arithmeticOverflow)
    let nextIndex ← .lift (required (toU64 (s.nextIndex.toNat + 1)) .arithmeticOverflow)
    .update fun s => { s with observed, nextIndex }
    return some ⟨s.nextIndex, startEvent, observed⟩

abbrev step (s : EventCountState) (_ : Unit) :
    EventCountState × Except WindowError (Option CountWindow) := observe s

/-- The state after a number of events. -/
abbrev run (s : EventCountState) (events : Nat) : EventCountState :=
  runAll step s (List.replicate events ())

/-- The windows that the first events closed, each as its index, first and last event. -/
def closed (s : EventCountState) (events : Nat) : List (Nat × Nat × Nat) :=
  (historyOf step s (List.replicate events ())).filterMap fun call =>
    match call.2 with
    | .ok (some window) =>
      some (window.index.toNat, window.startEvent.toNat, window.endEvent.toNat)
    | _ => none

end EventCountState

/-! ## Sums of amounts -/

inductive ThresholdKind where
  | volume
  | notional
  deriving DecidableEq

structure ThresholdWindow where
  kind : ThresholdKind
  index : UInt64
  total : FixedDecimal
  deriving DecidableEq

structure ThresholdWindowState where
  kind : ThresholdKind
  threshold : FixedDecimal
  accumulated : FixedDecimal
  nextIndex : UInt64

namespace ThresholdWindowState

def noAmount : Except WindowError FixedDecimal :=
  (new 0 zero_inRange 0).mapError .decimal

def start (kind : ThresholdKind) (threshold : FixedDecimal) :
    Except WindowError ThresholdWindowState := do
  reject (threshold.isPositive = false) .invalidThreshold
  return ⟨kind, threshold, ← noAmount, 0⟩

def tryFromDefinition (definition : WindowDefinition) : Except WindowError ThresholdWindowState :=
  match definition.kind, definition.parameter with
  | .volume, .threshold threshold => start .volume threshold
  | .notional, .threshold threshold => start .notional threshold
  | _, _ => .error .definitionKindMismatch

def observe (amount : FixedDecimal) :
    Method ThresholdWindowState WindowError (Option ThresholdWindow) := do
  .lift (reject (amount.isPositive = false) .invalidAmount)
  let s ← .get
  let accumulated ← .lift ((s.accumulated.checkedAdd amount).mapError .decimal)
  if accumulated.cmp s.threshold = .lt then
    .update fun s => { s with accumulated }
    return none
  else
    let nextIndex ← .lift (required (toU64 (s.nextIndex.toNat + 1)) .arithmeticOverflow)
    .update fun s => { s with nextIndex }
    let accumulated' ← .lift noAmount
    .update fun s => { s with accumulated := accumulated' }
    return some ⟨s.kind, s.nextIndex, accumulated⟩

abbrev step (s : ThresholdWindowState) (amount : FixedDecimal) :
    ThresholdWindowState × Except WindowError (Option ThresholdWindow) := observe amount s

abbrev run (s : ThresholdWindowState) (amounts : List FixedDecimal) : ThresholdWindowState :=
  runAll step s amounts

/-- A call with what it returned. -/
abbrev Call := FixedDecimal × Except WindowError (Option ThresholdWindow)

abbrev history (s : ThresholdWindowState) (amounts : List FixedDecimal) : List Call :=
  historyOf step s amounts

/-- The amounts that were not rejected. -/
def accepted (calls : List Call) : List FixedDecimal :=
  calls.filterMap fun call => if call.2.isOk then some call.1 else none

def closed (calls : List Call) : List ThresholdWindow := calls.filterMap fun call =>
  match call.2 with
  | .ok window => window
  | .error _ => none

end ThresholdWindowState

/-! ## One call -/

namespace EventCountState

/-- What one event does. -/
inductive Effect (s : EventCountState) :
    EventCountState × Except WindowError (Option CountWindow) → Prop
  | full {err : WindowError} : s.observed.toNat + 1 = 2 ^ 64 → Effect s (s, .error err)
  | passed {observed : UInt64} : observed.toNat = s.observed.toNat + 1 →
    (∀ k, k * s.advance.toNat + s.extent.toNat ≠ observed.toNat) →
    Effect s ({ s with observed }, .ok none)
  | closed {observed nextIndex startEvent : UInt64} {k : Nat} :
    observed.toNat = s.observed.toNat + 1 → k * s.advance.toNat + s.extent.toNat = observed.toNat →
    startEvent.toNat = k * s.advance.toNat + 1 → nextIndex.toNat = s.nextIndex.toNat + 1 →
    Effect s ({ s with observed, nextIndex }, .ok (some ⟨s.nextIndex, startEvent, observed⟩))

variable {s s₀ : EventCountState}

theorem one_le (s : EventCountState) : 1 ≤ s.extent.toNat ∧ 1 ≤ s.advance.toNat :=
  ⟨Nat.one_le_iff_ne_zero.mpr fun h => s.nonzero.1 (UInt64.toNat_inj.mp h),
    Nat.one_le_iff_ne_zero.mpr fun h => s.nonzero.2 (UInt64.toNat_inj.mp h)⟩

theorem observe_effect (hindex : s.nextIndex.toNat ≤ s.observed.toNat) : Effect s (observe s) := by
  have hextent := s.one_le.1
  suffices h : observe.Yields s fun t r => Effect s (t, r) from h
  refine .get_bind (.lift_bind (fun err herr => ?_) fun observed hobserved => ?_)
  · have hover := toU64_eq_none.mp (required_eq_error.mp herr).1
    have hlt := s.observed.toNat_lt
    exact .full (by omega)
  rw [required_eq_ok, toU64_eq_some] at hobserved
  split
  · rename_i hopen
    refine .passed hobserved fun k hk => ?_
    rw [UInt64.lt_iff_toNat_lt] at hopen
    have hle : s.extent ≤ observed := UInt64.le_iff_toNat_le.mpr (by omega)
    rcases hopen with hlt | hrest
    · omega
    · apply hrest
      rw [← UInt64.toNat_inj, UInt64.toNat_mod, UInt64.toNat_sub_of_le _ _ hle, ← hk,
        Nat.add_sub_cancel]
      exact Nat.mul_mod_left _ _
  · rename_i hclose
    rw [not_or, UInt64.not_lt, not_not, ← UInt64.toNat_inj, UInt64.toNat_mod] at hclose
    obtain ⟨hle, hrest⟩ := hclose
    rw [UInt64.toNat_sub_of_le _ _ hle] at hrest
    have hlast := UInt64.le_iff_toNat_le.mp hle
    obtain ⟨k, hk⟩ := Nat.dvd_of_mod_eq_zero hrest
    have hone : (s.extent - 1).toNat = s.extent.toNat - 1 :=
      UInt64.toNat_sub_of_le _ _ (UInt64.le_iff_toNat_le.mpr hextent)
    have hbefore : s.extent - 1 ≤ observed := UInt64.le_iff_toNat_le.mpr (by omega)
    rw [if_pos hbefore]
    refine .lift_bind (fun err herr => by cases herr) fun startEvent hstart => ?_
    refine .lift_bind (fun err herr => ?_) fun nextIndex hnext => ?_
    · have hover := toU64_eq_none.mp (required_eq_error.mp herr).1
      have hlt := observed.toNat_lt
      omega
    · rw [required_eq_ok, Option.some.injEq] at hstart
      rw [required_eq_ok, toU64_eq_some] at hnext
      rw [Nat.mul_comm] at hk
      refine .closed (k := k) hobserved (by omega) ?_ hnext
      rw [← hstart, UInt64.toNat_sub_of_le _ _ hbefore, hone]
      omega

/-- The windows closed after a number of events are those that end by then. -/
structure Counted (s₀ : EventCountState) (events : Nat) (s : EventCountState) : Prop where
  spec : s.extent = s₀.extent ∧ s.advance = s₀.advance
  observed : s.observed.toNat = min events (2 ^ 64 - 1)
  index : ∀ k, k < s.nextIndex.toNat ↔
    k * s.advance.toNat + s.extent.toNat ≤ s.observed.toNat
  closed : s₀.closed events = (List.range s.nextIndex.toNat).map fun k =>
    (k, k * s₀.advance.toNat + 1, k * s₀.advance.toNat + s₀.extent.toNat)

/-- A step has at least one event, so there are no more windows than events. -/
theorem nextIndex_le {n : Nat}
    (h : ∀ k, k < n ↔ k * s.advance.toNat + s.extent.toNat ≤ s.observed.toNat) :
    n ≤ s.observed.toNat := by
  obtain ⟨hextent, hadvance⟩ := s.one_le
  cases n with
  | zero => exact Nat.zero_le _
  | succ k =>
    have hlast := (h k).mp (Nat.lt_succ_self k)
    have hmul := Nat.le_mul_of_pos_right k hadvance
    omega

theorem closed_succ (s₀ : EventCountState) (events : Nat) :
    s₀.closed (events + 1) = s₀.closed events ++
      match (observe (s₀.run events)).2 with
      | .ok (some window) =>
        [(window.index.toNat, window.startEvent.toNat, window.endEvent.toNat)]
      | _ => [] := by
  rw [closed, replicate_succ', historyOf_concat, filterMap_append, ← closed]
  dsimp only [filterMap_cons, filterMap_nil]
  rcases (observe (s₀.run events)).2 with err | (_ | window) <;> rfl

theorem counted_run (hobserved : s₀.observed = 0) (hindex : s₀.nextIndex = 0) (events : Nat) :
    Counted s₀ events (s₀.run events) := by
  induction events with
  | zero =>
    have hextent := s₀.one_le.1
    refine ⟨⟨rfl, rfl⟩, by simp [runAll, hobserved], fun k => ?_, ?_⟩
    · simp only [run, replicate_zero, runAll, foldl_nil, hindex, hobserved]
      have hzero : (0 : UInt64).toNat = 0 := rfl
      omega
    · simp only [run, replicate_zero, runAll, foldl_nil, hindex]
      rfl
  | succ events ih =>
    have hrun : s₀.run (events + 1) = (observe (s₀.run events)).1 := by
      rw [run, replicate_succ', runAll_concat]
    have hclosed := closed_succ s₀ events
    have heffect := observe_effect (nextIndex_le ih.index)
    rw [hrun]
    generalize observe (s₀.run events) = r at heffect hclosed
    generalize s₀.run events = s at ih heffect
    obtain ⟨⟨hextent, hadvance⟩, hobserved', hindex', hbefore⟩ := ih
    rw [hbefore] at hclosed
    cases heffect with
    | full hfull =>
      refine ⟨⟨hextent, hadvance⟩, ?_, hindex', by simpa using hclosed⟩
      dsimp only
      omega
    | @passed observed hnext hopen =>
      have hlt := observed.toNat_lt
      refine ⟨⟨hextent, hadvance⟩, ?_, fun k => ?_, by simpa using hclosed⟩
      · dsimp only
        omega
      · have hne := hopen k
        rw [hindex']
        dsimp only
        omega
    | @closed observed nextIndex startEvent k hnext hend hstart hcount =>
      have hlt := observed.toNat_lt
      have hadvance' := s.one_le.2
      -- the window that closes is the first that was open
      have hk : k = s.nextIndex.toNat := by
        have hnot : ¬ k < s.nextIndex.toNat := by
          rw [hindex']
          omega
        refine (Nat.lt_or_eq_of_le (not_lt.mp hnot)).elim (fun hlater => ?_) Eq.symm
        have hmul := Nat.mul_le_mul_right s.advance.toNat (Nat.succ_le_of_lt hlater)
        rw [Nat.succ_mul] at hmul
        exact absurd ((hindex' _).mpr (by omega)) (lt_irrefl s.nextIndex.toNat)
      subst hk
      refine ⟨⟨hextent, hadvance⟩, ?_, fun j => ?_, ?_⟩
      · dsimp only
        omega
      · have hmul : j * s.advance.toNat ≤ s.nextIndex.toNat * s.advance.toNat ↔
            j ≤ s.nextIndex.toNat := Nat.mul_le_mul_right_iff hadvance'
        dsimp only
        omega
      · rw [hclosed, hcount, range_succ, map_append]
        dsimp only
        rw [hstart, ← hend, hextent, hadvance]
        rfl

theorem fresh_of_new {definition : WindowDefinition} (h : tryFromDefinition definition = .ok s) :
    s.observed = 0 ∧ s.nextIndex = 0 := by
  unfold tryFromDefinition at h
  split at h
  · split at h
    · simp only [bind_eq_ok, pure_eq_ok] at h
      obtain ⟨_, -, rfl⟩ := h
      exact ⟨rfl, rfl⟩
    · cases h
  · cases h

end EventCountState

namespace ThresholdWindowState

/-- What one amount does. -/
inductive Effect (s : ThresholdWindowState) (amount : FixedDecimal) :
    ThresholdWindowState × Except WindowError (Option ThresholdWindow) → Prop
  | rejected {err : WindowError} : Effect s amount (s, .error err)
  | added {accumulated : FixedDecimal} :
    accumulated.toRat = s.accumulated.toRat + amount.toRat →
    accumulated.toRat < s.threshold.toRat → Effect s amount ({ s with accumulated }, .ok none)
  | closed {total nothing : FixedDecimal} {nextIndex : UInt64} :
    total.toRat = s.accumulated.toRat + amount.toRat → s.threshold.toRat ≤ total.toRat →
    nextIndex.toNat = s.nextIndex.toNat + 1 → nothing.toRat = 0 →
    Effect s amount ({ s with accumulated := nothing, nextIndex },
      .ok (some ⟨s.kind, s.nextIndex, total⟩))

theorem noAmount_eq_ok : ∃ nothing, noAmount = .ok nothing ∧ nothing.toRat = 0 :=
  ⟨_, rfl, by simp [toRat, canonicalized]⟩

theorem observe_effect (s : ThresholdWindowState) (amount : FixedDecimal) :
    Effect s amount (observe amount s) := by
  suffices h : (observe amount).Yields s fun t r => Effect s amount (t, r) from h
  refine .lift_bind (fun _ _ => .rejected) fun _ _ => .get_bind (.lift_bind (fun _ _ => .rejected)
    fun total htotal => ?_)
  have hvalue : total.toRat = s.accumulated.toRat + amount.toRat :=
    (checkedSum_exact s.accumulated amount false).1 total (mapError_eq_ok.mp htotal)
  have hless : total.cmp s.threshold = .lt ↔ total.toRat < s.threshold.toRat := by
    rw [cmp_eq_compare_toRat, compare_lt_iff_lt]
  split
  · rename_i hbelow
    exact .added hvalue (hless.mp hbelow)
  · rename_i hreached
    refine .lift_bind (fun _ _ => .rejected) fun nextIndex hnext => ?_
    obtain ⟨nothing, hnothing, hzero⟩ := noAmount_eq_ok
    rw [required_eq_ok, toU64_eq_some] at hnext
    rw [hnothing]
    exact .closed hvalue (not_lt.mp (mt hless.mpr hreached)) hnext hzero

theorem closed_append (first second : List Call) :
    closed (first ++ second) = closed first ++ closed second := filterMap_append

theorem accepted_append (first second : List Call) :
    accepted (first ++ second) = accepted first ++ accepted second := filterMap_append

/-- What was accepted is in a closed window or open, below the threshold. -/
structure Conserves (s₀ : ThresholdWindowState) (calls : List Call) (s : ThresholdWindowState) :
    Prop where
  spec : s.kind = s₀.kind ∧ s.threshold = s₀.threshold
  positive : 0 < s.threshold.toRat
  total : ((closed calls).map (·.total.toRat)).sum + s.accumulated.toRat =
    ((accepted calls).map (·.toRat)).sum
  below : s.accumulated.toRat < s.threshold.toRat
  index : s.nextIndex.toNat = (closed calls).length

variable {s₀ s : ThresholdWindowState} {definition : WindowDefinition}

theorem Conserves.step {calls : List Call} (h : Conserves s₀ calls s) (amount : FixedDecimal) :
    Conserves s₀ (calls ++ [(amount, (s.step amount).2)]) (s.step amount).1 := by
  have heffect := observe_effect s amount
  obtain ⟨hspec, hpositive, htotal, hbelow, hindex⟩ := h
  rw [ThresholdWindowState.step]
  generalize observe amount s = r at heffect
  cases heffect with
  | @rejected err =>
    have haccepted : accepted [(amount, .error err)] = [] := rfl
    have hclosed : closed [(amount, .error err)] = [] := rfl
    refine ⟨hspec, hpositive, ?_, hbelow, ?_⟩ <;>
      simpa only [closed_append, accepted_append, hclosed, haccepted, append_nil]
  | @added accumulated hvalue hless =>
    have haccepted : accepted [(amount, .ok none)] = [amount] := rfl
    have hclosed : closed [(amount, .ok none)] = [] := rfl
    refine ⟨hspec, hpositive, ?_, hless, ?_⟩ <;>
      simp only [closed_append, accepted_append, hclosed, haccepted, append_nil]
    · rw [hvalue, ← add_assoc, htotal]
      simp
    · exact hindex
  | @closed total nothing nextIndex hvalue hreached hnext hzero =>
    have haccepted : accepted [(amount, .ok (some ⟨s.kind, s.nextIndex, total⟩))] = [amount] := rfl
    have hclosed : closed [(amount, .ok (some ⟨s.kind, s.nextIndex, total⟩))] =
      [⟨s.kind, s.nextIndex, total⟩] := rfl
    refine ⟨hspec, hpositive, ?_, hzero.trans_lt hpositive, ?_⟩ <;>
      simp only [closed_append, accepted_append, hclosed, haccepted]
    · simp only [map_append, sum_append, map_cons, map_nil, sum_singleton,
        hzero, add_zero, hvalue, ← add_assoc, htotal]
    · simp [hnext, hindex]

theorem conserves_start {kind : ThresholdKind} {threshold : FixedDecimal}
    (h : start kind threshold = .ok s) : Conserves s [] s := by
  obtain ⟨nothing, hnothing, hzero⟩ := noAmount_eq_ok
  simp only [start, hnothing, bind_eq_ok, reject_eq_ok, Bool.not_eq_false, pure_eq_ok] at h
  obtain ⟨_, hpositive, _, hsame, rfl⟩ := h
  cases hsame
  have hthreshold : 0 < threshold.toRat := by
    have hmantissa : 0 < threshold.mantissa := of_decide_eq_true hpositive
    exact div_pos (Int.cast_pos.mpr hmantissa) (by positivity)
  exact ⟨⟨rfl, rfl⟩, hthreshold, by simp [closed, accepted, hzero], hzero.trans_lt hthreshold, rfl⟩

theorem conserves_new (h : tryFromDefinition definition = .ok s) : Conserves s [] s := by
  unfold tryFromDefinition at h
  split at h
  · exact conserves_start h
  · exact conserves_start h
  · cases h

theorem conserves_run (h : tryFromDefinition definition = .ok s) (amounts : List FixedDecimal) :
    Conserves s (s.history amounts) (s.run amounts) :=
  run_induction step (Conserves s) (conserves_new h) (fun _ _ amount hs => hs.step amount) amounts

/-- A window closes with the amount that makes it reach the threshold. -/
theorem closed_at (h : tryFromDefinition definition = .ok s) {amounts : List FixedDecimal}
    {before after : List Call} {amount : FixedDecimal} {window : ThresholdWindow}
    (hsplit : s.history amounts = before ++ (amount, .ok (some window)) :: after) :
    window.kind = s.kind ∧ window.index.toNat = (closed before).length ∧
      s.threshold.toRat ≤ window.total.toRat ∧
      window.total.toRat - amount.toRat < s.threshold.toRat := by
  obtain ⟨earlier, rfl, hout⟩ := historyOf_split step hsplit
  obtain ⟨⟨hkind, hthreshold⟩, -, -, hbelow, hindex⟩ := conserves_run h earlier
  have heffect := observe_effect (s.run earlier) amount
  rw [ThresholdWindowState.step] at hout
  generalize observe amount (runAll step s earlier) = r at heffect hout
  cases heffect with
  | rejected => cases hout
  | added _ _ => cases hout
  | closed hvalue hreached _ _ =>
    cases hout
    rw [hthreshold] at hbelow hreached
    exact ⟨hkind, hindex, hreached, by rw [hvalue]; linarith⟩

theorem observe_allOrNothing (s : ThresholdWindowState) (amount : FixedDecimal) :
    (observe amount).AllOrNothing s := by
  intro t err herr
  have heffect := observe_effect s amount
  rw [herr] at heffect
  cases heffect
  rfl

end ThresholdWindowState

theorem EventCountState.observe_allOrNothing {s : EventCountState}
    (h : s.nextIndex.toNat ≤ s.observed.toNat) : observe.AllOrNothing s := by
  intro t err herr
  have heffect := observe_effect h
  rw [herr] at heffect
  cases heffect
  rfl

/-! ## Whole runs -/

/-- Count windows: after any number of events the closed ones are those that end by then, the `k`-th
    over the events from `k * advance + 1` to `k * advance + extent`. Threshold windows: every
    accepted amount is in a closed window or open, and a window closes with the amount that makes
    its total reach the threshold. A rejected call changes nothing. -/
theorem windows_conserve :
    (∀ (definition : WindowDefinition) (s : EventCountState),
      EventCountState.tryFromDefinition definition = .ok s → ∀ events : Nat,
      (∃ count, (∀ k, k < count ↔
          k * s.advance.toNat + s.extent.toNat ≤ min events (2 ^ 64 - 1)) ∧
        s.closed events = (List.range count).map fun k =>
          (k, k * s.advance.toNat + 1, k * s.advance.toNat + s.extent.toNat)) ∧
      EventCountState.observe.AllOrNothing (s.run events)) ∧
    ∀ (definition : WindowDefinition) (s : ThresholdWindowState),
      ThresholdWindowState.tryFromDefinition definition = .ok s → ∀ amounts : List FixedDecimal,
      ((ThresholdWindowState.closed (s.history amounts)).map (·.total.toRat)).sum +
          (s.run amounts).accumulated.toRat =
        ((ThresholdWindowState.accepted (s.history amounts)).map (·.toRat)).sum ∧
      (∀ before amount window after,
        s.history amounts = before ++ (amount, .ok (some window)) :: after →
        window.kind = s.kind ∧ window.index.toNat = (ThresholdWindowState.closed before).length ∧
        s.threshold.toRat ≤ window.total.toRat ∧
        window.total.toRat - amount.toRat < s.threshold.toRat) ∧
      ∀ amount, (ThresholdWindowState.observe amount).AllOrNothing (s.run amounts) := by
  refine ⟨fun definition s hnew events => ?_, fun definition s hnew amounts => ?_⟩
  · obtain ⟨hobserved, hindex⟩ := EventCountState.fresh_of_new hnew
    have hcounted := EventCountState.counted_run hobserved hindex events
    obtain ⟨hextent, hadvance⟩ := hcounted.spec
    refine ⟨⟨_, fun k => ?_, hcounted.closed⟩,
      EventCountState.observe_allOrNothing (EventCountState.nextIndex_le hcounted.index)⟩
    rw [hcounted.index, hcounted.observed, hextent, hadvance]
  · exact ⟨(ThresholdWindowState.conserves_run hnew amounts).total,
      fun _ _ _ _ => ThresholdWindowState.closed_at hnew,
      ThresholdWindowState.observe_allOrNothing _⟩

/-- Six events in windows of three that start every two, and amounts of two with a threshold of
    three. -/
theorem overlapping_windows_conserve :
    (∃ s, EventCountState.tryFromDefinition ⟨"count", .eventCount, .eventCount 3 (some 2)⟩ = .ok s ∧
      s.closed 6 = [(0, 1, 3), (1, 3, 5)]) ∧
    let amount := whole 2 (by decide)
    ∃ s, ThresholdWindowState.tryFromDefinition
        ⟨"volume", .volume, .threshold (.whole 3 (by decide))⟩ = .ok s ∧
      ((ThresholdWindowState.closed (s.history [amount, amount])).map (·.total.toRat)).sum +
          (s.run [amount, amount]).accumulated.toRat =
        ((ThresholdWindowState.accepted (s.history [amount, amount])).map (·.toRat)).sum := by
  refine ⟨⟨_, rfl, ?_⟩, _, rfl, (windows_conserve.2
    ⟨"volume", .volume, .threshold (.whole 3 (by decide))⟩ _ rfl _).1⟩
  obtain ⟨⟨count, hcount, hclosed⟩, -⟩ :=
    windows_conserve.1 ⟨"count", .eventCount, .eventCount 3 (some 2)⟩ _ rfl 6
  have hone := (hcount 1).mpr (by decide)
  have htwo := mt (hcount 2).mp (by decide)
  obtain rfl : count = 2 := by omega
  exact hclosed

end CryptoIntelligence.Features
