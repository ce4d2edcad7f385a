/-
  The order of a path's frames: offsets rise by one cadence from zero, and what is known does not
  regress. So the frames known by a time come first, and the frames within a horizon do.
-/
import CryptoIntelligence.Labels.Path

namespace CryptoIntelligence.Labels

open Lib List

variable {F : Type} {ops : FloatOps F} {cadence : UInt64} {frames : List (MarketFrame ops)}

theorem follows_iff {a b : MarketFrame ops} : follows cadence a b = true ↔
    a.offsetSeconds.toNat + cadence.toNat = b.offsetSeconds.toNat
      ∧ a.knownAtOffsetSeconds ≤ b.knownAtOffsetSeconds := by
  simp [follows]

/-- Earlier, and known no later. -/
def MarketFrame.Before (a b : MarketFrame ops) : Prop :=
  a.offsetSeconds < b.offsetSeconds ∧ a.knownAtOffsetSeconds ≤ b.knownAtOffsetSeconds

instance : Trans (@MarketFrame.Before F ops) (@MarketFrame.Before F ops)
    (@MarketFrame.Before F ops) where
  trans hab hbc := ⟨UInt64.lt_trans hab.1 hbc.1, UInt64.le_trans hab.2 hbc.2⟩

/-- Frames one cadence apart, from offset zero on. -/
structure Spaced (cadence : UInt64) (frames : List (MarketFrame ops)) : Prop where
  nonzero : cadence ≠ 0
  head : ∀ frame ∈ frames.head?, frame.offsetSeconds = 0 ∧ frame.knownAtOffsetSeconds = 0
  chain : frames.IsChain fun a b => follows cadence a b = true

theorem validateChronology_eq_ok (h : validateChronology frames = .ok ()) :
    frames.length ≤ maximumPathFrames ∧ ∃ cadence, Spaced cadence frames := by
  match frames with
  | [] => cases h
  | [_] => cases h
  | first :: second :: rest =>
    simp only [validateChronology, bind_eq_ok, reject_eq_ok, not_or, Bool.not_eq_true,
      anyNeighbours_eq_false, exists_const] at h
    obtain ⟨hlength, hoffset, hknown, hcadence, hchain⟩ := h
    refine ⟨by omega, second.offsetSeconds, hcadence, ?_, ?_⟩
    · intro frame hframe
      cases hframe
      exact ⟨not_not.mp hoffset, not_not.mp hknown⟩
    · exact hchain.imp fun a b h => by simpa using h

theorem Spaced.pairwise (h : Spaced cadence frames) : frames.Pairwise MarketFrame.Before := by
  refine isChain_iff_pairwise.mp (h.chain.imp fun a b hab => ?_)
  obtain ⟨hoffset, hknown⟩ := follows_iff.mp hab
  have hpos : cadence.toNat ≠ 0 :=
    fun hzero => h.nonzero (UInt64.toNat_inj.mp (by simpa using hzero))
  exact ⟨UInt64.lt_iff_toNat_lt.mpr (by omega), hknown⟩

/-! ## The frames of a path -/

namespace LabelPath

variable (path : LabelPath ops)

theorem exists_spaced : ∃ cadence, Spaced cadence path.frames :=
  (validateChronology_eq_ok path.ordered).2

theorem pairwise_frames : path.frames.Pairwise MarketFrame.Before := by
  obtain ⟨cadence, hspaced⟩ := path.exists_spaced
  exact hspaced.pairwise

theorem head?_frames : path.frames.head? = some path.origin := head?_eq_some_head _

theorem origin_start : path.origin.offsetSeconds = 0 ∧ path.origin.knownAtOffsetSeconds = 0 := by
  obtain ⟨cadence, hspaced⟩ := path.exists_spaced
  exact hspaced.head path.origin path.head?_frames

theorem origin_front : [path.origin] <+: path.frames := by
  obtain ⟨rest, hrest⟩ := head?_eq_some_iff.mp path.head?_frames
  exact ⟨rest, hrest.symm⟩

end LabelPath

/-! ## What is known by a time -/

def knownBy (time : UInt64) (frames : List (MarketFrame ops)) : List (MarketFrame ops) :=
  frames.filter fun frame => frame.knownAtOffsetSeconds ≤ time

/-- The paths agree on every frame known by the time. -/
def AgreeUpTo (time : UInt64) (p q : LabelPath ops) : Prop :=
  knownBy time p.frames = knownBy time q.frames

theorem LabelPath.knownBy_front (path : LabelPath ops) (time : UInt64) :
    knownBy time path.frames <+: path.frames := by
  have hdown : path.frames.Pairwise fun a b => decide (b.knownAtOffsetSeconds ≤ time) = true →
      decide (a.knownAtOffsetSeconds ≤ time) = true := by
    refine path.pairwise_frames.imp fun hab hb => ?_
    simp only [decide_eq_true_eq] at hb ⊢
    exact UInt64.le_trans hab.2 hb
  obtain ⟨later, hsplit, -⟩ := exists_eq_filter_append hdown
  exact ⟨later, hsplit.symm⟩

/-- A path that agrees with another starts with the frames the other started with. -/
theorem AgreeUpTo.starts {time : UInt64} {p q : LabelPath ops} (h : AgreeUpTo time p q)
    (hfront : frames <+: p.frames) (hknown : ∀ frame ∈ frames, frame.knownAtOffsetSeconds ≤ time) :
    frames <+: q.frames := by
  have hfilter : knownBy time frames = frames :=
    filter_eq_self.mpr fun frame hmem => by simpa using hknown frame hmem
  have hstart : frames <+: knownBy time p.frames := by
    rw [← hfilter]
    exact hfront.filter _
  rw [h] at hstart
  exact hstart.trans (q.knownBy_front time)

/-! ## Within a horizon -/

variable {later : List (MarketFrame ops)} {horizon : UInt64}

theorem withinHorizon_append (hwithin : ∀ frame ∈ frames, frame.offsetSeconds ≤ horizon) :
    withinHorizon horizon (frames ++ later) = frames ++ withinHorizon horizon later :=
  takeWhile_append_of_pos (by simpa using hwithin)

/-- Frames beyond the horizon do not matter. -/
theorem withinHorizon_append_beyond (hwithin : ∀ frame ∈ frames, frame.offsetSeconds ≤ horizon)
    (hbeyond : ∀ frame ∈ later.head?, horizon < frame.offsetSeconds) :
    withinHorizon horizon (frames ++ later) = frames := by
  rw [withinHorizon_append hwithin]
  cases later with
  | nil => exact append_nil _
  | cons frame rest =>
    have hnone : withinHorizon horizon (frame :: rest) = [] :=
      takeWhile_cons_of_neg (by simpa using hbeyond frame rfl)
    rw [hnone, append_nil]

end CryptoIntelligence.Labels
