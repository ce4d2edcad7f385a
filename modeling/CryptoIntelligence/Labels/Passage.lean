/-
  What the search for a lasting passage finds, in terms of the frames. A frame can be used if it
  counts, has a price and shows what the condition asks for; the search ends with the first frame
  that cannot be used, or with which the condition has held for the minimum duration, or else with
  the last frame within the horizon.

  `ShownBy` says of the first frames of a path that they alone show the outcome:
  `ShownBy.firstPersistentPassage` is that every path which starts with them has one evaluation, and
  that it is reported as known no earlier than they are.
-/
import CryptoIntelligence.Labels.Chronology

namespace CryptoIntelligence.Labels

open Lib List

variable {F : Type} {ops : FloatOps F}

namespace PassageQuery

variable {query : PassageQuery ops} {s s' : PassageState} {frame last : MarketFrame ops}
  {front frames : List (MarketFrame ops)} {evaluation : FirstPassageEvaluation}

/-! ## Frames that end the search -/

/-- The frame counts, has a price and shows what the condition asks for. -/
structure Usable (query : PassageQuery ops) (frame : MarketFrame ops) : Prop where
  trustworthy : frame.isTrustworthyAt query.horizonSeconds query.minimumQualityMillionths
    query.minimumSourceCoverageMillionths = true
  priced : frame.price.isSome = true
  shows : (query.condition frame).isSome = true

/-- With the frame the condition has held for the minimum duration: from some frame on, this long
    ago, it holds in all frames. -/
def Completes (query : PassageQuery ops) (front : List (MarketFrame ops))
    (frame : MarketFrame ops) : Prop :=
  ∃ first ∈ front ++ [frame],
    (∀ a ∈ front ++ [frame], first.offsetSeconds ≤ a.offsetSeconds →
      query.condition a = some true)
    ∧ first.offsetSeconds.toNat + query.minimumDurationSeconds.toNat ≤ frame.offsetSeconds.toNat

/-- The frames can be used, and none of them completes the passage. -/
inductive Open (query : PassageQuery ops) : List (MarketFrame ops) → Prop
  | nil : Open query []
  | concat {front : List (MarketFrame ops)} {frame : MarketFrame ops} (before : Open query front)
      (usable : query.Usable frame) (incomplete : ¬ query.Completes front frame) :
      Open query (front ++ [frame])

theorem Usable.counts (h : query.Usable frame) :
    ¬ (frame.isTrustworthyAt query.horizonSeconds query.minimumQualityMillionths
      query.minimumSourceCoverageMillionths = false ∨ frame.price.isNone = true) := by
  rw [not_or, Bool.not_eq_false, Bool.not_eq_true, Option.isNone_eq_false_iff]
  exact ⟨h.trustworthy, h.priced⟩

theorem Completes.condition (h : query.Completes front frame) :
    query.condition frame = some true := by
  obtain ⟨first, -, hall, hduration⟩ := h
  exact hall frame (by simp) (UInt64.le_iff_toNat_le.mpr (by omega))

/-! ## The variables of the loop -/

def start : PassageState := ⟨none, none, 0⟩

/-- The loop holds the offset of the first frame since which the condition holds. -/
structure Tracks (query : PassageQuery ops) (frames : List (MarketFrame ops)) (s : PassageState) :
    Prop where
  holds : ∀ first ∈ s.runStart, (∃ a ∈ frames, a.offsetSeconds = first)
    ∧ ∀ a ∈ frames, first ≤ a.offsetSeconds → query.condition a = some true
  least : ∀ a ∈ frames, (∀ b ∈ frames, a.offsetSeconds ≤ b.offsetSeconds →
    query.condition b = some true) → ∃ first ∈ s.runStart, first ≤ a.offsetSeconds
  observed : ∀ last ∈ frames.getLast?, s.lastTrustworthy = some last.offsetSeconds
    ∧ s.lastKnownAt = last.knownAtOffsetSeconds
  unread : frames = [] → s.lastKnownAt = 0

theorem tracks_start : query.Tracks [] start where
  holds := by simp [start]
  least := by simp
  observed := by simp
  unread _ := rfl

/-- The loop's own test for a lasting passage. -/
theorem Tracks.completes_iff (h : query.Tracks front s)
    (hbefore : ∀ a ∈ front, a.Before frame) (htrue : query.condition frame = some true) :
    query.Completes front frame ↔ query.minimumDurationSeconds.toNat
      ≤ frame.offsetSeconds.toNat - (s.runStart.getD frame.offsetSeconds).toNat := by
  constructor
  · rintro ⟨first, hmem, hall, hduration⟩
    rcases mem_append.mp hmem with hfront | hframe
    · obtain ⟨least, hleast, hle⟩ :=
        h.least first hfront fun b hb => hall b (mem_append_left _ hb)
      rw [hleast, Option.getD_some]
      have := UInt64.le_iff_toNat_le.mp hle
      omega
    · rw [mem_singleton.mp hframe] at hduration
      omega
  · intro hduration
    cases hrun : s.runStart with
    | none =>
      refine ⟨frame, by simp, fun a ha hle => ?_, ?_⟩
      · rcases mem_append.mp ha with hfront | hframe
        · exact absurd (hbefore a hfront).1 (UInt64.not_lt.mpr hle)
        · rw [mem_singleton.mp hframe]
          exact htrue
      · rw [hrun, Option.getD_none] at hduration
        omega
    | some least =>
      obtain ⟨⟨first, hfirst, hoffset⟩, hall⟩ := h.holds least hrun
      refine ⟨first, mem_append_left _ hfirst, fun a ha hle => ?_, ?_⟩
      · rcases mem_append.mp ha with hfront | hframe
        · exact hall a hfront (hoffset ▸ hle)
        · rw [mem_singleton.mp hframe]
          exact htrue
      · have hlt := UInt64.lt_iff_toNat_lt.mp (hbefore first hfirst).1
        rw [hrun, Option.getD_some, ← hoffset] at hduration
        omega

/-- A frame that neither ends the search nor completes the passage. -/
theorem Tracks.observe (h : query.Tracks front s) (hbefore : ∀ a ∈ front, a.Before frame)
    (husable : query.Usable frame) (hopen : ¬ query.Completes front frame) :
    ∃ s', query.observe s frame = .ok s' ∧ query.Tracks (front ++ [frame]) s' := by
  have hlast : ∀ r : Option UInt64, ∀ last ∈ (front ++ [frame]).getLast?,
      (⟨r, some frame.offsetSeconds, frame.knownAtOffsetSeconds⟩ : PassageState).lastTrustworthy
          = some last.offsetSeconds
        ∧ frame.knownAtOffsetSeconds = last.knownAtOffsetSeconds := by
    intro r last hmem
    rw [getLast?_concat] at hmem
    cases hmem
    exact ⟨rfl, rfl⟩
  obtain ⟨shown, hshown⟩ := Option.isSome_iff_exists.mp husable.shows
  unfold PassageQuery.observe
  rw [if_neg husable.counts, hshown]
  cases shown with
  | false =>
    refine ⟨_, rfl, by simp, fun a ha hall => ?_, hlast none, by simp⟩
    have hle : a.offsetSeconds ≤ frame.offsetSeconds :=
      forall_mem_concat.mpr ⟨fun b hb => UInt64.le_of_lt (hbefore b hb).1, UInt64.le_refl _⟩ a ha
    cases hshown.symm.trans (hall frame (by simp) hle)
  | true =>
    have hshort := mt (h.completes_iff hbefore hshown).mpr hopen
    refine ⟨_, if_neg hshort, ?_, ?_, hlast _, by simp⟩
    · intro first hfirst
      obtain rfl := Option.some.inj hfirst
      refine ⟨?_, forall_mem_concat.mpr ⟨fun a ha hle => ?_, fun _ => hshown⟩⟩
      · cases hrun : s.runStart with
        | none => exact ⟨frame, by simp, rfl⟩
        | some least =>
          obtain ⟨⟨first, hmem, hoffset⟩, -⟩ := h.holds least hrun
          exact ⟨first, mem_append_left _ hmem, hoffset⟩
      · cases hrun : s.runStart with
        | none =>
          rw [hrun] at hle
          exact absurd (hbefore a ha).1 (UInt64.not_lt.mpr hle)
        | some least =>
          rw [hrun] at hle
          exact (h.holds least hrun).2 a ha hle
    · intro a ha hall
      refine ⟨_, rfl, ?_⟩
      rcases mem_append.mp ha with hfront | hframe
      · obtain ⟨least, hleast, hle⟩ :=
          h.least a hfront fun b hb => hall b (mem_append_left _ hb)
        rw [hleast]
        exact hle
      · rw [mem_singleton.mp hframe]
        cases hrun : s.runStart with
        | none => exact UInt64.le_refl _
        | some least =>
          obtain ⟨⟨first, hmem, hoffset⟩, -⟩ := h.holds least hrun
          rw [Option.getD_some, ← hoffset]
          exact UInt64.le_of_lt (hbefore first hmem).1

theorem Tracks.observe_occurred (h : query.Tracks front s) (hbefore : ∀ a ∈ front, a.Before frame)
    (husable : query.Usable frame) (hcomplete : query.Completes front frame) :
    query.observe s frame = .error
      ⟨.occurred (s.runStart.getD frame.offsetSeconds), frame.knownAtOffsetSeconds⟩ := by
  have htrue := hcomplete.condition
  unfold PassageQuery.observe
  rw [if_neg husable.counts, htrue]
  exact if_pos ((h.completes_iff hbefore htrue).mp hcomplete)

theorem observe_excluded (hineligible : frame.eligibility ≠ .eligible) :
    ∃ reason, query.observe s frame = .error ⟨.excluded reason, frame.knownAtOffsetSeconds⟩ := by
  obtain ⟨reason, hreason⟩ : ∃ reason, frame.eligibility.exclusionReason = some reason := by
    cases heligibility : frame.eligibility with
    | eligible => exact absurd heligibility hineligible
    | _ => exact ⟨_, rfl⟩
  refine ⟨reason, ?_⟩
  unfold PassageQuery.observe
  rw [if_pos (.inl (by simp [MarketFrame.isTrustworthyAt, hineligible])), hreason]

/-- A censored outcome is reported as known when the last counted frame was. -/
theorem observe_censored (heligible : frame.eligibility = .eligible)
    (hunusable : ¬ query.Usable frame) :
    ∃ outcome, query.observe s frame = .error ⟨outcome, s.lastKnownAt⟩ := by
  unfold PassageQuery.observe
  rw [heligible]
  split
  · exact ⟨_, rfl⟩
  case isFalse hcounts =>
    cases hcondition : query.condition frame with
    | none =>
      dsimp only
      split <;> exact ⟨_, rfl⟩
    | some shown =>
      rw [not_or, Bool.not_eq_false, Bool.not_eq_true, Option.isNone_eq_false_iff] at hcounts
      exact absurd ⟨hcounts.1, hcounts.2, by rw [hcondition]; rfl⟩ hunusable

theorem Tracks.lastKnownAt (h : query.Tracks front s) :
    s.lastKnownAt = (front.getLast?.map (·.knownAtOffsetSeconds)).getD 0 := by
  cases hlast : front.getLast? with
  | none => exact h.unread (getLast?_eq_none_iff.mp hlast)
  | some last => exact (h.observed last hlast).2

/-- The loop goes on over open frames. -/
theorem Open.reads (h : query.Open frames) (hordered : frames.Pairwise MarketFrame.Before) :
    ∃ s, frames.foldlM query.observe start = .ok s ∧ query.Tracks frames s := by
  induction h with
  | nil => exact ⟨start, rfl, tracks_start⟩
  | @concat front frame before usable incomplete ih =>
    rw [pairwise_append] at hordered
    obtain ⟨s, hreads, htracks⟩ := ih hordered.1
    obtain ⟨s', hobserve, htracks'⟩ := htracks.observe
      (fun a ha => hordered.2.2 a ha frame mem_cons_self) usable incomplete
    refine ⟨s', ?_, htracks'⟩
    rw [foldlM_append, hreads, ok_bind, foldlM_cons, hobserve]
    rfl

/-! ## Where the search stops -/

theorem firstPersistentPassage_eq (frames : List (MarketFrame ops)) :
    query.firstPersistentPassage frames
      = match (withinHorizon query.horizonSeconds frames).foldlM query.observe start with
        | .error evaluation => evaluation
        | .ok s => query.finish s := rfl

/-- Once the search has stopped at a frame, what follows does not matter. -/
theorem firstPersistentPassage_of_stops {later : List (MarketFrame ops)}
    (hreads : front.foldlM query.observe start = .ok s)
    (hstops : query.observe s frame = .error evaluation)
    (hbefore : ∀ a ∈ front, a.Before frame)
    (hwithin : frame.offsetSeconds ≤ query.horizonSeconds) :
    query.firstPersistentPassage (front ++ [frame] ++ later) = evaluation := by
  have hall : ∀ a ∈ front ++ [frame], a.offsetSeconds ≤ query.horizonSeconds :=
    forall_mem_concat.mpr
      ⟨fun a ha => UInt64.le_trans (UInt64.le_of_lt (hbefore a ha).1) hwithin, hwithin⟩
  rw [firstPersistentPassage_eq, withinHorizon_append hall, foldlM_append, foldlM_append, hreads,
    ok_bind, foldlM_cons, hstops, error_bind, error_bind]

/-- Why the first frames of a path show its outcome. -/
inductive ShownBy (query : PassageQuery ops) (front : List (MarketFrame ops))
    (frame : MarketFrame ops) : Prop
  /-- the passage is complete with the frame -/
  | occurred (within : frame.offsetSeconds ≤ query.horizonSeconds) (usable : query.Usable frame)
      (complete : query.Completes front frame)
  /-- the market is not eligible at the frame -/
  | excluded (within : frame.offsetSeconds ≤ query.horizonSeconds)
      (ineligible : frame.eligibility ≠ .eligible)
  /-- the frame cannot be used, and was known no later than the one before it -/
  | censored (within : frame.offsetSeconds ≤ query.horizonSeconds)
      (eligible : frame.eligibility = .eligible) (unusable : ¬ query.Usable frame)
      (known : frame.knownAtOffsetSeconds
        ≤ (front.getLast?.map (·.knownAtOffsetSeconds)).getD 0)
  /-- no frame within the horizon can follow -/
  | finished (within : frame.offsetSeconds ≤ query.horizonSeconds) (usable : query.Usable frame)
      (incomplete : ¬ query.Completes front frame)
      (final : query.horizonSeconds ≤ frame.offsetSeconds
        ∨ (∃ previous ∈ front.getLast?, query.horizonSeconds.toNat + previous.offsetSeconds.toNat
            < 2 * frame.offsetSeconds.toNat)
        ∨ maximumPathFrames ≤ front.length + 1)

/-- What follows the last frame of a finished search is beyond the horizon. -/
theorem next_beyond {path : LabelPath ops} {next : MarketFrame ops}
    {others : List (MarketFrame ops)} (hframes : path.frames = front ++ [frame] ++ next :: others)
    (hfinal : query.horizonSeconds ≤ frame.offsetSeconds
      ∨ (∃ previous ∈ front.getLast?, query.horizonSeconds.toNat + previous.offsetSeconds.toNat
          < 2 * frame.offsetSeconds.toNat)
      ∨ maximumPathFrames ≤ front.length + 1) :
    query.horizonSeconds < next.offsetSeconds := by
  obtain ⟨hcapacity, cadence, hspaced⟩ := validateChronology_eq_ok path.ordered
  have hchain := hspaced.chain
  rw [hframes, append_assoc, isChain_append] at hchain
  obtain ⟨-, htail, hjoin⟩ := hchain
  have hnext := (follows_iff.mp (isChain_cons_cons.mp htail).1).1
  have hpos : cadence.toNat ≠ 0 :=
    fun hzero => hspaced.nonzero (UInt64.toNat_inj.mp (by simpa using hzero))
  rw [UInt64.lt_iff_toNat_lt]
  rcases hfinal with hend | ⟨previous, hmem, hfar⟩ | hfull
  · have := UInt64.le_iff_toNat_le.mp hend
    omega
  · have := (follows_iff.mp (hjoin previous hmem frame rfl)).1
    omega
  · rw [hframes] at hcapacity
    simp only [length_append, length_cons, length_nil] at hcapacity
    omega

/-- Every path that starts with the frames has one evaluation, known when all of them are. -/
theorem ShownBy.firstPersistentPassage (h : query.ShownBy front frame) (hopen : query.Open front)
    (hordered : (front ++ [frame]).Pairwise MarketFrame.Before) :
    ∃ evaluation, (∀ a ∈ front ++ [frame],
        a.knownAtOffsetSeconds ≤ evaluation.knownAtOffsetSeconds)
      ∧ ∀ path : LabelPath ops, front ++ [frame] <+: path.frames →
        query.firstPersistentPassage path.frames = evaluation := by
  obtain ⟨hfront, -, hbetween⟩ := pairwise_append.mp hordered
  have hbefore : ∀ a ∈ front, a.Before frame := fun a ha => hbetween a ha frame mem_cons_self
  have hknown : ∀ a ∈ front ++ [frame], a.knownAtOffsetSeconds ≤ frame.knownAtOffsetSeconds :=
    forall_mem_concat.mpr ⟨fun a ha => (hbefore a ha).2, UInt64.le_refl _⟩
  obtain ⟨s, hreads, htracks⟩ := hopen.reads hfront
  -- the first three ways stop at the frame
  have hstopped : frame.offsetSeconds ≤ query.horizonSeconds → ∀ evaluation,
      query.observe s frame = .error evaluation → ∀ path : LabelPath ops,
      front ++ [frame] <+: path.frames →
      query.firstPersistentPassage path.frames = evaluation := by
    rintro hwithin evaluation hstops path ⟨later, hlater⟩
    rw [← hlater]
    exact firstPersistentPassage_of_stops hreads hstops hbefore hwithin
  cases h with
  | occurred within usable complete =>
    exact ⟨_, hknown, hstopped within _ (htracks.observe_occurred hbefore usable complete)⟩
  | excluded within ineligible =>
    obtain ⟨reason, hobserve⟩ := observe_excluded ineligible
    exact ⟨_, hknown, hstopped within _ hobserve⟩
  | censored within eligible unusable known =>
    obtain ⟨outcome, hobserve⟩ := observe_censored eligible unusable
    refine ⟨_, fun a ha => ?_, hstopped within _ hobserve⟩
    change _ ≤ s.lastKnownAt
    rw [htracks.lastKnownAt]
    exact UInt64.le_trans (hknown a ha) known
  | finished within usable incomplete final =>
    obtain ⟨s', hobserve, htracks'⟩ := htracks.observe hbefore usable incomplete
    have hall : ∀ a ∈ front ++ [frame], a.offsetSeconds ≤ query.horizonSeconds :=
      forall_mem_concat.mpr
        ⟨fun a ha => UInt64.le_trans (UInt64.le_of_lt (hbefore a ha).1) within, within⟩
    have hat := (htracks'.observed frame getLast?_concat).2
    refine ⟨query.finish s', fun a ha => ?_, ?_⟩
    · change _ ≤ s'.lastKnownAt
      rw [hat]
      exact hknown a ha
    · rintro path ⟨later, hlater⟩
      have hbeyond : ∀ next ∈ later.head?, query.horizonSeconds < next.offsetSeconds := by
        intro next hnext
        obtain ⟨others, rfl⟩ := head?_eq_some_iff.mp hnext
        exact next_beyond hlater.symm final
      rw [firstPersistentPassage_eq, ← hlater, withinHorizon_append_beyond hall hbeyond,
        foldlM_append, hreads, ok_bind, foldlM_cons, hobserve]
      rfl

end PassageQuery

end CryptoIntelligence.Labels
