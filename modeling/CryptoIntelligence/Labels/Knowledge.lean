/-
  When the outcome of a label is known. An evaluation reports the time at which its outcome was
  known; the time is sound if no path that agrees on what was known then has another outcome.

  It is not always sound. A censored outcome is reported as known when the last counted frame was,
  though the frame after it decided; and corroboration and confidence are asked of all frames up to
  the horizon, whenever they were known. `Shown` is what the frames must show for the time to be
  sound: a frame with which the passage ends was known by the reported time, and so were the frames
  with the sources and the confidence the rule asks for.
-/
import CryptoIntelligence.Labels.Passage
import CryptoIntelligence.Labels.Screening

namespace CryptoIntelligence.Labels

open Lib List

variable {F : Type} {ops : FloatOps F}

/-- The first frames of the path show its outcome: the origin fails, or these frames corroborate
    what the rule asks for and the search ends with the last of them (with the origin, if the origin
    lacks what the rule reads from it). -/
def LabelEngine.Shown (engine : LabelEngine F) (path : LabelPath ops) (horizon : UInt64) : Prop :=
  engine.OriginFails path.origin horizon
    ∨ ∃ front frame, front ++ [frame] <+: path.frames
      ∧ engine.Corroborated horizon (front ++ [frame])
      ∧ match engine.asks path.origin with
        | none => front = []
        | some condition => (engine.query horizon condition).Open front
          ∧ (engine.query horizon condition).ShownBy front frame

namespace LabelEngine

variable {engine : LabelEngine F} {horizon : UInt64} {p q : LabelPath ops}

/-- A path that agrees up to the time of the verdict has the same verdict. -/
theorem Shown.verdict_eq (h : engine.Shown p horizon)
    (hagree : AgreeUpTo (engine.verdict p.origin p.frames horizon).knownAtOffsetSeconds p q) :
    engine.verdict q.origin q.frames horizon = engine.verdict p.origin p.frames horizon := by
  have horigin : ∀ time, AgreeUpTo time p q → [p.origin] <+: q.frames := by
    intro time hagree
    refine hagree.starts p.origin_front fun a ha => ?_
    rw [mem_singleton.mp ha, p.origin_start.2]
    exact UInt64.zero_le
  have hsame : q.origin = p.origin := by
    obtain ⟨rest, hrest⟩ := horigin _ hagree
    have hhead := q.head?_frames
    rw [← hrest] at hhead
    exact (Option.some.inj hhead).symm
  by_cases hfails : engine.OriginFails p.origin horizon
  · obtain ⟨reason, hreason⟩ := hfails.condition_eq_error
    rw [verdict, verdict, hsame, hreason, hreason]
  obtain ⟨front, frame, hfront, hcorroborated, hends⟩ := h.resolve_left hfails
  have hasked : ∀ path : LabelPath ops, front ++ [frame] <+: path.frames →
      engine.condition p.origin path.frames horizon
        = required (engine.asks p.origin) .missingEvidence := fun path hpath =>
    condition_eq hfails (hcorroborated.admitted hpath)
  cases hcondition : engine.asks p.origin with
  | none =>
    rw [hcondition] at hends hasked
    obtain rfl : front = [] := hends
    have hfirst : frame = p.origin := by
      obtain ⟨later, hlater⟩ := hfront
      have hhead := p.head?_frames
      rw [← hlater] at hhead
      exact Option.some.inj hhead
    subst hfirst
    rw [verdict, verdict, hsame, hasked p hfront, hasked q (horigin _ hagree)]
    rfl
  | some condition =>
    rw [hcondition] at hends hasked
    obtain ⟨hopen, hshown⟩ := hends
    obtain ⟨evaluation, hknown, hevery⟩ :=
      hshown.firstPersistentPassage hopen (p.pairwise_frames.sublist hfront.sublist)
    have hverdict : engine.verdict p.origin p.frames horizon = evaluation := by
      rw [verdict, hasked p hfront]
      exact hevery p hfront
    rw [hverdict] at hagree ⊢
    have hfront' := hagree.starts hfront hknown
    rw [verdict, hsame, hasked q hfront']
    exact hevery q hfront'

end LabelEngine

/-- The fixture for a fall by five hundredths. -/
def fixtureEngine : LabelEngine Int := ⟨downsideFixture 5⟩

def fixturePath (frames : List (MarketFrame hundredths))
    (ordered : validateChronology frames = .ok ()) : LabelPath hundredths :=
  ⟨"unbound_fixture", 1, "unbound_fixture_episode", false, frames, by decide +kernel, ordered⟩

/-- The price falls far enough after two minutes. -/
def fallingPath : LabelPath hundredths :=
  fixturePath [⟨.ofPrice 0 10000, rfl⟩, ⟨.ofPrice 60 9900, rfl⟩, ⟨.ofPrice 120 9400, rfl⟩] rfl

/-- The source is unhealthy after two minutes. -/
def censoredPath : LabelPath hundredths :=
  fixturePath [⟨.ofPrice 0 10000, rfl⟩, ⟨.ofPrice 60 9900, rfl⟩,
    ⟨{ MarketFrameInput.ofPrice 120 9800 with sourceHealth := .unhealthy }, rfl⟩] rfl

def noHash : Bytes → Bytes := fun _ => []

/-- What the fixture says of a path; the hashes are left out. -/
def fixtureEvaluation (outcome : LabelOutcome) (known : UInt64) : LabelEvaluation :=
  ⟨outcome, 180, known, 1000000, 1000000, [], [], "unbound_fixture", 1, "unbound_fixture_episode",
    false⟩

/-- The frames of the falling path show the fall, the last of them completes it. -/
theorem fallingPath_shown : fixtureEngine.Shown fallingPath 180 := by
  let query : PassageQuery hundredths := fixtureEngine.query 180 (downsideCondition 10000 5)
  have hshort : ∀ front frame, query.condition frame = some false → ¬ query.Completes front frame :=
    fun front frame hfalse hcomplete => by cases hfalse.symm.trans hcomplete.condition
  refine .inr ⟨[⟨.ofPrice 0 10000, rfl⟩, ⟨.ofPrice 60 9900, rfl⟩], ⟨.ofPrice 120 9400, rfl⟩,
    ⟨[], rfl⟩, ⟨.inl rfl, .inl rfl⟩, ?_⟩
  change query.Open (([] ++ [⟨.ofPrice 0 10000, rfl⟩]) ++ [⟨.ofPrice 60 9900, rfl⟩])
    ∧ query.ShownBy [⟨.ofPrice 0 10000, rfl⟩, ⟨.ofPrice 60 9900, rfl⟩] ⟨.ofPrice 120 9400, rfl⟩
  refine ⟨.concat (.concat .nil ⟨rfl, rfl, rfl⟩ ?_) ⟨rfl, rfl, rfl⟩ ?_,
    .occurred (by decide) ⟨rfl, rfl, rfl⟩ ⟨⟨.ofPrice 120 9400, rfl⟩, by simp, ?_, by decide⟩⟩
  · exact hshort _ _ rfl
  · exact hshort _ _ rfl
  · refine forall_mem_concat.mpr ⟨forall_mem_cons.mpr ⟨fun hle => ?_, ?_⟩, fun _ => rfl⟩
    · exact absurd hle (by decide)
    · exact forall_mem_singleton.mpr fun hle => absurd hle (by decide)

end CryptoIntelligence.Labels
