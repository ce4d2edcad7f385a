/-
  What an evaluation asks before it looks for a passage. The origin is asked for by every rule; two
  rules also ask for corroborating sources, and one for confidence, of all frames within the
  horizon. Once one frame has as much of each as the rule asks for, what follows does not matter
  there.
-/
import CryptoIntelligence.Labels.Chronology
import CryptoIntelligence.Labels.Engine

namespace CryptoIntelligence.Labels

open Lib List

variable {F : Type} {ops : FloatOps F}

/-! ## The largest value of a list -/

theorem le_foldl_max (values : List UInt32) (a : UInt32) : a ≤ values.foldl max a := by
  induction values generalizing a with
  | nil => exact UInt32.le_refl a
  | cons b values ih =>
    have h := ih (max a b)
    rw [foldl_cons]
    grind

theorem le_maximumOrZero {values : List UInt32} {value : UInt32} (hmem : value ∈ values) :
    value ≤ maximumOrZero values := by
  obtain ⟨front, later, rfl⟩ := append_of_mem hmem
  rw [maximumOrZero, foldl_append, foldl_cons]
  have h := le_foldl_max later (max (front.foldl max 0) value)
  grind

/-! ## What a rule asks for -/

namespace LabelRule

def minimumSources : LabelRule F → UInt32
  | .liquidityVacuum _ _ _ _ _ sources => sources
  | .liquidationCascade _ _ _ _ _ sources _ => sources
  | _ => 0

def minimumConfidence : LabelRule F → UInt32
  | .liquidationCascade _ _ _ _ _ _ confidence => confidence
  | _ => 0

def priceThreshold : LabelRule F → Option (PriceThreshold F)
  | .downside threshold => some threshold
  | .upside threshold => some threshold
  | .liquidationCascade threshold _ _ _ _ _ _ => some threshold
  | _ => none

end LabelRule

namespace LabelEngine

variable {engine : LabelEngine F} {origin : MarketFrame ops} {horizon : UInt64}
  {frames : List (MarketFrame ops)} {price : F} {p q : LabelPath ops}

/-- The origin does not count, has no price, or gives the rule no threshold. -/
def OriginFails (engine : LabelEngine F) (origin : MarketFrame ops) (horizon : UInt64) : Prop :=
  origin.isTrustworthyAt horizon engine.definition.minimumQualityMillionths
      engine.definition.minimumSourceCoverageMillionths = false
    ∨ origin.price = none
    ∨ ∃ threshold ∈ engine.definition.rule.priceThreshold, priceLogThreshold threshold origin = none

/-- One of the frames is trustworthy and has the sources the rule asks for, and one has the
    confidence. -/
def Corroborated (engine : LabelEngine F) (horizon : UInt64) (frames : List (MarketFrame ops)) :
    Prop :=
  (engine.definition.rule.minimumSources = 0 ∨ ∃ frame ∈ frames, frame.offsetSeconds ≤ horizon
      ∧ frame.isTrustworthyAt horizon engine.definition.minimumQualityMillionths
        engine.definition.minimumSourceCoverageMillionths = true
      ∧ engine.definition.rule.minimumSources ≤ frame.corroboratingSources)
    ∧ (engine.definition.rule.minimumConfidence = 0 ∨ ∃ frame ∈ frames,
      frame.offsetSeconds ≤ horizon
      ∧ engine.definition.rule.minimumConfidence ≤ frame.liquidationConfidenceMillionths)

/-- The frames pass the tests of the rule. -/
def Admitted (engine : LabelEngine F) (horizon : UInt64) (frames : List (MarketFrame ops)) : Prop :=
  engine.definition.rule.minimumSources ≤ engine.maximumTrustworthySources frames horizon
    ∧ engine.definition.rule.minimumConfidence ≤ maximumConfidence frames horizon

theorem mem_withinHorizon {frame : MarketFrame ops} (hmem : frame ∈ p.frames)
    (hwithin : frame.offsetSeconds ≤ horizon) : frame ∈ withinHorizon horizon p.frames := by
  obtain ⟨front, later, hsplit⟩ := append_of_mem hmem
  have hbefore := (pairwise_append.mp (hsplit ▸ p.pairwise_frames)).2.2
  have hfront : ∀ a ∈ front, a.offsetSeconds ≤ horizon := fun a ha =>
    UInt64.le_trans (UInt64.le_of_lt (hbefore a ha frame mem_cons_self).1) hwithin
  rw [hsplit, withinHorizon_append hfront, withinHorizon,
    takeWhile_cons_of_pos (by simpa using hwithin)]
  simp

theorem Corroborated.admitted (h : engine.Corroborated horizon frames)
    (hfront : frames <+: p.frames) : engine.Admitted horizon p.frames := by
  obtain ⟨hsources, hconfidence⟩ := h
  constructor
  · rcases hsources with hzero | ⟨frame, hmem, hwithin, htrusted, hle⟩
    · rw [hzero]
      exact UInt32.zero_le
    · refine UInt32.le_trans hle (le_maximumOrZero (mem_map.mpr ⟨frame, ?_, rfl⟩))
      exact mem_filter.mpr ⟨mem_withinHorizon (hfront.subset hmem) hwithin, htrusted⟩
  · rcases hconfidence with hzero | ⟨frame, hmem, hwithin, hle⟩
    · rw [hzero]
      exact UInt32.zero_le
    · refine UInt32.le_trans hle (le_maximumOrZero (mem_map.mpr ⟨frame, ?_, rfl⟩))
      exact mem_withinHorizon (hfront.subset hmem) hwithin

/-! ## The body of the evaluation -/

/-- What is asked of the frames, once nothing excludes the path. -/
def condition (engine : LabelEngine F) (origin : MarketFrame ops) (frames : List (MarketFrame ops))
    (horizon : UInt64) : Except ExclusionReason (MarketFrame ops → Option Bool) := do
  engine.rulePassage origin frames horizon (← engine.originPrice origin horizon)

/-- The outcome of an evaluation, and when it was known. -/
def verdict (engine : LabelEngine F) (origin : MarketFrame ops) (frames : List (MarketFrame ops))
    (horizon : UInt64) : FirstPassageEvaluation :=
  match engine.condition origin frames horizon with
  | .error reason => ⟨.excluded reason, origin.knownAtOffsetSeconds⟩
  | .ok condition => (engine.query horizon condition).firstPersistentPassage frames

theorem passage_eq : engine.passage origin frames horizon
    = (engine.condition origin frames horizon).map fun condition =>
      (engine.query horizon condition).firstPersistentPassage frames := by
  unfold passage condition
  cases engine.originPrice origin horizon with
  | error reason => rfl
  | ok price =>
    simp only [ok_bind]
    cases engine.rulePassage origin frames horizon price <;> rfl

theorem evaluateAtHorizon_eq_ok {blake3 : Bytes → Bytes} {evaluation : LabelEvaluation}
    (h : engine.evaluateAtHorizon blake3 p horizon = .ok evaluation) :
    horizon ∈ engine.definition.horizonsSeconds
      ∧ (⟨evaluation.outcome, evaluation.outcomeKnownAtOffsetSeconds⟩ : FirstPassageEvaluation)
        = engine.verdict p.origin p.frames horizon := by
  simp only [evaluateAtHorizon, bind_eq_ok, reject_eq_ok, not_not, pure_eq_ok, passage_eq] at h
  obtain ⟨-, hmem, rfl⟩ := h
  refine ⟨hmem, ?_⟩
  unfold verdict
  cases engine.condition p.origin p.frames horizon <;> rfl

theorem labelAtHorizon_eq {blake3 : Bytes → Bytes}
    (hmem : horizon ∈ engine.definition.horizonsSeconds) :
    engine.labelAtHorizon blake3 p horizon
      = .ok (engine.verdict p.origin p.frames horizon).outcome := by
  simp only [labelAtHorizon, evaluateAtHorizon, reject_neg (not_not.mpr hmem), ok_bind, pure_ok,
    passage_eq, verdict]
  cases engine.condition p.origin p.frames horizon <;> rfl

/-! ## How the condition depends on the frames -/

/-- What the rule asks of a frame, if the origin has what the rule reads from it. -/
def asks (engine : LabelEngine F) (origin : MarketFrame ops) :
    Option (MarketFrame ops → Option Bool) :=
  match engine.definition.rule with
  | .downside threshold => do
    return downsideCondition (← origin.price) (← priceLogThreshold threshold origin)
  | .upside threshold => do
    return upsideCondition (← origin.price) (← priceLogThreshold threshold origin)
  | .volatilityExplosion referenceThreshold minimumMultiple =>
    origin.volatility.map fun _ => volatilityCondition referenceThreshold minimumMultiple
  | .liquidityVacuum spread depth cancellation sweepCost resiliency sources => do
    let shown ← (VacuumOrigin.read origin).toOption
    return vacuumCondition shown spread depth cancellation sweepCost resiliency sources
  | .liquidationCascade threshold notional openInterest spread depth sources confidence => do
    let shown ← (CascadeOrigin.read origin (← origin.price)).toOption
    return cascadeCondition shown (← priceLogThreshold threshold origin) notional openInterest
      spread depth sources confidence

theorem originPrice_of_not_fails (h : ¬ engine.OriginFails origin horizon) :
    ∃ price, origin.price = some price ∧ engine.originPrice origin horizon = .ok price := by
  obtain ⟨htrusted, hprice, -⟩ := not_or.mp h |>.imp id not_or.mp
  obtain ⟨price, hsome⟩ := Option.ne_none_iff_exists'.mp hprice
  refine ⟨price, hsome, ?_⟩
  rw [Bool.not_eq_false] at htrusted
  have hparts := htrusted
  simp only [MarketFrame.isTrustworthyAt, Bool.and_eq_true, decide_eq_true_eq] at hparts
  obtain ⟨⟨⟨⟨⟨hfinalized, hhealth⟩, heligible⟩, hknown⟩, -⟩, -⟩ := hparts
  have hzero : origin.isTrustworthyAt horizon 0 0 = true := by
    simp [MarketFrame.isTrustworthyAt, hfinalized, hhealth, heligible, hknown]
  simp [originPrice, eligibleOrigin, heligible, MarketEligibility.exclusionReason, hzero, htrusted,
    hsome, reject_neg]

theorem vacuumOrigin_read_eq (origin : MarketFrame ops) :
    VacuumOrigin.read origin = required (VacuumOrigin.read origin).toOption .missingEvidence := by
  refine eq_required_toOption fun other h => ?_
  simp only [VacuumOrigin.read, bind_eq_error, required_eq_error, reject_eq_error, pure_ok,
    reduceCtorEq, and_false, exists_false, or_false] at h
  grind

theorem cascadeOrigin_read_eq (origin : MarketFrame ops) (price : F) :
    CascadeOrigin.read origin price =
      required (CascadeOrigin.read origin price).toOption .missingEvidence := by
  refine eq_required_toOption fun other h => ?_
  simp only [CascadeOrigin.read, bind_eq_error, required_eq_error, reject_eq_error, pure_ok,
    reduceCtorEq, and_false, exists_false, or_false] at h
  grind

/-- The frames have no part in the condition, once they pass the tests of the rule. -/
theorem condition_eq (horigin : ¬ engine.OriginFails origin horizon)
    (h : engine.Admitted horizon frames) :
    engine.condition origin frames horizon = required (engine.asks origin) .missingEvidence := by
  obtain ⟨hsources, hconfidence⟩ := h
  obtain ⟨price, hprice, hok⟩ := originPrice_of_not_fails horigin
  have hthreshold : ∀ threshold ∈ engine.definition.rule.priceThreshold,
      ∃ value, priceLogThreshold threshold origin = some value := by
    intro threshold hmem
    refine Option.ne_none_iff_exists'.mp fun hnone => horigin ?_
    exact .inr (.inr ⟨threshold, hmem, hnone⟩)
  unfold condition rulePassage asks
  rw [hok, ok_bind, hprice]
  cases hrule : engine.definition.rule with
  | downside threshold =>
    obtain ⟨value, hvalue⟩ := hthreshold threshold (by rw [hrule]; rfl)
    simp only [hvalue]
    rfl
  | upside threshold =>
    obtain ⟨value, hvalue⟩ := hthreshold threshold (by rw [hrule]; rfl)
    simp only [hvalue]
    rfl
  | volatilityExplosion =>
    cases origin.volatility <;> rfl
  | liquidityVacuum =>
    simp only [hrule, LabelRule.minimumSources] at hsources
    dsimp only
    rw [reject_neg (UInt32.not_lt.mpr hsources), ok_bind, vacuumOrigin_read_eq]
    cases (VacuumOrigin.read origin).toOption <;> rfl
  | liquidationCascade threshold =>
    simp only [hrule, LabelRule.minimumSources] at hsources
    simp only [hrule, LabelRule.minimumConfidence] at hconfidence
    obtain ⟨value, hvalue⟩ := hthreshold threshold (by rw [hrule]; rfl)
    dsimp only
    rw [hvalue, reject_neg (UInt32.not_lt.mpr hsources), reject_neg (UInt32.not_lt.mpr hconfidence),
      required_some, ok_bind, ok_bind, ok_bind, cascadeOrigin_read_eq]
    change _ = required ((CascadeOrigin.read origin price).toOption >>= fun shown => _) _
    cases (CascadeOrigin.read origin price).toOption <;> rfl

/-- An origin that fails excludes the path, whatever follows it. -/
theorem OriginFails.condition_eq_error (h : engine.OriginFails origin horizon) :
    ∃ reason, ∀ frames, engine.condition origin frames horizon = .error reason := by
  unfold condition
  cases hprice : engine.originPrice origin horizon with
  | error reason => exact ⟨reason, fun _ => rfl⟩
  | ok price =>
    simp only [originPrice, bind_eq_ok, reject_eq_ok, required_eq_ok, Bool.not_eq_false] at hprice
    obtain ⟨-, -, -, -, -, htrusted, hsome⟩ := hprice
    rcases h with hfails | hfails | ⟨threshold, hmem, hfails⟩
    · rw [htrusted] at hfails
      cases hfails
    · rw [hsome] at hfails
      cases hfails
    · refine ⟨.invalidVolatilityScale, fun frames => ?_⟩
      rw [ok_bind]
      unfold rulePassage
      cases hrule : engine.definition.rule with
      | volatilityExplosion => rw [hrule] at hmem; cases hmem
      | liquidityVacuum => rw [hrule] at hmem; cases hmem
      | _ =>
        rw [hrule] at hmem
        obtain rfl := Option.some.inj hmem
        dsimp only
        rw [hfails]
        rfl

end LabelEngine

end CryptoIntelligence.Labels
