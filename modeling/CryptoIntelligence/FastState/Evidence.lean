/-
  The source evidence behind a healthy trigger state.

  Four features say how a source is doing. An observation of one that is expired, or that is present
  and bad, leaves a mark or a flag, and so does a missing one for most reasons; no state with a mark
  is healthy. Staleness and outage that are missing for another reason, or not supplied, leave none.
-/
import CryptoIntelligence.FastState.Trigger

namespace CryptoIntelligence.FastState

open Lib Features Domain Quality Decimal TriggerFeature TriggerStateBuilder Finset

variable {F : Type} {ops : FloatOps F}

/-! ## Evidence -/

/-- The observation is of the feature, about the source. -/
def IsOf (feature : TriggerFeature) (source : SourceId) (observation : FeatureObservation ops) :
    Prop :=
  observation.featureId = feature.id ∧ observation.entity = .source source

/-- No outage and no staleness; of the other features any value will do. -/
def Clears : TriggerFeature → FeatureValue ops → Prop
  | .sourceOutageIndicator, value => value = .boolean false
  | .staleQuoteDurationNs, value => value = .integer 0
  | _, _ => True

namespace TriggerStateBuilder

variable (builder : TriggerStateBuilder ops)

def Unexpired (observation : FeatureObservation ops) : Prop :=
  ∃ definition ∈ builder.registry.get observation.featureId observation.featureVersion,
    builder.expired definition observation = false

/-- The source has a present and unexpired observation of the feature, which clears it. -/
def Contributes (feature : TriggerFeature) (source : SourceId) : Prop :=
  ∃ observation ∈ builder.observations, IsOf feature source observation
    ∧ builder.Unexpired observation ∧ ∃ value, observation.datum = .present value ∧
      Clears feature value

/-- The source has an observation of the feature, and if it is missing, then for a reason that
    leaves a mark. -/
def Accounts (feature : TriggerFeature) (source : SourceId) : Prop :=
  ∃ observation ∈ builder.observations, IsOf feature source observation
    ∧ ∀ reason, observation.datum = .missing reason → markReason reason feature ∅ ≠ ∅

end TriggerStateBuilder

/-! ## One observation -/

theorem ofId?_id (feature : TriggerFeature) : ofId? feature.id = some feature := by
  cases feature <;> decide +kernel

variable {feature : TriggerFeature} {s' : BuildState F} {observation : FeatureObservation ops}
    {marks marks' : Marks} {source : SourceId} {target : TriggerStateTarget}

theorem id_of_ofId? {value : String}
    (h : ofId? value = some feature) : feature.id = value := by
  have hid := List.find?_some h
  exact eq_of_beq hid

theorem claimSlot_eq {s : BuildState F} (h : s.claimSlot feature observation = .ok s') :
    s'.values = s.values ∧ s'.missingness = s.missingness := by
  unfold BuildState.claimSlot at h
  split_ifs at h with hsource hdispersion
  · simp only [bind_eq_ok, pure_eq_ok] at h
    obtain ⟨_, -, _, -, rfl⟩ := h
    exact ⟨rfl, rfl⟩
  · cases h
    exact ⟨rfl, rfl⟩
  · simp only [bind_eq_ok, pure_eq_ok] at h
    obtain ⟨_, -, rfl⟩ := h
    exact ⟨rfl, rfl⟩

/-- What an accepted observation does: it is expired, missing or collected. -/
inductive Observes (builder : TriggerStateBuilder ops) (feature : TriggerFeature)
    (observation : FeatureObservation ops) (s s' : BuildState F) : Prop
  | expired
  (hmarks : s'.missingness = markFeatureMissing feature (insert .expiredInput s.missingness))
      (hvalues : s'.values = s.values)
  | missing (reason : MissingnessReason) (hdatum : observation.datum = .missing reason)
      (hmarks : s'.missingness = markReason reason feature s.missingness)
      (hvalues : s'.values = s.values)
  | present (value : FeatureValue ops) (hdatum : observation.datum = .present value)
      (hunexpired : builder.Unexpired observation)
      (hcollect : collectPresent feature observation s.values s.missingness
        = .ok (s'.values, s'.missingness))

theorem observe_spec {formulaHash : TriggerFeature → List UInt8} {builder : TriggerStateBuilder ops}
    {s : BuildState F}
    (h : builder.observe formulaHash s observation = .ok s') :
    ∃ feature, ofId? observation.featureId = some feature
      ∧ matchesTarget builder.target feature.scope observation.entity = true
      ∧ Observes builder feature observation s s' := by
  simp only [observe, bind_eq_ok, required_eq_ok, reject_eq_ok, validateTarget,
    Bool.not_eq_false] at h
  obtain ⟨feature, hfeature, _, -, _, ⟨_, htarget, -⟩, _, -, claimed, hclaim, definition,
    hdefinition, hrest⟩ := h
  refine ⟨feature, hfeature, htarget, ?_⟩
  obtain ⟨hvalues, hmarks⟩ := claimSlot_eq hclaim
  change claimed.values = s.values at hvalues
  change claimed.missingness = s.missingness at hmarks
  split_ifs at hrest with hexpired
  · cases hrest
    exact .expired (by rw [← hmarks]) hvalues
  · have hunexpired : builder.Unexpired observation :=
      ⟨definition, hdefinition, Bool.eq_false_of_not_eq_true hexpired⟩
    cases hdatum : observation.datum with
    | missing reason =>
      rw [hdatum] at hrest
      cases hrest
      exact .missing reason hdatum (by rw [← hmarks]) hvalues
    | present value =>
      simp only [hdatum, bind_eq_ok, pure_eq_ok] at hrest
      obtain ⟨⟨values, marks⟩, hcollect, rfl⟩ := hrest
      rw [hvalues, hmarks] at hcollect
      exact .present value hdatum hunexpired hcollect

/-! ## The marks of one observation -/

theorem markFeatureMissing_mono (feature : TriggerFeature)
    (h : marks ⊆ marks') :
    markFeatureMissing feature marks ⊆ markFeatureMissing feature marks' := by
  unfold markFeatureMissing
  cases missingOutput? feature with
  | some mark => exact insert_subset_insert mark h
  | none => exact h

theorem subset_markFeatureMissing (feature : TriggerFeature) (marks : Marks) :
    marks ⊆ markFeatureMissing feature marks := by
  unfold markFeatureMissing
  cases missingOutput? feature with
  | some mark => exact subset_insert mark marks
  | none => exact subset_rfl

theorem markReason_mono (reason : MissingnessReason) (feature : TriggerFeature)
    (h : marks ⊆ marks') : markReason reason feature marks ⊆ markReason reason feature marks' := by
  apply markFeatureMissing_mono
  cases reason <;> dsimp only <;> try split_ifs
  all_goals first
    | exact h
    | exact insert_subset_insert _ h

theorem subset_markReason (reason : MissingnessReason) (feature : TriggerFeature) (marks : Marks) :
    marks ⊆ markReason reason feature marks := by
  refine subset_trans ?_ (subset_markFeatureMissing feature _)
  cases reason <;> dsimp only <;> try split_ifs
  all_goals first
    | exact subset_rfl
    | exact subset_insert _ marks

/-- What the collection of a value leaves of the source evidence. -/
structure Collects (feature : TriggerFeature) (observation : FeatureObservation ops)
    (values values' : TriggerInputs F) (marks marks' : Marks) : Prop where
  marks : marks ⊆ marks'
  stale : values'.staleQuoteDetected = false → values.staleQuoteDetected = false
  outage : values'.sourceOutageDetected = false → values.sourceOutageDetected = false
  clears : values'.staleQuoteDetected = false → values'.sourceOutageDetected = false →
    ∀ value, observation.datum = .present value → Clears feature value
  complete : ∀ source ∈ values'.completeLiquidationSources,
    source ∈ values.completeLiquidationSources
    ∨ feature = .liquidationSourceCompletenessFlag ∧ observation.entity = .source source

theorem integerValue_eq_ok {n : Int64} (h : integerValue observation feature = .ok n) :
    observation.datum = .present (.integer n) := by
  unfold integerValue at h
  split at h
  · next value hdatum =>
    cases h
    exact hdatum
  · cases h

theorem booleanValue_eq_ok {b : Bool} (h : booleanValue observation feature = .ok b) :
    observation.datum = .present (.boolean b) := by
  unfold booleanValue at h
  split at h
  · next value hdatum =>
    cases h
    exact hdatum
  · cases h

theorem sourceOf_eq_ok
    (h : sourceOf observation = .ok source) : observation.entity = .source source := by
  unfold sourceOf at h
  split at h
  · next value hentity =>
    cases h
    exact hentity
  · cases h

theorem collectPresent_collects {values values' : TriggerInputs F}
    (h : collectPresent feature observation values marks = .ok (values', marks')) :
    Collects feature observation values values' marks marks' := by
  cases feature
  case liquidationSourceCompletenessFlag =>
    simp only [collectPresent, bind_eq_ok, reject_eq_ok] at h
    obtain ⟨class_, -, _, -, hclass⟩ := h
    split_ifs at hclass with hcomplete
    · simp only [bind_eq_ok, pure_eq_ok, Prod.mk.injEq] at hclass
      obtain ⟨source, hsource, rfl, rfl⟩ := hclass
      exact ⟨subset_rfl, id, id, fun _ _ _ _ => trivial,
        forall_mem_concat.mpr ⟨fun _ => .inl, .inr ⟨rfl, sourceOf_eq_ok hsource⟩⟩⟩
    · simp only [pure_eq_ok, Prod.mk.injEq] at hclass
      obtain ⟨rfl, rfl⟩ := hclass
      exact ⟨subset_insert _ _, id, id, fun _ _ _ _ => trivial, fun _ => .inl⟩
  case staleQuoteDurationNs =>
    simp only [collectPresent, bind_eq_ok, reject_eq_ok, pure_eq_ok, Prod.mk.injEq] at h
    obtain ⟨duration, hduration, _, hnegative, rfl, rfl⟩ := h
    refine ⟨subset_rfl, fun hstale => ?_, id, fun hstale _ value hvalue => ?_, fun _ => .inl⟩
    · exact (Bool.or_eq_false_iff.mp hstale).1
    · have hpositive := of_decide_eq_false (Bool.or_eq_false_iff.mp hstale).2
      have hzero : duration = 0 := by grind
      rw [integerValue_eq_ok hduration, hzero] at hvalue
      cases hvalue
      rfl
  case sourceOutageIndicator =>
    simp only [collectPresent, bind_eq_ok, pure_eq_ok, Prod.mk.injEq] at h
    obtain ⟨outage, houtage, rfl, rfl⟩ := h
    refine ⟨subset_rfl, id, fun hloss => ?_, fun _ hloss value hvalue => ?_, fun _ => .inl⟩
    · exact (Bool.or_eq_false_iff.mp hloss).1
    · have hfalse : outage = false := (Bool.or_eq_false_iff.mp hloss).2
      rw [booleanValue_eq_ok houtage, hfalse] at hvalue
      cases hvalue
      rfl
  -- the others set one variable that is no source evidence
  all_goals
    simp only [collectPresent, bind_eq_ok, reject_eq_ok, pure_eq_ok, Prod.mk.injEq] at h
    first
    | obtain ⟨_, _, rfl, rfl⟩ := h
    | obtain ⟨_, _, _, _, rfl, rfl⟩ := h
    | obtain ⟨_, _, _, _, _, _, rfl, rfl⟩ := h
    exact ⟨subset_rfl, id, id, fun _ _ _ _ => trivial, fun _ => .inl⟩

/-! ## The pass -/

/-- No mark, and no flag that becomes one. -/
def BuildState.Clean (s : BuildState F) : Prop :=
  s.missingness = ∅ ∧ s.values.staleQuoteDetected = false ∧ s.values.sourceOutageDetected = false

/-- Nothing cleans a state up. -/
def Soils (s s' : BuildState F) : Prop := s'.Clean → s.Clean

instance : Std.Refl (Soils (F := F)) := ⟨fun _ => id⟩

instance : IsTrans (BuildState F) Soils := ⟨fun _ _ _ h h' hclean => h (h' hclean)⟩

theorem Observes.soils {builder : TriggerStateBuilder ops} {s : BuildState F}
    (h : Observes builder feature observation s s') : Soils s s' := by
  rintro ⟨hmarks', hstale', houtage'⟩
  cases h with
  | expired hmarks hvalues =>
    have hsubset := (subset_insert _ _).trans
      (subset_markFeatureMissing feature (insert .expiredInput s.missingness))
    rw [← hmarks, hmarks'] at hsubset
    exact ⟨subset_empty.mp hsubset, hvalues ▸ hstale', hvalues ▸ houtage'⟩
  | missing reason _ hmarks hvalues =>
    have hsubset := subset_markReason reason feature s.missingness
    rw [← hmarks, hmarks'] at hsubset
    exact ⟨subset_empty.mp hsubset, hvalues ▸ hstale', hvalues ▸ houtage'⟩
  | present _ _ _ hcollect =>
    have hcollects := collectPresent_collects hcollect
    have hsubset := hcollects.marks
    rw [hmarks'] at hsubset
    exact ⟨subset_empty.mp hsubset, hcollects.stale hstale', hcollects.outage houtage'⟩

/-- An observation that leaves the state clean is present, unexpired and clears its feature, unless
    it is missing for a reason that leaves no mark. -/
theorem Observes.clears {builder : TriggerStateBuilder ops} {s : BuildState F}
    (h : Observes builder feature observation s s') (hclean : s'.Clean)
    (hmarked : ∀ reason, observation.datum = .missing reason → markReason reason feature ∅ ≠ ∅) :
    builder.Unexpired observation
      ∧ ∃ value, observation.datum = .present value ∧ Clears feature value := by
  obtain ⟨hmarks', hstale', houtage'⟩ := hclean
  cases h with
  | expired hmarks _ =>
    have hmem : TriggerMissingness.expiredInput ∈ s'.missingness := by
      rw [hmarks]
      exact subset_markFeatureMissing feature _ (mem_insert_self _ _)
    rw [hmarks'] at hmem
    exact absurd hmem (notMem_empty _)
  | missing reason hdatum hmarks _ =>
    have hsubset := markReason_mono reason feature (empty_subset s.missingness)
    rw [← hmarks, hmarks'] at hsubset
    exact absurd (subset_empty.mp hsubset) (hmarked reason hdatum)
  | present value hdatum hunexpired hcollect =>
    have hclears := (collectPresent_collects hcollect).clears hstale' houtage' value hdatum
    exact ⟨hunexpired, value, hdatum, hclears⟩

section Pass

variable {formulaHash : TriggerFeature → List UInt8} {builder : TriggerStateBuilder ops}
  {s : BuildState F}
  (hpass : builder.observations.foldlM (builder.observe formulaHash) .start = .ok s)
include hpass

/-- After a clean pass, what accounts for a source contributes to it. -/
theorem contributes_of_accounts (hclean : s.Clean) {feature : TriggerFeature} {source : SourceId}
    (h : builder.Accounts feature source) : builder.Contributes feature source := by
  obtain ⟨observation, hmem, hof, hmarked⟩ := h
  obtain ⟨before, after, hstep, hsoils⟩ := foldlM_step_of_mem Soils
    (fun _ _ _ h => (observe_spec h).choose_spec.2.2.soils) hpass hmem
  obtain ⟨feature', hfeature, -, hobserves⟩ := observe_spec hstep
  rw [hof.1, ofId?_id] at hfeature
  cases hfeature
  obtain ⟨hunexpired, hvalue⟩ := hobserves.clears (hsoils hclean) hmarked
  exact ⟨observation, hmem, hof, hunexpired, hvalue⟩

/-- A source is complete by an observation of its completeness. -/
theorem contributes_of_complete {source : SourceId}
    (h : source ∈ s.values.completeLiquidationSources) :
    builder.Contributes .liquidationSourceCompletenessFlag source := by
  refine foldlM_keeps (fun s => ∀ source ∈ s.values.completeLiquidationSources,
    builder.Contributes .liquidationSourceCompletenessFlag source) ?_ ?_ hpass source h
  · intro observation hmem before after hbefore hstep source hsource
    obtain ⟨feature, hfeature, -, hobserves⟩ := observe_spec hstep
    cases hobserves with
    | expired _ hvalues => exact hbefore source (hvalues ▸ hsource)
    | missing _ _ _ hvalues => exact hbefore source (hvalues ▸ hsource)
    | present value hdatum hunexpired hcollect =>
      rcases (collectPresent_collects hcollect).complete source hsource with hold | ⟨rfl, hentity⟩
      · exact hbefore source hold
      · exact ⟨observation, hmem, ⟨(id_of_ofId? hfeature).symm, hentity⟩, hunexpired, value, hdatum,
          trivial⟩
  · intro source hsource
    exact absurd hsource List.not_mem_nil

end Pass

/-! ## The end -/

@[simp] theorem markIf_eq_empty {condition : Bool} {mark : TriggerMissingness} :
    markIf condition mark marks = ∅ ↔ condition = false ∧ marks = ∅ := by
  cases condition <;> simp [markIf]

theorem markAbsentOutputs_eq_empty {outputs : TriggerOutputs F} {featureAge : Option Int64}
    (h : markAbsentOutputs outputs featureAge marks = ∅) : marks = ∅ := by
  simp only [markAbsentOutputs, List.foldl_cons, List.foldl_nil, markIf_eq_empty] at h
  tauto

theorem deriveHealth_eq_healthy {sourceLoss : Bool} {score : QualityScore}
    {coverage : Nat} (h : deriveHealth sourceLoss marks score coverage = .healthy) : marks = ∅ := by
  unfold deriveHealth at h
  split_ifs at h with hloss hdegraded
  push Not at hdegraded
  exact hdegraded.1

theorem marks_eq_empty {s : BuildState F} (h : s.marks = ∅) :
    s.Clean ∧ s.values.cascadeEligible = some true := by
  simp only [BuildState.marks, BuildState.flagMarks, markIf_eq_empty, decide_eq_false_iff_not,
    ne_eq, not_not] at h
  obtain ⟨heligible, -, houtage, hstale, -, hmarks⟩ := h
  exact ⟨⟨hmarks, hstale, houtage⟩, heligible⟩

/-- All sources are complete if the completeness is full. -/
theorem complete_of_full {s : BuildState F}
    (h : s.completenessMillionths target = maximumMillionths)
    (hsource : source ∈ target.sources) : source ∈ s.values.completeLiquidationSources := by
  have hpositive : 0 < target.sources.length := List.length_pos_of_mem hsource
  have hle : s.completeSourceCount target ≤ target.sources.length := List.length_filter_le _ _
  have hmul : maximumMillionths * target.sources.length
      ≤ s.completeSourceCount target * maximumMillionths := by
    rw [← Nat.le_div_iff_mul_le hpositive]
    exact h.ge
  have heq : s.completeSourceCount target = target.sources.length := by
    unfold maximumMillionths at hmul
    omega
  have hall := List.length_filter_eq_length_iff.mp heq source hsource
  exact List.contains_iff_mem.mp hall

theorem outputs_complete {s : BuildState F} {outputs : TriggerOutputs F}
    (h : s.outputs ops target = .ok outputs) (heligible : s.values.cascadeEligible = some true) :
    s.completenessMillionths target = maximumMillionths := by
  simp only [BuildState.outputs, bind_eq_ok, reject_eq_ok] at h
  obtain ⟨_, -, _, -, _, -, _, -, _, -, _, hfull, -⟩ := h
  by_contra hne
  exact hfull ⟨heligible, hne⟩

theorem finish_healthy {s : BuildState F} {state : TriggerState F}
    (h : s.finish ops target = .ok state) (hhealthy : state.health = .healthy) :
    s.Clean ∧ ∀ source ∈ target.sources, source ∈ s.values.completeLiquidationSources := by
  simp only [BuildState.finish, bind_eq_ok, pure_eq_ok] at h
  obtain ⟨_, -, _, -, outputs, houtputs, rfl⟩ := h
  have hmarks := markAbsentOutputs_eq_empty (deriveHealth_eq_healthy hhealthy)
  obtain ⟨hclean, heligible⟩ := marks_eq_empty hmarks
  exact ⟨hclean, fun _ => complete_of_full (outputs_complete houtputs heligible)⟩

theorem accounts_of_contributes {builder : TriggerStateBuilder ops}
    (h : builder.Contributes feature source) : builder.Accounts feature source := by
  obtain ⟨observation, hmem, hof, -, value, hdatum, -⟩ := h
  refine ⟨observation, hmem, hof, fun reason hmissing => ?_⟩
  rw [hdatum] at hmissing
  cases hmissing

/-- Every source of a healthy state contributed to all source evidence, if and only if the age, the
    staleness and the outage of each were accounted for: supplied, and not missing for a reason that
    leaves no mark. -/
theorem healthy_evidence_iff_accounts (formulaHash : TriggerFeature → List UInt8)
    (builder : TriggerStateBuilder ops) (state : TriggerState F)
    (hbuild : builder.build formulaHash = .ok state) (hhealthy : state.health = .healthy) :
    (∀ source ∈ builder.target.sources, ∀ feature, isSourceEvidenceFeature feature = true →
        builder.Contributes feature source)
      ↔ ∀ source ∈ builder.target.sources,
          builder.Accounts .featureAgeNs source ∧ builder.Accounts .staleQuoteDurationNs source
            ∧ builder.Accounts .sourceOutageIndicator source := by
  simp only [build, bind_eq_ok] at hbuild
  obtain ⟨_, -, s, hpass, hfinish⟩ := hbuild
  obtain ⟨hclean, hcomplete⟩ := finish_healthy hfinish hhealthy
  constructor
  · intro h source hsource
    exact ⟨accounts_of_contributes (h source hsource _ rfl),
      accounts_of_contributes (h source hsource _ rfl),
        accounts_of_contributes (h source hsource _ rfl)⟩
  · intro h source hsource feature hevidence
    obtain ⟨hage, hstale, houtage⟩ := h source hsource
    cases feature
    case liquidationSourceCompletenessFlag =>
      exact contributes_of_complete hpass (hcomplete source hsource)
    case featureAgeNs => exact contributes_of_accounts hpass hclean hage
    case staleQuoteDurationNs => exact contributes_of_accounts hpass hclean hstale
    case sourceOutageIndicator => exact contributes_of_accounts hpass hclean houtage
    all_goals cases hevidence

/-! ## Two evaluations -/

/-- The hashes of the catalogue do not matter here. -/
def unhashed : TriggerFeature → List UInt8 := fun _ => []

def fixtureRegistry : FeatureRegistry where
  definitions := all.map (canonicalDefinition unhashed)
  distinct := by decide +kernel

def asOf : Int64 := 2040000000000

def fixtureTarget : TriggerStateTarget :=
  ⟨binancePerpetual, bitcoin, [binanceSource], asOf, 1, .replicate 32 0, .replicate 32 0, rfl⟩

def fixtureCoverage : SourceCoverage := ⟨[binanceSource], [⟨binanceSource, .healthy⟩], rfl⟩

/-- The extent of the last window of the feature. -/
def fixtureExtent (feature : TriggerFeature) : Int64 :=
  match (windows feature).getLast? with
  | some ⟨_, _, .time extent _⟩ => extent.toInt64
  | _ => 0

/-- A value of the feature at a time, over its last window. -/
def fixtureInput (feature : TriggerFeature) (value : FeatureValue hundredths) (time : Int64) :
    FeatureObservationInput hundredths where
  featureId := feature.id
  featureVersion := .release 1 0 0
  entity := match feature.scope with
    | .source => .source binanceSource
    | .asset => .asset bitcoin
    | _ => .instrument binancePerpetual
  windowId := (windows feature).getLast?.elim "" (·.id)
  resolution := (canonicalDefinition unhashed feature).outputResolution
  datum := .present value
  valueType := feature.valueType
  eventTimeStart := time - fixtureExtent feature
  eventTimeEnd := time
  asKnownAt := time + 100
  computedAt := time + 100
  watermark := some time
  finalityAsKnownAt := time
  finalityState := .provisional
  revision := 1
  sourceCoverage := fixtureCoverage
  qualityScore := ninetyPercent
  normalizationVersion := .release 1 0 0
  formulaHash := unhashed feature

/-- A reading in hundredths. -/
def reading (value : Int) : FeatureValue hundredths := .float64 ⟨value, rfl⟩

def four : FixedDecimal := .whole 4 (by decide)

/-- All features but the staleness and the outage of the source. -/
def unattended : List (FeatureObservation hundredths) :=
  [⟨fixtureInput .bidDepthChange (.fixedDecimal four) asOf, rfl⟩,
    ⟨fixtureInput .askDepthChange (.fixedDecimal four) asOf, rfl⟩,
    ⟨fixtureInput .cancellationRatePerSecond (reading 500) asOf, rfl⟩,
    ⟨fixtureInput .cancellationToTradeRatio (reading 200) asOf, rfl⟩,
    ⟨fixtureInput .tradePrintSweepDirection (reading 75) asOf, rfl⟩,
    ⟨fixtureInput .topOfBookOfi (.fixedDecimal four) asOf, rfl⟩,
    ⟨fixtureInput .crossVenueMedianAbsoluteDispersion (reading 1) (asOf - 1000000000), rfl⟩,
    ⟨fixtureInput .crossVenueMedianAbsoluteDispersion (reading 3) asOf, rfl⟩,
    ⟨fixtureInput .liquidationObservedVelocity (reading 100) asOf, rfl⟩,
    ⟨fixtureInput .openInterestRelativeChange (reading (-20)) asOf, rfl⟩,
    ⟨fixtureInput .logReturn (reading (-100)) asOf, rfl⟩,
    ⟨fixtureInput .markIndexDivergence (reading 1) asOf, rfl⟩,
    ⟨fixtureInput .cascadeEligibilityGate (.boolean true) asOf, rfl⟩,
    ⟨fixtureInput .liquidationSourceCompletenessFlag (.integer 1) asOf, rfl⟩,
    ⟨fixtureInput .featureAgeNs (.integer 200) asOf, rfl⟩]

def freshQuotes : FeatureObservation hundredths :=
  ⟨fixtureInput .staleQuoteDurationNs (.integer 0) asOf, rfl⟩

def noOutage : FeatureObservation hundredths :=
  ⟨fixtureInput .sourceOutageIndicator (.boolean false) asOf, rfl⟩

def fixtureBuilder (observations : List (FeatureObservation hundredths)) :
    TriggerStateBuilder hundredths :=
  ⟨fixtureRegistry, fixtureTarget, asOf, asOf + 10000000000, observations⟩

/-- The health of the built state. -/
def fixtureHealth (observations : List (FeatureObservation hundredths)) :
    Option TriggerHealth :=
  ((fixtureBuilder observations).build unhashed).toOption.map (·.health)

theorem build_of_health {observations : List (FeatureObservation hundredths)}
    {health : TriggerHealth} (h : fixtureHealth observations = some health) :
    ∃ state, (fixtureBuilder observations).build unhashed = .ok state ∧ state.health = health := by
  unfold fixtureHealth at h
  cases hbuild : (fixtureBuilder observations).build unhashed with
  | error e =>
    rw [hbuild] at h
    cases h
  | ok state =>
    rw [hbuild] at h
    exact ⟨state, rfl, Option.some.inj h⟩

/-- The state of fresh quotes without an outage is healthy, and all evidence of its source is
    there. -/
theorem attended_healthy : ∃ state,
    (fixtureBuilder (freshQuotes :: noOutage :: unattended)).build unhashed = .ok state
      ∧ state.health = .healthy
      ∧ ∀ source ∈ fixtureTarget.sources, ∀ feature, isSourceEvidenceFeature feature = true →
          (fixtureBuilder (freshQuotes :: noOutage :: unattended)).Contributes feature source := by
  have hhealth : fixtureHealth (freshQuotes :: noOutage :: unattended) = some .healthy := by
    decide +kernel
  obtain ⟨state, hbuild, hhealthy⟩ := build_of_health hhealth
  refine ⟨state, hbuild, hhealthy,
    (healthy_evidence_iff_accounts unhashed _ state hbuild hhealthy).mpr fun source hsource => ?_⟩
  rw [List.mem_singleton.mp hsource]
  refine ⟨⟨⟨fixtureInput .featureAgeNs (.integer 200) asOf, rfl⟩, ?_, ⟨rfl, rfl⟩, ?_⟩,
    ⟨freshQuotes, List.mem_cons_self, ⟨rfl, rfl⟩, ?_⟩,
    ⟨noOutage, List.mem_cons_of_mem _ List.mem_cons_self, ⟨rfl, rfl⟩, ?_⟩⟩
  · exact List.mem_cons_of_mem _ (List.mem_cons_of_mem _ (List.mem_of_mem_getLast? rfl))
  all_goals
    intro reason hmissing
    cases hmissing

/-- Without either observation the state is healthy as well. -/
theorem unattended_healthy : ∃ builder state,
    tryNew fixtureRegistry fixtureTarget asOf (asOf + 10000000000) unattended
        = .ok builder
      ∧ builder.build unhashed = .ok state ∧ state.health = .healthy
      ∧ ¬ builder.Contributes .staleQuoteDurationNs binanceSource
      ∧ ¬ builder.Contributes .sourceOutageIndicator binanceSource := by
  have hhealth : fixtureHealth unattended = some .healthy := by decide +kernel
  obtain ⟨state, hbuild, hhealthy⟩ := build_of_health hhealth
  have hnone : ∀ observation ∈ unattended,
      observation.featureId ≠ TriggerFeature.staleQuoteDurationNs.id
        ∧ observation.featureId ≠ TriggerFeature.sourceOutageIndicator.id := by decide +kernel
  refine ⟨fixtureBuilder unattended, state, rfl, hbuild, hhealthy, ?_, ?_⟩
  · rintro ⟨observation, hmem, ⟨hid, -⟩, -⟩
    exact (hnone observation hmem).1 hid
  · rintro ⟨observation, hmem, ⟨hid, -⟩, -⟩
    exact (hnone observation hmem).2 hid

end CryptoIntelligence.FastState
