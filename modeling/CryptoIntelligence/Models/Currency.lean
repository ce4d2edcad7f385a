/-
  Whether a model enters production while its package is current.

  `verify_compatibility` compares the dates of a package with the time of its request; the promotion
  is dated by its review, which no check compares with either. So a model can enter production after
  the expiry of its package (`promoted_after_expiry`). It does not where every review is dated no
  later than the receipt it comes with (`production_current`).
-/
import CryptoIntelligence.Models.Lifecycle

namespace CryptoIntelligence.Models

open Lib ModelRegistry

variable {F : Type} {p : Primitives F}

/-! ## Promotions in time -/

/-- Every transition into production that the record keeps is dated before the package was due for
    review. -/
def ModelRecord.Timely (record : ModelRecord p) : Prop :=
  ∀ entry ∈ record.history, entry.toState = .production →
    entry.transitionedAtNs < record.package.package.manifest.reviewAfterNs

def ModelRegistry.Timely (registry : ModelRegistry p) : Prop :=
  ∀ (modelId : String) (record : ModelRecord p),
    registry.records[modelId]? = some record → record.Timely

/-- A promotion to production whose receipt was evaluated no earlier than the review was made, where
    the package hash that receipt and record share stands for one review date. -/
def ReceiptCovers (registry : ModelRegistry p) : RegistryCall p → Prop
  | .promoteProduction modelId (some receipt) (some review) _ =>
    (∃ request, compatibilityChecks p receipt.verified request = .ok receipt.requestBlake3 ∧
      review.reviewedAtNs ≤ request.evaluatedAtNs) ∧
    ∀ record : ModelRecord p, registry.records[modelId]? = some record →
      receipt.packageBlake3 = record.package.packageBlake3 →
      receipt.verified.package.manifest.reviewAfterNs =
        record.package.package.manifest.reviewAfterNs
  | _ => True

variable {record amended : ModelRecord p} {modelId : String} {call : RegistryCall p}
  {registry next : ModelRegistry p}

theorem ModelRecord.Timely.advance {target : ModelState} {actor evidenceId : String}
    {reviewer : Option String} {atNs : Int} (h : record.Timely)
    (htime : target = .production → atNs < record.package.package.manifest.reviewAfterNs) :
    (record.advance target actor reviewer evidenceId atNs).Timely :=
  forall_mem_concat.mpr ⟨h, htime⟩

/-- Only a promotion to production could be late, and its review is no later than its receipt. -/
theorem Advance.timely (h : Advance modelId record call amended)
    (hrecord : registry.records[modelId]? = some record) (hcovers : ReceiptCovers registry call)
    (htimely : record.Timely) : amended.Timely := by
  cases h with
  | @production compatibility review shadow _ _ hreceipt _ _ _ =>
    obtain ⟨⟨request, hrequest, hreviewed⟩, hdate⟩ := hcovers
    have hevaluated := evaluated_before_review hrequest
    rw [hdate record hrecord hreceipt] at hevaluated
    exact htimely.advance fun _ => Int.lt_of_le_of_lt hreviewed hevaluated
  -- every other operation ends in a state other than production
  | _ => exact htimely.advance nofun

theorem ModelRegistry.Timely.step (h : registry.Timely) (hcovers : ReceiptCovers registry call) :
    (registry.step call).1.Timely := by
  cases hcall : registry.call call with
  | error e => rwa [step_of_error hcall]
  | ok next =>
    rw [step_of_ok hcall]
    have hinsert {modelId amended} (hamended : amended.Timely)
        (hnext : next.records = registry.records.insert modelId amended) : next.Timely := by
      intro other record hrecord
      rw [hnext, Std.ExtTreeMap.getElem?_insert] at hrecord
      split at hrecord
      · exact Option.some.inj hrecord ▸ hamended
      · exact h other record hrecord
    cases call_eq_ok hcall with
    | registered _ _ hnext =>
      refine hinsert (fun entry hentry hproduction => ?_) hnext
      rw [List.mem_singleton.mp hentry] at hproduction
      cases hproduction
    | advanced hrecord hadvance hnext =>
      exact hinsert (hadvance.timely hrecord hcovers (h _ _ hrecord)) hnext

/-- For every sequence of operations with any evidence that their constructors accept: if every
    promotion to production comes with a receipt that was evaluated no earlier than the review was
    made, every promotion that a record keeps is dated before the review date and before the expiry
    of its package. -/
theorem production_current (calls : List (RegistryCall p))
    (hcovers : ∀ before call after, calls = before ++ call :: after →
      ReceiptCovers (runAll step new before) call) :
    ∀ (modelId : String) (record : ModelRecord p),
      (runAll step new calls).records[modelId]? = some record →
      ∀ entry ∈ record.history, entry.toState = .production →
        entry.transitionedAtNs < record.package.package.manifest.reviewAfterNs ∧
          entry.transitionedAtNs < record.package.package.manifest.expiresAtNs := by
  have htimely : (runAll step new calls).Timely := by
    refine run_induction_of _ ReceiptCovers (fun _ => ModelRegistry.Timely)
      (fun modelId record hrecord => ?_) (fun _ _ call h hcovers => h.step hcovers) calls hcovers
    rw [new, Std.ExtTreeMap.getElem?_empty] at hrecord
    cases hrecord
  intro modelId record hrecord entry hentry hproduction
  have hreview := htimely modelId record hrecord entry hentry hproduction
  exact ⟨hreview, hreview.trans record.package.review_lt_expiry⟩

/-! ## Two promotions -/

/-- Readings in hundredths, one digest for all texts, and a signature that always verifies. -/
def samplePrimitives : Primitives Int where
  toFloatOps := hundredths
  blake3 _ := Vector.replicate 32 7
  hexEncode _ := "07"
  canonicalManifest _ := some []
  compatibilityWire _ := some []
  verifyStrict _ _ _ := true
  versionLt a b := decide (a.major < b.major)

def sampleManifest : ModelPackageManifest Int where
  schemaVersion := 1
  modelId := "btc-hazard-v1"
  semanticVersion := .release 1 0 0
  modelFamily := "competing-risk-hazard"
  supportedAssets := ["BTC"]
  supportedEventTypes := ["drawdown"]
  supportedHorizonsSeconds := [900, 3600]
  trainingPeriod := ⟨100, 200⟩
  validationPeriod := ⟨300, 400⟩
  outerTestPeriod := ⟨500, 600⟩
  dataHash := Vector.replicate 32 1
  featureSchemaHash := Vector.replicate 32 2
  normalizationHash := Vector.replicate 32 3
  labelDefinitionHash := Vector.replicate 32 4
  codeCommit := "0123456789abcdef0123456789abcdef01234567"
  hyperparametersBlake3 := Vector.replicate 32 5
  calibration := ⟨"beta", "beta-monotone-v1", Vector.replicate 32 6, ⟨300, 400⟩, 100⟩
  qualityRequirements := ⟨900000, 2, 10, 5, 5, 50, 80, 120, 5⟩
  runtimeRequirements := ⟨.release 1 2 0, ["hazard-v1", "point-in-time-v1"], 1024⟩
  metrics := ⟨Vector.replicate 32 7, 200, 25, 22, 12, 1, 98⟩
  subgroupMetricsBlake3 := Vector.replicate 32 8
  limitations := ["fixture evidence is not production proof"]
  modelCardBlake3 := Vector.replicate 32 9
  reviewAfterNs := 700
  expiresAtNs := 900
  artifactBlake3 := Vector.replicate 32 7

def samplePackage : SignedModelPackage Int :=
  ⟨sampleManifest, Vector.replicate 32 7, "fixture-key-v1", List.replicate 64 0⟩

theorem samplePackage_verifies : verifyChecks samplePrimitives samplePackage []
    ⟨"fixture-key-v1", Vector.replicate 32 0⟩ = .ok () := by
  decide +kernel

def sampleVerified : VerifiedPackage samplePrimitives :=
  ⟨samplePackage, [], ⟨"fixture-key-v1", Vector.replicate 32 0⟩, samplePackage_verifies⟩

/-- A request of a time before the package is due for review. -/
def sampleRequest (evaluatedAtNs : Int) : CompatibilityRequest where
  asset := "BTC"
  eventType := "drawdown"
  horizonSeconds := 900
  featureSchemaHash := Vector.replicate 32 2
  normalizationHash := Vector.replicate 32 3
  labelDefinitionHash := Vector.replicate 32 4
  runtimeVersion := .release 1 3 0
  runtimeCapabilities := ["hazard-v1", "point-in-time-v1"]
  availableMemoryBytes := 2048
  observedQualityMillionths := 950000
  observedSourceCount := 3
  evaluatedAtNs := evaluatedAtNs

theorem sampleRequest_compatible : compatibilityChecks samplePrimitives sampleVerified
    (sampleRequest 670) = .ok (Vector.replicate 32 7) := by
  decide +kernel

def sampleCompatible : CompatiblePackage samplePrimitives :=
  ⟨sampleVerified, Vector.replicate 32 7, sampleRequest 670, sampleRequest_compatible⟩

theorem candidateReview_checked :
    reviewChecks "model-owner" "reviewer-a" "candidate-review" 620 = .ok () := by
  decide

theorem shadowReview_checked :
    reviewChecks "model-owner" "reviewer-b" "shadow-review" 630 = .ok () := by
  decide

theorem sampleShadow_checked :
    shadowChecks (Vector.replicate 32 7) "shadow-soak-1" 100 8 640 650 = .ok () := by
  decide

/-- The way of a model into its shadow phase. -/
def shadowCalls : List (RegistryCall samplePrimitives) :=
  [.registerResearch sampleVerified "model-owner" "training-run-1" 610,
    .promoteCandidate "btc-hazard-v1" ⟨_, _, _, _, candidateReview_checked⟩,
    .promoteShadow "btc-hazard-v1" ⟨_, _, _, _, shadowReview_checked⟩]

/-- And into production, with a compatibility receipt of time 670. -/
def sampleCalls (review : IndependentReview) : List (RegistryCall samplePrimitives) :=
  shadowCalls ++ [.promoteProduction "btc-hazard-v1" (some sampleCompatible) (some review)
    (some ⟨_, _, _, _, _, _, sampleShadow_checked⟩)]

theorem productionReview_checked {reviewedAtNs : Int} (h : 0 < reviewedAtNs) :
    reviewChecks "model-owner" "reviewer-c" "production-review" reviewedAtNs = .ok () := by
  have hpositive : ¬ reviewedAtNs ≤ 0 := Int.not_le.mpr h
  simp only [reviewChecks, reject_neg hpositive]
  decide

def productionReview (reviewedAtNs : Int) (h : 0 < reviewedAtNs) : IndependentReview :=
  ⟨_, _, _, reviewedAtNs, productionReview_checked h⟩

/-- The transitions of the model, and the dates of its package. -/
def sampleHistory (calls : List (RegistryCall samplePrimitives)) :
    Option (List (ModelState × Int) × Int × Int) :=
  (runAll step new calls).records["btc-hazard-v1"]?.map fun record =>
    (record.history.map fun entry => (entry.toState, entry.transitionedAtNs),
      record.package.package.manifest.reviewAfterNs, record.package.package.manifest.expiresAtNs)

/-- Reviewed at 660, before the receipt of 670: the model enters production before the package is to
    be reviewed at 700. -/
theorem promoted_before_review :
    sampleHistory (sampleCalls (productionReview 660 (by decide))) =
        some ([(.research, 610), (.candidate, 620), (.shadow, 630), (.production, 660)], 700, 900) ∧
      ∀ (modelId : String) (record : ModelRecord samplePrimitives),
        (runAll step new (sampleCalls (productionReview 660 (by decide)))).records[modelId]? =
          some record → ∀ entry ∈ record.history, entry.toState = .production →
        entry.transitionedAtNs < record.package.package.manifest.reviewAfterNs ∧
          entry.transitionedAtNs < record.package.package.manifest.expiresAtNs := by
  refine ⟨by decide +kernel, production_current _ (forall_split_concat.mpr ⟨?_, ?_, ?_⟩)⟩
  · intro before call after hcalls
    have hmem : call ∈ shadowCalls := by
      rw [hcalls]
      simp
    simp only [shadowCalls, List.mem_cons, List.not_mem_nil, or_false] at hmem
    rcases hmem with rfl | rfl | rfl <;> trivial
  · exact ⟨sampleRequest 670, sampleRequest_compatible, by decide⟩
  · intro record hrecord _
    have hdate : ((runAll step new shadowCalls).records["btc-hazard-v1"]?.map
        (·.package.package.manifest.reviewAfterNs)) = some 700 := by
      decide +kernel
    rw [hrecord] at hdate
    exact (Option.some.inj hdate).symm

/-- The package is to be reviewed at 700 and expires at 900, and the model enters production at
    950. -/
theorem promoted_after_expiry :
    sampleHistory (sampleCalls (productionReview 950 (by decide))) =
      some
        ([(.research, 610), (.candidate, 620), (.shadow, 630), (.production, 950)], 700, 900) := by
  decide +kernel

end CryptoIntelligence.Models
