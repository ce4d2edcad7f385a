/-
  The lifecycle of registered models (`model-registry/src/state.rs`): research, candidate, shadow,
  production, superseded, revoked.

  The evidence objects carry the checks of their constructors. An operation changes the registry
  only in its last step, so an operation is a function to the next registry or an error, and
  `ModelRegistry.step` keeps the registry where it fails.
-/
import CryptoIntelligence.Lib.Run
import CryptoIntelligence.Models.Verification

namespace CryptoIntelligence.Models

open Lib
open Std (ExtTreeMap)

inductive PromotionError
  | modelNotFound
  | duplicateModel
  | invalidTransition
  | missingIndependentReview
  | missingCompatibility
  | compatibilityMismatch
  | insufficientShadowEvidence
  | invalidReplacement
  | invalidActor
  | invalidEvidence
  | invalidTime
  | historyCapacity
  deriving DecidableEq

inductive ModelState
  | research
  | candidate
  | shadow
  | production
  | superseded
  | revoked
  deriving DecidableEq

structure TransitionRecord where
  sequence : Nat
  fromState : Option ModelState
  toState : ModelState
  actor : String
  reviewer : Option String
  evidenceId : String
  transitionedAtNs : Int
  packageBlake3 : Digest
  deriving DecidableEq

def validateActor (actor : String) : Except PromotionError Unit :=
  reject (actor = "" ∨ 256 < (utf8 actor).length ∨
    (utf8 actor).any (fun byte => isAsciiWhitespace byte || isAsciiControl byte) = true)
    .invalidActor

def validateEvidenceId (evidenceId : String) : Except PromotionError Unit :=
  reject (evidenceId = "" ∨ 1024 < (utf8 evidenceId).length ∨
    (utf8 evidenceId).any isAsciiControl = true) .invalidEvidence

/-! ## Evidence -/

/-- The checks of `IndependentReview::new`. -/
def reviewChecks (requester reviewer evidenceId : String) (reviewedAtNs : Int) :
    Except PromotionError Unit := do
  validateActor requester
  validateActor reviewer
  validateEvidenceId evidenceId
  reject (requester = reviewer) .missingIndependentReview
  reject (reviewedAtNs ≤ 0) .invalidTime

structure IndependentReview where
  requester : String
  reviewer : String
  evidenceId : String
  reviewedAtNs : Int
  checked : reviewChecks requester reviewer evidenceId reviewedAtNs = .ok ()

def IndependentReview.new (requester reviewer evidenceId : String) (reviewedAtNs : Int) :
    Except PromotionError IndependentReview :=
  match h : reviewChecks requester reviewer evidenceId reviewedAtNs with
  | .ok _ => .ok ⟨requester, reviewer, evidenceId, reviewedAtNs, h⟩
  | .error e => .error e

/-- The checks of `ShadowEvidence::new`. -/
def shadowChecks (packageBlake3 : Digest) (evidenceId : String) (observations positives : Nat)
    (startedAtNs endedAtNs : Int) : Except PromotionError Unit := do
  validateEvidenceId evidenceId
  reject (packageBlake3 = Digest.zero ∨ observations = 0 ∨ positives = 0 ∨ observations < positives)
    .insufficientShadowEvidence
  reject (startedAtNs ≤ 0 ∨ endedAtNs ≤ startedAtNs) .invalidTime

structure ShadowEvidence where
  packageBlake3 : Digest
  evidenceId : String
  observations : Nat
  positives : Nat
  startedAtNs : Int
  endedAtNs : Int
  checked : shadowChecks packageBlake3 evidenceId observations positives startedAtNs
    endedAtNs = .ok ()

def ShadowEvidence.new (packageBlake3 : Digest) (evidenceId : String) (observations positives : Nat)
    (startedAtNs endedAtNs : Int) : Except PromotionError ShadowEvidence :=
  match h : shadowChecks packageBlake3 evidenceId observations positives startedAtNs endedAtNs with
  | .ok _ => .ok ⟨packageBlake3, evidenceId, observations, positives, startedAtNs, endedAtNs, h⟩
  | .error e => .error e

/-! ## Records -/

variable {F : Type} {p : Primitives F}

structure ModelRecord (p : Primitives F) where
  package : VerifiedPackage p
  state : ModelState
  author : String
  history : List TransitionRecord

/-- The time of the last transition. -/
def ModelRecord.previousTime (record : ModelRecord p) : Int :=
  (record.history.getLast?.map TransitionRecord.transitionedAtNs).getD 0

def validateReview (record : ModelRecord p) (review : IndependentReview) :
    Except PromotionError Unit := do
  reject (review.requester ≠ record.author ∨ review.reviewer = record.author)
    .missingIndependentReview
  reject (review.reviewedAtNs ≤ record.previousTime) .invalidTime

def transition (record : ModelRecord p) (expected target : ModelState) (actor : String)
    (reviewer : Option String) (evidenceId : String) (atNs : Int) :
    Except PromotionError (ModelRecord p) := do
  validateActor actor
  checkAll validateActor reviewer.toList
  validateEvidenceId evidenceId
  reject (record.state ≠ expected) .invalidTransition
  reject (atNs ≤ record.previousTime) .invalidTime
  reject (2 ^ 64 ≤ record.history.length + 1 ∨ 64 < record.history.length + 1) .historyCapacity
  pure { record with
    state := target
    history := record.history ++ [⟨record.history.length + 1, some record.state, target, actor,
      reviewer, evidenceId, atNs, record.package.packageBlake3⟩] }

/-! ## The registry -/

structure ModelRegistry (p : Primitives F) where
  records : ExtTreeMap String (ModelRecord p) compare

namespace ModelRegistry

def new : ModelRegistry p := ⟨∅⟩

def registerResearch (registry : ModelRegistry p) (package : VerifiedPackage p)
    (author evidenceId : String) (registeredAtNs : Int) :
    Except PromotionError (ModelRegistry p) := do
  validateActor author
  validateEvidenceId evidenceId
  reject (registeredAtNs ≤ 0) .invalidTime
  reject (package.modelId ∈ registry.records) .duplicateModel
  pure ⟨registry.records.insert package.modelId ⟨package, .research, author,
    [⟨1, none, .research, author, none, evidenceId, registeredAtNs, package.packageBlake3⟩]⟩⟩

/-- `record_mut`, and the record written back. -/
def amend (registry : ModelRegistry p) (modelId : String)
    (change : ModelRecord p → Except PromotionError (ModelRecord p)) :
    Except PromotionError (ModelRegistry p) := do
  let record ← required registry.records[modelId]? .modelNotFound
  let amended ← change record
  pure ⟨registry.records.insert modelId amended⟩

/-- A promotion that needs a review only. -/
def promoteReviewed (expected target : ModelState) (registry : ModelRegistry p) (modelId : String)
    (review : IndependentReview) : Except PromotionError (ModelRegistry p) :=
  registry.amend modelId fun record => do
    validateReview record review
    transition record expected target review.requester (some review.reviewer) review.evidenceId
      review.reviewedAtNs

def promoteCandidate : ModelRegistry p → String → IndependentReview →
    Except PromotionError (ModelRegistry p) := promoteReviewed .research .candidate

def promoteShadow : ModelRegistry p → String → IndependentReview →
    Except PromotionError (ModelRegistry p) := promoteReviewed .candidate .shadow

/-- The evidence text of a production transition. -/
def productionEvidence (review : IndependentReview) (shadow : ShadowEvidence)
    (compatibility : CompatiblePackage p) : String :=
  review.evidenceId ++ ":" ++ shadow.evidenceId ++ ":" ++ p.hexEncode compatibility.requestBlake3

def promoteProduction (registry : ModelRegistry p) (modelId : String)
    (compatibility : Option (CompatiblePackage p)) (review : Option IndependentReview)
    (shadow : Option ShadowEvidence) : Except PromotionError (ModelRegistry p) :=
  registry.amend modelId fun record => do
    let review ← required review .missingIndependentReview
    validateReview record review
    let compatibility ← required compatibility .missingCompatibility
    reject (compatibility.modelId ≠ modelId ∨
      compatibility.packageBlake3 ≠ record.package.packageBlake3) .compatibilityMismatch
    let shadow ← required shadow .insufficientShadowEvidence
    reject (shadow.packageBlake3 ≠ record.package.packageBlake3 ∨
      shadow.positives <
        record.package.package.manifest.qualityRequirements.minimumShadowPositives ∨
      shadow.startedAtNs ≤ record.previousTime ∨ review.reviewedAtNs ≤ shadow.endedAtNs)
      .insufficientShadowEvidence
    transition record .shadow .production review.requester (some review.reviewer)
      (productionEvidence review shadow compatibility) review.reviewedAtNs

def supersede (registry : ModelRegistry p) (modelId replacementModelId actor evidenceId : String)
    (atNs : Int) : Except PromotionError (ModelRegistry p) := do
  reject (modelId = replacementModelId ∨
    registry.records[replacementModelId]?.map ModelRecord.state ≠ some .production)
    .invalidReplacement
  registry.amend modelId fun record =>
    transition record .production .superseded actor none evidenceId atNs

def revoke (registry : ModelRegistry p) (modelId actor evidenceId : String) (atNs : Int) :
    Except PromotionError (ModelRegistry p) :=
  registry.amend modelId fun record => do
    reject (record.state = .superseded ∨ record.state = .revoked) .invalidTransition
    transition record record.state .revoked actor none evidenceId atNs

end ModelRegistry

/-! ## Runs -/

/-- The operations of a registry, with their arguments. -/
inductive RegistryCall (p : Primitives F)
  | registerResearch (package : VerifiedPackage p) (author evidenceId : String) (atNs : Int)
  | promoteCandidate (modelId : String) (review : IndependentReview)
  | promoteShadow (modelId : String) (review : IndependentReview)
  | promoteProduction (modelId : String) (compatibility : Option (CompatiblePackage p))
      (review : Option IndependentReview) (shadow : Option ShadowEvidence)
  | supersede (modelId replacementModelId actor evidenceId : String) (atNs : Int)
  | revoke (modelId actor evidenceId : String) (atNs : Int)

def ModelRegistry.call (registry : ModelRegistry p) :
    RegistryCall p → Except PromotionError (ModelRegistry p)
  | .registerResearch package author evidenceId atNs =>
    registry.registerResearch package author evidenceId atNs
  | .promoteCandidate modelId review => registry.promoteCandidate modelId review
  | .promoteShadow modelId review => registry.promoteShadow modelId review
  | .promoteProduction modelId compatibility review shadow =>
    registry.promoteProduction modelId compatibility review shadow
  | .supersede modelId replacementModelId actor evidenceId atNs =>
    registry.supersede modelId replacementModelId actor evidenceId atNs
  | .revoke modelId actor evidenceId atNs => registry.revoke modelId actor evidenceId atNs

/-- One call: a failed one leaves the registry as it was. -/
def ModelRegistry.step (registry : ModelRegistry p) (call : RegistryCall p) :
    ModelRegistry p × Except PromotionError Unit :=
  match registry.call call with
  | .ok next => (next, .ok ())
  | .error e => (registry, .error e)

/-! ## What an operation writes -/

section

variable {record amended : ModelRecord p} {expected target : ModelState} {actor evidenceId : String}
  {reviewer : Option String} {atNs : Int} {review : IndependentReview} {modelId : String}
  {registry next : ModelRegistry p} {call : RegistryCall p}

/-- The record after a transition. -/
def ModelRecord.advance (record : ModelRecord p) (target : ModelState) (actor : String)
    (reviewer : Option String) (evidenceId : String) (atNs : Int) : ModelRecord p :=
  { record with
    state := target
    history := record.history ++ [⟨record.history.length + 1, some record.state, target, actor,
      reviewer, evidenceId, atNs, record.package.packageBlake3⟩] }

theorem transition_eq_ok :
    transition record expected target actor reviewer evidenceId atNs = .ok amended ↔
      validateActor actor = .ok () ∧ (∀ r ∈ reviewer, validateActor r = .ok ()) ∧
      validateEvidenceId evidenceId = .ok () ∧ record.state = expected ∧
      record.previousTime < atNs ∧ record.history.length < 64 ∧
      record.advance target actor reviewer evidenceId atNs = amended := by
  have hcapacity : ¬ (2 ^ 64 ≤ record.history.length + 1 ∨ 64 < record.history.length + 1) ↔
      record.history.length < 64 := by omega
  simp only [transition, bind_eq_ok, pure_eq_ok, reject_eq_ok, checkAll_eq_ok, hcapacity,
    Option.mem_toList, not_not, not_le, Unique.exists_iff, PUnit.default_eq_unit]
  rfl

/-- What `validate_review` asks of a review. -/
structure Approved (record : ModelRecord p) (review : IndependentReview) : Prop where
  requester : review.requester = record.author
  reviewer : review.reviewer ≠ record.author
  later : record.previousTime < review.reviewedAtNs

theorem validateReview_eq_ok {u : Unit} :
    validateReview record review = .ok u ↔ Approved record review := by
  simp only [validateReview, bind_eq_ok, reject_eq_ok, not_or, not_not, not_le, exists_const]
  constructor
  · rintro ⟨⟨h, h'⟩, ht⟩
    exact ⟨h, h', ht⟩
  · exact fun h => ⟨⟨h.requester, h.reviewer⟩, h.later⟩

/-- The record of `registerResearch`. -/
def ModelRecord.registered (package : VerifiedPackage p) (author evidenceId : String)
    (registeredAtNs : Int) : ModelRecord p :=
  ⟨package, .research, author,
    [⟨1, none, .research, author, none, evidenceId, registeredAtNs, package.packageBlake3⟩]⟩

/-- The ways an accepted call changes the record of a model. -/
inductive Advance (modelId : String) (record : ModelRecord p) :
    RegistryCall p → ModelRecord p → Prop
  | candidate {review : IndependentReview} : record.state = .research → Approved record review →
    Advance modelId record (.promoteCandidate modelId review)
      (record.advance .candidate review.requester (some review.reviewer) review.evidenceId
        review.reviewedAtNs)
  | shadow {review : IndependentReview} : record.state = .candidate → Approved record review →
    Advance modelId record (.promoteShadow modelId review)
      (record.advance .shadow review.requester (some review.reviewer) review.evidenceId
        review.reviewedAtNs)
  | production {compatibility : CompatiblePackage p} {review : IndependentReview}
      {shadow : ShadowEvidence} :
    record.state = .shadow → Approved record review →
    compatibility.packageBlake3 = record.package.packageBlake3 →
    shadow.packageBlake3 = record.package.packageBlake3 → record.previousTime < shadow.startedAtNs →
    shadow.endedAtNs < review.reviewedAtNs →
    Advance modelId record
      (.promoteProduction modelId (some compatibility) (some review) (some shadow))
      (record.advance .production review.requester (some review.reviewer)
        (ModelRegistry.productionEvidence review shadow compatibility) review.reviewedAtNs)
  | superseded {replacement actor evidenceId : String} {atNs : Int} :
    record.state = .production → record.previousTime < atNs →
    Advance modelId record (.supersede modelId replacement actor evidenceId atNs)
      (record.advance .superseded actor none evidenceId atNs)
  | revoked {actor evidenceId : String} {atNs : Int} :
    record.state ≠ .superseded → record.state ≠ .revoked → record.previousTime < atNs →
    Advance modelId record (.revoke modelId actor evidenceId atNs)
      (record.advance .revoked actor none evidenceId atNs)

/-- What an accepted call writes: a new model, or one more transition of a known one. -/
inductive Written (registry : ModelRegistry p) (call : RegistryCall p) (next : ModelRegistry p) :
    Prop
  | registered {package : VerifiedPackage p} {author evidenceId : String} {atNs : Int} :
    call = .registerResearch package author evidenceId atNs → package.modelId ∉ registry.records →
    next.records =
      registry.records.insert package.modelId (.registered package author evidenceId atNs) →
    Written registry call next
  | advanced {modelId : String} {record amended : ModelRecord p} :
    registry.records[modelId]? = some record → Advance modelId record call amended →
    next.records = registry.records.insert modelId amended → Written registry call next

theorem amend_eq_ok {change : ModelRecord p → Except PromotionError (ModelRecord p)} :
    registry.amend modelId change = .ok next ↔ ∃ record amended,
      registry.records[modelId]? = some record ∧ change record = .ok amended ∧
        ⟨registry.records.insert modelId amended⟩ = next := by
  simp only [ModelRegistry.amend, bind_eq_ok, required_eq_ok, pure_eq_ok, exists_and_left]

theorem promoteReviewed_eq_ok
    (h : registry.promoteReviewed expected target modelId review = .ok next) :
    ∃ record, registry.records[modelId]? = some record ∧ record.state = expected ∧
      Approved record review ∧ next.records = registry.records.insert modelId
        (record.advance target review.requester (some review.reviewer) review.evidenceId
          review.reviewedAtNs) := by
  obtain ⟨record, _, hrecord, hchange, rfl⟩ := amend_eq_ok.mp h
  simp only [bind_eq_ok, validateReview_eq_ok, transition_eq_ok] at hchange
  obtain ⟨_, happroved, -, -, -, hstate, -, -, rfl⟩ := hchange
  exact ⟨record, hrecord, hstate, happroved, rfl⟩

theorem call_eq_ok (h : registry.call call = .ok next) : Written registry call next := by
  cases call with
  | registerResearch package author evidenceId atNs =>
    simp only [ModelRegistry.call, ModelRegistry.registerResearch, bind_eq_ok, reject_eq_ok,
      pure_eq_ok] at h
    obtain ⟨_, -, _, -, _, -, _, hfresh, rfl⟩ := h
    exact .registered rfl hfresh rfl
  | promoteCandidate modelId review =>
    obtain ⟨record, hrecord, hstate, happroved, hnext⟩ := promoteReviewed_eq_ok h
    exact .advanced hrecord (.candidate hstate happroved) hnext
  | promoteShadow modelId review =>
    obtain ⟨record, hrecord, hstate, happroved, hnext⟩ := promoteReviewed_eq_ok h
    exact .advanced hrecord (.shadow hstate happroved) hnext
  | promoteProduction modelId compatibility review shadow =>
    obtain ⟨record, _, hrecord, hchange, rfl⟩ := amend_eq_ok.mp h
    simp only [bind_eq_ok, required_eq_ok, validateReview_eq_ok, reject_eq_ok, transition_eq_ok,
      not_or, not_not, not_le] at hchange
    obtain ⟨given, rfl, _, happroved, receipt, rfl, _, ⟨-, hreceipt⟩, evidence, rfl, _,
      ⟨hpackage, -, hstarted, hended⟩, -, -, -, hstate, -, -, rfl⟩ := hchange
    exact .advanced hrecord (.production hstate happroved hreceipt hpackage hstarted hended) rfl
  | supersede modelId replacement actor evidenceId atNs =>
    obtain ⟨_, -, h⟩ := bind_eq_ok.mp h
    obtain ⟨record, _, hrecord, hchange, rfl⟩ := amend_eq_ok.mp h
    obtain ⟨-, -, -, hstate, htime, -, rfl⟩ := transition_eq_ok.mp hchange
    exact .advanced hrecord (.superseded hstate htime) rfl
  | revoke modelId actor evidenceId atNs =>
    obtain ⟨record, _, hrecord, hchange, rfl⟩ := amend_eq_ok.mp h
    simp only [bind_eq_ok, reject_eq_ok, transition_eq_ok, not_or] at hchange
    obtain ⟨_, ⟨hsuperseded, hrevoked⟩, -, -, -, -, htime, -, rfl⟩ := hchange
    exact .advanced hrecord (.revoked hsuperseded hrevoked htime) rfl

theorem step_of_ok (h : registry.call call = .ok next) : registry.step call = (next, .ok ()) := by
  unfold ModelRegistry.step
  rw [h]

theorem step_of_error {e : PromotionError}
    (h : registry.call call = .error e) : registry.step call = (registry, .error e) := by
  unfold ModelRegistry.step
  rw [h]

/-! ## Histories -/

def transitionLog : Log TransitionRecord (Option ModelState) Int :=
  ⟨(·.sequence), (·.fromState), (some ·.toState), (·.transitionedAtNs)⟩

/-- The moves of a lifecycle. -/
def Allowed (source : Option ModelState) : ModelState → Prop
  | .research => source = none
  | .candidate => source = some .research
  | .shadow => source = some .candidate
  | .production => source = some .shadow
  | .superseded => source = some .production
  | .revoked => source ≠ none ∧ source ≠ some .superseded ∧ source ≠ some .revoked

/-- The history leads to the state by allowed moves of the one package. -/
structure ModelRecord.Recorded (record : ModelRecord p) : Prop where
  trail : Trail transitionLog none record.history (some record.state)
  moves : ∀ entry ∈ record.history, Allowed entry.fromState entry.toState ∧
    entry.packageBlake3 = record.package.packageBlake3

def ModelRegistry.Recorded (registry : ModelRegistry p) : Prop :=
  ∀ (modelId : String) (record : ModelRecord p),
    registry.records[modelId]? = some record → record.Recorded

theorem ModelRecord.Recorded.advance (h : record.Recorded)
    (hallowed : Allowed (some record.state) target) (htime : record.previousTime < atNs) :
    (record.advance target actor reviewer evidenceId atNs).Recorded where
  trail := h.trail.concat rfl rfl fun last hlast => by
    rwa [previousTime, Option.mem_def.mp hlast] at htime
  moves := forall_mem_concat.mpr ⟨h.moves, hallowed, rfl⟩

theorem Advance.recorded (h : Advance modelId record call amended) (hrecord : record.Recorded) :
    amended.Recorded := by
  cases h with
  | candidate hstate happroved | shadow hstate happroved | production hstate happroved =>
    exact hrecord.advance (congrArg some hstate) happroved.later
  | superseded hstate htime => exact hrecord.advance (congrArg some hstate) htime
  | revoked hsuperseded hrevoked htime =>
    exact hrecord.advance
      ⟨Option.some_ne_none _, by simpa using hsuperseded, by simpa using hrevoked⟩ htime

theorem ModelRegistry.Recorded.step (h : registry.Recorded) (call : RegistryCall p) :
    (registry.step call).1.Recorded := by
  cases hcall : registry.call call with
  | error e => rwa [step_of_error hcall]
  | ok next =>
    rw [step_of_ok hcall]
    -- One record is written; the others keep their histories.
    have hinsert {modelId amended} (hamended : amended.Recorded)
        (hnext : next.records = registry.records.insert modelId amended) : next.Recorded := by
      intro other record hrecord
      rw [hnext, ExtTreeMap.getElem?_insert] at hrecord
      split at hrecord
      · exact Option.some.inj hrecord ▸ hamended
      · exact h other record hrecord
    cases call_eq_ok hcall with
    | registered _ _ hnext =>
      exact hinsert ⟨⟨rfl, rfl, .singleton _⟩, List.forall_mem_singleton.mpr ⟨rfl, rfl⟩⟩ hnext
    | advanced hrecord hadvance hnext => exact hinsert (hadvance.recorded (h _ _ hrecord)) hnext

/-- In every run the history of every model is a trail. -/
theorem lifecycle_trail (calls : List (RegistryCall p)) :
    (runAll ModelRegistry.step .new calls).Recorded := by
  refine run_induction _ (fun _ => ModelRegistry.Recorded) (fun modelId record hrecord => ?_)
    (fun _ _ call h => h.step call) calls
  rw [ModelRegistry.new, ExtTreeMap.getElem?_empty] at hrecord
  cases hrecord

end

end CryptoIntelligence.Models
