/-
  Label paths (`labels`, `first_passage.rs`): the frames of a market after an origin, each with the
  time at which it became known, and the search for the first lasting passage.

  Prices and the other floating-point readings are of a type of their own, with its operations as a
  parameter. The blake3 hash is a parameter.
-/
import CryptoIntelligence.Lib.Codec
import CryptoIntelligence.Lib.Floats
import CryptoIntelligence.Lib.Grouping
import CryptoIntelligence.Quality.SourceHealth

namespace CryptoIntelligence.Labels

open Lib Quality

/-! ## Frames -/

inductive LabelError where
  | invalidFrame
  | preEventKnowledge
  | invalidChronology
  | pathCapacity
  | unknownHorizon
  deriving DecidableEq, Repr

inductive ExclusionReason where
  | unhealthyOrigin
  | lowQualityOrigin
  | missingEvidence
  | invalidVolatilityScale
  | insufficientCorroboration
  | insufficientConfidence
  | haltedOrDelisted
  | instrumentDefinitionChanged
  | unresolvedCorrection
  | timestampIntegrityCompromised
  | simultaneousCompetingEvents
  deriving DecidableEq, Repr

inductive LabelOutcome where
  | occurred (offsetSeconds : UInt64)
  | notOccurred
  | censored (observedSeconds : UInt64)
  | excluded (reason : ExclusionReason)
  deriving DecidableEq, Repr

inductive MarketEligibility where
  | eligible
  | haltedOrDelisted
  | instrumentDefinitionChanged
  | unresolvedCorrection
  | timestampIntegrityCompromised
  deriving DecidableEq, Repr

def MarketEligibility.exclusionReason : MarketEligibility → Option ExclusionReason
  | .eligible => none
  | .haltedOrDelisted => some .haltedOrDelisted
  | .instrumentDefinitionChanged => some .instrumentDefinitionChanged
  | .unresolvedCorrection => some .unresolvedCorrection
  | .timestampIntegrityCompromised => some .timestampIntegrityCompromised

def maximumPathFrames : Nat := 4096

def maximumCorroboratingSources : UInt32 := 64

def oneMillion : UInt32 := 1000000

structure MarketFrameInput (F : Type) where
  offsetSeconds : UInt64
  knownAtOffsetSeconds : UInt64
  price : Option F
  volatility : Option F
  spreadBps : Option F
  displayedDepth : Option F
  cancellationRate : Option F
  sweepCostBps : Option F
  resiliencySeconds : Option F
  liquidationNotional : Option F
  openInterest : Option F
  corroboratingSources : UInt32
  qualityMillionths : UInt32
  sourceCoverageMillionths : UInt32
  liquidationConfidenceMillionths : UInt32
  sourceHealth : SourceHealthState
  eligibility : MarketEligibility
  finalized : Bool
  deriving DecidableEq

/-- A frame of a price, finalized and healthy, known when it happened. -/
def MarketFrameInput.ofPrice {F : Type} (offsetSeconds : UInt64) (price : F) :
    MarketFrameInput F where
  offsetSeconds
  knownAtOffsetSeconds := offsetSeconds
  price := some price
  volatility := none
  spreadBps := none
  displayedDepth := none
  cancellationRate := none
  sweepCostBps := none
  resiliencySeconds := none
  liquidationNotional := none
  openInterest := none
  corroboratingSources := 0
  qualityMillionths := oneMillion
  sourceCoverageMillionths := oneMillion
  liquidationConfidenceMillionths := 0
  sourceHealth := .healthy
  eligibility := .eligible
  finalized := true

variable {F : Type} (ops : FloatOps F)

def positiveFinite (value : F) : Bool := ops.isFinite value && ops.lt (ops.ofNat 0) value

def nonnegativeFinite (value : F) : Bool := ops.isFinite value && ops.le (ops.ofNat 0) value

def MarketFrameInput.validate (input : MarketFrameInput F) : Except LabelError Unit := do
  reject (input.knownAtOffsetSeconds < input.offsetSeconds) .preEventKnowledge
  reject (input.corroboratingSources > maximumCorroboratingSources
    ∨ input.qualityMillionths > oneMillion
    ∨ input.sourceCoverageMillionths > oneMillion
    ∨ input.liquidationConfidenceMillionths > oneMillion
    ∨ (input.price.any fun value => !positiveFinite ops value) = true
    ∨ (input.volatility.any fun value => !nonnegativeFinite ops value) = true
    ∨ (input.spreadBps.any fun value => !nonnegativeFinite ops value) = true
    ∨ (input.displayedDepth.any fun value => !nonnegativeFinite ops value) = true
    ∨ (input.cancellationRate.any fun value => !nonnegativeFinite ops value) = true
    ∨ (input.sweepCostBps.any fun value => !nonnegativeFinite ops value) = true
    ∨ (input.resiliencySeconds.any fun value => !nonnegativeFinite ops value) = true
    ∨ (input.liquidationNotional.any fun value => !nonnegativeFinite ops value) = true
    ∨ (input.openInterest.any fun value => !positiveFinite ops value) = true) .invalidFrame

/-- A frame that passed its checks. -/
structure MarketFrame extends MarketFrameInput F where
  valid : toMarketFrameInput.validate ops = .ok ()

def MarketFrame.tryNew (input : MarketFrameInput F) : Except LabelError (MarketFrame ops) := do
  let ⟨_, h⟩ ← attach (input.validate ops)
  return ⟨input, h⟩

variable {ops}

/-- The frame counts at the time of a decision. -/
def MarketFrame.isTrustworthyAt (frame : MarketFrame ops) (decisionOffsetSeconds : UInt64)
    (minimumQualityMillionths minimumSourceCoverageMillionths : UInt32) : Bool :=
  frame.finalized && decide (frame.sourceHealth = .healthy) &&
    decide (frame.eligibility = .eligible)
    && decide (frame.knownAtOffsetSeconds ≤ decisionOffsetSeconds)
    && decide (minimumQualityMillionths ≤ frame.qualityMillionths)
    && decide (minimumSourceCoverageMillionths ≤ frame.sourceCoverageMillionths)

/-! ## Paths -/

/-- Neighbouring frames are one cadence apart, and knowledge does not regress. -/
def follows (cadenceSeconds : UInt64) (a b : MarketFrame ops) : Bool :=
  decide (a.offsetSeconds.toNat + cadenceSeconds.toNat = b.offsetSeconds.toNat)
    && decide (a.knownAtOffsetSeconds ≤ b.knownAtOffsetSeconds)

/-- The checks of a path on its frames. -/
def validateChronology (frames : List (MarketFrame ops)) : Except LabelError Unit :=
  match frames with
  | first :: second :: rest => do
    reject ((first :: second :: rest).length > maximumPathFrames) .pathCapacity
    reject (first.offsetSeconds ≠ 0 ∨ first.knownAtOffsetSeconds ≠ 0 ∨ second.offsetSeconds = 0
      ∨ anyNeighbours (fun a b => !follows second.offsetSeconds a b)
        (first :: second :: rest) = true)
      .invalidChronology
  | _ => .error .pathCapacity

def hashString (value : String) : Bytes :=
  (u64be (UInt64.ofNat (utf8 value).length)).reverse ++ utf8 value

def healthCode : SourceHealthState → UInt8
  | .healthy => 1
  | .degraded => 2
  | .unhealthy => 3
  | .quarantined => 4
  | .recovering => 5

def eligibilityCode : MarketEligibility → UInt8
  | .eligible => 1
  | .haltedOrDelisted => 2
  | .instrumentDefinitionChanged => 3
  | .unresolvedCorrection => 4
  | .timestampIntegrityCompromised => 5

/-- The bytes of a frame; integers are little-endian. -/
def frameBytes (frame : MarketFrame ops) : Bytes :=
  (u64be frame.offsetSeconds).reverse ++ (u64be frame.knownAtOffsetSeconds).reverse
    ++ [frame.price, frame.volatility, frame.spreadBps, frame.displayedDepth,
      frame.cancellationRate,
        frame.sweepCostBps, frame.resiliencySeconds, frame.liquidationNotional,
        frame.openInterest].flatMap (fun value => match value with
      | some value => 1 :: (u64be (ops.toBits value)).reverse
      | none => [0])
    ++ (u32be frame.corroboratingSources).reverse ++ (u32be frame.qualityMillionths).reverse
    ++ (u32be frame.sourceCoverageMillionths).reverse
    ++ (u32be frame.liquidationConfidenceMillionths).reverse
    ++ [healthCode frame.sourceHealth, eligibilityCode frame.eligibility,
        if frame.finalized then 1 else 0]

def pathBytes (entityId : String) (originTimeNs : Int64) (episodeClusterId : String)
    (provenanceBound : Bool) (frames : List (MarketFrame ops)) : Bytes :=
  text "cmti:label-path:v2" ++ [0] ++ hashString entityId ++ (i64be originTimeNs).reverse
    ++ hashString episodeClusterId ++ [if provenanceBound then 1 else 0]
    ++ (u64be (UInt64.ofNat frames.length)).reverse ++ frames.flatMap frameBytes

variable (ops)

/-- Not empty, at most 256 bytes, without control characters and blanks. -/
def validIdentifier (identifier : String) : Bool :=
  let bytes := utf8 identifier
  !bytes.isEmpty && decide (bytes.length ≤ 256)
    && bytes.all fun byte => !(decide (byte < 32) || byte == 127) && !(byte == 32)

/-- A path of an entity whose frames are in order. -/
structure LabelPath where
  entityId : String
  originTimeNs : Int64
  episodeClusterId : String
  provenanceBound : Bool
  frames : List (MarketFrame ops)
  identified : ¬ (originTimeNs ≤ 0 ∨ validIdentifier entityId = false
    ∨ validIdentifier episodeClusterId = false)
  ordered : validateChronology frames = .ok ()

/-- The path of an entity, or with `provenanceBound = false` one of a fixture. The length is checked
    before the frames are. -/
def LabelPath.tryNewWith (provenanceBound : Bool) (entityId : String) (originTimeNs : Int64)
    (episodeClusterId : String) (inputs : List (MarketFrameInput F)) :
    Except LabelError (LabelPath ops) := do
  if identified : ¬ (originTimeNs ≤ 0 ∨ validIdentifier entityId = false
      ∨ validIdentifier episodeClusterId = false) then
    reject (inputs.length < 2 ∨ inputs.length > maximumPathFrames) .pathCapacity
    let frames ← inputs.mapM (MarketFrame.tryNew ops)
    let ⟨_, ordered⟩ ← attach (validateChronology frames)
    return ⟨entityId, originTimeNs, episodeClusterId, provenanceBound, frames, identified, ordered⟩
  else throw .invalidFrame

def LabelPath.tryNew (inputs : List (MarketFrameInput F)) : Except LabelError (LabelPath ops) :=
  LabelPath.tryNewWith ops false "unbound_fixture" 1 "unbound_fixture_episode" inputs

def LabelPath.tryNewBound (entityId : String) (originTimeNs : Int64) (episodeClusterId : String)
    (inputs : List (MarketFrameInput F)) : Except LabelError (LabelPath ops) :=
  LabelPath.tryNewWith ops true entityId originTimeNs episodeClusterId inputs

variable {ops}

/-- The source stores the hash with the path. -/
def LabelPath.evidenceHash (blake3 : Bytes → Bytes) (path : LabelPath ops) : Bytes :=
  blake3 (pathBytes path.entityId path.originTimeNs path.episodeClusterId path.provenanceBound
    path.frames)

theorem LabelPath.frames_ne_nil (path : LabelPath ops) : path.frames ≠ [] := by
  intro h
  have hordered := path.ordered
  rw [h] at hordered
  cases hordered

def LabelPath.origin (path : LabelPath ops) : MarketFrame ops := path.frames.head path.frames_ne_nil

/-! ## The first lasting passage -/

structure FirstPassageEvaluation where
  outcome : LabelOutcome
  knownAtOffsetSeconds : UInt64
  deriving DecidableEq

/-- The variables of the loop. -/
structure PassageState where
  runStart : Option UInt64
  lastTrustworthy : Option UInt64
  lastKnownAt : UInt64
  deriving DecidableEq

/-- What the loop asks of the frames. -/
structure PassageQuery (ops : FloatOps F) where
  horizonSeconds : UInt64
  minimumDurationSeconds : UInt64
  minimumQualityMillionths : UInt32
  minimumSourceCoverageMillionths : UInt32
  condition : MarketFrame ops → Option Bool

def withinHorizon (horizonSeconds : UInt64) (frames : List (MarketFrame ops)) :
    List (MarketFrame ops) :=
  frames.takeWhile fun frame => frame.offsetSeconds ≤ horizonSeconds

namespace PassageQuery

variable (query : PassageQuery ops)

def censoredAt (s : PassageState) : FirstPassageEvaluation :=
  ⟨.censored (s.lastTrustworthy.getD 0), s.lastKnownAt⟩

/-- One frame; an error is the evaluation with which the loop returns. -/
def observe (s : PassageState) (frame : MarketFrame ops) :
    Except FirstPassageEvaluation PassageState :=
  if frame.isTrustworthyAt query.horizonSeconds query.minimumQualityMillionths
      query.minimumSourceCoverageMillionths = false ∨ frame.price.isNone then
    match frame.eligibility.exclusionReason with
    | some reason => .error ⟨.excluded reason, frame.knownAtOffsetSeconds⟩
    | none => .error (censoredAt s)
  else
    match query.condition frame with
    | none =>
      if frame.offsetSeconds = 0 then .error ⟨.excluded .missingEvidence, s.lastKnownAt⟩
      else .error (censoredAt s)
    | some true =>
      let start := s.runStart.getD frame.offsetSeconds
      -- `saturating_sub`
      if query.minimumDurationSeconds.toNat ≤ frame.offsetSeconds.toNat - start.toNat then
        .error ⟨.occurred start, frame.knownAtOffsetSeconds⟩
      else .ok ⟨some start, some frame.offsetSeconds, frame.knownAtOffsetSeconds⟩
    | some false => .ok ⟨none, some frame.offsetSeconds, frame.knownAtOffsetSeconds⟩

/-- All frames were observed. -/
def finish (s : PassageState) : FirstPassageEvaluation :=
  let observedSeconds := s.lastTrustworthy.getD 0
  ⟨if observedSeconds < query.horizonSeconds then .censored observedSeconds else .notOccurred,
    s.lastKnownAt⟩

def firstPersistentPassage (frames : List (MarketFrame ops)) : FirstPassageEvaluation :=
  match (withinHorizon query.horizonSeconds frames).foldlM query.observe ⟨none, none, 0⟩ with
  | .error evaluation => evaluation
  | .ok s => query.finish s

end PassageQuery

end CryptoIntelligence.Labels
