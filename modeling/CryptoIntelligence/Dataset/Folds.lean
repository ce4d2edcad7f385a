/-
  Purged nested walk-forward folds (`dataset`, `folds.rs`). Times are nanoseconds; the checked `i64`
  and `u64` operations of the source are integers with an explicit bound. The JSON text and the
  blake3 hash of a fold are parameters.

  The two loops run with fuel, `none` standing for a loop that does not end.
-/
import CryptoIntelligence.Lib.Codec
import CryptoIntelligence.Lib.Grouping
import CryptoIntelligence.Lib.Loop
import CryptoIntelligence.Lib.Text

namespace CryptoIntelligence.Dataset

open Lib

/-! ## Samples and ranges -/

/-- The errors of the fold builder. -/
inductive DatasetError where
  | invalidSample
  | sampleCapacity
  | nonMonotonicSamples
  | insufficientHistory
  | invalidFoldConfiguration
  | invalidFold
  | foldCapacity
  | foldSerialization
  | timeOverflow
  deriving DecidableEq, Repr

def nanosPerSecond : Nat := 1000000000

def daySeconds : Nat := 86400

def maximumSamples : Nat := 10000000

def maximumFolds : Nat := 10000

/-- A time-ordered model sample with its complete outcome and knowledge boundary. -/
structure Sample where
  id : Nat
  originTimeNs : Int
  outcomeEndNs : Int
  asKnownAtNs : Int
  id_ne_zero : id ≠ 0
  origin_pos : 0 < originTimeNs
  origin_le_outcome : originTimeNs ≤ outcomeEndNs
  outcome_le_known : outcomeEndNs ≤ asKnownAtNs
  deriving DecidableEq

def Sample.tryNew (id : Nat) (originTimeNs outcomeEndNs asKnownAtNs : Int) :
    Except DatasetError Sample :=
  if h : id ≠ 0 ∧ 0 < originTimeNs ∧ originTimeNs ≤ outcomeEndNs ∧ outcomeEndNs ≤ asKnownAtNs then
    .ok ⟨id, originTimeNs, outcomeEndNs, asKnownAtNs, h.1, h.2.1, h.2.2.1, h.2.2.2⟩
  else .error .invalidSample

/-- The half-open time range of one role of a fold. -/
structure TimeRange where
  startNs : Int
  endNs : Int
  start_pos : 0 < startNs
  start_lt_end : startNs < endNs
  deriving DecidableEq

def TimeRange.tryNew (startNs endNs : Int) : Except DatasetError TimeRange :=
  if h : 0 < startNs ∧ startNs < endNs then .ok ⟨startNs, endNs, h.1, h.2⟩ else .error .invalidFold

/-- `i64` arithmetic. -/
def checkedI64 (value : Int) : Except DatasetError Int := do
  reject (¬ (-2 ^ 63 ≤ value ∧ value < 2 ^ 63)) .timeOverflow
  return value

def checkedAdd (left right : Int) : Except DatasetError Int := checkedI64 (left + right)

/-- `u64` arithmetic. -/
def checkedU64 (value : Nat) : Except DatasetError Nat := do
  reject (value ≥ 2 ^ 64) .timeOverflow
  return value

def secondsToNs (seconds : Nat) : Except DatasetError Int := do
  let value ← checkedU64 (seconds * nanosPerSecond)
  checkedI64 value

def validateSamples (samples : List Sample) : Except DatasetError Unit := do
  reject (samples = []) .insufficientHistory
  reject (samples.length > maximumSamples) .sampleCapacity
  reject (anyNeighbours (fun a b => decide (a.originTimeNs ≥ b.originTimeNs) ||
    decide (a.id ≥ b.id)) samples) .nonMonotonicSamples

/-- The number of leading samples that come before a time. The source searches it by bisection in a
    list that is sorted by origin. -/
def partitionPoint (samples : List Sample) (time : Int) : Nat :=
  (samples.takeWhile fun sample => sample.originTimeNs < time).length

def samplesInRange (samples : List Sample) (range : TimeRange) : List Sample :=
  (samples.take (partitionPoint samples range.endNs)).drop (partitionPoint samples range.startNs)

/-- The outcome of the sample is complete and known when the range ends. -/
def isEligible (range : TimeRange) (sample : Sample) : Bool :=
  decide (sample.outcomeEndNs ≤ range.endNs) && decide (sample.asKnownAtNs ≤ range.endNs)

def selectSamples (samples : List Sample) (range : TimeRange) :
    Except DatasetError (List Sample) := do
  validateSamples samples
  return (samplesInRange samples range).filter (isEligible range)

def hasEligibleSample (samples : List Sample) (range : TimeRange) : Bool :=
  (samplesInRange samples range).any (isEligible range)

/-! ## Folds -/

structure InnerFold where
  training : TimeRange
  validation : TimeRange
  purgeEmbargoNs : Int
  foldHash : Bytes
  deriving DecidableEq

structure OuterFold where
  training : TimeRange
  innerFolds : List InnerFold
  calibration : TimeRange
  test : TimeRange
  purgeEmbargoNs : Int
  foldHash : Bytes
  deriving DecidableEq

namespace InnerFold

def trainingSamples (fold : InnerFold) (samples : List Sample) :
    Except DatasetError (List Sample) :=
  selectSamples samples fold.training

def validationSamples (fold : InnerFold) (samples : List Sample) :
    Except DatasetError (List Sample) :=
  selectSamples samples fold.validation

end InnerFold

namespace OuterFold

def trainingSamples (fold : OuterFold) (samples : List Sample) :
    Except DatasetError (List Sample) :=
  selectSamples samples fold.training

def calibrationSamples (fold : OuterFold) (samples : List Sample) :
    Except DatasetError (List Sample) :=
  selectSamples samples fold.calibration

def testSamples (fold : OuterFold) (samples : List Sample) : Except DatasetError (List Sample) :=
  selectSamples samples fold.test

end OuterFold

/-- What the hash of a fold covers. -/
inductive FoldHashWire where
  | inner (schemaVersion : Nat) (training validation : TimeRange) (purgeEmbargoNs : Int)
  | outer (schemaVersion : Nat) (training : TimeRange) (innerFoldHashes : List Bytes)
      (calibration test : TimeRange) (purgeEmbargoNs : Int) (roleOrder : List String)

def foldHashDomain : Bytes := text "cmti:walk-forward-fold:v1" ++ [0]

/-- The third-party functions: `serde_json::to_vec` and blake3. -/
structure Hashing where
  toVec : FoldHashWire → Option Bytes
  blake3 : Bytes → Bytes

def hashFold (hashing : Hashing) (value : FoldHashWire) : Except DatasetError Bytes := do
  let bytes ← required (hashing.toVec value) .foldSerialization
  return hashing.blake3 (foldHashDomain ++ bytes)

structure FoldBuilder where
  purgeEmbargoNs : Int
  initialTrainingNs : Int
  minimumInnerTrainingNs : Int
  innerValidationNs : Int
  calibrationNs : Int
  testNs : Int
  stepNs : Int
  deriving DecidableEq

structure WalkForwardSchedule where
  initialTrainingSeconds : Nat
  minimumInnerTrainingSeconds : Nat
  innerValidationSeconds : Nat
  calibrationSeconds : Nat
  testSeconds : Nat
  stepSeconds : Nat

def WalkForwardSchedule.reference : WalkForwardSchedule :=
  ⟨180 * daySeconds, 60 * daySeconds, 30 * daySeconds, 30 * daySeconds, 30 * daySeconds,
    30 * daySeconds⟩

namespace FoldBuilder

def tryWithSchedule (maximumOutcomeHorizonSeconds maximumPublicationLagSeconds : Nat)
    (schedule : WalkForwardSchedule) : Except DatasetError FoldBuilder := do
  reject (maximumOutcomeHorizonSeconds = 0) .invalidFoldConfiguration
  reject (0 ∈ [schedule.initialTrainingSeconds, schedule.minimumInnerTrainingSeconds,
      schedule.innerValidationSeconds, schedule.calibrationSeconds, schedule.testSeconds,
      schedule.stepSeconds] ∨
      schedule.minimumInnerTrainingSeconds ≥ schedule.initialTrainingSeconds)
    .invalidFoldConfiguration
  let purgeEmbargoSeconds ←
    checkedU64 (maximumOutcomeHorizonSeconds + maximumPublicationLagSeconds)
  let history ← checkedU64 (schedule.minimumInnerTrainingSeconds + purgeEmbargoSeconds)
  let innerHistorySeconds ← checkedU64 (history + schedule.innerValidationSeconds)
  reject (innerHistorySeconds > schedule.initialTrainingSeconds) .invalidFoldConfiguration
  let purgeEmbargoNs ← secondsToNs purgeEmbargoSeconds
  let initialTrainingNs ← secondsToNs schedule.initialTrainingSeconds
  let minimumInnerTrainingNs ← secondsToNs schedule.minimumInnerTrainingSeconds
  let innerValidationNs ← secondsToNs schedule.innerValidationSeconds
  let calibrationNs ← secondsToNs schedule.calibrationSeconds
  let testNs ← secondsToNs schedule.testSeconds
  let stepNs ← secondsToNs schedule.stepSeconds
  return { purgeEmbargoNs, initialTrainingNs, minimumInnerTrainingNs, innerValidationNs
           calibrationNs, testNs, stepNs }

def tryNew (maximumOutcomeHorizonSeconds maximumPublicationLagSeconds : Nat) :
    Except DatasetError FoldBuilder :=
  tryWithSchedule maximumOutcomeHorizonSeconds maximumPublicationLagSeconds .reference

variable (hashing : Hashing) (builder : FoldBuilder)

/-- One inner fold and the next validation start; `inr` when the training range is used up. -/
def innerFold (outerTraining : TimeRange) (s : Int × List InnerFold) :
    Except DatasetError ((Int × List InnerFold) ⊕ List InnerFold) := do
  let (validationStart, folds) := s
  let validationEnd ← checkedAdd validationStart builder.innerValidationNs
  if validationEnd > outerTraining.endNs then return .inr folds
  else
    let trainingEnd ← checkedI64 (validationStart - builder.purgeEmbargoNs)
    let training ← TimeRange.tryNew outerTraining.startNs trainingEnd
    let validation ← TimeRange.tryNew validationStart validationEnd
    let foldHash ← hashFold hashing (.inner 1 training validation builder.purgeEmbargoNs)
    let next ← checkedAdd validationStart builder.stepNs
    return .inl (next, folds ++ [⟨training, validation, builder.purgeEmbargoNs, foldHash⟩])

/-- A step of a loop whose body may return early. -/
def stepOf {σ ρ : Type} (body : σ → Except DatasetError (σ ⊕ ρ)) (s : σ) :
    σ ⊕ Except DatasetError ρ :=
  match body s with
  | .ok (.inl next) => .inl next
  | .ok (.inr result) => .inr (.ok result)
  | .error err => .inr (.error err)

/-- Every round moves the validation start by a nanosecond at least. -/
def buildInnerFolds (outerTraining : TimeRange) : Option (Except DatasetError (List InnerFold)) :=
  match (do
    let start ← checkedAdd outerTraining.startNs builder.minimumInnerTrainingNs
    checkedAdd start builder.purgeEmbargoNs) with
  | .error err => some (.error err)
  | .ok validationStart =>
    loop (stepOf (innerFold hashing builder outerTraining))
      ((outerTraining.endNs - validationStart).toNat + 1) (validationStart, [])

/-- The boundaries of the roles of the fold that starts at a time. -/
structure FoldTimes where
  trainingEnd : Int
  calibrationStart : Int
  calibrationEnd : Int
  testStart : Int
  testEnd : Int

def foldTimes (trainingStart : Int) : Except DatasetError FoldTimes := do
  let trainingEnd ← checkedAdd trainingStart builder.initialTrainingNs
  let calibrationStart ← checkedAdd trainingEnd builder.purgeEmbargoNs
  let calibrationEnd ← checkedAdd calibrationStart builder.calibrationNs
  let testStart ← checkedAdd calibrationEnd builder.purgeEmbargoNs
  let testEnd ← checkedAdd testStart builder.testNs
  return { trainingEnd, calibrationStart, calibrationEnd, testStart, testEnd }

def requireEligibleSamples (samples : List Sample) (training : TimeRange)
    (innerFolds : List InnerFold) (calibration test : TimeRange) : Except DatasetError Unit :=
  reject (!hasEligibleSample samples training || !hasEligibleSample samples calibration
      || !hasEligibleSample samples test
      || innerFolds.any fun inner => !hasEligibleSample samples inner.training
        || !hasEligibleSample samples inner.validation) .insufficientHistory

/-- The checks of a fold with its inner folds, and the state of the loop after it. -/
def pushFold (samples : List Sample) (training calibration test : TimeRange)
    (innerFolds : List InnerFold) (s : Int × List OuterFold) :
    Except DatasetError (Int × List OuterFold) := do
  reject (innerFolds = []) .insufficientHistory
  requireEligibleSamples samples training innerFolds calibration test
  let foldHash ← hashFold hashing (.outer 1 training (innerFolds.map (·.foldHash)) calibration test
    builder.purgeEmbargoNs ["selection", "outer_fit", "calibration", "untouched_test"])
  reject (s.2.length = maximumFolds) .foldCapacity
  let next ← checkedAdd s.1 builder.stepNs
  return (next, s.2 ++
    [⟨training, innerFolds, calibration, test, builder.purgeEmbargoNs, foldHash⟩])

/-- One round of the outer loop, on the start of the next fold and the folds so far. -/
def outerStep (samples : List Sample) (coverageEnd : Int) (s : Int × List OuterFold) :
    (Int × List OuterFold) ⊕ Option (Except DatasetError (List OuterFold)) :=
  match builder.foldTimes s.1 with
  | .error err => .inr (some (.error err))
  | .ok times =>
    if times.testEnd > coverageEnd then .inr (some (.ok s.2))
    else
      match (do
        let training ← TimeRange.tryNew s.1 times.trainingEnd
        let calibration ← TimeRange.tryNew times.calibrationStart times.calibrationEnd
        let test ← TimeRange.tryNew times.testStart times.testEnd
        return (training, calibration, test)) with
      | .error err => .inr (some (.error err))
      | .ok (training, calibration, test) =>
        match builder.buildInnerFolds hashing training with
        | none => .inr none
        | some (.error err) => .inr (some (.error err))
        | some (.ok innerFolds) =>
          match builder.pushFold hashing samples training calibration test innerFolds s with
          | .error err => .inr (some (.error err))
          | .ok next => .inl next

def outerFolds (samples : List Sample) : Option (Except DatasetError (List OuterFold)) :=
  match (do
    validateSamples samples
    let first ← required samples.head? .insufficientHistory
    let last ← required samples.getLast? .insufficientHistory
    let coverageEnd ← checkedAdd last.originTimeNs 1
    return (first.originTimeNs, coverageEnd)) with
  | .error err => some (.error err)
  | .ok (trainingStart, coverageEnd) =>
    -- a round past the maximum number of folds returns an error
    match (loop (outerStep hashing builder samples coverageEnd) (maximumFolds + 1)
        (trainingStart, [])).join with
    | none => none
    | some (.error err) => some (.error err)
    | some (.ok folds) => some (if folds = [] then .error .insufficientHistory else .ok folds)

end FoldBuilder

end CryptoIntelligence.Dataset
