/-
  Isotonic calibration by pooling adjacent violators (`calibration/src/isotonic.rs`).

  The blocks are kept as a stack, the last block first. A row joins the last block where the logits
  are equal and is otherwise a block of its own; then the last two blocks are pooled while the rate
  of the left one is the greater.
-/
import CryptoIntelligence.Lib.Isotonic
import CryptoIntelligence.Calibration.Observation

namespace CryptoIntelligence.Calibration

open Lib

structure Block (F : Type) where
  upperLogit : F
  positiveWeight : F
  weight : F

/-- A row of `ordered`: the raw logit, the weighted outcome and the weight. -/
abbrev OrderedRow (F : Type) := WeightedRow F F

variable {F : Type} (ops : CalibrationFloats F)

def orderedRow (observation : CalibrationObservation F) : OrderedRow F :=
  ⟨observation.rawLogit,
    ops.mul (if observation.outcome then ops.ofNat 1 else ops.ofNat 0) observation.weight,
    observation.weight⟩

/-- The rows by raw logit; rows of one logit keep their order. -/
def orderedRows (observations : List (CalibrationObservation F)) : List (OrderedRow F) :=
  (observations.map (orderedRow ops)).insertionSort fun left right =>
    ops.totalLe left.key right.key = true

def Block.rate (block : Block F) : F := ops.div block.positiveWeight block.weight

def Block.pooled (left right : Block F) : Block F :=
  ⟨right.upperLogit, ops.add left.positiveWeight right.positiveWeight,
    ops.add left.weight right.weight⟩

/-- The loop that pools the last blocks. -/
def poolBlocks (right : Block F) : List (Block F) → List (Block F)
  | [] => [right]
  | left :: rest =>
    if ops.le (left.rate ops) (right.rate ops) then right :: left :: rest
    else poolBlocks (left.pooled ops right) rest

/-- One row: into the last block of its logit or a block of its own, then pooling. -/
def insertRow (blocks : List (Block F)) (row : OrderedRow F) : List (Block F) :=
  match blocks with
  | [] => poolBlocks ops ⟨row.key, row.positive, row.weight⟩ []
  | last :: rest =>
    if ops.eq last.upperLogit row.key then
      poolBlocks ops ⟨last.upperLogit, ops.add last.positiveWeight row.positive,
        ops.add last.weight row.weight⟩ rest
    else poolBlocks ops ⟨row.key, row.positive, row.weight⟩ (last :: rest)

/-- The blocks of a calibration set, by rising logit. -/
def fittedBlocks (observations : List (CalibrationObservation F)) : List (Block F) :=
  ((orderedRows ops observations).foldl (insertRow ops) []).reverse

structure IsotonicCalibrator (F : Type) where
  schemaVersion : Nat
  calibrationEvidenceId : String
  upperLogits : List F
  calibratedProbabilities : List F
  observations : Nat
  effectiveSampleSize : F

/-- The boundary transform of a rate. -/
def boundaryTransform (epsilon rate : F) : F :=
  ops.add epsilon (ops.mul (ops.sub (ops.ofNat 1) (ops.mul (ops.ofNat 2) epsilon)) rate)

/-- `epsilon` of the boundary transform. -/
def boundaryEpsilon (effectiveSampleSize : F) : F :=
  ops.div (ops.div (ops.ofNat 1) (ops.ofNat 2)) (ops.add effectiveSampleSize (ops.ofNat 1))

/-- The first position whose upper logit is not below the given one; the last position at most. -/
def blockPosition (upperLogits : List F) (count : Nat) (rawLogit : F) : Nat :=
  min (upperLogits.takeWhile fun upper => ops.lt upper rawLogit).length (count - 1)

/-- The rate of the block of a logit, before the boundary transform. -/
def blockRate (blocks : List (Block F)) (rawLogit : F) : Option F :=
  (blocks[blockPosition ops (blocks.map Block.upperLogit) blocks.length rawLogit]?).map
    (Block.rate ops)

namespace IsotonicCalibrator

def validate (calibrator : IsotonicCalibrator F) : Except CalibrationError Unit :=
  reject (¬ (calibrator.schemaVersion = 1 ∧
    validateIdentifier calibrator.calibrationEvidenceId = .ok () ∧
    8 ≤ calibrator.observations ∧ calibrator.observations ≤ 1000000 ∧
    validEffectiveSampleSize ops calibrator.effectiveSampleSize calibrator.observations = true ∧
    calibrator.upperLogits ≠ [] ∧
    calibrator.upperLogits.length = calibrator.calibratedProbabilities.length ∧
    calibrator.upperLogits.length ≤ calibrator.observations ∧
    calibrator.upperLogits.all ops.isFinite = true ∧
    calibrator.upperLogits.IsChain (fun a b => ops.lt a b = true) ∧
    calibrator.calibratedProbabilities.all (fun probability =>
      ops.isFinite probability && ops.lt (ops.ofNat 0) probability
        && ops.lt probability (ops.ofNat 1)) = true ∧
    calibrator.calibratedProbabilities.IsChain (fun a b => ops.le a b = true))) .invalidCalibrator

def fit (calibration : CalibrationSet F) : Except CalibrationError (IsotonicCalibrator F) := do
  calibration.validate ops
  let blocks := fittedBlocks ops calibration.observations
  let effectiveSampleSize ← kishEffectiveSampleSize ops
    (calibration.observations.map CalibrationObservation.weight) calibration.observations.length
  let epsilon := boundaryEpsilon ops effectiveSampleSize
  let calibrator : IsotonicCalibrator F :=
    ⟨1, calibration.evidenceId, blocks.map Block.upperLogit,
      blocks.map fun block => boundaryTransform ops epsilon (block.rate ops),
      calibration.observations.length, effectiveSampleSize⟩
  calibrator.validate ops
  pure calibrator

def calibrateLogit (calibrator : IsotonicCalibrator F) (rawLogit : F) :
    Except CalibrationError F := do
  calibrator.validate ops
  reject (ops.isFinite rawLogit = false) .nonFiniteArithmetic
  required calibrator.calibratedProbabilities[blockPosition ops calibrator.upperLogits
    calibrator.calibratedProbabilities.length rawLogit]? .undefinedMetric

def calibrate (calibrator : IsotonicCalibrator F) (probability : F) :
    Except CalibrationError F := do
  calibrator.validate ops
  let probability ← requireOpenProbability ops probability
  calibrator.calibrateLogit ops (ops.ln (ops.div probability (ops.sub (ops.ofNat 1) probability)))

end IsotonicCalibrator

end CryptoIntelligence.Calibration
