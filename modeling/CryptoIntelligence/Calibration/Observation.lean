/-
  Observations and sets for calibration (`calibration/src/lib.rs`): a raw logit, its outcome and
  weight, and the times at which they were made and known.

  Arithmetic is over `CalibrationFloats`, which adds to `FloatOps` what this crate uses.
  `exactFloats` is exact arithmetic in an ordered field, with any functions for the exponential, the
  logarithms and the square root.
-/
import CryptoIntelligence.Lib.Checked
import CryptoIntelligence.Lib.Floats
import CryptoIntelligence.Lib.Text

namespace CryptoIntelligence.Calibration

open Lib

inductive CalibrationError
  | invalidPeriod
  | invalidIdentifier
  | invalidProbability
  | endpointProbability
  | invalidObservationTime
  | invalidObservationWeight
  | observationOutsidePeriod
  | observationOrder
  | observationCapacity
  | degenerateOutcomes
  | invalidCalibrator
  | nonFiniteArithmetic
  | undefinedMetric
  deriving DecidableEq

/-! ## Arithmetic -/

/-- The operations of `f64` that calibration uses; `totalLe` is the order of `total_cmp` and
    `epsilon` is `f64::EPSILON`. -/
structure CalibrationFloats (F : Type) extends FloatOps F where
  min : F → F → F
  exp : F → F
  totalLe : F → F → Bool
  epsilon : F

/-- The equality of floats. -/
def CalibrationFloats.eq {F : Type} (ops : CalibrationFloats F) (a b : F) : Bool :=
  ops.le a b && ops.le b a

/-- What exact arithmetic leaves open. -/
structure OpenFunctions (K : Type) where
  exp : K → K
  ln : K → K
  ln1p : K → K
  epsilon : K

/-- Exact arithmetic. -/
def exactFloats {K : Type} [Field K] [LinearOrder K] (functions : OpenFunctions K) :
    CalibrationFloats K where
  isFinite _ := true
  lt a b := decide (a < b)
  le a b := decide (a ≤ b)
  ofNat n := n
  ofInt n := n
  tenPow n := 10 ^ n
  neg a := -a
  abs a := |a|
  add a b := a + b
  sub a b := a - b
  mul a b := a * b
  div a b := a / b
  max a b := Max.max a b
  ln := functions.ln
  ln1p := functions.ln1p
  toBits _ := 0
  min a b := Min.min a b
  exp := functions.exp
  totalLe a b := decide (a ≤ b)
  epsilon := functions.epsilon

variable {F : Type} (ops : CalibrationFloats F)

/-- `sum` with the compensation of its last rounding. -/
structure CompensatedPair (F : Type) where
  sum : F
  compensation : F

def compensatedAdd (pair : CompensatedPair F) (value : F) : CompensatedPair F :=
  let adjusted := ops.sub value pair.compensation
  let next := ops.add pair.sum adjusted
  ⟨next, ops.sub (ops.sub next pair.sum) adjusted⟩

def zeroPair : CompensatedPair F := ⟨ops.ofNat 0, ops.ofNat 0⟩

def kishEffectiveSampleSize (weights : List F) (observations : Nat) :
    Except CalibrationError F := do
  reject (observations = 0) .invalidObservationWeight
  reject (weights.length ≠ observations ∨ weights.any (fun weight =>
    !ops.isFinite weight || ops.le weight (ops.ofNat 0)) = true) .invalidObservationWeight
  let scale := weights.foldl ops.max (ops.ofNat 0)
  let normalized := weights.map fun weight => ops.div weight scale
  let sum := (normalized.foldl (compensatedAdd ops) (zeroPair ops)).sum
  let sumSquares := ((normalized.map fun value => ops.mul value value).foldl (compensatedAdd ops)
    (zeroPair ops)).sum
  let effective := ops.div (ops.mul sum sum) sumSquares
  let upper := ops.ofNat observations
  let tolerance := ops.mul (ops.mul upper (ops.ofNat 128)) ops.epsilon
  reject (ops.isFinite effective = false ∨ ops.le effective (ops.ofNat 0) = true ∨
    ops.lt (ops.add upper tolerance) effective = true) .invalidObservationWeight
  pure (ops.min effective upper)

def validEffectiveSampleSize (effective : F) (observations : Nat) : Bool :=
  ops.isFinite effective && ops.lt (ops.ofNat 0) effective && decide (0 < observations)
    && ops.le effective (ops.mul (ops.ofNat observations)
      (ops.add (ops.ofNat 1) (ops.mul (ops.ofNat 128) ops.epsilon)))

def sigmoid (value : F) : Except CalibrationError F := do
  reject (ops.isFinite value = false) .nonFiniteArithmetic
  let probability :=
    if ops.le (ops.ofNat 0) value then
      ops.div (ops.ofNat 1) (ops.add (ops.ofNat 1) (ops.exp (ops.neg value)))
    else ops.div (ops.exp value) (ops.add (ops.ofNat 1) (ops.exp value))
  reject (ops.isFinite probability = false) .nonFiniteArithmetic
  pure probability

def requireOpenProbability (probability : F) : Except CalibrationError F := do
  reject (ops.isFinite probability = false ∨
    ¬ (ops.le (ops.ofNat 0) probability = true ∧ ops.le probability (ops.ofNat 1) = true))
    .invalidProbability
  reject (ops.eq probability (ops.ofNat 0) = true ∨ ops.eq probability (ops.ofNat 1) = true)
    .endpointProbability
  pure probability

/-! ## Periods and identifiers -/

def validateIdentifier (identifier : String) : Except CalibrationError Unit :=
  reject (identifier = "" ∨ 256 < (utf8 identifier).length ∨
    (utf8 identifier).any (fun b => isAsciiControl b || isAsciiWhitespace b) = true)
    .invalidIdentifier

/-- A closed-open period of time. -/
structure CalibrationPeriod where
  startNs : Int
  endNs : Int
  deriving DecidableEq

def validatePeriod (period : CalibrationPeriod) : Except CalibrationError Unit :=
  reject (period.startNs ≤ 0 ∨ period.endNs ≤ period.startNs) .invalidPeriod

/-! ## Observations -/

structure CalibrationObservation (F : Type) where
  rawLogit : F
  uncalibratedProbability : F
  weight : F
  outcome : Bool
  originTimeNs : Int
  outcomeTimeNs : Int
  asKnownAtNs : Int

def maximumAbsLogit : F := ops.ofNat 1000000

def validateTimes (originTimeNs outcomeTimeNs asKnownAtNs : Int) : Except CalibrationError Unit :=
  reject (originTimeNs ≤ 0 ∨ outcomeTimeNs ≤ originTimeNs ∨ asKnownAtNs < outcomeTimeNs)
    .invalidObservationTime

/-- A weight out of its bounds. -/
def weightRejected (weight : F) : Bool :=
  !ops.isFinite weight || ops.le weight (ops.ofNat 0) || ops.lt (ops.ofNat (10 ^ 12)) weight

/-! ## Calibration sets -/

/-- The checks of one observation against the period and the origin before it. -/
def validateObservation (period : CalibrationPeriod) (previousOrigin : Option Int)
    (observation : CalibrationObservation F) : Except CalibrationError Unit := do
  reject (ops.isFinite observation.uncalibratedProbability = false ∨
    ¬ (ops.le (ops.ofNat 0) observation.uncalibratedProbability = true ∧
      ops.le observation.uncalibratedProbability (ops.ofNat 1) = true) ∨
    ops.isFinite observation.rawLogit = false ∨
    ops.lt (maximumAbsLogit ops) (ops.abs observation.rawLogit) = true ∨
    weightRejected ops observation.weight = true) .invalidObservationWeight
  let reconstructed ← sigmoid ops observation.rawLogit
  reject (ops.lt
    (ops.mul (ops.mul (ops.ofNat 8) ops.epsilon)
      (ops.add (ops.ofNat 1) (ops.abs observation.uncalibratedProbability)))
    (ops.abs (ops.sub reconstructed observation.uncalibratedProbability)) = true)
    .invalidProbability
  validateTimes observation.originTimeNs observation.outcomeTimeNs observation.asKnownAtNs
  reject (observation.originTimeNs < period.startNs ∨ period.endNs ≤ observation.originTimeNs ∨
    period.endNs < observation.outcomeTimeNs ∨ period.endNs < observation.asKnownAtNs)
    .observationOutsidePeriod
  reject (previousOrigin.any (fun previous => decide (observation.originTimeNs < previous)) = true)
    .observationOrder

/-- The loop of `validate_observations` behind the origin of the previous observation. -/
def validateInOrder (period : CalibrationPeriod) :
    Option Int → List (CalibrationObservation F) → Except CalibrationError Unit
  | _, [] => .ok ()
  | previousOrigin, observation :: observations => do
    validateObservation ops period previousOrigin observation
    validateInOrder period (some observation.originTimeNs) observations

def minimumObservations : Nat := 8

def maximumObservations : Nat := 1000000

def validateObservations (period : CalibrationPeriod)
    (observations : List (CalibrationObservation F)) : Except CalibrationError Unit := do
  validatePeriod period
  reject (observations.length < minimumObservations ∨ maximumObservations < observations.length)
    .observationCapacity
  validateInOrder ops period none observations
  reject (observations.any CalibrationObservation.outcome = false ∨
    observations.any (fun observation => !observation.outcome) = false) .degenerateOutcomes

structure CalibrationSet (F : Type) where
  evidenceId : String
  period : CalibrationPeriod
  observations : List (CalibrationObservation F)

def CalibrationSet.validate (calibration : CalibrationSet F) : Except CalibrationError Unit := do
  validateIdentifier calibration.evidenceId
  validatePeriod calibration.period
  validateObservations ops calibration.period calibration.observations

end CryptoIntelligence.Calibration
