/-
  Venue weights of the consolidated market (`consolidated-market`, `capped_normalized_weights`).
  Every venue gets one part per million; the rest is split in proportion to the raw weights. A round
  caps the venues whose share exceeds what the cap leaves and splits the remainder among the others;
  when no venue exceeds it, the shares are rounded down and the missing units go, in one pass by
  largest remainder, to venues that are not at the cap.

  The definitions after the model say in closed form what a round leaves.

  An index is one of the list, so that no lookup can panic. Sums are natural numbers: at most a
  million weights below 2^64 do not overflow the `u128` of the source.
-/
import CryptoIntelligence.Lib.Checked
import CryptoIntelligence.Lib.Loop
import CryptoIntelligence.Lib.Apportion

namespace CryptoIntelligence.Consolidated

open Lib

/-- The errors of the weight computation. -/
inductive ConsolidatedError where
  | invalidConfig
  | arithmetic
  deriving DecidableEq, Repr

def ppmDenominator : Nat := 1000000

def positiveFloor : Nat := 1

/-- `u32::try_from` and `u32` sums. -/
def checkedU32 (value : Nat) : Except ConsolidatedError Nat := do
  reject (value ≥ 2 ^ 32) .arithmetic
  return value

/-- `remaining.checked_sub(amount)`. -/
def checkedSub (remaining amount : Nat) (err : ConsolidatedError) :
    Except ConsolidatedError Nat := do
  reject (remaining < amount) err
  return remaining - amount

/-- The variables of the loop: the share of every venue, the venues still to be served and what is
    left for them. -/
structure Allotment (n : Nat) where
  assigned : Fin n → Nat
  active : List (Fin n)
  remaining : Nat

variable (raw : List UInt64)

def rawWeight (i : Fin raw.length) : Nat := raw[i].toNat

/-- The venues whose share exceeds the cap. -/
def cappedVenues (residualCap : Nat) (active : List (Fin raw.length)) (remaining : Nat) :
    List (Fin raw.length) :=
  active.filter fun i => residualCap < quota (rawWeight raw) remaining active i

/-- One venue of the last round: its share rounded down, the sum of the shares so far, and the
    remainder of its division. -/
def allotVenue (active : List (Fin raw.length)) (remaining : Nat)
    (s : (Fin raw.length → Nat) × Nat × List (Fin raw.length × Nat)) (i : Fin raw.length) :
    Except ConsolidatedError ((Fin raw.length → Nat) × Nat × List (Fin raw.length × Nat)) := do
  let allocation ← checkedU32 (quota (rawWeight raw) remaining active i)
  let used ← checkedU32 (s.2.1 + allocation)
  return (Function.update s.1 i allocation, used,
    s.2.2 ++ [(i, leftover (rawWeight raw) remaining active i)])

/-- Larger remainders first, then lower indices. -/
def remainderBefore (left right : Fin raw.length × Nat) : Prop :=
  right.2 < left.2 ∨ (left.2 = right.2 ∧ left.1 ≤ right.1)

instance : DecidableRel (remainderBefore raw) := fun left right =>
  inferInstanceAs (Decidable (right.2 < left.2 ∨ (left.2 = right.2 ∧ left.1 ≤ right.1)))

/-- The last round: shares rounded down, and one pass over the venues for the missing units. -/
def distribute (residualCap : Nat) (s : Allotment raw.length) :
    Except ConsolidatedError (Fin raw.length → Nat) := do
  let (assigned, used, remainders) ←
    s.active.foldlM (allotVenue raw s.active s.remaining) (s.assigned, 0, [])
  let residual ← checkedSub s.remaining used .arithmetic
  let order := (remainders.insertionSort (remainderBefore raw)).map Prod.fst
  let (assigned, residual) := order.foldl (grantStep residualCap) (assigned, residual)
  reject (residual ≠ 0) .invalidConfig
  return assigned

/-- A capped venue takes what the cap leaves. -/
def capVenue (residualCap : Nat) (s : (Fin raw.length → Nat) × Nat) (i : Fin raw.length) :
    Except ConsolidatedError ((Fin raw.length → Nat) × Nat) := do
  let remaining ← checkedSub s.2 residualCap .invalidConfig
  return (Function.update s.1 i residualCap, remaining)

/-- One round: `inl` goes on with fewer venues, `inr` leaves the loop. -/
def allotRound (residualCap : Nat) (s : Allotment raw.length) :
    Except ConsolidatedError (Allotment raw.length ⊕ (Fin raw.length → Nat)) := do
  reject (totalWeight (rawWeight raw) s.active = 0) .arithmetic
  let capped := cappedVenues raw residualCap s.active s.remaining
  if capped = [] then
    let assigned ← distribute raw residualCap s
    return .inr assigned
  else
    let (assigned, remaining) ← capped.foldlM (capVenue raw residualCap) (s.assigned, s.remaining)
    let active := s.active.filter fun i => i ∉ capped
    if active = [] then
      reject (remaining ≠ 0) .invalidConfig
      return .inr assigned
    else return .inl ⟨assigned, active, remaining⟩

def roundStep (residualCap : Nat) (s : Allotment raw.length) :
    Allotment raw.length ⊕ Except ConsolidatedError (Fin raw.length → Nat) :=
  match allotRound raw residualCap s with
  | .ok (.inl next) => .inl next
  | .ok (.inr assigned) => .inr (.ok assigned)
  | .error err => .inr (.error err)

/-- Adds the floor back and checks the result. -/
def finishWeights (cap : UInt32) (assigned : Fin raw.length → Nat) :
    Except ConsolidatedError (List Nat) := do
  let weights ← (List.ofFn assigned).mapM fun weight => checkedU32 (weight + positiveFloor)
  reject (weights.sum ≠ ppmDenominator ∨ ∃ weight ∈ weights, cap.toNat < weight) .arithmetic
  return weights

def cappedNormalizedWeights (cap : UInt32) : Option (Except ConsolidatedError (List Nat)) :=
  if raw = [] ∨ 0 ∈ raw ∨ ppmDenominator < raw.length ∨ raw.length * cap.toNat < ppmDenominator
      ∨ cap.toNat < positiveFloor then
    some (.error .invalidConfig)
  else
    let start : Allotment raw.length :=
      ⟨fun _ => 0, List.finRange raw.length, ppmDenominator - raw.length⟩
    (loop (roundStep raw (cap.toNat - positiveFloor)) (raw.length + 1) start).map fun result =>
      result >>= finishWeights raw cap

/-! ## What a round comes to -/

/-- What a round that caps venues leaves. -/
def capState (residualCap : Nat) (s : Allotment raw.length) :
    Allotment raw.length :=
  let capped := cappedVenues raw residualCap s.active s.remaining
  ⟨fun i => if i ∈ capped then residualCap else s.assigned i, s.active.filter fun i => i ∉ capped,
    s.remaining - capped.length * residualCap⟩

/-- The units that rounding down leaves. -/
def missingUnits (s : Allotment raw.length) : Nat :=
  s.remaining - (s.active.map (quota (rawWeight raw) s.remaining s.active)).sum

/-- The order in which the missing units are offered. -/
def offerOrder (s : Allotment raw.length) : List (Fin raw.length) :=
  ((s.active.map fun i => (i, leftover (rawWeight raw) s.remaining s.active i)).insertionSort
    (remainderBefore raw)).map Prod.fst

/-- The shares rounded down. -/
def floors (s : Allotment raw.length) (i : Fin raw.length) : Nat :=
  if i ∈ s.active then quota (rawWeight raw) s.remaining s.active i else s.assigned i

/-- The venues that get a unit in the pass. -/
def winners (residualCap : Nat) (s : Allotment raw.length) :
    List (Fin raw.length) :=
  granted residualCap (floors raw s) (offerOrder raw s) (missingUnits raw s)

/-- The shares after the pass. -/
def topUp (residualCap : Nat) (s : Allotment raw.length) (i : Fin raw.length) :
    Nat :=
  floors raw s i + if i ∈ winners raw residualCap s then 1 else 0

end CryptoIntelligence.Consolidated
