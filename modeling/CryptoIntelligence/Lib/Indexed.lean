/-
  Byte strings read by index the way a language with bounds checks does it: a range outside the
  string ends the computation with a fault of its own, apart from the errors the computation
  returns.

  A decoder written with these reads is `returning` of the plain one exactly when every read is
  inside the string, so that one equation says both what it returns and that no read is out of
  bounds.
-/
import CryptoIntelligence.Lib.Codec

namespace CryptoIntelligence.Lib

variable {ε α β : Type}

inductive Fault (ε : Type) where
  | outOfBounds
  | returned (error : ε)
  deriving DecidableEq, Repr

/-- A computation that reads nothing by index. -/
def returning (x : Except ε α) : Except (Fault ε) α := x.mapError .returned

/-- The bytes of the range from `start` to `stop`. -/
def index (bytes : Bytes) (start stop : Nat) : Except (Fault ε) Bytes :=
  if start ≤ stop ∧ stop ≤ bytes.length then .ok (slice bytes start (stop - start))
  else .error .outOfBounds

def indexU16 (bytes : Bytes) (offset : Nat) : Except (Fault ε) UInt16 := do
  let field ← index bytes offset (offset + 2)
  return readU16 field 0

def indexU32 (bytes : Bytes) (offset : Nat) : Except (Fault ε) UInt32 := do
  let field ← index bytes offset (offset + 4)
  return readU32 field 0

def indexI64 (bytes : Bytes) (offset : Nat) : Except (Fault ε) Int64 := do
  let field ← index bytes offset (offset + 8)
  return readI64 field 0

/-- A range of `width` bytes as an array. -/
def indexVector (bytes : Bytes) (offset width : Nat) : Except (Fault ε) (Vector UInt8 width) := do
  let field ← index bytes offset (offset + width)
  return readVector field 0 width

/-! ## Reads inside the string -/

variable {bytes : Bytes} {offset : Nat}

theorem index_inside {start length : Nat} (h : start + length ≤ bytes.length) :
    (index bytes start (start + length) : Except (Fault ε) Bytes) =
      .ok (slice bytes start length) := by
  rw [index, if_pos ⟨Nat.le_add_right start length, h⟩, Nat.add_sub_cancel_left]

theorem indexU16_inside (h : offset + 2 ≤ bytes.length) :
    (indexU16 bytes offset : Except (Fault ε) UInt16) = .ok (readU16 bytes offset) := by
  rw [indexU16, index_inside h, ok_bind, readU16, slice_slice (by omega)]
  rfl

theorem indexU32_inside (h : offset + 4 ≤ bytes.length) :
    (indexU32 bytes offset : Except (Fault ε) UInt32) = .ok (readU32 bytes offset) := by
  rw [indexU32, index_inside h, ok_bind, readU32, slice_slice (by omega)]
  rfl

theorem indexI64_inside (h : offset + 8 ≤ bytes.length) :
    (indexI64 bytes offset : Except (Fault ε) Int64) = .ok (readI64 bytes offset) := by
  rw [indexI64, index_inside h, ok_bind, readI64, readU64, slice_slice (by omega)]
  rfl

theorem indexVector_inside {width : Nat} (h : offset + width ≤ bytes.length) :
    (indexVector bytes offset width : Except (Fault ε) (Vector UInt8 width)) =
      .ok (readVector bytes offset width) := by
  rw [indexVector, index_inside h, ok_bind]
  have hvector : readVector (slice bytes offset width) 0 width = readVector bytes offset width := by
    ext i hi
    rw [readVector, readVector, Vector.getElem_ofFn, Vector.getElem_ofFn, slice,
      List.getElem?_take_of_lt (by omega), List.getElem?_drop, Nat.zero_add]
  rw [hvector]
  rfl

/-! ## Computations that only return -/

theorem returning_ne_outOfBounds (x : Except ε α) : returning x ≠ .error .outOfBounds := by
  cases x with
  | error e => simp [returning, Except.mapError]
  | ok a => simp [returning, Except.mapError]

/-- After a step that only returns, the rest may use that the step was passed. -/
theorem returning_bind {x : Except ε α} {f : α → Except ε β} {g : α → Except (Fault ε) β}
    (h : ∀ a, x = .ok a → g a = returning (f a)) :
    (returning x >>= g) = returning (x >>= f) := by
  cases x with
  | error e => rfl
  | ok a => exact h a rfl

end CryptoIntelligence.Lib
