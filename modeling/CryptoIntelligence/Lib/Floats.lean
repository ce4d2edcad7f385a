/-
  Floating-point numbers as a parameter: a type, and the operations of `f64` on it. Nothing that is
  proved over `FloatOps` depends on how they round.
-/
import Mathlib

namespace CryptoIntelligence.Lib

/-- The operations of `f64` that the program uses. `tenPow` is `10_f64.powi`. -/
structure FloatOps (F : Type) where
  isFinite : F → Bool
  lt : F → F → Bool
  le : F → F → Bool
  ofNat : Nat → F
  ofInt : Int → F
  tenPow : Nat → F
  neg : F → F
  abs : F → F
  add : F → F → F
  sub : F → F → F
  mul : F → F → F
  div : F → F → F
  max : F → F → F
  ln : F → F
  ln1p : F → F
  toBits : F → UInt64

/-- Readings in hundredths, with the linear part of the logarithm. -/
def hundredths : FloatOps Int where
  isFinite _ := true
  lt a b := decide (a < b)
  le a b := decide (a ≤ b)
  ofNat n := 100 * n
  ofInt n := 100 * n
  tenPow n := 100 * 10 ^ n
  neg a := -a
  abs a := |a|
  add a b := a + b
  sub a b := a - b
  mul a b := a * b / 100
  div a b := a * 100 / b
  max a b := max a b
  ln a := a - 100
  ln1p a := a
  toBits _ := 0

end CryptoIntelligence.Lib
