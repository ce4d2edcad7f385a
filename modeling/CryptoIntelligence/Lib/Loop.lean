/-
  Loops of a program as iteration of one step. A step either goes on with a new state or ends with
  a result; `loop` runs it with fuel, and running out of fuel is `none`.

  What is proved: an invariant of the steps holds of the result (`loop_spec`), a loop whose steps
  decrease a measure ends when the fuel exceeds it (`loop_ends`), and a loop that is followed to its
  last state has that state's result (`loop_eq_of_reaches`).
-/
import Mathlib

namespace CryptoIntelligence.Lib

variable {σ ρ : Type}

def loop (step : σ → σ ⊕ ρ) : Nat → σ → Option ρ
  | 0, _ => none
  | fuel + 1, s =>
    match step s with
    | .inl next => loop step fuel next
    | .inr result => some result

variable {step : σ → σ ⊕ ρ} {s : σ}

theorem loop_of_next {next : σ} (h : step s = .inl next) (fuel : Nat) :
    loop step (fuel + 1) s = loop step fuel next := by
  rw [loop, h]

theorem loop_of_done {result : ρ} (h : step s = .inr result)
    (fuel : Nat) : loop step (fuel + 1) s = some result := by
  rw [loop, h]

/-- The invariant rule. -/
theorem loop_spec (inv : σ → Prop) (post : ρ → Prop)
    (hnext : ∀ s next, inv s → step s = .inl next → inv next)
    (hdone : ∀ s result, inv s → step s = .inr result → post result) :
    ∀ fuel s result, inv s → loop step fuel s = some result → post result := by
  intro fuel
  induction fuel with
  | zero => exact fun s result _ h => nomatch h
  | succ fuel ih =>
    intro s result hinv h
    cases hstep : step s with
    | inl next =>
      rw [loop_of_next hstep] at h
      exact ih next result (hnext s next hinv hstep) h
    | inr final =>
      rw [loop_of_done hstep] at h
      obtain rfl := Option.some.inj h
      exact hdone s final hinv hstep

/-- The termination rule: enough fuel for a decreasing measure. -/
theorem loop_ends (inv : σ → Prop) (size : σ → Nat)
    (hnext : ∀ s next, inv s → step s = .inl next → inv next ∧ size next < size s) :
    ∀ fuel s, inv s → size s < fuel → ∃ result, loop step fuel s = some result := by
  intro fuel
  induction fuel with
  | zero => exact fun s _ h => absurd h (Nat.not_lt_zero _)
  | succ fuel ih =>
    intro s hinv hfuel
    cases hstep : step s with
    | inl next =>
      obtain ⟨hinv', hsize⟩ := hnext s next hinv hstep
      rw [loop_of_next hstep]
      exact ih next hinv' (by omega)
    | inr final => exact ⟨final, loop_of_done hstep fuel⟩

/-- Both rules in one. -/
theorem loop_returns (inv : σ → Prop) (size : σ → Nat) (post : ρ → Prop)
    (hnext : ∀ s next, inv s → step s = .inl next → inv next ∧ size next < size s)
    (hdone : ∀ s result, inv s → step s = .inr result → post result) {fuel : Nat} (hinv : inv s)
    (hfuel : size s < fuel) : ∃ result, loop step fuel s = some result ∧ post result := by
  obtain ⟨result, hloop⟩ := loop_ends inv size hnext fuel s hinv hfuel
  exact ⟨result, hloop, loop_spec inv post (fun s next hs hstep => (hnext s next hs hstep).1) hdone
    fuel s result hinv hloop⟩

/-- One state leads to another in some number of steps. -/
def Reaches (step : σ → σ ⊕ ρ) : σ → σ → Prop :=
  Relation.ReflTransGen fun s next => step s = .inl next

theorem loop_eq_of_reaches {last : σ} {result result' : ρ}
    (h : Reaches step s last) (hlast : step last = .inr result) {fuel : Nat}
    (hloop : loop step fuel s = some result') : result' = result := by
  induction h using Relation.ReflTransGen.head_induction_on generalizing fuel with
  | refl =>
    cases fuel with
    | zero => nomatch hloop
    | succ fuel =>
      rw [loop_of_done hlast] at hloop
      exact (Option.some.inj hloop).symm
  | head hstep _ ih =>
    cases fuel with
    | zero => nomatch hloop
    | succ fuel =>
      rw [loop_of_next hstep] at hloop
      exact ih hloop

end CryptoIntelligence.Lib
