/-
  Methods that change a state and can fail. The state is returned also by a failed call, so that
  what the call had done by then is part of the model; `AllOrNothing` says that it had done nothing.

  A call that returned is taken apart into its steps by `bind_eq_ok`, one that failed by
  `bind_eq_error`. What holds of every outcome of a call is shown step by step with the rules of
  `Yields`. `lift` makes a method of a computation that leaves the state alone.
-/
import CryptoIntelligence.Lib.Checked

namespace CryptoIntelligence.Lib

def Method (σ ε α : Type) := σ → σ × Except ε α

namespace Method

variable {σ ε α β : Type}

def bind (m : Method σ ε α) (f : α → Method σ ε β) : Method σ ε β := fun s =>
  match m s with
  | (t, .ok a) => f a t
  | (t, .error e) => (t, .error e)

instance : Monad (Method σ ε) where
  pure a := fun s => (s, .ok a)
  bind := bind

def lift (x : Except ε α) : Method σ ε α := fun s => (s, x)

def get : Method σ ε σ := fun s => (s, .ok s)

def update (f : σ → σ) : Method σ ε Unit := fun s => (f s, .ok ())

variable {m : Method σ ε α} {f : α → Method σ ε β} {s t : σ}

theorem bind_of_ok {a : α} (h : m s = (t, .ok a)) : (m >>= f) s = f a t := by
  show Method.bind m f s = f a t
  rw [Method.bind, h]

theorem bind_of_error {e : ε} (h : m s = (t, .error e)) : (m >>= f) s = (t, .error e) := by
  show Method.bind m f s = (t, .error e)
  rw [Method.bind, h]

@[simp] theorem bind_eq_ok {b : β} :
    (m >>= f) s = (t, .ok b) ↔ ∃ a u, m s = (u, .ok a) ∧ f a u = (t, .ok b) := by
  rcases h : m s with ⟨u, a | e⟩
  · rw [bind_of_error h]
    simp
  · rw [bind_of_ok h]
    simp

@[simp] theorem bind_eq_error {e : ε} :
    (m >>= f) s = (t, .error e) ↔
      m s = (t, .error e) ∨ ∃ a u, m s = (u, .ok a) ∧ f a u = (t, .error e) := by
  rcases h : m s with ⟨u, a | e'⟩
  · rw [bind_of_error h]
    simp
  · rw [bind_of_ok h]
    simp

@[simp] theorem pure_apply (a : α) : (pure a : Method σ ε α) s = (s, .ok a) := rfl

@[simp] theorem lift_apply (x : Except ε α) : (lift x : Method σ ε α) s = (s, x) := rfl

@[simp] theorem get_apply : (get : Method σ ε σ) s = (s, .ok s) := rfl

@[simp] theorem update_apply (change : σ → σ) :
    (update change : Method σ ε Unit) s = (change s, .ok ()) := rfl

/-- What holds of the state and the result that a call leaves. -/
def Yields (m : Method σ ε α) (s : σ) (post : σ → Except ε α → Prop) : Prop := post (m s).1 (m s).2

namespace Yields

variable {post : σ → Except ε β → Prop}

theorem lift_bind {x : Except ε α} (herror : ∀ e, x = .error e → post s (.error e))
    (hok : ∀ a, x = .ok a → (f a).Yields s post) : (lift x >>= f).Yields s post := by
  cases x with
  | error e => exact herror e rfl
  | ok a => exact hok a rfl

theorem get_bind {f : σ → Method σ ε β} (h : (f s).Yields s post) : (get >>= f).Yields s post := h

theorem update_bind {change : σ → σ} {f : Unit → Method σ ε β} (h : (f ()).Yields (change s) post) :
    (update change >>= f).Yields s post := h

end Yields

/-- A failed call leaves the state as it was. -/
def AllOrNothing (m : Method σ ε α) (s : σ) : Prop := ∀ t e, m s = (t, .error e) → t = s

namespace AllOrNothing

/-- A call that cannot fail. -/
theorem of_ok {a : α} (h : m s = (t, .ok a)) : AllOrNothing m s := by
  intro u e he
  rw [h] at he
  cases he

theorem lift_bind {x : Except ε α} (h : ∀ a, x = .ok a → AllOrNothing (f a) s) :
    AllOrNothing (lift x >>= f) s := by
  intro t e he
  rcases bind_eq_error.mp he with hfirst | ⟨a, u, ha, hrest⟩
  · exact (congrArg Prod.fst hfirst).symm
  · rw [lift_apply, Prod.mk.injEq] at ha
    obtain ⟨rfl, ha⟩ := ha
    exact h a ha t e hrest

theorem get_bind {f : σ → Method σ ε β} (h : AllOrNothing (f s) s) :
    AllOrNothing (get >>= f) s := by
  intro t e he
  rcases bind_eq_error.mp he with hfirst | ⟨a, u, ha, hrest⟩
  · cases hfirst
  · cases ha
    exact h t e hrest

end AllOrNothing

end Method

end CryptoIntelligence.Lib
