/-
  Programs that can be cut off. A program runs on a state and leaves a result, a state, and a trail:
  what a crash could have left behind, one entry for every point at which it may strike. The state
  is kept when the program fails, as the state of a file system is.

  `Meets` is the rule of pre- and postconditions for such programs: every entry of the trail
  satisfies the crash condition, and the final state the condition of its result. `meets_bind` is
  the rule for sequencing; the crash and the error condition stay the same along a body.
-/
import Mathlib

namespace CryptoIntelligence.Lib

/-- What a run of a program leaves. -/
structure Outcome (σ δ ε α : Type) where
  result : Except ε α
  state : σ
  trail : List δ

def Prog (σ δ ε α : Type) := σ → Outcome σ δ ε α

namespace Prog

variable {σ δ ε ε' α β : Type}

def bind (p : Prog σ δ ε α) (f : α → Prog σ δ ε β) : Prog σ δ ε β := fun s =>
  match p s with
  | ⟨.ok a, next, trail⟩ => ⟨(f a next).result, (f a next).state, trail ++ (f a next).trail⟩
  | ⟨.error e, next, trail⟩ => ⟨.error e, next, trail⟩

instance : Monad (Prog σ δ ε) where
  pure a := fun s => ⟨.ok a, s, []⟩
  bind := bind

def get : Prog σ δ ε σ := fun s => ⟨.ok s, s, []⟩

/-- A computation that only looks at values. -/
def ofExcept (x : Except ε α) : Prog σ δ ε α := fun s => ⟨x, s, []⟩

/-- Change the state where no crash can tell the difference. -/
def update (f : σ → σ) : Prog σ δ ε Unit := fun s => ⟨.ok (), f s, []⟩

/-- The program and its result, whether it succeeded or not. -/
def attempt (p : Prog σ δ ε α) : Prog σ δ ε' (Except ε α) := fun s =>
  ⟨.ok (p s).result, (p s).state, (p s).trail⟩

/-- Every crash finds the crash condition, and the end the condition of its result. -/
def Meets (p : Prog σ δ ε α) (s : σ) (crash : δ → Prop) (ok : α → σ → Prop) (error : ε → σ → Prop) :
    Prop :=
  (∀ d ∈ (p s).trail, crash d) ∧
    match (p s).result with
    | .ok a => ok a (p s).state
    | .error e => error e (p s).state

variable {s : σ} {crash : δ → Prop} {ok : α → σ → Prop} {error : ε → σ → Prop}

theorem meets_pure {a : α} (h : ok a s) : Meets (pure a : Prog σ δ ε α) s crash ok error :=
  ⟨List.forall_mem_nil _, h⟩

theorem meets_get {ok : σ → σ → Prop} (h : ok s s) :
    Meets (get : Prog σ δ ε σ) s crash ok error := ⟨List.forall_mem_nil _, h⟩

theorem meets_ofExcept {x : Except ε α} (hok : ∀ a, x = .ok a → ok a s)
    (herror : ∀ e, x = .error e → error e s) :
    Meets (ofExcept x : Prog σ δ ε α) s crash ok error := by
  refine ⟨List.forall_mem_nil _, ?_⟩
  cases x with
  | ok a => exact hok a rfl
  | error e => exact herror e rfl

theorem meets_update {f : σ → σ} {ok : Unit → σ → Prop} (h : ok () (f s)) :
    Meets (update f : Prog σ δ ε Unit) s crash ok error := ⟨List.forall_mem_nil _, h⟩

/-- Sequencing: where the first part ends well, the rest takes over. -/
theorem meets_bind {p : Prog σ δ ε α} {f : α → Prog σ δ ε β} {ok : β → σ → Prop}
    (h : Meets p s crash (fun a next => Meets (f a) next crash ok error) error) :
    Meets (p >>= f) s crash ok error := by
  change Meets (bind p f) s crash ok error
  unfold Meets at h
  unfold Meets bind
  generalize p s = outcome at h ⊢
  obtain ⟨result, next, trail⟩ := outcome
  obtain ⟨htrail, hpost⟩ := h
  cases result with
  | ok a =>
    obtain ⟨hrest, hend⟩ := hpost
    exact ⟨fun d hd => (List.mem_append.mp hd).elim (htrail d) (hrest d), hend⟩
  | error e => exact ⟨htrail, hpost⟩

/-- The rule of consequence. -/
theorem Meets.mono {p : Prog σ δ ε α} {crash' : δ → Prop} {ok' : α → σ → Prop}
    {error' : ε → σ → Prop} (h : Meets p s crash ok error) (hcrash : ∀ d, crash d → crash' d)
    (hok : ∀ a next, ok a next → ok' a next) (herror : ∀ e next, error e next → error' e next) :
    Meets p s crash' ok' error' := by
  obtain ⟨htrail, hpost⟩ := h
  refine ⟨fun d hd => hcrash d (htrail d hd), ?_⟩
  cases hresult : (p s).result with
  | ok a =>
    rw [hresult] at hpost
    exact hok a _ hpost
  | error e =>
    rw [hresult] at hpost
    exact herror e _ hpost

/-- A crash in a sequence strikes in its first part or, where that ends well, in the rest. -/
theorem mem_trail_bind {p : Prog σ δ ε α} {f : α → Prog σ δ ε β} {d : δ} :
    d ∈ ((p >>= f) s).trail ↔
      d ∈ (p s).trail ∨ ∃ a, (p s).result = .ok a ∧ d ∈ (f a (p s).state).trail := by
  change d ∈ (bind p f s).trail ↔ _
  unfold bind
  generalize p s = outcome
  obtain ⟨result, next, trail⟩ := outcome
  cases result with
  | ok a => simp
  | error e => simp

end Prog

end CryptoIntelligence.Lib
