/-
  Fallible functions as `Except` computations. A check of the source that returns an error early
  is `reject condition error`, a `?` on an option is `required`. The lemmas take a computation
  that returned apart into its steps (`bind_eq_ok`) and run one whose checks pass.
-/
import Mathlib

namespace CryptoIntelligence.Lib

open List

variable {ε α β : Type}

/-- Return `error` when the condition holds. -/
def reject (condition : Prop) [Decidable condition] (error : ε) : Except ε Unit :=
  if condition then .error error else .ok ()

/-- The value of an option, or `error`. -/
def required (value : Option α) (error : ε) : Except ε α :=
  match value with
  | some v => .ok v
  | none => .error error

/-- The result of a computation that returned, with the fact that it did. -/
def attach (x : Except ε α) : Except ε { a : α // x = .ok a } :=
  match x with
  | .ok a => .ok ⟨a, rfl⟩
  | .error e => .error e

/-- Run a check on every element in order. -/
def checkAll (check : α → Except ε Unit) : List α → Except ε Unit
  | [] => .ok ()
  | value :: values => do
    check value
    checkAll check values

variable {c : Prop} {e : ε} {x : Except ε α} {a : α} {values : List α} {σ : Type}

theorem forall_mem_concat {p : α → Prop} :
    (∀ b ∈ values ++ [a], p b) ↔ (∀ b ∈ values, p b) ∧ p a := by
  rw [forall_mem_append, forall_mem_singleton]

@[simp] theorem reject_eq_ok [Decidable c] {u : Unit} :
    reject c e = .ok u ↔ ¬ c := by
  unfold reject
  split <;> simp_all

theorem reject_eq_error [Decidable c] {e' : ε} :
    reject c e = .error e' ↔ c ∧ e = e' := by
  unfold reject
  split <;> simp_all

theorem reject_pos [Decidable c] (h : c) : reject c e = .error e := if_pos h

theorem reject_neg [Decidable c] (h : ¬ c) : reject c e = .ok () := if_neg h

@[simp] theorem required_eq_ok {o : Option α} {v : α} :
    required o e = .ok v ↔ o = some v := by
  cases o <;> simp [required]

theorem required_eq_error {o : Option α} {e' : ε} :
    required o e = .error e' ↔ o = none ∧ e = e' := by
  cases o <;> simp [required]

@[simp] theorem required_some (v : α) (e : ε) : required (some v) e = .ok v := rfl

@[simp] theorem required_none (e : ε) : required (none : Option α) e = .error e := rfl

/-- A computation with one error is its result, required. -/
theorem eq_required_toOption (h : ∀ other, x = .error other → e = other) :
    x = required x.toOption e := by
  cases x with
  | ok value => rfl
  | error other =>
    rw [h other rfl]
    rfl

@[simp] theorem bind_eq_ok {f : α → Except ε β} {b : β} :
    (x >>= f) = .ok b ↔ ∃ a, x = .ok a ∧ f a = .ok b := by
  cases x <;> simp [bind, Except.bind]

theorem bind_eq_error {f : α → Except ε β} :
    (x >>= f) = .error e ↔ x = .error e ∨ ∃ a, x = .ok a ∧ f a = .error e := by
  cases x <;> simp [bind, Except.bind]

theorem map_eq_error {f : α → β} {e : ε} : x.map f = .error e ↔ x = .error e := by
  cases x <;> simp [Except.map]

theorem mapError_eq_ok {ε' : Type} {f : ε → ε'} : x.mapError f = .ok a ↔ x = .ok a := by
  cases x <;> simp [Except.mapError]

theorem map_eq_ok {f : α → β} {b : β} :
    x.map f = .ok b ↔ ∃ a, x = .ok a ∧ f a = b := by
  cases x <;> simp [Except.map]

@[simp] theorem ok_bind (a : α) (f : α → Except ε β) : ((.ok a : Except ε α) >>= f) = f a := rfl

@[simp] theorem error_bind (e : ε) (f : α → Except ε β) :
    ((.error e : Except ε α) >>= f) = .error e := rfl

@[simp] theorem pure_eq_ok {b : α} : (pure a : Except ε α) = .ok b ↔ a = b := by
  simp [pure, Except.pure]

@[simp] theorem pure_ok (a : α) : (pure a : Except ε α) = .ok a := rfl

theorem attach_of_ok (h : x = .ok a) : attach x = .ok ⟨a, h⟩ := by
  subst h
  rfl

theorem attach_of_error (h : x = .error e) : attach x = .error e := by
  subst h
  rfl

theorem attach_bind_eq_ok {f : { a : α // x = .ok a } → Except ε β} {b : β} :
    (attach x >>= f) = .ok b ↔ ∃ (a : α) (h : x = .ok a), f ⟨a, h⟩ = .ok b := by
  constructor
  · intro hb
    cases x with
    | error e => cases hb
    | ok a => exact ⟨a, rfl, hb⟩
  · rintro ⟨a, h, hb⟩
    rw [attach_of_ok h]
    exact hb

theorem checkAll_eq_ok {check : α → Except ε Unit} :
    checkAll check values = .ok () ↔ ∀ v ∈ values, check v = .ok () := by
  induction values with
  | nil => simp [checkAll]
  | cons v values ih =>
    simp only [checkAll, bind_eq_ok, ih, forall_mem_cons]
    exact ⟨fun ⟨_, hv, h⟩ => ⟨hv, h⟩, fun ⟨hv, h⟩ => ⟨(), hv, h⟩⟩

/-! ## The errors a computation can end with -/

/-- Every error of the computation is one of those allowed. -/
def FailsOnly (allowed : ε → Prop) (x : Except ε α) : Prop := ∀ e, x = .error e → allowed e

namespace FailsOnly

variable {allowed : ε → Prop}

theorem ok (a : α) : FailsOnly allowed (.ok a) := by
  intro e h
  cases h

variable {e : ε}

theorem error (h : allowed e) : FailsOnly allowed (.error e : Except ε α) := by
  intro e' he
  cases he
  exact h

theorem mono {allowed' : ε → Prop} {x : Except ε α} (h : FailsOnly allowed x)
    (himp : ∀ e, allowed e → allowed' e) : FailsOnly allowed' x := fun e he => himp e (h e he)

theorem reject {c : Prop} [Decidable c] (h : allowed e) :
    FailsOnly allowed (reject c e) := by
  intro e' he
  obtain ⟨-, rfl⟩ := reject_eq_error.mp he
  exact h

theorem required {o : Option α} (h : allowed e) : FailsOnly allowed (required o e) := by
  intro e' he
  obtain ⟨-, rfl⟩ := required_eq_error.mp he
  exact h

theorem bind {x : Except ε α} {f : α → Except ε β} (hx : FailsOnly allowed x)
    (hf : ∀ a, FailsOnly allowed (f a)) : FailsOnly allowed (x >>= f) := by
  intro e he
  rcases bind_eq_error.mp he with hfirst | ⟨a, -, hsecond⟩
  · exact hx e hfirst
  · exact hf a e hsecond

theorem checkAll {check : α → Except ε Unit} (h : ∀ a, FailsOnly allowed (check a))
    (values : List α) : FailsOnly allowed (checkAll check values) := by
  induction values with
  | nil => exact .ok ()
  | cons value values ih => exact .bind (h value) fun _ => ih

end FailsOnly

/-! ## Folds that can stop -/

/-- A list is mapped when each of its elements is. -/
theorem forall₂_of_mapM {f : α → Except ε β} {results : List β}
    (h : values.mapM f = .ok results) : List.Forall₂ (fun a b => f a = .ok b) values results := by
  induction values generalizing results with
  | nil =>
    cases h
    exact .nil
  | cons a values ih =>
    simp only [mapM_cons, bind_eq_ok, pure_eq_ok] at h
    obtain ⟨b, hb, rest, hrest, rfl⟩ := h
    exact .cons hb (ih hrest)

theorem mapM_eq_ok {f : α → Except ε β} {g : α → β}
    (h : ∀ a ∈ values, f a = .ok (g a)) : values.mapM f = .ok (values.map g) := by
  induction values with
  | nil => rfl
  | cons a values ih =>
    obtain ⟨ha, hrest⟩ := forall_mem_cons.mp h
    rw [mapM_cons, ha, ok_bind, ih hrest]
    rfl

variable {step : σ → α → Except ε σ} {s s' : σ}

/-- A loop that fails does so at one of the values. -/
theorem foldlM_eq_error (h : values.foldlM step s = .error e) :
    ∃ front value later s', values = front ++ value :: later ∧ front.foldlM step s = .ok s'
      ∧ step s' value = .error e := by
  induction values generalizing s with
  | nil => cases h
  | cons value values ih =>
    rw [foldlM_cons] at h
    cases hstep : step s value with
    | error e' =>
      rw [hstep, error_bind] at h
      cases h
      exact ⟨[], value, values, s, rfl, rfl, hstep⟩
    | ok next =>
      rw [hstep, ok_bind] at h
      obtain ⟨front, at', later, s', rfl, hfront, herror⟩ := ih h
      refine ⟨value :: front, at', later, s', rfl, ?_, herror⟩
      rw [foldlM_cons, hstep, ok_bind, hfront]

/-- What every step of a loop that may fail keeps, holds when the loop returns. -/
theorem foldlM_keeps (inv : σ → Prop)
    (hstep : ∀ a ∈ values, ∀ s s', inv s → step s a = .ok s' → inv s') (h : inv s)
    (hok : values.foldlM step s = .ok s') : inv s' := by
  induction values generalizing s with
  | nil =>
    cases hok
    exact h
  | cons a values ih =>
    rw [foldlM_cons, bind_eq_ok] at hok
    obtain ⟨next, hnext, hrest⟩ := hok
    have hnow : inv next := hstep a mem_cons_self s next h hnext
    exact ih (fun b hb => hstep b (mem_cons_of_mem a hb)) hnow hrest

/-- Each value of a loop that returned was taken by one step, and what the step reached is related
    to the end as states before later ones are. -/
theorem foldlM_step_of_mem (rel : σ → σ → Prop)
    [Std.Refl rel] [IsTrans σ rel] (hstep : ∀ s a s', step s a = .ok s' → rel s s')
    (hok : values.foldlM step s = .ok s') (ha : a ∈ values) :
    ∃ t t', step t a = .ok t' ∧ rel t' s' := by
  obtain ⟨front, later, rfl⟩ := append_of_mem ha
  rw [foldlM_append, bind_eq_ok] at hok
  obtain ⟨t, -, hrest⟩ := hok
  rw [foldlM_cons, bind_eq_ok] at hrest
  obtain ⟨t', ht', hlater⟩ := hrest
  refine ⟨t, t', ht', ?_⟩
  refine foldlM_keeps (rel t') (fun b _ u u' hu hb => ?_) (Std.Refl.refl t') hlater
  exact trans_of rel hu (hstep u b u' hb)

/-- A loop whose steps commute gives the same result in every order of its values. The steps need to
    commute only in states that the loop can reach and for values that it has apart. -/
theorem foldlM_perm {inv : σ → Prop} {apart : α → α → Prop} (hsymm : ∀ a b, apart a b → apart b a)
    (hkeeps : ∀ s a s', inv s → step s a = .ok s' → inv s')
    (hcomm : ∀ s a b s', inv s → apart a b → (step s a >>= fun t => step t b) = .ok s' →
      (step s b >>= fun t => step t a) = .ok s')
    {values' : List α} (hperm : values.Perm values') (hapart : values.Pairwise apart) (h : inv s)
    (hok : values.foldlM step s = .ok s') :
    values'.foldlM step s = .ok s' := by
  induction hperm generalizing s with
  | nil => exact hok
  | cons a _ ih =>
    rw [foldlM_cons, bind_eq_ok] at hok ⊢
    obtain ⟨t, ht, hrest⟩ := hok
    exact ⟨t, ht, ih hapart.of_cons (hkeeps s a t h ht) hrest⟩
  | swap a b values =>
    simp only [foldlM_cons, ← bind_assoc] at hok ⊢
    rw [bind_eq_ok] at hok ⊢
    obtain ⟨t, ht, hrest⟩ := hok
    have hab := rel_of_pairwise_cons hapart mem_cons_self
    exact ⟨t, hcomm s b a t h hab ht, hrest⟩
  | trans hfirst _ ih ih' =>
    have hmiddle := (hfirst.pairwise_iff (hsymm _ _)).mp hapart
    exact ih' hmiddle h (ih hapart h hok)

/-- A projection that commutes with every step commutes with the fold. -/
theorem foldlM_map_of_step {τ : Type} {f : σ → α → Option σ} {g : τ → β → Option τ} (r : σ → τ)
    (h : α → β)
    (hstep : ∀ v ∈ values, ∀ s, (f s v).map r = g (r s) (h v)) (s : σ) :
    (values.foldlM f s).map r = (values.map h).foldlM g (r s) := by
  induction values generalizing s with
  | nil => rfl
  | cons v values ih =>
    have hv := hstep v (by simp) s
    rw [foldlM_cons, map_cons, foldlM_cons, ← hv]
    cases f s v with
    | none => rfl
    | some next => exact ih (fun w hw => hstep w (by simp [hw])) next

end CryptoIntelligence.Lib
