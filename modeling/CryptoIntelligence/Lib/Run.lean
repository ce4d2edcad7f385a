/-
  Runs of a machine that takes one call at a time. `step` gives the state after a call and what
  the call returned. A property of whole runs follows from one of single calls by `run_induction`.

  A `Trail` is a log of numbered and dated steps from state to state; it grows by `Trail.concat`.
-/
import Mathlib

namespace CryptoIntelligence.Lib

open List

variable {σ ι ο : Type} (step : σ → ι → σ × ο)

/-- The state after a list of calls. -/
def runAll (s : σ) (calls : List ι) : σ := calls.foldl (fun s call => (step s call).1) s

/-- The calls of a run with what each of them returned. -/
def historyOf (s : σ) : List ι → List (ι × ο)
  | [] => []
  | call :: calls => (call, (step s call).2) :: historyOf (step s call).1 calls

theorem runAll_append (s : σ) (first second : List ι) :
    runAll step s (first ++ second) = runAll step (runAll step s first) second :=
  foldl_append

theorem runAll_concat (s : σ) (calls : List ι) (call : ι) :
    runAll step s (calls ++ [call]) = (step (runAll step s calls) call).1 :=
  runAll_append step s calls [call]

theorem historyOf_append (s : σ) (first second : List ι) :
    historyOf step s (first ++ second) =
      historyOf step s first ++ historyOf step (runAll step s first) second := by
  induction first generalizing s with
  | nil => rfl
  | cons call first ih =>
    simp only [cons_append, historyOf, ih]
    rfl

theorem historyOf_concat (s : σ) (calls : List ι) (call : ι) :
    historyOf step s (calls ++ [call]) =
      historyOf step s calls ++ [(call, (step (runAll step s calls) call).2)] :=
  historyOf_append step s calls [call]

/-- A call of a history was made on the state that the calls before it left. -/
theorem historyOf_split {s : σ} {calls : List ι} {before after : List (ι × ο)} {call : ι} {out : ο}
    (h : historyOf step s calls = before ++ (call, out) :: after) :
    ∃ first, historyOf step s first = before ∧ (step (runAll step s first) call).2 = out := by
  induction calls generalizing s before with
  | nil => simp [historyOf] at h
  | cons c calls ih =>
    cases before with
    | nil =>
      obtain ⟨hcall, -⟩ := List.cons.inj h
      obtain ⟨rfl, rfl⟩ := Prod.mk.inj hcall
      exact ⟨[], rfl, rfl⟩
    | cons first before =>
      obtain ⟨rfl, hrest⟩ := List.cons.inj h
      obtain ⟨earlier, rfl, hout⟩ := ih hrest
      exact ⟨c :: earlier, rfl, hout⟩

/-- A property of the splits of a list at its positions holds of every split. -/
theorem forall_split_of_get {calls : List ι} {motive : List ι → ι → Prop}
    (h : ∀ i : Fin calls.length, motive (calls.take i) (calls.get i)) (before : List ι) (call : ι)
    (after : List ι) (heq : calls = before ++ call :: after) : motive before call := by
  subst heq
  have hsplit := h ⟨before.length, by simp⟩
  simpa using hsplit

/-- A condition on the calls of a longer run is one on those of the shorter and on the last. -/
theorem forall_split_concat {calls : List ι} {call : ι} {ok : List ι → ι → Prop} :
    (∀ before c after, calls ++ [call] = before ++ c :: after → ok before c) ↔
      (∀ before c after, calls = before ++ c :: after → ok before c) ∧ ok calls call := by
  constructor
  · intro h
    refine ⟨fun before c after hc => h before c (after ++ [call]) ?_, h calls call [] rfl⟩
    rw [hc, append_assoc, cons_append]
  · rintro ⟨hcalls, hcall⟩ before c after h
    rcases eq_nil_or_concat after with rfl | ⟨after', last, rfl⟩
    · obtain ⟨rfl, hlast⟩ := append_inj' h rfl
      obtain rfl : call = c := (List.cons.inj hlast).1
      exact hcall
    · refine hcalls before c after' ?_
      rw [concat_eq_append, ← cons_append, ← append_assoc] at h
      exact (append_inj' h rfl).1

/-- What holds with no call made, and is kept by every call that meets a condition, holds after
    every run whose calls all meet it. -/
theorem run_induction_of {s : σ} (ok : σ → ι → Prop) (motive : List (ι × ο) → σ → Prop)
    (start : motive [] s)
    (keep : ∀ history s call, motive history s → ok s call →
      motive (history ++ [(call, (step s call).2)]) (step s call).1) (calls : List ι)
    (hok : ∀ before call after, calls = before ++ call :: after → ok (runAll step s before) call) :
    motive (historyOf step s calls) (runAll step s calls) := by
  induction calls using List.reverseRecOn with
  | nil => exact start
  | append_singleton calls call ih =>
    rw [runAll_concat, historyOf_concat]
    obtain ⟨hcalls, hcall⟩ := forall_split_concat.mp hok
    exact keep _ _ call (ih hcalls) hcall

/-- What holds with no call made, and is kept by every call, holds after every run. -/
theorem run_induction {s : σ} (motive : List (ι × ο) → σ → Prop) (start : motive [] s)
    (keep : ∀ history s call, motive history s →
      motive (history ++ [(call, (step s call).2)]) (step s call).1) (calls : List ι) :
    motive (historyOf step s calls) (runAll step s calls) :=
  run_induction_of step (fun _ _ => True) motive start
    (fun history s call h _ => keep history s call h) calls fun _ _ _ _ => trivial

/-- How the steps of a log are read. -/
structure Log (ε σ τ : Type) where
  number : ε → Nat
  source : ε → σ
  target : ε → σ
  time : ε → τ

variable {ε τ : Type} [LT τ]

/-- The steps lead from `start` to `state`. -/
structure Trail (log : Log ε σ τ) (start : σ) (steps : List ε) (state : σ) : Prop where
  states : start :: steps.map log.target = steps.map log.source ++ [state]
  numbers : steps.map log.number = range' 1 steps.length
  times : steps.IsChain (log.time · < log.time ·)

theorem Trail.concat {log : Log ε σ τ} {start state : σ} {steps : List ε} {next : ε}
    (h : Trail log start steps state) (hsource : log.source next = state)
    (hnumber : log.number next = steps.length + 1)
    (htime : ∀ last ∈ steps.getLast?, log.time last < log.time next) :
    Trail log start (steps ++ [next]) (log.target next) := by
  refine ⟨?_, ?_, isChain_append.mpr ⟨h.times, .singleton _, ?_⟩⟩
  · rw [map_append, map_append, ← cons_append, h.states, ← hsource]
    rfl
  · simp [h.numbers, range'_concat, hnumber, Nat.add_comm]
  · rintro last hlast _ ⟨⟩
    exact htime last hlast

end CryptoIntelligence.Lib
