/-
  Half-open spans of time with an optional end, and lists of them sorted by start.

  In a list sorted by start it is enough to compare neighbours: when no span overlaps the next one,
  every span ends before all later ones start (`pairwise_before`), so at most one of them covers a
  time (`covering_unique`).
-/
import Mathlib

namespace CryptoIntelligence.Lib

open List

/-- The times from `start` on and before `stop`; without a `stop` it has no end. -/
structure Span (τ : Type) [LT τ] where
  start : τ
  stop : Option τ
  start_lt : ∀ last ∈ stop, start < last

namespace Span

variable {τ : Type} [LinearOrder τ] {α : Type}

def Covers (s : Span τ) (time : τ) : Prop := s.start ≤ time ∧ ∀ stop ∈ s.stop, time < stop

def Overlaps (a b : Span τ) : Prop :=
  (∀ stop ∈ b.stop, a.start < stop) ∧ ∀ stop ∈ a.stop, b.start < stop

/-- The first span has ended when the second starts. -/
def Before (a b : Span τ) : Prop := ∃ stop ∈ a.stop, stop ≤ b.start

theorem Before.trans {a b c : Span τ} (hab : a.Before b) (hbc : b.Before c) : a.Before c := by
  obtain ⟨stop, hs, hle⟩ := hab
  obtain ⟨last, hl, hle'⟩ := hbc
  exact ⟨stop, hs, le_trans hle (le_trans (le_of_lt (b.start_lt last hl)) hle')⟩

theorem Before.not_covers {a b : Span τ} (h : a.Before b) {time : τ} (ha : a.Covers time) :
    ¬ b.Covers time := by
  obtain ⟨stop, hs, hle⟩ := h
  intro hb
  exact absurd (ha.2 stop hs) (not_lt.mpr (le_trans hle hb.1))

theorem before_of_not_overlaps {a b : Span τ} (hle : a.start ≤ b.start) (h : ¬ Overlaps a b) :
    a.Before b := by
  by_contra hbefore
  refine h ⟨fun stop hs => lt_of_le_of_lt hle (b.start_lt stop hs), fun stop hs => ?_⟩
  by_contra hlt
  exact hbefore ⟨stop, hs, not_lt.mp hlt⟩

variable (span : α → Span τ)

/-- In a list sorted by start whose neighbours do not overlap, every span ends before all later
    ones. -/
theorem pairwise_before {values : List α}
    (hsorted : values.Pairwise fun a b => (span a).start ≤ (span b).start)
    (hneighbours : values.IsChain fun a b => ¬ Overlaps (span a) (span b)) :
    values.Pairwise fun a b => (span a).Before (span b) := by
  have : Trans (fun a b => (span a).Before (span b)) (fun a b => (span a).Before (span b))
      (fun a b => (span a).Before (span b)) := ⟨fun hab hbc => hab.trans hbc⟩
  rw [← isChain_iff_pairwise]
  induction values with
  | nil => exact .nil
  | cons a rest ih =>
    cases rest with
    | nil => exact .singleton a
    | cons b rest =>
      rw [isChain_cons_cons] at hneighbours ⊢
      rw [pairwise_cons] at hsorted
      exact ⟨before_of_not_overlaps (hsorted.1 b mem_cons_self) hneighbours.1,
        ih hsorted.2 hneighbours.2⟩

/-- At most one span of the list covers a time. -/
theorem covering_unique {values : List α} {time : τ}
    (h : values.Pairwise fun a b => (span a).Before (span b)) {p : α → Bool}
    (hp : ∀ a ∈ values, p a = true → (span a).Covers time) :
    values.filter p = [] ∨ ∃ a ∈ values, values.filter p = [a] := by
  have hpairs := h.filter p
  have hmem : ∀ a ∈ values.filter p, a ∈ values ∧ (span a).Covers time := fun a ha =>
    ⟨(mem_filter.mp ha).1, hp a (mem_filter.mp ha).1 (mem_filter.mp ha).2⟩
  generalize values.filter p = covering at hpairs hmem
  match covering with
  | [] => exact .inl rfl
  | [a] => exact .inr ⟨a, (hmem a mem_cons_self).1, rfl⟩
  | a :: b :: rest =>
    have hbefore := (pairwise_cons.mp hpairs).1 b mem_cons_self
    have hb : b ∈ a :: b :: rest := mem_cons_of_mem a mem_cons_self
    exact absurd (hmem b hb).2 (hbefore.not_covers (hmem a mem_cons_self).2)

end Span

end CryptoIntelligence.Lib
