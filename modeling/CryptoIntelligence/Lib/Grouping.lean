/-
  Grouping a list by a key, into a map from each key to the values that have it, in the order of the
  list; the test of every pair of neighbours of a list; and the values of an ordered list that meet
  a test which, once failed, is failed by all that come after.
-/
import Mathlib

namespace CryptoIntelligence.Lib

open Std (ExtTreeMap TransCmp LawfulEqCmp)
open List

variable {κ α : Type} {cmp : κ → κ → Ordering} [TransCmp cmp]

/-- Pushes each value on the group of its key. -/
def groupInto (cmp : κ → κ → Ordering) [TransCmp cmp] (key : α → κ) (values : List α) :
    ExtTreeMap κ (List α) cmp :=
  values.foldl (fun groups value =>
    groups.insert (key value) (groups.getD (key value) [] ++ [value])) ∅

theorem getD_groupInto [LawfulEqCmp cmp] [DecidableEq κ] (key : α → κ) (values : List α) (k : κ) :
    (groupInto cmp key values).getD k [] = values.filter fun value => key value = k := by
  induction values using List.reverseRecOn with
  | nil => rfl
  | append_singleton values value ih =>
    rw [groupInto, foldl_append, ← groupInto, filter_append, ← ih]
    simp only [foldl_cons, foldl_nil, ExtTreeMap.getD_insert]
    by_cases h : key value = k
    · simp [h, Std.ReflCmp.compare_self]
    · simp [h, mt LawfulEqCmp.eq_of_compare h]

/-- A key has a group if and only if some value has the key. -/
theorem mem_groupInto [LawfulEqCmp cmp] (key : α → κ) (values : List α) (k : κ) :
    k ∈ groupInto cmp key values ↔ ∃ value ∈ values, key value = k := by
  induction values using List.reverseRecOn with
  | nil => simp [groupInto]
  | append_singleton values value ih =>
    rw [groupInto, foldl_append, ← groupInto]
    simp only [foldl_cons, foldl_nil, ExtTreeMap.mem_insert,
      LawfulEqCmp.compare_eq_iff_eq, ih,
      mem_append, mem_singleton, or_and_right, exists_or, exists_eq_left]
    exact or_comm

theorem getElem?_groupInto [LawfulEqCmp cmp] [DecidableEq κ] (key : α → κ) (values : List α)
    (k : κ) : (groupInto cmp key values)[k]? =
      if ∃ value ∈ values, key value = k then some (values.filter fun value => key value = k)
      else none := by
  by_cases h : k ∈ groupInto cmp key values
  · rw [if_pos ((mem_groupInto key values k).mp h), ExtTreeMap.getElem?_eq_some_getD h,
      getD_groupInto]
  · rw [if_neg (mt (mem_groupInto key values k).mpr h)]
    exact getElem?_neg _ _ h

/-- `windows(2).any`: some value and the one after it are related. -/
def anyNeighbours (related : α → α → Bool) : List α → Bool
  | a :: b :: rest => related a b || anyNeighbours related (b :: rest)
  | _ => false

theorem anyNeighbours_eq_false {related : α → α → Bool} {values : List α} :
    anyNeighbours related values = false ↔ values.IsChain fun a b => ¬ related a b = true := by
  induction values with
  | nil => exact ⟨fun _ => .nil, fun _ => rfl⟩
  | cons a rest ih =>
    cases rest with
    | nil => exact ⟨fun _ => .singleton a, fun _ => rfl⟩
    | cons b rest =>
      rw [anyNeighbours, Bool.or_eq_false_iff, ih, isChain_cons_cons, Bool.not_eq_true]

/-- The values that meet the test come first. -/
theorem exists_eq_filter_append {test : α → Bool} {values : List α}
    (hdown : values.Pairwise fun a b => test b = true → test a = true) :
    ∃ later, values = values.filter test ++ later ∧ ∀ value ∈ later, test value = false := by
  induction values with
  | nil => exact ⟨[], rfl, by simp⟩
  | cons a rest ih =>
    obtain ⟨hhead, htail⟩ := pairwise_cons.mp hdown
    cases ha : test a with
    | true =>
      obtain ⟨later, hrest, hlater⟩ := ih htail
      refine ⟨later, ?_, hlater⟩
      rw [filter_cons_of_pos ha, cons_append, ← hrest]
    | false =>
      have hnone : ∀ value ∈ a :: rest, test value = false := by
        intro value hmem
        rcases mem_cons.mp hmem with rfl | hmem
        · exact ha
        · exact Bool.eq_false_iff.mpr fun h => by simp [hhead value hmem h] at ha
      refine ⟨a :: rest, ?_, hnone⟩
      rw [filter_eq_nil_iff.mpr fun value hmem => by simp [hnone value hmem], nil_append]

end CryptoIntelligence.Lib
