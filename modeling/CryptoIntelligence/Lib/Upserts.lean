/-
  Ordered maps filled from a list of changes and cut to a depth. A change sets the value at its
  key or removes the key. What is proved: after a list of changes the last change of a key decides
  (`getElem?_upsertAll`), a list that holds exactly the values of a map says at each key what the
  map says (`lastAt_of_mem_iff`), and mapping the values commutes with cutting (`map_dropWorst`).
-/
import Mathlib

namespace CryptoIntelligence.Lib

open Std (ExtTreeMap TransCmp LawfulEqCmp)
open List

variable {α β γ δ : Type} {cmp : α → α → Ordering} [TransCmp cmp]

/-! ## Keyed maps -/

/-- Every value of the map is stored at its own key. -/
def Keyed (key : β → α) (m : ExtTreeMap α β cmp) : Prop := ∀ k v, m[k]? = some v → key v = k

/-- Every entry of the map meets a condition. -/
def Everywhere (P : α → β → Prop) (m : ExtTreeMap α β cmp) : Prop := ∀ k v, m[k]? = some v → P k v

theorem everywhere_empty (P : α → β → Prop) : Everywhere P (∅ : ExtTreeMap α β cmp) := by
  intro k v h
  simp at h

theorem keyed_empty (key : β → α) : Keyed key (∅ : ExtTreeMap α β cmp) := everywhere_empty _

variable {P : α → β → Prop} {m : ExtTreeMap α β cmp}

theorem Everywhere.erase (h : Everywhere P m) (k : α) :
    Everywhere P (m.erase k) := by
  intro k' v hv
  rw [ExtTreeMap.getElem?_erase] at hv
  split at hv
  · cases hv
  · exact h k' v hv

/-- Remove the key that `worst` picks until at most `depth` remain. The fuel is the size. -/
def dropWorst (worst : List α → Option α) (depth : Nat) : Nat → ExtTreeMap α β cmp →
    ExtTreeMap α β cmp
  | 0, m => m
  | fuel + 1, m =>
    if m.size > depth then
      match worst m.keys with
      | some k => dropWorst worst depth fuel (m.erase k)
      | none => m
    else m

theorem Everywhere.dropWorst (worst : List α → Option α) (depth : Nat) :
    ∀ fuel {m : ExtTreeMap α β cmp}, Everywhere P m → Everywhere P (dropWorst worst depth fuel m)
  | 0, _, h => h
  | fuel + 1, m, h => by
    unfold CryptoIntelligence.Lib.dropWorst
    split
    · split
      · exact Everywhere.dropWorst worst depth fuel (h.erase _)
      · exact h
    · exact h

theorem Keyed.dropWorst {key : β → α} (worst : List α → Option α) (depth fuel : Nat)
    (h : Keyed key m) : Keyed key (dropWorst worst depth fuel m) :=
  Everywhere.dropWorst worst depth fuel h

/-! ## Changes -/

/-- Apply changes in order: `value` is the new value at `key`, `none` removes the key. -/
def upsertAll (key : γ → α) (value : γ → Option β) (m : ExtTreeMap α β cmp) (changes : List γ) :
    ExtTreeMap α β cmp :=
  changes.foldl (fun m c =>
    match value c with
    | some v => m.insert (key c) v
    | none => m.erase (key c)) m

/-- The last change at a key. -/
def lastAt [DecidableEq α] (key : γ → α) (k : α) (changes : List γ) : Option γ :=
  changes.reverse.find? fun c => decide (key c = k)

theorem lastAt_concat [DecidableEq α] (key : γ → α) (k : α) (changes : List γ) (c : γ) :
    lastAt key k (changes ++ [c]) = if key c = k then some c else lastAt key k changes := by
  unfold lastAt
  rw [reverse_append, reverse_singleton, singleton_append, find?_cons]
  by_cases h : key c = k <;> simp [h]

theorem key_of_lastAt [DecidableEq α] {key : γ → α} {k : α} {changes : List γ} {c : γ}
    (h : lastAt key k changes = some c) : key c = k := by
  simpa using find?_some h

/-- A list with exactly the values of a keyed map says at each key what the map says. -/
theorem lastAt_of_mem_iff [DecidableEq α] {key : β → α} {values : List β}
    (h : Keyed key m) (hmem : ∀ v, v ∈ values ↔ m[key v]? = some v) (k : α) :
    lastAt key k values = m[k]? := by
  cases hk : m[k]? with
  | none =>
    refine find?_eq_none.mpr fun v hv hkey => ?_
    obtain rfl : key v = k := by simpa using hkey
    rw [(hmem v).mp (mem_reverse.mp hv)] at hk
    cases hk
  | some v =>
    have hv : v ∈ values := (hmem v).mpr ((h k v hk).symm ▸ hk)
    cases hl : lastAt key k values with
    | none =>
      have hnone := find?_eq_none.mp hl v (mem_reverse.mpr hv)
      exact absurd (h k v hk) (by simpa using hnone)
    | some c =>
      have hc : c ∈ values := mem_reverse.mp (mem_of_find?_eq_some hl)
      rw [← hk, ← key_of_lastAt hl, (hmem c).mp hc]

theorem lastAt_map [DecidableEq α] {key : γ → α} {key' : δ → α} {f : γ → δ}
    (h : ∀ c, key' (f c) = key c) (k : α) (changes : List γ) :
    lastAt key' k (changes.map f) = (lastAt key k changes).map f := by
  unfold lastAt
  rw [← map_reverse, find?_map]
  simp only [Function.comp_def, h]

variable [LawfulEqCmp cmp]

/-- The last change of a key decides its value. -/
theorem getElem?_upsertAll [DecidableEq α] (key : γ → α) (value : γ → Option β)
    (m : ExtTreeMap α β cmp) (changes : List γ) (k : α) :
    (upsertAll key value m changes)[k]? =
      match lastAt key k changes with
      | some c => value c
      | none => m[k]? := by
  induction changes using List.reverseRecOn with
  | nil => rfl
  | append_singleton changes c ih =>
    have hstep : upsertAll key value m (changes ++ [c]) =
        match value c with
        | some v => (upsertAll key value m changes).insert (key c) v
        | none => (upsertAll key value m changes).erase (key c) := by
      unfold upsertAll
      rw [foldl_append]
      rfl
    rw [hstep, lastAt_concat]
    by_cases hk : key c = k
    · rw [if_pos hk]
      cases hv : value c with
      | some v => simp [hk, hv]
      | none => simp [hk, hv]
    · have hcmp : cmp (key c) k ≠ .eq := fun h => hk (LawfulEqCmp.eq_of_compare h)
      rw [if_neg hk, ← ih]
      cases hv : value c with
      | some v =>
        dsimp only
        rw [ExtTreeMap.getElem?_insert, if_neg hcmp]
      | none =>
        dsimp only
        rw [ExtTreeMap.getElem?_erase, if_neg hcmp]

/-- Changes whose values meet the condition keep it. -/
theorem Everywhere.upsertAll [DecidableEq α] {key : γ → α} {value : γ → Option β}
    (h : Everywhere P m) {changes : List γ}
    (hvalue : ∀ c ∈ changes, ∀ v, value c = some v → P (key c) v) :
    Everywhere P (upsertAll key value m changes) := by
  intro k v hv
  rw [getElem?_upsertAll] at hv
  split at hv
  · rename_i c hc
    have hmem : c ∈ changes := mem_reverse.mp (mem_of_find?_eq_some hc)
    rw [← key_of_lastAt hc]
    exact hvalue c hmem v hv
  · exact h k v hv

/-- Changes whose values carry their key keep a map keyed. -/
theorem Keyed.upsertAll [DecidableEq α] {key : γ → α} {value : γ → Option β} {key' : β → α}
    (h : Keyed key' m) (hvalue : ∀ c v, value c = some v → key' v = key c)
    (changes : List γ) : Keyed key' (upsertAll key value m changes) :=
  Everywhere.upsertAll h fun c _ v hv => hvalue c v hv

theorem mem_values_iff {key : β → α} (h : Keyed key m) (v : β) :
    v ∈ m.toList.map Prod.snd ↔ m[key v]? = some v := by
  rw [mem_map]
  constructor
  · rintro ⟨⟨k, w⟩, hmem, rfl⟩
    have hw := ExtTreeMap.mem_toList_iff_getElem?_eq_some.mp hmem
    rw [h k w hw]
    exact hw
  · exact fun hv => ⟨(key v, v), ExtTreeMap.mem_toList_iff_getElem?_eq_some.mpr hv, rfl⟩

theorem Keyed.map_values {key : β → α} (h : Keyed key m) :
    (m.toList.map Prod.snd).map key = m.keys := by
  rw [map_map, ← ExtTreeMap.map_fst_toList_eq_keys]
  apply map_congr_left
  intro entry hentry
  exact h entry.1 entry.2 (ExtTreeMap.mem_toList_iff_getElem?_eq_some.mp hentry)

/-! ## Cutting to a depth -/

theorem map_erase (f : β → δ) (m : ExtTreeMap α β cmp) (k : α) :
    (m.erase k).map (fun _ v => f v) = (m.map fun _ v => f v).erase k := by
  refine ExtTreeMap.ext_getElem? fun k' => ?_
  rw [ExtTreeMap.getElem?_map, ExtTreeMap.getElem?_erase, ExtTreeMap.getElem?_erase,
    ExtTreeMap.getElem?_map]
  split <;> rfl

/-- Cutting looks at keys only, so it commutes with a map over the values. -/
theorem map_dropWorst (f : β → δ) (worst : List α → Option α) (depth : Nat) :
    ∀ fuel (m : ExtTreeMap α β cmp), (dropWorst worst depth fuel m).map (fun _ v => f v) =
      dropWorst worst depth fuel (m.map fun _ v => f v)
  | 0, _ => rfl
  | fuel + 1, m => by
    unfold dropWorst
    rw [ExtTreeMap.size_map, ExtTreeMap.keys_map]
    split
    · split
      · rw [map_dropWorst f worst depth fuel, map_erase]
      · rfl
    · rfl

end CryptoIntelligence.Lib
