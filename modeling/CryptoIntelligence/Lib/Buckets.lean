/-
  Ordered maps of ordered maps: an entry is found by a bucket and a key inside it. `put` opens the
  bucket it needs and `drop` closes a bucket that it empties, so a map without empty buckets is
  determined by its entries.
-/
import Mathlib

namespace CryptoIntelligence.Lib

open Std ExtTreeMap

/-! ## One map -/

section OneMap

variable {κ ν : Type} {cmp : κ → κ → Ordering} [TransCmp cmp]

theorem values_eq_map_snd (m : ExtTreeMap κ ν cmp) : m.values = m.toList.map Prod.snd := by
  have hfold : m.values = m.foldr (fun _ v values => v :: values) [] := by
    rcases m with ⟨⟨m⟩⟩
    rfl
  rw [hfold, foldr_eq_foldr_toList]
  induction m.toList with
  | nil => rfl
  | cons entry entries ih => rw [List.foldr_cons, ih, List.map_cons]

theorem mem_values [LawfulEqCmp cmp] {m : ExtTreeMap κ ν cmp} {v : ν} :
    v ∈ m.values ↔ ∃ k : κ, m[k]? = some v := by
  rw [values_eq_map_snd, List.mem_map]
  constructor
  · rintro ⟨⟨k, v'⟩, hmem, rfl⟩
    exact ⟨k, mem_toList_iff_getElem?_eq_some.mp hmem⟩
  · rintro ⟨k, hk⟩
    exact ⟨(k, v), mem_toList_iff_getElem?_eq_some.mpr hk, rfl⟩

variable {k : κ}

theorem getElem?_insert_of_ne [LawfulEqCmp cmp] (m : ExtTreeMap κ ν cmp) {a : κ} (v : ν)
    (h : k ≠ a) : (m.insert k v)[a]? = m[a]? := by
  rw [getElem?_insert, if_neg fun heq => h (LawfulEqCmp.compare_eq_iff_eq.mp heq)]

theorem getElem?_erase_of_ne [LawfulEqCmp cmp] (m : ExtTreeMap κ ν cmp) {a : κ} (h : k ≠ a) :
    (m.erase k)[a]? = m[a]? := by
  rw [getElem?_erase, if_neg fun heq => h (LawfulEqCmp.compare_eq_iff_eq.mp heq)]

theorem insert_comm [LawfulEqCmp cmp] (m : ExtTreeMap κ ν cmp) {j : κ} (h : j ≠ k) (v w : ν) :
    (m.insert j v).insert k w = (m.insert k w).insert j v := by
  apply ext_getElem?
  intro a
  by_cases hk : k = a
  · subst hk
    rw [getElem?_insert_self, getElem?_insert_of_ne _ v h,
      getElem?_insert_self]
  · rw [getElem?_insert_of_ne _ w hk]
    by_cases hj : j = a
    · subst hj
      rw [getElem?_insert_self, getElem?_insert_self]
    · rw [getElem?_insert_of_ne _ v hj, getElem?_insert_of_ne _ v hj, getElem?_insert_of_ne _ w hk]

theorem erase_comm [LawfulEqCmp cmp] (m : ExtTreeMap κ ν cmp) (j k : κ) :
    (m.erase j).erase k = (m.erase k).erase j := by
  apply ext_getElem?
  intro a
  simp only [getElem?_erase]
  split
  · split
    · rfl
    · rfl
  · rfl

/-- Erasing a list of keys leaves the others. -/
theorem getElem?_foldl_erase [LawfulEqCmp cmp] (keys : List κ) (m : ExtTreeMap κ ν cmp) (a : κ) :
    (a ∈ keys → (keys.foldl (fun m k => m.erase k) m)[a]? = none)
      ∧ (a ∉ keys → (keys.foldl (fun m k => m.erase k) m)[a]? = m[a]?) := by
  induction keys generalizing m with
  | nil => exact ⟨fun h => absurd h List.not_mem_nil, fun _ => rfl⟩
  | cons k keys ih =>
    obtain ⟨hin, hout⟩ := ih (m.erase k)
    rw [List.foldl_cons, List.mem_cons]
    by_cases hmem : a ∈ keys
    · exact ⟨fun _ => hin hmem, fun h => absurd (Or.inr hmem) h⟩
    · refine ⟨fun h => ?_, fun h => ?_⟩
      · obtain rfl := h.resolve_right hmem
        rw [hout hmem, getElem?_erase_self]
      · rw [hout hmem, getElem?_erase_of_ne m fun heq => h (Or.inl heq.symm)]

theorem size_foldl_erase_le (keys : List κ) (m : ExtTreeMap κ ν cmp) :
    (keys.foldl (fun m k => m.erase k) m).size ≤ m.size := by
  induction keys generalizing m with
  | nil => exact Nat.le_refl _
  | cons k keys ih => exact (ih (m.erase k)).trans size_erase_le

end OneMap

/-! ## Buckets -/

variable {κ ι ν : Type} {c : κ → κ → Ordering} {d : ι → ι → Ordering}

abbrev Buckets (κ ι ν : Type) (c : κ → κ → Ordering) (d : ι → ι → Ordering) :=
  ExtTreeMap κ (ExtTreeMap ι ν d) c

namespace Buckets

variable [TransCmp c] {a a' : κ} {m : Buckets κ ι ν c d}

/-- No bucket is kept without entries. -/
def NoEmpty (m : Buckets κ ι ν c d) : Prop := ∀ (a : κ) bucket, m[a]? = some bucket → bucket ≠ ∅

section OtherBuckets

variable [LawfulEqCmp c]

/-- Replacing a bucket by one with entries leaves no empty bucket. -/
theorem NoEmpty.insert (h : NoEmpty m) (a : κ)
    {bucket : ExtTreeMap ι ν d} (hbucket : bucket ≠ ∅) : NoEmpty (m.insert a bucket) := by
  intro a' found hfound
  by_cases ha : a = a'
  · subst ha
    rw [getElem?_insert_self] at hfound
    cases hfound
    exact hbucket
  · rw [getElem?_insert_of_ne m bucket ha] at hfound
    exact h a' found hfound

theorem NoEmpty.erase (h : NoEmpty m) (a : κ) : NoEmpty (m.erase a) := by
  intro a' found hfound
  by_cases ha : a = a'
  · subst ha
    rw [getElem?_erase_self] at hfound
    cases hfound
  · rw [getElem?_erase_of_ne m ha] at hfound
    exact h a' found hfound

end OtherBuckets

variable [TransCmp d]

def find (m : Buckets κ ι ν c d) (a : κ) (b : ι) : Option ν := (m[a]?).bind fun bucket => bucket[b]?

def put (m : Buckets κ ι ν c d) (a : κ) (b : ι) (v : ν) : Buckets κ ι ν c d :=
  m.insert a (((m[a]?).getD ∅).insert b v)

def drop (m : Buckets κ ι ν c d) (a : κ) (b : ι) : Buckets κ ι ν c d :=
  if (((m[a]?).getD ∅).erase b).isEmpty then m.erase a
  else m.insert a (((m[a]?).getD ∅).erase b)

theorem find_eq_getD (m : Buckets κ ι ν c d) (a : κ) (b : ι) :
    find m a b = ((m[a]?).getD ∅)[b]? := by
  unfold find
  cases m[a]? with
  | none => rfl
  | some bucket => rfl

/-- What the map finds in a bucket that was replaced. -/
theorem find_insert_self (m : Buckets κ ι ν c d) (a : κ) (bucket : ExtTreeMap ι ν d) (b : ι) :
    find (m.insert a bucket) a b = bucket[b]? := by
  unfold find
  rw [getElem?_insert_self]
  rfl

theorem find_erase_self (m : Buckets κ ι ν c d) (a : κ) (b : ι) : find (m.erase a) a b = none := by
  unfold find
  rw [getElem?_erase_self]
  rfl

theorem find_put_self (m : Buckets κ ι ν c d) (a : κ) (b : ι) (v : ν) :
    find (put m a b v) a b = some v := by
  unfold put find
  rw [getElem?_insert_self, Option.bind_some, getElem?_insert_self]

theorem find_drop_self (m : Buckets κ ι ν c d) (a : κ) (b : ι) : find (drop m a b) a b = none := by
  unfold drop
  split
  · exact find_erase_self m a b
  · rw [find_insert_self, getElem?_erase_self]

theorem NoEmpty.exists_find [LawfulEqCmp d] (h : NoEmpty m)
    {bucket : ExtTreeMap ι ν d} (hbucket : m[a]? = some bucket) : ∃ b v, find m a b = some v := by
  by_contra hnone
  refine h a bucket hbucket (ext_getElem? fun b => ?_)
  rw [getElem?_empty]
  cases hentry : bucket[b]? with
  | none => rfl
  | some v =>
    refine absurd ⟨b, v, ?_⟩ hnone
    unfold find
    rw [hbucket]
    exact hentry

variable [LawfulEqCmp c]

theorem find_insert_of_ne (m : Buckets κ ι ν c d) (bucket : ExtTreeMap ι ν d) (b : ι)
    (h : a ≠ a') : find (m.insert a bucket) a' b = find m a' b := by
  unfold find
  rw [getElem?_insert_of_ne m bucket h]

theorem find_erase_of_ne (m : Buckets κ ι ν c d) (b : ι) (h : a ≠ a') :
    find (m.erase a) a' b = find m a' b := by
  unfold find
  rw [getElem?_erase_of_ne m h]

theorem NoEmpty.put (h : NoEmpty m) (a : κ) (b : ι) (v : ν) :
    NoEmpty (put m a b v) := by
  refine h.insert a fun hempty => ?_
  have hfound : (((m[a]?).getD ∅).insert b v)[b]? = some v := getElem?_insert_self
  rw [hempty, getElem?_empty] at hfound
  cases hfound

theorem NoEmpty.drop (h : NoEmpty m) (a : κ) (b : ι) :
    NoEmpty (drop m a b) := by
  unfold Buckets.drop
  split
  · exact h.erase a
  · next hsome => exact h.insert a fun hempty => hsome (isEmpty_iff.mpr hempty)

variable [LawfulEqCmp d]

theorem find_put_of_ne (m : Buckets κ ι ν c d) {b b' : ι} (v : ν)
    (h : ¬ (a = a' ∧ b = b')) : find (put m a b v) a' b' = find m a' b' := by
  unfold put
  by_cases ha : a = a'
  · subst ha
    rw [find_insert_self, getElem?_insert_of_ne _ v fun hb => h ⟨rfl, hb⟩, find_eq_getD]
  · exact find_insert_of_ne m _ b' ha

theorem find_drop_of_ne (m : Buckets κ ι ν c d) {b b' : ι} (h : ¬ (a = a' ∧ b = b')) :
    find (drop m a b) a' b' = find m a' b' := by
  unfold drop
  split
  · next hempty =>
    by_cases ha : a = a'
    · -- the bucket held nothing but the dropped entry
      subst ha
      rw [find_erase_self, find_eq_getD, ← getElem?_erase_of_ne _ fun hb => h ⟨rfl, hb⟩,
        isEmpty_iff.mp hempty, getElem?_empty]
    · exact find_erase_of_ne m b' ha
  · by_cases ha : a = a'
    · subst ha
      rw [find_insert_self, getElem?_erase_of_ne _ fun hb => h ⟨rfl, hb⟩, find_eq_getD]
    · exact find_insert_of_ne m _ b' ha

/-- Two maps without empty buckets and with the same entries are equal. -/
theorem ext_find {m' : Buckets κ ι ν c d} (h : NoEmpty m) (h' : NoEmpty m')
    (hfind : ∀ a b, find m a b = find m' a b) : m = m' := by
  have hnone : ∀ {m m' : Buckets κ ι ν c d}, NoEmpty m → (∀ a b, find m a b = find m' a b) →
      ∀ a : κ, m'[a]? = none → m[a]? = none := by
    intro m m' h hfind a ha
    cases hbucket : m[a]? with
    | none => rfl
    | some bucket =>
      obtain ⟨b, v, hv⟩ := h.exists_find hbucket
      rw [hfind a b] at hv
      unfold find at hv
      rw [ha] at hv
      cases hv
  apply ext_getElem?
  intro a
  cases hbucket : m[a]? with
  | none => exact (hnone h' (fun a b => (hfind a b).symm) a hbucket).symm
  | some bucket =>
    cases hbucket' : m'[a]? with
    | none => exact absurd (hbucket.symm.trans (hnone h hfind a hbucket')) (by simp)
    | some bucket' =>
      congr 1
      apply ext_getElem?
      intro b
      have hentry := hfind a b
      unfold find at hentry
      rw [hbucket, hbucket'] at hentry
      exact hentry

end Buckets

end CryptoIntelligence.Lib
