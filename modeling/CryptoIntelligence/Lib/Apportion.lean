/-
  Splitting an amount among members in proportion to their weights. A member's quota is its exact
  share rounded down, its leftover the remainder of that division. The quotas do not exceed the
  amount (`sum_quota_le`), and a heavier member has a larger quota, or the same quota and a larger
  leftover (`quota_le`, `leftover_lt`). Where members leave with no more than their quotas, the
  quotas of the others do not fall (`quota_le_of_leave`).

  The units that the quotas leave are granted one by one along an order, to members below a limit
  (`grantStep`). `foldl_grantStep` gives the result of such a pass in closed form.
-/
import Mathlib

namespace CryptoIntelligence.Lib

open List

variable {ι : Type}

/-! ## Quotas -/

section

variable (weight : ι → Nat) (amount : Nat) (members : List ι)

def totalWeight : Nat := (members.map weight).sum

def quota (i : ι) : Nat := amount * weight i / totalWeight weight members

def leftover (i : ι) : Nat := amount * weight i % totalWeight weight members

variable {weight members}

theorem sum_quota_mul (chosen : List ι) :
    (chosen.map (quota weight amount members)).sum * totalWeight weight members ≤
      amount * (chosen.map weight).sum := by
  induction chosen with
  | nil => simp
  | cons i rest ih =>
    rw [map_cons, sum_cons, map_cons, sum_cons, Nat.add_mul, Nat.mul_add]
    exact Nat.add_le_add (Nat.div_mul_le_self _ _) ih

/-- The quotas of some of the members do not exceed the amount. -/
theorem sum_quota_le (hpos : 0 < totalWeight weight members) {chosen : List ι}
    (hchosen : chosen.Sublist members) :
    (chosen.map (quota weight amount members)).sum ≤ amount := by
  have hweight : (chosen.map weight).sum ≤ totalWeight weight members :=
    (hchosen.map weight).sum_le_sum fun _ _ => Nat.zero_le _
  refine Nat.le_of_mul_le_mul_right ?_ hpos
  exact Nat.le_trans (sum_quota_mul amount chosen) (Nat.mul_le_mul_left amount hweight)

theorem quota_le {i j : ι} (h : weight i ≤ weight j) :
    quota weight amount members i ≤ quota weight amount members j :=
  Nat.div_le_div_right (Nat.mul_le_mul_left amount h)

theorem totalWeight_filter (keep : ι → Bool) : totalWeight weight members =
    totalWeight weight (members.filter keep) + totalWeight weight (members.filter (!keep ·)) := by
  unfold totalWeight
  rw [← sum_append, ← map_append]
  exact (((filter_append_perm keep members).map weight).sum_eq).symm

/-- Where members leave with no more than their quotas, the quotas of the others do not fall. -/
theorem quota_le_of_leave {keep : ι → Bool} {taken : Nat}
    (hkept : 0 < totalWeight weight (members.filter keep))
    (hleave : ∀ i ∈ members, keep i = false → taken ≤ quota weight amount members i) (j : ι) :
    quota weight amount members j ≤
      quota weight (amount - (members.filter (!keep ·)).length * taken)
        (members.filter keep) j := by
  have hsplit := @totalWeight_filter _ weight members keep
  have hpositive : 0 < totalWeight weight members := by omega
  have hquotas : (members.filter (!keep ·)).length * taken ≤
      ((members.filter (!keep ·)).map (quota weight amount members)).sum := by
    rw [← smul_eq_mul, ← length_map (quota weight amount members)]
    refine card_nsmul_le_sum _ _ fun share hshare => ?_
    obtain ⟨i, hi, rfl⟩ := mem_map.mp hshare
    obtain ⟨hmem, hnot⟩ := mem_filter.mp hi
    exact hleave i hmem (by simpa using hnot)
  generalize (members.filter (!keep ·)).length * taken = given at hquotas ⊢
  have hgiven : given * totalWeight weight members ≤
      amount * totalWeight weight (members.filter (!keep ·)) :=
    (Nat.mul_le_mul_right _ hquotas).trans (sum_quota_mul amount _)
  have hrate : amount * totalWeight weight (members.filter keep) ≤
      (amount - given) * totalWeight weight members := by
    have hwhole : amount * totalWeight weight members =
        amount * totalWeight weight (members.filter keep) +
          amount * totalWeight weight (members.filter (!keep ·)) := by
      rw [← Nat.mul_add, ← hsplit]
    rw [Nat.sub_mul]
    omega
  refine (Nat.le_div_iff_mul_le hkept).mpr (Nat.le_of_mul_le_mul_right ?_ hpositive)
  calc quota weight amount members j * totalWeight weight (members.filter keep) *
        totalWeight weight members
      = quota weight amount members j * totalWeight weight members *
        totalWeight weight (members.filter keep) := Nat.mul_right_comm _ _ _
    _ ≤ amount * weight j * totalWeight weight (members.filter keep) :=
        Nat.mul_le_mul_right _ (Nat.div_mul_le_self _ _)
    _ = amount * totalWeight weight (members.filter keep) * weight j := Nat.mul_right_comm _ _ _
    _ ≤ (amount - given) * totalWeight weight members * weight j := Nat.mul_le_mul_right _ hrate
    _ = (amount - given) * weight j * totalWeight weight members := Nat.mul_right_comm _ _ _

theorem leftover_lt {amount : Nat} (hamount : 0 < amount) {i j : ι} (h : weight i < weight j)
    (hquota : quota weight amount members i = quota weight amount members j) :
    leftover weight amount members i < leftover weight amount members j := by
  have hi := Nat.div_add_mod (amount * weight i) (totalWeight weight members)
  have hj := Nat.div_add_mod (amount * weight j) (totalWeight weight members)
  have hlt : amount * weight i < amount * weight j := Nat.mul_lt_mul_of_pos_left h hamount
  unfold quota at hquota
  unfold leftover
  rw [hquota] at hi
  omega

end

/-! ## Granting units along an order -/

section

variable [DecidableEq ι] (limit : Nat)

/-- One more unit for a member below the limit, while there are units. -/
def grantStep (s : (ι → Nat) × Nat) (i : ι) : (ι → Nat) × Nat :=
  if s.2 = 0 then s
  else if s.1 i < limit then (Function.update s.1 i (s.1 i + 1), s.2 - 1)
  else s

/-- The members that get a unit. -/
def granted (shares : ι → Nat) (order : List ι) (units : Nat) : List ι :=
  (order.filter fun i => shares i < limit).take units

theorem foldl_grantStep {order : List ι} (hnodup : order.Nodup) (shares : ι → Nat) (units : Nat) :
    order.foldl (grantStep limit) (shares, units) =
      (fun i => shares i + if i ∈ granted limit shares order units then 1 else 0,
        units - (order.filter fun i => shares i < limit).length) := by
  induction order generalizing shares units with
  | nil => simp [granted]
  | cons i rest ih =>
    obtain ⟨hi, hrest⟩ := nodup_cons.mp hnodup
    rw [foldl_cons]
    by_cases hunits : units = 0
    · subst hunits
      rw [grantStep, if_pos rfl, ih hrest]
      simp [granted]
    · by_cases hroom : shares i < limit
      · -- the rest of the order does not meet `i` again
        have hsame : (rest.filter fun j => Function.update shares i (shares i + 1) j < limit) =
            rest.filter fun j => shares j < limit := by
          refine filter_congr fun j hj => ?_
          rw [Function.update_of_ne (ne_of_mem_of_not_mem hj hi)]
        obtain ⟨more, rfl⟩ := Nat.exists_eq_succ_of_ne_zero hunits
        rw [grantStep, if_neg hunits, if_pos hroom, ih hrest, granted, hsame]
        simp only [granted, filter_cons, hroom, decide_true, if_true, Nat.succ_eq_add_one,
          Nat.add_sub_cancel, take_succ_cons, mem_cons, length_cons,
          Nat.add_sub_add_right, Prod.mk.injEq, and_true]
        funext j
        by_cases hj : j = i
        · subst hj
          have hnot : j ∉ (rest.filter fun j => shares j < limit).take more := fun hmem =>
            hi (mem_filter.mp (mem_of_mem_take hmem)).1
          simp [hnot]
        · simp [hj]
      · have hskip : ((i :: rest).filter fun j => shares j < limit) =
            rest.filter fun j => shares j < limit := filter_cons_of_neg (by simpa using hroom)
        have hgranted : granted limit shares (i :: rest) units = granted limit shares rest units :=
          congrArg (List.take units) hskip
        rw [grantStep, if_neg hunits, if_neg hroom, ih hrest, hgranted, hskip]

end

/-! ## Sums and places in an order -/

theorem sum_ite_mem_list [Fintype ι] [DecidableEq ι] {members : List ι} (hnodup : members.Nodup)
    (f : ι → Nat) : (∑ i, if i ∈ members then f i else 0) = (members.map f).sum := by
  rw [← sum_toFinset f hnodup]
  simp only [← mem_toFinset]
  rw [Finset.sum_ite_mem, Finset.univ_inter]

/-- A member that must come before one of the first `count` is one of them. -/
theorem mem_take_of_pairwise {related : ι → ι → Prop} {order : List ι} (h : order.Pairwise related)
    {count : Nat} {i j : ι} (hj : j ∈ order.take count) (hi : i ∈ order) (hij : ¬ related j i) :
    i ∈ order.take count := by
  rw [← take_append_drop count order] at h hi
  rcases mem_append.mp hi with hfirst | hlast
  · exact hfirst
  · exact absurd ((pairwise_append.mp h).2.2 j hj i hlast) hij

end CryptoIntelligence.Lib
