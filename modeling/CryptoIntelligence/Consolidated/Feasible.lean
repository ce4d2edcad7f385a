/-
  When the venue weights are found. A round takes the capped venues out and leaves the others a
  remainder that still fits under their caps (`Serving`), so every round but the last one succeeds
  and the rounds end. The last round rounds down and has one unit to give to each venue below the
  cap.

  The venues that the rounds cap are those above a raw weight, the greatest one up to which no share
  exceeds the cap when all heavier venues are at it (`CapLevel`). With feasible input the weights
  are found, and are then within their bounds, sum to a million and follow the raw weights, if and
  only if the units that rounding down leaves at that weight are at most as many as the venues below
  the cap (`weights_found_iff`). Venues exactly at the cap may hold fractions that nobody takes
  over: `weights_refused` is such an input.
-/
import CryptoIntelligence.Consolidated.Weights

namespace CryptoIntelligence.Consolidated

open Lib List Nat

variable {raw : List UInt64} {residualCap : Nat}

/-! ## The steps of a round -/

theorem checkedU32_ok {value : Nat} (h : value < 2 ^ 32) : checkedU32 value = .ok value := by
  rw [checkedU32, reject_neg (Nat.not_le.mpr h)]
  rfl

theorem checkedSub_ok {remaining amount : Nat} {err : ConsolidatedError} (h : amount ≤ remaining) :
    checkedSub remaining amount err = .ok (remaining - amount) := by
  rw [checkedSub, reject_neg (not_lt.mpr h)]
  rfl

/-- The shares of the last round, without errors when their sum is small. -/
theorem foldlM_allotVenue (active todo : List (Fin raw.length)) (remaining : Nat)
    (assigned : Fin raw.length → Nat) (used : Nat) (remainders : List (Fin raw.length × Nat))
    (h : used + (todo.map (quota (rawWeight raw) remaining active)).sum < 2 ^ 32) :
    todo.foldlM (allotVenue raw active remaining) (assigned, used, remainders) =
      .ok (fun i => if i ∈ todo then quota (rawWeight raw) remaining active i else assigned i,
        used + (todo.map (quota (rawWeight raw) remaining active)).sum,
        remainders ++ todo.map fun i => (i, leftover (rawWeight raw) remaining active i)) := by
  induction todo generalizing assigned used remainders with
  | nil => simp
  | cons i rest ih =>
    rw [map_cons, sum_cons] at h
    have hstep : allotVenue raw active remaining (assigned, used, remainders) i =
        .ok (Function.update assigned i (quota (rawWeight raw) remaining active i),
          used + quota (rawWeight raw) remaining active i,
          remainders ++ [(i, leftover (rawWeight raw) remaining active i)]) := by
      unfold allotVenue
      dsimp only
      rw [checkedU32_ok (by omega), ok_bind, checkedU32_ok (by omega)]
      rfl
    rw [foldlM_cons, hstep, ok_bind, ih _ _ _ (by omega)]
    refine congrArg Except.ok (Prod.ext (funext fun j => ?_) (Prod.ext ?_ ?_))
    · by_cases hj : j = i
      · subst hj
        simp
      · simp [hj]
    · simp only [map_cons, sum_cons, add_assoc]
    · simp

theorem foldlM_capVenue (capped : List (Fin raw.length)) (assigned : Fin raw.length → Nat)
    (remaining : Nat) (h : capped.length * residualCap ≤ remaining) :
    capped.foldlM (capVenue raw residualCap) (assigned, remaining) =
      .ok (fun i => if i ∈ capped then residualCap else assigned i,
        remaining - capped.length * residualCap) := by
  induction capped generalizing assigned remaining with
  | nil => simp
  | cons i rest ih =>
    rw [length_cons, add_mul, one_mul] at h
    have hstep : capVenue raw residualCap (assigned, remaining) i =
        .ok (Function.update assigned i residualCap, remaining - residualCap) := by
      rw [capVenue, checkedSub_ok (by omega)]
      rfl
    rw [foldlM_cons, hstep, ok_bind, ih _ _ (by omega)]
    refine congrArg Except.ok (Prod.ext (funext fun j => ?_) ?_)
    · by_cases hj : j = i
      · subst hj
        simp
      · simp [hj]
    · simp only [length_cons, add_mul, one_mul]
      omega

/-! ## What the rounds keep -/

/-- The state of the loop at the head of a round. -/
structure Serving (raw : List UInt64) (residualCap : Nat) (s : Allotment raw.length) : Prop where
  nodup : s.active.Nodup
  nonempty : s.active ≠ []
  idle : ∀ i ∈ s.active, s.assigned i = 0
  full : ∀ i ∉ s.active, s.assigned i = residualCap
  sum : ∑ i, s.assigned i + s.remaining = ppmDenominator - raw.length
  feasible : s.remaining ≤ s.active.length * residualCap
  heavier : ∀ i ∉ s.active, ∀ j ∈ s.active, rawWeight raw j ≤ rawWeight raw i

/-- The venues of at most a raw weight. -/
def venuesUpTo (raw : List UInt64) (level : Nat) : List (Fin raw.length) :=
  (finRange raw.length).filter fun i => rawWeight raw i ≤ level

/-- What is left for them when every heavier venue takes what the cap leaves. -/
def leftFor (raw : List UInt64) (residualCap level : Nat) : Nat :=
  ppmDenominator - raw.length - (raw.length - (venuesUpTo raw level).length) * residualCap

/-- The share of one of them, rounded down. -/
def shareUpTo (raw : List UInt64) (residualCap level : Nat) : Fin raw.length → Nat :=
  quota (rawWeight raw) (leftFor raw residualCap level) (venuesUpTo raw level)

/-- The greatest raw weight up to which no share exceeds the cap. -/
structure CapLevel (raw : List UInt64) (residualCap level : Nat) : Prop where
  observed : ∃ i, rawWeight raw i = level
  under : ∀ i ∈ venuesUpTo raw level, shareUpTo raw residualCap level i ≤ residualCap
  greatest : ∀ j, level < rawWeight raw j → ∃ i ∈ venuesUpTo raw (rawWeight raw j),
    residualCap < shareUpTo raw residualCap (rawWeight raw j) i

/-- The units that rounding down leaves are at most as many as the venues below the cap. -/
def LeftoverFits (raw : List UInt64) (residualCap level : Nat) : Prop :=
  leftFor raw residualCap level -
      ((venuesUpTo raw level).map (shareUpTo raw residualCap level)).sum ≤
    ((venuesUpTo raw level).filter fun i => shareUpTo raw residualCap level i < residualCap).length

instance (level : Nat) : Decidable (LeftoverFits raw residualCap level) :=
  inferInstanceAs (Decidable (_ ≤ _))

theorem CapLevel.unique {level other : Nat} (h : CapLevel raw residualCap level)
    (hother : CapLevel raw residualCap other) : level = other := by
  have hnot : ∀ {a b : Nat}, CapLevel raw residualCap a → CapLevel raw residualCap b → ¬ a < b := by
    intro a b ha hb hlt
    obtain ⟨j, rfl⟩ := hb.observed
    obtain ⟨i, hi, hmore⟩ := ha.greatest j hlt
    exact absurd (hb.under i hi) (Nat.not_le.mpr hmore)
  exact Nat.le_antisymm (Nat.not_lt.mp (hnot hother h)) (Nat.not_lt.mp (hnot h hother))

/-- The venues of a round are those up to a raw weight, and no greater weight is that of the cap. -/
structure AtLevel (raw : List UInt64) (residualCap level : Nat) (s : Allotment raw.length) :
    Prop where
  active : s.active = venuesUpTo raw level
  observed : ∃ i, rawWeight raw i = level
  greatest : ∀ j, level < rawWeight raw j → ∃ i ∈ venuesUpTo raw (rawWeight raw j),
    residualCap < shareUpTo raw residualCap (rawWeight raw j) i

theorem mem_venuesUpTo {level : Nat} {i : Fin raw.length} :
    i ∈ venuesUpTo raw level ↔ rawWeight raw i ≤ level := by
  simp [venuesUpTo]

/-- The amount of a round is what the heavier venues leave. -/
theorem Serving.remaining_eq {s : Allotment raw.length} {level : Nat}
    (h : Serving raw residualCap s)
    (hlevel : AtLevel raw residualCap level s) : s.remaining = leftFor raw residualCap level := by
  have hassigned : ∑ i, s.assigned i + s.active.length * residualCap =
      raw.length * residualCap := by
    rw [show s.active.length * residualCap = (s.active.map fun _ => residualCap).sum by simp,
      ← sum_ite_mem_list h.nodup, ← Finset.sum_add_distrib]
    have hall : ∀ i, s.assigned i + (if i ∈ s.active then residualCap else 0) = residualCap := by
      intro i
      split
      · rename_i hmem
        rw [h.idle i hmem, zero_add]
      · rename_i hnot
        rw [h.full i hnot, add_zero]
    simp [hall]
  have hsum := h.sum
  rw [leftFor, ← hlevel.active, Nat.sub_mul]
  omega

theorem totalWeight_pos (hpos : 0 ∉ raw) {active : List (Fin raw.length)} (h : active ≠ []) :
    0 < totalWeight (rawWeight raw) active := by
  obtain ⟨i, rest, rfl⟩ := exists_cons_of_ne_nil h
  have hi : rawWeight raw i ≠ 0 := fun hzero => hpos <| by
    have hraw : raw[i] = 0 := UInt64.toNat_inj.mp hzero
    rw [← hraw]
    exact getElem_mem i.isLt
  rw [totalWeight, map_cons, sum_cons]
  omega

/-- Every capped venue has more than the cap leaves, so together they need less than there is. -/
theorem capped_length_le (hpos : 0 ∉ raw) {active : List (Fin raw.length)} (hne : active ≠ [])
    (residualCap remaining : Nat) :
    (cappedVenues raw residualCap active remaining).length * (residualCap + 1) ≤ remaining := by
  have hsum := sum_quota_le remaining (totalWeight_pos hpos hne)
    (filter_sublist (p := fun i =>
      decide (residualCap < quota (rawWeight raw) remaining active i)))
  refine Nat.le_trans ?_ hsum
  rw [← smul_eq_mul, ← length_map (quota (rawWeight raw) remaining active)]
  refine card_nsmul_le_sum _ _ fun share hshare => ?_
  obtain ⟨i, hi, rfl⟩ := mem_map.mp hshare
  exact of_decide_eq_true (mem_filter.mp hi).2

theorem length_filter_not_capped (residualCap : Nat) (active : List (Fin raw.length))
    (remaining : Nat) :
    (active.filter fun i => i ∉ cappedVenues raw residualCap active remaining).length +
      (cappedVenues raw residualCap active remaining).length = active.length := by
  have hsame : (active.filter fun i => i ∉ cappedVenues raw residualCap active remaining) =
      active.filter fun i => !decide (residualCap < quota (rawWeight raw) remaining active i) := by
    refine filter_congr fun i hi => ?_
    rw [Bool.eq_iff_iff]
    simp [cappedVenues, hi]
  rw [hsame, add_comm, cappedVenues]
  exact length_eq_length_filter_add _ |>.symm

section

variable {s : Allotment raw.length} (h : Serving raw residualCap s)

include h

theorem capState_feasible :
    (capState raw residualCap s).remaining ≤
      (capState raw residualCap s).active.length * residualCap := by
  have hlength := length_filter_not_capped residualCap s.active s.remaining
  have hfeasible := h.feasible
  rw [← hlength, add_mul] at hfeasible
  dsimp only [capState]
  omega

theorem capState_heavier : ∀ i ∉ (capState raw residualCap s).active,
    ∀ j ∈ (capState raw residualCap s).active, rawWeight raw j ≤ rawWeight raw i := by
  intro i hi j hj
  obtain ⟨hj, hnot⟩ := mem_filter.mp hj
  by_cases hactive : i ∈ s.active
  · -- `i` was capped in this round and `j` was not
    by_contra hlt
    have hle : quota (rawWeight raw) s.remaining s.active i ≤
        quota (rawWeight raw) s.remaining s.active j :=
      quota_le s.remaining (le_of_lt (Nat.not_le.mp hlt))
    have hcapped : i ∈ cappedVenues raw residualCap s.active s.remaining := by
      by_contra hin
      exact hi (mem_filter.mpr ⟨hactive, decide_eq_true hin⟩)
    have hmore := of_decide_eq_true (mem_filter.mp hcapped).2
    exact of_decide_eq_true hnot
      (mem_filter.mpr ⟨hj, decide_eq_true (Nat.lt_of_lt_of_le hmore hle)⟩)
  · exact h.heavier i hactive j hj

variable (hpos : 0 ∉ raw)

include hpos

/-- If every venue were capped, they would need more than the caps allow. -/
theorem capState_nonempty : (capState raw residualCap s).active ≠ [] := by
  intro hnil
  have hfeasible := capState_feasible h
  have hneed := capped_length_le hpos h.nonempty residualCap s.remaining
  have hlength := length_filter_not_capped residualCap s.active s.remaining
  have hcount : 0 < s.active.length := length_pos_of_ne_nil h.nonempty
  rw [hnil, length_nil, zero_mul] at hfeasible
  dsimp only [capState] at hnil hfeasible
  rw [hnil, length_nil, zero_add] at hlength
  rw [mul_succ] at hneed
  omega

theorem capState_sum : ∑ i, (capState raw residualCap s).assigned i +
    (capState raw residualCap s).remaining = ppmDenominator - raw.length := by
  have hneed := capped_length_le hpos h.nonempty residualCap s.remaining
  have hnodup : (cappedVenues raw residualCap s.active s.remaining).Nodup :=
    h.nodup.sublist filter_sublist
  have hactive : ∀ i ∈ cappedVenues raw residualCap s.active s.remaining, i ∈ s.active :=
    fun i hi => (mem_filter.mp hi).1
  dsimp only [capState]
  generalize cappedVenues raw residualCap s.active s.remaining = capped at hneed hnodup hactive
  have hsum : ∑ i, (if i ∈ capped then residualCap else s.assigned i) =
      ∑ i, s.assigned i + capped.length * residualCap := by
    rw [show capped.length * residualCap = (capped.map fun _ => residualCap).sum by simp,
      ← sum_ite_mem_list hnodup, ← Finset.sum_add_distrib]
    refine Finset.sum_congr rfl fun i _ => ?_
    split
    · rename_i hmem
      rw [h.idle i (hactive i hmem), zero_add]
    · rfl
  have := h.sum
  rw [mul_succ] at hneed
  omega

theorem capState_serving : Serving raw residualCap (capState raw residualCap s) := by
  refine ⟨h.nodup.filter _, capState_nonempty h hpos, fun i hi => ?_, fun i hi => ?_,
    capState_sum h hpos, capState_feasible h, capState_heavier h⟩
  · obtain ⟨hactive, hnot⟩ := mem_filter.mp hi
    exact (if_neg (of_decide_eq_true hnot)).trans (h.idle i hactive)
  · dsimp only [capState]
    split
    · rfl
    · rename_i hnot
      exact h.full i fun hactive => hi (mem_filter.mpr ⟨hactive, decide_eq_true hnot⟩)

/-- The heavier venues leave with no more than their shares. -/
theorem quota_le_shareUpTo {level : Nat} (hlevel : AtLevel raw residualCap level s)
    {j : Fin raw.length} (hj : rawWeight raw j ≤ level)
    (hmore : residualCap < quota (rawWeight raw) s.remaining s.active j) :
    quota (rawWeight raw) s.remaining s.active j ≤
      shareUpTo raw residualCap (rawWeight raw j) j := by
  let lighter : Fin raw.length → Bool := fun i => decide (rawWeight raw i ≤ rawWeight raw j)
  have hlighter : s.active.filter lighter = venuesUpTo raw (rawWeight raw j) := by
    rw [hlevel.active, venuesUpTo, venuesUpTo, filter_filter]
    refine filter_congr fun i _ => ?_
    rw [← Bool.decide_and, decide_eq_decide]
    exact and_iff_left_of_imp fun hle => hle.trans hj
  have hleft : leftFor raw residualCap (rawWeight raw j) =
      s.remaining - (s.active.filter (!lighter ·)).length * residualCap := by
    have hlength := length_eq_length_filter_add (l := s.active) lighter
    have hactive : s.active.length ≤ raw.length := by
      rw [hlevel.active, venuesUpTo]
      exact (length_filter_le _ _).trans_eq length_finRange
    rw [h.remaining_eq hlevel, leftFor, leftFor, ← hlighter, ← hlevel.active,
      show raw.length - (s.active.filter lighter).length =
        raw.length - s.active.length + (s.active.filter (!lighter ·)).length by omega, add_mul]
    omega
  have hkept : 0 < totalWeight (rawWeight raw) (s.active.filter lighter) := by
    rw [hlighter]
    exact totalWeight_pos hpos (ne_nil_of_mem (mem_venuesUpTo.mpr (le_refl (rawWeight raw j))))
  rw [shareUpTo, hleft, ← hlighter]
  refine quota_le_of_leave s.remaining hkept (fun i _ hheavier => ?_) j
  have hle : rawWeight raw j ≤ rawWeight raw i :=
    (Nat.not_le.mp (of_decide_eq_false hheavier)).le
  exact hmore.le.trans (quota_le s.remaining hle)

/-- The round leaves the venues up to a raw weight. A venue that it caps would exceed the cap as
    well when all heavier venues are at it: they leave with no more than their shares. -/
theorem capState_level {level : Nat} (hlevel : AtLevel raw residualCap level s) :
    ∃ lower, AtLevel raw residualCap lower (capState raw residualCap s) := by
  obtain ⟨top, htop, hmax⟩ := Finset.exists_max_image (capState raw residualCap s).active.toFinset
    (rawWeight raw) ⟨_, mem_toFinset.mpr (head_mem (capState_nonempty h hpos))⟩
  simp only [mem_toFinset] at htop hmax
  obtain ⟨hactive, hnot⟩ := mem_filter.mp htop
  have hlower : rawWeight raw top ≤ level := by rwa [hlevel.active, mem_venuesUpTo] at hactive
  have hunder : quota (rawWeight raw) s.remaining s.active top ≤ residualCap := by
    by_contra hmore
    exact of_decide_eq_true hnot
      (mem_filter.mpr ⟨hactive, decide_eq_true (Nat.not_le.mp hmore)⟩)
  have hstays : ∀ i, rawWeight raw i ≤ rawWeight raw top →
      i ∉ cappedVenues raw residualCap s.active s.remaining := fun i hi hin =>
    absurd ((quota_le s.remaining hi).trans hunder)
      (Nat.not_le.mpr (of_decide_eq_true (mem_filter.mp hin).2))
  refine ⟨rawWeight raw top, ?_, ⟨top, rfl⟩, fun j hj => ?_⟩
  · dsimp only [capState] at hmax ⊢
    generalize cappedVenues raw residualCap s.active s.remaining = capped at hmax hstays ⊢
    rw [hlevel.active, venuesUpTo, venuesUpTo, filter_filter]
    refine filter_congr fun i _ => ?_
    rw [Bool.eq_iff_iff, Bool.and_eq_true, decide_eq_true_eq, decide_eq_true_eq, decide_eq_true_eq]
    constructor
    · rintro ⟨hin, hle⟩
      refine hmax i (mem_filter.mpr ⟨?_, decide_eq_true hin⟩)
      rw [hlevel.active, mem_venuesUpTo]
      exact hle
    · exact fun hle => ⟨hstays i hle, hle.trans hlower⟩
  · by_cases hearlier : level < rawWeight raw j
    · exact hlevel.greatest j hearlier
    · have hjactive : j ∈ s.active := by
        rw [hlevel.active, mem_venuesUpTo]
        exact Nat.not_lt.mp hearlier
      have hjcapped : j ∈ cappedVenues raw residualCap s.active s.remaining := by
        by_contra hin
        exact absurd (hmax j (mem_filter.mpr ⟨hjactive, decide_eq_true hin⟩)) (Nat.not_le.mpr hj)
      have hjmore := of_decide_eq_true (mem_filter.mp hjcapped).2
      exact ⟨j, mem_venuesUpTo.mpr le_rfl,
        hjmore.trans_le (quota_le_shareUpTo h hpos hlevel (Nat.not_lt.mp hearlier) hjmore)⟩

/-- A round that caps venues goes on with fewer of them. -/
theorem allotRound_next (hcapped : cappedVenues raw residualCap s.active s.remaining ≠ []) :
    allotRound raw residualCap s = .ok (.inl (capState raw residualCap s)) ∧
      (capState raw residualCap s).active.length < s.active.length := by
  have hneed := capped_length_le hpos h.nonempty residualCap s.remaining
  have hlength := length_filter_not_capped residualCap s.active s.remaining
  have hcount := length_pos_of_ne_nil hcapped
  have hleft := capState_nonempty h hpos
  rw [mul_succ] at hneed
  refine ⟨?_, by dsimp only [capState]; omega⟩
  unfold allotRound
  dsimp only [capState] at hleft ⊢
  rw [reject_neg (totalWeight_pos hpos h.nonempty).ne', ok_bind, if_neg hcapped,
    foldlM_capVenue _ s.assigned s.remaining (by omega), ok_bind]
  dsimp only
  rw [if_neg hleft]
  rfl

end

/-! ## The last round -/

/-- The missing units are at most as many as the venues below the cap. -/
def UnitsFit (raw : List UInt64) (residualCap : Nat) (s : Allotment raw.length) : Prop :=
  missingUnits raw s ≤
    (s.active.filter fun i => quota (rawWeight raw) s.remaining s.active i < residualCap).length

instance (s : Allotment raw.length) : Decidable (UnitsFit raw residualCap s) :=
  inferInstanceAs (Decidable (_ ≤ _))

/-- Shares before the floor is added back: none exceeds what the cap leaves, together they are all
    units, and a heavier venue has no smaller one. -/
structure Shared (raw : List UInt64) (residualCap : Nat) (shares : Fin raw.length → Nat) :
    Prop where
  le : ∀ i, shares i ≤ residualCap
  sum : ∑ i, shares i = ppmDenominator - raw.length
  follows : ∀ i j, rawWeight raw j < rawWeight raw i → shares j ≤ shares i

theorem remainderBefore_trans : IsTrans _ (remainderBefore raw) := by
  refine ⟨fun a b c hab hbc => ?_⟩
  unfold remainderBefore at *
  rcases hab with hab | ⟨hab, hab'⟩ <;> rcases hbc with hbc | ⟨hbc, hbc'⟩
  · exact .inl (by omega)
  · exact .inl (by omega)
  · exact .inl (by omega)
  · exact .inr ⟨hab.trans hbc, le_trans hab' hbc'⟩

theorem remainderBefore_total : Std.Total (remainderBefore raw) := by
  refine ⟨fun a b => ?_⟩
  unfold remainderBefore
  rcases lt_trichotomy a.2 b.2 with h | h | h
  · exact .inr (.inl h)
  · rcases le_total a.1 b.1 with h' | h'
    · exact .inl (.inr ⟨h, h'⟩)
    · exact .inr (.inr ⟨h.symm, h'⟩)
  · exact .inl (.inl h)

theorem offerOrder_perm (s : Allotment raw.length) : (offerOrder raw s).Perm s.active := by
  have h := (perm_insertionSort (remainderBefore raw)
    (s.active.map fun i => (i, leftover (rawWeight raw) s.remaining s.active i))).map Prod.fst
  rw [map_map] at h
  exact h.trans (by rw [show (Prod.fst ∘ fun i => (i, leftover (rawWeight raw) s.remaining
    s.active i)) = id from rfl, map_id])

theorem offerOrder_sorted (s : Allotment raw.length) : (offerOrder raw s).Pairwise fun i j =>
    leftover (rawWeight raw) s.remaining s.active j ≤
      leftover (rawWeight raw) s.remaining s.active i := by
  have := @remainderBefore_trans raw
  have := @remainderBefore_total raw
  rw [offerOrder, pairwise_map]
  refine List.Pairwise.imp_of_mem (fun {a b} ha hb hab => ?_)
    (pairwise_insertionSort (remainderBefore raw) _)
  have hsnd : ∀ p ∈ ((s.active.map fun i =>
      (i, leftover (rawWeight raw) s.remaining s.active i)).insertionSort (remainderBefore raw)),
      p.2 = leftover (rawWeight raw) s.remaining s.active p.1 := by
    intro p hp
    obtain ⟨i, -, rfl⟩ := mem_map.mp ((perm_insertionSort _ _).mem_iff.mp hp)
    rfl
  rw [← hsnd a ha, ← hsnd b hb]
  rcases hab with hlt | ⟨heq, -⟩
  · exact le_of_lt hlt
  · exact le_of_eq heq.symm

section

variable {s : Allotment raw.length} (h : Serving raw residualCap s)
  (hcapped : cappedVenues raw residualCap s.active s.remaining = [])

include h in
theorem floors_sum : ∑ i, floors raw s i =
    ∑ i, s.assigned i + (s.active.map (quota (rawWeight raw) s.remaining s.active)).sum := by
  rw [← sum_ite_mem_list h.nodup, ← Finset.sum_add_distrib]
  refine Finset.sum_congr rfl fun i _ => ?_
  unfold floors
  split
  · rename_i hmem
    rw [h.idle i hmem, zero_add]
  · rfl

include hcapped in
theorem quota_le_cap {i : Fin raw.length} (hi : i ∈ s.active) :
    quota (rawWeight raw) s.remaining s.active i ≤ residualCap := by
  by_contra hlt
  exact filter_eq_nil_iff.mp hcapped i hi (decide_eq_true (Nat.not_le.mp hlt))

include h hcapped in
theorem floors_le (i : Fin raw.length) : floors raw s i ≤ residualCap := by
  unfold floors
  split
  · rename_i hi
    exact quota_le_cap hcapped hi
  · rename_i hi
    exact le_of_eq (h.full i hi)

/-- The venues the missing units can go to. -/
theorem length_offers : ((offerOrder raw s).filter fun i => floors raw s i < residualCap).length =
    (s.active.filter fun i =>
      quota (rawWeight raw) s.remaining s.active i < residualCap).length := by
  rw [((offerOrder_perm s).filter _).length_eq]
  refine congrArg List.length (filter_congr fun i hi => ?_)
  rw [floors, if_pos hi]

include h hcapped in
theorem topUp_le (i : Fin raw.length) : topUp raw residualCap s i ≤ residualCap := by
  unfold topUp
  split
  · rename_i hgranted
    exact of_decide_eq_true (mem_filter.mp (mem_of_mem_take hgranted)).2
  · exact floors_le h hcapped i

include h in
theorem topUp_sum (hpos : 0 ∉ raw) (hfits : UnitsFit raw residualCap s) :
    ∑ i, topUp raw residualCap s i = ppmDenominator - raw.length := by
  have hused : (s.active.map (quota (rawWeight raw) s.remaining s.active)).sum ≤ s.remaining :=
    sum_quota_le s.remaining (totalWeight_pos hpos h.nonempty) (List.Sublist.refl _)
  have hnodup : (winners raw residualCap s).Nodup :=
    (((offerOrder_perm s).nodup_iff.mpr h.nodup).filter _).sublist (take_sublist _ _)
  have hgiven : (winners raw residualCap s).length = missingUnits raw s := by
    rw [winners, granted, length_take, length_offers]
    exact min_eq_left hfits
  have hsum := h.sum
  unfold topUp
  rw [Finset.sum_add_distrib, floors_sum h, sum_ite_mem_list hnodup, map_const',
    sum_replicate, smul_eq_mul, Nat.mul_one, hgiven, missingUnits]
  omega

include h hcapped in
/-- A heavier venue has a larger share rounded down, or comes first in the pass. -/
theorem topUp_follows {i j : Fin raw.length} (hij : rawWeight raw j < rawWeight raw i) :
    topUp raw residualCap s j ≤ topUp raw residualCap s i := by
  have hfloor : floors raw s i ≤ topUp raw residualCap s i := le_add_right _ _
  by_cases hi : i ∈ s.active
  swap
  · -- `i` was capped in an earlier round
    refine Nat.le_trans (topUp_le h hcapped j) (Nat.le_trans ?_ hfloor)
    rw [floors, if_neg hi]
    exact le_of_eq (h.full i hi).symm
  by_cases hj : j ∈ s.active
  swap
  · exact absurd (h.heavier j hj i hi) (Nat.not_le.mpr hij)
  have hqi : floors raw s i = quota (rawWeight raw) s.remaining s.active i := if_pos hi
  have hqj : floors raw s j = quota (rawWeight raw) s.remaining s.active j := if_pos hj
  have hle : quota (rawWeight raw) s.remaining s.active j ≤
      quota (rawWeight raw) s.remaining s.active i := quota_le s.remaining (le_of_lt hij)
  unfold topUp
  by_cases hgranted : j ∈ winners raw residualCap s
  swap
  · rw [if_neg hgranted, hqi, hqj]
    omega
  rcases lt_or_eq_of_le hle with hlt | heq
  · rw [if_pos hgranted, hqi, hqj]
    omega
  · -- the quotas are equal, so `i` has the larger remainder and got its unit before `j`
    have hremaining : 0 < s.remaining := by
      by_contra hzero
      have hnone : missingUnits raw s = 0 := by
        rw [missingUnits]
        omega
      rw [winners, granted, hnone, take_zero] at hgranted
      cases hgranted
    have hroom := of_decide_eq_true (mem_filter.mp (mem_of_mem_take hgranted)).2
    have hlarger := leftover_lt hremaining hij heq
    have hoffered : i ∈ (offerOrder raw s).filter fun i => floors raw s i < residualCap := by
      refine mem_filter.mpr ⟨(offerOrder_perm s).mem_iff.mpr hi, decide_eq_true ?_⟩
      rw [hqi, ← heq, ← hqj]
      exact hroom
    have hfirst : i ∈ winners raw residualCap s :=
      mem_take_of_pairwise ((offerOrder_sorted s).filter _) hgranted hoffered
        (Nat.not_le.mpr hlarger)
    rw [if_pos hgranted, if_pos hfirst, hqi, hqj]
    omega

include h in
theorem distribute_eq (hpos : 0 ∉ raw) : distribute raw residualCap s =
    if UnitsFit raw residualCap s then .ok (topUp raw residualCap s)
      else .error .invalidConfig := by
  have hused : (s.active.map (quota (rawWeight raw) s.remaining s.active)).sum ≤ s.remaining :=
    sum_quota_le s.remaining (totalWeight_pos hpos h.nonempty) (List.Sublist.refl _)
  have hsmall : s.remaining ≤ 1000000 := by
    have := h.sum
    unfold ppmDenominator at this
    omega
  have hnodup := (offerOrder_perm s).nodup_iff.mpr h.nodup
  unfold distribute
  rw [foldlM_allotVenue s.active s.active s.remaining s.assigned 0 [] (by omega), ok_bind]
  dsimp only
  rw [zero_add, nil_append, checkedSub_ok hused, ok_bind]
  rw [show List.map Prod.fst (List.insertionSort (remainderBefore raw) (s.active.map fun i =>
    (i, leftover (rawWeight raw) s.remaining s.active i))) = offerOrder raw s from rfl,
    foldl_grantStep residualCap hnodup]
  dsimp only
  rw [show ((offerOrder raw s).filter fun i => (if i ∈ s.active then
    quota (rawWeight raw) s.remaining s.active i else s.assigned i) < residualCap) =
      (offerOrder raw s).filter fun i => floors raw s i < residualCap from rfl, length_offers,
    ← missingUnits]
  by_cases hfits : UnitsFit raw residualCap s
  · rw [if_pos hfits, reject_neg (not_not.mpr (Nat.sub_eq_zero_of_le hfits)), ok_bind]
    rfl
  · rw [if_neg hfits, reject_pos (Nat.sub_ne_zero_of_lt (Nat.not_le.mp hfits))]
    rfl

end

/-! ## The loop -/

/-- The rounds end with a state that caps no venue, and the loop with its last round. -/
theorem loop_last (hpos : 0 ∉ raw) {fuel level : Nat} {s : Allotment raw.length}
    (h : Serving raw residualCap s) (hlevel : AtLevel raw residualCap level s)
    (hfuel : s.active.length < fuel) :
    ∃ last lower, Serving raw residualCap last ∧ AtLevel raw residualCap lower last ∧
      cappedVenues raw residualCap last.active last.remaining = [] ∧
      loop (roundStep raw residualCap) fuel s = some (distribute raw residualCap last) := by
  induction fuel generalizing s level with
  | zero => exact absurd hfuel (not_lt_zero _)
  | succ fuel ih =>
    by_cases hcapped : cappedVenues raw residualCap s.active s.remaining = []
    · refine ⟨s, level, h, hlevel, hcapped, loop_of_done ?_ fuel⟩
      unfold roundStep allotRound
      dsimp only
      rw [reject_neg (totalWeight_pos hpos h.nonempty).ne', ok_bind, if_pos hcapped]
      cases distribute raw residualCap s <;> rfl
    · obtain ⟨hround, hfewer⟩ := allotRound_next h hpos hcapped
      obtain ⟨next, hnext⟩ := capState_level h hpos hlevel
      obtain ⟨last, lower, hlast, hlower, hnone, hloop⟩ := ih (capState_serving h hpos) hnext
        (Nat.lt_of_lt_of_le hfewer (Nat.lt_succ_iff.mp hfuel))
      refine ⟨last, lower, hlast, hlower, hnone, (loop_of_next ?_ fuel).trans hloop⟩
      rw [roundStep, hround]

/-- In the last round the weight reached is that of the cap, and the units fit if they do there. -/
theorem AtLevel.capLevel {level : Nat} {s : Allotment raw.length}
    (hlevel : AtLevel raw residualCap level s) (h : Serving raw residualCap s)
    (hcapped : cappedVenues raw residualCap s.active s.remaining = []) :
    CapLevel raw residualCap level ∧
      (UnitsFit raw residualCap s ↔ LeftoverFits raw residualCap level) := by
  have hremaining := h.remaining_eq hlevel
  refine ⟨⟨hlevel.observed, fun i hi => ?_, hlevel.greatest⟩, ?_⟩
  · rw [← hlevel.active] at hi
    rw [shareUpTo, ← hremaining, ← hlevel.active]
    exact quota_le_cap hcapped hi
  · rw [UnitsFit, missingUnits, hremaining, hlevel.active]
    rfl

/-! ## The weights -/

/-- The state before the first round. -/
def firstRound (raw : List UInt64) : Allotment raw.length :=
  ⟨fun _ => 0, List.finRange raw.length, ppmDenominator - raw.length⟩

/-- Every weight is between the floor and the cap, the weights sum to a million, and a heavier venue
    has no smaller weight. -/
structure Fair (raw : List UInt64) (cap : UInt32) (weight : Fin raw.length → Nat) : Prop where
  floor : ∀ i, 1 ≤ weight i
  cap : ∀ i, weight i ≤ cap.toNat
  sum : ∑ i, weight i = ppmDenominator
  follows : ∀ i j : Fin raw.length, raw[j] < raw[i] → weight j ≤ weight i

variable {cap : UInt32}

theorem one_le_cap (hfeasible : ppmDenominator ≤ raw.length * cap.toNat) :
    1 ≤ cap.toNat := by
  by_contra hzero
  rw [lt_one_iff.mp (Nat.not_le.mp hzero), mul_zero] at hfeasible
  exact absurd hfeasible (by decide)

theorem firstRound_serving (hne : raw ≠ []) (hcount : raw.length ≤ ppmDenominator)
    (hfeasible : ppmDenominator ≤ raw.length * cap.toNat) :
    Serving raw (cap.toNat - positiveFloor) (firstRound raw) where
  nodup := nodup_finRange _
  nonempty := by
    rw [firstRound, ne_eq, finRange_eq_nil_iff]
    exact mt length_eq_zero_iff.mp hne
  idle := fun _ _ => rfl
  full := fun i hi => absurd (mem_finRange i) hi
  sum := by simp [firstRound]
  feasible := by
    dsimp only [firstRound]
    rw [length_finRange, Nat.mul_sub, positiveFloor, Nat.mul_one]
    omega
  heavier := fun i hi => absurd (mem_finRange i) hi

theorem finishWeights_ok (hcap : 1 ≤ cap.toNat) (hcount : raw.length ≤ ppmDenominator)
    {shares : Fin raw.length → Nat} (hle : ∀ i, shares i ≤ cap.toNat - positiveFloor)
    (hsum : ∑ i, shares i = ppmDenominator - raw.length) :
    finishWeights raw cap shares = .ok (List.ofFn fun i => shares i + positiveFloor) := by
  have hbound : ∀ i, shares i + positiveFloor ≤ cap.toNat := fun i => by
    have := hle i
    unfold positiveFloor at *
    omega
  have hmap : (List.ofFn shares).mapM (fun weight => checkedU32 (weight + positiveFloor)) =
      .ok (List.ofFn fun i => shares i + positiveFloor) := by
    rw [mapM_eq_ok (g := (· + positiveFloor)), map_ofFn]
    · rfl
    · intro weight hmem
      obtain ⟨i, rfl⟩ := mem_ofFn.mp hmem
      exact checkedU32_ok (lt_of_le_of_lt (hbound i) cap.toNat_lt)
  have htotal : (List.ofFn fun i => shares i + positiveFloor).sum = ppmDenominator := by
    rw [sum_ofFn, Finset.sum_add_distrib, hsum, Finset.sum_const, Finset.card_univ,
      Fintype.card_fin, smul_eq_mul, positiveFloor, Nat.mul_one]
    omega
  unfold finishWeights
  rw [hmap, ok_bind, reject_neg]
  · rfl
  · rintro (hne | ⟨weight, hmem, hlt⟩)
    · exact hne htotal
    · obtain ⟨i, rfl⟩ := mem_ofFn.mp hmem
      exact absurd (hbound i) (Nat.not_le.mpr hlt)

theorem firstRound_level (hne : raw ≠ []) :
    ∃ level, AtLevel raw residualCap level (firstRound raw) := by
  have hfirst : (0 : Nat) < raw.length := length_pos_iff.mpr hne
  obtain ⟨top, -, hmax⟩ := Finset.exists_max_image Finset.univ (rawWeight raw)
    ⟨⟨0, hfirst⟩, Finset.mem_univ _⟩
  refine ⟨rawWeight raw top, ?_, ⟨top, rfl⟩, fun j hj => ?_⟩
  · exact (filter_eq_self.mpr fun i _ => decide_eq_true (hmax i (Finset.mem_univ i))).symm
  · exact absurd (hmax j (Finset.mem_univ j)) (Nat.not_le.mpr hj)

/-- The computation in closed form, at the raw weight of the cap. -/
theorem cappedNormalizedWeights_eq (hne : raw ≠ []) (hpos : 0 ∉ raw)
    (hcount : raw.length ≤ ppmDenominator)
    (hfeasible : ppmDenominator ≤ raw.length * cap.toNat) :
    ∃ level shares, CapLevel raw (cap.toNat - positiveFloor) level ∧
      (LeftoverFits raw (cap.toNat - positiveFloor) level →
        Shared raw (cap.toNat - positiveFloor) shares) ∧
      cappedNormalizedWeights raw cap =
        some (if LeftoverFits raw (cap.toNat - positiveFloor) level then
          .ok (List.ofFn fun i => shares i + positiveFloor) else .error .invalidConfig) := by
  have hcap := one_le_cap hfeasible
  have hstart := firstRound_serving hne hcount hfeasible
  obtain ⟨first, hfirst⟩ := @firstRound_level raw (cap.toNat - positiveFloor) hne
  have hfuel : (firstRound raw).active.length < raw.length + 1 := by
    rw [show (firstRound raw).active.length = raw.length from length_finRange]
    exact lt_succ_self _
  obtain ⟨last, level, hlast, hlevel, hnone, hloop⟩ := loop_last hpos hstart hfirst hfuel
  obtain ⟨hcapLevel, hunits⟩ := hlevel.capLevel hlast hnone
  have hshared : LeftoverFits raw (cap.toNat - positiveFloor) level →
      Shared raw (cap.toNat - positiveFloor) (topUp raw (cap.toNat - positiveFloor) last) :=
    fun hfits => ⟨topUp_le hlast hnone, topUp_sum hlast hpos (hunits.mpr hfits),
      fun _ _ => topUp_follows hlast hnone⟩
  refine ⟨level, topUp raw (cap.toNat - positiveFloor) last, hcapLevel, hshared, ?_⟩
  unfold cappedNormalizedWeights
  rw [if_neg (by unfold positiveFloor; simp only [not_or]; exact
    ⟨hne, hpos, not_lt.mpr hcount, not_lt.mpr hfeasible, not_lt.mpr hcap⟩)]
  dsimp only
  rw [show (⟨fun _ => 0, List.finRange raw.length, ppmDenominator - raw.length⟩ :
    Allotment raw.length) = firstRound raw from rfl, hloop, distribute_eq hlast hpos]
  by_cases hfits : LeftoverFits raw (cap.toNat - positiveFloor) level
  · rw [if_pos hfits, if_pos (hunits.mpr hfits), Option.map_some, ok_bind,
      finishWeights_ok hcap hcount (hshared hfits).le (hshared hfits).sum]
  · rw [if_neg hfits, if_neg (mt hunits.mp hfits)]
    rfl

/-- For feasible input there is a raw weight of the cap, and the computation ends. It returns
    weights within the bounds, summing to a million and following the raw weights, if and only if at
    that weight the units left by rounding down fit below the cap, and is `InvalidConfig`
    otherwise. -/
theorem weights_found_iff (raw : List UInt64) (cap : UInt32) (hne : raw ≠ []) (hpos : 0 ∉ raw)
    (hcount : raw.length ≤ 1000000) (hfeasible : 1000000 ≤ raw.length * cap.toNat) :
    (∃ level, CapLevel raw (cap.toNat - positiveFloor) level) ∧
    ∀ level, CapLevel raw (cap.toNat - positiveFloor) level →
      ((∃ weight, cappedNormalizedWeights raw cap = some (.ok (List.ofFn weight)) ∧
        Fair raw cap weight) ↔ LeftoverFits raw (cap.toNat - positiveFloor) level) ∧
      (¬ LeftoverFits raw (cap.toNat - positiveFloor) level →
        cappedNormalizedWeights raw cap = some (.error .invalidConfig)) := by
  obtain ⟨level, shares, hlevel, hshared, heq⟩ :=
    cappedNormalizedWeights_eq hne hpos hcount hfeasible
  refine ⟨⟨level, hlevel⟩, fun other hother => ?_⟩
  obtain rfl := hlevel.unique hother
  have hcap := one_le_cap hfeasible
  constructor
  · constructor
    · rintro ⟨weight, hok, -⟩
      by_contra hfits
      rw [heq, if_neg hfits] at hok
      cases hok
    · intro hfits
      obtain ⟨hle, hsum, hfollows⟩ := hshared hfits
      rw [if_pos hfits] at heq
      refine ⟨_, heq, fun i => le_add_left _ _, fun i => ?_, ?_, fun i j hij => ?_⟩
      · have := hle i
        unfold positiveFloor at *
        omega
      · rw [Finset.sum_add_distrib, hsum, Finset.sum_const, Finset.card_univ, Fintype.card_fin,
          smul_eq_mul, positiveFloor, Nat.mul_one]
        unfold ppmDenominator
        omega
      · exact Nat.add_le_add_right (hfollows i j (UInt64.lt_iff_toNat_lt.mp hij)) _
  · intro hfits
    rw [heq, if_neg hfits]

/-- Three venues of which the first is capped. -/
theorem weights_found_iff_sample : ∃ weight, cappedNormalizedWeights [5, 3, 2] 400000 =
    some (.ok (List.ofFn weight)) ∧ Fair [5, 3, 2] 400000 weight :=
  ((weights_found_iff [5, 3, 2] 400000 (by decide) (by decide) (by decide) (by decide)).2 3
    ⟨by decide, by decide +kernel, by decide +kernel⟩).1.mpr (by decide +kernel)

/-- Two venues at the cap leave fractions that add up to a unit, and only one venue is below the
    cap. The weights 499998, 499998 and 4 would do, but the computation refuses. -/
theorem weights_refused :
    1000000 ≤ ([4999979, 4999979, 12] : List UInt64).length * (499998 : UInt32).toNat ∧
      cappedNormalizedWeights [4999979, 4999979, 12] 499998 = some (.error .invalidConfig) ∧
      Fair [4999979, 4999979, 12] 499998 ![499998, 499998, 4] := by
  refine ⟨by decide, by decide +kernel, by decide, by decide, by decide, by decide⟩

end CryptoIntelligence.Consolidated
