/-
  The hourly counters of the quality accounting (`orderbook/src/state.rs`) are exact: for recorded
  times that do not decrease, the count at every later time is the number of events of the last 3600
  whole seconds. Pruning a deque in order is a filter, so what a call records is seen from every
  later time at once (`count_record`), and the run follows from the single call.
-/
import CryptoIntelligence.OrderBook.State

namespace CryptoIntelligence.OrderBook.HourlyCounter

open List

/-- The whole second of a time. -/
def second (ns : UInt64) : UInt64 := ns / 1000000000

/-- The second is one of the 3600 that end with the current one. -/
def inside (current epochSecond : UInt64) : Bool :=
  decide (epochSecond ≤ current ∧ current.toNat < epochSecond.toNat + 3600)

/-- The buckets of the window. -/
def recent (c : HourlyCounter) (current : UInt64) : List CountBucket :=
  c.buckets.filter fun b => inside current b.epochSecond

variable {c : HourlyCounter} {current t now : UInt64}

theorem second_mono (h : t ≤ now) : second t ≤ second now := by
  rw [UInt64.le_iff_toNat_le] at h ⊢
  simp only [second, UInt64.toNat_div]
  exact Nat.div_le_div_right h

theorem sub_lt_iff {current epochSecond : UInt64} (h : epochSecond ≤ current) :
    current - epochSecond < 3600 ↔ current.toNat < epochSecond.toNat + 3600 := by
  have hle := UInt64.le_iff_toNat_le.mp h
  rw [UInt64.lt_iff_toNat_lt, UInt64.toNat_sub_of_le _ _ h]
  exact Nat.sub_lt_iff_lt_add' hle

theorem inside_eq (current epochSecond : UInt64) :
    (decide (current ≥ epochSecond) && decide (current - epochSecond < 3600)) =
      inside current epochSecond := by
  rw [Bool.eq_iff_iff, inside, Bool.and_eq_true, decide_eq_true_iff, decide_eq_true_iff,
    decide_eq_true_iff, ge_iff_le]
  exact and_congr_right sub_lt_iff

/-! ## Buckets in order -/

/-- The buckets are in order and none is later than a second. -/
structure Upto (c : HourlyCounter) (last : UInt64) : Prop where
  ordered : c.buckets.Pairwise fun a b => a.epochSecond < b.epochSecond
  bounded : ∀ b ∈ c.buckets, b.epochSecond ≤ last

theorem Upto.mono (h : c.Upto current) {later : UInt64} (hle : current ≤ later) : c.Upto later :=
  ⟨h.ordered, fun b hb => UInt64.le_trans (h.bounded b hb) hle⟩

/-- Pruning keeps exactly the buckets of the window. -/
theorem prune_eq_recent (h : c.Upto current) : (c.prune current).buckets = c.recent current := by
  obtain ⟨hordered, hbounded⟩ := h
  obtain ⟨buckets⟩ := c
  show buckets.dropWhile _ = buckets.filter _
  simp only at hordered hbounded
  induction buckets with
  | nil => rfl
  | cons b buckets ih =>
    obtain ⟨hfirst, hordered⟩ := pairwise_cons.mp hordered
    obtain ⟨hb, hbounded⟩ := forall_mem_cons.mp hbounded
    have hold : (decide (current ≥ b.epochSecond) && decide (current - b.epochSecond ≥ 3600)) =
        !inside current b.epochSecond := by
      rw [← inside_eq, decide_eq_true hb, Bool.true_and, Bool.true_and, ← decide_not]
      exact decide_eq_decide.mpr UInt64.not_lt.symm
    rw [dropWhile_cons, hold]
    cases hinside : inside current b.epochSecond with
    | false =>
      rw [filter_cons_of_neg (by rw [hinside]; decide)]
      exact ih hordered hbounded
    | true =>
      -- The first bucket is inside the window, so the later ones are.
      symm
      apply filter_eq_self.mpr
      refine forall_mem_cons.mpr ⟨hinside, fun d hd => ?_⟩
      have hlater := UInt64.lt_iff_toNat_lt.mp (hfirst d hd)
      have hwidth := (of_decide_eq_true hinside).2
      exact decide_eq_true ⟨hbounded d hd, by omega⟩

/-- Strictly increasing seconds of one window are at most 3600. -/
theorem length_recent (h : c.Upto current) : (c.recent current).length ≤ 3600 := by
  have hordered : ((c.recent current).map fun b => b.epochSecond.toNat).Nodup :=
    pairwise_map.mpr ((h.ordered.filter _).imp fun hlt => (UInt64.lt_iff_toNat_lt.mp hlt).ne)
  have hseconds := (hordered.subperm fun n hn => ?_ :
    Subperm _ (range' (current.toNat - 3599) 3600)).length_le
  · rwa [length_map, length_range'] at hseconds
  · obtain ⟨b, hb, rfl⟩ := mem_map.mp hn
    obtain ⟨hle, hwidth⟩ := of_decide_eq_true (mem_filter.mp hb).2
    have hle := UInt64.le_iff_toNat_le.mp hle
    rw [mem_range'_1]
    omega

/-! ## One call -/

/-- The buckets of the window stay, and the event is counted in the one of its second. -/
theorem record_buckets (h : c.Upto (second t)) :
    ∃ earlier same, c.recent (second t) = earlier ++ same ∧
      (∀ b ∈ earlier, b.epochSecond < second t) ∧ (∀ b ∈ same, b.epochSecond = second t) ∧
      (c.record t).buckets =
        earlier ++ [⟨second t, saturate ((same.map CountBucket.count).sum + 1)⟩] := by
  have hlength := length_recent h
  have hkept : (c.recent (second t)).Pairwise _ := h.ordered.filter _
  have hbounded : ∀ b ∈ c.recent (second t),
      b.epochSecond ≤ second t := fun b hb => h.bounded b (mem_filter.mp hb).1
  rw [record, ← second, prune_eq_recent h]
  generalize c.recent (second t) = kept at *
  rcases eq_nil_or_concat kept with rfl | ⟨earlier, last, rfl⟩
  · exact ⟨[], [], rfl, by simp, by simp, rfl⟩
  · rw [concat_eq_append] at *
    have hearlier : ∀ b ∈ earlier, b.epochSecond < last.epochSecond := fun b hb =>
      (pairwise_append.mp hkept).2.2 b hb last (mem_singleton_self last)
    have hlast := hbounded last (mem_concat_self)
    simp only [getLast?_concat, dropLast_concat]
    split_ifs with hsame hfull
    · refine ⟨earlier, [last], rfl, fun b hb => hsame ▸ hearlier b hb, ?_, by simp [hsame]⟩
      exact forall_mem_singleton.mpr hsame
    · rw [hfull] at hlength
      exact absurd hlength (by decide)
    · refine ⟨earlier ++ [last], [], (append_nil _).symm, ?_, by simp, rfl⟩
      have hlt := UInt64.lt_of_le_of_ne hlast hsame
      exact forall_mem_append.mpr
        ⟨fun b hb => UInt64.lt_trans (hearlier b hb) hlt, forall_mem_singleton.mpr hlt⟩

theorem Upto.record (h : c.Upto (second t)) : (c.record t).Upto (second t) := by
  obtain ⟨earlier, same, hkept, hearlier, -, hrecord⟩ := record_buckets h
  have hordered : (c.recent (second t)).Pairwise _ := h.ordered.filter _
  rw [hkept, pairwise_append] at hordered
  refine ⟨?_, ?_⟩
  · rw [hrecord, pairwise_append]
    exact ⟨hordered.1, pairwise_singleton _ _,
      fun b hb _ hlast => mem_singleton.mp hlast ▸ hearlier b hb⟩
  · rw [hrecord]
    exact forall_mem_append.mpr
      ⟨fun b hb => UInt64.le_of_lt (hearlier b hb), forall_mem_singleton.mpr (UInt64.le_refl _)⟩

theorem foldl_saturate (buckets : List CountBucket) (total : Nat) :
    buckets.foldl (fun total b => saturate (total + b.count)) (saturate total) =
      saturate (total + (buckets.map CountBucket.count).sum) := by
  induction buckets generalizing total with
  | nil => rfl
  | cons b buckets ih =>
    have hadd : saturate (saturate total + b.count) = saturate (total + b.count) := by
      simp only [saturate]
      omega
    rw [foldl_cons, hadd, ih, map_cons, sum_cons, Nat.add_assoc]

theorem count_eq (c : HourlyCounter) (now : UInt64) :
    c.count now = saturate ((c.recent (second now)).map CountBucket.count).sum := by
  have h := foldl_saturate (c.recent (second now)) 0
  rw [Nat.zero_add] at h
  rw [count, ← second, ← h]
  simp only [inside_eq]
  rfl

/-- A recorded event counts one at every later time whose window has its second, and nothing
    else changes at such a time. -/
theorem count_record (h : c.Upto (second t)) (hle : t ≤ now) :
    (c.record t).count now =
      saturate (c.count now + if inside (second now) (second t) then 1 else 0) := by
  obtain ⟨earlier, same, hkept, -, hsame, hrecord⟩ := record_buckets h
  -- A bucket in the window of the later time is in the window of the call.
  have hnarrow : c.recent (second now) =
      (earlier ++ same).filter fun b => inside (second now) b.epochSecond := by
    rw [← hkept, recent, recent, filter_filter]
    refine filter_congr fun b hb => ?_
    rw [Bool.eq_iff_iff, Bool.and_eq_true]
    refine ⟨fun hnow => ⟨hnow, decide_eq_true ⟨h.bounded b hb, ?_⟩⟩, And.left⟩
    have hlater := UInt64.le_iff_toNat_le.mp (second_mono hle)
    have hwidth := (of_decide_eq_true hnow).2
    omega
  rw [count_eq, count_eq, hnarrow, recent, hrecord, filter_append, filter_append]
  cases hinside : inside (second now) (second t) with
  | true =>
    have hall : same.filter (fun b => inside (second now) b.epochSecond) = same :=
      filter_eq_self.mpr fun b hb => by rw [hsame b hb, hinside]
    simp only [hall, filter_cons, hinside, if_true, filter_nil, map_append,
      sum_append, map_cons, map_nil, sum_singleton, saturate]
    omega
  | false =>
    have hnone : same.filter (fun b => inside (second now) b.epochSecond) = [] :=
      filter_eq_nil_iff.mpr fun b hb => by rw [hsame b hb, hinside]; decide
    simp only [hnone, filter_cons, hinside, Bool.false_eq_true, if_false, filter_nil,
      append_nil, saturate]
    omega

/-! ## Runs -/

theorem run_upto (times : List UInt64) (last : UInt64) (hlast : ∀ t ∈ times, t ≤ last)
    (hordered : times.Pairwise (· ≤ ·)) : (times.foldl record empty).Upto (second last) := by
  induction times using List.reverseRecOn generalizing last with
  | nil => exact ⟨Pairwise.nil, by simp [empty]⟩
  | append_singleton times t ih =>
    obtain ⟨hordered, -, hle⟩ := pairwise_append.mp hordered
    rw [foldl_concat]
    refine (ih t (fun s hs => hle s hs t (mem_singleton_self t)) hordered).record.mono ?_
    exact second_mono (hlast t mem_concat_self)

theorem run_count (times : List UInt64) (now : UInt64) (hnow : ∀ t ∈ times, t ≤ now)
    (hordered : times.Pairwise (· ≤ ·)) :
    (times.foldl record empty).count now =
      saturate (times.countP fun t => inside (second now) (second t)) := by
  induction times using List.reverseRecOn with
  | nil => rfl
  | append_singleton times t ih =>
    obtain ⟨hordered, -, hle⟩ := pairwise_append.mp hordered
    have hupto := run_upto times t (fun s hs => hle s hs t (mem_singleton_self t)) hordered
    rw [foldl_concat, count_record hupto (hnow t mem_concat_self),
      ih (fun s hs => hnow s (mem_append_left _ hs)) hordered, countP_append,
      countP_singleton]
    simp only [saturate]
    omega

/-- For times that do not decrease and every time not earlier than the last of them: the count is
    the number of recorded events of the 3600 seconds that end with the current one, saturated; the
    buckets are strictly increasing; and a further record finds the deque below its capacity, so
    that no second of the window loses its bucket. -/
theorem hourly_count_exact (times : List UInt64) (now : UInt64)
    (hordered : (times ++ [now]).Pairwise (· ≤ ·)) :
    (times.foldl record empty).count now = min (2 ^ 64 - 1) (times.countP fun t =>
        decide ((second t).toNat ≤ (second now).toNat ∧
          (second now).toNat < (second t).toNat + 3600)) ∧
      ((times.foldl record empty).buckets.Pairwise fun a b => a.epochSecond < b.epochSecond) ∧
      ((times.foldl record empty).prune (second now)).buckets.length < qualityBuckets ∧
      ∀ b ∈ (times.foldl record empty).buckets, (second now).toNat < b.epochSecond.toNat + 3600 →
        b.epochSecond ∈ ((times.foldl record empty).record now).buckets.map
          CountBucket.epochSecond := by
  obtain ⟨htimes, -, hle⟩ := pairwise_append.mp hordered
  have hnow : ∀ t ∈ times, t ≤ now := fun t ht => hle t ht now (mem_singleton_self now)
  have hupto := run_upto times now hnow htimes
  refine ⟨?_, hupto.ordered, ?_, fun b hb hwidth => ?_⟩
  · rw [run_count times now hnow htimes, saturate, Nat.min_comm]
    rfl
  · rw [prune_eq_recent hupto]
    exact Nat.lt_succ_of_le (length_recent hupto)
  · obtain ⟨earlier, same, hkept, -, hsame, hrecord⟩ := record_buckets hupto
    have hmem : b ∈ earlier ++ same := by
      rw [← hkept]
      exact mem_filter.mpr ⟨hb, decide_eq_true ⟨hupto.bounded b hb, hwidth⟩⟩
    rw [hrecord, map_append]
    rcases mem_append.mp hmem with hearlier | hsecond
    · exact mem_append_left _ (mem_map_of_mem hearlier)
    · exact mem_append_right _ (mem_singleton.mpr (hsame b hsecond))

/-- An hour after the first of three events, two are counted. -/
theorem hour_boundary :
    ([0, 1000000000, 1000000001].foldl record empty).count 3600000000000 = 2 :=
  (hourly_count_exact [0, 1000000000, 1000000001] 3600000000000 (by decide)).1

end CryptoIntelligence.OrderBook.HourlyCounter
