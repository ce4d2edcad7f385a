/-
  Monotone regression of weighted outcomes on an ordered key.

  The fit gives each observed key the maximum over lower observed keys of the minimum over upper
  observed keys of the weighted mean between them (`IsMaxMin`); it has the least weighted squared
  error of all functions that do not decrease (`IsLeastSquares`). A candidate made of blocks, whose
  rates are the means of the blocks and do not decrease (`Blocky`), is the fit in either sense when
  up to no observed key it predicts more than was observed (`isMaxMin_of_excess`,
  `isLeastSquares_of_excess`).
-/
import Mathlib

namespace CryptoIntelligence.Lib

open List

/-- An observation: its key, its weighted outcome and its weight. -/
structure WeightedRow (κ K : Type) where
  key : κ
  positive : K
  weight : K

namespace Isotonic

variable {κ K : Type}

def keys (rows : List (WeightedRow κ K)) : List κ := rows.map WeightedRow.key

theorem mem_keys {rows : List (WeightedRow κ K)} {x : κ} :
    x ∈ keys rows ↔ ∃ row ∈ rows, row.key = x := mem_map

/-! ## Sums over rows -/

section Totals

variable [Field K]

def total (f : WeightedRow κ K → K) (rows : List (WeightedRow κ K)) : K := (rows.map f).sum

theorem total_cons (f : WeightedRow κ K → K) (row : WeightedRow κ K)
    (rows : List (WeightedRow κ K)) : total f (row :: rows) = f row + total f rows := by
  unfold total
  rw [map_cons, sum_cons]

theorem total_append (f : WeightedRow κ K → K) (rows more : List (WeightedRow κ K)) :
    total f (rows ++ more) = total f rows + total f more := by
  unfold total
  rw [map_append, sum_append]

theorem total_mul_left (c : K) (f : WeightedRow κ K → K) (rows : List (WeightedRow κ K)) :
    total (fun row => c * f row) rows = c * total f rows := sum_map_mul_left _ _ _

theorem total_add (f g : WeightedRow κ K → K) (rows : List (WeightedRow κ K)) :
    total (fun row => f row + g row) rows = total f rows + total g rows := sum_map_add

/-- What the outcomes exceed the fitted rates by. -/
def excess (fitted : κ → K) (rows : List (WeightedRow κ K)) : K :=
  total (fun row => row.positive - fitted row.key * row.weight) rows

theorem positive_eq_excess_add (fitted : κ → K) (rows : List (WeightedRow κ K)) :
    total WeightedRow.positive rows =
      excess fitted rows + total (fun row => fitted row.key * row.weight) rows := by
  induction rows with
  | nil => simp [excess, total]
  | cons row rows ih =>
    unfold excess at ih ⊢
    rw [total_cons, total_cons, total_cons, ih]
    ring

end Totals

section Ranges

variable [LinearOrder κ]

def between (rows : List (WeightedRow κ K)) (lower upper : κ) : List (WeightedRow κ K) :=
  rows.filter fun row => lower ≤ row.key ∧ row.key ≤ upper

def upTo (rows : List (WeightedRow κ K)) (upper : κ) : List (WeightedRow κ K) :=
  rows.filter fun row => row.key ≤ upper

def below (rows : List (WeightedRow κ K)) (lower : κ) : List (WeightedRow κ K) :=
  rows.filter fun row => row.key < lower

/-- Before an observed key lies nothing, or what lies up to the key before it. -/
theorem below_eq (rows : List (WeightedRow κ K)) (lower : κ) :
    below rows lower = [] ∨
      ∃ previous ∈ keys rows, previous < lower ∧ below rows lower = upTo rows previous := by
  by_cases hnonempty : ((keys rows).toFinset.filter (· < lower)).Nonempty
  · obtain ⟨previous, hprevious, hgreatest⟩ := Finset.exists_max_image _ id hnonempty
    obtain ⟨hkey, hlt⟩ := Finset.mem_filter.mp hprevious
    refine .inr ⟨previous, mem_toFinset.mp hkey, hlt, ?_⟩
    refine filter_congr fun row hrow => ?_
    rw [decide_eq_decide]
    refine ⟨fun hbelow => ?_, fun hle => hle.trans_lt hlt⟩
    exact hgreatest row.key (Finset.mem_filter.mpr
      ⟨mem_toFinset.mpr (mem_keys.mpr ⟨row, hrow, rfl⟩), hbelow⟩)
  · refine .inl (filter_eq_nil_iff.mpr fun row hrow hbelow => hnonempty ⟨row.key, ?_⟩)
    exact Finset.mem_filter.mpr
      ⟨mem_toFinset.mpr (mem_keys.mpr ⟨row, hrow, rfl⟩), of_decide_eq_true hbelow⟩

/-- The rows of one key, in their order. -/
def group (rows : List (WeightedRow κ K)) (x : κ) : List (WeightedRow κ K) :=
  rows.filter fun row => row.key = x

theorem group_below {rows : List (WeightedRow κ K)} {x last : κ} (hx : x < last) :
    group (below rows last) x = group rows x := by
  unfold group below
  rw [filter_filter]
  refine filter_congr fun row _ => ?_
  rw [← Bool.decide_and, decide_eq_decide]
  exact and_iff_left_of_imp fun hkey => hkey ▸ hx

/-- Sorted rows end with those of their last key. -/
theorem sorted_eq_below_append_group {rows : List (WeightedRow κ K)} {last : κ}
    (hsorted : rows.Pairwise fun left right => left.key ≤ right.key)
    (hlast : ∀ row ∈ rows, row.key ≤ last) : rows = below rows last ++ group rows last := by
  induction rows with
  | nil => rfl
  | cons row rows ih =>
    obtain ⟨hfirst, hrest⟩ := pairwise_cons.mp hsorted
    obtain ⟨hrow, hothers⟩ := forall_mem_cons.mp hlast
    unfold below group at ih ⊢
    rcases hrow.lt_or_eq with hbefore | hsame
    · simp only [filter_cons, hbefore, hbefore.ne, decide_true, decide_false, if_true, cons_append,
        Bool.false_eq_true, if_false]
      rw [← ih hrest hothers]
    · have hall : ∀ other ∈ row :: rows, other.key = last := forall_mem_cons.mpr
        ⟨hsame, fun other hother =>
          le_antisymm (hothers other hother) (hsame ▸ hfirst other hother)⟩
      rw [filter_eq_nil_iff.mpr fun other hother => by simp [hall other hother], nil_append,
        filter_eq_self.mpr fun other hother => decide_eq_true (hall other hother)]

theorem length_below_lt {rows : List (WeightedRow κ K)} {x : κ} (h : x ∈ keys rows) :
    (below rows x).length < (upTo rows x).length := by
  obtain ⟨row, hrow, rfl⟩ := mem_keys.mp h
  have hbelow : below rows row.key = (upTo rows row.key).filter fun other =>
      other.key < row.key := by
    unfold below upTo
    rw [filter_filter]
    refine filter_congr fun other _ => ?_
    rw [← Bool.decide_and, decide_eq_decide]
    exact ⟨fun hlt => ⟨hlt, hlt.le⟩, fun hboth => hboth.1⟩
  rw [hbelow, length_filter_lt_length_iff_exists]
  exact ⟨row, mem_filter.mpr ⟨hrow, decide_eq_true (le_refl _)⟩, by simp⟩

theorem key_of_mem_between {row : WeightedRow κ K} (h : row ∈ between rows lower upper) :
    row.key ∈ keys rows ∧ lower ≤ row.key ∧ row.key ≤ upper := by
  obtain ⟨hrow, hkey⟩ := mem_filter.mp h
  exact ⟨mem_keys.mpr ⟨row, hrow, rfl⟩, of_decide_eq_true hkey⟩

theorem exists_last_key {rows : List (WeightedRow κ K)} (hne : rows ≠ []) :
    ∃ last ∈ keys rows, upTo rows last = rows := by
  obtain ⟨row, hrow⟩ := exists_mem_of_ne_nil rows hne
  obtain ⟨last, hlast, hgreatest⟩ := Finset.exists_max_image (keys rows).toFinset id
    ⟨row.key, mem_toFinset.mpr (mem_keys.mpr ⟨row, hrow, rfl⟩)⟩
  refine ⟨last, mem_toFinset.mp hlast, filter_eq_self.mpr fun other hother => ?_⟩
  exact decide_eq_true (hgreatest other.key
    (mem_toFinset.mpr (mem_keys.mpr ⟨other, hother, rfl⟩)))

end Ranges

section Means

variable [LinearOrder κ] [Field K] {rows : List (WeightedRow κ K)} {fitted : κ → K}
  {lower upper x : κ}

/-- The weighted mean outcome between two keys. -/
def mean (rows : List (WeightedRow κ K)) (lower upper : κ) : K :=
  total WeightedRow.positive (between rows lower upper) /
    total WeightedRow.weight (between rows lower upper)

/-- What lies up to a key lies below a smaller one or between them. -/
theorem total_upTo (f : WeightedRow κ K → K) (h : lower ≤ upper) :
    total f (upTo rows upper) = total f (below rows lower) + total f
      (between rows lower upper) := by
  induction rows with
  | nil => simp [upTo, below, between, total]
  | cons row rows ih =>
    unfold upTo below between at ih ⊢
    simp only [filter_cons, decide_eq_true_eq]
    rcases lt_or_ge row.key lower with hbelow | hlower
    · rw [if_pos (hbelow.le.trans h), if_pos hbelow, if_neg fun hboth => hboth.1.not_gt hbelow,
        total_cons, total_cons, ih, add_assoc]
    · rw [if_neg hlower.not_gt]
      by_cases hupper : row.key ≤ upper
      · rw [if_pos hupper, if_pos ⟨hlower, hupper⟩, total_cons, total_cons, ih, add_left_comm]
      · rw [if_neg hupper, if_neg fun hboth => hupper hboth.2, ih]

theorem excess_between (h : lower ≤ upper) :
    excess fitted (between rows lower upper) =
      excess fitted (upTo rows upper) - excess fitted (below rows lower) := by
  unfold excess
  rw [total_upTo _ h, add_sub_cancel_left]

end Means

/-! ## The fit -/

section Fit

variable [LinearOrder κ] [Field K] [LinearOrder K]

/-- The means from `lower` to an observed key not before `x`. -/
def upperMeans (rows : List (WeightedRow κ K)) (lower x : κ) : Set K :=
  { m | ∃ upper ∈ keys rows, x ≤ upper ∧ m = mean rows lower upper }

/-- The least of these means, for every observed lower key not after `x`. -/
def lowerMinima (rows : List (WeightedRow κ K)) (x : κ) : Set K :=
  { m | ∃ lower ∈ keys rows, lower ≤ x ∧ IsLeast (upperMeans rows lower x) m }

/-- The maximum over lower keys of the minimum over upper keys of the mean between them. -/
def IsMaxMin (rows : List (WeightedRow κ K)) (x : κ) (rate : K) : Prop :=
  IsGreatest (lowerMinima rows x) rate

/-- A fit by blocks: rates that do not decrease, and around every key a first and a last key of the
    same rate, before and up to which the fit predicts exactly what was observed. -/
structure Blocky (rows : List (WeightedRow κ K)) (fitted : κ → K) : Prop where
  weight_pos : ∀ row ∈ rows, 0 < row.weight
  mono : ∀ x ∈ keys rows, ∀ y ∈ keys rows, x ≤ y → fitted x ≤ fitted y
  opens : ∀ x ∈ keys rows, ∃ lower ∈ keys rows, lower ≤ x ∧ fitted lower = fitted x ∧
    excess fitted (below rows lower) = 0
  closes : ∀ x ∈ keys rows, ∃ upper ∈ keys rows, x ≤ upper ∧ fitted upper = fitted x ∧
    excess fitted (upTo rows upper) = 0

variable {rows : List (WeightedRow κ K)} {lower x : κ} {rate : K}

/-- A rate that some lower key bounds from below and every lower key from above. -/
theorem isMaxMin_of
    (hlower : ∃ lower ∈ keys rows, lower ≤ x ∧
      ∀ upper ∈ keys rows, x ≤ upper → rate ≤ mean rows lower upper)
    (hupper : ∀ lower ∈ keys rows, lower ≤ x →
      ∃ upper ∈ keys rows, x ≤ upper ∧ mean rows lower upper ≤ rate) :
    IsMaxMin rows x rate := by
  constructor
  · obtain ⟨lower, hkey, hle, hall⟩ := hlower
    obtain ⟨upper, hupperKey, hx, hmean⟩ := hupper lower hkey hle
    have hrate := le_antisymm (hall upper hupperKey hx) hmean
    refine ⟨lower, hkey, hle, ⟨upper, hupperKey, hx, hrate⟩, ?_⟩
    rintro m ⟨u, hu, hxu, rfl⟩
    exact hall u hu hxu
  · rintro m ⟨lower, hkey, hle, hleast⟩
    obtain ⟨upper, hupperKey, hx, hmean⟩ := hupper lower hkey hle
    exact (hleast.2 ⟨upper, hupperKey, hx, rfl⟩).trans hmean

/-- The max-min rate does not depend on the order of the rows. -/
theorem IsMaxMin.of_perm {other : List (WeightedRow κ K)} (h : IsMaxMin rows x rate)
    (hperm : rows.Perm other) : IsMaxMin other x rate := by
  have hkeys : ∀ y, y ∈ keys rows ↔ y ∈ keys other :=
    fun y => (hperm.map WeightedRow.key).mem_iff
  have htotal : ∀ (f : WeightedRow κ K → K) (p : WeightedRow κ K → Bool),
      total f (rows.filter p) = total f (other.filter p) :=
    fun f p => ((hperm.filter p).map f).sum_eq
  have hmeans : ∀ lower, upperMeans rows lower x = upperMeans other lower x := by
    intro lower
    simp only [upperMeans, mean, between, hkeys, htotal]
  have hminima : lowerMinima rows x = lowerMinima other x := by
    simp only [lowerMinima, hkeys, hmeans]
  rwa [IsMaxMin, hminima] at h

/-- A fit by blocks does not depend on the order of the rows. -/
theorem Blocky.of_perm {rows other : List (WeightedRow κ K)} {fitted : κ → K}
    (h : Blocky rows fitted) (hperm : rows.Perm other) : Blocky other fitted := by
  have hkeys : ∀ x, x ∈ keys other ↔ x ∈ keys rows :=
    fun x => (hperm.map WeightedRow.key).mem_iff.symm
  have hexcess : ∀ p : WeightedRow κ K → Bool,
      excess fitted (other.filter p) = excess fitted (rows.filter p) :=
    fun p => (((hperm.filter p).map _).sum_eq).symm
  refine ⟨fun row hrow => h.weight_pos row (hperm.mem_iff.mpr hrow), ?_, ?_, ?_⟩
  · intro x hx y hy hle
    exact h.mono x ((hkeys x).mp hx) y ((hkeys y).mp hy) hle
  · intro x hx
    obtain ⟨lower, hlower, hle, hsame, hopen⟩ := h.opens x ((hkeys x).mp hx)
    exact ⟨lower, (hkeys lower).mpr hlower, hle, hsame, (hexcess _).trans hopen⟩
  · intro x hx
    obtain ⟨upper, hupper, hle, hsame, hclose⟩ := h.closes x ((hkeys x).mp hx)
    exact ⟨upper, (hkeys upper).mpr hupper, hle, hsame, (hexcess _).trans hclose⟩

end Fit

/-! ## Rates and means -/

section Bounds

variable [Field K] [LinearOrder K] [IsStrictOrderedRing K] {rows : List (WeightedRow κ K)}
  {fitted : κ → K} {rate : K}

theorem mul_weight_le_fitted (hweight : ∀ row ∈ rows, 0 < row.weight)
    (h : ∀ row ∈ rows, rate ≤ fitted row.key) :
    rate * total WeightedRow.weight rows ≤ total (fun row => fitted row.key * row.weight) rows := by
  unfold total
  rw [← sum_map_mul_left]
  refine sum_le_sum fun row hrow => ?_
  exact mul_le_mul_of_nonneg_right (h row hrow) (hweight row hrow).le

theorem fitted_le_mul_weight (hweight : ∀ row ∈ rows, 0 < row.weight)
    (h : ∀ row ∈ rows, fitted row.key ≤ rate) :
    total (fun row => fitted row.key * row.weight) rows ≤ rate * total WeightedRow.weight rows := by
  unfold total
  rw [← sum_map_mul_left]
  refine sum_le_sum fun row hrow => ?_
  exact mul_le_mul_of_nonneg_right (h row hrow) (hweight row hrow).le

variable [LinearOrder κ] {lower upper x : κ}

theorem weight_between_pos (hweight : ∀ row ∈ rows, 0 < row.weight) (hkey : x ∈ keys rows)
    (hlower : lower ≤ x) (hupper : x ≤ upper) :
    0 < total WeightedRow.weight (between rows lower upper) := by
  obtain ⟨row, hrow, rfl⟩ := mem_keys.mp hkey
  have hmem : row ∈ between rows lower upper := by
    simp only [between, mem_filter, decide_eq_true_eq]
    exact ⟨hrow, hlower, hupper⟩
  refine sum_pos _ (fun w hw => ?_) (ne_nil_of_mem (mem_map_of_mem hmem))
  obtain ⟨other, hother, rfl⟩ := mem_map.mp hw
  exact hweight other (mem_filter.mp hother).1

/-- Where the excess is not negative and the rates are at least `rate`, so is the mean. -/
theorem le_mean (fitted : κ → K) (hweight : ∀ row ∈ rows, 0 < row.weight) (hkey : x ∈ keys rows)
    (hlower : lower ≤ x) (hupper : x ≤ upper)
    (hexcess : 0 ≤ excess fitted (between rows lower upper))
    (hrate : ∀ row ∈ between rows lower upper, rate ≤ fitted row.key) :
    rate ≤ mean rows lower upper := by
  have hbetween : ∀ row ∈ between rows lower upper, 0 < row.weight :=
    fun row hrow => hweight row (mem_filter.mp hrow).1
  unfold mean
  rw [le_div_iff₀ (weight_between_pos hweight hkey hlower hupper), positive_eq_excess_add fitted]
  have hfitted := mul_weight_le_fitted hbetween hrate
  linarith

/-- Where the excess is not positive and the rates are at most `rate`, so is the mean. -/
theorem mean_le (fitted : κ → K) (hweight : ∀ row ∈ rows, 0 < row.weight) (hkey : x ∈ keys rows)
    (hlower : lower ≤ x) (hupper : x ≤ upper)
    (hexcess : excess fitted (between rows lower upper) ≤ 0)
    (hrate : ∀ row ∈ between rows lower upper, fitted row.key ≤ rate) :
    mean rows lower upper ≤ rate := by
  have hbetween : ∀ row ∈ between rows lower upper, 0 < row.weight :=
    fun row hrow => hweight row (mem_filter.mp hrow).1
  unfold mean
  rw [div_le_iff₀ (weight_between_pos hweight hkey hlower hupper), positive_eq_excess_add fitted]
  have hfitted := fitted_le_mul_weight hbetween hrate
  linarith

end Bounds

/-! ## When a fit by blocks is the fit -/

section Optimal

variable [LinearOrder κ] [Field K] [LinearOrder K] [IsStrictOrderedRing K]
  {rows : List (WeightedRow κ K)} {fitted : κ → K} {x : κ}

/-- Where the fit predicts no more than was observed, its rates are the max-min rates. -/
theorem isMaxMin_of_excess (h : Blocky rows fitted)
    (hexcess : ∀ upper ∈ keys rows, 0 ≤ excess fitted (upTo rows upper)) (hkey : x ∈ keys rows) :
    IsMaxMin rows x (fitted x) := by
  have hbelow : ∀ lower, 0 ≤ excess fitted (below rows lower) := by
    intro lower
    rcases below_eq rows lower with hnil | ⟨previous, hprevious, -, heq⟩
    · rw [hnil]
      exact le_refl 0
    · rw [heq]
      exact hexcess previous hprevious
  refine isMaxMin_of ?_ ?_
  · -- from the first key of the block on, the outcomes exceed the rates
    obtain ⟨lower, hlower, hle, hsame, hopen⟩ := h.opens x hkey
    refine ⟨lower, hlower, hle, fun upper hupper hx => ?_⟩
    refine le_mean fitted h.weight_pos hkey hle hx ?_ fun row hrow => ?_
    · rw [excess_between (hle.trans hx), hopen, sub_zero]
      exact hexcess upper hupper
    · obtain ⟨hrowKey, hge, -⟩ := key_of_mem_between hrow
      rw [← hsame]
      exact h.mono lower hlower row.key hrowKey hge
  · -- up to the last key of the block, the rates exceed the outcomes
    intro lower hlower hle
    obtain ⟨upper, hupper, hx, hsame, hclose⟩ := h.closes x hkey
    refine ⟨upper, hupper, hx, mean_le fitted h.weight_pos hkey hle hx ?_
      fun row hrow => ?_⟩
    · rw [excess_between (hle.trans hx), hclose, zero_sub, neg_nonpos]
      exact hbelow lower
    · obtain ⟨hrowKey, -, hge⟩ := key_of_mem_between hrow
      rw [← hsame]
      exact h.mono row.key hrowKey upper hupper hge

end Optimal

/-! ## Least squares -/

section Loss

variable [Field K]

/-- The weighted squared error of a function of the key. -/
def loss (rows : List (WeightedRow κ K)) (fitted : κ → K) : K :=
  total (fun row => row.weight * (row.positive / row.weight - fitted row.key) ^ 2) rows

variable [LinearOrder K]

/-- The error of another function, by its distance from the fit and the excess of the fit. -/
theorem loss_eq {rows : List (WeightedRow κ K)} (fitted other : κ → K)
    (hweight : ∀ row ∈ rows, 0 < row.weight) :
    loss rows other = loss rows fitted +
      total (fun row => row.weight * (other row.key - fitted row.key) ^ 2) rows -
      2 * total (fun row => (other row.key - fitted row.key) *
        (row.positive - fitted row.key * row.weight)) rows := by
  induction rows with
  | nil => simp [loss, total]
  | cons row rows ih =>
    have hrow := (hweight row mem_cons_self).ne'
    unfold loss at ih ⊢
    simp only [total_cons]
    rw [ih fun r hr => hweight r (mem_cons_of_mem _ hr)]
    field_simp
    ring

end Loss

section LeastSquares

variable [LinearOrder κ] [Field K]

/-- On one key a function of the key is a constant factor. -/
theorem total_mul_between (f : WeightedRow κ K → K) (weight : κ → K)
    (rows : List (WeightedRow κ K)) (x : κ) :
    total (fun row => weight row.key * f row) (between rows x x) =
      weight x * total f (between rows x x) := by
  unfold total
  rw [← sum_map_mul_left]
  refine congrArg List.sum (map_congr_left fun row hrow => ?_)
  obtain ⟨-, hge, hle⟩ := key_of_mem_between hrow
  rw [le_antisymm hle hge]

variable [LinearOrder K]

/-- The function does not decrease on the observed keys. -/
def Rises (rows : List (WeightedRow κ K)) (fitted : κ → K) : Prop :=
  ∀ x ∈ keys rows, ∀ y ∈ keys rows, x ≤ y → fitted x ≤ fitted y

/-- The function does not decrease, and none that does not has a smaller error. -/
def IsLeastSquares (rows : List (WeightedRow κ K)) (fitted : κ → K) : Prop :=
  Rises rows fitted ∧ ∀ other, Rises rows other → loss rows fitted ≤ loss rows other

variable {rows : List (WeightedRow κ K)} {fitted : κ → K}

/-- Nothing is left over at the last key. -/
theorem Blocky.excess_eq_zero (h : Blocky rows fitted) {last : κ} (hlast : last ∈ keys rows)
    (hall : upTo rows last = rows) : excess fitted (upTo rows last) = 0 := by
  obtain ⟨upper, -, hle, -, hzero⟩ := h.closes last hlast
  have hupper : upTo rows upper = upTo rows last := by
    rw [hall]
    refine filter_eq_self.mpr fun row hrow => decide_eq_true ?_
    rw [← hall] at hrow
    exact (of_decide_eq_true (mem_filter.mp hrow).2).trans hle
  rw [← hupper]
  exact hzero

/-- Where the rate of a fit by blocks steps up, nothing is left over. -/
theorem Blocky.excess_of_step (h : Blocky rows fitted) {previous x : κ}
    (hprevious : previous ∈ keys rows) (hx : x ∈ keys rows) (hlt : previous < x)
    (hbelow : below rows x = upTo rows previous) :
    fitted x = fitted previous ∨ excess fitted (upTo rows previous) = 0 := by
  obtain ⟨upper, hupper, hle, hsame, hzero⟩ := h.closes previous hprevious
  rcases eq_or_lt_of_le hle with rfl | hpast
  · exact .inr hzero
  · have hreach : x ≤ upper := by
      by_contra hshort
      obtain ⟨row, hrow, rfl⟩ := mem_keys.mp hupper
      have hmem : row ∈ below rows x :=
        mem_filter.mpr ⟨hrow, decide_eq_true (not_le.mp hshort)⟩
      rw [hbelow] at hmem
      exact hpast.not_ge (of_decide_eq_true (mem_filter.mp hmem).2)
    refine .inl (le_antisymm ?_ (h.mono previous hprevious x hx hlt.le))
    rw [← hsame]
    exact h.mono x hx upper hupper hreach

variable [IsStrictOrderedRing K]

/-- Summation by parts: where the steps of a factor and the sums up to a key go the same way, the
    weighted sum is at most the last factor times the sum. -/
theorem total_mul_upTo_le {f : WeightedRow κ K → K} {g : κ → K}
    (h : ∀ previous ∈ keys rows, ∀ x ∈ keys rows, previous < x →
      below rows x = upTo rows previous →
      0 ≤ (g x - g previous) * total f (upTo rows previous)) {x : κ} (hx : x ∈ keys rows) :
    total (fun row => g row.key * f row) (upTo rows x) ≤ g x * total f (upTo rows x) := by
  induction hn : (upTo rows x).length using Nat.strong_induction_on generalizing x with
  | h n ih =>
    rw [total_upTo _ (le_refl x), total_upTo f (le_refl x), total_mul_between, mul_add]
    refine add_le_add_left ?_ _
    rcases below_eq rows x with hnil | ⟨previous, hprevious, hlt, hbelow⟩
    · rw [hnil]
      simp [total]
    · have hshorter : (upTo rows previous).length < n := by
        rw [← hbelow, ← hn]
        exact length_below_lt hx
      have hrest := ih _ hshorter hprevious rfl
      have hstep := h previous hprevious x hx hlt hbelow
      rw [hbelow]
      linarith

/-- A fit by blocks that predicts no more than was observed has the least error. -/
theorem isLeastSquares_of_excess (h : Blocky rows fitted)
    (hexcess : ∀ upper ∈ keys rows, 0 ≤ excess fitted (upTo rows upper)) :
    IsLeastSquares rows fitted := by
  refine ⟨h.mono, fun other hother => ?_⟩
  rcases eq_or_ne rows [] with rfl | hne
  · exact le_refl _
  obtain ⟨last, hlast, hall⟩ := exists_last_key hne
  have hzero := h.excess_eq_zero hlast hall
  have hrising : total (fun row => other row.key *
      (row.positive - fitted row.key * row.weight)) (upTo rows last) ≤ 0 := by
    refine (total_mul_upTo_le (fun previous hprevious x hx hlt _ => ?_) hlast).trans_eq ?_
    · exact mul_nonneg (sub_nonneg.mpr (hother previous hprevious x hx hlt.le))
        (hexcess previous hprevious)
    · change other last * excess fitted (upTo rows last) = 0
      rw [hzero, mul_zero]
  have hown : total (fun row => -fitted row.key *
      (row.positive - fitted row.key * row.weight)) (upTo rows last) ≤ 0 := by
    refine (total_mul_upTo_le (g := fun x => -fitted x)
      (fun previous hprevious x hx hlt hbelow => ?_) hlast).trans_eq ?_
    · rcases h.excess_of_step hprevious hx hlt hbelow with hsame | hnone
      · rw [hsame, sub_self, zero_mul]
      · change 0 ≤ _ * excess fitted (upTo rows previous)
        rw [hnone, mul_zero]
    · change -fitted last * excess fitted (upTo rows last) = 0
      rw [hzero, mul_zero]
  rw [hall] at hrising hown
  have hcross : total (fun row => (other row.key - fitted row.key) *
      (row.positive - fitted row.key * row.weight)) rows ≤ 0 := by
    have hsplit := total_add (fun row =>
      other row.key * (row.positive - fitted row.key * row.weight))
      (fun row => -fitted row.key * (row.positive - fitted row.key * row.weight)) rows
    simp only [← add_mul, ← sub_eq_add_neg] at hsplit
    rw [hsplit]
    linarith
  have hsquares : 0 ≤ total (fun row => row.weight * (other row.key - fitted row.key) ^ 2)
      rows := by
    refine sum_nonneg fun value hvalue => ?_
    obtain ⟨row, hrow, rfl⟩ := mem_map.mp hvalue
    exact mul_nonneg (h.weight_pos row hrow).le (sq_nonneg _)
  rw [loss_eq fitted other h.weight_pos]
  linarith

end LeastSquares

end Isotonic

end CryptoIntelligence.Lib
