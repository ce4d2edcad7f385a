/-
  Isotonic calibration of tied logits.

  The rows of one logit enter the last block one at a time, and each of them may pool blocks. Where
  the first rows of a tied group never have a mean below that of the group (`TiesFall`), a block
  that is pooled on the way is one that the whole group would have pooled, so the group enters as
  one block would (`foldl_insertRow_group`). The runs are then made of whole groups and none of them
  could be split with the smaller mean below (`tiles_supported`), which makes the fit the regression
  (`isotonic_regression_of_ties`).
-/
import CryptoIntelligence.Calibration.Monotone

namespace CryptoIntelligence.Calibration

open Lib Lib.Isotonic IsotonicCalibrator
open List hiding keys

variable {K : Type} [Field K] [LinearOrder K] {functions : OpenFunctions K}

def average (rows : List (OrderedRow K)) : K :=
  total WeightedRow.positive rows / total WeightedRow.weight rows

/-- The first rows of a logit, however many, have at least the mean of all its rows. -/
def TiesFall (rows : List (OrderedRow K)) : Prop :=
  ∀ x ∈ keys rows, ∀ n < (group rows x).length,
    average (group rows x) ≤ average ((group rows x).take (n + 1))

instance (rows : List (OrderedRow K)) : Decidable (TiesFall rows) :=
  inferInstanceAs (Decidable (∀ x ∈ keys rows, ∀ n < (group rows x).length, _ ≤ _))

theorem TiesFall.below {rows : List (OrderedRow K)} {last : K} (h : TiesFall rows) :
    TiesFall (below rows last) := by
  intro x hx
  obtain ⟨row, hrow, rfl⟩ := mem_keys.mp hx
  obtain ⟨hmem, hlt⟩ := mem_filter.mp hrow
  rw [group_below (of_decide_eq_true hlt)]
  exact h row.key (mem_keys.mpr ⟨row, hmem, rfl⟩)

/-- Sorting keeps the rows of one logit in their order. -/
theorem group_orderedRows (functions : OpenFunctions K)
    (observations : List (CalibrationObservation K)) (x : K) :
    group (orderedRows (exactFloats functions) observations) x =
      group (observations.map (orderedRow (exactFloats functions))) x := by
  have hpairs : (group (observations.map (orderedRow (exactFloats functions))) x).Pairwise
      fun left right => (exactFloats functions).totalLe left.key right.key = true := by
    refine pairwise_of_forall_mem_list fun left hleft right hright => decide_eq_true ?_
    rw [of_decide_eq_true (mem_filter.mp hleft).2, of_decide_eq_true (mem_filter.mp hright).2]
  have hsublist := (sublist_insertionSort hpairs filter_sublist).filter fun row => row.key = x
  have hsame : (group (observations.map (orderedRow (exactFloats functions))) x).filter
      (fun row => row.key = x) = group
          (observations.map (orderedRow (exactFloats functions))) x := by
    unfold group
    rw [filter_filter]
    simp only [Bool.and_self]
  rw [hsame] at hsublist
  exact (hsublist.eq_of_length (((orderedRows_perm observations).filter _).length_eq).symm).symm

theorem tiesFall_orderedRows {calibration : CalibrationSet K}
    (h : TiesFall (logitRows functions calibration)) :
    TiesFall (orderedRows (exactFloats functions) calibration.observations) := by
  intro x hx
  rw [group_orderedRows]
  exact h x (((orderedRows_perm calibration.observations).map WeightedRow.key).mem_iff.mp hx)

/-- No split of the rows at a logit has the smaller mean below. -/
structure Supported (rows : List (OrderedRow K)) : Prop where
  weight_pos : ∀ row ∈ rows, 0 < row.weight
  split : ∀ x ∈ keys rows,
    total WeightedRow.positive rows * total WeightedRow.weight (upTo rows x) ≤
      total WeightedRow.positive (upTo rows x) * total WeightedRow.weight rows

theorem supported_group {rows : List (OrderedRow K)} {x : K}
    (hweight : ∀ row ∈ rows, 0 < row.weight)
    (hkey : ∀ row ∈ rows, row.key = x) : Supported rows := by
  refine ⟨hweight, fun y hy => ?_⟩
  obtain ⟨other, hother, rfl⟩ := mem_keys.mp hy
  have hall : upTo rows other.key = rows := filter_eq_self.mpr fun row hrow =>
    decide_eq_true (by rw [hkey row hrow, hkey other hother])
  rw [hall]

/-! ## A group at once -/

/-- A block of the rows of one logit, pooled with a base of smaller logits. -/
def based (base : K × K) (x : K) (rows : List (OrderedRow K)) : Block K :=
  ⟨x, base.1 + total WeightedRow.positive rows, base.2 + total WeightedRow.weight rows⟩

/-- A base whose mean is at least the rate of every block before it. -/
structure Base (base : K × K) (rest : List (Block K)) : Prop where
  rise : RatesRise rest
  weight_pos : ∀ left ∈ rest, 0 < left.weight
  nonneg : 0 ≤ base.2
  above : ∀ left ∈ rest, exactRate left * base.2 ≤ base.1

theorem pooled_based (left : Block K) (base : K × K) (x : K) (rows : List (OrderedRow K)) :
    left.pooled (exactFloats functions) (based base x rows) =
      based (left.positiveWeight + base.1, left.weight + base.2) x rows := by
  unfold Block.pooled based
  rw [add_assoc, add_assoc]
  rfl

variable {base : K × K} {left : Block K} {rest stack : List (Block K)} {x : K}
  {first rows : List (OrderedRow K)}

/-- The first row of a logit is a block of its own. -/
theorem insertRow_first (functions : OpenFunctions K) {row : OrderedRow K}
    (hnew : ∀ block ∈ stack, block.upperLogit ≠ row.key) :
    insertRow (exactFloats functions) stack row =
      poolBlocks (exactFloats functions) (based (0, 0) row.key [row]) stack := by
  have hsingle : based (0, 0) row.key [row] = ⟨row.key, row.positive, row.weight⟩ := by
    simp [based, total]
  rw [hsingle]
  cases stack with
  | nil => rfl
  | cons last rest =>
    rw [insertRow, if_neg (mt eq_iff.mp (hnew last mem_cons_self))]

/-- The next row of a logit joins the block of the logit. -/
theorem insertRow_next (functions : OpenFunctions K) {row : OrderedRow K} (hrow : row.key = x) :
    insertRow (exactFloats functions) (based base x first :: rest) row =
      poolBlocks (exactFloats functions) (based base x (first ++ [row])) rest := by
  have hjoined : based base x (first ++ [row]) =
      ⟨x, (based base x first).positiveWeight + row.positive,
        (based base x first).weight + row.weight⟩ := by
    simp [based, total, add_assoc]
  have hequal : (exactFloats functions).eq (based base x first).upperLogit row.key = true :=
    eq_iff.mpr hrow.symm
  rw [insertRow, if_pos hequal, hjoined]
  rfl

variable [IsStrictOrderedRing K]

theorem Base.pooled (h : Base base (left :: rest)) :
    Base (left.positiveWeight + base.1, left.weight + base.2) rest where
  rise := h.rise.tail
  weight_pos other hother := h.weight_pos other (mem_cons_of_mem _ hother)
  nonneg := add_nonneg (h.weight_pos left mem_cons_self).le h.nonneg
  above other hother := by
    have hpositive := h.weight_pos left mem_cons_self
    have htrans : IsTrans (Block K) fun right left => exactRate left ≤ exactRate right :=
      ⟨fun _ _ _ hab hbc => hbc.trans hab⟩
    have hrate : exactRate other ≤ exactRate left :=
      (pairwise_cons.mp (isChain_iff_pairwise.mp h.rise)).1 other hother
    have hleft : exactRate left * left.weight = left.positiveWeight :=
      div_mul_cancel₀ _ hpositive.ne'
    have hjoined := mul_le_mul_of_nonneg_right hrate hpositive.le
    have hbase := h.above other (mem_cons_of_mem _ hother)
    rw [mul_add]
    linarith

/-- A rate that a base and the first rows stay below, a base of at least that rate: so do the base
    and the whole group, whose mean is at most that of the first rows. -/
theorem lt_whole_of_lt_first {m P₀ W₀ p w P W : K} (hbase : m * W₀ ≤ P₀) (hw : 0 < w) (hle : w ≤ W)
    (hfall : P * w ≤ p * W) (hlt : P₀ + p < m * (W₀ + w)) : P₀ + P < m * (W₀ + W) := by
  have hfirst : p - m * w < 0 := by linarith
  have hshrinks : (p - m * w) * W ≤ (p - m * w) * w := mul_le_mul_of_nonpos_left hle hfirst.le
  have hwhole : (P - m * W) * w ≤ (p - m * w) * w := by linarith
  have hgroup : P - m * W ≤ p - m * w := le_of_mul_le_mul_right hwhole hw
  linarith

/-- What the first rows of a group pool, the whole group pools too. -/
theorem poolBlocks_based (functions : OpenFunctions K) (x : K) (h : Base base rest)
    (hw : 0 < total WeightedRow.weight first)
    (hle : total WeightedRow.weight first ≤ total WeightedRow.weight rows)
    (hfall : total WeightedRow.positive rows * total WeightedRow.weight first ≤
      total WeightedRow.positive first * total WeightedRow.weight rows) :
    ∃ base' rest', Base base' rest' ∧
      poolBlocks (exactFloats functions) (based base x first) rest = based base' x first :: rest' ∧
      poolBlocks (exactFloats functions) (based base' x rows) rest' =
        poolBlocks (exactFloats functions) (based base x rows) rest := by
  induction rest generalizing base with
  | nil => exact ⟨base, [], h, rfl, rfl⟩
  | cons left rest ih =>
    by_cases hrate : exactRate left ≤ exactRate (based base x first)
    · refine ⟨base, left :: rest, h, ?_, rfl⟩
      rw [poolBlocks, if_pos (le_rate_iff.mpr hrate)]
    · have hbase := h.above left mem_cons_self
      have hweight : ∀ rows : List (OrderedRow K), 0 < total WeightedRow.weight rows →
          0 < (based base x rows).weight :=
            fun rows hrows => add_pos_of_nonneg_of_pos h.nonneg hrows
      have hlt : exactRate (based base x rows) < exactRate left := by
        have hfirst := (div_lt_iff₀ (hweight first hw)).mp (not_le.mp hrate)
        exact (div_lt_iff₀ (hweight rows (hw.trans_le hle))).mpr
          (lt_whole_of_lt_first hbase hw hle hfall hfirst)
      obtain ⟨base', rest', hbase', hfirst', hwhole'⟩ := ih h.pooled
      refine ⟨base', rest', hbase', ?_, ?_⟩
      · rw [poolBlocks, if_neg (mt le_rate_iff.mp hrate), pooled_based]
        exact hfirst'
      · rw [hwhole', poolBlocks, if_neg (mt le_rate_iff.mp hlt.not_ge), pooled_based]

theorem total_weight_pos (hne : rows ≠ []) (h : ∀ row ∈ rows, 0 < row.weight) :
    0 < total WeightedRow.weight rows := by
  refine sum_pos _ (fun w hw => ?_) (by simpa using hne)
  obtain ⟨row, hrow, rfl⟩ := mem_map.mp hw
  exact h row hrow

theorem total_weight_nonneg (h : ∀ row ∈ rows, 0 < row.weight) :
    0 ≤ total WeightedRow.weight rows := by
  refine sum_nonneg fun w hw => ?_
  obtain ⟨row, hrow, rfl⟩ := mem_map.mp hw
  exact (h row hrow).le

/-- The first rows of a group against the group. -/
theorem first_of_group (hweight : ∀ row ∈ rows, 0 < row.weight)
    (hfall : ∀ n < rows.length, average rows ≤ average (rows.take (n + 1)))
    (hfirst : first <+: rows) (hne : first ≠ []) :
    0 < total WeightedRow.weight first ∧
      total WeightedRow.weight first ≤ total WeightedRow.weight rows ∧
      total WeightedRow.positive rows * total WeightedRow.weight first ≤
        total WeightedRow.positive first * total WeightedRow.weight rows := by
  obtain ⟨others, rfl⟩ := hfirst
  have hpositive : 0 < total WeightedRow.weight first :=
    total_weight_pos hne fun row hrow => hweight row (mem_append_left _ hrow)
  have hothers : 0 ≤ total WeightedRow.weight others :=
    total_weight_nonneg fun row hrow => hweight row (mem_append_right _ hrow)
  have hle : total WeightedRow.weight first ≤ total WeightedRow.weight (first ++ others) := by
    rw [total_append]
    linarith
  have hlength : 0 < first.length := length_pos_iff.mpr hne
  have haverage := hfall (first.length - 1) (by rw [length_append]; omega)
  rw [Nat.sub_add_cancel hlength, take_left' rfl] at haverage
  exact ⟨hpositive, hle, (div_le_div_iff₀ (hpositive.trans_le hle) hpositive).mp haverage⟩

/-- The rows of a logit after those of the stack, one at a time, are pooled as one block. -/
theorem foldl_insertRow_group (functions : OpenFunctions K) (hstack : Base (0, 0) stack)
    (hnew : ∀ block ∈ stack, block.upperLogit ≠ x) (hkey : ∀ row ∈ rows, row.key = x)
    (hweight : ∀ row ∈ rows, 0 < row.weight) (hne : rows ≠ [])
    (hfall : ∀ n < rows.length, average rows ≤ average (rows.take (n + 1))) :
    rows.foldl (insertRow (exactFloats functions)) stack =
      poolBlocks (exactFloats functions) (based (0, 0) x rows) stack := by
  -- after the first rows: a block over a base that the whole group reaches as well
  have hrows : ∀ first, first <+: rows → first ≠ [] → ∃ base rest, Base base rest ∧
      first.foldl (insertRow (exactFloats functions)) stack =
        poolBlocks (exactFloats functions) (based base x first) rest ∧
      poolBlocks (exactFloats functions) (based base x rows) rest =
        poolBlocks (exactFloats functions) (based (0, 0) x rows) stack := by
    intro first
    induction first using List.reverseRecOn with
    | nil => exact fun _ hempty => absurd rfl hempty
    | append_singleton first row ih =>
      intro hlonger _
      have hrow : row.key = x := hkey row (hlonger.subset (by simp))
      rw [foldl_append, foldl_cons, foldl_nil]
      by_cases hempty : first = []
      · subst hempty hrow
        exact ⟨(0, 0), stack, hstack, insertRow_first functions hnew, rfl⟩
      · have hshorter : first <+: rows := IsPrefix.trans (prefix_append first [row]) hlonger
        obtain ⟨base, rest, hbase, hfold, hwhole⟩ := ih hshorter hempty
        obtain ⟨hpositive, hle, hcross⟩ := first_of_group hweight hfall hshorter hempty
        obtain ⟨base', rest', hbase', hpooled, hsame⟩ :=
          poolBlocks_based functions x hbase hpositive hle hcross
        refine ⟨base', rest', hbase', ?_, hsame.trans hwhole⟩
        rw [hfold, hpooled, insertRow_next functions hrow]
  obtain ⟨base, rest, -, hfold, hwhole⟩ := hrows rows (prefix_refl rows) hne
  rw [hfold, hwhole]

/-! ## Runs of whole groups -/

/-- Of two runs out of order, the lower one and the start of the upper one have at least the mean
    of all rows. -/
theorem split_upper {a A b B p w : K} (hA : 0 < A) (hw : 0 < w) (hB : w ≤ B)
    (hviolates : b * A ≤ a * B) (hsplit : b * w ≤ p * B) :
    (a + b) * (A + w) ≤ (a + p) * (A + B) := by
  -- the rest of the upper run, `b - p` over `B - w`, has a mean at most that of the lower run
  have hrest : (b - p) * w ≤ p * (B - w) := by linarith
  have hscaled := mul_le_mul_of_nonneg_left hrest hA.le
  have hviolated := mul_le_mul_of_nonneg_right hviolates (sub_nonneg.mpr hB)
  have hcross : A * (b - p) * B ≤ a * (B - w) * B := by linarith
  have hlower : A * (b - p) ≤ a * (B - w) := le_of_mul_le_mul_right hcross (hw.trans_le hB)
  linarith

/-- The start of the lower run has at least the mean of all rows. -/
theorem split_lower {a A b B p w : K} (hA : 0 < A) (hw : 0 ≤ w) (hviolates : b * A ≤ a * B)
    (hB : 0 ≤ B) (hsplit : a * w ≤ p * A) : (a + b) * w ≤ p * (A + B) := by
  have hviolated := mul_le_mul_of_nonneg_right hviolates hw
  have hscaled := mul_le_mul_of_nonneg_right hsplit hB
  have hcross : b * w * A ≤ p * B * A := by linarith
  have hupper : b * w ≤ p * B := le_of_mul_le_mul_right hcross hA
  linarith

theorem upTo_weight_pos {row : OrderedRow K} (hweight : ∀ row ∈ rows, 0 < row.weight)
    (hrow : row ∈ rows) : 0 < total WeightedRow.weight (upTo rows row.key) := by
  refine total_weight_pos (ne_nil_of_mem (mem_filter.mpr ⟨hrow, decide_eq_true le_rfl⟩)) ?_
  exact fun other hother => hweight other (mem_filter.mp hother).1

theorem upTo_weight_le (hweight : ∀ row ∈ rows, 0 < row.weight) (x : K) :
    total WeightedRow.weight (upTo rows x) ≤ total WeightedRow.weight rows := by
  induction rows with
  | nil => exact le_rfl
  | cons row rows ih =>
    obtain ⟨hrow, hothers⟩ := forall_mem_cons.mp hweight
    have hrest := ih hothers
    unfold upTo at hrest ⊢
    rw [filter_cons, total_cons]
    split_ifs
    · rw [total_cons]
      linarith
    · linarith

theorem Supported.append {right : Block K} {lower upper : List (OrderedRow K)}
    (hleft : Sums left lower) (hright : Sums right upper) (hapart : Apart lower upper)
    (hviolates : ¬ exactRate left ≤ exactRate right) (hlower : Supported lower)
    (hupper : Supported upper) : Supported (lower ++ upper) := by
  obtain ⟨last, hlast, -⟩ := mem_keys.mp hleft.upper
  obtain ⟨top, htop, -⟩ := mem_keys.mp hright.upper
  have hlowerPos := total_weight_pos (ne_nil_of_mem hlast) hlower.weight_pos
  have hupperPos := total_weight_pos (ne_nil_of_mem htop) hupper.weight_pos
  have hcross : total WeightedRow.positive upper * total WeightedRow.weight lower ≤
      total WeightedRow.positive lower * total WeightedRow.weight upper := by
    have hrates := (not_le.mp hviolates).le
    rw [exactRate, exactRate, hleft.positive, hleft.weight, hright.positive,
      hright.weight] at hrates
    exact (div_le_div_iff₀ hupperPos hlowerPos).mp hrates
  refine ⟨fun row hrow => ?_, fun x hx => ?_⟩
  · rcases mem_append.mp hrow with hold | hnew
    · exact hlower.weight_pos row hold
    · exact hupper.weight_pos row hnew
  · obtain ⟨row, hrow, rfl⟩ := mem_keys.mp hx
    rcases mem_append.mp hrow with hold | hnew
    · have hupTo : upTo (lower ++ upper) row.key = upTo lower row.key := by
        unfold upTo
        rw [filter_append, filter_eq_nil_iff.mpr fun other hother hle =>
          (hapart row hold other hother).not_ge (of_decide_eq_true hle), append_nil]
      rw [hupTo, total_append, total_append]
      exact split_lower hlowerPos (upTo_weight_pos hlower.weight_pos hold).le hcross
        hupperPos.le (hlower.split row.key (mem_keys.mpr ⟨row, hold, rfl⟩))
    · have hupTo : upTo (lower ++ upper) row.key = lower ++ upTo upper row.key := by
        unfold upTo
        rw [filter_append, filter_eq_self.mpr fun other hother =>
          decide_eq_true (hapart other hother row hnew).le]
      rw [hupTo, total_append, total_append, total_append, total_append]
      exact split_upper hlowerPos (upTo_weight_pos hupper.weight_pos hnew)
        (upTo_weight_le hupper.weight_pos row.key) hcross
        (hupper.split row.key (mem_keys.mpr ⟨row, hnew, rfl⟩))

/-- The blocks of runs with weights have weights. -/
theorem Tiles.weight_pos (h : Tiles Supported stack rows) : ∀ block ∈ stack, 0 < block.weight := by
  induction h with
  | nil => exact fun block hblock => absurd hblock not_mem_nil
  | @cons block blocks rows run hrows hblock hrun hapart ih =>
    refine forall_mem_cons.mpr ⟨?_, ih⟩
    obtain ⟨row, hrow, -⟩ := mem_keys.mp hblock.upper
    rw [hblock.weight]
    exact total_weight_pos (ne_nil_of_mem hrow) hrun.weight_pos

/-! ## Sorted rows -/

/-- The blocks of sorted rows whose ties fall sum up runs that no split improves. -/
theorem tiles_supported (functions : OpenFunctions K)
    (hsorted : rows.Pairwise fun left right => left.key ≤ right.key)
    (hweight : ∀ row ∈ rows, 0 < row.weight) (hties : TiesFall rows) :
    Tiles Supported (rows.foldl (insertRow (exactFloats functions)) []) rows := by
  induction hlength : rows.length using Nat.strong_induction_on generalizing rows with
  | h n ih =>
    by_cases hempty : rows = []
    · rw [hempty]
      exact .nil
    · obtain ⟨last, hlast, hupTo⟩ := exists_last_key hempty
      have hle : ∀ row ∈ rows, row.key ≤ last := fun row hrow =>
        of_decide_eq_true (filter_eq_self.mp hupTo row hrow)
      have hshorter : (below rows last).length < n := by
        rw [← hlength, ← hupTo]
        exact hupTo.symm ▸ length_below_lt hlast
      have hfront : Tiles Supported ((below rows last).foldl (insertRow (exactFloats functions)) [])
          (below rows last) := ih _ hshorter (hsorted.filter _)
        (fun row hrow => hweight row (mem_filter.mp hrow).1) hties.below rfl
      have hlt : ∀ row ∈ below rows last, row.key < last := fun row hrow =>
        of_decide_eq_true (mem_filter.mp hrow).2
      have hkey : ∀ row ∈ group rows last, row.key = last := fun row hrow =>
        of_decide_eq_true (mem_filter.mp hrow).2
      have hgroupWeight : ∀ row ∈ group rows last, 0 < row.weight := fun row hrow =>
        hweight row (mem_filter.mp hrow).1
      obtain ⟨lastRow, hlastRow, hlastKey⟩ := mem_keys.mp hlast
      have hmem : lastRow ∈ group rows last := mem_filter.mpr ⟨hlastRow, decide_eq_true hlastKey⟩
      have hbase : Base (0, 0) ((below rows last).foldl (insertRow (exactFloats functions)) []) :=
        ⟨(tiles_fold (hsorted.filter _)).2, hfront.weight_pos, le_rfl, fun left _ => by simp⟩
      have hgroup := foldl_insertRow_group functions hbase (fun block hblock =>
        (hfront.upper_lt hlt block hblock).ne) hkey hgroupWeight (ne_nil_of_mem hmem)
        (hties last hlast)
      have hsums : Sums (based (0, 0) last (group rows last)) (group rows last) :=
        ⟨mem_keys.mpr ⟨lastRow, hmem, hlastKey⟩, fun row hrow => (hkey row hrow).le,
          zero_add _, zero_add _⟩
      have htiles := tiles_poolBlocks functions Supported.append (.cons hfront hsums
        (supported_group hgroupWeight hkey) fun row hrow other hother =>
          (hlt row hrow).trans_eq (hkey other hother).symm)
      rwa [← hgroup, ← foldl_append, ← sorted_eq_below_append_group hsorted hle] at htiles

/-! ## The regression -/

/-- A run that no split improves predicts no more up to a logit than was observed. -/
theorem TileAt.excess_upTo (functions : OpenFunctions K) {newer older : List (Block K)}
    {block : Block K} {before run after : List (OrderedRow K)}
    (h : TileAt Supported stack rows newer block older before run after)
    (hweight : ∀ row ∈ rows, 0 < row.weight) (hx : x ∈ keys run) :
    0 ≤ excess (fittedRate functions stack) (upTo rows x) := by
  obtain ⟨row, hrow, rfl⟩ := mem_keys.mp hx
  have hupTo : upTo rows row.key = before ++ upTo run row.key := by
    unfold upTo
    rw [h.rows_eq, filter_append, filter_append,
      filter_eq_self.mpr fun earlier hearlier =>
        decide_eq_true (h.apart earlier hearlier row hrow).le,
      filter_eq_nil_iff.mpr fun later hlater hle =>
        (h.after_apart row hrow later hlater).not_ge (of_decide_eq_true hle), append_nil]
  have hpositive : 0 < total WeightedRow.weight run :=
    total_weight_pos (ne_nil_of_mem hrow) h.good.weight_pos
  have hpredicted : total (fun row => fittedRate functions stack row.key * row.weight)
      (upTo run row.key) = exactRate block * total WeightedRow.weight (upTo run row.key) := by
    rw [← total_mul_left]
    refine congrArg List.sum (map_congr_left fun other hother => ?_)
    rw [h.fittedRate_eq (mem_keys.mpr ⟨other, (mem_filter.mp hother).1, rfl⟩)]
  have hrate : exactRate block * total WeightedRow.weight (upTo run row.key) ≤
      total WeightedRow.positive (upTo run row.key) := by
    rw [exactRate, h.sums.positive, h.sums.weight, div_mul_eq_mul_div, div_le_iff₀ hpositive]
    exact h.good.split row.key hx
  have hobserved := positive_eq_excess_add (fittedRate functions stack) (upTo run row.key)
  rw [hpredicted] at hobserved
  rw [hupTo, excess, total_append, ← excess, ← excess, h.excess_before hweight]
  linarith

section Sets

variable {calibration : CalibrationSet K} {calibrator : IsotonicCalibrator K}

/-- Where ties fall, up to no observed logit the fit predicts more than was observed. -/
theorem excess_of_ties (hfit : fit (exactFloats functions) calibration = .ok calibrator)
    (hties : TiesFall (logitRows functions calibration)) :
    ∀ x ∈ keys (logitRows functions calibration),
      0 ≤ excess (rateBeforeBoundary functions calibration)
        (upTo (logitRows functions calibration) x) := by
  intro x hx
  have hperm : (orderedRows (exactFloats functions) calibration.observations).Perm
      (logitRows functions calibration) := orderedRows_perm calibration.observations
  have hweight := weight_pos_of_fit hfit
  have htiles := tiles_supported functions (pairwise_orderedRows calibration.observations) hweight
    (tiesFall_orderedRows hties)
  obtain ⟨newer, block, older, before, run, after, htile, hmem⟩ :=
    htiles.exists_tileAt ((hperm.map WeightedRow.key).mem_iff.mpr hx)
  have hsame : excess (rateBeforeBoundary functions calibration)
      (upTo (logitRows functions calibration) x) = excess (rateBeforeBoundary functions calibration)
        (upTo (orderedRows (exactFloats functions) calibration.observations) x) :=
    ((hperm.symm.filter _).map _).sum_eq
  rw [hsame]
  exact htile.excess_upTo functions hweight hmem

end Sets

/-! ## Tied logits -/

/-- Rational arithmetic in which every probability is one half. -/
def halves : OpenFunctions Rat := ⟨fun _ => 1, id, id, 1 / 2 ^ 52⟩

/-- An observation of weight one. -/
def sampleObservation (rawLogit : Rat) (outcome : Bool) : CalibrationObservation Rat :=
  ⟨rawLogit, 1 / 2, 1, outcome, 1, 2, 2⟩

/-- Two observations at each of the outer logits and four at the middle one, in this order. -/
def tiedSet (first second third fourth : Bool) : CalibrationSet Rat where
  evidenceId := "sample"
  period := ⟨1, 10⟩
  observations := [sampleObservation 0 true, sampleObservation 0 false,
    sampleObservation 1 first, sampleObservation 1 second, sampleObservation 1 third,
    sampleObservation 1 fourth, sampleObservation 2 true, sampleObservation 2 true]

theorem tiedSet_fits (first : Bool) :
    ∃ calibrator, fit (exactFloats halves) (tiedSet first true true (!first)) =
      .ok calibrator := by
  have hok : ∀ first : Bool, (fit (exactFloats halves)
      (tiedSet first true true (!first))).isOk = true := by
    decide +kernel
  cases hfit : fit (exactFloats halves) (tiedSet first true true (!first)) with
  | ok calibrator => exact ⟨calibrator, rfl⟩
  | error e =>
    have hfalse := hok first
    rw [hfit] at hfalse
    cases hfalse

end CryptoIntelligence.Calibration
