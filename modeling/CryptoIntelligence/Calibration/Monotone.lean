/-
  Whether isotonic calibration is the monotone regression of the outcomes, in exact arithmetic.

  The blocks always tile the rows: each sums up a run of consecutive rows, no logit is in two runs
  and the rates do not decrease (`tiles_fold`, `ratesRise_insertRow`). That makes the fit `Blocky`.
  It is the regression when no block could be split with the smaller mean below; since rows of one
  logit enter a block one at a time, a block can be pooled on the first of them and stay too large.
-/
import CryptoIntelligence.Calibration.Isotonic

namespace CryptoIntelligence.Calibration

open Lib Lib.Isotonic IsotonicCalibrator
open List hiding keys

variable {K : Type} [Field K] [LinearOrder K] {functions : OpenFunctions K}

/-! ## Blocks and the rows they sum up -/

/-- The block sums up these rows, and its logit is the last of theirs. -/
structure Sums (block : Block K) (rows : List (OrderedRow K)) : Prop where
  upper : block.upperLogit ∈ keys rows
  le_upper : ∀ row ∈ rows, row.key ≤ block.upperLogit
  positive : block.positiveWeight = total WeightedRow.positive rows
  weight : block.weight = total WeightedRow.weight rows

/-- Every logit of the first rows is below every logit of the others. -/
def Apart (rows others : List (OrderedRow K)) : Prop :=
  ∀ row ∈ rows, ∀ other ∈ others, row.key < other.key

/-- The blocks, the last first, sum up consecutive runs of the rows, each of them a good one. -/
inductive Tiles (good : List (OrderedRow K) → Prop) :
    List (Block K) → List (OrderedRow K) → Prop
  | nil : Tiles good [] []
  | cons {block : Block K} {blocks : List (Block K)} {rows run : List (OrderedRow K)} :
      Tiles good blocks rows → Sums block run → good run → Apart rows run →
        Tiles good (block :: blocks) (rows ++ run)

/-- The rate of a block in exact arithmetic. -/
def exactRate (block : Block K) : K := block.positiveWeight / block.weight

/-- The rates do not decrease, the last block first. -/
def RatesRise (blocks : List (Block K)) : Prop :=
  blocks.IsChain fun right left => exactRate left ≤ exactRate right

variable {right : Block K} {row : OrderedRow K} {rest : List (Block K)}
  {good : List (OrderedRow K) → Prop}

theorem le_rate_iff {left : Block K} :
    (exactFloats functions).le (left.rate (exactFloats functions))
      (right.rate (exactFloats functions)) = true ↔ exactRate left ≤ exactRate right :=
  decide_eq_true_iff

theorem eq_iff {a b : K} : (exactFloats functions).eq a b = true ↔ a = b := by
  unfold CalibrationFloats.eq
  rw [Bool.and_eq_true]
  exact (and_congr (decide_eq_true_iff (p := a ≤ b)) (decide_eq_true_iff (p := b ≤ a))).trans
    le_antisymm_iff.symm

theorem sums_singleton (row : OrderedRow K) : Sums ⟨row.key, row.positive, row.weight⟩ [row] where
  upper := mem_singleton.mpr rfl
  le_upper other hother := by rw [mem_singleton.mp hother]
  positive := by simp [total]
  weight := by simp [total]

/-- A row of the last logit joins the block. -/
theorem Sums.join {block : Block K} {rows : List (OrderedRow K)}
    (h : Sums block rows) (hkey : block.upperLogit = row.key) :
    Sums ⟨block.upperLogit, block.positiveWeight + row.positive, block.weight + row.weight⟩
      (rows ++ [row]) where
  upper := by
    rw [keys, map_append]
    exact mem_append_left _ h.upper
  le_upper := forall_mem_concat.mpr ⟨h.le_upper, hkey.ge⟩
  positive := by
    rw [total_append, h.positive]
    simp [total]
  weight := by
    rw [total_append, h.weight]
    simp [total]

/-- Two neighbouring blocks pooled sum up the rows of both. -/
theorem Sums.pooled {left : Block K} {lower upper : List (OrderedRow K)}
    (hleft : Sums left lower) (hright : Sums right upper) (hapart : Apart lower upper) :
    Sums (left.pooled (exactFloats functions) right) (lower ++ upper) where
  upper := by
    rw [keys, map_append]
    exact mem_append_right _ hright.upper
  le_upper row hrow := by
    rcases mem_append.mp hrow with hlower | hupper
    · obtain ⟨last, hlast, hkey⟩ := mem_keys.mp hright.upper
      exact hkey ▸ (hapart row hlower last hlast).le
    · exact hright.le_upper row hupper
  positive := by
    rw [total_append, ← hleft.positive, ← hright.positive]
    rfl
  weight := by
    rw [total_append, ← hleft.weight, ← hright.weight]
    rfl

/-! ## The pooling loop -/

/-- Pooling keeps the tiles, if the runs of two blocks out of order are a good run together. -/
theorem tiles_poolBlocks (functions : OpenFunctions K)
    (hgood : ∀ {left right lower upper}, Sums left lower → Sums right upper →
      Apart lower upper → ¬ exactRate left ≤ exactRate right → good lower → good upper →
        good (lower ++ upper))
    {rows : List (OrderedRow K)} (h : Tiles good (right :: rest) rows) :
    Tiles good (poolBlocks (exactFloats functions) right rest) rows := by
  induction rest generalizing right with
  | nil => exact h
  | cons left rest ih =>
    rw [poolBlocks]
    split
    case isTrue => exact h
    case isFalse hviolates =>
      rw [le_rate_iff] at hviolates
      refine ih ?_
      cases h with
      | @cons _ _ before upper hbefore hright hupperGood hapart =>
        cases hbefore with
        | @cons _ _ rows lower hrows hleft hlowerGood hlowerApart =>
          have hneighbours : Apart lower upper := fun row hrow =>
            hapart row (mem_append_right _ hrow)
          rw [append_assoc]
          refine .cons hrows (hleft.pooled hright hneighbours)
            (hgood hleft hright hneighbours hviolates hlowerGood hupperGood)
            fun row hrow other hother => ?_
          · rcases mem_append.mp hother with hlower | hupper
            · exact hlowerApart row hrow other hlower
            · exact hapart row (mem_append_left _ hrow) other hupper

theorem ratesRise_poolBlocks (h : RatesRise rest) :
    RatesRise (poolBlocks (exactFloats functions) right rest) := by
  induction rest generalizing right with
  | nil => exact isChain_singleton right
  | cons left rest ih =>
    rw [poolBlocks]
    split
    case isTrue hle => exact isChain_cons_cons.mpr ⟨le_rate_iff.mp hle, h⟩
    case isFalse => exact ih h.tail

/-- No row of the tiled ones has a logit after that of the last block. -/
theorem Tiles.le_upper {last : Block K} {rows : List (OrderedRow K)}
    (h : Tiles good (last :: rest) rows) : ∀ row ∈ rows, row.key ≤ last.upperLogit := by
  cases h with
  | @cons _ _ before run hbefore hlast hgood hapart =>
    intro row hrow
    rcases mem_append.mp hrow with hold | hnew
    · obtain ⟨upper, hupper, hkey⟩ := mem_keys.mp hlast.upper
      exact hkey ▸ (hapart row hold upper hupper).le
    · exact hlast.le_upper row hnew

theorem Tiles.upper_mem {last : Block K} {rows : List (OrderedRow K)}
    (h : Tiles good (last :: rest) rows) : last.upperLogit ∈ keys rows := by
  cases h with
  | @cons _ _ before run hbefore hlast hgood hapart =>
    rw [keys, map_append]
    exact mem_append_right _ hlast.upper

/-- A row whose logit is not before those of the tiled rows. -/
theorem tiles_insertRow {blocks : List (Block K)} {rows : List (OrderedRow K)}
    (h : Tiles (fun _ => True) blocks rows) (hkey : ∀ earlier ∈ rows, earlier.key ≤ row.key) :
    Tiles (fun _ => True) (insertRow (exactFloats functions) blocks row) (rows ++ [row]) := by
  have hpool {right : Block K} {rest : List (Block K)} {rows : List (OrderedRow K)} :=
    @tiles_poolBlocks _ _ _ right rest (fun _ => True) functions (fun _ _ _ _ _ _ => trivial) rows
  cases blocks with
  | nil =>
    cases h
    exact hpool (.cons .nil (sums_singleton row) trivial fun earlier hearlier =>
      absurd hearlier not_mem_nil)
  | cons last rest =>
    rw [insertRow]
    split
    case isTrue hsame =>
      cases h with
      | @cons _ _ before run hbefore hlast _ hapart =>
        rw [eq_iff] at hsame
        rw [append_assoc]
        refine hpool (.cons hbefore (hlast.join hsame) trivial fun earlier hearlier =>
          forall_mem_concat.mpr ⟨hapart earlier hearlier, ?_⟩)
        obtain ⟨upper, hupper, hupperKey⟩ := mem_keys.mp hlast.upper
        rw [← hsame, ← hupperKey]
        exact hapart earlier hearlier upper hupper
    case isFalse hdiffers =>
      rw [eq_iff] at hdiffers
      have hafter : last.upperLogit < row.key := by
        obtain ⟨upper, hupper, hupperKey⟩ := mem_keys.mp h.upper_mem
        exact lt_of_le_of_ne (hupperKey ▸ hkey upper hupper) hdiffers
      refine hpool (.cons h (sums_singleton row) trivial fun earlier hearlier other hother => ?_)
      rw [mem_singleton.mp hother]
      exact (h.le_upper earlier hearlier).trans_lt hafter

theorem ratesRise_insertRow {blocks : List (Block K)} (h : RatesRise blocks) :
    RatesRise (insertRow (exactFloats functions) blocks row) := by
  cases blocks with
  | nil => exact ratesRise_poolBlocks h
  | cons last rest =>
    rw [insertRow]
    split
    · exact ratesRise_poolBlocks h.tail
    · exact ratesRise_poolBlocks h

/-- The blocks of sorted rows tile them, and their rates do not decrease. -/
theorem tiles_fold {rows : List (OrderedRow K)}
    (h : rows.Pairwise fun left right => left.key ≤ right.key) :
    Tiles (fun _ => True) (rows.foldl (insertRow (exactFloats functions)) []) rows ∧
      RatesRise (rows.foldl (insertRow (exactFloats functions)) []) := by
  induction rows using List.reverseRecOn with
  | nil => exact ⟨.nil, isChain_nil⟩
  | append_singleton rows row ih =>
    obtain ⟨hrows, -, hkey⟩ := pairwise_append.mp h
    obtain ⟨htiles, hrise⟩ := ih hrows
    rw [foldl_append, foldl_cons, foldl_nil]
    refine ⟨tiles_insertRow htiles fun earlier hearlier => ?_, ratesRise_insertRow hrise⟩
    exact hkey earlier hearlier row (mem_singleton.mpr rfl)

/-! ## The rate of a logit -/

/-- The fitted rate of a logit under blocks given the last first. -/
def fittedRate (functions : OpenFunctions K) (blocks : List (Block K)) (x : K) : K :=
  (blockRate (exactFloats functions) blocks.reverse x).getD 0

/-- A tile somewhere in the stack, with the rows before and after those it sums up. -/
structure TileAt (good : List (OrderedRow K) → Prop) (stack : List (Block K))
    (rows : List (OrderedRow K)) (newer : List (Block K)) (block : Block K)
    (older : List (Block K)) (before run after : List (OrderedRow K)) : Prop where
  stack_eq : stack = newer ++ block :: older
  rows_eq : rows = before ++ run ++ after
  tiles : Tiles good older before
  sums : Sums block run
  good : good run
  apart : Apart before run
  after_apart : Apart run after

/-- Every logit is in the run of a tile. -/
theorem Tiles.exists_tileAt {stack : List (Block K)} {rows : List (OrderedRow K)} {x : K}
    (h : Tiles good stack rows) (hx : x ∈ keys rows) :
    ∃ newer block older before run after,
      TileAt good stack rows newer block older before run after ∧ x ∈ keys run := by
  induction h with
  | nil => exact absurd hx not_mem_nil
  | @cons block blocks rows run hrows hblock hgood hapart ih =>
    rw [keys, map_append, mem_append] at hx
    rcases hx with hold | hnew
    · obtain ⟨newer, found, older, before, inner, after, htile, hmem⟩ := ih hold
      refine ⟨block :: newer, found, older, before, inner, after ++ run, ?_, hmem⟩
      exact {
        stack_eq := by rw [htile.stack_eq, cons_append]
        rows_eq := by rw [htile.rows_eq, append_assoc _ after run]
        tiles := htile.tiles
        sums := htile.sums
        good := htile.good
        apart := htile.apart
        after_apart := by
          intro row hrow other hother
          rcases mem_append.mp hother with hafter | hrun
          · exact htile.after_apart row hrow other hafter
          · refine hapart row ?_ other hrun
            rw [htile.rows_eq]
            simp [hrow] }
    · refine ⟨[], block, blocks, rows, run, [], ?_, hnew⟩
      exact {
        stack_eq := rfl
        rows_eq := (append_nil _).symm
        tiles := hrows
        sums := hblock
        good := hgood
        apart := hapart
        after_apart := fun row _ other hother => absurd hother not_mem_nil }

/-- The logits of older blocks are below those of the run. -/
theorem Tiles.upper_lt {older : List (Block K)} {before : List (OrderedRow K)}
    (h : Tiles good older before) {x : K} (hbelow : ∀ row ∈ before, row.key < x) :
    ∀ block ∈ older, block.upperLogit < x := by
  induction h with
  | nil => exact fun block hblock => absurd hblock not_mem_nil
  | @cons block blocks rows run hrows hblock hgood hapart ih =>
    intro other hother
    rcases mem_cons.mp hother with rfl | hold
    · obtain ⟨upper, hupper, hkey⟩ := mem_keys.mp hblock.upper
      exact hkey ▸ hbelow upper (mem_append_right _ hupper)
    · exact ih (fun row hrow => hbelow row (mem_append_left _ hrow)) other hold

/-- The rate of a logit is that of the block that sums it up. -/
theorem blockRate_of_tile {newer older : List (Block K)} {block : Block K}
    {before run : List (OrderedRow K)} (htiles : Tiles good older before) (hsums : Sums block run)
    (hapart : Apart before run) (hrow : row ∈ run) :
    blockRate (exactFloats functions) (newer ++ block :: older).reverse row.key =
      some (exactRate block) := by
  have hreverse : (newer ++ block :: older).reverse = older.reverse ++ block :: newer.reverse := by
    simp
  have hlower : ∀ upper ∈ (older.reverse.map Block.upperLogit),
      (exactFloats functions).lt upper row.key = true := by
    intro upper hupper
    obtain ⟨other, hother, rfl⟩ := mem_map.mp hupper
    exact decide_eq_true (htiles.upper_lt (fun earlier hearlier => hapart earlier hearlier row hrow)
      other (mem_reverse.mp hother))
  have hstop : (exactFloats functions).lt block.upperLogit row.key = false :=
    decide_eq_false (hsums.le_upper row hrow).not_gt
  have hposition : blockPosition (exactFloats functions)
      ((older.reverse ++ block :: newer.reverse).map Block.upperLogit)
      (older.reverse ++ block :: newer.reverse).length row.key = older.reverse.length := by
    unfold blockPosition
    rw [map_append, takeWhile_append_of_pos hlower, map_cons,
      takeWhile_cons_of_neg (by rw [hstop]; decide), append_nil, length_map]
    simp
  unfold blockRate
  rw [hreverse, hposition, getElem?_append_right (le_refl _), Nat.sub_self]
  rfl

theorem fittedRate_of_tile {newer older : List (Block K)} {block : Block K}
    {before run : List (OrderedRow K)} (htiles : Tiles good older before) (hsums : Sums block run)
    (hapart : Apart before run) (hrow : row ∈ run) :
    fittedRate functions (newer ++ block :: older) row.key = exactRate block := by
  unfold fittedRate
  rw [blockRate_of_tile htiles hsums hapart hrow]
  rfl

/-! ## The fit is by blocks -/

section Blocks

variable {stack newer older : List (Block K)} {block : Block K}
  {rows before run after : List (OrderedRow K)}

variable {x : K}

theorem TileAt.fittedRate_eq (h : TileAt good stack rows newer block older before run after)
    (hx : x ∈ keys run) : fittedRate functions stack x = exactRate block := by
  obtain ⟨row, hrow, rfl⟩ := mem_keys.mp hx
  rw [h.stack_eq]
  exact fittedRate_of_tile h.tiles h.sums h.apart hrow

theorem TileAt.mem_keys_of_run (h : TileAt good stack rows newer block older before run after)
    (hx : x ∈ keys run) : x ∈ keys rows := by
  rw [h.rows_eq, keys, map_append, map_append]
  exact mem_append_left _ (mem_append_right _ hx)

/-- The rows below the first logit of a run are those before it. -/
theorem TileAt.below_eq (h : TileAt good stack rows newer block older before run after) {lower : K}
    (hlower : lower ∈ keys run) (hfirst : ∀ row ∈ run, lower ≤ row.key) :
    below rows lower = before := by
  obtain ⟨first, hfirstMem, rfl⟩ := mem_keys.mp hlower
  have hbefore : before.filter (fun row => decide (row.key < first.key)) = before :=
    filter_eq_self.mpr fun row hrow => decide_eq_true (h.apart row hrow first hfirstMem)
  have hrun : run.filter (fun row => decide (row.key < first.key)) = [] :=
    filter_eq_nil_iff.mpr fun row hrow hlt => (hfirst row hrow).not_gt (of_decide_eq_true hlt)
  have hafter : after.filter (fun row => decide (row.key < first.key)) = [] :=
    filter_eq_nil_iff.mpr fun row hrow hlt =>
      (h.after_apart first hfirstMem row hrow).not_gt (of_decide_eq_true hlt)
  rw [h.rows_eq, below, filter_append, filter_append, hbefore, hrun, hafter,
    append_nil, append_nil]

/-- The rows up to the last logit of a run are those before it and the run. -/
theorem TileAt.upTo_eq (h : TileAt good stack rows newer block older before run after) :
    upTo rows block.upperLogit = before ++ run := by
  obtain ⟨last, hlast, hkey⟩ := mem_keys.mp h.sums.upper
  have hbefore : before.filter (fun row => decide (row.key ≤ block.upperLogit)) = before :=
    filter_eq_self.mpr fun row hrow => decide_eq_true (hkey ▸ (h.apart row hrow last hlast).le)
  have hrun : run.filter (fun row => decide (row.key ≤ block.upperLogit)) = run :=
    filter_eq_self.mpr fun row hrow => decide_eq_true (h.sums.le_upper row hrow)
  have hafter : after.filter (fun row => decide (row.key ≤ block.upperLogit)) = [] :=
    filter_eq_nil_iff.mpr fun row hrow hle =>
      (h.after_apart last hlast row hrow).not_ge (hkey ▸ of_decide_eq_true hle)
  rw [h.rows_eq, upTo, filter_append, filter_append, hbefore, hrun, hafter,
    append_nil]

/-- The rates before a tile are at most its own. -/
theorem TileAt.fittedRate_le (h : TileAt good stack rows newer block older before run after)
    (hrise : RatesRise stack) (hx : x ∈ keys before) :
    fittedRate functions stack x ≤ exactRate block := by
  obtain ⟨newer', lower, older', before', run', after', htile, hmem⟩ := h.tiles.exists_tileAt hx
  obtain ⟨row, hrow, rfl⟩ := mem_keys.mp hmem
  have hstack : stack = (newer ++ block :: newer') ++ lower :: older' := by
    rw [h.stack_eq, htile.stack_eq, append_assoc, cons_append]
  have htrans : IsTrans (Block K) fun right left => exactRate left ≤ exactRate right :=
    ⟨fun _ _ _ hab hbc => hbc.trans hab⟩
  have hpairs := isChain_iff_pairwise.mp hrise
  rw [h.stack_eq, htile.stack_eq] at hpairs
  have hlower := (pairwise_cons.mp (pairwise_append.mp hpairs).2.1).1 lower (by simp)
  rw [hstack, fittedRate_of_tile htile.tiles htile.sums htile.apart hrow]
  exact hlower

variable [IsStrictOrderedRing K]

/-- A block predicts in its run exactly what was observed there. -/
theorem excess_run {fitted : K → K} {block : Block K} {run : List (OrderedRow K)}
    (hsums : Sums block run) (hweight : ∀ row ∈ run, 0 < row.weight)
    (hfitted : ∀ row ∈ run, fitted row.key = exactRate block) : excess fitted run = 0 := by
  have hpositive : 0 < block.weight := by
    obtain ⟨row, hrow, -⟩ := mem_keys.mp hsums.upper
    rw [hsums.weight]
    refine sum_pos _ (fun w hw => ?_) (ne_nil_of_mem (mem_map_of_mem hrow))
    obtain ⟨other, hother, rfl⟩ := mem_map.mp hw
    exact hweight other hother
  have hconstant : total (fun row => fitted row.key * row.weight) run =
      exactRate block * total WeightedRow.weight run := by
    rw [← total_mul_left]
    refine congrArg List.sum (map_congr_left fun row hrow => ?_)
    rw [hfitted row hrow]
  have hsum := positive_eq_excess_add fitted run
  rw [hconstant, ← hsums.positive, ← hsums.weight, exactRate,
    div_mul_cancel₀ _ hpositive.ne'] at hsum
  linarith

/-- What lies before a tile is predicted exactly. -/
theorem Tiles.excess_eq_zero {older : List (Block K)} {before : List (OrderedRow K)}
    (h : Tiles good older before) (hweight : ∀ row ∈ before, 0 < row.weight)
    (newer : List (Block K)) :
    excess (fittedRate functions (newer ++ older)) before = 0 := by
  induction h generalizing newer with
  | nil => rfl
  | @cons block blocks rows run hrows hblock hgood hapart ih =>
    have hold := ih (fun row hrow => hweight row (mem_append_left _ hrow)) (newer ++ [block])
    rw [append_assoc, singleton_append] at hold
    have hrun : excess (fittedRate functions (newer ++ block :: blocks)) run = 0 :=
      excess_run hblock (fun row hrow => hweight row (mem_append_right _ hrow))
        fun row hrow => fittedRate_of_tile hrows hblock hapart hrow
    rw [excess, total_append, ← excess, ← excess, hold, hrun, add_zero]

/-- The fit predicts the rows before a tile exactly. -/
theorem TileAt.excess_before (h : TileAt good stack rows newer block older before run after)
    (hweight : ∀ row ∈ rows, 0 < row.weight) : excess (fittedRate functions stack) before = 0 := by
  have hbefore : excess (fittedRate functions ((newer ++ [block]) ++ older)) before = 0 := by
    refine h.tiles.excess_eq_zero (fun row hrow => hweight row ?_) (newer ++ [block])
    rw [h.rows_eq]
    simp [hrow]
  rw [h.stack_eq]
  rwa [append_assoc, singleton_append] at hbefore

theorem TileAt.excess_run (h : TileAt good stack rows newer block older before run after)
    (hweight : ∀ row ∈ rows, 0 < row.weight) : excess (fittedRate functions stack) run = 0 := by
  refine Calibration.excess_run h.sums (fun row hrow => hweight row ?_) fun row hrow =>
    h.fittedRate_eq (mem_keys.mpr ⟨row, hrow, rfl⟩)
  rw [h.rows_eq]
  simp [hrow]

theorem blocky_of_tiles (h : Tiles good stack rows) (hrise : RatesRise stack)
    (hweight : ∀ row ∈ rows, 0 < row.weight) : Blocky rows (fittedRate functions stack) := by
  refine ⟨hweight, ?_, ?_, ?_⟩
  · intro x hx y hy hle
    obtain ⟨newer, block, older, before, run, after, htile, hmem⟩ := h.exists_tileAt hy
    rw [htile.fittedRate_eq hmem]
    obtain ⟨row, hrow, rfl⟩ := mem_keys.mp hx
    obtain ⟨other, hother, rfl⟩ := mem_keys.mp hmem
    rw [htile.rows_eq, mem_append, mem_append] at hrow
    rcases hrow with (hbefore | hrun) | hafter
    · exact htile.fittedRate_le hrise (mem_keys.mpr ⟨row, hbefore, rfl⟩)
    · exact (htile.fittedRate_eq (mem_keys.mpr ⟨row, hrun, rfl⟩)).le
    · exact absurd (htile.after_apart other hother row hafter) hle.not_gt
  · intro x hx
    obtain ⟨newer, block, older, before, run, after, htile, hmem⟩ := h.exists_tileAt hx
    obtain ⟨lower, hlower, hfirst⟩ := Finset.exists_min_image (keys run).toFinset id
      ⟨x, mem_toFinset.mpr hmem⟩
    rw [mem_toFinset] at hlower
    refine ⟨lower, htile.mem_keys_of_run hlower, hfirst x (mem_toFinset.mpr hmem), ?_, ?_⟩
    · rw [htile.fittedRate_eq hlower, htile.fittedRate_eq hmem]
    · rw [htile.below_eq hlower fun row hrow =>
        hfirst row.key (mem_toFinset.mpr (mem_keys.mpr ⟨row, hrow, rfl⟩))]
      exact htile.excess_before hweight
  · intro x hx
    obtain ⟨newer, block, older, before, run, after, htile, hmem⟩ := h.exists_tileAt hx
    obtain ⟨row, hrow, rfl⟩ := mem_keys.mp hmem
    refine ⟨block.upperLogit, htile.mem_keys_of_run htile.sums.upper, htile.sums.le_upper row hrow,
      ?_, ?_⟩
    · rw [htile.fittedRate_eq htile.sums.upper, htile.fittedRate_eq hmem]
    · rw [htile.upTo_eq, excess, total_append, ← excess, ← excess, htile.excess_before hweight,
        htile.excess_run hweight, add_zero]

end Blocks

/-! ## Calibration sets -/

section Sets

variable {calibration : CalibrationSet K} {calibrator : IsotonicCalibrator K}

theorem validateInOrder_eq_ok {F : Type} {ops : CalibrationFloats F} {period : CalibrationPeriod}
    {observations : List (CalibrationObservation F)} {previous : Option Int} {u : Unit}
    (h : validateInOrder ops period previous observations = .ok u) :
    ∀ observation ∈ observations, weightRejected ops observation.weight = false := by
  induction observations generalizing previous with
  | nil => exact fun observation hmem => absurd hmem not_mem_nil
  | cons first rest ih =>
    unfold validateInOrder validateObservation at h
    simp only [bind_eq_ok, reject_eq_ok, Unique.exists_iff, not_or, Bool.not_eq_true] at h
    intro observation hmem
    rcases mem_cons.mp hmem with rfl | hrest
    · exact h.1.1.2.2.2.2
    · exact ih h.2 observation hrest

theorem fit_eq_ok {F : Type} {ops : CalibrationFloats F} {calibration : CalibrationSet F}
    {calibrator : IsotonicCalibrator F}
    (h : fit ops calibration = .ok calibrator) :
    (∀ observation ∈ calibration.observations, weightRejected ops observation.weight = false) ∧
      calibrator.upperLogits = (fittedBlocks ops calibration.observations).map Block.upperLogit ∧
      calibrator.calibratedProbabilities = (fittedBlocks ops calibration.observations).map
        (fun block => boundaryTransform ops (boundaryEpsilon ops calibrator.effectiveSampleSize)
          (block.rate ops)) ∧
      calibrator.validate ops = .ok () := by
  unfold fit CalibrationSet.validate validateObservations at h
  simp only [bind_eq_ok, Unique.exists_iff, pure_eq_ok] at h
  obtain ⟨⟨-, -, -, -, hinOrder, -⟩, _, -, hvalid, rfl⟩ := h
  exact ⟨validateInOrder_eq_ok hinOrder, rfl, rfl, hvalid⟩

/-- The observations as rows, in their own order. -/
def logitRows (functions : OpenFunctions K) (calibration : CalibrationSet K) :
    List (OrderedRow K) :=
  calibration.observations.map (orderedRow (exactFloats functions))

/-- The rate that the fit gives a logit before the boundary transform. -/
def rateBeforeBoundary (functions : OpenFunctions K) (calibration : CalibrationSet K) (x : K) : K :=
  (blockRate (exactFloats functions)
    (fittedBlocks (exactFloats functions) calibration.observations) x).getD 0

theorem orderedRows_perm (observations : List (CalibrationObservation K)) :
    (orderedRows (exactFloats functions) observations).Perm
      (observations.map (orderedRow (exactFloats functions))) := perm_insertionSort _ _

theorem pairwise_orderedRows (observations : List (CalibrationObservation K)) :
    (orderedRows (exactFloats functions) observations).Pairwise
      fun left right => left.key ≤ right.key := by
  have htotal : Std.Total fun left right : OrderedRow K =>
      (exactFloats functions).totalLe left.key right.key = true :=
    ⟨fun left right => (le_total left.key right.key).imp decide_eq_true decide_eq_true⟩
  have htrans : IsTrans (OrderedRow K) fun left right =>
      (exactFloats functions).totalLe left.key right.key = true :=
    ⟨fun _ _ _ hab hbc => decide_eq_true ((of_decide_eq_true hab).trans (of_decide_eq_true hbc))⟩
  exact (pairwise_insertionSort _ _).imp fun h => of_decide_eq_true h

theorem tiles_orderedRows (functions : OpenFunctions K)
    (observations : List (CalibrationObservation K)) :
    Tiles (fun _ => True) ((orderedRows (exactFloats functions) observations).foldl
        (insertRow (exactFloats functions)) []) (orderedRows (exactFloats functions) observations) ∧
      RatesRise ((orderedRows (exactFloats functions) observations).foldl
        (insertRow (exactFloats functions)) []) :=
  tiles_fold (pairwise_orderedRows observations)

theorem weight_pos_of_fit
    (h : fit (exactFloats functions) calibration = .ok calibrator) :
    ∀ row ∈ orderedRows (exactFloats functions) calibration.observations, 0 < row.weight := by
  intro row hrow
  have hmem := (orderedRows_perm calibration.observations).mem_iff.mp hrow
  obtain ⟨observation, hobservation, rfl⟩ := mem_map.mp hmem
  have haccepted := (fit_eq_ok h).1 observation hobservation
  unfold weightRejected at haccepted
  simp only [Bool.or_eq_false_iff] at haccepted
  have hpositive : ¬ observation.weight ≤ ((0 : Nat) : K) := of_decide_eq_false haccepted.1.2
  rwa [Nat.cast_zero, not_le] at hpositive

/-- Calibrating an observed logit gives the boundary transform of the rate of its block. -/
theorem calibrateLogit_of_fit
    (h : fit (exactFloats functions) calibration = .ok calibrator) {x : K}
    (hx : x ∈ keys (logitRows functions calibration)) :
    calibrator.calibrateLogit (exactFloats functions) x =
      .ok (boundaryTransform (exactFloats functions)
        (boundaryEpsilon (exactFloats functions) calibrator.effectiveSampleSize)
        (rateBeforeBoundary functions calibration x)) := by
  obtain ⟨-, hlogits, hprobabilities, hvalid⟩ := fit_eq_ok h
  obtain ⟨htiles, -⟩ := tiles_orderedRows functions calibration.observations
  have hordered : x ∈ keys (orderedRows (exactFloats functions) calibration.observations) :=
    ((orderedRows_perm calibration.observations).map WeightedRow.key).mem_iff.mpr hx
  obtain ⟨newer, block, older, before, run, after, htile, hmem⟩ := htiles.exists_tileAt hordered
  obtain ⟨row, hrow, rfl⟩ := mem_keys.mp hmem
  have hrate : blockRate (exactFloats functions)
      (fittedBlocks (exactFloats functions) calibration.observations) row.key =
      some (exactRate block) := by
    unfold fittedBlocks
    rw [htile.stack_eq]
    exact blockRate_of_tile htile.tiles htile.sums htile.apart hrow
  unfold rateBeforeBoundary
  rw [hrate]
  unfold blockRate at hrate
  obtain ⟨found, hfound, hfoundRate⟩ := Option.map_eq_some_iff.mp hrate
  have hfinite : ¬ (exactFloats functions).isFinite row.key = false :=
    fun hfalse => Bool.noConfusion hfalse
  unfold calibrateLogit
  rw [hvalid, ok_bind, reject_neg hfinite, ok_bind, hlogits, hprobabilities, length_map,
    getElem?_map, hfound, Option.map_some, required_some, hfoundRate]
  rfl

variable [IsStrictOrderedRing K]

/-- The fit of every calibration set is by blocks. -/
theorem blocky_of_fit (h : fit (exactFloats functions) calibration = .ok calibrator) :
    Blocky (logitRows functions calibration) (rateBeforeBoundary functions calibration) := by
  obtain ⟨htiles, hrise⟩ := tiles_orderedRows functions calibration.observations
  exact (blocky_of_tiles htiles hrise (weight_pos_of_fit h)).of_perm
    (orderedRows_perm calibration.observations)

/-- Where up to no observed logit the rates predict more than was observed, they are the weighted
    least-squares fit that does not decrease, and the max-min rates. -/
theorem regression_of_excess (hfit : fit (exactFloats functions) calibration = .ok calibrator)
    (hexcess : ∀ x ∈ keys (logitRows functions calibration),
      0 ≤ excess (rateBeforeBoundary functions calibration)
        (upTo (logitRows functions calibration) x)) :
    IsLeastSquares (logitRows functions calibration) (rateBeforeBoundary functions calibration) ∧
      ∀ x ∈ keys (logitRows functions calibration), IsMaxMin (logitRows functions calibration) x
        (rateBeforeBoundary functions calibration x) :=
  ⟨isLeastSquares_of_excess (blocky_of_fit hfit) hexcess, fun _ hx =>
    isMaxMin_of_excess (blocky_of_fit hfit) hexcess hx⟩

end Sets

end CryptoIntelligence.Calibration
