import Mathlib.Algebra.Order.BigOperators.Group.List
import Mathlib.Algebra.BigOperators.Group.List.Basic
import Mathlib.Order.Bounds.Basic
import Mathlib.Tactic.FieldSimp
import Mathlib.Tactic.Linarith
import TradingFleet.Prices.Window
import TradingFleet.SpotDca.Types

set_option autoImplicit false

/-! # The extremes of a window

The minimum of a window is the average of the prices that are close to the lowest one, and its
index the average of the indices whose prices are close to that average. Closeness is not
transitive, but the average lies between the lowest price and a price close to it, so the lowest
price is close to it too (`closeTo_average_min`). Closeness compares with the mean of the two
prices: against the lowest price itself the minimum can be off by a little more than 0.01 percent.
-/

namespace TradingFleet.Prices

open TradingFleet.SpotDca (areClose diffPercent)

/-! ## The code -/

/-- `sum(xs) / len(xs)`. -/
def average (xs : List ℚ) : ℚ := xs.sum / xs.length

/-- Two prices within 0.01 percent. -/
def nearPrice (x y : ℚ) : Bool := areClose x y (1 / 100)

/-- The average of the prices close to `extreme`. -/
def closeAverage (prices : List ℚ) (extreme : ℚ) : ℚ :=
  let close := prices.filter (fun x => nearPrice x extreme)
  if close = [] then extreme else average close

/-- The indices of the prices close to `extreme`, averaged. -/
def centroidIndex (prices : List ℚ) (extreme : ℚ) : Option ℚ :=
  let indices := (prices.zipIdx.filter (fun p => nearPrice p.1 extreme)).map Prod.snd
  if indices = [] then none else some (average (indices.map (fun i : ℕ => (i : ℚ))))

namespace PriceWindow

def getMin (w : PriceWindow ℚ) : Option ℚ :=
  w.sortedPrices.head?.map (closeAverage w.sortedPrices)

/-- The prices are averaged from the highest one on. -/
def getMax (w : PriceWindow ℚ) : Option ℚ :=
  w.sortedPrices.getLast?.map (closeAverage w.sortedPrices.reverse)

def getMinAndIndex (w : PriceWindow ℚ) : Option ℚ × Option ℚ :=
  (w.getMin, w.getMin.bind (centroidIndex w.prices))

def getMaxAndIndex (w : PriceWindow ℚ) : Option ℚ × Option ℚ :=
  (w.getMax, w.getMax.bind (centroidIndex w.prices))

/-- `calculate_slope_max_min`. Subtracting from a missing index raises. -/
def calculateSlopeMaxMin (w : PriceWindow ℚ) : Option ℚ :=
  if w.sortedPrices.length < 2 then some 0
  else
    match w.getMinAndIndex, w.getMaxAndIndex with
    | (some minPrice, minIndex), (some maxPrice, maxIndex) =>
        if maxIndex = minIndex then some 0
        else
          match minIndex, maxIndex with
          | some i, some j => some ((maxPrice - minPrice) / (j - i))
          | _, _ => none
    | _, _ => some 0

/-- `calculate_positions`. -/
def calculatePositions (w : PriceWindow ℚ) : Option ℚ × Option ℚ :=
  (w.getMinAndIndex.2.map (· / w.windowSize), w.getMaxAndIndex.2.map (· / w.windowSize))

/-- `calculate_proximities`. -/
def calculateProximities (w : PriceWindow ℚ) (currentPrice : ℚ) : ℚ × ℚ :=
  match w.getMin, w.getMax with
  | some minPrice, some maxPrice =>
      if maxPrice = minPrice then (0, 0)
      else
        (max ((currentPrice - minPrice) / (maxPrice - minPrice)) 0,
          max ((maxPrice - currentPrice) / (maxPrice - minPrice)) 0)
  | _, _ => (0, 0)

end PriceWindow

/-! ## Averages -/

theorem average_bounds {xs : List ℚ} {a b : ℚ} (hne : xs ≠ [])
    (h : ∀ x ∈ xs, a ≤ x ∧ x ≤ b) : a ≤ average xs ∧ average xs ≤ b := by
  have hlength : (0 : ℚ) < xs.length := by
    exact_mod_cast List.length_pos_of_ne_nil hne
  have hlow := List.card_nsmul_le_sum xs a (fun x hx => (h x hx).1)
  have hhigh := List.sum_le_card_nsmul xs b (fun x hx => (h x hx).2)
  rw [nsmul_eq_mul] at hlow hhigh
  unfold average
  rw [le_div_iff₀ hlength, div_le_iff₀ hlength]
  constructor
  · linarith
  · linarith

/-! ## Closeness -/

theorem nearPrice_iff {x y : ℚ} (hx : 0 < x) (hy : 0 < y) :
    nearPrice x y = true ↔ 20000 * |(x - y)| ≤ x + y := by
  have hsum : 0 < (x + y) / 2 := by linarith
  unfold nearPrice areClose diffPercent
  rw [decide_eq_true_eq, if_neg (fun h => hx.ne' h.1), abs_of_pos hx, abs_of_pos hy,
    div_mul_eq_mul_div, div_le_iff₀ hsum]
  constructor <;> intro h <;> linarith

/-- Closeness to a lower price. -/
theorem nearPrice_iff_of_le {x y : ℚ} (hy : 0 < y) (h : y ≤ x) :
    (nearPrice x y = true ↔ 19999 * x ≤ 20001 * y) ∧
      (nearPrice y x = true ↔ 19999 * x ≤ 20001 * y) := by
  have hx : 0 < x := lt_of_lt_of_le hy h
  rw [nearPrice_iff hx hy, nearPrice_iff hy hx, abs_sub_comm y x, abs_of_nonneg (by linarith)]
  constructor <;> constructor <;> intro hle <;> linarith

/-- The prices close to the lowest one average to a price that is close to it. -/
theorem closeTo_average_min {prices : List ℚ} {m : ℚ} (hm : 0 < m) (hmem : m ∈ prices)
    (hleast : ∀ x ∈ prices, m ≤ x) :
    m ≤ closeAverage prices m ∧ 19999 * closeAverage prices m ≤ 20001 * m := by
  have hself : m ∈ prices.filter (fun x => nearPrice x m) := by
    rw [List.mem_filter, (nearPrice_iff_of_le hm (le_refl m)).1]
    exact ⟨hmem, by linarith⟩
  have hne : prices.filter (fun x => nearPrice x m) ≠ [] := List.ne_nil_of_mem hself
  have hbounds : m ≤ average (prices.filter (fun x => nearPrice x m)) ∧
      average (prices.filter (fun x => nearPrice x m)) ≤ 20001 * m / 19999 := by
    apply average_bounds hne
    intro x hx
    obtain ⟨hx, hclose⟩ := List.mem_filter.mp hx
    have hle := hleast x hx
    refine ⟨hle, ?_⟩
    have := (nearPrice_iff_of_le hm hle).1.mp hclose
    rw [le_div_iff₀ (by norm_num)]
    linarith
  unfold closeAverage
  rw [if_neg hne]
  refine ⟨hbounds.1, ?_⟩
  have := (le_div_iff₀ (by norm_num : (0 : ℚ) < 19999)).mp hbounds.2
  linarith

/-- The prices close to the highest one average to a price that is close to it. -/
theorem closeTo_average_max {prices : List ℚ} {M : ℚ} (hpos : ∀ x ∈ prices, 0 < x)
    (hmem : M ∈ prices) (hgreatest : ∀ x ∈ prices, x ≤ M) :
    closeAverage prices M ≤ M ∧ 19999 * M ≤ 20001 * closeAverage prices M := by
  have hM : 0 < M := hpos M hmem
  have hself : M ∈ prices.filter (fun x => nearPrice x M) := by
    rw [List.mem_filter, (nearPrice_iff_of_le hM (le_refl M)).1]
    exact ⟨hmem, by linarith⟩
  have hne : prices.filter (fun x => nearPrice x M) ≠ [] := List.ne_nil_of_mem hself
  have hbounds : 19999 * M / 20001 ≤ average (prices.filter (fun x => nearPrice x M)) ∧
      average (prices.filter (fun x => nearPrice x M)) ≤ M := by
    apply average_bounds hne
    intro x hx
    obtain ⟨hx, hclose⟩ := List.mem_filter.mp hx
    have hle := hgreatest x hx
    refine ⟨?_, hle⟩
    have := (nearPrice_iff_of_le (hpos x hx) hle).2.mp hclose
    rw [div_le_iff₀ (by norm_num)]
    linarith
  unfold closeAverage
  rw [if_neg hne]
  refine ⟨hbounds.2, ?_⟩
  have := (div_le_iff₀ (by norm_num : (0 : ℚ) < 20001)).mp hbounds.1
  linarith

/-! ## Indices -/

/-- Where a price is close, the centroid of the indices lies in the list. -/
theorem centroidIndex_bounds {prices : List ℚ} {extreme x : ℚ} (hmem : x ∈ prices)
    (hclose : nearPrice x extreme = true) :
    ∃ i, centroidIndex prices extreme = some i ∧ 0 ≤ i ∧ i ≤ prices.length - 1 := by
  set indices := (prices.zipIdx.filter (fun p => nearPrice p.1 extreme)).map Prod.snd with hdef
  have hne : indices ≠ [] := by
    obtain ⟨k, hk⟩ := List.mem_iff_getElem?.mp hmem
    have hpair : (x, k) ∈ prices.zipIdx.filter (fun p => nearPrice p.1 extreme) :=
      List.mem_filter.mpr ⟨List.mk_mem_zipIdx_iff_getElem?.mpr hk, hclose⟩
    exact List.ne_nil_of_mem (List.mem_map_of_mem hpair)
  have hbounds : ∀ i ∈ indices.map (fun i : ℕ => (i : ℚ)),
      (0 : ℚ) ≤ i ∧ i ≤ prices.length - 1 := by
    intro i hi
    obtain ⟨k, hk, rfl⟩ := List.mem_map.mp hi
    obtain ⟨p, hp, rfl⟩ := List.mem_map.mp hk
    have hlt := List.snd_lt_of_mem_zipIdx (List.mem_filter.mp hp).1
    have hle : p.2 + 1 ≤ prices.length := by omega
    have hle' : ((p.2 + 1 : ℕ) : ℚ) ≤ prices.length := by exact_mod_cast hle
    push_cast at hle'
    exact ⟨Nat.cast_nonneg _, by linarith⟩
  have haverage := average_bounds (fun h => hne (List.map_eq_nil_iff.mp h)) hbounds
  refine ⟨average (indices.map (fun i : ℕ => (i : ℚ))), ?_, haverage.1, haverage.2⟩
  unfold centroidIndex
  dsimp only
  rw [← hdef, if_neg hne]

/-! ## The extremes of a window -/

section Window

variable {w : PriceWindow ℚ}

/-- The lowest price is the first of the sorted ones. -/
theorem head_isLeast (h : w.Represents) {m : ℚ} {rest : List ℚ}
    (hsorted : w.sortedPrices = m :: rest) : IsLeast {x | x ∈ w.prices} m := by
  have hle := h.sorted
  rw [hsorted, List.pairwise_cons] at hle
  constructor
  · show m ∈ w.prices
    rw [← h.perm.mem_iff, hsorted]
    exact List.mem_cons_self
  · intro x hx
    have hmem : x ∈ w.sortedPrices := h.perm.mem_iff.mpr hx
    rw [hsorted] at hmem
    rcases List.mem_cons.mp hmem with rfl | hrest
    · exact le_refl _
    · exact hle.1 x hrest

/-- The highest price is the last of the sorted ones. -/
theorem getLast_isGreatest (h : w.Represents) {M : ℚ}
    (hlast : w.sortedPrices.getLast? = some M) : IsGreatest {x | x ∈ w.prices} M := by
  obtain ⟨init, hsorted⟩ := List.getLast?_eq_some_iff.mp hlast
  have hle := h.sorted
  rw [hsorted, List.pairwise_append] at hle
  constructor
  · show M ∈ w.prices
    rw [← h.perm.mem_iff, hsorted]
    exact List.mem_append_right _ (List.mem_singleton.mpr rfl)
  · intro x hx
    have hmem : x ∈ w.sortedPrices := h.perm.mem_iff.mpr hx
    rw [hsorted] at hmem
    rcases List.mem_append.mp hmem with hinit | hself
    · exact hle.2.2 x hinit M (List.mem_singleton.mpr rfl)
    · exact (List.mem_singleton.mp hself).le

/-- An extreme with its index: close to the true one, and in the window. -/
structure Found (w : PriceWindow ℚ) (price index extreme : ℚ) : Prop where
  near : diffPercent price extreme ≤ 1 / 100
  index : 0 ≤ index ∧ index ≤ w.prices.length - 1

theorem getMin_found (h : w.Represents) (hne : w.prices ≠ []) (hpos : ∀ x ∈ w.prices, 0 < x) :
    ∃ m lo i, IsLeast {x | x ∈ w.prices} m ∧ w.getMin = some lo ∧
      w.getMinAndIndex = (some lo, some i) ∧ Found w lo i m ∧ m ≤ lo ∧
      19999 * lo ≤ 20001 * m := by
  cases hsorted : w.sortedPrices with
  | nil =>
      have hnil := h.perm
      rw [hsorted] at hnil
      exact absurd hnil.nil_eq.symm hne
  | cons m rest =>
      have hleast := head_isLeast h hsorted
      have hm : 0 < m := hpos m hleast.1
      have hmem : m ∈ w.sortedPrices := h.perm.mem_iff.mpr hleast.1
      have hbelow : ∀ x ∈ w.sortedPrices, m ≤ x :=
        fun x hx => hleast.2 (h.perm.mem_iff.mp hx)
      obtain ⟨hlow, hhigh⟩ := closeTo_average_min hm hmem hbelow
      have hnear := nearPrice_iff_of_le hm hlow
      obtain ⟨i, hi, hrange⟩ := centroidIndex_bounds hleast.1 (hnear.2.mpr hhigh)
      have hmin : w.getMin = some (closeAverage w.sortedPrices m) := by
        rw [PriceWindow.getMin]
        conv_lhs => rw [show w.sortedPrices.head? = some m by rw [hsorted]; rfl]
        rfl
      refine ⟨m, _, i, hleast, hmin, ?_, ⟨of_decide_eq_true (hnear.1.mpr hhigh), hrange⟩,
        hlow, hhigh⟩
      rw [PriceWindow.getMinAndIndex, hmin]
      exact congrArg (Prod.mk _) hi

theorem getMax_found (h : w.Represents) (hne : w.prices ≠ []) (hpos : ∀ x ∈ w.prices, 0 < x) :
    ∃ M hi j, IsGreatest {x | x ∈ w.prices} M ∧ w.getMax = some hi ∧
      w.getMaxAndIndex = (some hi, some j) ∧ Found w hi j M ∧ hi ≤ M ∧
      19999 * M ≤ 20001 * hi := by
  cases hlast : w.sortedPrices.getLast? with
  | none =>
      have hnil := h.perm
      rw [List.getLast?_eq_none_iff.mp hlast] at hnil
      exact absurd hnil.nil_eq.symm hne
  | some M =>
      have hgreatest := getLast_isGreatest h hlast
      have hmem : M ∈ w.sortedPrices.reverse :=
        List.mem_reverse.mpr (h.perm.mem_iff.mpr hgreatest.1)
      have hprices : ∀ x ∈ w.sortedPrices.reverse, x ∈ w.prices :=
        fun x hx => h.perm.mem_iff.mp (List.mem_reverse.mp hx)
      obtain ⟨hhigh, hlow⟩ := closeTo_average_max (fun x hx => hpos x (hprices x hx)) hmem
        (fun x hx => hgreatest.2 (hprices x hx))
      have hM : 0 < M := hpos M hgreatest.1
      have haverage : 0 < closeAverage w.sortedPrices.reverse M := by linarith
      have hnear := nearPrice_iff_of_le haverage hhigh
      obtain ⟨j, hj, hrange⟩ := centroidIndex_bounds hgreatest.1 (hnear.1.mpr hlow)
      have hmax : w.getMax = some (closeAverage w.sortedPrices.reverse M) := by
        rw [PriceWindow.getMax, hlast]
        rfl
      refine ⟨M, _, j, hgreatest, hmax, ?_, ⟨of_decide_eq_true (hnear.2.mpr hlow), hrange⟩,
        hhigh, hlow⟩
      rw [PriceWindow.getMaxAndIndex, hmax]
      exact congrArg (Prod.mk _) hj

/-! ## What is derived from them -/

/-- The slope of a window with positive prices never fails. -/
theorem calculateSlopeMaxMin_isSome (h : w.Represents) (hpos : ∀ x ∈ w.prices, 0 < x) :
    (w.calculateSlopeMaxMin).isSome := by
  unfold PriceWindow.calculateSlopeMaxMin
  split
  · rfl
  · rename_i hlength
    have hne : w.prices ≠ [] := by
      intro hnil
      rw [h.perm.length_eq, hnil] at hlength
      simp at hlength
    obtain ⟨-, lo, i, -, -, hmin, -⟩ := getMin_found h hne hpos
    obtain ⟨-, hi, j, -, -, hmax, -⟩ := getMax_found h hne hpos
    rw [hmin, hmax]
    dsimp only
    split
    · rfl
    · rfl

/-- The positions of the extremes lie in `[0, 1)`. -/
theorem calculatePositions_range (h : w.Represents) (hne : w.prices ≠ [])
    (hpos : ∀ x ∈ w.prices, 0 < x) :
    ∃ p q, w.calculatePositions = (some p, some q) ∧ 0 ≤ p ∧ p < 1 ∧ 0 ≤ q ∧ q < 1 := by
  obtain ⟨m, lo, i, -, -, hmin, hlo, -⟩ := getMin_found h hne hpos
  obtain ⟨M, hi, j, -, -, hmax, hhi, -⟩ := getMax_found h hne hpos
  have hsize : (0 : ℚ) < w.windowSize := by exact_mod_cast h.positive
  have hfits : (w.prices.length : ℚ) ≤ w.windowSize := by exact_mod_cast h.fits
  have hindex : ∀ {k : ℚ}, 0 ≤ k ∧ k ≤ w.prices.length - 1 →
      0 ≤ k / w.windowSize ∧ k / w.windowSize < 1 := by
    intro k hk
    refine ⟨div_nonneg hk.1 hsize.le, ?_⟩
    rw [div_lt_one hsize]
    linarith [hk.2]
  refine ⟨i / w.windowSize, j / w.windowSize, ?_, (hindex hlo.index).1, (hindex hlo.index).2,
    (hindex hhi.index).1, (hindex hhi.index).2⟩
  rw [PriceWindow.calculatePositions, hmin, hmax]
  rfl

/-- Between two different extremes, the proximities are shares that sum to 1. -/
theorem calculateProximities_sum {lo hi currentPrice : ℚ} (hmin : w.getMin = some lo)
    (hmax : w.getMax = some hi) (hlo : lo ≤ currentPrice) (hhi : currentPrice ≤ hi)
    (hlt : lo < hi) :
    (w.calculateProximities currentPrice).1 + (w.calculateProximities currentPrice).2 = 1 := by
  have hspan : 0 < hi - lo := sub_pos.mpr hlt
  unfold PriceWindow.calculateProximities
  rw [hmin, hmax]
  dsimp only
  rw [if_neg hlt.ne', max_eq_left (div_nonneg (sub_nonneg.mpr hlo) hspan.le),
    max_eq_left (div_nonneg (sub_nonneg.mpr hhi) hspan.le), ← add_div]
  rw [show currentPrice - lo + (hi - currentPrice) = hi - lo by ring, div_self hspan.ne']

end Window

/-! ## Every run -/

/-- **The price window representation holds.** After any calls, for prices of any total order, the
sorted prices are the sorted permutation of the prices and fit the window. For positive prices
the extremes of a window that is not empty come with an index in the window; both are within 0.01
percent of the true ones in the measure of `are_close`, the maximum also relative to the true
maximum, and the minimum relative to itself. -/
theorem price_window_represents :
    (∀ (α : Type) [LinearOrder α] (windowSize : ℕ) (rate : Option ℚ) (initial : List α)
      (seconds : Option ℚ) (calls : List (WindowCall α)), 0 < windowSize →
        ∃ w, PriceWindow.run windowSize rate initial seconds calls = some w ∧
          w.sortedPrices.Perm w.prices ∧ w.sortedPrices.Pairwise (· ≤ ·) ∧
          w.prices.length ≤ w.windowSize) ∧
    ∀ (windowSize : ℕ) (rate : Option ℚ) (initial : List ℚ) (seconds : Option ℚ)
      (calls : List (WindowCall ℚ)) (w : PriceWindow ℚ), 0 < windowSize →
        PriceWindow.run windowSize rate initial seconds calls = some w → w.prices ≠ [] →
        (∀ x ∈ w.prices, 0 < x) →
          (∃ m lo i, IsLeast {x | x ∈ w.prices} m ∧ w.getMin = some lo ∧
            w.getMinAndIndex = (some lo, some i) ∧ 0 ≤ i ∧ i ≤ w.prices.length - 1 ∧
            m ≤ lo ∧ diffPercent lo m ≤ 1 / 100 ∧ lo - m ≤ lo / 10000) ∧
          ∃ M hi j, IsGreatest {x | x ∈ w.prices} M ∧ w.getMax = some hi ∧
            w.getMaxAndIndex = (some hi, some j) ∧ 0 ≤ j ∧ j ≤ w.prices.length - 1 ∧
            hi ≤ M ∧ diffPercent hi M ≤ 1 / 100 ∧ M - hi ≤ M / 10000 := by
  constructor
  · intro α _ windowSize rate initial seconds calls hpos
    obtain ⟨w, hrun, h⟩ := PriceWindow.run_represents hpos rate initial seconds calls
    exact ⟨w, hrun, h.perm, h.sorted, h.fits⟩
  · intro windowSize rate initial seconds calls w hsize hrun hne hpos
    obtain ⟨w', hrun', h⟩ := PriceWindow.run_represents hsize rate initial seconds calls
    -- the run is a function of the calls, so both windows are one
    rw [hrun, Option.some.injEq] at hrun'
    subst hrun'
    obtain ⟨m, lo, i, hleast, hmin, hboth, hfound, hle, hclose⟩ := getMin_found h hne hpos
    obtain ⟨M, hi, j, hgreatest, hmax, hboth', hfound', hle', hclose'⟩ := getMax_found h hne hpos
    have hm : 0 < m := hpos m hleast.1
    have hM : 0 < M := hpos M hgreatest.1
    refine ⟨⟨m, lo, i, hleast, hmin, hboth, hfound.index.1, hfound.index.2, hle, hfound.near,
      ?_⟩, M, hi, j, hgreatest, hmax, hboth', hfound'.index.1, hfound'.index.2, hle',
      hfound'.near, ?_⟩
    · -- the distance in percent, without the percent
      rw [le_div_iff₀ (by norm_num)]
      linarith
    · rw [le_div_iff₀ (by norm_num)]
      linarith

/-- A window of three prices after a fourth one, with the lowest price twice. -/
def smallWindow : PriceWindow ℚ where
  windowSize := 3
  sampleRateSec := 2
  windowSeconds := none
  prices := [3, 4, 3]
  sortedPrices := [3, 3, 4]

theorem small_window_found :
    (∃ w, PriceWindow.run 3 none [5, 3, 4] none
        [.processPrice (3 : ℚ), .setSampleRate (some 2)] = some w ∧
      w.sortedPrices.Perm w.prices ∧ w.sortedPrices.Pairwise (· ≤ ·) ∧
      w.prices.length ≤ w.windowSize) ∧
    ∃ m lo i, IsLeast {x | x ∈ smallWindow.prices} m ∧ smallWindow.getMin = some lo ∧
      smallWindow.getMinAndIndex = (some lo, some i) ∧ 0 ≤ i ∧
      i ≤ smallWindow.prices.length - 1 ∧ m ≤ lo ∧ diffPercent lo m ≤ 1 / 100 ∧
      lo - m ≤ lo / 10000 := by
  have hrun : PriceWindow.run 3 none [5, 3, 4] none
      [.processPrice (3 : ℚ), .setSampleRate (some 2)] = some smallWindow := by
    decide +kernel
  have hpos : ∀ x ∈ smallWindow.prices, 0 < x := by
    decide +kernel
  constructor
  · exact price_window_represents.1 ℚ 3 none [5, 3, 4] none _ (by decide)
  · exact (price_window_represents.2 3 none [5, 3, 4] none _ smallWindow (by decide) hrun
      (List.cons_ne_nil _ _) hpos).1

/-- One price at 19999, then 20000 prices at 20001. -/
def steepPrices : List ℚ := 19999 :: List.replicate 20000 20001

theorem steepPrices_sorted : steepPrices.Pairwise (· ≤ ·) := by
  unfold steepPrices
  rw [List.pairwise_cons]
  constructor
  · intro x hx
    rw [(List.mem_replicate.mp hx).2]
    norm_num
  · rw [List.pairwise_replicate]
    exact Or.inr (le_refl _)

/-- All of them are close to the lowest one. -/
theorem steepPrices_average :
    closeAverage steepPrices 19999 = (19999 + 20000 * 20001) / 20001 := by
  have hlow : (0 : ℚ) < 19999 := by norm_num
  have hall : steepPrices.filter (fun x => nearPrice x 19999) = steepPrices := by
    rw [List.filter_eq_self]
    intro x hx
    rcases List.mem_cons.mp hx with rfl | hrest
    · rw [(nearPrice_iff_of_le hlow (le_refl _)).1]
      norm_num
    · rw [(List.mem_replicate.mp hrest).2, (nearPrice_iff_of_le hlow (by norm_num)).1]
      norm_num
  have hne : steepPrices ≠ [] := List.cons_ne_nil _ _
  unfold closeAverage
  rw [hall]
  dsimp only
  rw [if_neg hne]
  unfold average steepPrices
  rw [List.sum_cons, List.sum_replicate, List.length_cons, List.length_replicate]
  norm_num

/-- In a window of these prices the minimum is 20000.9999, which is above 19999 by more than
0.01 percent of it. -/
theorem minimum_off_in_long_window :
    ∃ w lo, PriceWindow.run 20001 none steepPrices none [] = some w ∧
      IsLeast {x | x ∈ w.prices} 19999 ∧ w.getMin = some lo ∧ 19999 / 10000 < lo - 19999 := by
  have hlength : steepPrices.length ≤ 20001 := by
    rw [steepPrices, List.length_cons, List.length_replicate]
  obtain ⟨w, hrun, h, hsorted⟩ :=
    PriceWindow.run_sorted (by norm_num) hlength steepPrices_sorted
  have hmin : w.getMin = some (closeAverage w.sortedPrices 19999) := by
    rw [PriceWindow.getMin, hsorted, steepPrices, List.head?_cons, Option.map_some]
  rw [hsorted, steepPrices_average] at hmin
  exact ⟨w, _, hrun, head_isLeast h hsorted, hmin, by norm_num⟩

end TradingFleet.Prices
