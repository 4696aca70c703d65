import Mathlib.Algebra.Order.Field.Rat
import Mathlib.Algebra.Order.Floor.Ring
import Mathlib.Data.Finset.Max
import Mathlib.Data.List.GetD
import Mathlib.Data.List.Sort
import Mathlib.Data.Rat.Floor
import Mathlib.Order.Bounds.Basic
import Mathlib.Tactic.FieldSimp
import Mathlib.Tactic.Linarith

set_option autoImplicit false

/-! # Performance metrics of an equity curve

`calculate_performance_metrics` of `offline/backtests/metrics.py`, but for the four ratios that
need roots and real powers (annualised return, Sharpe, Sortino, Calmar). Its drawdowns come from
one pass with a peak that is reset; they are the maxima over pairs of points of the curve
(`drawdown_all_pairs`).
-/

namespace TradingFleet.Replay

/-! ## The single pass -/

/-- The variables of the loop. -/
structure Drawdown where
  peak : ℚ
  peakIndex : ℕ
  maxAbs : ℚ
  maxPct : ℚ
  maxUnderwater : ℕ
deriving DecidableEq, Repr

/-- One point of the curve. -/
def Drawdown.point (d : Drawdown) (index : ℕ) (equity : ℚ) : Drawdown :=
  if d.peak ≤ equity then { d with peak := equity, peakIndex := index }
  else
    let drawdownAbs := d.peak - equity
    let drawdownPct := if 0 < d.peak then drawdownAbs / d.peak else 0
    { d with
      maxAbs := max d.maxAbs drawdownAbs
      maxPct := max d.maxPct drawdownPct
      maxUnderwater := max d.maxUnderwater (index - d.peakIndex) }

def Drawdown.start (first : ℚ) : Drawdown := ⟨first, 0, 0, 0, 0⟩

/-- The loop over `enumerate(curve[1:], start=1)`. -/
def drawdownOf (first : ℚ) (rest : List ℚ) : Drawdown :=
  (rest.zipIdx 1).foldl (fun d p => d.point p.2 p.1) (Drawdown.start first)

/-! ## The other metrics -/

def isClose (a b relTol absTol : ℚ) : Bool := |a - b| ≤ max (relTol * max |a| |b|) absTol

/-- `fmean`, of a list with elements. -/
def mean (xs : List ℚ) : ℚ := xs.sum / xs.length

/-- The returns, up to the first point that is not positive, and whether there is none. -/
def periodicReturns : List ℚ → List ℚ × Bool
  | previous :: current :: rest =>
      if previous ≤ 0 then ([], false)
      else
        let later := periodicReturns (current :: rest)
        ((current / previous - 1) :: later.1, later.2)
  | _ => ([], true)

/-- The mean of the worst returns. -/
def cvarOf (returns : List ℚ) (valid : Bool) (confidence : ℚ) : Option ℚ :=
  if returns ≠ [] ∧ valid then
    let tailSize := max 1 ⌈(1 - confidence) * returns.length⌉.toNat
    some (mean ((returns.insertionSort (· ≤ ·)).take tailSize))
  else none

structure MetricsArgs where
  initialCapital : ℚ
  periodsPerYear : Option ℚ := none
  exposure : Option (List Bool) := none
  tradePnls : Option (List ℚ) := none
  turnoverNotional : ℚ := 0
  cvarConfidence : ℚ := 95 / 100

structure Performance where
  netPnl : ℚ
  returnPct : ℚ
  maxDrawdownAbs : ℚ
  maxDrawdownPct : ℚ
  maxUnderwaterPeriods : ℕ
  cvar95Pct : Option ℚ
  exposurePct : ℚ
  tradeCount : ℕ
  winRatePct : Option ℚ
  profitFactor : Option ℚ
  expectancy : Option ℚ
  turnoverPct : ℚ
deriving DecidableEq, Repr

/-- `calculate_performance_metrics`. -/
def calculatePerformanceMetrics (equityCurve : List ℚ) (args : MetricsArgs) :
    Except String Performance :=
  if args.initialCapital ≤ 0 then .error "initial_capital must be positive"
  else if ¬ (0 < args.cvarConfidence ∧ args.cvarConfidence < 1) then
    .error "cvar_confidence must be between 0 and 1"
  else
    match equityCurve with
    | [] => .error "equity_curve cannot be empty"
    | first :: rest =>
        if !isClose first args.initialCapital (1 / 10 ^ 9) (1 / 10 ^ 9) then
          .error "the first point of equity_curve must be initial_capital"
        else
          let d := drawdownOf first rest
          let returns := periodicReturns (first :: rest)
          if args.periodsPerYear.any (· ≤ 0) then .error "periods_per_year must be positive"
          else
            let last := (first :: rest).getLast (List.cons_ne_nil _ _)
            let exposureValues := args.exposure.getD []
            let pnls := args.tradePnls.getD []
            let grossProfit := (pnls.filter (0 < ·)).sum
            let grossLoss := -(pnls.filter (· < 0)).sum
            let winningTrades := pnls.countP (0 < ·)
            .ok {
              netPnl := last - args.initialCapital
              returnPct := (last / args.initialCapital - 1) * 100
              maxDrawdownAbs := d.maxAbs
              maxDrawdownPct := d.maxPct * 100
              maxUnderwaterPeriods := d.maxUnderwater
              cvar95Pct := (cvarOf returns.1 returns.2 args.cvarConfidence).map (· * 100)
              exposurePct := if exposureValues = [] then 0
                else 100 * exposureValues.count true / exposureValues.length
              tradeCount := pnls.length
              winRatePct := if pnls = [] then none else some (100 * winningTrades / pnls.length)
              profitFactor := if 0 < grossLoss then some (grossProfit / grossLoss) else none
              expectancy := if pnls = [] then none else some (mean pnls)
              turnoverPct := args.turnoverNotional / args.initialCapital * 100 }

/-! ## Maxima over pairs -/

section Pairs

variable {β : Type}

/-- What `f` takes on the pairs below `n` that are related. -/
def pairValues (R : ℕ → ℕ → Prop) (f : ℕ → ℕ → β) (n : ℕ) : Set β :=
  {b | ∃ i j, R i j ∧ j < n ∧ b = f i j}

/-- The pairs that end in one point. -/
def rowValues (R : ℕ → ℕ → Prop) (f : ℕ → ℕ → β) (n : ℕ) : Set β := {b | ∃ i, R i n ∧ b = f i n}

variable {R : ℕ → ℕ → Prop} {f : ℕ → ℕ → β}

theorem pairValues_zero : pairValues R f 0 = ∅ := by
  ext b
  simp [pairValues]

theorem pairValues_succ (n : ℕ) :
    pairValues R f (n + 1) = pairValues R f n ∪ rowValues R f n := by
  ext b
  constructor
  · rintro ⟨i, j, hR, hj, rfl⟩
    rcases Nat.lt_succ_iff_lt_or_eq.mp hj with hlt | rfl
    · exact Or.inl ⟨i, j, hR, hlt, rfl⟩
    · exact Or.inr ⟨i, hR, rfl⟩
  · rintro (⟨i, j, hR, hj, rfl⟩ | ⟨i, hR, rfl⟩)
    · exact ⟨i, j, hR, Nat.lt_succ_of_lt hj, rfl⟩
    · exact ⟨i, n, hR, Nat.lt_succ_self n, rfl⟩

end Pairs

/-! ## The running maximum -/

/-- Point `i` attains the maximum up to point `j`. -/
def RunningMax (c : ℕ → ℚ) (i j : ℕ) : Prop := i ≤ j ∧ ∀ k ≤ j, c k ≤ c i

/-- Point `i` is the last one that attains the maximum up to point `j`. -/
def LastPeak (c : ℕ → ℚ) (i j : ℕ) : Prop := RunningMax c i j ∧ ∀ k, i < k → k ≤ j → c k < c i

section Curve

variable {c : ℕ → ℚ} {i i' j : ℕ}

theorem RunningMax.eq (h : RunningMax c i j) (h' : RunningMax c i' j) : c i = c i' :=
  le_antisymm (h'.2 i h.1) (h.2 i' h'.1)

theorem LastPeak.unique (h : LastPeak c i j) (h' : LastPeak c i' j) : i = i' := by
  have heq := h.1.eq h'.1
  rcases Nat.lt_trichotomy i i' with hlt | rfl | hlt
  · exact absurd (h.2 i' hlt h'.1.1) (by rw [heq]; exact lt_irrefl _)
  · rfl
  · exact absurd (h'.2 i hlt h.1.1) (by rw [heq]; exact lt_irrefl _)

theorem LastPeak.reset (h : LastPeak c i j) (hc : c i ≤ c (j + 1)) :
    LastPeak c (j + 1) (j + 1) := by
  refine ⟨⟨le_refl _, ?_⟩, ?_⟩
  · intro k hk
    rcases Nat.le_succ_iff.mp hk with hle | rfl
    · exact le_trans (h.1.2 k hle) hc
    · exact le_refl _
  · intro k hlt hk
    omega

theorem LastPeak.below (h : LastPeak c i j) (hc : c (j + 1) < c i) : LastPeak c i (j + 1) := by
  refine ⟨⟨Nat.le_succ_of_le h.1.1, ?_⟩, ?_⟩
  · intro k hk
    rcases Nat.le_succ_iff.mp hk with hle | rfl
    · exact h.1.2 k hle
    · exact hc.le
  · intro k hlt hk
    rcases Nat.le_succ_iff.mp hk with hle | rfl
    · exact h.2 k hlt hle
    · exact hc

end Curve

/-! ## The drawdowns of a curve -/

/-- `curve[i] - curve[j]`, for `i ≤ j`. -/
def drops (c : ℕ → ℚ) : ℕ → Set ℚ := pairValues (· ≤ ·) (fun i j => c i - c j)

/-- `(curve[i] - curve[j]) / curve[i]`, where `curve[i]` is the running maximum. -/
def peakDrops (c : ℕ → ℚ) : ℕ → Set ℚ := pairValues (RunningMax c) (fun i j => (c i - c j) / c i)

/-- `(curve[i] - curve[j]) / curve[i]`, for `i ≤ j`. -/
def relativeDrops (c : ℕ → ℚ) : ℕ → Set ℚ := pairValues (· ≤ ·) (fun i j => (c i - c j) / c i)

/-- The distances from the last point that attains the running maximum to a later point strictly
below it, and `0` where there is none. -/
def underwater (c : ℕ → ℚ) (n : ℕ) : Set ℕ :=
  insert 0 (pairValues (fun i j => LastPeak c i j ∧ c j < c i) (fun i j => j - i) n)

section Rows

variable {c : ℕ → ℚ} {i j : ℕ}

/-- The greatest drop to a point is the one from the running maximum. -/
theorem row_drops (h : LastPeak c i j) :
    IsGreatest (rowValues (· ≤ ·) (fun i j => c i - c j) j) (c i - c j) := by
  constructor
  · exact ⟨i, h.1.1, rfl⟩
  · rintro b ⟨k, hk, rfl⟩
    have hle : c k ≤ c i := h.1.2 k hk
    show c k - c j ≤ c i - c j
    linarith

theorem row_peakDrops (h : LastPeak c i j) :
    IsGreatest (rowValues (RunningMax c) (fun i j => (c i - c j) / c i) j)
      ((c i - c j) / c i) := by
  constructor
  · exact ⟨i, h.1, rfl⟩
  · rintro b ⟨k, hk, rfl⟩
    show (c k - c j) / c k ≤ (c i - c j) / c i
    rw [hk.eq h.1]

theorem row_underwater (h : LastPeak c i j) (hlt : c j < c i) :
    IsGreatest (rowValues (fun i j => LastPeak c i j ∧ c j < c i) (fun i j => j - i) j)
      (j - i) := by
  constructor
  · exact ⟨i, ⟨h, hlt⟩, rfl⟩
  · rintro b ⟨k, hk, rfl⟩
    show j - k ≤ j - i
    rw [hk.1.unique h]

/-- No distance ends in a point that attains the running maximum. -/
theorem row_underwater_self (h : LastPeak c j j) :
    rowValues (fun i j => LastPeak c i j ∧ c j < c i) (fun i j => j - i) j = (∅ : Set ℕ) := by
  ext b
  constructor
  · rintro ⟨k, ⟨hk, hlt⟩, -⟩
    rw [hk.unique h] at hlt
    exact absurd hlt (lt_irrefl _)
  · exact fun hb => absurd hb (Set.notMem_empty b)

theorem underwater_succ (c : ℕ → ℚ) (n : ℕ) :
    underwater c (n + 1) = underwater c n ∪
      rowValues (fun i j => LastPeak c i j ∧ c j < c i) (fun i j => j - i) n := by
  rw [underwater, pairValues_succ, underwater, Set.insert_union]

/-- A curve drops by nothing from a point to itself. -/
theorem zero_mem_drops (c : ℕ → ℚ) (n : ℕ) : (0 : ℚ) ∈ drops c (n + 1) :=
  ⟨0, 0, le_refl 0, Nat.succ_pos n, (sub_self _).symm⟩

theorem zero_mem_peakDrops (c : ℕ → ℚ) (n : ℕ) : (0 : ℚ) ∈ peakDrops c (n + 1) := by
  refine ⟨0, 0, ⟨le_refl 0, ?_⟩, Nat.succ_pos n, ?_⟩
  · intro k hk
    rw [Nat.le_zero.mp hk]
  · show 0 = (c 0 - c 0) / c 0
    rw [sub_self, zero_div]

end Rows

/-! ## The pass tracks the maxima -/

/-- The loop after point `j`. -/
structure Tracked (c : ℕ → ℚ) (j : ℕ) (d : Drawdown) : Prop where
  peak : d.peak = c d.peakIndex
  last : LastPeak c d.peakIndex j
  abs : IsGreatest (drops c (j + 1)) d.maxAbs
  pct : IsGreatest (peakDrops c (j + 1)) d.maxPct
  water : IsGreatest (underwater c (j + 1)) d.maxUnderwater

section Pass

variable {c : ℕ → ℚ} {j : ℕ} {d : Drawdown}

theorem tracked_start (c : ℕ → ℚ) : Tracked c 0 (Drawdown.start (c 0)) := by
  have hlast : LastPeak c 0 0 := by
    refine ⟨⟨le_refl 0, ?_⟩, ?_⟩
    · intro k hk
      rw [Nat.le_zero.mp hk]
    · intro k hlt hk
      omega
  constructor
  · rfl
  · exact hlast
  · have hrow := row_drops hlast
    rw [sub_self] at hrow
    show IsGreatest (drops c (0 + 1)) 0
    rw [drops, pairValues_succ, pairValues_zero, Set.empty_union]
    exact hrow
  · have hrow := row_peakDrops hlast
    rw [sub_self, zero_div] at hrow
    show IsGreatest (peakDrops c (0 + 1)) 0
    rw [peakDrops, pairValues_succ, pairValues_zero, Set.empty_union]
    exact hrow
  · show IsGreatest (underwater c (0 + 1)) 0
    rw [underwater_succ, row_underwater_self hlast, Set.union_empty, underwater,
      pairValues_zero, insert_empty_eq]
    exact isGreatest_singleton

/-- The peak is reset: the maxima stay. -/
theorem Tracked.reset (h : Tracked c j d) (hc : d.peak ≤ c (j + 1)) :
    Tracked c (j + 1) { d with peak := c (j + 1), peakIndex := j + 1 } := by
  rw [h.peak] at hc
  have hlast := h.last.reset hc
  constructor
  · rfl
  · exact hlast
  · have hmax := h.abs.union (row_drops hlast)
    rw [sub_self, max_eq_left (h.abs.2 (zero_mem_drops c j))] at hmax
    show IsGreatest (drops c (j + 1 + 1)) d.maxAbs
    rw [drops, pairValues_succ]
    exact hmax
  · have hmax := h.pct.union (row_peakDrops hlast)
    rw [sub_self, zero_div, max_eq_left (h.pct.2 (zero_mem_peakDrops c j))] at hmax
    show IsGreatest (peakDrops c (j + 1 + 1)) d.maxPct
    rw [peakDrops, pairValues_succ]
    exact hmax
  · show IsGreatest (underwater c (j + 1 + 1)) d.maxUnderwater
    rw [underwater_succ, row_underwater_self hlast, Set.union_empty]
    exact h.water

/-- The point lies below the peak: one more pair counts for each maximum. -/
theorem Tracked.below (h : Tracked c j d) (hc : c (j + 1) < d.peak) :
    Tracked c (j + 1) { d with
      maxAbs := max d.maxAbs (d.peak - c (j + 1))
      maxPct := max d.maxPct ((d.peak - c (j + 1)) / d.peak)
      maxUnderwater := max d.maxUnderwater (j + 1 - d.peakIndex) } := by
  have hpeak := h.peak
  rw [hpeak] at hc
  have hlast := h.last.below hc
  constructor
  · exact hpeak
  · exact hlast
  · show IsGreatest (drops c (j + 1 + 1)) (max d.maxAbs (d.peak - c (j + 1)))
    rw [drops, pairValues_succ, hpeak]
    exact h.abs.union (row_drops hlast)
  · show IsGreatest (peakDrops c (j + 1 + 1)) (max d.maxPct ((d.peak - c (j + 1)) / d.peak))
    rw [peakDrops, pairValues_succ, hpeak]
    exact h.pct.union (row_peakDrops hlast)
  · show IsGreatest (underwater c (j + 1 + 1)) (max d.maxUnderwater (j + 1 - d.peakIndex))
    rw [underwater_succ]
    exact h.water.union (row_underwater hlast hc)

/-- **One point of the curve.** -/
theorem Tracked.point (hpos : 0 < c 0) (h : Tracked c j d) :
    Tracked c (j + 1) (d.point (j + 1) (c (j + 1))) := by
  unfold Drawdown.point
  by_cases hc : d.peak ≤ c (j + 1)
  · rw [if_pos hc]
    exact h.reset hc
  · rw [if_neg hc]
    have hfirst : c 0 ≤ d.peak := by
      rw [h.peak]
      exact h.last.1.2 0 (Nat.zero_le j)
    have hpeak : 0 < d.peak := lt_of_lt_of_le hpos hfirst
    dsimp only
    rw [if_pos hpeak]
    exact h.below (not_le.mp hc)

/-- **The whole pass**: the points after `j` are those of the list. -/
theorem Tracked.fold (hpos : 0 < c 0) {rest : List ℚ} (h : Tracked c j d)
    (hrest : ∀ k (hk : k < rest.length), c (j + 1 + k) = rest[k]) :
    Tracked c (j + rest.length)
      ((rest.zipIdx (j + 1)).foldl (fun d p => d.point p.2 p.1) d) := by
  induction rest generalizing j d with
  | nil => exact h
  | cons x rest ih =>
      have hx : c (j + 1) = x := hrest 0 (Nat.succ_pos _)
      have hpoint := h.point hpos
      rw [hx] at hpoint
      have hnext : ∀ k (hk : k < rest.length), c (j + 1 + 1 + k) = rest[k] := by
        intro k hk
        have hval := hrest (k + 1) (Nat.succ_lt_succ hk)
        rw [List.getElem_cons_succ] at hval
        rw [← hval]
        congr 1
        omega
      have hfold := ih hpoint hnext
      rw [List.zipIdx_cons, List.foldl_cons, List.length_cons]
      rw [show j + (rest.length + 1) = j + 1 + rest.length by omega]
      exact hfold

end Pass

/-- Where the curve is positive, a drop from the running maximum is relatively the greatest. -/
theorem relativeDrops_le {c : ℕ → ℚ} {n : ℕ} (hpos : ∀ k < n, 0 < c k) {m : ℚ}
    (h : IsGreatest (peakDrops c n) m) : IsGreatest (relativeDrops c n) m := by
  constructor
  · obtain ⟨i, j, hR, hj, rfl⟩ := h.1
    exact ⟨i, j, hR.1, hj, rfl⟩
  · rintro b ⟨i, j, hij, hj, rfl⟩
    -- the last point up to `j` with the greatest value
    obtain ⟨p, hp, hmax⟩ := Finset.exists_max_image (Finset.range (j + 1)) c ⟨0, by simp⟩
    have hpj : p ≤ j := by
      rw [Finset.mem_range] at hp
      omega
    have hrunning : RunningMax c p j :=
      ⟨hpj, fun k hk => hmax k (Finset.mem_range.mpr (Nat.lt_succ_of_le hk))⟩
    have hle := h.2 ⟨p, j, hrunning, hj, rfl⟩
    have hi : 0 < c i := hpos i (lt_of_le_of_lt hij hj)
    have hip : c i ≤ c p := hrunning.2 i hij
    have hcp : 0 < c p := lt_of_lt_of_le hi hip
    show (c i - c j) / c i ≤ m
    calc (c i - c j) / c i = 1 - c j / c i := by rw [sub_div, div_self hi.ne']
      _ ≤ 1 - c j / c p := by
          have := div_le_div_of_nonneg_left (hpos j hj).le hi hip
          linarith
      _ = (c p - c j) / c p := by rw [sub_div, div_self hcp.ne']
      _ ≤ m := hle

/-! ## The metrics -/

/-- The value at an index of the curve. -/
def equityAt (curve : List ℚ) (i : ℕ) : ℚ := curve.getD i 0

theorem tracked_drawdownOf {first : ℚ} (hpos : 0 < first) (rest : List ℚ) :
    Tracked (equityAt (first :: rest)) rest.length (drawdownOf first rest) := by
  have hvalues : ∀ k (hk : k < rest.length),
      equityAt (first :: rest) (0 + 1 + k) = rest[k] := by
    intro k hk
    rw [show 0 + 1 + k = k + 1 by omega]
    show (first :: rest).getD (k + 1) 0 = rest[k]
    rw [List.getD_cons_succ, List.getD_eq_getElem _ _ hk]
  have hzero : 0 < equityAt (first :: rest) 0 := hpos
  have hfold := Tracked.fold hzero (tracked_start (equityAt (first :: rest))) hvalues
  rw [Nat.zero_add] at hfold
  exact hfold

/-- What the metrics report of the drawdowns. -/
theorem metrics_drawdowns {curve : List ℚ} {args : MetricsArgs} {m : Performance}
    (h : calculatePerformanceMetrics curve args = .ok m) :
    ∃ first rest, curve = first :: rest ∧
      m.maxDrawdownAbs = (drawdownOf first rest).maxAbs ∧
      m.maxDrawdownPct = (drawdownOf first rest).maxPct * 100 ∧
      m.maxUnderwaterPeriods = (drawdownOf first rest).maxUnderwater := by
  unfold calculatePerformanceMetrics at h
  split at h
  · cases h
  split at h
  · cases h
  cases curve with
  | nil => cases h
  | cons first rest =>
      dsimp only at h
      split at h
      · cases h
      split at h
      · cases h
      rw [Except.ok.injEq] at h
      subst h
      exact ⟨first, rest, rfl, rfl, rfl, rfl⟩

/-- **The drawdown is the drawdown over all pairs.** For a curve that starts at a positive value,
`max_drawdown_abs` is the greatest drop from a point to a later one, `max_drawdown_pct` is 100
times the greatest relative drop from the running maximum (and, where the curve is positive, from
any earlier point), and `max_underwater_periods` is the longest distance from the last point that
attains the running maximum to a later one strictly below it. -/
theorem drawdown_all_pairs {curve : List ℚ} {args : MetricsArgs} {m : Performance}
    (hstart : 0 < equityAt curve 0) (h : calculatePerformanceMetrics curve args = .ok m) :
    IsGreatest (drops (equityAt curve) curve.length) m.maxDrawdownAbs ∧
      (∃ p, m.maxDrawdownPct = 100 * p ∧
        IsGreatest (peakDrops (equityAt curve) curve.length) p ∧
        ((∀ x ∈ curve, 0 < x) → IsGreatest (relativeDrops (equityAt curve) curve.length) p)) ∧
      IsGreatest (underwater (equityAt curve) curve.length) m.maxUnderwaterPeriods := by
  obtain ⟨first, rest, rfl, habs, hpct, hwater⟩ := metrics_drawdowns h
  have hfirst : 0 < first := hstart
  have htracked := tracked_drawdownOf hfirst rest
  rw [habs, hwater, List.length_cons]
  refine ⟨htracked.abs, ⟨(drawdownOf first rest).maxPct, ?_, htracked.pct, ?_⟩, htracked.water⟩
  · rw [hpct, mul_comm]
  · intro hpositive
    apply relativeDrops_le _ htracked.pct
    intro k hk
    have hval : equityAt (first :: rest) k = (first :: rest)[k] := List.getD_eq_getElem _ _ hk
    rw [hval]
    exact hpositive _ (List.getElem_mem hk)

/-- A curve whose peak is reset by a tie, and whose deepest drop is not its relatively deepest. -/
def tiedCurve : List ℚ := [10, 5, 10, 20, 20, 12, 14]

/-- Its drawdowns are 8, 50 percent and two periods. -/
theorem tied_curve_drawdowns :
    IsGreatest (drops (equityAt tiedCurve) 7) 8 ∧
      IsGreatest (underwater (equityAt tiedCurve) 7) 2 := by
  have hpos : 0 < equityAt tiedCurve 0 := by decide +kernel
  have h : calculatePerformanceMetrics tiedCurve { initialCapital := 10 } = .ok {
      netPnl := 4, returnPct := 40, maxDrawdownAbs := 8, maxDrawdownPct := 50,
      maxUnderwaterPeriods := 2, cvar95Pct := some (-50), exposurePct := 0, tradeCount := 0,
      winRatePct := none, profitFactor := none, expectancy := none, turnoverPct := 0 } := by
    decide +kernel
  have hmetrics := drawdown_all_pairs hpos h
  exact ⟨hmetrics.1, hmetrics.2.2⟩

end TradingFleet.Replay
