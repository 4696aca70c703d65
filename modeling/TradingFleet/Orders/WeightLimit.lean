import Mathlib.Algebra.Order.BigOperators.Group.List
import Mathlib.Tactic.FieldSimp
import TradingFleet.Basic.Runs
import TradingFleet.Pair.Types

set_option autoImplicit false

/-! # The daily weight limit

`apply_weight_limit` of `bapi_placeorder.py` caps an order by a share of what was traded in the
last 24 hours and is still available. The reference of the cap moves with every fill, but its two
parts move against each other: at one price their sum stays. The traded value, however, is read
rounded to eight decimals, so the cap is kept up to the share of half a unit in that place
(`weight_cap_not_split`).
-/

namespace TradingFleet.Orders

open Pair (Side)
open Rounding (roundTo)
open TradingFleet.Runs

/-! ## The code -/

/-- A row of `get_trade_orders`, with its time in milliseconds. -/
structure TradeRow where
  side : Side
  price : ℚ
  quantity : ℚ
  timestamp : ℚ

/-- 24 hours. -/
def windowMs : ℚ := 86400000

/-- `get_total_traded_stats(symbol)[side]["total_value"]` at a time. -/
def totalValue (rows : List TradeRow) (side : Side) (nowMs : ℚ) : ℚ :=
  roundTo ((rows.filter (fun r => r.side = side && nowMs - r.timestamp ≤ windowMs)).map
    (fun r => r.price * r.quantity)).sum 8

/-- `_fail_open_or_refuse`. -/
def failOpenOrRefuse (side : Side) (availableQty : ℚ) (reason : String) : Except String ℚ :=
  match side with
  | .sell => .ok availableQty
  | .buy => .error reason

/-- `adjusted_qty`. -/
def adjustedQty (price requiredQty availableQty weight tradedValue : ℚ) : ℚ :=
  let totalValueReference := tradedValue + availableQty * price
  let maxTradeValue := totalValueReference * weight
  let remainingTradeValue := max 0 (maxTradeValue - tradedValue)
  min requiredQty (remainingTradeValue / price)

/-- `apply_weight_limit`. Without a required quantity all that is available is meant. The weight
and the traded value are absent when their reads raise. -/
def applyWeightLimit (side : Side) (price : ℚ) (requiredQty : Option ℚ) (availableQty : ℚ)
    (weight tradedValue : Option ℚ) : Except String ℚ :=
  if price ≤ 0 ∨ availableQty ≤ 0 ∨ requiredQty.getD 1 ≤ 0 then
    .error "invalid_weight_policy_inputs"
  else
    match weight with
    | none => failOpenOrRefuse side availableQty "weight_policy_unavailable"
    | some w =>
        if ¬ (0 < w ∧ w ≤ 1) then .error "invalid_weight_policy_weight"
        else
          match tradedValue with
          | none => failOpenOrRefuse side availableQty "trade_stats_unavailable"
          | some t =>
              if t < 0 then .error "invalid_trade_stats"
              else .ok (adjustedQty price (requiredQty.getD availableQty) availableQty w t)

/-! ## Orders of one side at one price -/

/-- The trades of the cache and what is available on this side. -/
structure Desk where
  rows : List TradeRow
  available : ℚ

structure QtyRequest where
  required : Option ℚ
  nowMs : ℚ

section Desk

variable (side : Side) (price w : ℚ)

/-- The quantity a request gets. -/
def sized (d : Desk) (r : QtyRequest) : Except String ℚ :=
  applyWeightLimit side price r.required d.available (some w)
    (some (totalValue d.rows side r.nowMs))

/-- The quantity is ordered and filled in full. -/
def fillRequest (d : Desk) (r : QtyRequest) : Desk :=
  match sized side price w d r with
  | .ok q => ⟨d.rows ++ [⟨side, price, q, r.nowMs⟩], d.available - q⟩
  | .error _ => d

/-- What was traded on this side since a time. -/
def tradedSince (start : ℚ) (d : Desk) : ℚ :=
  ((d.rows.filter (fun r => r.side = side && start ≤ r.timestamp)).map
    (fun r => r.price * r.quantity)).sum

end Desk

/-- The requests fall into 24 hours, and every earlier trade counts for all of them or for none. -/
structure Windowed (start : ℚ) (d : Desk) (requests : List QtyRequest) : Prop where
  times : ∀ r ∈ requests, start ≤ r.nowMs ∧ r.nowMs ≤ start + windowMs
  rows : ∀ x ∈ d.rows, start ≤ x.timestamp ∨ ∀ r ∈ requests, windowMs < r.nowMs - x.timestamp

/-- Half a unit in the eighth decimal. -/
def readingError : ℚ := 1 / 200000000

section Cap

variable {side : Side} {price w start : ℚ} {d : Desk} {r : QtyRequest} {requests : List QtyRequest}

/-! ## One request -/

/-- In the window, the traded value is what was traded since its start, rounded. -/
theorem totalValue_eq (h : Windowed start d requests) (hr : r ∈ requests) :
    totalValue d.rows side r.nowMs = roundTo (tradedSince side start d) 8 := by
  have hsame : d.rows.filter (fun x => x.side = side && r.nowMs - x.timestamp ≤ windowMs) =
      d.rows.filter (fun x => x.side = side && start ≤ x.timestamp) := by
    refine List.filter_congr (fun x hx => ?_)
    congr 1
    have hnow := (h.times r hr).2
    rw [decide_eq_decide]
    constructor
    · intro hold
      rcases h.rows x hx with hin | hout
      · exact hin
      · exact absurd hold (not_le.mpr (hout r hr))
    · intro hin
      linarith
  unfold totalValue
  rw [hsame]
  rfl

theorem totalValue_near (side : Side) (h : Windowed start d requests) (hr : r ∈ requests) :
    |totalValue d.rows side r.nowMs - tradedSince side start d| ≤ readingError := by
  rw [totalValue_eq h hr]
  refine le_trans (Rounding.roundTo_near _ _) ?_
  unfold readingError
  norm_num

/-- What a request that is not refused gets. -/
theorem sized_ok {q : ℚ} (h : sized side price w d r = .ok q) :
    0 < price ∧ 0 < d.available ∧ 0 < r.required.getD d.available ∧ w ≤ 1 ∧
      0 ≤ totalValue d.rows side r.nowMs ∧
      q = adjustedQty price (r.required.getD d.available) d.available w
        (totalValue d.rows side r.nowMs) := by
  unfold sized applyWeightLimit at h
  split at h
  · cases h
  · rename_i hinputs
    rw [not_or, not_or, not_le, not_le, not_le] at hinputs
    obtain ⟨hprice, havailable, hrequired⟩ := hinputs
    have hpositive : 0 < r.required.getD d.available := by
      cases hr : r.required with
      | none => exact havailable
      | some x =>
          rw [hr] at hrequired
          exact hrequired
    dsimp only at h
    split at h
    · cases h
    · rename_i hw
      split at h
      · cases h
      · rename_i ht
        exact ⟨hprice, havailable, hpositive, (not_not.mp hw).2, not_lt.mp ht,
          (Except.ok.inj h).symm⟩

/-- The value of a fill: nothing, or no more than what the cap leaves. -/
theorem filledValue_le {q : ℚ} (h : sized side price w d r = .ok q) :
    price * q ≤ max 0 ((totalValue d.rows side r.nowMs + d.available * price) * w -
      totalValue d.rows side r.nowMs) := by
  obtain ⟨hprice, -, -, -, -, hq⟩ := sized_ok h
  rw [hq]
  unfold adjustedQty
  dsimp only
  calc _ ≤ price * (max 0 ((totalValue d.rows side r.nowMs + d.available * price) * w -
          totalValue d.rows side r.nowMs) / price) :=
        mul_le_mul_of_nonneg_left (min_le_right _ _) hprice.le
    _ = _ := mul_div_cancel₀ _ hprice.ne'

/-- **A quantity is between zero and what is available.** -/
theorem sized_range {q : ℚ} (h : sized side price w d r = .ok q) : 0 ≤ q ∧ q ≤ d.available := by
  obtain ⟨hprice, havailable, hrequired, hw, ht, hq⟩ := sized_ok h
  constructor
  · rw [hq]
    exact le_min hrequired.le (div_nonneg (le_max_left _ _) hprice.le)
  · have hvalue := filledValue_le h
    have hcap : max 0 ((totalValue d.rows side r.nowMs + d.available * price) * w -
        totalValue d.rows side r.nowMs) ≤ price * d.available := by
      refine max_le (mul_nonneg hprice.le havailable.le) ?_
      have hreference : 0 ≤ totalValue d.rows side r.nowMs + d.available * price :=
        add_nonneg ht (mul_nonneg havailable.le hprice.le)
      have hshare := mul_le_of_le_one_right hreference hw
      linarith
    exact le_of_mul_le_mul_left (hvalue.trans hcap) hprice

theorem sized_le_required {q x : ℚ} (h : sized side price w d r = .ok q)
    (hx : r.required = some x) : q ≤ x := by
  obtain ⟨-, -, -, -, -, hq⟩ := sized_ok h
  rw [hq, hx]
  exact min_le_left _ _

/-! ## A sequence of requests -/

theorem fillRequest_ok {q : ℚ} (h : sized side price w d r = .ok q) :
    fillRequest side price w d r = ⟨d.rows ++ [⟨side, price, q, r.nowMs⟩], d.available - q⟩ := by
  unfold fillRequest
  rw [h]

theorem fillRequest_error {e : String} (h : sized side price w d r = .error e) :
    fillRequest side price w d r = d := by
  unfold fillRequest
  rw [h]

theorem tradedSince_append (start q nowMs : ℚ) (available : ℚ) (h : start ≤ nowMs) :
    tradedSince side start ⟨d.rows ++ [⟨side, price, q, nowMs⟩], available⟩ =
      tradedSince side start d + price * q := by
  unfold tradedSince
  rw [List.filter_append, List.map_append, List.sum_append]
  congr 1
  have hkept : [TradeRow.mk side price q nowMs].filter
      (fun x => x.side = side && start ≤ x.timestamp) = [TradeRow.mk side price q nowMs] := by
    rw [List.filter_singleton]
    have htest : (decide (side = side) && decide (start ≤ nowMs)) = true := by
      rw [decide_eq_true h, decide_eq_true rfl]
      rfl
    show (bif decide (side = side) && decide (start ≤ nowMs) then _ else _) = _
    rw [htest]
    rfl
  rw [hkept]
  simp

/-- The sum of both parts of the reference stays. -/
theorem fillRequest_reference (h : start ≤ r.nowMs) :
    tradedSince side start (fillRequest side price w d r) +
        (fillRequest side price w d r).available * price =
      tradedSince side start d + d.available * price := by
  unfold fillRequest
  cases sized side price w d r with
  | error e => rfl
  | ok q =>
      dsimp only
      rw [tradedSince_append start q r.nowMs _ h]
      ring

theorem fillRequest_windowed (h : Windowed start d (r :: requests)) :
    Windowed start (fillRequest side price w d r) requests := by
  have hnow := (h.times r List.mem_cons_self).1
  refine ⟨fun x hx => h.times x (List.mem_cons_of_mem _ hx), fun x hx => ?_⟩
  have hrows : x ∈ d.rows ∨ x.timestamp = r.nowMs := by
    unfold fillRequest at hx
    cases hsized : sized side price w d r with
    | error e =>
        rw [hsized] at hx
        exact Or.inl hx
    | ok q =>
        rw [hsized] at hx
        rcases List.mem_append.mp hx with hold | hnew
        · exact Or.inl hold
        · rw [List.mem_singleton.mp hnew]
          exact Or.inr rfl
  rcases hrows with hold | hnew
  · rcases h.rows x hold with hin | hout
    · exact Or.inl hin
    · exact Or.inr (fun y hy => hout y (List.mem_cons_of_mem _ hy))
  · exact Or.inl (hnew ▸ hnow)

/-- One fill stays below the cap, up to the share of the reading error, or trades nothing. -/
theorem fillRequest_traded (hw : 0 < w ∧ w ≤ 1) (h : Windowed start d (r :: requests)) :
    tradedSince side start (fillRequest side price w d r) ≤
      max (tradedSince side start d)
        (w * (tradedSince side start d + d.available * price) + (1 - w) * readingError) := by
  unfold fillRequest
  cases hsized : sized side price w d r with
  | error e => exact le_max_left _ _
  | ok q =>
      dsimp only
      rw [tradedSince_append start q r.nowMs _ (h.times r List.mem_cons_self).1]
      have hvalue := filledValue_le hsized
      have hnear := abs_le.mp (totalValue_near side h List.mem_cons_self)
      rcases le_max_iff.mp hvalue with hnone | hsome
      · refine le_max_of_le_left ?_
        linarith
      · refine le_max_of_le_right ?_
        have herror : (1 - w) * (tradedSince side start d - totalValue d.rows side r.nowMs) ≤
            (1 - w) * readingError := by
          refine mul_le_mul_of_nonneg_left ?_ (by linarith [hw.2])
          linarith [hnear.1]
        nlinarith

theorem run_reference (h : Windowed start d requests) :
    tradedSince side start (requests.foldl (fillRequest side price w) d) +
        (requests.foldl (fillRequest side price w) d).available * price =
      tradedSince side start d + d.available * price := by
  induction requests generalizing d with
  | nil => rfl
  | cons r rest ih =>
      rw [List.foldl_cons, ih (fillRequest_windowed h)]
      exact fillRequest_reference (h.times r List.mem_cons_self).1

/-- The cap over a whole run. -/
theorem run_traded (hw : 0 < w ∧ w ≤ 1) (h : Windowed start d requests) :
    tradedSince side start (requests.foldl (fillRequest side price w) d) ≤
      max (tradedSince side start d)
        (w * (tradedSince side start d + d.available * price) + (1 - w) * readingError) := by
  induction requests generalizing d with
  | nil => exact le_max_left _ _
  | cons r rest ih =>
      have hwindowed : Windowed start (fillRequest side price w d r) rest := fillRequest_windowed h
      have hrest := ih hwindowed
      rw [fillRequest_reference (h.times r List.mem_cons_self).1] at hrest
      refine le_trans hrest (max_le ?_ (le_max_right _ _))
      exact fillRequest_traded hw h

/-! ## Splitting a request -/

/-- A run of requests that are all refused. -/
theorem run_refused (h : ∀ r ∈ requests, ∃ e, sized side price w d r = .error e) :
    requests.foldl (fillRequest side price w) d = d := by
  induction requests with
  | nil => rfl
  | cons r rest ih =>
      obtain ⟨e, he⟩ := h r List.mem_cons_self
      rw [List.foldl_cons, fillRequest_error he]
      exact ih (fun x hx => h x (List.mem_cons_of_mem _ hx))

/-- Together the fills are at most what was asked for. -/
theorem run_le_required (h : ∀ r ∈ requests, ∃ x, r.required = some x ∧ 0 < x) :
    d.available - (requests.foldl (fillRequest side price w) d).available ≤
      (requests.map (fun r => r.required.getD 0)).sum := by
  induction requests generalizing d with
  | nil => simp
  | cons r rest ih =>
      obtain ⟨x, hx, hpos⟩ := h r List.mem_cons_self
      have hrest := ih (d := fillRequest side price w d r)
        (fun y hy => h y (List.mem_cons_of_mem _ hy))
      have hone : d.available - (fillRequest side price w d r).available ≤ x := by
        unfold fillRequest
        cases hsized : sized side price w d r with
        | error e =>
            dsimp only
            rw [sub_self]
            exact hpos.le
        | ok q =>
            dsimp only
            rw [sub_sub_cancel]
            exact sized_le_required hsized hx
      rw [List.foldl_cons, List.map_cons, List.sum_cons, hx]
      show _ ≤ x + _
      linarith

/-- When does a request get nothing at a valid price and weight? -/
theorem sized_error {e : String} (hprice : 0 < price) (hw : 0 < w ∧ w ≤ 1)
    (h : sized side price w d r = .error e) :
    d.available ≤ 0 ∨ r.required.getD 1 ≤ 0 ∨ totalValue d.rows side r.nowMs < 0 := by
  by_contra hnone
  rw [not_or, not_or] at hnone
  unfold sized applyWeightLimit at h
  rw [if_neg (by
    rintro (hp | ha | hr)
    · exact absurd hprice (not_lt.mpr hp)
    · exact hnone.1 ha
    · exact hnone.2.1 hr)] at h
  dsimp only at h
  rw [if_neg (not_not.mpr hw), if_neg hnone.2.2] at h
  cases h

theorem split_le_single {nowMs : ℚ} (hprice : 0 < price) (hw : 0 < w ∧ w ≤ 1)
    (hpositive : ∀ r ∈ requests, ∃ x, r.required = some x ∧ 0 < x)
    (h : Windowed start d
      (⟨some (requests.map (fun r => r.required.getD 0)).sum, nowMs⟩ :: requests)) :
    (fillRequest side price w d
        ⟨some (requests.map (fun r => r.required.getD 0)).sum, nowMs⟩).available ≤
      (requests.foldl (fillRequest side price w) d).available +
        2 * (1 - w) * readingError / price := by
  have hslack : 0 ≤ 2 * (1 - w) * readingError / price := by
    have herror : 0 ≤ readingError := by
      unfold readingError
      norm_num
    have hrest : 0 ≤ 1 - w := by linarith [hw.2]
    exact div_nonneg (mul_nonneg (mul_nonneg (by norm_num) hrest) herror) hprice.le
  have hrun : Windowed start d requests :=
    ⟨fun r hr => h.times r (List.mem_cons_of_mem _ hr), fun x hx => (h.rows x hx).imp id
      (fun hout r hr => hout r (List.mem_cons_of_mem _ hr))⟩
  have hrequired : d.available - (requests.foldl (fillRequest side price w) d).available ≤ _ :=
    run_le_required hpositive
  have htraded : tradedSince side start (requests.foldl (fillRequest side price w) d) ≤ _ :=
    run_traded hw hrun
  have hreference : tradedSince side start (requests.foldl (fillRequest side price w) d) + _ = _ :=
    run_reference hrun
  have hrefused : (∀ r ∈ requests, ∃ e, sized side price w d r = .error e) →
      d.available ≤ (requests.foldl (fillRequest side price w) d).available +
        2 * (1 - w) * readingError / price := by
    intro hall
    rw [run_refused hall]
    linarith
  cases hsingle : sized side price w d
      ⟨some (requests.map (fun r => r.required.getD 0)).sum, nowMs⟩ with
  | error e =>
      rw [fillRequest_error hsingle]
      -- what makes the one request fail makes all parts fail
      rcases sized_error hprice hw hsingle with hnone | hnone | hnone
      · refine hrefused (fun r _ => ?_)
        cases hsized : sized side price w d r with
        | error e => exact ⟨e, rfl⟩
        | ok q => exact absurd (sized_ok hsized).2.1 (not_lt.mpr hnone)
      · cases requests with
        | nil =>
            refine hrefused (fun r hr => ?_)
            cases hr
        | cons r rest =>
            have hsum : 0 < ((r :: rest).map (fun r => r.required.getD 0)).sum := by
              obtain ⟨x, hx, hpos⟩ := hpositive r List.mem_cons_self
              have hrest : 0 ≤ (rest.map (fun r => r.required.getD 0)).sum := by
                refine List.sum_nonneg (fun y hy => ?_)
                obtain ⟨z, hz, hzy⟩ := List.mem_map.mp hy
                obtain ⟨x', hx', hpos'⟩ := hpositive z (List.mem_cons_of_mem _ hz)
                rw [← hzy, hx']
                exact hpos'.le
              rw [List.map_cons, List.sum_cons, hx]
              show 0 < x + _
              linarith
            exact absurd hsum (not_lt.mpr hnone)
      · refine hrefused (fun r hr => ?_)
        cases hsized : sized side price w d r with
        | error e => exact ⟨e, rfl⟩
        | ok q =>
            have hread := (sized_ok hsized).2.2.2.2.1
            rw [totalValue_eq hrun hr, ← totalValue_eq h List.mem_cons_self] at hread
            exact absurd hread (not_le.mpr hnone)
  | ok q =>
      obtain ⟨-, -, -, -, -, hq⟩ := sized_ok hsingle
      have hnear := abs_le.mp (totalValue_near side h List.mem_cons_self)
      have hfilled : d.available - (requests.foldl (fillRequest side price w) d).available ≤
          q + 2 * (1 - w) * readingError / price := by
        rw [hq]
        unfold adjustedQty
        dsimp only
        rcases min_choice ((some (requests.map (fun r => r.required.getD 0)).sum).getD d.available)
          (max 0 ((totalValue d.rows side nowMs + d.available * price) * w -
            totalValue d.rows side nowMs) / price) with hmin | hmin
        · rw [hmin]
          exact le_trans hrequired (le_add_of_nonneg_right hslack)
        · rw [hmin, ← add_div, le_div_iff₀ hprice]
          have hvalue : (d.available - (requests.foldl (fillRequest side price w) d).available) *
              price = tradedSince side start (requests.foldl (fillRequest side price w) d) -
                tradedSince side start d := by
            linarith
          have hshare : (1 - w) * (totalValue d.rows side nowMs - tradedSince side start d) ≤
              (1 - w) * readingError := by
            refine mul_le_mul_of_nonneg_left ?_ (by linarith [hw.2])
            exact hnear.2
          rw [hvalue]
          rcases le_max_iff.mp htraded with hkept | hcapped
          · have hzero := le_max_left 0 ((totalValue d.rows side nowMs + d.available * price) * w -
              totalValue d.rows side nowMs)
            have herror : 0 ≤ 2 * (1 - w) * readingError := by
              have := mul_nonneg hslack hprice.le
              rwa [div_mul_cancel₀ _ hprice.ne'] at this
            linarith
          · have hsome := le_max_right 0 ((totalValue d.rows side nowMs + d.available * price) * w -
              totalValue d.rows side nowMs)
            nlinarith
      rw [fillRequest_ok hsingle]
      show d.available - q ≤ _
      linarith

/-- **The daily weight cap cannot be split around**, up to the error of reading the traded value:
every quantity is between zero and what is available, what is traded stays below the cap or below
what was traded before, and the parts of a request together get no more than the whole. -/
theorem weight_cap_not_split {side : Side} {price w start nowMs : ℚ} {d : Desk}
    {requests : List QtyRequest} (hprice : 0 < price) (hw : 0 < w ∧ w ≤ 1)
    (h : Windowed start d
      (⟨some (requests.map (fun r => r.required.getD 0)).sum, nowMs⟩ :: requests)) :
    Along (fillRequest side price w)
        (fun d r => ∀ q, sized side price w d r = .ok q → 0 ≤ q ∧ q ≤ d.available) d requests ∧
      tradedSince side start (requests.foldl (fillRequest side price w) d) ≤
        max (tradedSince side start d)
          (w * (tradedSince side start d + d.available * price) + (1 - w) * readingError) ∧
      ((∀ r ∈ requests, ∃ x, r.required = some x ∧ 0 < x) →
        (fillRequest side price w d
            ⟨some (requests.map (fun r => r.required.getD 0)).sum, nowMs⟩).available ≤
          (requests.foldl (fillRequest side price w) d).available +
            2 * (1 - w) * readingError / price) := by
  have hrun : Windowed start d requests :=
    ⟨fun r hr => h.times r (List.mem_cons_of_mem _ hr), fun x hx => (h.rows x hx).imp id
      (fun hout r hr => hout r (List.mem_cons_of_mem _ hr))⟩
  refine ⟨?_, run_traded hw hrun, fun hpositive => split_le_single hprice hw hpositive h⟩
  exact Along.of_forall (fun _ _ _ hq => sized_range hq) d requests

end Cap

/-! ## Samples -/

/-- One coin is available, and a trade of four billionths was made, which the statistics read as
zero. -/
def dustDesk : Desk := ⟨[⟨.sell, 1, 4 / 1000000000, 0⟩], 1⟩

/-- Half of everything may be traded; the sale that is let through exceeds it by two billionths. -/
theorem rounded_reading_exceeds_cap :
    sized .sell 1 (1 / 2) dustDesk ⟨none, 0⟩ = .ok (1 / 2) ∧
      ¬ tradedSince .sell 0 (fillRequest .sell 1 (1 / 2) dustDesk ⟨none, 0⟩) ≤
        max (tradedSince .sell 0 dustDesk)
          (1 / 2 * (tradedSince .sell 0 dustDesk + dustDesk.available * 1)) := by
  decide +kernel

/-- Ten coins at a price of two in two parts. -/
theorem two_parts_within_cap :
    tradedSince .sell 0 ([⟨some 4, 0⟩, ⟨some 3, 0⟩].foldl (fillRequest .sell 2 (1 / 2))
        ⟨[], 10⟩) ≤
      max (tradedSince .sell 0 ⟨[], 10⟩)
        (1 / 2 * (tradedSince .sell 0 ⟨[], 10⟩ + 10 * 2) + (1 - 1 / 2) * readingError) := by
  have hwindowed : Windowed 0 ⟨[], 10⟩
      (⟨some ([⟨some 4, 0⟩, ⟨some 3, 0⟩].map (fun r : QtyRequest => r.required.getD 0)).sum, 0⟩ ::
        [⟨some 4, 0⟩, ⟨some 3, 0⟩]) := by
    constructor
    · intro r hr
      have hnow : r.nowMs = 0 := by
        rcases List.mem_cons.mp hr with rfl | hr
        · rfl
        · rcases List.mem_cons.mp hr with rfl | hr
          · rfl
          · rw [List.mem_singleton.mp hr]
      rw [hnow]
      unfold windowMs
      exact ⟨le_rfl, by norm_num⟩
    · intro x hx
      cases hx
  exact (@weight_cap_not_split .sell 2 (1 / 2) 0 0 _ _ (by norm_num) (by norm_num) hwindowed).2.1

end TradingFleet.Orders
