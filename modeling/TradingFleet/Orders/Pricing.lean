import TradingFleet.Orders.Filters
import TradingFleet.Pair.Types

set_option autoImplicit false

/-! # The price of a smart limit order

Between the requested price and the exchange a Binance limit order passes two reads of the market:
`adjust_price_and_cancel_opposite` clamps the request to the current price, moves it a thousandth
and rounds it to whole units; the guards see that price; `order_candidate_price` clamps it again to
a possibly newer price; and `normalize` floors it to the tick. The prices are the decimals that the
doubles of the code are read from and written to (a whole double below `2 ^ 53` is its own decimal);
the product is the one of the doubles, which may fall on the other side of a half.

The rounding to whole units is where the promise "never worse than asked" is lost: below a few
hundred units it moves the price by more than the thousandth it was moved before.
-/

namespace TradingFleet.Orders

open Pair (Side)
open Rounding (roundTo add mul)
open TradingFleet.Steps

/-! ## The code -/

/-- `adjust_price_and_cancel_opposite` without its cancels; `Instrument.place` asks for none of
them on Binance. -/
def adjustPrice (side : Side) (price currentPrice : ℚ) : ℚ :=
  match side with
  | .buy => roundTo (mul (min price currentPrice) (999 / 1000)) 0
  | .sell => roundTo (mul (max price currentPrice) (add 1 (1 / 1000))) 0

-- the exact product is 1501.5
example : adjustPrice .sell 1500 1400 = 1501 := by decide +kernel

/-- `order_candidate_price` of a limit order. -/
def orderCandidatePrice (side : Side) (requestedPrice currentPrice : ℚ) : ℚ :=
  match side with
  | .sell => max requestedPrice currentPrice
  | .buy => min requestedPrice currentPrice

/-- The two prices of one order: the one `profit_guard` saw and the one sent. -/
structure Sent where
  guarded : ℚ
  price : ℚ
deriving DecidableEq

/-- What `place_order_mechanics` asks of the filters. -/
def mechanicsRequest (side : Side) (price laterPrice : ℚ) (quantity businessMinimum : Raw) :
    Request where
  quantity := quantity
  price := .number (orderCandidatePrice side price laterPrice)
  referencePrice := .number laterPrice
  businessMinNotional := businessMinimum

/-- A limit order on its way through `Instrument.place` with `smart=True`: pricing, guards,
mechanics. `passes` is the verdict of the guards on the adjusted price. -/
def smartLimit (rules : BinanceOrderRules) (passes : Side → ℚ → Bool) (side : Side)
    (price currentPrice laterPrice : ℚ) (quantity businessMinimum : Raw) : Option Sent :=
  let guarded := adjustPrice side price currentPrice
  if passes side guarded then
    match rules.normalize (mechanicsRequest side guarded laterPrice quantity businessMinimum) with
    | .ok (_, some sent) => some ⟨guarded, sent⟩
    | _ => none
  else none

/-- What was guarded is the adjusted price, and what is sent is the floor of the candidate. -/
theorem smartLimit_spec {rules : BinanceOrderRules} {passes : Side → ℚ → Bool} {side : Side}
    {price currentPrice laterPrice : ℚ} {quantity businessMinimum : Raw} {x : Sent}
    (h : smartLimit rules passes side price currentPrice laterPrice quantity businessMinimum =
      some x) :
    x.guarded = adjustPrice side price currentPrice ∧
    x.price = floorTo rules.tickSize.1 (orderCandidatePrice side x.guarded laterPrice) ∧
    0 < x.price := by
  unfold smartLimit at h
  extract_lets guarded at h
  split at h
  · split at h
    · rename_i q sent hanswer
      cases h
      have hfits := BinanceOrderRules.normalize_ok_iff.mp hanswer
      obtain ⟨y, hy, hfloor, hpos, -⟩ := hfits.limit rfl
      cases hy
      obtain ⟨v, hv, -, hfloor⟩ := (BinanceOrderRules.floored_iff rules.tickSize.pos).mp hfloor
      cases hv
      exact ⟨rfl, hfloor, hpos⟩
    · cases h
  · cases h

/-! ## Never worse than asked -/

/-- The promise: the price is positive, a SELL is at most one tick below the request and a BUY not
above it, and the guards did not see a better price than the one sent. -/
def NoWorse (side : Side) (price tick : ℚ) (x : Sent) : Prop :=
  0 < x.price ∧
    match side with
    | .sell => price - tick ≤ x.price ∧ x.guarded ≤ x.price
    | .buy => x.price ≤ price ∧ x.price ≤ x.guarded

/-- When the promise is kept. For a BUY the whole number nearest to the product of the lower of
request and market with 0.999, or the newer market price, lies below the tick after the request. For
a SELL the whole number nearest to the product of the higher of the two with 1.001, or the newer
market price, reaches the first tick from one tick below the request on; and that whole number is a
tick itself, or the newer price reaches the tick above it. -/
def PriceKept (side : Side) (price currentPrice laterPrice tick : ℚ) : Prop :=
  match side with
  | .buy =>
      roundTo (mul (min price currentPrice) (999 / 1000)) 0 < floorTo tick price + tick ∨
        laterPrice < floorTo tick price + tick
  | .sell =>
      (ceilTo tick (price - tick) ≤ roundTo (mul (max price currentPrice) (add 1 (1 / 1000))) 0 ∨
        ceilTo tick (price - tick) ≤ laterPrice) ∧
      (IsMultiple tick (roundTo (mul (max price currentPrice) (add 1 (1 / 1000))) 0) ∨
        ceilTo tick (roundTo (mul (max price currentPrice) (add 1 (1 / 1000))) 0) ≤ laterPrice)

/-- **A smart limit order is no worse than asked exactly when its price is kept.** -/
theorem smart_limit_no_worse_iff {rules : BinanceOrderRules} {passes : Side → ℚ → Bool}
    {side : Side} {price currentPrice laterPrice : ℚ} {quantity businessMinimum : Raw} {x : Sent}
    (hsent : smartLimit rules passes side price currentPrice laterPrice quantity businessMinimum =
      some x) :
    NoWorse side price rules.tickSize.1 x ↔
      PriceKept side price currentPrice laterPrice rules.tickSize.1 := by
  obtain ⟨hguarded, hprice, hpos⟩ := smartLimit_spec hsent
  have htick := rules.tickSize.pos
  generalize rules.tickSize.1 = tick at hprice htick ⊢
  cases side with
  | buy =>
      have hcandidate : x.price = floorTo tick (min x.guarded laterPrice) := hprice
      -- a BUY is floored below its guard in any case
      have hbelow : x.price ≤ x.guarded := by
        rw [hcandidate]
        exact (floorTo_le htick _).trans (min_le_left _ _)
      have hrequest : x.price ≤ price ↔ PriceKept .buy price currentPrice laterPrice tick := by
        rw [hcandidate, floorTo_le_iff htick, min_lt_iff, hguarded]
        rfl
      constructor
      · rintro ⟨-, hle, -⟩
        exact hrequest.mp hle
      · intro hkept
        exact ⟨hpos, hrequest.mpr hkept, hbelow⟩
  | sell =>
      have hcandidate : x.price = floorTo tick (max x.guarded laterPrice) := hprice
      -- a SELL may fall below the request or its guard by the flooring
      have hrequest : price - tick ≤ x.price ↔
          ceilTo tick (price - tick) ≤ x.guarded ∨ ceilTo tick (price - tick) ≤ laterPrice := by
        rw [hcandidate, le_floorTo_iff htick, le_max_iff]
      have hguard : x.guarded ≤ x.price ↔
          IsMultiple tick x.guarded ∨ ceilTo tick x.guarded ≤ laterPrice := by
        rw [hcandidate, le_floorTo_iff htick, le_max_iff, ceilTo_le_self_iff htick]
      have hround : x.guarded = roundTo (mul (max price currentPrice) (add 1 (1 / 1000))) 0 :=
        hguarded
      unfold NoWorse PriceKept
      rw [← hround, hrequest, hguard]
      exact and_iff_right hpos

/-! ## A coin below one unit -/

/-- BUY at 0.60 while the market is at 0.60 and then at 0.65: the request becomes 1. -/
theorem rounded_buy_above_request :
    ¬ ∀ (rules : BinanceOrderRules) (passes : Side → ℚ → Bool) (side : Side)
      (price currentPrice laterPrice : ℚ) (quantity businessMinimum : Raw) (x : Sent),
      0 < price → 0 < currentPrice → 0 < laterPrice → rules.tickSize.1 ≤ price →
      smartLimit rules passes side price currentPrice laterPrice quantity businessMinimum =
        some x →
      NoWorse side price rules.tickSize.1 x := by
  intro hall
  have hsent : smartLimit sampleRules (fun _ _ => true) .buy (60 / 100) (60 / 100) (65 / 100)
      (.number 100) (.number 0) = some ⟨1, 65 / 100⟩ := by decide +kernel
  have h := hall sampleRules _ _ _ _ _ _ _ _ (by norm_num) (by norm_num) (by norm_num)
    (by decide +kernel) hsent
  exact absurd h.2.1 (by norm_num)

/-- BTC bought at 60000.50 under a market of 60010: whole units are small there. -/
theorem large_price_kept :
    smartLimit sampleRules (fun _ _ => true) .buy (6000050 / 100) 60010 60020 (.number 1)
      (.number 0) = some ⟨59940, 59940⟩ ∧
    NoWorse .buy (6000050 / 100) sampleRules.tickSize.1 ⟨59940, 59940⟩ := by
  have hsent : smartLimit sampleRules (fun _ _ => true) .buy (6000050 / 100) 60010 60020
      (.number 1) (.number 0) = some ⟨59940, 59940⟩ := by decide +kernel
  refine ⟨hsent, (smart_limit_no_worse_iff hsent).mpr (Or.inl ?_)⟩
  decide +kernel

end TradingFleet.Orders
