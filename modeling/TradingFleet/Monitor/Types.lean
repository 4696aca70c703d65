import Mathlib.Algebra.Order.Floor.Ring
import Mathlib.Data.List.Sort
import Mathlib.Data.Rat.Floor
import TradingFleet.Pair.Types
import TradingFleet.SpotDca.Types

set_option autoImplicit false

/-! # What one evaluation of the monitor reads

`monitor_price_and_trade` of `monitortrades.py` reads the orders of the instrument, the price and
the free balance once, before any rule. `Evaluation.facts` is what the rules then work with; the
trend and the placements are read and made by the rules themselves.
-/

namespace TradingFleet.Monitor

open Pair (Side)

/-! ## Readings -/

/-- A number that may be infinite or not a number. -/
inductive Reading where
  | finite (x : ℚ)
  | notFinite
deriving DecidableEq, Repr

/-- An order of `inst.orders`. -/
structure TradeOrder where
  price : ℚ
  qty : ℚ
  timestamp : ℚ
deriving DecidableEq, Repr

/-- The trend keys of a snapshot; a key may be missing or hold `None`. -/
structure TrendSnapshot where
  gradientRecent : Option (Option ℚ) := none
  slopeSmall : Option (Option ℚ) := none
  finalTrend : Option (Option ℚ) := none

/-- What `fresh_snapshot` answers. -/
inductive TrendReading where
  | failed
  | missing
  | snapshot (snap : TrendSnapshot)

/-- `is_trend_up`. A missing or stale snapshot is neutral. -/
def isTrendUp : TrendReading → Bool
  | .failed => false
  | .missing => false
  | .snapshot snap =>
      let slope := (snap.gradientRecent.getD (snap.slopeSmall.getD (some 0))).getD 0
      let gradient := (snap.finalTrend.getD (some 0)).getD 0
      0 < slope || (slope = 0 && 0 < gradient)

/-- An order as it is placed. -/
structure Placement where
  side : Side
  price : ℚ
  qty : ℚ
  safebackSeconds : ℚ
  hours : ℚ
  force : Bool := false
  cancelorders : Bool := true
  bypassProfitGuard : Bool := false
deriving DecidableEq, Repr

/-- What `inst.place` does: it returns a payload or `None`, or it raises. -/
inductive PlaceOutcome where
  | payload
  | nothing
  | raised
deriving DecidableEq, Repr

/-! ## Settings -/

/-- The globals of the module. -/
structure Settings where
  hardTpEnabled : Bool := true
  hardTpPct : ℚ := 17 / 100
  hardTpFraction : ℚ := 1 / 2
  hardTpCooldownS : ℚ := 6 * 3600
  tpReference : String := "last"
  areCloseTolerancePct : ℚ := 1
  recentTradeBlockSec : ℚ := 3 * 3600
  allTradesBlockSec : ℚ := 1 * 3600
  buyPriceOffset : ℚ := 1 / 2
  sellSafebackHours : ℚ := 2
  buySafebackHours : ℚ := 48

/-- The `mt` parameters of the instrument, where they are set and can be converted. -/
structure MtParams where
  gain : Option ℚ := none
  lost : Option ℚ := none
  maxageDays : Option ℚ := none
  hardtp : Option ℚ := none
  hardtpFraction : Option ℚ := none
  hardtpCooldownH : Option ℚ := none
  ref : Option String := none
  buyBudget : Option ℚ := none
  buyQty : Option ℚ := none
  maxBudget : Option ℚ := none

/-- One call: its arguments, the instrument, and everything it is answered. -/
structure Evaluation where
  settings : Settings := {}
  params : MtParams := {}
  symbol : String
  isolation : String := "own_ledger"
  sbs : ℚ
  maxageTradeS : Option ℚ := none
  gainArg : Option ℚ := none
  lostArg : Option ℚ := none
  /-- `inst.orders(side, maxage)` -/
  orders : Side → ℚ → List TradeOrder
  price : Option Reading
  free : Option Reading
  minQty : ℚ := 0
  /-- the readings of the clock, for the call and for the orders of each side -/
  now : ℚ
  nowFor : Side → ℚ
  trend : ℕ → TrendReading
  /-- the answer to a placement, after this many others -/
  place : ℕ → Placement → PlaceOutcome
  /-- `_hard_tp_last` -/
  hardTpLast : String → Option ℤ := fun _ => none

/-- `int(x)`. -/
def truncate (x : ℚ) : ℤ := if 0 ≤ x then ⌊x⌋ else ⌈x⌉

/-- `x or y`, for a number. -/
def orNumber (x : Option ℚ) (y : ℚ) : ℚ :=
  match x with
  | some v => if v = 0 then y else v
  | none => y

namespace Evaluation

variable (E : Evaluation)

def gainThreshold : ℚ := E.gainArg.getD ((E.params.gain.map (· / 100)).getD (7 / 100))

def lostThreshold : ℚ := E.lostArg.getD ((E.params.lost.map (· / 100)).getD (33 / 1000))

def maxage : ℚ :=
  E.maxageTradeS.getD
    ((E.params.maxageDays.map (fun days => (truncate (days * 24 * 3600) : ℚ))).getD
      (4 * 24 * 3600))

def hardTpPct : ℚ := E.params.hardtp.getD (E.settings.hardTpPct * 100) / 100

def hardTpFrac : ℚ := E.params.hardtpFraction.getD E.settings.hardTpFraction

def hardTpCd : ℚ := E.params.hardtpCooldownH.getD (E.settings.hardTpCooldownS / 3600) * 3600

def tpRef : String := E.params.ref.getD E.settings.tpReference

def tradeOrders (side : Side) : List TradeOrder := E.orders side E.maxage

end Evaluation

/-! ## Recent trades and the position -/

/-- `get_relevant_trade`: the price and the time of the latest order, and whether it is old
enough. The sort keeps the order of equal timestamps. -/
def getRelevantTrade (orders : List TradeOrder) (thresholdS now : ℚ) : Option ℚ × ℚ × Bool :=
  match orders.insertionSort (fun a b => b.timestamp ≤ a.timestamp) with
  | [] => (none, 0, true)
  | latest :: _ =>
      let tradeTime := latest.timestamp / 1000
      (some latest.price, tradeTime, !((truncate now : ℚ) - tradeTime < thresholdS))

def totalQty (orders : List TradeOrder) : ℚ := (orders.map TradeOrder.qty).sum

/-- The average price of `get_position_stats`. -/
def averagePrice (orders : List TradeOrder) : ℚ :=
  if 0 < totalQty orders then
    (orders.map (fun o => o.price * o.qty)).sum / totalQty orders
  else 0

/-- What the rules work with. -/
structure Facts where
  currentTimeS : ℤ
  hasBuys : Bool
  hasSells : Bool
  buyPrice : Option ℚ
  sellPrice : Option ℚ
  canBuy : Bool
  canSell : Bool
  currentPrice : ℚ
  availQty : ℚ
  sellableQty : ℚ
deriving DecidableEq, Repr

namespace Evaluation

variable (E : Evaluation)

/-- The net quantity of `get_position_stats`. -/
def netQty : ℚ := totalQty (E.tradeOrders .buy) - totalQty (E.tradeOrders .sell)

/-- `sellable_qty`, of a free balance. -/
def sellableQty (availQty : ℚ) : ℚ :=
  if E.isolation = "own_ledger" then min availQty (max E.netQty 0) else availQty

def relevantTrade (side : Side) : Option ℚ × ℚ × Bool :=
  getRelevantTrade (E.tradeOrders side) E.settings.recentTradeBlockSec (E.nowFor side)

def buyReference : Option ℚ :=
  if E.tpRef = "average" ∧ 0 < averagePrice (E.tradeOrders .buy) then
    some (averagePrice (E.tradeOrders .buy))
  else (E.relevantTrade .buy).1

def sellReference : Option ℚ :=
  if 0 < averagePrice (E.tradeOrders .sell) then some (averagePrice (E.tradeOrders .sell))
  else (E.relevantTrade .sell).1

/-- Any trade of the last while blocks both sides. -/
def allBlocked : Bool :=
  (truncate E.now : ℚ) - max (E.relevantTrade .buy).2.1 (E.relevantTrade .sell).2.1 <
    E.settings.allTradesBlockSec

/-- The part before the rules; nothing where it returns early. -/
def facts : Option Facts :=
  if E.tradeOrders .buy = [] ∧ E.tradeOrders .sell = [] then none
  else
    match E.price with
    | some (.finite currentPrice) =>
        if currentPrice ≤ 0 then none
        else
          match E.free with
          | some (.finite availQty) =>
              if availQty < 0 then none
              else some {
                currentTimeS := truncate E.now
                hasBuys := E.tradeOrders .buy ≠ []
                hasSells := E.tradeOrders .sell ≠ []
                buyPrice := E.buyReference
                sellPrice := E.sellReference
                canBuy := (E.relevantTrade .buy).2.2 && !E.allBlocked
                canSell := (E.relevantTrade .sell).2.2 && !E.allBlocked
                currentPrice := currentPrice
                availQty := availQty
                sellableQty := E.sellableQty availQty }
          | _ => none
    | _ => none

/-- What the facts are read from. -/
theorem facts_some {f : Facts} (h : E.facts = some f) :
    0 < f.currentPrice ∧ E.free = some (.finite f.availQty) ∧
      f.sellableQty = E.sellableQty f.availQty := by
  unfold facts at h
  split at h
  · cases h
  split at h
  · split at h
    · cases h
    · rename_i hprice
      split at h
      · rename_i hfree
        split at h
        · cases h
        · rw [Option.some.injEq] at h
          subst h
          exact ⟨not_le.mp hprice, hfree, rfl⟩
      · cases h
  · cases h

/-- In an isolated ledger, what can be sold is free and was bought. -/
theorem sellableQty_own {availQty : ℚ} (hown : E.isolation = "own_ledger")
    (hpos : 0 < E.sellableQty availQty) :
    E.sellableQty availQty ≤ availQty ∧ E.sellableQty availQty ≤ E.netQty := by
  have hdef : E.sellableQty availQty = min availQty (max E.netQty 0) := by
    unfold sellableQty
    rw [if_pos hown]
  rw [hdef] at hpos ⊢
  have hnet : 0 < max E.netQty 0 := (lt_min_iff.mp hpos).2
  have hmax : max E.netQty 0 = E.netQty := by
    rcases max_choice E.netQty 0 with hmax | hmax
    · exact hmax
    · rw [hmax] at hnet
      exact absurd hnet (lt_irrefl _)
  refine ⟨min_le_left _ _, ?_⟩
  rw [hmax]
  exact min_le_right _ _

end Evaluation

end TradingFleet.Monitor
