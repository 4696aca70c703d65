import Mathlib.Data.List.Sort
import TradingFleet.SpotDca.Types

set_option autoImplicit false

/-! # Trading 212: parameters, orders and state

The data of `212trading/strategy.py`. Trading 212 has no client order IDs: a submit whose answer is
lost is looked for among the active orders and in the portfolio. Numbers are exact rationals, and
quantities are rounded to two decimals as the source does.

Console output, notifications and what only they read (`loss_band`, `tr_alerted`, `sl_alerted`) are
left out, and so are the keys of a pending submit that nothing reads back (`submission_outcome`,
`submit_error`, `portfolio_fill_observed`).
-/

namespace TradingFleet.Trading212

open TradingFleet.Lifecycle
open TradingFleet.Rounding (roundTo)

/-! ## Parameters -/

structure StratParams where
  entryAmount : ℚ
  entryDiscountPct : ℚ := 0
  dcaAmount : ℚ
  dcaDropPct : ℚ
  takeprofitPct : ℚ
  maxBudget : ℚ
  maxDcaBuys : Int
  enableTakeprofit : Bool := true
  orderTtlMin : ℚ
  stopLossPct : ℚ
  reentryDropPct : ℚ := 0
  reentryTolerancePct : ℚ := 0
  /-- level in percent above the average, and the fraction sold there -/
  tpLadder : List (ℚ × ℚ) := []
  fxFeePct : ℚ := 15 / 100
  ladderMinFree : ℚ := 6
  slRebuyEnabled : Bool := false
  slRebuyBouncePct : ℚ := 12 / 10
  dcaTrendGatePct : ℚ := 0
  trailPct : ℚ := 0
  trailMinProfitPct : ℚ := 5

/-! ## Orders -/

inductive Kind where
  | entry
  | dca
  | tp
  /-- the trailing exit -/
  | tr
  /-- the stop-loss -/
  | sl
deriving DecidableEq, Repr

structure Order where
  id : String
  side : Side
  qty : ℚ
  limit : ℚ
  amount : Option ℚ := none
  kind : Kind
  level : Option ℚ := none
  intentId : Option String := none
  market : Bool := false
  ts : ℚ := 0
  cancelRequested : Bool := false
  appliedFillQty : ℚ := 0
  appliedFillCost : ℚ := 0
  appliedFillFee : ℚ := 0
  dcaCounted : Bool := false
deriving DecidableEq

/-- An intent that is persisted before its POST. -/
structure Pending where
  intentId : String
  side : Side
  qty : ℚ
  limit : ℚ
  amount : Option ℚ := none
  kind : Kind
  level : Option ℚ := none
  market : Bool := false
  ts : ℚ
  beforeQty : ℚ
  lookupMisses : Nat := 0
deriving DecidableEq

/-- The order a pending submit becomes. -/
def Pending.order (p : Pending) (orderId : String) : Order where
  id := orderId
  side := p.side
  qty := p.qty
  limit := p.limit
  amount := p.amount
  kind := p.kind
  level := p.level
  intentId := some p.intentId
  market := p.market
  ts := p.ts

/-! ## State -/

structure SlRebuy where
  low : ℚ
  sellPrice : ℚ
deriving DecidableEq

structure State where
  cycle : Nat := 1
  qty : ℚ := 0
  costUsd : ℚ := 0
  spentCash : ℚ := 0
  dcaBuys : Nat := 0
  entryPrice : Option ℚ := none
  lastBuyPrice : Option ℚ := none
  realizedPnlUsd : ℚ := 0
  realizedNetUsd : ℚ := 0
  feesUsd : ℚ := 0
  tpSoldLevels : List ℚ := []
  orders : List Order := []
  pendingSubmit : Option Pending := none
  posPeak : ℚ := 0
  trArmed : Bool := false
  slPending : Bool := false
  slRebuy : Option SlRebuy := none
  lastSellPrice : Option ℚ := none
  lockedZeroUntil : ℚ := 0
  buyBackoffUntil : ℚ := 0
  tpFailUntil : List (ℚ × ℚ) := []
deriving DecidableEq

/-- `_new_state`. -/
def newState : State := {}

/-- Quantities up to this count as none. -/
def flatQty : ℚ := 1 / 10 ^ 9

/-- Changes of the portfolio up to this count as none. -/
def qtyStep : ℚ := 1 / 10 ^ 6

/-- The truth value of an optional number. -/
def nonzero : Option ℚ → Option ℚ
  | some x => if x = 0 then none else some x
  | none => none

namespace State

/-- `_avg_cost`. -/
def avgCost (s : State) : Option ℚ := if flatQty < s.qty then some (s.costUsd / s.qty) else none

/-- `_has_open`. -/
def hasOpen (s : State) (side : Side) : Bool :=
  s.pendingSubmit.any (fun p => p.side = side) || s.orders.any (fun o => o.side = side)

/-- `_find_open`. -/
def findOpen (s : State) (side : Side) : Option Order := s.orders.find? (fun o => o.side = side)

/-- `_remove_order`. -/
def removeOrder (s : State) (o : Order) : State := { s with orders := s.orders.erase o }

/-- A new cycle keeps the results; a stop-loss exit may arm the re-entry. -/
def nextCycle (s : State) (P : StratParams) (exitPrice : ℚ) : State :=
  { newState with
    realizedPnlUsd := s.realizedPnlUsd
    realizedNetUsd := s.realizedNetUsd
    feesUsd := s.feesUsd
    cycle := s.cycle + 1
    lastSellPrice := some exitPrice
    slRebuy := if s.slPending && P.slRebuyEnabled then some ⟨exitPrice, exitPrice⟩ else none }

/-- The reset after the venue said that nothing is owned. -/
def ownedZero (s : State) (now : ℚ) : State :=
  { s with
    qty := 0
    costUsd := 0
    spentCash := 0
    orders := []
    lockedZeroUntil := now + 300 }

end State

/-- `_sell_pnl`: gross, fee and net. -/
def sellPnl (avg price qty feePct : ℚ) : ℚ × ℚ × ℚ :=
  let gross := (price - avg) * qty
  let fee := feePct / 100 * (avg * qty + price * qty)
  (gross, fee, gross - fee)

/-! ## Refusal texts -/

/-- `marker in text`. -/
def mentions (text marker : String) : Bool :=
  text.toList.tails.any (fun t => marker.toList.isPrefixOf t)

/-- `["\']?\s*[:=]\s*([0-9.]+)`, read from the front of a text. -/
def quantityAfter (text : List Char) : Option (List Char) :=
  let rest := match text with
    | '"' :: t => t
    | '\'' :: t => t
    | t => t
  match rest.dropWhile Text.isSpace with
  | c :: t =>
      let digits := (t.dropWhile Text.isSpace).takeWhile (fun d => d.isDigit || d = '.')
      if (c = ':' ∨ c = '=') ∧ digits ≠ [] then some digits else none
  | [] => none

/-- The first match of `owned["\']?\s*[:=]\s*([0-9.]+)`. -/
def ownedQuantity (message : String) : Option (List Char) :=
  message.toList.tails.findSome? (fun t =>
    if "owned".toList.isPrefixOf t then quantityAfter (t.drop 5) else none)

/-- `float` of digits and points. -/
def parseFloat (digits : List Char) : Option ℚ :=
  let whole := digits.takeWhile (· ≠ '.')
  let fraction := (digits.dropWhile (· ≠ '.')).drop 1
  if digits.any Char.isDigit ∧ fraction.all Char.isDigit then
    some ((Nat.ofDigitChars 10 whole 0 : ℚ) +
      (Nat.ofDigitChars 10 fraction 0 : ℚ) / 10 ^ fraction.length)
  else none

example : ownedQuantity "selling-equity-not-owned: owned=0.0, free" = some "0.0".toList ∧
    ownedQuantity "'owned': 12.5" = some "12.5".toList ∧ ownedQuantity "owned" = none ∧
    parseFloat "12.5".toList = some (25 / 2) ∧ parseFloat "1.2.3".toList = none := by
  decide +kernel

/-! ## Active orders -/

/-- An entry of the venue's list of active orders, with what `float` makes of its numbers. -/
structure Active where
  id : Option String
  ticker : String
  side : Option Side := none
  quantity : Option ℚ
  limit : Option ℚ := none

/-- The side, or the one the sign of the quantity tells. -/
def Active.sideOf (a : Active) : Option Side :=
  match a.side, a.quantity with
  | some side, _ => some side
  | none, some q => if 0 < q then some .buy else if q < 0 then some .sell else none
  | none, none => none

/-- `_active_matches_pending`. Tickers are compared in upper case; they are kept so here. -/
def Active.matchesPending (ticker : String) (a : Active) (p : Pending) : Bool :=
  a.ticker = ticker && a.sideOf = some p.side &&
    (match a.quantity with
    | some q => |(|q| - p.qty)| ≤ max (11 / 1000) (p.qty / 10 ^ 6)
    | none => false) &&
    (p.market ||
      (match a.limit with
      | some limit => |limit - p.limit| ≤ 11 / 1000
      | none => false))

/-! ## The ladder -/

/-- One pass over the levels in ascending order. The highest tranche gets the remainder less an
unreserved buffer. `acc` is what the lower tranches took. -/
def ladderShares (held avg buffer total : ℚ) : ℚ → List (ℚ × ℚ) → List (ℚ × ℚ × ℚ)
  | _, [] => []
  | acc, (level, fraction) :: rest =>
      let q := if rest.isEmpty then roundTo (held - acc - buffer) 2
        else roundTo (held * fraction / total) 2
      let tail := ladderShares held avg buffer total (acc + q) rest
      if 0 < q then (level, q, roundTo (avg * (1 + level / 100)) 2) :: tail else tail

/-- The levels of the ladder that were not sold in this cycle. -/
def unsoldLevels (P : StratParams) (s : State) : List (ℚ × ℚ) :=
  P.tpLadder.filter (fun l => l.1 ∉ s.tpSoldLevels)

/-- `desired[level] = (q, limit)`: a level that is listed twice keeps its last value. -/
def setLevel (desired : List (ℚ × ℚ × ℚ)) (d : ℚ × ℚ × ℚ) : List (ℚ × ℚ × ℚ) :=
  if desired.any (fun x => x.1 = d.1) then desired.map (fun x => if x.1 = d.1 then d else x)
  else desired ++ [d]

/-- `desired` of `_manage_tp_ladder`: level, quantity and limit. -/
def ladderDesired (P : StratParams) (s : State) (held avg : ℚ) : List (ℚ × ℚ × ℚ) :=
  let remaining := unsoldLevels P s
  let total := (remaining.map Prod.snd).sum
  let buffer := if 0 < P.ladderMinFree ∧ 0 < avg then P.ladderMinFree / avg else 0
  if total ≤ 0 ∨ held ≤ flatQty then []
  else (ladderShares held avg buffer total 0
    (remaining.insertionSort (fun a b => a.1 ≤ b.1))).foldl setLevel []

end TradingFleet.Trading212
