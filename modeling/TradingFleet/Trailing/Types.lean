import Mathlib.Logic.Function.Basic
import TradingFleet.Lifecycle.Tracked
import TradingFleet.SpotDca.Types

set_option autoImplicit false

/-! # The trailing stop: settings, state and updates

The data of `trailing_core.py` and of its two adapters. The state has one item for each key; what a
tick writes into an item is an `Update`, and `Core.apply` says what it does. Beside the keys of the
source an item records its updates, newest first; no program reads that record.

Numbers are exact rationals. Console output is left out.
-/

namespace TradingFleet.Trailing

open TradingFleet.Lifecycle
open TradingFleet.Rounding (roundTo)
open TradingFleet.SpotDca (decimalText)

/-! ## Settings -/

structure Settings where
  enabled : Bool
  minNotional : ℚ
  rebuyEnabled : Bool
  rebuyBouncePct : ℚ
  rebuySkipIfTrendDown : Bool
  sellSkipIfTrendUp : Bool
  sellFraction : ℚ := 1
  itemIsolation : Bool := true
  minProfitPct : ℚ := 0

/-- What the two adapters do differently when they place an order. -/
structure Adapter where
  /-- the name in intent IDs -/
  name : String
  lifecycle : Lifecycle.Settings
  /-- the limit over the price, for a SELL and for a REBUY -/
  sellFactor : ℚ
  rebuyFactor : ℚ
  /-- a refused submit leaves no pending order -/
  clearsRefused : Bool

/-- `binance_api/trailing_stop.py`. -/
def binance : Adapter where
  name := "binance"
  lifecycle :=
    { missingConfirmations := 1
      retryOnLookupError := true
      maxAgeSeconds := some 180
      missingConfirmations_pos := by decide
      maxAgeSeconds_pos := fun age h => by
        cases h
        norm_num }
  sellFactor := 1
  rebuyFactor := 1
  clearsRefused := true

/-- `kraken/trailing_stop.py`. -/
def kraken : Adapter where
  name := "kraken"
  lifecycle :=
    { missingConfirmations := 2
      retryOnLookupError := false
      maxAgeSeconds := some 180
      missingConfirmations_pos := Settings.default_confirmations
      maxAgeSeconds_pos := fun age h => by
        cases h
        norm_num }
  sellFactor := 995 / 1000
  rebuyFactor := 1005 / 1000
  clearsRefused := false

structure Asset where
  key : String
  asset : String
  pair : String
  trailPct : ℚ

/-! ## Items -/

inductive Action where
  | sell
  | rebuy
deriving DecidableEq, Repr

/-- `metadata` of an intent. `serial` numbers the submits; nothing reads it. -/
structure Meta where
  action : Action
  asset : String
  anchor : ℚ
  serial : Nat
deriving DecidableEq

abbrev Pending := Lifecycle.Pending Meta

structure Rebuy where
  qty : ℚ
  sellPrice : ℚ
  low : ℚ
deriving DecidableEq

/-- What fills and prices change. -/
structure Core where
  peak : ℚ
  warmupAt : Option ℚ := none
  rebuy : Option Rebuy := none
deriving DecidableEq

/-- A terminal result, with the average price and the answer of the re-buy policy. -/
structure Fill where
  serial : Nat
  action : Action
  filled : ℚ
  avg : ℚ
  armed : Bool
deriving DecidableEq

inductive Update where
  /-- the low since the sale -/
  | lowered (price : ℚ)
  | dropped
  | warmUp (threshold : ℚ)
  | warmed
  | peaked (price : ℚ)
  /-- `_finish_pending` -/
  | finished (fill : Fill)
deriving DecidableEq

def Rebuy.lower (price : ℚ) (rebuy : Rebuy) : Rebuy := { rebuy with low := min rebuy.low price }

/-- What remains to be bought back after a REBUY of `filled`. -/
def Rebuy.after (fill : Fill) : Option Rebuy → Option Rebuy
  | none => none
  | some rebuy =>
      let remaining := max 0 (rebuy.qty - fill.filled)
      if 1 / 10 ^ 8 < remaining then
        some { rebuy with qty := remaining, low := min rebuy.low fill.avg }
      else none

/-- `_finish_pending`, without the pending order. -/
def Core.finish (S : Settings) (core : Core) (fill : Fill) : Core :=
  if fill.filled ≤ 0 then core
  else match fill.action with
    | .sell =>
        { core with
          peak := fill.avg
          rebuy := if fill.armed then some ⟨fill.filled, fill.avg, fill.avg⟩ else core.rebuy }
    | .rebuy =>
        { core with
          rebuy := Rebuy.after fill core.rebuy
          warmupAt := if 0 < S.minProfitPct then some (fill.avg * (1 + S.minProfitPct / 100))
            else core.warmupAt }

def Core.apply (S : Settings) (core : Core) : Update → Core
  | .lowered price => { core with rebuy := core.rebuy.map (Rebuy.lower price) }
  | .dropped => { core with rebuy := none }
  | .warmUp threshold => { core with warmupAt := some threshold }
  | .warmed => { core with warmupAt := none }
  | .peaked price => { core with peak := price }
  | .finished fill => core.finish S fill

structure Item where
  core : Core
  pendingOrder : Option Pending := none
  /-- the first price -/
  start : ℚ
  history : List Update := []
deriving DecidableEq

def Item.new (price : ℚ) : Item := { core := { peak := price }, start := price }

def Item.perform (S : Settings) (u : Update) (st : Item) : Item :=
  { st with core := st.core.apply S u, history := u :: st.history }

abbrev Book := String → Option Item

/-- `should_sell`. -/
def shouldSell (current peak trailPct : ℚ) : Bool :=
  0 < peak && 0 < trailPct && current ≤ peak * (1 - trailPct / 100)

/-! ## Intents -/

def Action.text : Action → String
  | .sell => "SELL"
  | .rebuy => "REBUY"

/-- `_order_intent`, up to its client order ID. -/
def intentId (adapter : Adapter) (key : String) (action : Action) (qty price anchor : ℚ) : String :=
  "trailing:" ++ adapter.name ++ ":" ++ key ++ ":" ++ action.text ++ ":" ++ decimalText qty 8 ++
    ":" ++ decimalText price 8 ++ ":" ++ decimalText anchor 8

end TradingFleet.Trailing
