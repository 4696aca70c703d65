import TradingFleet.Lifecycle.Tracked
import TradingFleet.Pair.Types

set_option autoImplicit false

/-! # State, parameters and price rules of the spot DCA strategy

The value types of `strategies/spot_dca.py` and the pure rules of `spot_dca_rules.py`. What
`StratParams.__post_init__` and `PairPrecision.__post_init__` check is a field. Prices,
quantities and amounts are exact rationals. Parameters that only choose the cadence of a signal
or label a log line are left out.
-/

namespace TradingFleet.SpotDca

open TradingFleet.Lifecycle
open TradingFleet.Rounding (roundTo)

/-! ## Parameters -/

structure StratParams where
  entryAmount : ℚ := 0
  entryDiscountPct : ℚ := 0
  dcaAmount : ℚ := 0
  dcaDropPct : ℚ
  checkMinutes : ℚ := 1
  takeprofitPct : ℚ
  maxBudget : ℚ := 0
  maxDcaBuys : Int := 0
  enableTakeprofit : Bool := true
  orderTtlMin : ℚ := 0
  stopLossPct : ℚ := 0
  adoptCost : ℚ := 0
  adoptQty : ℚ := 0
  reentryDropPct : ℚ := 0
  reentryTolerancePct : ℚ := 0
  reentryAdaptive : Bool := false
  reentrySlBouncePct : ℚ := 0
  tpTranches : List (ℚ × ℚ) := []
  tpTrendHold : Bool := false
  tpRegimeGate : Bool := false
  tpTrendMinPct : ℚ := 1 / 2
  tpTrailPct : ℚ := 2
  tpTrailProfitFloorPct : ℚ := 0
  trendOverlay : Bool := false
  trendSmaN : Nat := 30
  regimeMinSamples : Nat := 20
  trendTopup : ℚ := 2000
  trendTrailPct : ℚ := 5
  trendExitBreak : Bool := false
  tpTrailAdaptive : Bool := false
  tpTrailK : ℚ := 2
  tpTrailMin : ℚ := 3 / 2
  tpTrailMax : ℚ := 8
  dcaTrendBrake : Bool := false
  dcaBrakeMinPct : ℚ := 3 / 2
  dcaSpacingGrowthPct : ℚ := 0
  totalBudget : ℚ := 0
  allocPct : ℚ := 0
  entryPct : ℚ := 0
  dcaPct : ℚ := 0
  trendTopup_pos : 0 < trendTopup
  entryDiscount_range : 0 ≤ entryDiscountPct ∧ entryDiscountPct < 100
  dcaDrop_pos : 0 < dcaDropPct
  takeprofit_range : 0 ≤ takeprofitPct ∧ (enableTakeprofit = true → takeprofitPct ≠ 0)
  stopLoss_nonneg : 0 ≤ stopLossPct
  sizing : (totalBudget = 0 ∧ allocPct = 0 ∧ entryPct = 0 ∧ dcaPct = 0) ∨
    (0 < totalBudget ∧ (0 < allocPct ∧ allocPct ≤ 100) ∧ (0 < entryPct ∧ entryPct ≤ 100) ∧
      (0 < dcaPct ∧ dcaPct ≤ 100))

namespace StratParams

def pctSizingOn (p : StratParams) : Bool := 0 < p.totalBudget

def allocatedBudget (p : StratParams) : ℚ :=
  if p.pctSizingOn then p.totalBudget * p.allocPct / 100 else p.maxBudget

def effectiveEntryAmount (p : StratParams) : ℚ :=
  if p.pctSizingOn then p.allocatedBudget * p.entryPct / 100 else p.entryAmount

def effectiveDcaAmountBase (p : StratParams) : ℚ :=
  if p.pctSizingOn then p.allocatedBudget * p.dcaPct / 100 else p.dcaAmount

def effectiveMaxBudget (p : StratParams) : ℚ := p.allocatedBudget

end StratParams

structure PairPrecision where
  priceDecimals : Nat
  volumeDecimals : Nat
  orderMin : ℚ := 0
  orderMin_nonneg : 0 ≤ orderMin

/-- A pair without a minimum order. -/
theorem PairPrecision.noMinimum : (0 : ℚ) ≤ 0 := le_refl 0

/-! ## Orders and state -/

/-- The kinds an order carries. A fill after the first one of a `DCA` or `TREND_ENTRY` order is
accounted for under the `_PARTIAL` kind. -/
inductive Kind where
  | entry
  | dca
  | trendEntry
  | tp
  | stop
  | dcaPartial
  | trendEntryPartial
deriving DecidableEq, Repr

def Kind.text : Kind → String
  | .entry => "ENTRY"
  | .dca => "DCA"
  | .trendEntry => "TREND_ENTRY"
  | .tp => "TP"
  | .stop => "STOP"
  | .dcaPartial => "DCA_PARTIAL"
  | .trendEntryPartial => "TREND_ENTRY_PARTIAL"

def Kind.ofText (text : String) : Option Kind :=
  [.entry, .dca, .trendEntry, .tp, .stop, .dcaPartial, .trendEntryPartial].find?
    (fun kind => kind.text = text)

theorem Kind.ofText_text (kind : Kind) : Kind.ofText kind.text = some kind := by
  cases kind <;> decide

/-- The kind under which a later fill of an order is accounted for. -/
def Kind.later : Kind → Kind
  | .dca => .dcaPartial
  | .trendEntry => .trendEntryPartial
  | kind => kind

def sideText : Side → String
  | .buy => "buy"
  | .sell => "sell"

structure Order where
  txid : String
  side : Side
  vol : ℚ
  price : ℚ
  amount : ℚ
  kind : Kind
  market : Bool
  intentId : Option String := none
  ts : ℚ
  appliedVol : ℚ := 0
  appliedCost : ℚ := 0
  appliedFee : ℚ := 0
  cancelRequested : Bool := false
deriving DecidableEq

structure PendingExit where
  kind : Kind
  softFloor : Bool := false
  fillPrice : Option ℚ := none
deriving DecidableEq

/-- What `_place` attaches to an intent. -/
structure Metadata where
  amount : ℚ
  market : Bool
deriving DecidableEq

abbrev Intent := Pending Metadata

structure Backoff where
  attempts : Nat
  until_ : ℚ
deriving DecidableEq

/-- The persisted state `self.s`. -/
structure State where
  cycle : Nat := 1
  qty : ℚ := 0
  cost : ℚ := 0
  spent : ℚ := 0
  dcaBuys : Nat := 0
  entryPrice : Option ℚ := none
  lastBuyPrice : Option ℚ := none
  cycleFees : ℚ := 0
  realizedGross : ℚ := 0
  realizedNet : ℚ := 0
  feesTotal : ℚ := 0
  lastSellPrice : Option ℚ := none
  lastExitKind : Option Kind := none
  slLow : Option ℚ := none
  trailPeak : Option ℚ := none
  trailStop : Option ℚ := none
  trendMode : Bool := false
  trendPeak : Option ℚ := none
  orders : List Order := []
  pendingIntent : Option Intent := none
  pendingExit : Option PendingExit := none
  placementBackoffs : List ((Side × Kind) × Backoff) := []
  ledgerReconcileRequired : Bool := false
  adopted : Bool := false
deriving DecidableEq

/-- `_new_state()`. -/
def newState : State := {}

/-- `x or fallback` on an optional number. -/
def orElse (x : Option ℚ) (fallback : ℚ) : ℚ :=
  match x with
  | some v => if v = 0 then fallback else v
  | none => fallback

/-- What counts as no position. -/
def flatQty : ℚ := 1 / 10 ^ 12

namespace State

def avg (s : State) : Option ℚ := if flatQty < s.qty then some (s.cost / s.qty) else none

def hasOpen (s : State) (side : Side) : Bool := s.orders.any (fun o => o.side = side)

def findOpen (s : State) (side : Side) : Option Order := s.orders.find? (fun o => o.side = side)

def hasPendingMarketExit (s : State) : Bool :=
  s.orders.any (fun o => o.side = .sell && o.market)

/-- `_remove`: the first order that equals `o`. -/
def remove (s : State) (o : Order) : State := { s with orders := s.orders.erase o }

end State

/-! ## Price rules -/

def diffPercent (v1 v2 : ℚ) : ℚ :=
  if v1 = 0 ∧ v2 = 0 then 0 else |v1 - v2| / ((|v1| + |v2|) / 2) * 100

def areClose (v1 v2 tolPct : ℚ) : Bool := diffPercent v1 v2 ≤ tolPct

def entryPriceOf (close discPct : ℚ) : ℚ := close * (1 - discPct / 100)

/-- In doubles: the average is the quotient of two. -/
def tpPrice (avg tpPct : ℚ) : ℚ := Rounding.mul avg (Rounding.add 1 (Rounding.div tpPct 100))

def hitStop (avg price slPct : ℚ) : Bool :=
  if slPct ≤ 0 ∨ avg = 0 then false else slPct ≤ (avg - price) / avg * 100

def reentryStopBlocked (price slLow bouncePct tolPct : ℚ) : Bool :=
  let threshold := slLow * (1 + bouncePct / 100)
  price < threshold && !areClose price threshold tolPct

def reentryDropBlocked (price lastSell dropPct tolPct : ℚ) : Bool :=
  if dropPct ≤ 0 ∨ lastSell = 0 then false
  else
    let threshold := lastSell * (1 - dropPct / 100)
    threshold < price && !areClose price threshold tolPct

def dcaPriceHit (price lastBuy dropPct tolPct : ℚ) : Bool :=
  if lastBuy = 0 then false
  else
    let threshold := lastBuy * (1 - dropPct / 100)
    price ≤ threshold || areClose price threshold tolPct

def progressiveDcaDropPct (baseDropPct growthPct : ℚ) (completed : Nat) : ℚ :=
  max 0 baseDropPct + max 0 growthPct * completed

/-! ## Quantities at venue precision -/

/-- A number with at most `decimals` decimals. -/
def OnGrid (decimals : Nat) (x : ℚ) : Prop := ∃ n : ℤ, x = n / 10 ^ decimals

theorem onGrid_roundTo (x : ℚ) (decimals : Nat) : OnGrid decimals (roundTo x decimals) :=
  ⟨_, by
    unfold Rounding.roundTo
    rw [zpow_natCast]⟩

namespace PairPrecision

def qtyFor (P : PairPrecision) (amount price : ℚ) : ℚ :=
  if 0 < price then roundTo (amount / price) P.volumeDecimals else 0

/-- The tick `_dust_safe_qty` leaves. -/
def dustStep (P : PairPrecision) : ℚ :=
  let dustDecimals := if P.volumeDecimals ≤ 2 then P.volumeDecimals else P.volumeDecimals - 1
  1 / 10 ^ max dustDecimals 1

def dustSafeQty (P : PairPrecision) (qty : ℚ) : ℚ :=
  let ticks := ⌊(qty + P.dustStep / 10 ^ 9) / P.dustStep⌋ - 1
  roundTo ((max ticks 0 : ℤ) * P.dustStep) P.volumeDecimals

/-- Below this a position is flat once an exit is terminal. -/
def dust (P : PairPrecision) : ℚ := 2 / 10 ^ max (P.volumeDecimals - 1) 1

end PairPrecision

/-! ## Intent identities -/

/-- `f"{x:.{decimals}f}"`. -/
def decimalText (x : ℚ) (decimals : Nat) : String :=
  let scaled := Rounding.roundEven (x * 10 ^ decimals)
  let digits := Nat.toDigits 10 (scaled.natAbs % 10 ^ decimals)
  (if scaled < 0 then "-" else "") ++ toString (scaled.natAbs / 10 ^ decimals) ++
    (if decimals = 0 then ""
      else "." ++ String.ofList (List.replicate (decimals - digits.length) '0' ++ digits))

example : decimalText (1 / 8) 4 = "0.1250" ∧ decimalText 12 0 = "12" ∧
    decimalText (-3 / 2) 2 = "-1.50" := by
  decide +kernel

end TradingFleet.SpotDca
