import TradingFleet.Basic.Keyed
import TradingFleet.SpotDca.Types

set_option autoImplicit false

/-! # The ledger of a cycle

What fills, fees, status reports and the end of a cycle do to the state: the updates of
`_apply_fill`, `_finalize_cycle_if_flat` and the live branch of `reconcile`, without the calls
around them.
-/

namespace TradingFleet.SpotDca

open TradingFleet.Lifecycle TradingFleet.Keyed

/-! ## Fills and fees -/

/-- A quantity entering the ledger. -/
structure Fill where
  txid : String
  side : Side
  kind : Kind
  amount : ℚ
  vol : ℚ
  price : ℚ
  fee : ℚ
deriving DecidableEq

/-- A fee is charged once, when it is seen. -/
def State.charge (s : State) (fee : ℚ) : State :=
  { s with
    cycleFees := s.cycleFees + fee
    feesTotal := s.feesTotal + fee
    realizedNet := s.realizedNet - fee }

def State.bought (s : State) (f : Fill) : State :=
  { s with
    qty := s.qty + f.vol
    cost := s.cost + f.vol * f.price
    lastBuyPrice := some f.price
    entryPrice := some (s.entryPrice.getD f.price)
    spent := s.spent + f.amount
    dcaBuys := if f.kind = .dca then s.dcaBuys + 1 else s.dcaBuys
    trendMode := if f.kind = .trendEntry then true else s.trendMode
    trendPeak := if f.kind = .trendEntry then some f.price else s.trendPeak }

def State.sold (s : State) (f : Fill) : State :=
  let avg := orElse s.avg f.price
  { s with
    realizedGross := s.realizedGross + (f.price - avg) * f.vol
    realizedNet := s.realizedNet + (f.price - avg) * f.vol
    qty := s.qty - f.vol
    cost := max 0 (s.cost - avg * f.vol) }

def State.filled (s : State) (f : Fill) : State :=
  match f.side with
  | .buy => (s.charge f.fee).bought f
  | .sell => (s.charge f.fee).sold f

/-! ## Status reports -/

/-- What a report says, next to the markers of the order. A cost that is not reported is
estimated at the price of the order. -/
structure Report where
  totalVol : ℚ
  totalCost : ℚ
  totalFee : ℚ
  terminal : Bool
deriving DecidableEq

def Order.report (o : Order) (status : OrderStatus) : Report where
  totalVol := status.filledQty
  totalCost := if status.cost = 0 then status.filledQty * o.price else status.cost
  totalFee := status.fee
  terminal := status.status.terminal

def Report.price (r : Report) (o : Order) : ℚ :=
  if 0 < r.totalVol then r.totalCost / r.totalVol else o.price

def Order.eps (o : Order) : ℚ := max (1 / 10 ^ 12) (o.vol / 10 ^ 12)

/-- The report is behind the markers. -/
def Order.regressed (o : Order) (r : Report) : Bool :=
  r.totalVol + o.eps < o.appliedVol || r.totalCost + o.eps < o.appliedCost

def Order.marked (o : Order) (r : Report) : Order :=
  { o with appliedVol := r.totalVol, appliedCost := r.totalCost, appliedFee := r.totalFee }

def Order.deltaVol (o : Order) (r : Report) : ℚ := max 0 (r.totalVol - o.appliedVol)

def Order.deltaCost (o : Order) (r : Report) : ℚ := max 0 (r.totalCost - o.appliedCost)

def Order.deltaFee (o : Order) (r : Report) : ℚ := r.totalFee - o.appliedFee

/-- The fill a report adds. A BUY consumes its nominal amount in proportion. -/
def Order.fill (o : Order) (r : Report) : Fill where
  txid := o.txid
  side := o.side
  kind := if o.side = .buy ∧ o.eps < o.appliedVol then o.kind.later else o.kind
  amount := match o.side with
    | .buy => if 0 < o.vol then o.amount * o.deltaVol r / o.vol else o.deltaCost r
    | .sell => o.amount
  vol := o.deltaVol r
  price := if 0 < o.deltaCost r then o.deltaCost r / o.deltaVol r else r.price o
  fee := o.deltaFee r

/-- Write over the first order that equals `o`. -/
def State.replace (s : State) (o o' : Order) : State :=
  { s with orders := updateFirst (fun x => x = o) (fun _ => o') s.orders }

/-- The part of a report that enters the ledger: its fill, or a fee that came late. -/
def State.accounted (s : State) (o : Order) (r : Report) : State :=
  if o.eps < o.deltaVol r then s.filled (o.fill r)
  else if o.eps < |o.deltaFee r| then s.charge (o.deltaFee r)
  else s

/-- A report that is not behind the markers. The markers are written first; a terminal order
leaves the state. -/
def State.reported (s : State) (o : Order) (r : Report) : State :=
  let marked := s.replace o (o.marked r)
  (if r.terminal then marked.remove (o.marked r) else marked).accounted o r

/-! ## The end of a cycle -/

/-- Dust counts as no position. -/
def State.flattened (s : State) (P : PairPrecision) : State :=
  if |s.qty| < P.dust then { s with qty := 0, cost := 0 } else s

/-- The state a new cycle starts from. -/
def State.nextCycle (s : State) (kind : Kind) (price : ℚ) : State :=
  { newState with
    realizedGross := s.realizedGross
    realizedNet := s.realizedNet
    feesTotal := s.feesTotal
    cycle := s.cycle + 1
    lastSellPrice := some price
    lastExitKind := some kind
    slLow := some price }

/-- The exit that owns the cycle keeps the price of the sale. -/
def State.heldExit (s : State) (kind : Kind) (price : ℚ) : State :=
  { s with
    pendingExit := some { s.pendingExit.getD { kind := kind } with fillPrice := some price } }

end TradingFleet.SpotDca
