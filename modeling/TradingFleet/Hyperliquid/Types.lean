import TradingFleet.Pair.Types

set_option autoImplicit false

/-! # The delta-neutral strategy: its state

`delta_neutral.py` holds a long spot leg and a short perpetual leg of one coin. This file has its
parameters, its persistent state and one reading of the two legs. Quantities, prices and rates are
exact rationals. What is only logged or sent as a notification is left out, and so is `opened_at`,
which nothing reads.
-/

namespace TradingFleet.Hyperliquid

open TradingFleet.Rounding (roundTo)

/-- `MIN_ORDER_USD`. -/
def minOrderUsd : ℚ := 21 / 2

/-- `DNParams`. -/
structure DNParams where
  notional : ℚ
  entryFundingHr : ℚ
  exitFundingHr : ℚ
  fundingWindowH : ℚ
  minHoldH : ℚ
  rebalancePct : ℚ
  checkMinutes : ℚ
  szDecimals : ℤ
  liqAlertPct : ℚ
  autoProtect : Bool
  reducePct : ℚ
  allowScaleUp : Bool
  feePct : ℚ

/-- What a `DeltaNeutral` object is made with. -/
structure DeltaNeutral where
  p : DNParams
  dryRun : Bool

inductive Status where
  | flat
  | opened
deriving DecidableEq, Repr

/-- The persistent state; the defaults are those of `_new_state`. -/
structure State where
  status : Status := .flat
  targetSz : ℚ := 0
  feesPaid : ℚ := 0
  fundingAccrued : ℚ := 0
  openedTs : Option ℚ := none
  liqAlerted : Bool := false
  fundingHist : List (ℚ × ℚ) := []
  orphanCount : Nat := 0
  goneCount : Nat := 0
  driftCount : Nat := 0
  orderFails : Nat := 0
  cooldownUntil : ℚ := 0
  spotQty : ℚ := 0
  perpSzi : ℚ := 0
deriving DecidableEq

/-- `_new_state` with the counters of profit and loss that a reset keeps. -/
def State.restarted (s : State) (cooldownUntil : ℚ := 0) : State where
  feesPaid := s.feesPaid
  fundingAccrued := s.fundingAccrued
  cooldownUntil := cooldownUntil

/-- What `legs` returns. -/
structure Reading where
  spotPx : ℚ
  perpPx : ℚ
  funding : ℚ
  spotQty : ℚ
  perpSzi : ℚ
deriving DecidableEq

/-! ## Orders -/

inductive Leg where
  | spot
  | perp
deriving DecidableEq, Repr

/-- The action an order belongs to. -/
inductive Cause where
  | opening
  | closing
  | rebalancing
  | orphan
  | protection
deriving DecidableEq, Repr

/-- An order handed to the client, or booked on paper. -/
structure Order where
  cause : Cause
  leg : Leg
  buys : Bool
  sz : ℚ
  limitPx : ℚ
  reduceOnly : Bool
deriving DecidableEq

/-- What an order adds to its leg when it is filled in full. -/
def Order.change (o : Order) : ℚ := if o.buys then o.sz else -o.sz

/-- The answer to an order: `ok` as the client reports it, or an exception. -/
inductive Answer where
  | answered (ok : Bool)
  | raised (e : String)

/-! ## Pure parts of a tick -/

/-- The legs that count as missing: below a tenth of the target. -/
inductive Pattern where
  | whole
  | spotGone
  | perpGone
  | bothGone
deriving DecidableEq, Repr

def pattern (target : ℚ) (L : Reading) : Pattern :=
  if L.spotQty < target * (1 / 10) then
    if |L.perpSzi| < target * (1 / 10) then .bothGone else .spotGone
  else if |L.perpSzi| < target * (1 / 10) then .perpGone
  else .whole

/-- `d_spot`. -/
def driftSpot (target : ℚ) (L : Reading) : ℚ := target - L.spotQty

/-- `d_perp`. -/
def driftPerp (target : ℚ) (L : Reading) : ℚ := target - |L.perpSzi|

/-- Drift above half the target. -/
def largeDrift (target : ℚ) (L : Reading) : Bool :=
  0 < target && target * (1 / 2) < max |driftSpot target L| |driftPerp target L|

def DeltaNeutral.round (D : DeltaNeutral) (sz : ℚ) : ℚ := roundTo sz D.p.szDecimals

/-- `tol`. -/
def DeltaNeutral.tolerance (D : DeltaNeutral) (target : ℚ) : ℚ := target * D.p.rebalancePct / 100

/-- One unit in the last place of a size. -/
def DeltaNeutral.sizeStep (D : DeltaNeutral) : ℚ := 1 / 10 ^ D.p.szDecimals

end TradingFleet.Hyperliquid
