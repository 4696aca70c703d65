import Mathlib.Order.Fin.Basic
import TradingFleet.Basic.Rounding
import TradingFleet.Basic.Text

set_option autoImplicit false

/-! # Orders, snapshots and policies of a quote pair

The value types of `rtrade_pair.py`. What `__post_init__` checks is a field here, so a ticket,
a snapshot or a policy that the source would refuse cannot be built. Prices and quantities are
exact rationals; `round` is the decimal rounding to even of the source.
-/

namespace TradingFleet.Pair

open TradingFleet.Text
open TradingFleet.Rounding (roundTo)

inductive Side where
  | buy
  | sell
deriving DecidableEq, Repr

def Side.other : Side → Side
  | .buy => .sell
  | .sell => .buy

def Side.text : Side → String
  | .buy => "BUY"
  | .sell => "SELL"

/-- `side.lower()`. -/
def Side.lowerText : Side → String
  | .buy => "buy"
  | .sell => "sell"

/-- `_MAX_LIMIT_REVISION`. -/
def maxLimitRevision : Nat := 1000000

/-- A revision number, `0 <= revision <= _MAX_LIMIT_REVISION`. -/
abbrev Revision := Fin (maxLimitRevision + 1)

def Revision.zero : Revision := ⟨0, Nat.succ_pos _⟩

/-- The next revision, if it is not exhausted. -/
def Revision.next (r : Revision) : Option Revision :=
  if h : r.val < maxLimitRevision then some ⟨r.val + 1, Nat.succ_lt_succ h⟩ else none

/-- A ticket as it is held: `isStop` says that this object is `self.stop_ticket`. -/
structure OrderTicket where
  orderId : String
  side : Side
  price : ℚ
  qty : ℚ
  active : Bool := true
  pairId : Option String := none
  revision : Revision := Revision.zero
  isStop : Bool := false
  price_pos : 0 < price
  qty_pos : 0 < qty
deriving DecidableEq

inductive OrderStatus where
  | opened
  | closed
  | canceled
  | expired
deriving DecidableEq, Repr

/-- `status in {"closed", "canceled", "expired"}`. -/
def OrderStatus.terminal : OrderStatus → Bool
  | .opened => false
  | .closed => true
  | .canceled => true
  | .expired => true

@[ext]
structure OrderSnapshot where
  status : OrderStatus := .opened
  filledQty : ℚ := 0
  cost : ℚ := 0
  fee : ℚ := 0
  filledQty_nonneg : 0 ≤ filledQty := by decide
  cost_nonneg : 0 ≤ cost := by decide
  fee_nonneg : 0 ≤ fee := by decide

instance : DecidableEq OrderSnapshot := fun a b =>
  decidable_of_iff
    (a.status = b.status ∧ a.filledQty = b.filledQty ∧ a.cost = b.cost ∧ a.fee = b.fee)
    OrderSnapshot.ext_iff.symm

theorem OrderSnapshot.nothing_nonneg : (0 : ℚ) ≤ 0 := le_refl 0

/-- `OrderSnapshot()`. -/
def OrderSnapshot.unread : OrderSnapshot where
  filledQty_nonneg := OrderSnapshot.nothing_nonneg
  cost_nonneg := OrderSnapshot.nothing_nonneg
  fee_nonneg := OrderSnapshot.nothing_nonneg

structure PairPolicy where
  adjustmentFraction : ℚ
  quoteTtlSec : ℚ := 32
  pollSec : ℚ := 1
  fastFillRatio : ℚ := 1 / 4
  minEdgeFraction : ℚ := 23 / 2000
  shockHardStopFraction : ℚ := 1 / 25
  hardStopFraction : ℚ := 2 / 25
  priceDecimals : ℤ := 4
  adjustment_range : 0 < adjustmentFraction ∧ adjustmentFraction < 1
  seconds_pos : 0 < quoteTtlSec ∧ 0 < pollSec
  fastFill_range : 0 < fastFillRatio ∧ fastFillRatio ≤ 1
  minEdge_range : 0 ≤ minEdgeFraction ∧ minEdgeFraction < 1
  shock_range : 0 < shockHardStopFraction ∧ shockHardStopFraction < 1
  hardStop_range : shockHardStopFraction ≤ hardStopFraction ∧ hardStopFraction < 1

/-! ## Prices -/

/-- Bid and ask symmetric around the same market snapshot. -/
def quotePrices (mid adjustmentFraction : ℚ) (decimals : ℤ) : Except String (ℚ × ℚ) :=
  if mid ≤ 0 then .error "mid must be positive"
  else
    .ok (roundTo (mid * (1 - adjustmentFraction)) decimals,
      roundTo (mid * (1 + adjustmentFraction)) decimals)

/-- The exit target: never below cost plus edge, never chasing a loss. -/
def anchoredExitPrice (exitSide : Side) (fillPrice currentPrice adjustmentFraction
    minEdgeFraction : ℚ) (decimals : ℤ) : Except String ℚ :=
  if fillPrice ≤ 0 ∨ currentPrice ≤ 0 then .error "the prices must be positive"
  else
    match exitSide with
    | .sell =>
        .ok (roundTo (max (currentPrice * (1 + adjustmentFraction))
          (fillPrice / (1 - minEdgeFraction))) decimals)
    | .buy =>
        .ok (roundTo (min (currentPrice * (1 - adjustmentFraction))
          (fillPrice * (1 - minEdgeFraction))) decimals)

/-- `math.isclose(a, b, rel_tol=1e-6, abs_tol=1e-8)`. -/
def isClose (a b : ℚ) : Bool := |a - b| ≤ max (1 / 1000000 * max |a| |b|) (1 / 100000000)

/-- What the coordinator treats as zero. -/
def flatTolerance : ℚ := 1 / 100000000

/-! ## Reasons -/

/-- `str(reason or "").split(":", 1)[0].endswith("_recovery_pending")`. -/
def isRecoveryPending (reason : Option String) : Bool :=
  endsWith (beforeColon (reason.getD "")) "_recovery_pending"

/-- The number an intent kind carries after its prefix. -/
def intentRevision (kind stem : String) : Option Revision :=
  if kind = stem then some Revision.zero
  else if startsWith kind (stem ++ "_") then
    let suffix := kind.toList.drop (stem.toList.length + 1)
    if suffix ≠ [] ∧ suffix.all Char.isDigit then
      let revision := suffix.foldl (fun n ch => 10 * n + (ch.toNat - 48)) 0
      if h : 0 < revision ∧ revision ≤ maxLimitRevision then
        some ⟨revision, Nat.lt_succ_of_le h.2⟩
      else none
    else none
  else none

example : intentRevision "limit" "limit" = some 0 ∧ intentRevision "limit_12" "limit" = some 12 ∧
    intentRevision "hard_stop_1" "limit" = none ∧ intentRevision "limit_0" "limit" = none := by
  decide

end TradingFleet.Pair
