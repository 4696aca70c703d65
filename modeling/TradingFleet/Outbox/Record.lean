import Mathlib.Data.Rat.Defs
import Mathlib.Algebra.Order.Field.Rat
import Mathlib.Algebra.Order.Group.Unbundled.Abs
import TradingFleet.Basic.Text

set_option autoImplicit false

/-! # Records of the order outbox

The durable outbox of `order_retry.py` is a JSONL file of records. This file gives the data
model of one record, the retry configuration, and the predicates the operations decide
with: whether a record may already exist at a venue (`isPossiblySubmitted`), whether it may
be thrown away under capacity pressure (`safeToEvictForCapacity`), whether it has expired,
is due, and passes the price gate.

Floats are exact rationals, so the `isfinite` guards of the source hold of every value. A
JSON object key that the source sets and pops is an `Option` field.
-/

namespace TradingFleet.Outbox

open TradingFleet.Text

/-! ## Data -/

inductive Side where
  | buy
  | sell
deriving DecidableEq, Repr

/-- `str(side or "").upper()` when it is one of `BUY`, `SELL`. -/
def Side.parse (s : String) : Option Side :=
  if upper s = "BUY" then some .buy
  else if upper s = "SELL" then some .sell
  else none

inductive Lifecycle where
  | submitPending
  | awaitingCancel
  | accepted
deriving DecidableEq, Repr

inductive SubmissionState where
  | producerClaimed
  | unknown
  | refused
  | accepted
deriving DecidableEq, Repr

/-- A JSON object of placement options. A value `none` is JSON `null`. -/
abbrev Kwargs := List (String × Option String)

namespace Kwargs

/-- `kwargs.get(key)`. -/
def get (kw : Kwargs) (key : String) : Option String := (kw.lookup key).join

/-- `kwargs[key] = value`. -/
def set (kw : Kwargs) (key value : String) : Kwargs :=
  (key, some value) :: kw.filter (fun p => p.1 ≠ key)

/-- `kwargs.setdefault(key, value)`: a key that is present keeps its value, `null` too. -/
def setdefault (kw : Kwargs) (key value : String) : Kwargs :=
  if (kw.lookup key).isSome then kw else (key, some value) :: kw

end Kwargs

inductive VenueState where
  | open
  | closed
  | canceled
  | expired
deriving DecidableEq, Repr

def VenueState.text : VenueState → String
  | .open => "open"
  | .closed => "closed"
  | .canceled => "canceled"
  | .expired => "expired"

/-- `OrderStatus` of `providers/strategy_executor.py`: the constructor refuses a negative
quantity or cost; a negative fee is a maker rebate. -/
@[ext]
structure OrderStatus where
  status : VenueState
  filledQty : ℚ
  cost : ℚ
  fee : ℚ
  venueStatus : String := ""
  filledQty_nonneg : 0 ≤ filledQty := by decide +kernel
  cost_nonneg : 0 ≤ cost := by decide +kernel

instance : DecidableEq OrderStatus := fun a b =>
  decidable_of_iff (a.status = b.status ∧ a.filledQty = b.filledQty ∧ a.cost = b.cost ∧
    a.fee = b.fee ∧ a.venueStatus = b.venueStatus) OrderStatus.ext_iff.symm

def OrderStatus.terminal (st : OrderStatus) : Bool := st.status ≠ .open

/-- A submit or lookup response: what `order_id_from_response` extracts from it, and its
native status text. -/
structure OrderPayload where
  orderId : Option String
  status : Option String
deriving DecidableEq, Repr

/-- The final part of an order's history row, present when a terminal status closed it. -/
structure HistoryStatus where
  status : String
  venueStatus : String
  filledQty : ℚ
  cost : ℚ
  fee : ℚ
deriving DecidableEq, Repr

structure HistoryRow where
  orderId : String
  clientOrderId : Option String
  revision : Nat
  observedAt : ℚ
  status : Option HistoryStatus
deriving DecidableEq, Repr

/-- One persisted outbox record. `safeToDiscard` is the presence of the key
`safe_to_discard` (its only stored value is `True`). -/
structure Record where
  id : String
  intentId : String
  providerName : Option String
  symbol : String
  side : Side
  kind : Option String
  qty : ℚ
  requestedQtyTotal : ℚ
  deliveredQty : ℚ
  placeKwargs : Kwargs
  requestedPrice : Option ℚ
  refPrice : Option ℚ
  createdTs : ℚ
  attempts : Nat
  lastAttemptTs : ℚ
  lastFailureReason : Option String
  ttlStartedTs : ℚ
  revision : Nat
  lifecycle : Lifecycle
  replacesOrderId : Option String := none
  replacesOriginalQty : Option ℚ := none
  safeToDiscard : Bool := false
  claimToken : Option String := none
  claimUntil : Option ℚ := none
  claimRevision : Option Nat := none
  submissionState : Option SubmissionState := none
  producerPid : Option Nat := none
  producerProcessStartId : Option String := none
  orderId : Option String := none
  acceptedTs : Option ℚ := none
  lastStatusTs : Option ℚ := none
  lastStatus : Option String := none
  submitStatus : Option String := none
  venueStatus : Option String := none
  statusError : Option String := none
  filledQty : Option ℚ := none
  filledCost : Option ℚ := none
  filledFee : Option ℚ := none
  orderHistory : List HistoryRow := []
deriving DecidableEq, Repr

/-- The queue file, one record a line. -/
abbrev Queue := List Record

/-- `dict(rec.get("place_kwargs") or {}).get("client_order_id")`. -/
def Record.clientOrderId (r : Record) : Option String := r.placeKwargs.get "client_order_id"

/-! ## Configuration -/

/-- `order_retry_config.env`, with what `_validate_retry_config` refuses at import. -/
structure Config where
  retryEnabled : Bool
  intervalSec : ℚ
  ttlSec : ℚ
  maxAttempts : Nat
  priceTol : ℚ
  dedup : Bool
  maxQueue : Nat
  claimLeaseSec : ℚ
  notFoundMaxAgeSec : ℚ
  interval_pos : 0 < intervalSec := by decide +kernel
  ttl_pos : 0 < ttlSec := by decide +kernel
  lease_pos : 0 < claimLeaseSec := by decide +kernel
  notFound_pos : 0 < notFoundMaxAgeSec := by decide +kernel
  tol_nonneg : 0 ≤ priceTol := by decide +kernel
  tol_lt_one : priceTol < 1 := by decide +kernel

/-- The checked-in values of `order_retry_config.env`. -/
def Config.repository : Config where
  retryEnabled := true
  intervalSec := 300
  ttlSec := 86400
  maxAttempts := 0
  priceTol := 2 / 1000
  dedup := false
  maxQueue := 500
  claimLeaseSec := 120
  notFoundMaxAgeSec := 2592000

/-! ## Reasons -/

def nonFailureDeferralReasons : List String :=
  ["trend_deferred", "account_cache_not_fresh", "account_cache_snapshot_changed",
    "retry_price_unfavorable"]

/-- Whether a pre-submit refusal pauses attempts and retry TTL. -/
def isNonFailureDeferral (reason : Option String) : Bool :=
  match reason with
  | none => false
  | some s => nonFailureDeferralReasons.contains s

/-- Whether unchanged order data can never pass its venue filters. -/
def isTerminalFilterRefusal (reason : Option String) : Bool :=
  let value := reason.getD ""
  value = "below_min_notional" || startsWith value "binance_filter_refused:"

def possiblySubmittedReasons : List String :=
  ["", "submit_pending", "submit_ambiguous", "response_without_order_id"]

/-- `str(rec.get("last_failure_reason") or "").strip().lower()`. -/
def Record.reasonKey (r : Record) : String := lower (strip (r.lastFailureReason.getD ""))

/-- Whether an intent may already exist at its configured venue. -/
def isPossiblySubmitted (r : Record) : Bool :=
  if r.lifecycle ≠ .submitPending then false
  else
    match r.submissionState with
    | some .refused => false
    | some .producerClaimed => true
    | some .unknown => true
    | _ => possiblySubmittedReasons.contains r.reasonKey

/-! ## Validity, evidence and eviction -/

/-- `str(value or "").strip()` is not empty. -/
def nonblank (value : Option String) : Bool := strip (value.getD "") ≠ ""

/-- The lifecycle part of `valid_record`: an accepted record names its order, a replacement
names the order it waits for and that order's quantity. -/
def lifecycleOk (r : Record) : Bool :=
  match r.lifecycle with
  | .submitPending => true
  | .accepted => nonblank r.orderId
  | .awaitingCancel =>
      nonblank r.replacesOrderId &&
        (match r.replacesOriginalQty with
          | none => false
          | some q => decide (0 < q))

/-- Whether a persisted record is safe to evaluate or submit. -/
def validRecord (r : Record) : Bool :=
  r.id ≠ "" && r.symbol ≠ "" && decide (0 < r.qty) && decide (0 < r.createdTs) && lifecycleOk r

/-- Whether two pending trend deferrals represent one current intent. A missing provider
name is a wildcard. -/
def sameDeferredStream (left right : Record) : Bool :=
  let deferred := fun r : Record =>
    r.lifecycle = .submitPending && r.lastFailureReason = some "trend_deferred"
  let leftProvider := lower (strip (left.providerName.getD ""))
  let rightProvider := lower (strip (right.providerName.getD ""))
  deferred left && deferred right &&
    (leftProvider = "" || rightProvider = "" || leftProvider = rightProvider) &&
    left.symbol = right.symbol && left.side = right.side &&
    left.kind.filter (· ≠ "") = right.kind.filter (· ≠ "")

/-- Whether a record contains any lease ownership state. -/
def recordHasClaim (r : Record) : Bool :=
  r.claimToken.isSome || r.claimRevision.isSome || r.claimUntil.isSome

/-- The tolerance below which a quantity counts as none: `max(1e-12, x * 1e-9)`. -/
def qtyTolerance (x : ℚ) : ℚ := max (1 / 10 ^ 12) (x / 10 ^ 9)

/-- Whether an optional number is present and not zero. -/
def nonzero : Option ℚ → Bool
  | none => false
  | some x => x ≠ 0

/-- Whether a record may represent an order or a terminal remainder. -/
def hasPriorVenueEvidence (r : Record) : Bool :=
  r.lifecycle ≠ .submitPending ||
    truthy r.orderId || r.acceptedTs.isSome || truthy r.submitStatus ||
    truthy r.venueStatus || truthy r.statusError || r.orderHistory ≠ [] ||
    truthy r.replacesOrderId || r.replacesOriginalQty.isSome ||
    startsWith r.reasonKey "terminal_" ||
    r.deliveredQty ≠ 0 || nonzero r.filledQty || nonzero r.filledCost ||
    nonzero r.filledFee ||
    decide (qtyTolerance |r.requestedQtyTotal| < |r.requestedQtyTotal - r.qty|)

/-- Persist explicit pre-submit discard eligibility, or fail closed. -/
def setSafeToDiscard (r : Record) (eligible : Bool) : Record :=
  { r with safeToDiscard := eligible && !hasPriorVenueEvidence r }

/-- Whether capacity pressure may discard this record. -/
def safeToEvictForCapacity (r : Record) : Bool :=
  r.lifecycle = .submitPending && !recordHasClaim r &&
    !(truthy r.orderId || r.acceptedTs.isSome || truthy r.submitStatus ||
      truthy r.venueStatus || truthy r.statusError) &&
    r.safeToDiscard && !isPossiblySubmitted r && !hasPriorVenueEvidence r

/-! ## Expiry, cadence and the price gate -/

/-- True after the active retry TTL or the hard attempt limit. An accepted order, a
replacement and an ambiguous submission never expire. -/
def isExpired (cfg : Config) (r : Record) (now : ℚ) : Bool :=
  if r.lifecycle = .accepted || r.lifecycle = .awaitingCancel || isPossiblySubmitted r then false
  else if decide (r.createdTs ≤ 0) || decide (r.ttlStartedTs ≤ 0) then true
  else if decide (now < r.claimUntil.getD 0) then false
  else if isNonFailureDeferral r.lastFailureReason then false
  else
    decide (cfg.ttlSec < now - r.ttlStartedTs) ||
      (decide (0 < cfg.maxAttempts) && decide (cfg.maxAttempts ≤ r.attempts))

/-- The time the retry interval is measured from. -/
def dueBase (r : Record) : ℚ :=
  if r.lifecycle = .accepted || r.lifecycle = .awaitingCancel then
    max (max (r.lastStatusTs.getD 0) (r.acceptedTs.getD 0)) r.createdTs
  else max r.lastAttemptTs r.createdTs

/-- True once the retry interval has elapsed since creation or the last attempt. -/
def isDue (cfg : Config) (r : Record) (now : ℚ) : Bool :=
  decide (r.claimUntil.getD 0 ≤ now) && decide (cfg.intervalSec ≤ now - dueBase r)

/-- Whether the current price is favorable relative to the stored request. -/
def priceGateOk (cfg : Config) (r : Record) (currentPrice : Option ℚ) : Bool :=
  match currentPrice, r.requestedPrice with
  | some current, some req =>
      if decide (current ≤ 0) || decide (req ≤ 0) then false
      else
        match r.side with
        | .sell => decide (req * (1 - cfg.priceTol) ≤ current)
        | .buy => decide (current ≤ req * (1 + cfg.priceTol))
  | _, _ => false

end TradingFleet.Outbox
