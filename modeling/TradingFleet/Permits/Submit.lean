import Mathlib.Data.NNRat.Defs
import TradingFleet.Basic.Hoare
import TradingFleet.Permits.Health

set_option autoImplicit false

/-! # Submit permits

`bapi_placeorder.py` lets a replacement flow validate the account caches before it cancels an
order: `issue_account_cache_submit_permit` returns a permit for one order, and
`_submit_binance_order` consumes it. Both read two clocks at several moments. A call carries the
time that passes before each of its readings, so the clocks never go back.

What a call writes before it raises stays written, so the calls are `EStateM` programs.
-/

namespace TradingFleet.Permits

open TradingFleet.Orders (SymbolInfo BinanceOrderRules toIntegralDown)

/-! ## Clocks -/

/-- `time.time()` and `time.monotonic()`. -/
structure Clock where
  wall : ℚ
  mono : ℚ
deriving DecidableEq

/-- What passes on either clock. -/
structure Elapsed where
  wall : ℚ≥0
  mono : ℚ≥0
deriving DecidableEq

def Clock.after (c : Clock) (d : Elapsed) : Clock := ⟨c.wall + d.wall, c.mono + d.mono⟩

/-- `_now_ms()`. -/
def Clock.nowMs (c : Clock) : ℤ := toIntegralDown (c.wall * 1000)

/-! ## Permits and orders -/

/-- What `float` makes of an argument. -/
inductive Value where
  | raises
  | nonfinite
  | finite (q : ℚ)
deriving DecidableEq

def Value.isFinite : Value → Option ℚ
  | .finite q => some q
  | _ => none

/-- A status that was found ready, with the reading it was judged from. -/
structure Confirmed where
  status : CacheHealthStatus
  read : HealthRead
  nowMs : ℤ

/-- `_AccountCacheSubmitPermit` with its scope. Beside what the source keeps it records the
reading it rests on and the wall clock at its construction. -/
structure Permit where
  pid : Nat
  issuedAt : ℚ
  expiresAt : ℚ
  expiresAtWall : ℚ
  orderCacheVersion : String
  tradeCacheVersion : String
  symbol : String
  side : String
  maxQty : ℚ
  requestedPrice : Option ℚ
  priceTickSize : ℚ
  market : Bool
  kind : String
  consumed : Bool := false
  basis : Confirmed
  issuedAtWall : ℚ

/-- One call of a client's order method, with the wall clock at its moment. -/
structure ClientOrder where
  permit : Option Nat
  pid : Nat
  symbol : String
  side : String
  market : Bool
  kind : String
  qty : Value
  price : Value
  calledAt : ℚ
deriving DecidableEq

/-- What the client is asked. -/
inductive Action where
  | cancel (orderId : Nat)
  | order (o : ClientOrder)
deriving DecidableEq

structure Desk where
  clock : Clock
  permits : List Permit := []
  actions : List Action := []

abbrev PermitM := EStateM String Desk

def pass (d : Elapsed) : PermitM Unit := modify (fun s => { s with clock := s.clock.after d })

def refuseIf (c : Prop) [Decidable c] (reason : String) : PermitM Unit :=
  if c then throw reason else pure ()

def cacheNotFresh : String := "account_cache_not_fresh"

/-! ## Validation of the caches -/

/-- One round of `require_account_cache_for_submit`. -/
structure Attempt where
  beforeRequest : Elapsed
  requested : HealthRead
  readersCurrent : Bool
  beforeConfirm : Elapsed
  confirmed : HealthRead

structure CacheCheck where
  enabled : Bool
  first : Attempt
  second : Attempt

section Calls

variable (H : HealthConfig)

/-- `require_fresh_account_cache`. -/
def requireFreshAccountCache (r : HealthRead) : PermitM Confirmed := do
  let s ← get
  let status := inspectHealth H r s.clock.nowMs
  if status.ready then pure ⟨status, r, s.clock.nowMs⟩ else throw status.reason

/-- The confirmed status, or none if the versions changed in between. -/
def attempt (a : Attempt) : PermitM (Option Confirmed) := do
  pass a.beforeRequest
  let requested ← requireFreshAccountCache H a.requested
  refuseIf (a.readersCurrent = false) "account_cache_reader_not_current"
  pass a.beforeConfirm
  let confirmed ← requireFreshAccountCache H a.confirmed
  if requested.status.orderCacheVersion = confirmed.status.orderCacheVersion ∧
      requested.status.tradeCacheVersion = confirmed.status.tradeCacheVersion then
    pure (some confirmed)
  else pure none

/-- The two rounds. -/
def attempts (x : CacheCheck) : PermitM Confirmed := do
  match ← attempt H x.first with
  | some confirmed => pure confirmed
  | none =>
      match ← attempt H x.second with
      | some confirmed => pure confirmed
      | none => throw "account_cache_changed_during_reader_sync"

/-- `require_account_cache_for_submit`. -/
def requireAccountCacheForSubmit (x : CacheCheck) : PermitM Confirmed := do
  refuseIf (x.enabled = false) "trading_disabled"
  tryCatch (attempts H x) (fun _ => throw cacheNotFresh)

/-- Both ages leave room for the lifetime of a permit. -/
def hasHeadroom (status : CacheHealthStatus) : Bool :=
  match status.orderAgeSec, status.tradeAgeSec with
  | some orderAge, some tradeAge => max orderAge tradeAge + H.permitTtlSec ≤ H.maxAgeSec
  | _, _ => false

/-- `_require_submit_permit_headroom(require_account_cache_for_submit())`. -/
def requireHeadroom (x : CacheCheck) : PermitM Confirmed := do
  let confirmed ← requireAccountCacheForSubmit H x
  refuseIf (hasHeadroom H confirmed.status = false) cacheNotFresh
  pure confirmed

/-! ## Issuing -/

/-- A call of `issue_account_cache_submit_permit`. -/
structure IssueCall where
  pid : Nat
  symbol : String
  side : String
  qty : Value
  price : Value
  market : Bool
  kind : Option String
  enabled : Bool
  early : CacheCheck
  info : Option SymbolInfo
  late : CacheCheck
  /-- from the last reading of the caches to the construction of the permit -/
  toIssue : Elapsed

/-- The quantity and the price, or none for parameters that are refused. -/
def orderParameters (x : IssueCall) : Option (ℚ × Option ℚ) :=
  match x.qty.isFinite with
  | none => none
  | some qty =>
      if (Text.upper x.side ≠ "BUY" ∧ Text.upper x.side ≠ "SELL") ∨ Text.upper x.symbol = "" ∨
          qty ≤ 0 then none
      else if x.market then some (qty, none)
      else
        match x.price.isFinite with
        | none => none
        | some price => if price ≤ 0 then none else some (qty, some price)

/-- `price_tick_size`. -/
def priceTickSize (x : IssueCall) : PermitM ℚ :=
  if x.market then pure 0
  else
    match BinanceOrderRules.fromSymbolInfo x.info with
    | .ok rules => pure rules.tickSize.1
    | .error _ => throw "binance_symbol_rules_unavailable"

/-- The permit of a call, constructed at a clock. -/
def newPermit (x : IssueCall) (qty : ℚ) (price : Option ℚ) (tick : ℚ) (confirmed : Confirmed)
    (c : Clock) : Permit where
  pid := x.pid
  issuedAt := c.mono
  expiresAt := c.mono + H.permitTtlSec
  expiresAtWall := c.wall + H.permitTtlSec
  orderCacheVersion := confirmed.status.orderCacheVersion
  tradeCacheVersion := confirmed.status.tradeCacheVersion
  symbol := Text.upper x.symbol
  side := Text.upper x.side
  maxQty := qty
  requestedPrice := price
  priceTickSize := tick
  market := x.market
  kind := x.kind.getD ""
  basis := confirmed
  issuedAtWall := c.wall

/-- `issue_account_cache_submit_permit`. -/
def issuePermit (x : IssueCall) : PermitM Unit := do
  match orderParameters x with
  | none => throw "invalid_order_parameters"
  | some (qty, price) =>
      refuseIf (x.enabled = false) "trading_disabled"
      let _ ← requireHeadroom H x.early
      let tick ← priceTickSize x
      let confirmed ← requireHeadroom H x.late
      pass x.toIssue
      modify (fun s =>
        { s with permits := s.permits ++ [newPermit H x qty price tick confirmed s.clock] })

/-! ## Submitting -/

/-- An open order of the other side, and whether its cancellation is confirmed. -/
structure Opposing where
  orderId : Nat
  price : ℚ
  canceled : Bool

/-- A call of `_submit_binance_order`. An object that is no permit has an index of none. -/
structure SubmitCall where
  pid : Nat
  orderType : String
  symbol : String
  qty : Value
  price : Value
  market : Bool
  permit : Option Nat
  permitRequestedPrice : Value
  kind : Option String
  cancelRequestedPrice : Option Value
  enabledBefore : Bool
  check : CacheCheck
  /-- to the readings of the clocks that the permit is compared with -/
  toConsume : Elapsed
  enabled : Bool
  opposing : Option (List Opposing)
  /-- from these readings to the call of the client, through the cancellations -/
  toCall : Elapsed

def SubmitCall.side (x : SubmitCall) : String := Text.upper x.orderType

/-- `price_is_safe` of a limit order. -/
def Permit.priceIsSafe (p : Permit) (actualPrice requestedPrice : Value) : Bool :=
  match actualPrice, requestedPrice with
  | .finite submitted, .finite scopedPrice =>
      0 < submitted && p.requestedPrice = some scopedPrice &&
        ((p.side = "BUY" && submitted ≤ scopedPrice) ||
          (p.side = "SELL" && scopedPrice ≤ submitted + p.priceTickSize))
  | _, _ => false

/-- `matches`, at the readings of the clocks. -/
def Permit.accepts (p : Permit) (x : SubmitCall) (c : Clock) : Bool :=
  p.pid = x.pid && c.mono ≤ p.expiresAt && c.wall ≤ p.expiresAtWall &&
    p.orderCacheVersion ≠ "" && p.tradeCacheVersion ≠ "" && p.symbol = Text.upper x.symbol &&
    p.side = x.side && p.market = x.market && p.kind = x.kind.getD "" &&
    x.qty.isFinite.any (fun q => 0 < q && q ≤ p.maxQty) &&
    (p.market || p.priceIsSafe x.price x.permitRequestedPrice)

def burn (permits : List Permit) (i : Nat) : List Permit :=
  permits.modify i (fun p => { p with consumed := true })

/-- `_consume_account_cache_submit_permit`. A market order with the permit of a limit order
compares a price it has not. -/
def consumePermit (x : SubmitCall) (i : Nat) : PermitM Unit := do
  let s ← get
  match s.permits[i]? with
  | none => throw cacheNotFresh
  | some p =>
      refuseIf (p.consumed = true) cacheNotFresh
      modify (fun s => { s with permits := burn s.permits i })
      refuseIf (x.qty = .raises ∨ (x.market = false ∧
        (x.price = .raises ∨ x.permitRequestedPrice = .raises))) cacheNotFresh
      refuseIf (p.market = false ∧ x.market = true) "must be real number, not NoneType"
      pass x.toConsume
      refuseIf (p.accepts x (s.clock.after x.toConsume) = false) cacheNotFresh

/-- The price of the opposing cancellation, if one is asked for. -/
def opposingCancelPrice (x : SubmitCall) : Except String (Option ℚ) :=
  match x.cancelRequestedPrice with
  | none => .ok none
  | some value =>
      match value.isFinite with
      | none => .error "invalid_opposing_cancel_request"
      | some price =>
          if price ≤ 0 then .error "invalid_opposing_cancel_request"
          else if x.permit = none then .error cacheNotFresh
          else .ok (some price)

/-- An opposing order that the requested price crosses. -/
def adverse (side : String) (requestedPrice : ℚ) (o : Opposing) : Bool :=
  if side = "BUY" then o.price < requestedPrice
  else if side = "SELL" then requestedPrice < o.price
  else false

/-- The orders whose cancellation is requested, up to the first that is not confirmed. -/
def cancelUntilRefused : List Opposing → List Opposing
  | [] => []
  | o :: rest => if o.canceled then o :: cancelUntilRefused rest else [o]

/-- `cancel_opposite_orders`. -/
def cancelOppositeOrders (x : SubmitCall) (requestedPrice : ℚ) : PermitM Unit :=
  if x.side ≠ "BUY" ∧ x.side ≠ "SELL" then pure ()
  else match x.opposing with
  | none => throw "opposing_order_discovery_unavailable"
  | some orders => do
      let crossed := orders.filter (adverse x.side requestedPrice)
      modify (fun s => { s with
        actions := s.actions ++ (cancelUntilRefused crossed).map (fun o => .cancel o.orderId) })
      refuseIf (crossed.any (fun o => !o.canceled) = true) "opposing_cancel_unconfirmed"

/-- May the order go out? -/
def authorize (x : SubmitCall) : PermitM Bool :=
  match x.permit with
  | none =>
      if (x.side ≠ "BUY" ∧ x.side ≠ "SELL") ∨ x.enabledBefore = false then pure false
      else do
        let _ ← requireAccountCacheForSubmit H x.check
        refuseIf (x.enabled = false) "trading_disabled"
        pure true
  | some i => do
      consumePermit x i
      refuseIf (x.enabled = false) "trading_disabled"
      pure true

def clientOrder (x : SubmitCall) (c : Clock) : ClientOrder :=
  ⟨x.permit, x.pid, x.symbol, x.side, x.market, x.kind.getD "", x.qty, x.price, c.wall⟩

/-- The opposing cancellations, if they are asked for. -/
def cancelFirst (x : SubmitCall) : Option ℚ → PermitM Unit
  | some price => cancelOppositeOrders x price
  | none => pure ()

/-- The call of the client's order method. -/
def dispatch (x : SubmitCall) (cancelPrice : Option ℚ) : PermitM Unit := do
  cancelFirst x cancelPrice
  pass x.toCall
  modify (fun s => { s with actions := s.actions ++ [.order (clientOrder x s.clock)] })

/-- `_submit_binance_order`. -/
def submitBinanceOrder (x : SubmitCall) : PermitM Unit :=
  match opposingCancelPrice x with
  | .error reason => throw reason
  | .ok cancelPrice => do
      let authorized ← authorize H x
      if authorized then dispatch x cancelPrice else pure ()

/-! ## Runs -/

inductive Call where
  | issue (x : IssueCall)
  | submit (x : SubmitCall)

def ended {α : Type} : EStateM.Result String Desk α → Desk
  | .ok _ s => s
  | .error _ s => s

def serve (s : Desk) : Call → Desk
  | .issue x => ended (issuePermit H x s)
  | .submit x => ended (submitBinanceOrder H x s)

end Calls

end TradingFleet.Permits
