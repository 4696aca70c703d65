import TradingFleet.Basic.Hoare
import TradingFleet.Basic.Runs
import TradingFleet.Basic.Text
import TradingFleet.Trading212.Types

set_option autoImplicit false

/-! # Trading 212: the one-shot order

`place_order_with_retry` of `212trading/order_manager.py` makes one step for an order that has to be
placed once. Nothing is kept in memory between two calls: a call reads the marker file, asks the venue,
and writes the marker before and after the POST. A call is given with all answers it gets, so a
sequence of calls is any sequence of lost responses, failed writes and crashes. The price that is
read for information only is left out.
-/

namespace TradingFleet.Trading212.OneShot

open TradingFleet.Text TradingFleet.Hoare
open TradingFleet.Rounding (roundTo)

/-! ## The marker -/

/-- `lifecycle`; `CANCELLED` is written as `canceled`. -/
inductive Lifecycle where
  | submitPending
  | accepted
  | opened
  | statusUnknown
  | filled
  | canceled
  | expired
deriving DecidableEq

def Lifecycle.terminal : Lifecycle → Bool
  | .filled | .canceled | .expired => true
  | _ => false

/-- A marker of version 2. -/
structure Record where
  intentId : String
  ticker : String
  qty : ℚ
  limitPrice : ℚ
  validity : String
  beforeQty : Option ℚ
  createdAt : ℚ
  attempts : Nat := 0
  lookupMisses : Nat := 0
  lifecycle : Lifecycle := .submitPending
  nextRetryAt : ℚ
  orderId : Option String := none
  venueOrderIds : List String := []
  venueStatus : Option String := none
  lastSubmitAt : Option ℚ := none
  lastObservedAt : Option ℚ := none
  filledQty : Option ℚ := none
  submitError : Option String := none
deriving DecidableEq

/-- The ID, unless it is empty. -/
def Record.knownOrder (r : Record) : Option String := r.orderId.filter (fun id => id ≠ "")

/-- Before version 2 only the accepted order was kept. -/
inductive Marker where
  | legacy (ticker : String) (orderId : Option String) (lastStatus : Option String)
  | record (r : Record)
deriving DecidableEq

def Marker.ticker : Marker → String
  | .legacy ticker _ _ => ticker
  | .record r => r.ticker

/-! ## A call -/

/-- `atomic_write_json`: a write that fails, or in which the process dies, has replaced the file or
has not. -/
inductive Write where
  | stored
  | lost (replaced : Bool)
deriving DecidableEq

/-- What comes back from the POST; `body` is the payload as JSON. -/
inductive Submission where
  | response (status : Nat) (orderId : Option String) (venueStatus : Option String) (body : String)
  | raised (error : String)
  /-- the process dies -/
  | died
deriving DecidableEq

/-- The arguments of a call, what `float` makes of its numbers, and all answers it gets. An `error` is
not caught; lists and statuses are `none` when they cannot be read. -/
structure Call where
  quantity : Option ℚ
  limitPrice : Option ℚ
  validity : String
  dryRun : Bool
  /-- the flag also chooses the file -/
  writeMarker : Bool
  retryDelay : Option ℚ
  now : ℚ
  intentId : String
  markerReads : Bool
  legacyReads : Bool
  orderStatus : Except Unit (Option String)
  activeOrders : Except Unit (Option (List Active))
  portfolio : Except Unit (Option (List (String × Option ℚ)))
  submit : Submission
  migration : Write
  reconciliation : Write
  intent : Write
  answer : Write

structure Setup where
  ticker : String
  /-- the file of before version 2, which is only read -/
  legacy : Option Marker

/-! ## The log -/

/-- What a call has seen and done. -/
inductive Event where
  /-- with the marker on disk -/
  | post (marker : Option Marker) (qty limit now : ℚ)
  /-- without a known order: the active orders that match, and the position -/
  | reconciled (r : Record) (found : Option (List Active)) (position : Option ℚ) (now : ℚ)

/-- The files by `writeMarker`, and the events under each of them, newest first. -/
structure World where
  marker : Bool → Option Marker
  events : Bool → List Event

/-- A call that raises and one that dies both end. -/
abbrev OrderM := EStateM Unit World

variable (S : Setup) (c : Call)

def mark (e : Event) : OrderM Unit :=
  modify (fun w => { w with
    events := Function.update w.events c.writeMarker (e :: w.events c.writeMarker) })

/-- `_persist_marker`. -/
def persistMarker (write : Write) (m : Marker) : OrderM Unit := fun w =>
  let written : World := { w with marker := Function.update w.marker c.writeMarker (some m) }
  match write with
  | .stored => .ok () written
  | .lost replaced => .error () (if replaced then written else w)

def answered {α : Type} : Except Unit α → OrderM α
  | .ok x => pure x
  | .error e => throw e

/-- `_read_or_migrate_marker`; `none` if a file cannot be read or written. -/
def readOrMigrateMarker : OrderM (Option (Option Marker)) := do
  let w ← get
  if c.markerReads = false then pure none
  else match w.marker c.writeMarker with
    | some m => pure (some (some m))
    | none =>
        if c.legacyReads = false then pure none
        else match S.legacy with
          | none => pure (some none)
          | some m =>
              if upper m.ticker ≠ upper S.ticker then pure (some none)
              else tryCatch (do
                  persistMarker c c.migration m
                  pure (some (some m))) (fun _ => pure none)

/-! ## Reconciliation -/

/-- `T212_ORDER_OPEN`. -/
def openStatuses : List String :=
  ["LOCAL", "UNCONFIRMED", "CONFIRMED", "NEW", "OPEN", "PENDING", "PARTIALLY_FILLED"]

/-- `ABSENCE_CONFIRMATIONS`. -/
def absenceConfirmations : Nat := 2

inductive Outcome where
  | complete
  | terminalFailed
  | waiting
  | retryable
deriving DecidableEq

/-- An active order that may be the one of the record. -/
def Record.matchesActive (r : Record) (a : Active) : Bool :=
  match a.quantity, a.limit with
  | some q, some limit =>
      upper a.ticker = upper r.ticker && a.sideOf = some .buy && 0 < |q| &&
        |(|q| - r.qty)| ≤ max (11 / 1000) (r.qty / 10 ^ 6) && |limit - r.limitPrice| ≤ 11 / 1000
  | _, _ => false

/-- `_matching_active_orders`. -/
def Record.matching (r : Record) (orders : Option (List Active)) : Option (List Active) :=
  orders.map (List.filter r.matchesActive)

/-- `_portfolio_qty`. -/
def portfolioQty (ticker : String) : Option (List (String × Option ℚ)) → Option ℚ
  | none => none
  | some positions =>
      match positions.find? (fun p => upper p.1 = upper ticker) with
      | some p => p.2
      | none => some 0

/-- The history gets an ID once. -/
def withId (history : List String) (id : String) : List String :=
  if id ∈ history then history else history ++ [id]

/-- What a status of the known order makes of the record. -/
def Record.observed (r : Record) (orderId status : String) (now delay : ℚ) : Record :=
  let r := { r with venueStatus := some status, lastObservedAt := some now }
  if status = "FILLED" then { r with lifecycle := .filled }
  else if status = "EXPIRED" then { r with lifecycle := .expired }
  else if status = "CANCELLED" ∨ status = "CANCELED" then { r with lifecycle := .canceled }
  else if status = "REJECTED" then { r with
    lifecycle := .submitPending
    orderId := none
    venueOrderIds := withId r.venueOrderIds orderId
    lookupMisses := 0
    nextRetryAt := now + delay }
  else if status ∈ openStatuses then { r with lifecycle := .opened }
  else { r with lifecycle := .statusUnknown }

def Lifecycle.outcome : Lifecycle → Outcome
  | .filled => .complete
  | .canceled | .expired => .terminalFailed
  | _ => .waiting

/-- The position grew since the record was made. -/
def Record.grown (r : Record) (position : ℚ) : Bool :=
  match r.beforeQty with
  | some before => before + 1 / 10 ^ 6 < position
  | none => false

/-- Neither an order nor a growth: counted, and submitted again after enough of them. -/
def reconcileAbsence (r : Record) : OrderM (Record × Outcome) := do
  let r := { r with lookupMisses := r.lookupMisses + 1, lastObservedAt := some c.now }
  persistMarker c c.reconciliation (.record r)
  if r.lookupMisses < absenceConfirmations ∨ c.now < r.nextRetryAt then pure (r, .waiting)
  else pure (r, .retryable)

/-- The position decides when no active order has an ID. -/
def reconcilePosition (r : Record) (found : List Active) : OrderM (Record × Outcome) := do
  let position := portfolioQty r.ticker (← answered c.portfolio)
  mark c (.reconciled r (some found) position c.now)
  match position with
  | none => pure (r, .waiting)
  | some position =>
      if r.grown position then do
        let r := { r with
          lifecycle := .filled
          filledQty := r.beforeQty.map (fun before => position - before)
          lastObservedAt := some c.now }
        persistMarker c c.reconciliation (.record r)
        pure (r, .complete)
      else reconcileAbsence c r

/-- `_reconcile_record`. -/
def reconcileRecord (r : Record) (delay : ℚ) : OrderM (Record × Outcome) := do
  match r.knownOrder with
  | some id => do
      match ← answered c.orderStatus with
      | none => pure (r, .waiting)
      | some status => do
          let status := upper status
          let r := r.observed id status c.now delay
          persistMarker c c.reconciliation (.record r)
          pure (r, r.lifecycle.outcome)
  | none => do
      match r.matching (← answered c.activeOrders) with
      | none => do
          mark c (.reconciled r none none c.now)
          pure (r, .waiting)
      | some [] => reconcilePosition c r []
      | some [a] =>
          match a.id with
          | some id => do
              mark c (.reconciled r (some [a]) none c.now)
              let r := { r with
                orderId := some id
                lifecycle := .accepted
                lookupMisses := 0
                lastObservedAt := some c.now }
              persistMarker c c.reconciliation (.record r)
              pure (r, .waiting)
          | none => reconcilePosition c r [a]
      | some (a :: b :: rest) => do
          mark c (.reconciled r (some (a :: b :: rest)) none c.now)
          pure (r, .waiting)

/-! ## Placing -/

/-- What an accepted POST makes of the record. -/
def Record.accepted (r : Record) (id status : String) : Record :=
  let lifecycle : Lifecycle :=
    if status = "FILLED" then .filled
    else if status = "EXPIRED" then .expired
    else if status = "CANCELLED" ∨ status = "CANCELED" then .canceled
    else if status = "REJECTED" then .submitPending
    else .accepted
  { r with
    orderId := if status = "REJECTED" then none else some id
    venueStatus := some status
    lifecycle := lifecycle
    venueOrderIds := if status = "REJECTED" then withId r.venueOrderIds id else r.venueOrderIds }

/-- The record that is written before the POST. -/
def Record.attempted (r : Record) (now delay : ℚ) : Record :=
  { r with
    attempts := r.attempts + 1
    lastSubmitAt := some now
    nextRetryAt := now + delay
    lookupMisses := 0
    lifecycle := .submitPending }

/-- The marker, the POST, and the marker again. -/
def submitOrder (r : Record) (qty limit delay : ℚ) : OrderM Bool := do
  let r := r.attempted c.now delay
  persistMarker c c.intent (.record r)
  let w ← get
  mark c (.post (w.marker c.writeMarker) qty limit c.now)
  match c.submit with
  | .died => throw ()
  | .raised error => do
      persistMarker c c.answer (.record { r with submitError := some error })
      pure false
  | .response status id venueStatus body =>
      match id with
      | some id =>
          if status = 200 ∨ status = 201 then do
            let status := upper (venueStatus.getD "")
            let r := r.accepted id status
            persistMarker c c.answer (.record r)
            pure (r.lifecycle = .accepted ∨ r.lifecycle = .filled)
          else refused r status body
      | none => refused r status body
where
  refused (r : Record) (status : Nat) (body : String) : OrderM Bool := do
    let error := "T212 HTTP " ++ toString status ++ ": " ++ firstChars body 400
    persistMarker c c.answer (.record { r with submitError := some error })
    pure false

/-- The same ticker, and quantity and price up to a cent. -/
def Record.sameIntent (r : Record) (ticker : String) (qty limit : ℚ) : Bool :=
  upper r.ticker = upper ticker && |r.qty - qty| ≤ 11 / 1000 && |r.limitPrice - limit| ≤ 11 / 1000

/-- A first call places nothing if the position is unknown or such an order is active. -/
def placeFirst (qty limit delay : ℚ) : OrderM Bool := do
  match portfolioQty S.ticker (← answered c.portfolio) with
  | none => pure false
  | some before => do
      let r : Record := {
        intentId := "t212-one-shot-" ++ S.ticker ++ "-" ++ c.intentId
        ticker := S.ticker
        qty := qty
        limitPrice := limit
        validity := c.validity
        beforeQty := some before
        createdAt := c.now
        nextRetryAt := c.now }
      match r.matching (← answered c.activeOrders) with
      | some [] => submitOrder c r qty limit delay
      | _ => pure false

/-- A marker of before version 2 is only asked for. -/
def pollLegacy (ticker : String) (orderId : Option String) : OrderM Bool := do
  match orderId with
  | some id =>
      if id = "" then pure true
      else do
        let status ← answered c.orderStatus
        persistMarker c c.reconciliation (.legacy ticker orderId status)
        pure true
  | none => pure true

/-- A later call reconciles, and places again only after proven absence. -/
def placeAgain (r : Record) (qty limit delay : ℚ) : OrderM Bool := do
  if r.sameIntent S.ticker qty limit = false then pure false
  else if r.lifecycle = .filled then pure true
  else if r.lifecycle.terminal then pure false
  else do
    let (r, outcome) ← reconcileRecord c r delay
    match outcome with
    | .terminalFailed => pure false
    | .complete => pure true
    | .waiting => pure (truthy r.orderId)
    | .retryable => submitOrder c r qty limit delay

/-- `place_order_with_retry`. -/
def placeOrderWithRetry : OrderM Bool :=
  match c.quantity, c.limitPrice, c.retryDelay with
  | some quantity, some limitPrice, some delay => do
      let qty := roundTo quantity 2
      let limit := roundTo limitPrice 2
      if qty ≤ 0 ∨ limit ≤ 0 ∨ delay < 0 then pure false
      else if c.dryRun then pure true
      else do
        match ← readOrMigrateMarker S c with
        | none => pure false
        | some none => placeFirst S c qty limit delay
        | some (some (.legacy ticker orderId _)) => pollLegacy c ticker orderId
        | some (some (.record r)) => placeAgain S c r qty limit delay
  | _, _, _ => pure false

/-! ## Runs -/

/-- The world after a call, however it ended. -/
def World.call (w : World) (c : Call) : World :=
  match placeOrderWithRetry S c w with
  | .ok _ w' => w'
  | .error _ w' => w'

def World.run (w : World) (calls : List Call) : World := calls.foldl (World.call S) w

end TradingFleet.Trading212.OneShot
