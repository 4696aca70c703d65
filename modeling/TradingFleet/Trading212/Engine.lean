import TradingFleet.Basic.Hoare
import TradingFleet.Basic.Keyed
import TradingFleet.Lifecycle.Tracked
import TradingFleet.Trading212.Types

set_option autoImplicit false

/-! # Trading 212: placing, cancelling and reconciling

The programs of `212trading/strategy.py` between the decisions, in live and in paper mode. Every
call that leaves the process is numbered, so any sequence of answers, failed writes and crashes is
one `Venue`. The log is a record beside the state that no program reads: the calls of the venue and
the points at which a submit is given up, newest first, each with the state it was made in.
-/

namespace TradingFleet.Trading212

open TradingFleet.Text hiding orElse
open TradingFleet.Lifecycle
open TradingFleet.Keyed (updateFirst)
open TradingFleet.Rounding (roundTo)

/-! ## The surroundings -/

inductive SaveAnswer where
  | stored
  | failed
  /-- the process ends during the write, which replaced the file or did not -/
  | crashed (replaced : Bool)
deriving DecidableEq

structure Position where
  ticker : String
  quantity : ℚ
  averagePrice : ℚ

/-- Numbered answers. An outer error is not caught by any handler for venue errors; the portfolio
and the list of active orders are `none` when they cannot be read. -/
structure Venue where
  save : Nat → SaveAnswer
  submit : Nat → Except Stop (Except Exc Response)
  orderStatus : Nat → Except Stop (Except Exc OrderStatus)
  cancelOrder : Nat → Except Stop (Except Exc Unit)
  portfolio : Nat → Except Stop (Option (List Position))
  activeOrders : Nat → Except Stop (Option (List Active))
  trendSlope : Nat → Except Stop (Option ℚ)
  time : Nat → Except Stop ℚ
  /-- the hexadecimal part of `new_intent_id` -/
  uuid : Nat → String

structure Setup where
  params : StratParams
  /-- in upper case -/
  ticker : String
  fxToUsd : ℚ
  dryRun : Bool
  venue : Venue

inductive Event where
  /-- a tick begins, with this state on disk -/
  | tick (saved : State)
  | submit (p : Pending) (outcome : SubmissionOutcome)
  /-- the answer to a status request for a tracked order -/
  | orderStatus (o : Order) (answer : Except Exc OrderStatus)
  | cancelOrder (o : Order) (answer : Except Exc Unit)
  /-- an active order was found for the pending submit -/
  | adopted (p : Pending) (orderId : String)
  /-- no active order in two snapshots -/
  | absent (p : Pending)
  /-- the portfolio moved in the direction of the pending submit -/
  | filled (p : Pending)
  /-- the position grew, and neither a BUY nor a pending submit explains it -/
  | unexplained
  /-- a new cycle begins -/
  | closed
  /-- the venue said that nothing is owned -/
  | ownedZero
  | restarted

structure Entry where
  before : State
  event : Event

structure World where
  s : State := newState
  saved : State := newState
  writeFailed : Bool := false
  paperSeq : Nat := 0
  dcaGateUntil : ℚ := 0
  calls : Nat := 0
  log : List Entry := []

abbrev StratM := EStateM Stop World

def state : StratM State := do
  let w ← get
  pure w.s

def update (f : State → State) : StratM Unit := modify (fun w => { w with s := f w.s })

def mark (e : Event) : StratM Unit := modify (fun w => { w with log := ⟨w.s, e⟩ :: w.log })

/-- One numbered call. -/
def ask {α : Type} (answer : Nat → Except Stop α) : StratM α := fun w =>
  let w' := { w with calls := w.calls + 1 }
  match answer w.calls with
  | .ok x => .ok x w'
  | .error e => .error e w'

def raise {α : Type} (e : Exc) : StratM α := throw (.raised e)

/-- `except ProviderError`. -/
def isProviderError (e : Exc) : Bool := e.kind = .provider || e.kind = .refused

variable (S : Setup)

/-! ## Persistence -/

/-- `_save`. A live strategy fails closed: a write that fails raises. -/
def save : StratM Unit := fun w =>
  match S.venue.save w.calls with
  | .stored => .ok () { w with saved := w.s, writeFailed := false, calls := w.calls + 1 }
  | .failed =>
      let w' := { w with writeFailed := true, calls := w.calls + 1 }
      if S.dryRun then .ok () w'
      else .error (.raised ⟨.runtime, "StatePersistenceError", "persisting the state failed"⟩) w'
  | .crashed replaced =>
      let w' := { w with writeFailed := true, calls := w.calls + 1 }
      .error .crash (if replaced then { w' with saved := w.s } else w')

def persistPendingSubmit (pending : Option Pending) : StratM Unit := do
  update (fun s => { s with pendingSubmit := pending })
  save S

/-! ## Submitting -/

def qtyForAmount (amount price : ℚ) : ℚ :=
  if 0 < price then roundTo (amount * S.fxToUsd / price) 2 else 0

/-- `_new_pending_submit`. -/
def newPendingSubmit (side : Side) (qty limit : ℚ) (amount : Option ℚ) (kind : Kind)
    (level : Option ℚ) (market : Bool) : StratM Pending := do
  let w ← get
  let t ← ask S.venue.time
  pure { intentId := S.venue.uuid w.calls, side := side, qty := qty, limit := roundTo limit 2
         amount := amount, kind := kind, level := level, market := market, ts := t
         beforeQty := w.s.qty }

/-- `_adopt_pending_submit`. -/
def adoptPendingSubmit (orderId : String) : StratM Unit := do
  let s ← state
  match s.pendingSubmit with
  | none => raise ⟨.runtime, "RuntimeError", "there is no pending T212 intent to adopt"⟩
  | some p => do
      mark (.adopted p orderId)
      update (fun s => { s with orders := s.orders ++ [p.order orderId], pendingSubmit := none })
      save S

/-- `_submit_pending_order`: persisted once, submitted once. -/
def submitPendingOrder (p : Pending) : StratM SubmissionOutcome := do
  persistPendingSubmit S (some p)
  let answer ← ask S.venue.submit
  let outcome := captureSubmission answer
  mark (.submit p outcome)
  match outcome.state with
  | .accepted => adoptPendingSubmit S (outcome.orderId.getD "None")
  | .refused => persistPendingSubmit S none
  | .unknown => persistPendingSubmit S (some p)
  pure outcome

/-! ## Placing -/

/-- Paper mode tracks the order at once. -/
def placePaper (o : String → ℚ → Order) : StratM Unit := do
  let t ← ask S.venue.time
  modify (fun w => { w with
    paperSeq := w.paperSeq + 1
    s := { w.s with orders := w.s.orders ++ [o ("PAPER-" ++ toString (w.paperSeq + 1)) t] } })

def placeBuy (amount limit : ℚ) (kind : Kind) : StratM Unit := do
  let qty := qtyForAmount S amount limit
  let s ← state
  if qty ≤ 0 then pure ()
  else if S.dryRun then
    placePaper S (fun id t => { id, side := .buy, qty, limit := roundTo limit 2,
                                amount := some amount, kind, ts := t })
  else if s.pendingSubmit.isSome then pure ()
  else do
    let p ← newPendingSubmit S .buy qty limit (some amount) kind none false
    let outcome ← submitPendingOrder S p
    if outcome.state = .accepted then pure ()
    else if mentions (lower outcome.reason) "insufficient" then do
      let t ← ask S.venue.time
      update (fun s => { s with buyBackoffUntil := t + 1800 })
    else pure ()

/-- What `_place_sell` does with a submit that was not accepted. -/
def sellNotAccepted (outcome : SubmissionOutcome) : StratM Bool :=
  if mentions outcome.reason "selling-equity-not-owned" then
    match ownedQuantity outcome.reason with
    | none => pure false
    | some digits =>
        match parseFloat digits with
        | none => raise ⟨.value, "ValueError", "could not convert string to float"⟩
        | some owned =>
            if owned ≤ qtyStep then do
              let t ← ask S.venue.time
              mark .ownedZero
              update (fun s => s.ownedZero t)
              save S
              pure false
            else pure false
  else pure (outcome.state ≠ .refused)

/-- `_place_sell`. -/
def placeSell (qty limit : ℚ) (level : Option ℚ) (kind : Kind) (market : Bool) : StratM Bool := do
  let qty := roundTo qty 2
  let s ← state
  if qty ≤ 0 then pure false
  else if S.dryRun then do
    placePaper S (fun id t => { id, side := .sell, qty, limit := roundTo limit 2,
                                kind, level, market, ts := t })
    pure true
  else if s.pendingSubmit.isSome then pure false
  else do
    let p ← newPendingSubmit S .sell qty limit none kind level market
    let outcome ← submitPendingOrder S p
    if outcome.state = .accepted then pure true else sellNotAccepted S outcome

/-! ## Cancelling -/

/-- Write over the first order that equals `o`. -/
def State.replaceOrder (s : State) (o o' : Order) : State :=
  { s with orders := updateFirst (fun x => x = o) (fun _ => o') s.orders }

/-- `_cancel_specific`. In live mode a cancel is a request, and the order stays tracked. -/
def cancelSpecific (o : Order) : StratM Bool :=
  if S.dryRun ∨ startsWith o.id "PAPER" then do
    update (fun s => s.removeOrder o)
    pure true
  else if o.cancelRequested then pure true
  else do
    let answer ← ask S.venue.cancelOrder
    mark (.cancelOrder o answer)
    match answer with
    | .error e => if isProviderError e then pure false else raise e
    | .ok () => do
        let _ ← ask S.venue.time
        update (fun s => s.replaceOrder o { o with cancelRequested := true })
        save S
        pure true

/-- `_cancel_open`. -/
def cancelOpen (side : Side) : StratM Bool := do
  let s ← state
  match s.findOpen side with
  | none => pure true
  | some o => cancelSpecific S o

/-- `_cancel_all_orders`. -/
def cancelAllOrders : StratM Bool := do
  let s ← state
  s.orders.foldlM (fun success o => do
    let cancelled ← cancelSpecific S o
    pure (success && cancelled)) true

/-! ## Lost submits -/

inductive Recovery where
  | none
  | adopted
  | filled
  | waiting
  | retryable
deriving DecidableEq

/-- `_recover_pending_submit`. -/
def recoverPendingSubmit (realQty : ℚ) (active : Option (List Active)) : StratM Recovery := do
  let s ← state
  match s.pendingSubmit, active with
  | none, _ => pure .none
  | some _, none => pure .waiting
  | some p, some orders =>
      match orders.filter (fun a => a.matchesPending S.ticker p) with
      | [a] =>
          match a.id with
          | some id => do
              adoptPendingSubmit S id
              pure .adopted
          | none => missed p
      | [] => missed p
      | _ :: _ :: _ => pure .waiting
where
  /-- No active order: the portfolio may show the fill, or a second snapshot gives it up. -/
  missed (p : Pending) : StratM Recovery := do
    let delta := realQty - p.beforeQty
    if (p.side = .buy ∧ qtyStep < delta) ∨ (p.side = .sell ∧ delta < -qtyStep) then do
      persistPendingSubmit S (some p)
      pure .filled
    else if p.lookupMisses + 1 < 2 then do
      persistPendingSubmit S (some { p with lookupMisses := p.lookupMisses + 1 })
      pure .waiting
    else do
      mark (.absent p)
      persistPendingSubmit S none
      pure .retryable

/-! ## Status requests -/

/-- The answers of one reconciliation pass, by order ID. -/
abbrev Cache := List (String × Option OrderStatus)

/-- `_tracked_order_status`. -/
def trackedOrderStatus (o : Order) (cache : Cache) : StratM (Option OrderStatus × Cache) :=
  match cache.find? (fun row => row.1 = o.id) with
  | some row => pure (row.2, cache)
  | none => do
      let answer ← ask S.venue.orderStatus
      mark (.orderStatus o answer)
      match answer with
      | .ok status => pure (some status, (o.id, some status) :: cache)
      | .error e =>
          if isProviderError e then pure (none, (o.id, none) :: cache) else raise e

/-- An order with what its status adds since the last time. -/
structure Row where
  order : Order
  status : OrderStatus

def Row.deltaQty (r : Row) : ℚ := max 0 (r.status.filledQty - r.order.appliedFillQty)

def Row.deltaCost (r : Row) : ℚ := max 0 (r.status.cost - r.order.appliedFillCost)

/-- The cumulative values did not go back, and the quantity grew. -/
def Row.counts (r : Row) : Bool :=
  r.order.appliedFillQty ≤ r.status.filledQty + flatQty &&
    r.order.appliedFillCost ≤ r.status.cost + flatQty && flatQty < r.deltaQty

def Row.applied (r : Row) : Order :=
  { r.order with
    appliedFillQty := r.status.filledQty
    appliedFillCost := r.status.cost
    appliedFillFee := r.status.fee }

/-- `_exact_execution_price`: used only when the fills add up to the change of the portfolio. -/
def exactExecutionPrice (side : Side) (delta : ℚ) (cache : Cache) :
    StratM (Option ℚ × Cache) := do
  let s ← state
  let (rows, cache) ← (s.orders.filter (fun o => o.side = side)).foldlM
    (fun (acc : List Row × Cache) o => do
      let (status, cache) ← trackedOrderStatus S o acc.2
      match status with
      | some status => pure (if Row.counts ⟨o, status⟩ then acc.1 ++ [⟨o, status⟩] else acc.1, cache)
      | none => pure (acc.1, cache)) ([], cache)
  let totalQty := (rows.map Row.deltaQty).sum
  let totalCost := (rows.map Row.deltaCost).sum
  if rows.isEmpty ∨ max (11 / 1000) (|delta| / 10 ^ 6) < |totalQty - delta| ∨ totalCost ≤ 0 then
    pure (none, cache)
  else do
    update (fun s => rows.foldl (fun s r => s.replaceOrder r.order r.applied) s)
    pure (some (totalCost / totalQty), cache)

end TradingFleet.Trading212
