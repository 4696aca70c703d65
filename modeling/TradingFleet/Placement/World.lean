import TradingFleet.Basic.Hoare
import TradingFleet.Lifecycle.OrderIds
import TradingFleet.Lock.Cooldown
import TradingFleet.Outbox.Retention
import TradingFleet.Outbox.Shared

set_option autoImplicit false

/-! # What a placement works with

`Instrument.place` puts one order through the guards of the fleet, the cooldown, the outbox and the
provider. Everything it calls outside of these is a record of functions that may answer anything or
raise: each call is numbered, so any sequence of answers is one such record. The queue and the
cooldown are the models of `order_retry.py` and `lock/cooldown.py`; before each locked section
on them the other processes take steps, and the section may fail before its write or after it.

Prices and quantities are rationals. A price that `float` does not read, or reads as no finite
number, is `none`. The outcome log and the execution audit swallow their own failures and are read
by nothing here.
-/

namespace TradingFleet.Placement

open TradingFleet.Text TradingFleet.Outbox TradingFleet.Lifecycle

/-! ## Calls and answers -/

/-- What other code may raise: a `SubmissionRefused` with its reason, another `Exception`, or an
interrupt, which no handler catches. After `crashed` nothing runs. -/
inductive Raised where
  | refused (reason : String)
  | failed
  | interrupted
  | crashed
deriving DecidableEq

/-- `except Exception`. -/
def Raised.caught : Raised → Bool
  | .refused _ => true
  | .failed => true
  | .interrupted => false
  | .crashed => false

abbrev Answer (α : Type) := Except Raised α

/-- Values that are only handed on are known by a name. -/
abbrev Permit := String

abbrev OrderState := String

structure QuantityArgs where
  price : ℚ
  qty : ℚ
  cancelorders : Bool
  hours : Option String
  applyPolicy : Bool
  market : Bool
  enforceBusinessMinimum : Bool
deriving DecidableEq

structure QuantityDecision where
  finalQty : ℚ
  refuseReason : Option String
deriving DecidableEq

/-- The arguments of `provider.place_order`; the options a caller leaves out are `none`. -/
structure OrderCall where
  side : String
  price : ℚ
  qty : ℚ
  kwargs : Kwargs
  enforceBusinessMinimum : Option Bool := none
  permitRequestedPrice : Option ℚ := none
  cachePermit : Option Permit := none
  cancelOppositeRequestedPrice : Option ℚ := none
deriving DecidableEq

/-- A provider of an instrument; an optional method may be missing. -/
structure Provider where
  name : String
  executionEnabled : Option (Nat → Answer Bool)
  guardsInternally : Nat → Answer Bool
  prepareOrderState : Option (Nat → Answer (Option OrderState))
  preflightOrder : Option (Nat → ℚ → ℚ → Answer (Option Permit))
  validateOrderState : Option (Nat → OrderState → Answer Unit)
  adjustOrderPrice : Nat → ℚ → Bool → Answer ℚ
  profitGuardWindowRef : Nat → Answer (Option ℚ)
  getCurrentPrice : Nat → Answer (Option ℚ)
  quantityDecision : Nat → QuantityArgs → Answer QuantityDecision
  placeOrder : Nat → OrderCall → Answer Native

/-- `order_guard`, the trend manager, the clock and the process a placement runs in. -/
structure Env where
  cfg : Config
  provider : Provider
  providerName : String
  dailyLimitGuard : Nat → Answer (Bool × Option String)
  margin : ℚ
  profitGuard : Nat → ℚ → ℚ → Option ℚ → Answer Bool
  shouldWait : Nat → Answer Bool
  clock : Nat → ℚ
  uuid : UuidSource
  /-- the token a claim draws beside its record ID -/
  token : Nat → String
  pid : Nat
  startIdentity : Nat → Option String
  writer : Lock.Writer
  cooldownSec : ℚ
  persistAttempts : Nat

/-- `str(self._provider.name).casefold() == "binance"`. -/
def Env.isBinance (E : Env) : Bool := lower E.provider.name = "binance"

/-- A call of `Instrument.place`. `rest` are the entries of `kwargs` that are no flags, with their
texts. A retry price or tolerance that was given and is not a finite number is `some none`. -/
structure Call where
  symbol : String
  side : String
  price : ℚ
  qty : ℚ
  callerOwnsRetry : Bool := false
  withContext : Bool := false
  cachePermit : Option Permit := none
  retryRequestedPrice : Option (Option ℚ) := none
  retryPriceTolerance : Option (Option ℚ) := none
  bypassProfitGuard : Bool := false
  bypassProfitReference : Bool := false
  bypassQuantityPolicy : Bool := false
  waitForTrend : Bool := true
  cooldownPairId : Option String := none
  smartGiven : Option Bool := none
  force : Option Bool := none
  cancelorders : Option Bool := none
  rest : Kwargs := []

/-- `side.upper()`. -/
def Call.sideU (c : Call) : String := upper c.side

def Call.retryConstraintSupplied (c : Call) : Bool :=
  c.retryRequestedPrice.isSome || c.retryPriceTolerance.isSome

/-- The requested price and the tolerance, where both were given as finite numbers. -/
def Call.constraint (c : Call) : Option (ℚ × ℚ) :=
  match c.retryRequestedPrice.join, c.retryPriceTolerance.join with
  | some requested, some tolerance => some (requested, tolerance)
  | _, _ => none

/-- `bool(kwargs.pop("smart", True))`. -/
def Call.smart (c : Call) : Bool := c.smartGiven.getD true

/-- The profit reference may only be left out of a BUY. -/
def Call.bypassReference (c : Call) : Bool := c.bypassProfitReference && c.sideU = "BUY"

/-- The quantity policy may only be left out of a SELL. -/
def Call.bypassQuantity (c : Call) : Bool := c.bypassQuantityPolicy && c.sideU = "SELL"

/-- `bool(kwargs.get("force", False))`: a market order. -/
def Call.isMarket (c : Call) : Bool := c.force.getD false

def Call.enforceBusinessMinimum (c : Call) : Bool :=
  !(c.bypassProfitGuard && c.sideU = "SELL" && c.isMarket)

/-- `kwargs.get("kind") or kwargs.get("motivation")`. -/
def Call.kind (c : Call) : Option String :=
  if truthy (c.rest.get "kind") then c.rest.get "kind" else c.rest.get "motivation"

def boolText (b : Bool) : String := if b then "true" else "false"

/-- A flag that the caller gave. -/
def setFlag (name : String) (value : Option Bool) (kw : Kwargs) : Kwargs :=
  match value with
  | none => kw
  | some b => kw.set name (boolText b)

/-- `kwargs` as the provider gets it, after `smart` was popped. -/
def Call.kwargs (c : Call) : Kwargs :=
  setFlag "force" c.force (setFlag "cancelorders" c.cancelorders c.rest)

/-- `retry_kwargs`: the arguments that reproduce the call. -/
def Call.retryKwargs (c : Call) : Kwargs :=
  let kw := ((((c.kwargs.set "bypass_profit_guard" (boolText c.bypassProfitGuard)).set
    "bypass_profit_reference" (boolText c.bypassReference)).set
    "bypass_quantity_policy" (boolText c.bypassQuantity)).set
    "wait_for_trend" (boolText c.waitForTrend)).set "smart" (boolText c.smart)
  match c.cooldownPairId with
  | none => kw
  | some pair => if pair = "" then kw else kw.set "cooldown_pair_id" pair

/-! ## The state of a placement -/

inductive Event where
  | gate (answer : Answer Bool)
  | internal (answer : Answer Bool)
  | prepared (answer : Answer (Option OrderState))
  | preflight (price qty : ℚ) (answer : Answer (Option Permit))
  | validated (state : OrderState) (answer : Answer Unit)
  | adjusted (price : ℚ) (cancelOpposite : Bool) (answer : Answer ℚ)
  | daily (answer : Answer (Bool × Option String))
  | window (answer : Answer (Option ℚ))
  | profit (price margin : ℚ) (reference : Option ℚ) (answer : Answer Bool)
  | quote (answer : Answer (Option ℚ))
  | quantity (args : QuantityArgs) (answer : Answer QuantityDecision)
  | trend (answer : Answer Bool)
  /-- a write of the queue, with the snapshot that the operation returned -/
  | outbox (op : Op) (granted : Option Record)
  | slot (event : Lock.Event)
  | placeOrder (call : OrderCall) (answer : Answer Native)

/-- What a locked section raises when it fails. -/
inductive Failure where
  | failed
  | interrupted
  | crashed
deriving DecidableEq

def Failure.raised : Failure → Raised
  | .failed => .failed
  | .interrupted => .interrupted
  | .crashed => .crashed

/-- What the other processes do before a locked section, and whether it fails, after its write or
before. -/
structure Turn where
  ops : List Op := []
  slots : List Lock.Event := []
  failure : Option (Failure × Bool) := none

/-- What `_outcome_context` holds. -/
structure Report where
  accepted : Bool
  reason : Option String
  state : Lifecycle.SubmissionState
deriving DecidableEq

/-- The local variables that `finally` reads. -/
structure Locals where
  price : ℚ
  qty : ℚ
  reason : Option String := none
  order : Option Native := none
  submitAttempted : Bool := false
  prequeuedRecordId : Option String := none
  prequeuedClaim : Option Record := none
  cachePermit : Option Permit := none
  kwargs : Kwargs
  slotCommitted : Bool := false

structure World where
  ledger : Ledger
  cooldown : Lock.World
  schedule : List Turn
  /-- what the other processes did to the queue, each operation with the ledger it met -/
  others : List (Ledger × Op)
  /-- newest first -/
  log : List Event
  locals : Locals
  context : Option Report

abbrev Placing := EStateM Raised World

/-! ## Steps -/

/-- One numbered call, kept in the log. -/
def ask {α : Type} (call : Nat → Answer α) (event : Answer α → Event) : Placing α := fun w =>
  match call w.log.length with
  | .ok a => .ok a { w with log := event (.ok a) :: w.log }
  | .error e => .error e { w with log := event (.error e) :: w.log }

/-- An operation of another process; `uuid4` never repeats an ID. -/
def Ledger.other (s : Ledger) (op : Op) : Ledger :=
  if op.issues.all (fun id => !s.issued.contains id) then s.step op else s

/-- The operations of a turn with the ledgers they meet, the last one first. -/
def Ledger.met : Ledger → List Op → List (Ledger × Op)
  | _, [] => []
  | s, op :: ops => Ledger.met (Ledger.other s op) ops ++ [(s, op)]

/-- The time between two locked sections. -/
def World.interleave (E : Env) (w : World) (turn : Turn) : World :=
  { w with
    ledger := turn.ops.foldl Ledger.other w.ledger
    others := Ledger.met w.ledger turn.ops ++ w.others
    cooldown := turn.slots.foldl (Lock.World.step (fun _ => E.cooldownSec)) w.cooldown }

/-- One locked section. -/
def locked {α : Type} (E : Env) (body : World → α × World) : Placing α := fun w =>
  match w.schedule with
  | [] => .ok (body w).1 (body w).2
  | turn :: rest =>
      let w := { w.interleave E turn with schedule := rest }
      match turn.failure with
      | none => .ok (body w).1 (body w).2
      | some (failure, written) =>
          .error failure.raised (if written then (body w).2 else w)

/-- An operation of the outbox that writes. -/
def writeOutbox {α : Type} (E : Env) (op : World → Op) (granted : World → Option Record)
    (result : World → α) : Placing α :=
  locked E (fun w =>
    (result w, { w with
      ledger := w.ledger.step (op w), log := .outbox (op w) (granted w) :: w.log }))

/-- A section of the cooldown; it answers with the number of the operation that was let in. -/
def writeSlot (E : Env) (event : World → Lock.Event) : Placing (Option Nat) :=
  locked E (fun w =>
    let cooldown := w.cooldown.step (fun _ => E.cooldownSec) (event w)
    (if cooldown.ops.length = w.cooldown.ops.length then none else some w.cooldown.ops.length,
      { w with cooldown := cooldown, log := .slot (event w) :: w.log }))

/-- `try … except Exception`. -/
def tryExcept {α : Type} (x : Placing α) (handler : Raised → Placing α) : Placing α :=
  tryCatch x (fun e => if e.caught then handler e else throw e)

/-- `try … finally`; after a crash nothing runs. -/
def tryFinally {α : Type} (x : Placing α) (last : Placing Unit) : Placing α := fun w =>
  match x w with
  | .ok a w' =>
      match last w' with
      | .ok _ w'' => .ok a w''
      | .error e w'' => .error e w''
  | .error e w' =>
      if e = .crashed then .error e w'
      else
        match last w' with
        | .ok _ w'' => .error e w''
        | .error e' w'' => .error e' w''

def locals : Placing Locals := do
  let w ← get
  pure w.locals

def assign (change : Locals → Locals) : Placing Unit :=
  modify (fun w => { w with locals := change w.locals })

/-- `reason = …; return None`. -/
def giveUp {α : Type} (reason : String) : Placing (Option α) := do
  assign (fun l => { l with reason := some reason })
  pure none

end TradingFleet.Placement
