import TradingFleet.Basic.Hoare
import TradingFleet.Trailing.Types

set_option autoImplicit false

/-! # The trailing stop: one tick

`check_once` of `trailing_core.py` for any adapter. The state is read from the file at the beginning
of a tick and written as a whole, by whichever asset persists. Every call that leaves the process is
numbered, so any sequence of answers, failed writes and crashes is one `Venue`. The log records the
submits and the terminal results, newest first, each with the file as it was. The terminal results
are also listed by key, once for memory and once for the file; no program reads these lists.
-/

namespace TradingFleet.Trailing

open TradingFleet.Lifecycle
open TradingFleet.Rounding (roundTo)

/-! ## The surroundings -/

inductive SaveAnswer where
  | stored
  /-- an `OSError`, which `save` reports -/
  | failed
  | raised (e : Exc)
  /-- the process ends during the write, which replaced the file or did not -/
  | crashed (replaced : Bool)

/-- Numbered answers. A policy is `none` when the adapter does not declare it; an answer that is not
a truth value is `none`. -/
structure Venue where
  load : Nat → Except Stop Unit
  save : Nat → SaveAnswer
  beginTick : Nat → Except Stop Bool
  freeQty : Nat → Except Stop ℚ
  price : Nat → Except Stop (Option ℚ)
  trend : Nat → Except Stop ℚ
  costBasis : Nat → Except Stop (Option ℚ)
  rebuyConfiguredFor : Option (Nat → Except Stop (Option Bool))
  rebuyEnabledFor : Option (Nat → Except Stop (Option Bool))
  submit : Nat → Except Stop (Except Exc Response)
  orderByClientId : Nat → Except Stop (Except Exc Native)
  orderStatus : Nat → Except Stop (Except Exc OrderStatus)
  cancelOrder : Nat → Except Stop (Except Exc Unit)
  clock : Nat → Except Stop Raw
  /-- the adapter's own reports -/
  note : Nat → Except Stop Unit

structure Setup where
  settings : Settings
  adapter : Adapter
  assets : List Asset
  /-- both adapters list every key once -/
  assets_nodup : (assets.map Asset.key).Nodup
  clientOrderId : String → String
  venue : Venue

inductive Event where
  /-- a SELL or REBUY is about to be written and submitted -/
  | submitting (key : String) (serial : Nat)
  | submit (key : String) (serial : Nat)
  /-- the lifecycle returned a terminal result -/
  | terminal (key : String) (intent : Pending) (status : OrderStatus)

structure Entry where
  disk : Book
  event : Event

/-- The terminal results of a key, newest first. -/
abbrev Results := String → List (Pending × OrderStatus)

structure World where
  state : Book := fun _ => none
  disk : Book := fun _ => none
  /-- the results handed to `_finish_pending` since the beginning, as memory has them -/
  results : Results := fun _ => []
  /-- those that were handed to it before the last write of the file -/
  diskResults : Results := fun _ => []
  calls : Nat := 0
  log : List Entry := []

abbrev TrailM := EStateM Stop World

def mark (e : Event) : TrailM Unit := modify (fun w => { w with log := ⟨w.disk, e⟩ :: w.log })

/-- A terminal result of a key. -/
def World.answered (w : World) (key : String) (intent : Pending) (status : OrderStatus) : World :=
  { w with
    log := ⟨w.disk, .terminal key intent status⟩ :: w.log
    results := Function.update w.results key ((intent, status) :: w.results key) }

/-- One numbered call. -/
def ask {α : Type} (answer : Nat → Except Stop α) : TrailM α := fun w =>
  let w' := { w with calls := w.calls + 1 }
  match answer w.calls with
  | .ok x => .ok x w'
  | .error e => .error e w'

/-- A call whose exceptions are swallowed. -/
def askSafely {α : Type} (answer : Nat → Except Stop (Option α)) : TrailM (Option α) := fun w =>
  let w' := { w with calls := w.calls + 1 }
  match answer w.calls with
  | .ok x => .ok x w'
  | .error (.raised _) => .ok none w'
  | .error .crash => .error .crash w'

def raise {α : Type} (e : Exc) : TrailM α := throw (.raised e)

/-- `state[key]`, which exists once the price of the key was read. -/
def item (key : String) : TrailM Item := do
  let w ← get
  pure ((w.state key).getD (Item.new 0))

def change (key : String) (f : Item → Item) : TrailM Unit :=
  modify (fun w => { w with state := Function.update w.state key ((w.state key).map f) })

variable (S : Setup)

def perform (key : String) (u : Update) : TrailM Unit := change key (Item.perform S.settings u)

/-! ## Persistence -/

/-- `load`. -/
def load : TrailM Unit := do
  ask S.venue.load
  modify (fun w => { w with state := w.disk, results := w.diskResults })

/-- The file has what memory has. -/
def World.stored (w : World) : World := { w with disk := w.state, diskResults := w.results }

/-- `save`. -/
def save : TrailM Bool := fun w =>
  let w' := { w with calls := w.calls + 1 }
  match S.venue.save w.calls with
  | .stored => .ok true w'.stored
  | .failed => .ok false w'
  | .raised e => .error (.raised e) w'
  | .crashed replaced => .error .crash (if replaced then w'.stored else w')

def saveOr (text : String) : TrailM Unit := do
  if ← save S then pure () else raise ⟨.runtime, "RuntimeError", text⟩

/-- The callback of `_pending_persist`. -/
def persistPending (key : String) (pending : Option Pending) : TrailM Unit := do
  change key (fun st => { st with pendingOrder := pending })
  saveOr S "the pending trailing state could not be persisted"

/-- What the lifecycle of one key is given. -/
def env (key : String) : Env Meta World where
  persist := persistPending S key
  orderByClientId _ _ := ask S.venue.orderByClientId
  orderStatus _ _ := ask S.venue.orderStatus
  cancelOrder _ _ := ask S.venue.cancelOrder
  clock := ask S.venue.clock
  audit _ _ := pure ()

/-! ## Policies -/

/-- `_rebuy_for`. -/
def rebuyFor (arm : Bool) : TrailM Bool :=
  match (if arm then S.venue.rebuyConfiguredFor else none) <|> S.venue.rebuyEnabledFor with
  | some getter => do
      let value ← askSafely getter
      pure (value.getD false)
  | none => pure S.settings.rebuyEnabled

/-- A trend filter; the trend is read only when it is on. -/
def filteredBy (skip : Bool) (blocks : ℚ → Bool) : TrailM Bool :=
  if skip then do
    let slope ← ask S.venue.trend
    pure (blocks slope)
  else pure false

/-! ## Orders -/

def callback (key : String) (serial : Nat) : TrailM (Except Exc Response) := do
  mark (.submit key serial)
  ask S.venue.submit

/-- `execute_sell` and `execute_rebuy`. -/
def execute (a : Asset) (action : Action) (qty price anchor : ℚ) : TrailM Unit := do
  let w ← get
  let limit := price * (match action with
    | .sell => S.adapter.sellFactor
    | .rebuy => S.adapter.rebuyFactor)
  let id := intentId S.adapter a.key action qty limit anchor
  let intent ← newIntent (env S a.key)
    { intentId := id
      clientOrderId := S.clientOrderId id
      symbol := a.pair
      side := if action = .sell then .sell else .buy
      requestedQty := qty
      requestedPrice := some limit
      kind := some ("TRAIL_" ++ action.text)
      metadata := { action := action, asset := a.asset, anchor := anchor, serial := w.calls } }
  mark (.submitting a.key w.calls)
  let result ← submit (env S a.key) (callback S a.key w.calls) intent
  if result.outcome = .refused ∧ S.adapter.clearsRefused then persistPending S a.key none
  else pure ()

/-! ## Terminal results -/

/-- `cost / filled`, or the price when the venue reports no cost. -/
def averagePrice (status : OrderStatus) (price : ℚ) : ℚ :=
  if 0 < status.filledQty ∧ 0 < status.cost then status.cost / status.filledQty else price

def fillOf (intent : Pending) (status : OrderStatus) (price : ℚ) (armed : Bool) : Fill where
  serial := intent.metadata.serial
  action := intent.metadata.action
  filled := status.filledQty
  avg := averagePrice status price
  armed := armed

def Item.settle (S : Settings) (fill : Fill) (st : Item) : Item :=
  { st.perform S (.finished fill) with pendingOrder := none }

/-- A SELL that sold something may arm a re-buy. -/
def arms (intent : Pending) (status : OrderStatus) : TrailM Bool :=
  if intent.metadata.action = .sell ∧ 0 < status.filledQty then rebuyFor S true else pure false

/-- `_finish_pending`, once the policy was read. -/
def finishPending (key : String) (intent : Pending) (status : OrderStatus) (price : ℚ)
    (armed : Bool) : TrailM Unit :=
  change key (Item.settle S.settings (fillOf intent status price armed))

/-- What follows a result of the lifecycle. -/
def settleResult (key : String) (price : ℚ) (result : Tracked Meta) : TrailM Unit :=
  match result.outcome, result.status with
  | .terminal, some status => do
      let armed ← arms S result.intent status
      modify (fun w => w.answered key result.intent status)
      finishPending S key result.intent status price armed
      saveOr S "the trailing terminal status could not be saved"
  | _, _ => pure ()

/-- `_reconcile_pending`: a pending order consumes the tick. -/
def reconcilePending (key : String) (price : ℚ) : TrailM Bool := do
  let st ← item key
  match st.pendingOrder with
  | none => pure false
  | some pending => do
      let result ← reconcile S.adapter.lifecycle (env S key) pending
      settleResult S key price result
      pure true

/-! ## One asset -/

/-- `_handle_rebuy`. -/
def handleRebuy (a : Asset) (price : ℚ) : TrailM Unit := do
  perform S a.key (.lowered price)
  let st ← item a.key
  match st.core.rebuy with
  | none => pure ()
  | some rb =>
      if price < rb.low * (1 + S.settings.rebuyBouncePct / 100) then pure ()
      else do
        if ← filteredBy S S.settings.rebuySkipIfTrendDown (fun slope => slope < 0) then
          ask S.venue.note
        else do
          let qty := roundTo rb.qty 8
          if qty ≤ 0 then perform S a.key .dropped
          else if S.settings.enabled then
            if qty * price < S.settings.minNotional then pure ()
            else execute S a .rebuy qty price (if rb.low = 0 then price else rb.low)
          else do
            ask S.venue.note
            perform S a.key .dropped
            if 0 < S.settings.minProfitPct then
              perform S a.key (.warmUp (price * (1 + S.settings.minProfitPct / 100)))
            else pure ()

/-- The re-buy of an item, if one is outstanding; `true` ends the turn of the asset. -/
def considerRebuy (a : Asset) (price : ℚ) : TrailM Bool := do
  let st ← item a.key
  if st.core.rebuy.isSome then do
    perform S a.key (.lowered price)
    if ← rebuyFor S false then do
      handleRebuy S a price
      let st ← item a.key
      pure st.pendingOrder.isSome
    else pure false
  else pure false

/-- `false` while the price has not reached the activation threshold. -/
def warmedUp (key : String) (price : ℚ) : TrailM Bool := do
  let st ← item key
  match st.core.warmupAt with
  | none => pure true
  | some threshold =>
      if price < threshold then pure false
      else do
        perform S key .warmed
        pure true

def raisePeak (key : String) (price : ℚ) : TrailM Unit := do
  let st ← item key
  if st.core.peak < price then perform S key (.peaked price) else pure ()

/-- A new peak, or a SELL when the price fell far enough below the peak. -/
def trail (a : Asset) (free price : ℚ) : TrailM Unit := do
  raisePeak S a.key price
  let st ← item a.key
  if shouldSell price st.core.peak a.trailPct then do
    if ← filteredBy S S.settings.sellSkipIfTrendUp (fun slope => 0 < slope) then ask S.venue.note
    else do
      let qty := roundTo (free * S.settings.sellFraction) 8
      if S.settings.enabled && S.settings.minNotional ≤ qty * price then
        execute S a .sell qty price st.core.peak
      else ask S.venue.note
  else ask S.venue.note

/-- `setdefault`, with the warm-up of a new item. -/
def setDefault (a : Asset) (price : ℚ) : TrailM Unit := do
  let w ← get
  if (w.state a.key).isSome then pure ()
  else do
    modify (fun w => { w with state := Function.update w.state a.key (some (Item.new price)) })
    if 0 < S.settings.minProfitPct then do
      let basis ← askSafely S.venue.costBasis
      let ref := (basis.filter (fun b => 0 < b)).getD price
      perform S a.key (.warmUp (ref * (1 + S.settings.minProfitPct / 100)))
    else pure ()

/-- `_process`. -/
def process (a : Asset) : TrailM Unit := do
  let free ← ask S.venue.freeQty
  let price ← ask S.venue.price
  match price.filter (fun p => 0 < p) with
  | none => pure ()
  | some price => do
      setDefault S a price
      if ← reconcilePending S a.key price then pure ()
      else if ← considerRebuy S a price then pure ()
      else if free * price < S.settings.minNotional then pure ()
      else if ← warmedUp S a.key price then trail S a free price
      else pure ()

/-! ## One tick -/

/-- `except Exception`. -/
def handled (x : TrailM Unit) : TrailM Unit :=
  tryCatch x (fun e => match e with
    | .raised _ => ask S.venue.note
    | .crash => throw .crash)

/-- `check_once`. -/
def checkOnce : TrailM Unit := do
  if ← ask S.venue.beginTick then
    if S.settings.itemIsolation then do
      load S
      S.assets.forM (fun a => handled S (process S a))
      let _ ← save S
      pure ()
    else handled S (do
      load S
      S.assets.forM (process S)
      let _ ← save S
      pure ())
  else pure ()

/-- The world after a program, however it ended. -/
def World.after {α : Type} : EStateM.Result Stop World α → World
  | .ok _ w => w
  | .error _ w => w

/-- Every run begins with a read of the file, so a crash only ends the tick. -/
def World.run : Nat → World
  | 0 => {}
  | n + 1 => World.after (checkOnce S (World.run n))

end TradingFleet.Trailing
