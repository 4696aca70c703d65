import TradingFleet.Basic.Hoare
import TradingFleet.SpotDca.Ledger

set_option autoImplicit false

/-! # Placing, cancelling and reconciling orders

The strategy between its decisions: `_place`, `_cancel_order`, the market exit and `reconcile`
of `strategies/spot_dca.py`, in live and in paper mode. Every call that leaves the process is
numbered, so any sequence of answers, failed writes and crashes is one `Venue`.

Two records stand beside the state, and nothing reads them. The log holds the calls of the venue
and the points at which an intent is made and an order is tracked, newest first, each with the
state in memory and the saved state at that moment. The postings are what happened to the orders
of the state in memory, also newest first; they are saved and restored together with it.

Console output and alerts are left out, and so is the clock where only a log line uses it.
-/

namespace TradingFleet.SpotDca

open TradingFleet.Text hiding orElse
open TradingFleet.Lifecycle
open TradingFleet.Rounding (roundTo)

/-! ## The surroundings -/

inductive SaveAnswer where
  | stored
  | failed
  /-- the process ends during the write, which replaced the file or did not -/
  | crashed (replaced : Bool)
deriving DecidableEq

/-- Numbered answers. An outer error is not caught by any handler for venue errors. -/
structure Venue where
  save : Nat → SaveAnswer
  preflight : Nat → Except Stop (Except Exc Unit)
  submit : Nat → Except Stop (Except Exc Response)
  orderByClientId : Nat → Except Stop (Except Exc Native)
  orderStatus : Nat → Except Stop (Except Exc OrderStatus)
  cancelOrder : Nat → Except Stop (Except Exc Unit)
  freeBalance : Nat → Except Stop (Except Exc Raw)
  time : Nat → Except Stop ℚ

structure Setup where
  params : StratParams
  precision : PairPrecision
  pair : String
  venueLabel : String
  dryRun : Bool
  /-- `blake2s(raw, digest_size=16).hexdigest()` -/
  digest : String → String
  venue : Venue

/-- What an intent asks the venue for. -/
structure Submission where
  intentId : String
  clientOrderId : String
  side : Side
  kind : Kind
  vol : ℚ
  price : ℚ
  market : Bool
deriving DecidableEq

inductive Event where
  | submit (order : Submission) (answer : Except Stop (Except Exc Response))
  | orderByClientId (clientOrderId : String) (answer : Except Stop (Except Exc Native))
  | orderStatus (txid : String) (answer : Except Stop (Except Exc OrderStatus))
  | cancelOrder (txid : String) (answer : Except Stop (Except Exc Unit))
  /-- `_place` hands an intent to the lifecycle -/
  | intended (order : Submission)
  /-- an accepted or recovered order is tracked from here on -/
  | tracked (order : Order)
  /-- paper mode places an order by tracking it -/
  | placed (order : Order)
  | restarted

structure Entry where
  before : State
  saved : State
  event : Event

inductive Posting where
  /-- an order enters the state -/
  | tracked (order : Order)
  /-- a status report on an order with these markers, also one that is behind them -/
  | report (order : Order) (r : Report)
  /-- a fill enters the ledger -/
  | fill (f : Fill)
  /-- a new cycle begins -/
  | closed

structure World where
  s : State := newState
  saved : State := newState
  postings : List Posting := []
  savedPostings : List Posting := []
  writeFailed : Bool := false
  paperSeq : Nat := 0
  calls : Nat := 0
  log : List Entry := []

abbrev DcaM := EStateM Stop World

def state : DcaM State := do
  let w ← get
  pure w.s

def update (f : State → State) : DcaM Unit := modify (fun w => { w with s := f w.s })

/-- One numbered call. -/
def ask {α : Type} (answer : Nat → Except Stop α) (event : Except Stop α → Option Event) :
    DcaM α := fun w =>
  let a := answer w.calls
  let w' := { w with
    calls := w.calls + 1
    log := ((event a).map (fun e => ⟨w.s, w.saved, e⟩)).toList ++ w.log }
  match a with
  | .ok x => .ok x w'
  | .error e => .error e w'

def mark (e : Event) : DcaM Unit := modify (fun w => { w with log := ⟨w.s, w.saved, e⟩ :: w.log })

def post (p : Posting) : DcaM Unit := modify (fun w => { w with postings := p :: w.postings })

def raise {α : Type} (e : Exc) : DcaM α := throw (.raised e)

def orRaise {α : Type} : Except Exc α → DcaM α
  | .ok a => pure a
  | .error e => raise e

/-- `except (ProviderError, RuntimeError, ValueError)`. -/
def caught : ExcKind → Bool
  | .other => false
  | _ => true

/-- `except ProviderError`. -/
def isProviderError : ExcKind → Bool
  | .provider => true
  | .refused => true
  | _ => false

def catching {α : Type} (x : DcaM α) (handler : Exc → DcaM α) : DcaM α := fun w =>
  match x w with
  | .error (.raised e) w' => if caught e.kind then handler e w' else .error (.raised e) w'
  | r => r

def providerError (text : String) : Exc := ⟨.provider, "ProviderError", text⟩

variable (S : Setup)

/-! ## Persistence -/

/-- `_save`. A live strategy fails closed: a write that fails raises. -/
def save : DcaM Unit := fun w =>
  match S.venue.save w.calls with
  | .stored => .ok () { w with
      saved := w.s, savedPostings := w.postings, writeFailed := false, calls := w.calls + 1 }
  | .failed =>
      let w' := { w with writeFailed := true, calls := w.calls + 1 }
      if S.dryRun then .ok () w'
      else .error (.raised ⟨.runtime, "StatePersistenceError", "persisting the state failed"⟩) w'
  | .crashed replaced =>
      let w' := { w with writeFailed := true, calls := w.calls + 1 }
      .error .crash
        (if replaced then { w' with saved := w.s, savedPostings := w.postings } else w')

def persistPendingIntent (pending : Option Intent) : DcaM Unit := do
  update (fun s => { s with pendingIntent := pending })
  save S
  let w ← get
  if w.writeFailed then raise (providerError "the intent state could not be persisted") else pure ()

/-- `_order_lifecycle`: one executor, no audit, no cancel by age. -/
def lifecycle : Env Metadata World where
  persist := persistPendingIntent S
  orderByClientId _ clientOrderId :=
    ask S.venue.orderByClientId (fun a => some (.orderByClientId clientOrderId a))
  orderStatus _ orderId := ask S.venue.orderStatus (fun a => some (.orderStatus orderId a))
  cancelOrder _ orderId := ask S.venue.cancelOrder (fun a => some (.cancelOrder orderId a))
  clock := do
    let t ← ask S.venue.time (fun _ => none)
    pure (some t)
  audit _ _ := pure ()

def lifecycleSettings : Settings where
  missingConfirmations_pos := Settings.default_confirmations
  maxAgeSeconds_pos := Settings.no_max_age

/-! ## Intents -/

/-- `_intent_identity`. -/
def intentIdentity (cycle : Nat) (side : Side) (kind : Kind) (vol price : ℚ) : String :=
  "spot-dca:" ++ S.venueLabel ++ ":" ++ S.pair ++ ":cycle-" ++ toString cycle ++ ":" ++
    kind.text ++ ":" ++ sideText side ++ ":" ++ decimalText vol S.precision.volumeDecimals ++ ":" ++
    decimalText price S.precision.priceDecimals

def isHex (c : Char) : Bool :=
  c.isDigit || ('a' ≤ c && c ≤ 'f') || ('A' ≤ c && c ≤ 'F')

/-- The last 32 characters, if they are all hexadecimal. -/
def uuidHexSuffix (raw : String) : Option String :=
  let suffix := raw.toList.drop (raw.toList.length - 32)
  if suffix.length = 32 ∧ suffix.all isHex then some (String.ofList suffix) else none

/-- `intent_client_order_id` for a venue label, which is its own slug here. -/
def intentClientOrderId (digest : String → String) (venue intentId : String) : Option String :=
  let token := match uuidHexSuffix intentId with
    | some suffix => lower suffix
    | none => digest intentId
  if lower venue = "kraken" then some token
  else if lower venue = "binance" then some ("SD_" ++ token)
  else if lower venue = "hyperliquid" then some ("0x" ++ token)
  else none

/-- `_order_from_pending`. -/
def orderFromPending (p : Intent) : Order where
  txid := p.orderId.getD ""
  side := p.side
  vol := p.requestedQty
  price := p.requestedPrice.getD 0
  amount := p.metadata.amount
  kind := (p.kind.bind Kind.ofText).getD .tp
  market := p.metadata.market
  intentId := some p.intentId
  ts := p.createdAt

/-- The orders after an intent was adopted: its order is not listed twice. -/
def adoptInto (orders : List Order) (p : Intent) : List Order :=
  if orders.any (fun o => o.txid = p.orderId.getD "") then orders
  else orders ++ [orderFromPending p]

def World.adopted (w : World) (p : Intent) : World :=
  { w with
    s := { w.s with orders := adoptInto w.s.orders p, pendingIntent := none }
    postings := if w.s.orders.any (fun o => o.txid = p.orderId.getD "") then w.postings
      else .tracked (orderFromPending p) :: w.postings
    log := ⟨w.s, w.saved, .tracked (orderFromPending p)⟩ :: w.log }

def adoptPendingOrder (p : Intent) : DcaM Unit :=
  if p.orderKnown then do
    modify (fun w => w.adopted p)
    save S
  else pure ()

/-- `_reconcile_pending_submit`. -/
def reconcilePendingSubmit : DcaM Unit := do
  let s ← state
  match s.pendingIntent with
  | none => pure ()
  | some p =>
      if S.dryRun then pure ()
      else do
        let result ← catching
          (do let r ← reconcile lifecycleSettings (lifecycle S) p; pure (some r))
          (fun _ => pure none)
        match result with
        | some r => adoptPendingOrder S r.intent
        | none => pure ()

/-! ## Funds refusals -/

def hasInfix (text marker : List Char) : Bool := text.tails.any (fun t => marker.isPrefixOf t)

def insufficientFundsError (error : String) : Bool :=
  ["insufficient funds", "insufficient balance", "insufficient spot balance"].any
    (fun marker => hasInfix (lower error).toList marker.toList)

def placementBackoff (s : State) (side : Side) (kind : Kind) : Option Backoff :=
  (s.placementBackoffs.find? (fun r => r.1 = (side, kind))).map Prod.snd

/-- A funds refusal of this side and kind is still cooling down. -/
def inBackoff (side : Side) (kind : Kind) : DcaM Bool := do
  let t ← ask S.venue.time (fun _ => none)
  let s ← state
  pure (decide (0 < ((placementBackoff s side kind).map Backoff.until_).getD 0 - t))

def recordPlacementBackoff (side : Side) (kind : Kind) : DcaM Unit := do
  let t ← ask S.venue.time (fun _ => none)
  update (fun s =>
    let attempts := ((placementBackoff s side kind).map Backoff.attempts).getD 0 + 1
    let base := max 60 (S.params.checkMinutes * 60)
    let delay := min 3600 (base * 2 ^ min (attempts - 1) 10)
    { s with placementBackoffs := ((side, kind), ⟨attempts, t + delay⟩) ::
        s.placementBackoffs.filter (fun r => r.1 ≠ (side, kind)) })
  save S

def clearPlacementBackoff (side : Side) (kind : Kind) : DcaM Unit :=
  update (fun s => { s with
    placementBackoffs := s.placementBackoffs.filter (fun r => r.1 ≠ (side, kind)) })

/-! ## Placement -/

/-- An instruction as the decision logic gives it to `_place`. -/
structure Instruction where
  side : Side
  vol : ℚ
  price : ℚ
  kind : Kind
  amount : ℚ := 0
  market : Bool := false

/-- At venue precision. -/
def Instruction.rounded (i : Instruction) : Instruction :=
  { i with
    vol := roundTo i.vol S.precision.volumeDecimals
    price := roundTo i.price S.precision.priceDecimals }

/-- A volume the venue would not take. -/
def tooSmall (vol : ℚ) : Bool :=
  vol ≤ 0 || (S.precision.orderMin ≠ 0 && vol < S.precision.orderMin)

theorem tooSmall_pos {S : Setup} {vol : ℚ} (h : tooSmall S vol = false) : 0 < vol := by
  unfold tooSmall at h
  rw [Bool.or_eq_false_iff, decide_eq_false_iff_not, not_le] at h
  exact h.1

/-- A limit SELL other than STOP below the known average cost. -/
def belowCost (s : State) (i : Instruction) : Bool :=
  !i.market && i.side = .sell && i.kind ≠ .stop &&
    s.avg.any (fun a => Rounding.double i.price < Rounding.double a)

def Instruction.submission (i : Instruction) (cycle : Nat) (clientOrderId : String) :
    Submission where
  intentId := intentIdentity S cycle i.side i.kind i.vol i.price
  clientOrderId := clientOrderId
  side := i.side
  kind := i.kind
  vol := i.vol
  price := i.price
  market := i.market

def Instruction.newIntent (i : Instruction) (cycle : Nat) (clientOrderId : String) :
    NewIntent Metadata where
  intentId := intentIdentity S cycle i.side i.kind i.vol i.price
  clientOrderId := clientOrderId
  symbol := S.pair
  side := i.side
  requestedQty := i.vol
  requestedPrice := some i.price
  kind := some i.kind.text
  metadata := ⟨i.amount, i.market⟩

/-- What `_place` does with the result of `submit`. -/
def afterSubmit (i : Instruction) (r : Tracked Metadata) : DcaM Bool :=
  if r.intent.orderKnown then do
    clearPlacementBackoff i.side i.kind
    adoptPendingOrder S r.intent
    pure true
  else
    match r.outcome with
    | .refused => do
        persistPendingIntent S none
        if insufficientFundsError (r.intent.refusalReason.getD "venue refusal") then do
          update (fun s => { s with ledgerReconcileRequired := true })
          recordPlacementBackoff S i.side i.kind
          pure false
        else pure false
    | _ =>
        if !i.market && insufficientFundsError (r.intent.submitError.getD "") then do
          recordPlacementBackoff S i.side i.kind
          pure false
        else pure false

def submitIntent (i : Instruction) (cycle : Nat) (clientOrderId : String) (intent : Intent) :
    DcaM Bool := do
  mark (.intended (i.submission S cycle clientOrderId))
  let r ← submit (lifecycle S)
    (ask S.venue.submit (fun a => some (.submit (i.submission S cycle clientOrderId) a))) intent
  afterSubmit S i r

/-- The live part of `_place`, inside its handler. -/
def placeLive (i : Instruction) : DcaM Bool := do
  let answer ← ask S.venue.preflight (fun _ => none)
  orRaise answer
  let s ← state
  match intentClientOrderId S.digest S.venueLabel
      (intentIdentity S s.cycle i.side i.kind i.vol i.price) with
  | none => raise (providerError "client_order_id unavailable for the lifecycle")
  | some clientOrderId => do
      let intent ← newIntent (lifecycle S) (i.newIntent S s.cycle clientOrderId)
      submitIntent S i s.cycle clientOrderId intent

def paperOrder (i : Instruction) (n : Nat) (t : ℚ) : Order where
  txid := "PAPER-" ++ toString n
  side := i.side
  vol := i.vol
  price := i.price
  amount := i.amount
  kind := i.kind
  market := i.market
  ts := t

def World.paperPlaced (w : World) (i : Instruction) (t : ℚ) : World :=
  { w with
    paperSeq := w.paperSeq + 1
    postings := .tracked (paperOrder i (w.paperSeq + 1) t) :: w.postings
    log := ⟨w.s, w.saved, .placed (paperOrder i (w.paperSeq + 1) t)⟩ :: w.log
    s := { w.s with orders := w.s.orders ++ [paperOrder i (w.paperSeq + 1) t] } }

def placePaper (i : Instruction) : DcaM Bool := do
  let t ← ask S.venue.time (fun _ => none)
  modify (fun w => w.paperPlaced i t)
  pure true

/-- `_place` at venue precision, after the checks on the instruction. -/
def placeRounded (i : Instruction) : DcaM Bool := do
  let s ← state
  if S.dryRun then placePaper S i
  else if s.pendingIntent.isSome then pure false
  else
    catching (placeLive S i) (fun e => do
      if !i.market && insufficientFundsError e.text then do
        recordPlacementBackoff S i.side i.kind
        pure false
      else pure false)

def place (instruction : Instruction) : DcaM Bool := do
  let i := instruction.rounded S
  let s ← state
  if tooSmall S i.vol then pure false
  else if belowCost s i then pure false
  else if i.market then placeRounded S i
  else do
    let waiting ← inBackoff S i.side i.kind
    if waiting then pure false else placeRounded S i

/-! ## Cancelling -/

/-- `_cancel_order`: a live order stays tracked until its status is terminal. -/
def cancelOrder (o : Order) : DcaM Bool :=
  if S.dryRun || startsWith o.txid "PAPER" then do
    update (fun s => s.remove o)
    pure true
  else if o.cancelRequested then pure true
  else do
    let answer ← ask S.venue.cancelOrder (fun a => some (.cancelOrder o.txid a))
    match answer with
    | .error e => if isProviderError e.kind then pure false else raise e
    | .ok _ => do
        update (fun s => s.replace o { o with cancelRequested := true })
        save S
        pure true

def cancelOpen (side : Side) : DcaM Bool := do
  let s ← state
  match s.findOpen side with
  | none => pure true
  | some o => cancelOrder S o

def cancelOrders (side : Option Side) (excludeMarket : Bool) : DcaM Bool := do
  let s ← state
  (s.orders.filter (fun o =>
      (match side with | none => true | some d => o.side = d) && !(excludeMarket && o.market))).foldlM
    (fun ok o => do
      let done ← cancelOrder S o
      pure (done && ok)) true

/-! ## Closing a cycle -/

def finalizeCycleIfFlat (kind : Kind) (price : ℚ) : DcaM Unit := do
  update (fun s => s.flattened S.precision)
  let s ← state
  if flatQty < s.qty then pure ()
  else if s.orders ≠ [] ∨ s.pendingIntent ≠ none then do
    update (fun s => s.heldExit kind price)
    save S
  else
    modify (fun w => { w with
      s := w.s.nextCycle kind price, postings := .closed :: w.postings })

/-! ## Status reports -/

/-- The end of `_apply_fill`. After a BUY the average is formatted, which raises when there is
none, and the LIMIT take-profits are cancelled; an exit market order stays. -/
def afterFill (f : Fill) (final : Bool) : DcaM Unit :=
  match f.side with
  | .buy => do
      let s ← state
      if s.avg.isNone then raise ⟨.other, "TypeError", "unsupported format string"⟩
      else do
        let _ ← cancelOrders S (some .sell) true
        pure ()
  | .sell => if final then finalizeCycleIfFlat S f.kind f.price else pure ()

/-- A BUY that is too old, with the price above it. -/
def expireBuy (o : Order) (price : ℚ) : DcaM Unit := do
  let t ← ask S.venue.time (fun _ => none)
  if o.side = .buy ∧ o.cancelRequested = false ∧ S.params.orderTtlMin < (t - o.ts) / 60 ∧
      o.price * (1003 / 1000) < price then do
    let _ ← cancelOrder S o
    pure ()
  else pure ()

/-- The end of a report. -/
def conclude (o : Order) (r : Report) (price : ℚ) : DcaM Unit :=
  if r.terminal then
    match o.side with
    | .sell => finalizeCycleIfFlat S o.kind (r.price o)
    | .buy => pure ()
  else expireBuy S (o.marked r) price

/-- A report enters the state, and its fill the postings. -/
def World.booked (w : World) (o : Order) (r : Report) : World :=
  { w with
    s := w.s.reported o r
    postings := (if o.eps < o.deltaVol r then [.fill (o.fill r)] else []) ++
      .report o r :: w.postings }

/-- One report on one order: a fill, when there is one, ends as `_apply_fill` does. -/
def settle (o : Order) (r : Report) (price : ℚ) : DcaM Unit :=
  if o.regressed r then post (.report o r)
  else do
    modify (fun w => w.booked o r)
    if o.eps < o.deltaVol r then do
      afterFill S (o.fill r) false
      conclude S o r price
    else conclude S o r price

/-- The live branch of `reconcile` for one order. -/
def reconcileLive (o : Order) (price : ℚ) : DcaM Unit := do
  let answer ← ask S.venue.orderStatus (fun a => some (.orderStatus o.txid a))
  match answer with
  | .error e => if isProviderError e.kind then pure () else raise e
  | .ok status => settle S o (o.report status) price

/-- The price at which paper mode fills an order, if it does. -/
def Order.paperPrice (o : Order) (price : ℚ) : Option ℚ :=
  if o.market then some price
  else
    match o.side with
    | .buy => if price ≤ o.price then some o.price else none
    | .sell => if o.price ≤ price then some o.price else none

/-- Paper mode fills an order at once, without a fee. -/
def Order.paperFill (o : Order) (fillPrice : ℚ) : Fill :=
  ⟨o.txid, o.side, o.kind, o.amount, o.vol, fillPrice, 0⟩

def reconcilePaper (o : Order) (price : ℚ) : DcaM Unit :=
  match o.paperPrice price with
  | none => pure ()
  | some fillPrice => do
      modify (fun w => { w with
        s := (w.s.remove o).filled (o.paperFill fillPrice)
        postings := .fill (o.paperFill fillPrice) :: w.postings })
      afterFill S (o.paperFill fillPrice) true

def reconcileOne (price : ℚ) (o : Order) : DcaM Unit := do
  let s ← state
  if o ∈ s.orders then
    if S.dryRun then reconcilePaper S o price else reconcileLive S o price
  else pure ()

def reconcileSide (price : ℚ) (side : Side) : DcaM Unit := do
  let s ← state
  (s.orders.filter (fun o => o.side = side)).foldlM (fun _ o => reconcileOne S price o) ()

/-- An accepted market exit owns the cycle, also when its marker is missing. -/
def markExit : DcaM Unit := do
  let s ← state
  match s.pendingExit with
  | some _ => pure ()
  | none =>
      match s.orders.find? (fun o => o.side = .sell && o.market) with
      | none => pure ()
      | some o => do
          update (fun s => { s with
            pendingExit := some
              { kind := o.kind, softFloor := s.trailPeak.isSome && !s.trendMode } })
          save S

def reconcileOrders (price : ℚ) : DcaM Unit := do
  reconcilePendingSubmit S
  markExit S
  reconcileSide S price .buy
  reconcileSide S price .sell

/-! ## The market exit -/

/-- The lowest reference of a soft exit, rounded up to venue precision. -/
def trailProfitFloorPrice (avg : ℚ) : Option ℚ :=
  let pct := S.params.tpTrailProfitFloorPct
  if pct ≤ 0 ∨ avg ≤ 0 then none
  else some (⌈tpPrice avg pct * 10 ^ S.precision.priceDecimals - 1 / 10 ^ 12⌉ /
    10 ^ S.precision.priceDecimals)

/-- The reference price of a market exit. -/
def exitReference (kind : Kind) (price : ℚ) : ℚ :=
  roundTo (price * (if kind = .stop then 995 / 1000 else 999 / 1000)) S.precision.priceDecimals

/-- The floor holds a soft exit back. -/
def softBlocked (s : State) (exit : PendingExit) (price : ℚ) : Bool :=
  exit.softFloor && exit.kind ≠ .stop &&
    (trailProfitFloorPrice S (s.avg.getD 0)).any (fun floor => exitReference S exit.kind price < floor)

/-- The instruction of a market exit. -/
def exitInstruction (s : State) (exit : PendingExit) (price : ℚ) : Instruction where
  side := .sell
  vol := S.precision.dustSafeQty s.qty
  price := exitReference S exit.kind price
  kind := exit.kind
  market := true

/-- With no order left: sell what is held, or close the cycle of a sale that already was. -/
def exitHoldings (exit : PendingExit) (price : ℚ) : DcaM Bool := do
  let s ← state
  if s.qty ≤ flatQty then
    match exit.fillPrice with
    | some fillPrice => do
        finalizeCycleIfFlat S exit.kind fillPrice
        pure false
    | none => pure false
  else if softBlocked S s exit price then pure false
  else place S (exitInstruction S s exit price)

/-- `_continue_market_exit`. -/
def continueMarketExit (price : ℚ) : DcaM Bool := do
  let s ← state
  match s.pendingExit with
  | none => pure false
  | some exit =>
      if s.pendingIntent.isSome || s.hasPendingMarketExit then pure false
      else do
        save S
        let w ← get
        if w.writeFailed then pure false
        else do
          let cancelled ← cancelOrders S none false
          let s ← state
          if !cancelled || s.orders ≠ [] then pure false else exitHoldings S exit price

/-- `_request_market_exit`: the marker is written before anything is cancelled. -/
def requestMarketExit (price : ℚ) (kind : Kind) (softFloor : Bool) : DcaM Bool := do
  update (fun s =>
    if s.pendingExit.all (fun exit => kind = .stop && exit.kind ≠ .stop) then
      { s with pendingExit := some { kind := kind, softFloor := softFloor } }
    else s)
  continueMarketExit S price

end TradingFleet.SpotDca
