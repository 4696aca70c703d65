import TradingFleet.Placement.World

set_option autoImplicit false

/-! # `Instrument.place`

The stages of the source in their order. What an early `return None` leaves is a stage that
answers `none`; the reason is among the local variables then. The body runs under the two handlers
and the `finally` of the source, which reads the local variables as the body left them. -/

namespace TradingFleet.Placement

open TradingFleet.Text TradingFleet.Outbox TradingFleet.Lifecycle

variable (E : Env) (c : Call)

/-! ## Before the cooldown -/

/-- The price and the tolerance a retry has to keep to. -/
def retryConstraint : Placing (Option (ℚ × ℚ)) :=
  if !c.retryConstraintSupplied then pure none
  else
    match c.retryRequestedPrice.join, c.retryPriceTolerance.join with
    | some requested, some tolerance =>
        if 0 < requested ∧ 0 ≤ tolerance ∧ tolerance < 1 then pure (some (requested, tolerance))
        else throw (.refused "invalid_retry_price_constraint")
    | _, _ => throw (.refused "invalid_retry_price_constraint")

/-- The state of the account a Binance order is decided on. -/
def prepareOrderState : Placing (Option OrderState) :=
  if E.isBinance && c.smart && c.cachePermit.isSome then
    throw (.refused "external_cache_permit_not_allowed_for_smart_cancel")
  else if E.isBinance && c.cachePermit.isNone then
    match E.provider.prepareOrderState with
    | none => throw (.refused "account_cache_not_fresh")
    | some prepare => do
        match ← ask prepare .prepared with
        | none => throw (.refused "account_cache_not_fresh")
        | some state => pure (some state)
  else pure none

/-- Other providers check the order before the guards. -/
def preflightOther : Placing Unit :=
  match E.provider.preflightOrder with
  | none => pure ()
  | some preflight =>
      if E.isBinance then pure ()
      else do
        let _ ← ask (fun n => preflight n c.price c.qty) (.preflight c.price c.qty)
        pure ()

def smartPrice : Placing Unit :=
  if c.smart then do
    let price ← ask (fun n => E.provider.adjustOrderPrice n c.price !E.isBinance)
      (.adjusted c.price !E.isBinance)
    assign (fun l => { l with price := price })
  else pure ()

/-- The daily cap, and the profit guard with its reference; the reference is asked for again. -/
def policyGuards : Placing (Option (Option ℚ)) := do
  let daily ← ask E.dailyLimitGuard .daily
  assign (fun l => { l with reason := daily.2 })
  if !daily.1 then pure none
  else if c.bypassProfitGuard || c.bypassReference then pure (some none)
  else do
    let reference ← ask E.provider.profitGuardWindowRef .window
    let l ← locals
    let ok ← ask (fun n => E.profitGuard n l.price E.margin reference)
      (.profit l.price E.margin reference)
    if ok then pure (some reference) else giveUp "profit_guard"

/-- The executable price of a market order, or the price that was asked for. -/
def quantityPrice : Placing (Option ℚ) :=
  if c.isMarket then do
    match ← ask E.provider.getCurrentPrice .quote with
    | none => giveUp "market_price_unavailable"
    | some price => if price ≤ 0 then giveUp "market_price_unavailable" else pure (some price)
  else do
    let l ← locals
    pure (some l.price)

def Call.quantityArgs (price : ℚ) : QuantityArgs where
  price := price
  qty := c.qty
  cancelorders := c.cancelorders.getD false
  hours := c.rest.get "hours"
  applyPolicy := !(c.bypassProfitGuard || c.bypassQuantity)
  market := c.isMarket
  enforceBusinessMinimum := c.enforceBusinessMinimum

def quantityGuard (price : ℚ) : Placing (Option Unit) := do
  let decision ← ask (fun n => E.provider.quantityDecision n (c.quantityArgs price))
    (.quantity (c.quantityArgs price))
  assign (fun l => { l with qty := decision.finalQty })
  if decision.finalQty ≤ 0 then giveUp (orElse decision.refuseReason "qty_zero_after_weight")
  else pure (some ())

/-- A trend manager that cannot be asked holds nothing up. -/
def trendGate : Placing (Option Unit) :=
  if c.waitForTrend then
    tryExcept
      (do
        let wait ← ask E.shouldWait .trend
        if wait then giveUp "trend_deferred" else pure (some ()))
      (fun _ => pure (some ()))
  else pure (some ())

/-- Whether the profit guard also speaks about the price of the dispatch. -/
def Call.finalProfitCheck : Bool := !c.bypassProfitGuard && !c.bypassReference && c.isMarket

/-- The profit guard at the price of a market order. -/
def marketProfit (price : ℚ) (reference : Option ℚ) : Placing (Option Unit) :=
  if c.finalProfitCheck then do
    let ok ← ask (fun n => E.profitGuard n price E.margin reference)
      (.profit price E.margin reference)
    if ok then pure (some ()) else giveUp "profit_guard"
  else pure (some ())

/-! ## Under the cooldown -/

/-- The provider is read again next to the boundaries that matter. -/
def executionGate : Placing Unit :=
  match E.provider.executionEnabled with
  | none => pure ()
  | some enabled => do
      let on ← ask enabled .gate
      if on then pure () else throw (.refused "execution_disabled")

/-- `time.time()` and the next `uuid4`, as an operation draws them. -/
def World.now (w : World) : ℚ := E.clock w.log.length

def World.callContext (w : World) : CallContext where
  recordId := E.uuid.next w.ledger.issued
  token := E.token w.log.length
  pid := E.pid
  startIdentity := E.startIdentity w.log.length

/-- What `order_retry.enqueue_claimed` is called with. -/
def prequeueArgs (w : World) : EnqueueArgs where
  symbol := c.symbol
  side := c.sideU
  qty := w.locals.qty
  placeKwargs := c.retryKwargs
  requestedPrice := some c.price
  refPrice := some w.locals.price
  now := w.now E
  failureReason := some "submit_pending"
  providerName := some E.providerName
  intentId := c.rest.get "intent_id"
  kind := c.kind

def grantedSnapshot : Enqueued → Option Record
  | .claimed snapshot => some snapshot
  | _ => none

def enqueueClaimedSection : Placing (Option Record) :=
  let granted (w : World) : Option Record :=
    grantedSnapshot
      (enqueueClaimed E.cfg (prequeueArgs E c w) none (w.callContext E) w.ledger.queue).1
  writeOutbox E (fun w => .enqueueClaimed E.cfg (prequeueArgs E c w) none (w.callContext E)) granted
    granted

/-- Persist the exact intent before the submit, under a claim of this process. -/
def prequeue : Placing (Option Unit) :=
  if c.callerOwnsRetry then pure (some ())
  else
    tryExcept
      (if E.cfg.retryEnabled then do
        match ← enqueueClaimedSection E c with
        | none => throw .failed
        | some snapshot => do
            assign (fun l =>
              { l with prequeuedClaim := some snapshot, prequeuedRecordId := some snapshot.id })
            if truthy snapshot.clientOrderId then do
              assign (fun l =>
                { l with kwargs := l.kwargs.set "client_order_id" (snapshot.clientOrderId.getD "") })
              pure (some ())
            else throw .failed
      else pure (some ()))
      (fun _ => giveUp "pre_submit_persist_failed")

/-- The exact permit of a Binance order, on the state its guards have seen; the price that it is
bound to. -/
def permit (state : Option OrderState) : Placing (Option ℚ) := do
  let l ← locals
  if E.isBinance && l.cachePermit.isNone then
    match E.provider.preflightOrder with
    | none => throw (.refused "account_cache_not_fresh")
    | some preflight => do
        match ← ask (fun n => preflight n l.price l.qty) (.preflight l.price l.qty) with
        | none => throw (.refused "account_cache_not_fresh")
        | some issued => do
            assign (fun l => { l with cachePermit := some issued })
            match E.provider.validateOrderState, state with
            | some validate, some state => do
                ask (fun n => validate n state) (.validated state)
                pure (if c.isMarket then none else some l.price)
            | _, _ => throw (.refused "account_cache_not_fresh")
  else pure (if c.isMarket then none else some c.price)

/-- The price of a retry has to stay within its tolerance. -/
def favorable (requested tolerance price : ℚ) : Bool :=
  if c.sideU = "SELL" then decide (requested * (1 - tolerance) ≤ price)
  else decide (price ≤ requested * (1 + tolerance))

/-- The quote of a market order is read again at dispatch. -/
def finalMarketCheck (constraint : Option (ℚ × ℚ)) (reference : Option ℚ) :
    Placing (Option Unit) :=
  if c.isMarket && (c.finalProfitCheck || c.retryConstraintSupplied) then do
    match ← ask E.provider.getCurrentPrice .quote with
    | none => giveUp "market_price_unavailable"
    | some price =>
        if price ≤ 0 then giveUp "market_price_unavailable"
        else if constraint.any (fun p => !favorable c p.1 p.2 price) then
          giveUp "retry_price_unfavorable"
        else marketProfit E c price reference
  else pure (some ())

def beginSection (claim : Record) : Placing (Option Record) :=
  let granted (w : World) : Option Record :=
    (beginClaimedSubmit claim (w.now E) E.cfg.claimLeaseSec E.pid (E.startIdentity w.log.length)
      w.ledger.queue).1
  writeOutbox E (fun w => .beginClaimedSubmit claim (w.now E) E.cfg.claimLeaseSec E.pid
    (E.startIdentity w.log.length)) granted granted

/-- The claim has to be this process's own at the moment of the submit. -/
def beginSubmit : Placing Unit := do
  let l ← locals
  match l.prequeuedClaim with
  | none => pure ()
  | some claim => do
      match ← beginSection E claim with
      | none => throw (.refused "producer_claim_lost")
      | some refreshed => assign (fun l => { l with prequeuedClaim := some refreshed })

/-- The call of the provider. -/
def orderCall (l : Locals) (permitPrice : Option ℚ) : OrderCall where
  side := c.side
  price := l.price
  qty := l.qty
  kwargs := l.kwargs
  enforceBusinessMinimum := if E.isBinance then some c.enforceBusinessMinimum else none
  permitRequestedPrice := if l.cachePermit.isSome then permitPrice else none
  cachePermit := l.cachePermit
  cancelOppositeRequestedPrice := if c.smart && E.isBinance then some c.price else none

/-- The fields `commit` stores. -/
def commitFields (order : Native) : Lock.Fields :=
  [("binance_order_id", orderIdFromPayload order)]

def submit (slot : Nat) (permitPrice : Option ℚ) : Placing (Option Native) := do
  assign (fun l => { l with reason := some "submit_ambiguous", submitAttempted := true })
  let l ← locals
  let response ← ask (fun n => E.provider.placeOrder n (orderCall E c l permitPrice))
    (.placeOrder (orderCall E c l permitPrice))
  if acceptedOrderPayload response then do
    assign (fun l =>
      { l with order := some response, reason := none, slotCommitted := true })
    let _ ← writeSlot E (fun _ => .commit slot (commitFields response))
    pure (some response)
  else do
    assign (fun l => { l with reason := some "response_without_order_id", order := none })
    pure none

def dispatch (slot : Nat) (state : Option OrderState) (constraint : Option (ℚ × ℚ))
    (reference : Option ℚ) : Placing (Option Native) := do
  executionGate E
  let some _ ← prequeue E c | pure none
  let permitPrice ← permit E c state
  let some _ ← finalMarketCheck E c constraint reference | pure none
  executionGate E
  beginSubmit E
  submit E c slot permitPrice

/-! ## The cooldown -/

def slotMeta : Lock.Fields :=
  [("side", some c.sideU), ("symbol", some c.symbol), ("client_order_id", none),
    ("binance_order_id", none)]

def pairMeta : Lock.Fields :=
  [("side", some "PAIR"), ("symbol", some c.symbol), ("client_order_id", none)]

def enterEvent (w : World) : Lock.Event :=
  match c.cooldownPairId with
  | none => .enterSlot c.symbol (w.now E) E.writer (slotMeta c)
  | some pair =>
      if pair = "" then .enterSlot c.symbol (w.now E) E.writer (slotMeta c)
      else .enterGroupSlot c.symbol pair c.sideU (w.now E) E.writer (pairMeta c)

/-- What is not committed is rolled back. -/
def leaveSlot (slot : Nat) : Placing Unit := do
  let l ← locals
  if l.slotCommitted then pure ()
  else do
    let _ ← writeSlot E (fun _ => .leave slot)
    pure ()

/-- `with trade_cooldown.trade_slot(…)`. -/
def tradeSlot (body : Nat → Placing (Option Native)) : Placing (Option Native) := do
  match ← writeSlot E (enterEvent E c) with
  | none => giveUp "cooldown"
  | some slot => tryFinally (body slot) (leaveSlot E slot)

/-! ## The body, its handlers and its `finally` -/

def body : Placing (Option Native) := do
  let constraint ← retryConstraint c
  let state ← prepareOrderState E c
  preflightOther E c
  smartPrice E c
  let some reference ← policyGuards E c | pure none
  let some price ← quantityPrice E c | pure none
  let some _ ← quantityGuard E c price | pure none
  let some _ ← trendGate E c | pure none
  let some _ ← marketProfit E c price reference | pure none
  tradeSlot E c (fun slot => dispatch E c slot state constraint reference)

/-- `except SubmissionRefused`, `except Exception`. -/
def handle : Raised → Placing (Option Native)
  | .refused reason => do
      assign (fun l => { l with reason := some reason, submitAttempted := false })
      pure none
  | _ => do
      assign (fun l => { l with reason := some (orElse l.reason "guard_check_failed") })
      pure none

/-- What is reported about the submit. -/
def Locals.state (l : Locals) : Lifecycle.SubmissionState :=
  if l.order.isSome then .accepted else if l.submitAttempted then .unknown else .refused

def Locals.report (l : Locals) : Report where
  accepted := l.order.isSome
  reason := if l.order.isSome then none else l.reason
  state := l.state

def writeReport (r : Report) : Placing Unit :=
  if c.withContext then modify (fun w => { w with context := some r }) else pure ()

def payloadOf (order : Native) : OrderPayload where
  orderId := extractOrderId order
  status :=
    match order with
    | .record r => r.status
    | .value _ => none

def complete (claim : Record) (args : World → CompleteArgs) : Placing Bool := do
  writeOutbox E (fun w => .completeClaim claim (args w)) (fun _ => none)
    (fun w => w.ledger.queue.any (sameClaim claim))

/-- `_accepted_is_durable`, on the queue as it is read. -/
def acceptedIsDurable (claim : Record) (order : Native) (q : Queue) : Bool :=
  match q.find? (fun r => r.id = claim.id) with
  | none => false
  | some r =>
      r.lifecycle = .accepted && (extractOrderId order).isSome &&
        r.orderId.getD "" = (extractOrderId order).getD "" && claim.clientOrderId.isSome &&
        r.clientOrderId = claim.clientOrderId

def acceptedArgs (order : Native) (w : World) : CompleteArgs where
  outcome := .accepted
  now := w.now E
  order := some (payloadOf order)
  providerName := some E.providerName

/-- `complete_accepted_claim`, with the attempts that are left. -/
def completeAcceptedClaim (claim : Record) (order : Native) : Nat → Placing Bool
  | 0 => pure false
  | n + 1 => do
      let done ← tryExcept (complete E claim (acceptedArgs E order)) (fun _ => pure false)
      if done then pure true
      else do
        let durable ← tryExcept
          (locked E (fun w => (acceptedIsDurable claim order w.ledger.queue, w)))
          (fun _ => pure false)
        if durable then pure true else completeAcceptedClaim claim order n

def trackAccepted (order : Native) : Placing Unit :=
  tryExcept
    (do
      let l ← locals
      match l.prequeuedClaim with
      | none => pure ()
      | some claim => do
          let _ ← completeAcceptedClaim E claim order E.persistAttempts
          pure ())
    (fun _ => pure ())

/-- A refusal that no retry can change. -/
def Locals.terminalRefusal (l : Locals) : Bool :=
  truthy l.reason && !l.submitAttempted && isTerminalFilterRefusal l.reason

/-- How a claim without an accepted order is finished. -/
def Locals.claimOutcome (l : Locals) : Outbox.Outcome :=
  if l.terminalRefusal || l.reason = some "execution_disabled" ||
      l.reason = some "trading_disabled" then .success
  else if isNonFailureDeferral l.reason then .deferred
  else .failure

def failureArgs (w : World) : CompleteArgs where
  outcome := w.locals.claimOutcome
  now := w.now E
  failureReason := w.locals.reason
  submissionState := some (if w.locals.submitAttempted then .unknown else .refused)

/-- What `order_retry.enqueue` is called with when nothing was persisted before. -/
def retryArgs (reference : Option ℚ) (w : World) : EnqueueArgs where
  symbol := c.symbol
  side := c.sideU
  qty := if c.qty ≤ 0 then w.locals.qty else c.qty
  placeKwargs := c.retryKwargs
  requestedPrice := some c.price
  refPrice := reference
  now := w.now E
  failureReason := w.locals.reason
  providerName := some E.providerName
  intentId := c.rest.get "intent_id"
  kind := c.kind

def trackFailure : Placing Unit :=
  tryExcept
    (if E.cfg.retryEnabled then do
      let l ← locals
      match l.prequeuedClaim with
      | some claim => do
          let _ ← complete E claim (failureArgs E)
          pure ()
      | none => do
          let reference ← tryExcept (ask E.provider.getCurrentPrice .quote) (fun _ => pure none)
          writeOutbox E (fun w => .enqueue E.cfg (retryArgs E c reference w) (w.callContext E))
            (fun _ => none) (fun _ => ())
    else pure ())
    (fun _ => pure ())

/-- The `finally` of the source. -/
def settle : Placing Unit := do
  let l ← locals
  writeReport c l.report
  match l.order with
  | some order => if c.callerOwnsRetry then pure () else trackAccepted E order
  | none =>
      if !c.callerOwnsRetry && (l.prequeuedRecordId.isSome ||
          (l.reason ≠ some "account_cache_not_fresh" && !l.terminalRefusal)) then
        trackFailure E c
      else pure ()

def guardedPlace : Placing (Option Native) :=
  tryFinally
    (tryCatch (body E c) (fun e => if e.caught then handle e else throw e))
    (settle E c)

/-! ## The call -/

/-- What a refusal before the pipeline reports. -/
def refuseEarly (reason : String) : Placing (Option Native) := do
  writeReport c { accepted := false, reason := some reason, state := .refused }
  pure none

/-- `execution_enabled()`; `none` when it cannot be read. -/
def readGate : Placing (Option Bool) :=
  match E.provider.executionEnabled with
  | none => pure (some true)
  | some enabled =>
      tryExcept (do let on ← ask enabled .gate; pure (some on)) (fun _ => pure none)

/-- The order as the caller gave it; `smart` is still among its arguments here. -/
def Call.plain : OrderCall where
  side := c.side
  price := c.price
  qty := c.qty
  kwargs := setFlag "smart" c.smartGiven c.kwargs

/-- `Instrument.place`. A provider that guards internally gets the order as it is. -/
def place : Placing (Option Native) := do
  if c.cachePermit.isSome && !E.isBinance then refuseEarly c "invalid_cache_permit_provider"
  else
    match ← readGate E with
    | none => refuseEarly c "execution_gate_unavailable"
    | some false => refuseEarly c "execution_disabled"
    | some true => do
        if ← ask E.provider.guardsInternally .internal then
          if c.retryConstraintSupplied then refuseEarly c "retry_price_constraint_unsupported"
          else do
            let response ← ask (fun n => E.provider.placeOrder n c.plain) (.placeOrder c.plain)
            pure (some response)
        else guardedPlace E c

/-- The state a call starts in. -/
def World.start (w : World) : World :=
  { w with
    others := []
    log := []
    context := none
    locals :=
      { price := c.price, qty := c.qty, kwargs := c.kwargs, cachePermit := c.cachePermit } }

end TradingFleet.Placement
