import TradingFleet.Basic.Hoare
import TradingFleet.Pair.Coordinator

set_option autoImplicit false

/-! # One round of a pair

`start` and `step` of `PairCoordinator`, with everything they call. The venue is injected and
may answer anything: each call is numbered, so any sequence of answers is one venue, and an
answer may be an exception. Calls are kept in a log, newest first, with the coordinator as it
was when the call was made. Some points of the program are in the log as well (`Point`); they
are what the results about whole runs refer to, and nothing reads them.

An exception leaves the coordinator as it was when it was raised. Console output is left out.
-/

namespace TradingFleet.Pair

open TradingFleet.Rounding (double sub)
open TradingFleet.Text

/-! ## The venue -/

structure LimitOrder where
  side : Side
  price : ℚ
  qty : ℚ
  pairId : String
  cachePermit : Option String
  revision : Revision

structure MarketOrder where
  side : Side
  qty : ℚ
  reason : String
  pairId : String
  cachePermit : Option String
  revision : Nat

structure PreflightOrder where
  side : Side
  qty : ℚ
  price : Option ℚ
  market : Bool
  kind : String

inductive Exposure where
  | long
  | sold
deriving DecidableEq

def Exposure.entrySide : Exposure → Side
  | .long => .buy
  | .sold => .sell

def Exposure.exitSide : Exposure → Side
  | .long => .sell
  | .sold => .buy

/-- An order the venue confirms for a persisted intent. -/
structure Recovered where
  ticket : OrderTicket
  snapshot : OrderSnapshot
  kind : String

/-- The protocol `PairVenue`. An optional field is an attribute that may be missing; the
number is that of the call. -/
structure Venue where
  currentPrice : Nat → Except String (Option ℚ)
  preflightOrder : Nat → PreflightOrder → Except String String
  placeLimit : Nat → LimitOrder → Except String (Option OrderTicket)
  placeMarketExit : Nat → MarketOrder → Except String (Option OrderTicket)
  marketExitAllowed : Option (Nat → Exposure → ℚ → String → Except String Bool)
  orderStatus : Nat → String → Except String OrderSnapshot
  cancel : Nat → String → Except String Bool
  recoverPairIntents : Option (Nat → String → Except String (List Recovered))
  pairRecoveryBlocked : Option (Nat → String → Except String Bool)
  recoveryBlocked : Nat → Bool
  lastPlaceFailureReason : Option (Nat → Side → Except String (Option String))

structure Setup where
  venue : Venue
  policy : PairPolicy

/-! ## The log -/

/-- Who places a limit order: `start` or `_ensure_anchored_exit`. -/
inductive LimitSite where
  | entry
  | anchoredExit
deriving DecidableEq

/-- Who places a market exit: `_submit_hard_stop` or `_retry_terminal_hard_stop`. -/
inductive StopSite where
  | submit
  | retry
deriving DecidableEq

inductive Point where
  /-- `_compact_zero_fill_history` begins -/
  | compacting
  /-- `_recover_persisted_intents` returns -/
  | recovered (ok : Bool)
  /-- the venue refused the market exit of a hard stop for this exposure, with nothing to
  recover -/
  | stopRefused (net : ℚ)
  /-- the round is over because it is flat, without a look at `_has_active_tickets` -/
  | flatUnchecked
  /-- the second leg has no ticket, for this reason, and the cancel of the first is not confirmed -/
  | firstLegKept (raised : Bool) (reason : String)

inductive Event where
  | currentPrice (answer : Except String (Option ℚ))
  | preflightOrder (order : PreflightOrder) (answer : Except String String)
  | placeLimit (site : LimitSite) (order : LimitOrder) (answer : Except String (Option OrderTicket))
  | placeMarketExit (site : StopSite) (order : MarketOrder)
      (answer : Except String (Option OrderTicket))
  | marketExitAllowed (exposure : Exposure) (loss : ℚ) (answer : Except String Bool)
  | orderStatus (orderId : String) (answer : Except String OrderSnapshot)
  | cancel (orderId : String) (answer : Except String Bool)
  | recoverPairIntents (answer : Except String (List Recovered))
  | pairRecoveryBlocked (answer : Except String Bool)
  | recoveryBlocked (answer : Bool)
  | lastPlaceFailureReason (side : Side) (answer : Except String (Option String))
  | point (p : Point)

structure Call where
  before : Coordinator
  event : Event

structure World where
  coord : Coordinator
  log : List Call

abbrev PairM := EStateM String World

def coord : PairM Coordinator := do
  let w ← get
  pure w.coord

def update (f : Coordinator → Coordinator) : PairM Unit :=
  modify (fun w => { w with coord := f w.coord })

/-- One numbered call of the venue. -/
def ask {α : Type} (call : Nat → α) (event : α → Event) : PairM α := fun w =>
  .ok (call w.log.length) { w with log := ⟨w.coord, event (call w.log.length)⟩ :: w.log }

def mark (p : Point) : PairM Unit :=
  modify (fun w => { w with log := ⟨w.coord, .point p⟩ :: w.log })

def orRaise {α : Type} : Except String α → PairM α
  | .ok a => pure a
  | .error e => throw e

variable (S : Setup)

/-! ## Reading and cancelling -/

/-- Read the order at a position: venue truth overrides the checkpoint. -/
def refreshOne (i : Nat) : PairM Unit := do
  let c ← coord
  match c.tickets[i]? with
  | none => pure ()
  | some t => do
      let answer ← ask (fun n => S.venue.orderStatus n t.orderId) (.orderStatus t.orderId)
      let snap ← orRaise answer
      update (fun c => (c.setSnapshot t.orderId snap).setActive i (snap.status = .opened))

def refresh : PairM Unit := do
  let c ← coord
  (List.range c.tickets.length).foldlM (fun _ i => refreshOne S i) ()
  mark .compacting
  update Coordinator.compact

inductive CancelFailure where
  | cancelFailed
  | statusUnavailable
  | statusUnconfirmed
deriving DecidableEq

/-- Cancel, then read the order once more: nothing is returned only when that read is
terminal. -/
def cancelAndReconcile (i : Nat) (orderId : String) : PairM (Option CancelFailure) := do
  let answer ← ask (fun n => S.venue.cancel n orderId) (.cancel orderId)
  match answer with
  | .ok true => do
      let status ← ask (fun n => S.venue.orderStatus n orderId) (.orderStatus orderId)
      match status with
      | .error _ => do
          update (fun c => c.setActive i true)
          pure (some .statusUnavailable)
      | .ok snap => do
          update (fun c => (c.setSnapshot orderId snap).setActive i (snap.status = .opened))
          if snap.status.terminal then pure none else pure (some .statusUnconfirmed)
  | _ => pure (some .cancelFailed)

/-- Cancel the tickets with a property, at the first failure stopping or going on. The first
failure is returned. -/
def cancelEach (stops : Bool) (p : OrderTicket → Bool) : PairM (Option CancelFailure) := do
  let c ← coord
  (List.range c.tickets.length).foldlM
    (fun failure i => do
      if stops && failure.isSome then pure failure
      else
        let c ← coord
        match c.tickets[i]? with
        | none => pure failure
        | some t =>
            if p t then do
              let result ← cancelAndReconcile S i t.orderId
              pure (failure.or result)
            else pure failure)
    none

/-- `_cancel`: the answer is trusted until the next read. -/
def cancelOptimistic (i : Nat) : PairM Unit := do
  let c ← coord
  match c.tickets[i]? with
  | none => pure ()
  | some t =>
      if t.active then do
        let answer ← ask (fun n => S.venue.cancel n t.orderId) (.cancel t.orderId)
        let ok ← orRaise answer
        if ok then update (fun c => c.setActive i false) else pure ()
      else pure ()

/-! ## Recovery -/

/-- The position of a recovered order among the tickets, adding it when it is new. -/
def Coordinator.adopted (c : Coordinator) (t : OrderTicket) : Coordinator × Nat :=
  match c.tickets.findIdx? (fun known => known.orderId = t.orderId) with
  | some i => (c, i)
  | none => (c.append { t with pairId := some c.pairId }, c.tickets.length)

def Coordinator.setTicketRevision (c : Coordinator) (i : Nat) (r : Revision) : Coordinator :=
  { c with tickets := c.tickets.modify i (fun t => { t with revision := r }) }

/-- A confirmed limit intent. -/
def Coordinator.adoptLimit (c : Coordinator) (i : Nat) (side : Side) (kind : String) :
    Coordinator :=
  match intentRevision kind "limit" with
  | none => c
  | some r => (c.setTicketRevision i r).setRevision side (max (c.limitRevisions side) r)

/-- A confirmed stop intent. -/
def Coordinator.adoptStop (c : Coordinator) (i : Nat) (orderId kind : String) : Coordinator :=
  match intentRevision kind "hard_stop" with
  | none => c
  | some r =>
      { (c.setTicketRevision i r).setStop orderId i with
        hardStopRevision := max c.hardStopRevision r.val
        hardStopReason := some (orElse c.hardStopReason "inventory_hard_stop")
        phase := .stopping }

/-- One pass of the loop over the recovered orders. -/
def Coordinator.adopt (c : Coordinator) (r : Recovered) : Coordinator :=
  let (c, i) := c.adopted r.ticket
  let c := (c.setActive i (r.snapshot.status = .opened)).setSnapshot r.ticket.orderId r.snapshot
  let side := ((c.tickets[i]?).map OrderTicket.side).getD r.ticket.side
  (c.adoptLimit i side r.kind).adoptStop i r.ticket.orderId r.kind

/-- `_recover_persisted_intents` returns. -/
def recoveryReturns (ok : Bool) : PairM Bool := do
  mark (.recovered ok)
  pure ok

/-- Adopt venue-confirmed intents without another submit. -/
def recoverPersistedIntents : PairM Bool := do
  match S.venue.recoverPairIntents with
  | none => recoveryReturns false
  | some recover => do
      let c ← coord
      let answer ← ask (fun n => recover n c.pairId) .recoverPairIntents
      match answer with
      | .error _ => recoveryReturns false
      | .ok items => do
          update (fun c => items.foldl Coordinator.adopt c)
          match S.venue.pairRecoveryBlocked with
          | some blocked => do
              let answer ← ask (fun n => blocked n c.pairId) .pairRecoveryBlocked
              let isBlocked ← orRaise answer
              recoveryReturns (!isBlocked)
          | none => do
              let isBlocked ← ask S.venue.recoveryBlocked .recoveryBlocked
              recoveryReturns (!isBlocked)

/-- `_place_failure_reason`. -/
def placeFailureReason (side : Side) : PairM String := do
  match S.venue.lastPlaceFailureReason with
  | none => pure (side.lowerText ++ "_place_failed")
  | some detail => do
      let answer ← ask (fun n => detail n side) (.lastPlaceFailureReason side)
      let reason ← orRaise answer
      pure (orElse reason (side.lowerText ++ "_place_failed"))

/-! ## Start -/

/-- The fields `start` resets; the phase stays until the round has one. -/
def Coordinator.reset (c : Coordinator) (pairId : String) (clock : ℚ) : Coordinator :=
  { c with
    pairId := pairId, startedAt := clock, firstFillAt := none, firstFillSide := none,
    shock := false, reason := none, tickets := [], snapshots := fun _ => none,
    stopTicket := none, limitRevisions := fun _ => Revision.zero, hardStopRevision := 0,
    hardStopReason := none }

def setPhase (phase : Phase) (reason : Option String) : PairM Unit :=
  update (fun c => { c with phase := phase, reason := reason })

/-- The round is over because it is flat. -/
def concludeFlat (phase : Phase) (reason : Option String) : PairM Unit := do
  mark .flatUnchecked
  setPhase phase reason

/-- Whether a leg without a ticket may exist at the venue. -/
def legRecoveryPending (raised : Bool) (reason : String) : PairM Bool :=
  if raised || isRecoveryPending (some reason) then pure true
  else ask S.venue.recoveryBlocked .recoveryBlocked

def pendingReason (side : Side) (reason : String) : String :=
  if isRecoveryPending (some reason) then reason else side.lowerText ++ "_recovery_pending"

def placeEntry (side : Side) (price : ℚ) : PairM (Except String (Option OrderTicket)) := do
  let c ← coord
  let order : LimitOrder :=
    { side := side, price := price, qty := c.qty, pairId := c.pairId, cachePermit := none,
      revision := c.limitRevisions side }
  ask (fun n => S.venue.placeLimit n order) (.placeLimit .entry order)

/-- The first leg has no ticket. -/
def firstLegFailed (side : Side) (raised : Bool) : PairM Unit := do
  let reason ← placeFailureReason S side
  let pending ← legRecoveryPending S raised reason
  if pending then setPhase .startupRecovery (some (pendingReason side reason))
  else setPhase .failed (some reason)

/-- The second leg has no ticket: the first one, at position 0, is withdrawn. -/
def secondLegFailed (side : Side) (raised : Bool) (firstId : String) : PairM Unit := do
  let reason ← placeFailureReason S side
  let failure ← cancelAndReconcile S 0 firstId
  let pending ← legRecoveryPending S raised reason
  match failure with
  | some _ => do
      mark (.firstLegKept raised reason)
      setPhase .startupRecovery (some reason)
  | none =>
      if pending then setPhase .startupRecovery (some (pendingReason side reason))
      else do
        let c ← coord
        if flatTolerance < |c.netQty| then setPhase .exposed (some reason)
        else setPhase .failed (some reason)

def placeSecondLeg (side : Side) (price : ℚ) (firstId : String) : PairM Unit := do
  let second ← placeEntry S side price
  match second with
  | .ok (some ticket) => do
      update (fun c => c.append ticket)
      update (fun c => { c with phase := .quoting })
  | .ok none => secondLegFailed S side false firstId
  | .error _ => secondLegFailed S side true firstId

def startMid (mid : Option ℚ) : PairM ℚ :=
  match mid with
  | some m => pure m
  | none => do
      let answer ← ask S.venue.currentPrice .currentPrice
      let price ← orRaise answer
      pure (price.getD 0)

/-- `prices[side]`. -/
def quoteFor (prices : ℚ × ℚ) : Side → ℚ
  | .buy => prices.1
  | .sell => prices.2

/-- Place the two entry orders, the start side first. -/
def placeLegs (prices : ℚ × ℚ) : PairM Unit := do
  let c ← coord
  let first ← placeEntry S c.startSide (quoteFor prices c.startSide)
  match first with
  | .ok (some ticket) => do
      update (fun c => c.append ticket)
      placeSecondLeg S c.startSide.other (quoteFor prices c.startSide.other) ticket.orderId
  | .ok none => firstLegFailed S c.startSide false
  | .error _ => firstLegFailed S c.startSide true

/-- Quote both sides of a new round. -/
def start (mid : Option ℚ) (pairId : String) (clock : ℚ) : PairM Coordinator.Outcome := do
  let c ← coord
  if c.phase ≠ .idle ∧ c.phase.terminal = false then throw "the existing round is not terminal"
  else do
    let mid ← startMid S mid
    let prices ← orRaise (quotePrices mid S.policy.adjustmentFraction S.policy.priceDecimals)
    update (fun c => c.reset pairId clock)
    placeLegs S prices
    let c ← coord
    pure c.outcome

/-! ## The anchored exit -/

/-- The revision the next exit order of a side is placed under, when no order of that side is
active: a revision whose order is known to be terminal is not used again. -/
def Coordinator.slotAfter (c : Coordinator) (side : Side) (latest : OrderTicket) :
    Option Revision :=
  let current := max (c.limitRevisions side) latest.revision
  if latest.revision = current then current.next else some current

/-- `self.venue.place_limit` of the exit, and what follows it. -/
def placeExit (side : Side) (target qty : ℚ) (permit : Option String) : PairM Bool := do
  let c ← coord
  let order : LimitOrder :=
    { side := side, price := target, qty := qty, pairId := c.pairId, cachePermit := permit,
      revision := c.limitRevisions side }
  let answer ← ask (fun n => S.venue.placeLimit n order) (.placeLimit .anchoredExit order)
  let replacement ← orRaise answer
  match replacement with
  | none => do
      update (fun c => { c with reason := some "exit_place_failed" })
      pure false
  | some ticket => do
      update (fun c => if c.knows ticket.orderId then c else c.append ticket)
      pure true

def setReason (reason : String) : PairM Unit :=
  update (fun c => { c with reason := some reason })

/-- Replace the active exit order. -/
def replaceExit (side : Side) (netQty target : ℚ) (ticket : OrderTicket) (i : Nat) :
    PairM Bool := do
  let preflight : PreflightOrder :=
    { side := side, qty := |netQty|, price := some target, market := false,
      kind := "rtrade_pair_quote" }
  let answer ← ask (fun n => S.venue.preflightOrder n preflight) (.preflightOrder preflight)
  let permit ← orRaise answer
  let failure ← cancelAndReconcile S i ticket.orderId
  match failure with
  | some .cancelFailed => do
      setReason "exit_cancel_failed"
      pure false
  | some _ => do
      setReason "exit_cancel_ambiguous"
      pure false
  | none => do
      let c ← coord
      let finalNet := c.netQty
      if |finalNet| ≤ flatTolerance then do
        concludeFlat .complete none
        pure true
      else
        match (c.limitRevisions side).next with
        | none => do
            setReason "exit_revision_exhausted"
            pure false
        | some next => do
            update (fun c => c.setRevision side next)
            let finalExitSide := if 0 < finalNet then Side.sell else Side.buy
            if finalExitSide ≠ side ∨ |netQty| + flatTolerance < |finalNet| then do
              setReason "exit_exposure_changed_during_cancel"
              pure false
            else placeExit S side target |finalNet| (some permit)

/-- Place an exit order when none is active. -/
def renewExit (side : Side) (netQty target : ℚ) : PairM Bool := do
  let c ← coord
  match c.latestLimit side with
  | none => placeExit S side target |netQty| none
  | some (latest, _) =>
      if (c.snapshot latest.orderId).status.terminal then
        match c.slotAfter side latest with
        | none => do
            update (fun c => c.setRevision side (max (c.limitRevisions side) latest.revision))
            setReason "exit_revision_exhausted"
            pure false
        | some slot => do
            update (fun c => c.setRevision side slot)
            placeExit S side target |netQty| none
      else do
        setReason "exit_status_unconfirmed"
        pure false

/-- The active exit order has the target's price and the exposure's quantity. -/
def exitAdequate (c : Coordinator) (side : Side) (netQty target : ℚ) (ticket : OrderTicket) :
    Bool :=
  (match side with
    | .sell => target ≤ ticket.price
    | .buy => ticket.price ≤ target) &&
  isClose (max 0 (ticket.qty - (c.snapshot ticket.orderId).filledQty)) |netQty|

def ensureAnchoredExit (exposure : Exposure) (netQty entryAvg current : ℚ) : PairM Bool := do
  let side := exposure.exitSide
  let target ← orRaise (anchoredExitPrice side entryAvg current S.policy.adjustmentFraction
    S.policy.minEdgeFraction S.policy.priceDecimals)
  let c ← coord
  match c.activeTicket side with
  | some (ticket, i) =>
      if exitAdequate c side netQty target ticket then pure true
      else replaceExit S side netQty target ticket i
  | none => renewExit S side netQty target

/-! ## The hard stop -/

/-- The market exit was not answered with an order. -/
def marketExitRefused (side : Side) : PairM Bool := do
  let blocked ← ask S.venue.recoveryBlocked .recoveryBlocked
  if blocked then pure true
  else do
    let reason ← placeFailureReason S side
    pure (isRecoveryPending (some reason))

/-- `self.tickets.append(market)` unless known, and `self.stop_ticket = market`. -/
def Coordinator.takeStop (c : Coordinator) (market : OrderTicket) : Coordinator :=
  if c.knows market.orderId then c.setForeignStop market.orderId
  else (c.append market).setStop market.orderId c.tickets.length

def stopReason (c : Coordinator) : String :=
  if c.shock then "fast_fill_hard_stop" else "inventory_hard_stop"

def stopBreached (c : Coordinator) (policy : PairPolicy) (exposure : Exposure)
    (entryAvg current : ℚ) : Bool :=
  let fraction := if c.shock then policy.shockHardStopFraction else policy.hardStopFraction
  match exposure with
  | .long => current ≤ entryAvg * (1 - fraction)
  | .sold => entryAvg * (1 + fraction) ≤ current

def lossFraction (exposure : Exposure) (entryAvg current : ℚ) : Except String ℚ :=
  if entryAvg = 0 then .error "float division by zero"
  else
    match exposure with
    | .long => .ok (max 0 ((entryAvg - current) / entryAvg))
    | .sold => .ok (max 0 ((current - entryAvg) / entryAvg))

/-- Submit the market exit of a hard stop. `netQty` is the exposure it was asked for. -/
def placeStop (side : Side) (netQty exitQty : ℚ) (reason : String) (permit : Option String) :
    PairM Bool := do
  let c ← coord
  let order : MarketOrder :=
    { side := side, qty := exitQty, reason := reason, pairId := c.pairId, cachePermit := permit,
      revision := c.hardStopRevision }
  let answer ← ask (fun n => S.venue.placeMarketExit n order) (.placeMarketExit .submit order)
  let market ← orRaise answer
  match market with
  | none => do
      let pending ← marketExitRefused S side
      if pending then do
        setPhase .hardStopRecovery (some "hard_stop_recovery_pending")
        pure false
      else do
        mark (.stopRefused netQty)
        setReason "hard_stop_place_failed"
        pure false
  | some ticket => do
      update (fun c => { c.takeStop ticket with hardStopReason := some reason, phase := .stopping })
      pure true

/-- Withdraw the exit order before the market exit. -/
def replaceByStop (side : Side) (netQty : ℚ) (reason : String) (ticket : OrderTicket) (i : Nat) :
    PairM Bool := do
  let c ← coord
  let preflight : PreflightOrder :=
    { side := side, qty := |netQty|, price := none, market := true,
      kind := "rtrade:" ++ reason ++ ":" ++ c.pairId }
  let answer ← ask (fun n => S.venue.preflightOrder n preflight) (.preflightOrder preflight)
  let permit ← orRaise answer
  let failure ← cancelAndReconcile S i ticket.orderId
  match failure with
  | some .cancelFailed => do
      setReason "hard_stop_cancel_failed"
      pure false
  | some _ => do
      setReason "hard_stop_cancel_ambiguous"
      pure false
  | none => do
      let c ← coord
      let finalNet := c.netQty
      if |finalNet| ≤ flatTolerance then do
        concludeFlat .hardStop (some reason)
        pure true
      else
        let finalExitSide := if 0 < finalNet then Side.sell else Side.buy
        if finalExitSide ≠ side ∨ |netQty| + flatTolerance < |finalNet| then do
          setReason "hard_stop_exposure_changed_during_cancel"
          pure false
        else placeStop S side netQty |finalNet| reason (some permit)

/-- Whether the venue lets the market exit through; without the attribute it does. -/
def marketExitPermitted (exposure : Exposure) (loss : ℚ) (reason : String) : PairM Bool :=
  match S.venue.marketExitAllowed with
  | none => pure true
  | some allow => do
      let answer ← ask (fun n => allow n exposure loss reason) (.marketExitAllowed exposure loss)
      orRaise answer

def submitHardStop (exposure : Exposure) (netQty entryAvg current : ℚ) : PairM Bool := do
  let c ← coord
  if |netQty| ≤ flatTolerance || !stopBreached c S.policy exposure entryAvg current then pure false
  else do
    let loss ← orRaise (lossFraction exposure entryAvg current)
    let permitted ← marketExitPermitted S exposure loss (stopReason c)
    if permitted then
      match c.activeTicket exposure.exitSide with
      | none => placeStop S exposure.exitSide netQty |netQty| (stopReason c) none
      | some (ticket, i) => replaceByStop S exposure.exitSide netQty (stopReason c) ticket i
    else do
      setReason "market_exit_waiting_for_trend"
      pure false

/-- The two calls of a retry: the market exit is asked for only with a permit. -/
def placeRetry (preflight : PreflightOrder) (order : Option String → MarketOrder) :
    PairM (Option OrderTicket) := do
  let answer ← ask (fun n => S.venue.preflightOrder n preflight) (.preflightOrder preflight)
  match answer with
  | .error _ => pure none
  | .ok permit => do
      let market ← ask (fun n => S.venue.placeMarketExit n (order (some permit)))
        (.placeMarketExit .retry (order (some permit)))
      match market with
      | .error _ => pure none
      | .ok ticket => pure ticket

/-- One bounded new revision for a terminal stop remainder. -/
def retryTerminalHardStop (netQty : ℚ) : PairM Unit := do
  let c ← coord
  if |netQty| ≤ flatTolerance then pure ()
  else if 1 ≤ c.hardStopRevision then
    setPhase .hardStopRecovery (some "hard_stop_terminal_with_exposure")
  else do
    let side := if 0 < netQty then Side.sell else Side.buy
    let reason := orElse c.hardStopReason (stopReason c)
    let next := c.hardStopRevision + 1
    let preflight : PreflightOrder :=
      { side := side, qty := |netQty|, price := none, market := true,
        kind := "rtrade:" ++ reason ++ ":" ++ c.pairId ++ ":revision:" ++ toString next }
    let order : Option String → MarketOrder := fun permit =>
      { side := side, qty := |netQty|, reason := reason, pairId := c.pairId,
        cachePermit := permit, revision := next }
    let market ← placeRetry S preflight order
    match market with
    | none => do
        update (fun c => { c with phase := .hardStopRecovery })
        let pending ← marketExitRefused S side
        setReason (if pending then "hard_stop_recovery_pending" else "hard_stop_retry_failed")
    | some ticket =>
        update (fun c =>
          { { c with hardStopRevision := next }.takeStop ticket with
            phase := .stopping, reason := some reason })

/-! ## Step -/

/-- The part of a step for phase `stopping`. -/
def stepStopping (net : ℚ) : PairM Unit := do
  let c ← coord
  if |net| ≤ flatTolerance then concludeFlat .hardStop (some (stopReason c))
  else
    match c.stopTicket.bind c.snapshots with
    | some snap => if snap.status.terminal then retryTerminalHardStop S net else pure ()
    | none => pure ()

/-- The part of a step for phase `hard_stop_recovery`. -/
def stepHardStopRecovery (net : ℚ) : PairM Unit := do
  let c ← coord
  if c.reason = some "hard_stop_retry_failed" then retryTerminalHardStop S net
  else if isRecoveryPending c.reason then do
    let recovered ← recoverPersistedIntents S
    if recovered then do
      let c ← coord
      if |c.netQty| ≤ flatTolerance then
        concludeFlat .hardStop (some (orElse c.hardStopReason "inventory_hard_stop"))
      else if c.stopTicket = none then setReason "hard_stop_recovery_missing_order"
      else do
        update (fun c => { c with phase := .stopping })
        stepStopping S c.netQty
    else pure ()
  else pure ()

/-- Recovery runs only while the reason says that it is pending. -/
def recoverIfPending : PairM Bool := do
  let c ← coord
  if isRecoveryPending c.reason then recoverPersistedIntents S else pure true

/-- The part of a step for phase `startup_recovery`: whether the round goes on. -/
def stepStartupRecovery : PairM Bool := do
  let recovered ← recoverIfPending S
  if recovered then do
    let failure ← cancelEach S true OrderTicket.active
    match failure with
    | some _ => pure false
    | none => do
        let c ← coord
        if |c.netQty| ≤ flatTolerance then do
          update (fun c => { c with phase := .failed })
          pure false
        else do
          update (fun c => { c with phase := .exposed })
          pure true
  else pure false

/-- Withdraw everything of a balanced round: whether it is over, or waits for a cancel. -/
def closeBalanced : PairM Bool := do
  let failure ← cancelEach S false OrderTicket.active
  refresh S
  let c ← coord
  if |c.netQty| ≤ flatTolerance then
    if failure.isSome || c.hasActiveTickets then do
      setPhase .closing (some "balanced_cancel_pending")
      pure true
    else do
      setPhase .complete none
      pure true
  else pure false

/-- `self.reason` after a hard stop that leaves no room for an exit order. -/
def stopForbidsExit (reason : Option String) : Bool :=
  reason = some "hard_stop_cancel_ambiguous" ||
    reason = some "hard_stop_exposure_changed_during_cancel" ||
    reason = some "hard_stop_recovery_pending"

def exposureOf (net : ℚ) : Exposure := if 0 < net then .long else .sold

def entryAverage (t : Coordinator.Totals) (exposure : Exposure) : ℚ :=
  match exposure with
  | .long => t.buyCost / t.buyQty
  | .sold => t.sellCost / t.sellQty

/-- Stop out of the exposure, or keep an exit order for it. -/
def exitExposure : PairM Unit := do
  let c ← coord
  let net := c.netQty
  let exposure := exposureOf net
  let entryAvg := entryAverage c.totals exposure
  let answer ← ask S.venue.currentPrice .currentPrice
  let price ← orRaise answer
  let current := price.getD 0
  if current ≤ 0 then setReason "current_price_unavailable"
  else do
    let stopped ← submitHardStop S exposure net entryAvg current
    if stopped then pure ()
    else do
      let c ← coord
      if stopForbidsExit c.reason then pure ()
      else do
        let _ ← ensureAnchoredExit S exposure net entryAvg current
        pure ()

/-- An exposed round: the entry side is withdrawn, then the exposure is exited. -/
def manageExposure : PairM Unit := do
  update (fun c => { c with phase := .exposed })
  let c ← coord
  let entrySide := (exposureOf c.netQty).entrySide
  let failure ← cancelEach S true (fun t => t.side = entrySide && t.active)
  match failure with
  | some .cancelFailed => setReason "entry_cancel_failed"
  | some _ => setReason "entry_cancel_ambiguous"
  | none => do
      refresh S
      let c ← coord
      if |c.netQty| ≤ flatTolerance then do
        update (fun c => { c with phase := .closing })
        let ended ← closeBalanced S
        if ended then pure () else exitExposure S
      else exitExposure S

/-- A round with fills. -/
def stepFilled : PairM Unit := do
  let c ← coord
  if |c.netQty| ≤ flatTolerance then do
    let ended ← closeBalanced S
    if ended then pure () else manageExposure S
  else manageExposure S

/-- A round without fills; `again` is the recursive call of `step`. -/
def stepUnfilled (again : PairM Unit) (now : ℚ) : PairM Unit := do
  let c ← coord
  if double S.policy.quoteTtlSec ≤ sub now c.startedAt then do
    (List.range c.tickets.length).foldlM (fun _ i => cancelOptimistic S i) ()
    refresh S
    let c ← coord
    if 0 < c.totals.buyQty ∨ 0 < c.totals.sellQty then again
    else if c.hasActiveTickets then setReason "quote_cancel_pending"
    else setPhase .expired (some "quote_ttl")
  else pure ()

/-- The rest of a step, once recovery and stop are out of the way. -/
def stepQuotes (again : PairM Unit) (now : ℚ) : PairM Unit := do
  let c ← coord
  if 0 < c.totals.buyQty ∨ 0 < c.totals.sellQty then stepFilled S else stepUnfilled S again now

/-- `step` without its result. The fuel is the interpreter's recursion limit. -/
def stepBody (now : ℚ) : Nat → PairM Unit
  | 0 => throw "maximum recursion depth exceeded"
  | fuel + 1 => do
      let c ← coord
      if c.phase.terminal then pure ()
      else if c.phase = .idle then throw "start() must be called before step()"
      else do
        refresh S
        update (fun c => c.recordFirstFill S.policy now c.totals.buyQty c.totals.sellQty)
        let c ← coord
        match c.phase with
        | .startupRecovery => do
            let goesOn ← stepStartupRecovery S
            if goesOn then stepQuotes S (stepBody now fuel) now else pure ()
        | .hardStopRecovery => stepHardStopRecovery S c.netQty
        | .stopping => stepStopping S c.netQty
        | _ => stepQuotes S (stepBody now fuel) now

/-- Advance the round by one tick. -/
def step (now : ℚ) (fuel : Nat) : PairM Coordinator.Outcome := do
  stepBody S now fuel
  let c ← coord
  pure c.outcome

end TradingFleet.Pair
