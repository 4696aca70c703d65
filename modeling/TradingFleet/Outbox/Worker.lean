import TradingFleet.Basic.Hoare
import TradingFleet.Outbox.Quantity
import TradingFleet.Outbox.Shared

set_option autoImplicit false

/-! # The retry worker

`process_once` of `order_retry_worker.py`: classify a validated snapshot of the queue, drop
what expired, lease what is due, recover the claims of live producers by lookup only, and
advance each leased record by one step. Every `oq.` call is one locked section; before each
of them, and before each call of the market facade, the other processes may take steps and
the worker may crash (`interleave`).

The facade is a record of functions that may answer anything: each call is numbered, so any
sequence of answers is one facade. Answers and submits are kept in a log, newest first.
Alerts, prints and the execution audit do not touch the queue or the venue and are left out.
-/

namespace TradingFleet.Outbox

open TradingFleet.Text TradingFleet.Keyed

/-! ## The market facade -/

/-- What `order_by_client_id` returns: an explicit `None`, something that is not a
dictionary, or an order payload. -/
inductive LookupAnswer where
  | absent
  | malformed
  | order (payload : OrderPayload)
deriving DecidableEq

/-- A declaration with a boolean `lookup_by_client_order_id`. -/
structure Capabilities where
  lookupByClientOrderId : Bool
  notFoundReliableForSeconds : Option ℚ
deriving DecidableEq

/-- The arguments of `mkt.place`. `caller_owns_retry` is always set. -/
structure PlaceCall where
  symbol : String
  side : Side
  price : ℚ
  qty : ℚ
  kwargs : Kwargs
  retryRequestedPrice : Option ℚ
  retryPriceTolerance : ℚ
  providerName : Option String
deriving DecidableEq

/-- What `mkt.place` returns or raises, and what it leaves in `_outcome_context`. -/
structure PlaceAnswer where
  order : Except String (Option OrderPayload)
  reason : Option String
  state : Option SubmissionState

/-- The injectable facade. An optional field is an attribute that may be missing; the number
is that of the call. -/
structure Market where
  orderByClientId :
    Option (Nat → String → String → Option String → Except String LookupAnswer)
  providerNameFor : Option (Nat → String → Except String String)
  reconciliationCapabilities :
    Option (Nat → String → Option String → Except String (Option Capabilities))
  getCurrentPrice : Nat → String → Except String (Option ℚ)
  orderStatus : Nat → String → String → Option String → Except String OrderStatus
  place : Nat → PlaceCall → PlaceAnswer

/-! ## The worker's monad -/

inductive Event where
  | lookup (symbol clientOrderId : String) (provider : Option String)
      (answer : Except String LookupAnswer)
  | capabilities (symbol : String) (provider : Option String)
      (answer : Except String (Option Capabilities))
  | price (symbol : String) (answer : Except String (Option ℚ))
  | status (symbol orderId : String) (answer : Except String OrderStatus)
  | route (symbol : String) (answer : Except String String)
  /-- the number of the call, the record it is made for and the shared state then -/
  | place (number : Nat) (record : Record) (call : PlaceCall) (scene : Shared)

/-- What the others do before the next step of the worker, and whether it crashes then. -/
structure Turn where
  actions : List EnvAction
  crash : Bool

structure World where
  shared : Shared
  schedule : List Turn
  log : List Event

inductive Stop where
  | crashed
  | raised (message : String)

/-- What a worker is deployed with. `procs` is the process table as the worker reads it. -/
structure Setup where
  cfg : Config
  mkt : Market
  uuid : UuidSource
  procs : Nat → Shared → Nat → ProcRead

abbrev Worker := EStateM Stop World

/-- The next turn of the other processes. -/
def takeTurn (S : Setup) (turn : Turn) (sh : Shared) : Shared :=
  turn.actions.foldl (fun sh act => act.apply S.cfg S.uuid sh) sh

def interleave (S : Setup) : Worker Unit := fun w =>
  match w.schedule with
  | [] => .ok () w
  | turn :: rest =>
      let sh := takeTurn S turn w.shared
      if turn.crash then
        .error .crashed
          { w with
            shared := { sh with running := sh.running.filter (· ≠ sh.worker) }, schedule := rest }
      else .ok () { w with shared := sh, schedule := rest }

/-- One locked section of the worker. -/
def locked {α : Type} (S : Setup) (body : Shared → Except String (α × Shared)) : Worker α := do
  interleave S
  fun w =>
    match body w.shared with
    | .error e => .error (.raised e) w
    | .ok (a, sh) => .ok a { w with shared := sh }

/-- One numbered call of the facade, kept in the log. -/
def ask {α : Type} (S : Setup) (call : Nat → α) (event : α → Event) : Worker α := do
  interleave S
  fun w => .ok (call w.log.length) { w with log := event (call w.log.length) :: w.log }

/-- Raise what an unguarded call of the facade raised. -/
def orRaise {α : Type} : Except String α → Worker α
  | .ok a => pure a
  | .error e => throw (.raised e)

/-! ## Sections -/

def loadSection (S : Setup) : Worker Queue :=
  locked S (fun sh => (loadValidated sh.queue).map (fun q => (q, sh)))

def discardSection (S : Setup) (expired : List Record) (now : ℚ) : Worker (List Record) :=
  locked S (fun sh =>
    (discardExpired S.cfg expired now sh.queue).map (fun p => (p.1, sh.write p.2)))

/-- `claim` draws its token before it takes the lock. -/
def claimSection (S : Setup) (ids : List String) (now : ℚ) : Worker (List Record) :=
  locked S (fun sh =>
    if ids = [] then .ok ([], sh)
    else
      (claim ids now S.cfg.claimLeaseSec (S.uuid.next sh.used) sh.queue).map (fun p =>
        (p.1, { sh.write p.2 with used := S.uuid.next sh.used :: sh.used })))

def completeSection (S : Setup) (claimed : Record) (c : CompleteArgs) : Worker Bool :=
  locked S (fun sh => sh.complete claimed c)

def activateSection (S : Setup) (claimed : Record) (qty now : ℚ) : Worker (Option Activation) :=
  locked S (fun sh =>
    .ok ((activateClaimedReplacement claimed qty now sh.queue).1,
      sh.write (activateClaimedReplacement claimed qty now sh.queue).2))

def advanceSection (S : Setup) (claimed : Record) (st : OrderStatus) (now : ℚ) :
    Worker StatusTransition :=
  locked S (fun sh =>
    if claimed.lifecycle ≠ .accepted then
      .error "status transition requires an accepted claimed record"
    else
      (sh.complete claimed (statusTransition claimed st now).2).map (fun p =>
        ((statusTransition claimed st now).1, p.2)))

/-- The identity the worker reads for itself. -/
def ownIdentity (S : Setup) (number : Nat) (sh : Shared) : Option String :=
  match S.procs number sh sh.worker.pid with
  | .identity start => some start
  | _ => none

def beginSection (S : Setup) (claimed : Record) (now : ℚ) : Worker (Option Record) := do
  interleave S
  fun w =>
    let (r, sh) := w.shared.begin w.shared.worker (ownIdentity S w.log.length w.shared) claimed
      now S.cfg.claimLeaseSec
    .ok r { w with shared := sh }

/-! ## Calls -/

def providerName (S : Setup) (r : Record) : Worker (Option String) :=
  if truthy r.providerName then pure r.providerName
  else
    match S.mkt.providerNameFor with
    | none => pure none
    | some resolver => do
        let answer ← ask S (fun n => resolver n r.symbol) (.route r.symbol)
        let name ← orRaise answer
        pure (some name)

inductive Reconciliation where
  | found (order : OrderPayload)
  | notFound
  | unavailable
deriving DecidableEq

/-- Only an explicit `None` confirms absence. -/
def readLookup : Except String LookupAnswer → Reconciliation
  | .error _ => .unavailable
  | .ok .absent => .notFound
  | .ok .malformed => .unavailable
  | .ok (.order payload) => if payload.orderId.isSome then .found payload else .unavailable

def reconcileClientOrder (S : Setup) (symbol : String) (clientOrderId provider : Option String) :
    Worker Reconciliation :=
  match S.mkt.orderByClientId, clientOrderId with
  | some lookup, some cid =>
      if cid = "" then pure .unavailable
      else do
        let answer ← ask S (fun n => lookup n symbol cid provider) (.lookup symbol cid provider)
        pure (readLookup answer)
  | _, _ => pure .unavailable

/-- An explicit capability declaration, or `none`: ambiguity fails closed. -/
def capabilitiesOf (S : Setup) (symbol : String) (provider : Option String) :
    Worker (Option Capabilities) :=
  match S.mkt.reconciliationCapabilities with
  | none => pure none
  | some capabilities => do
      let answer ← ask S (fun n => capabilities n symbol provider) (.capabilities symbol provider)
      match answer with
      | .ok declared => pure declared
      | .error _ => pure none

def supportsClientIdReconciliation (S : Setup) (symbol : String) (provider : Option String) :
    Worker Bool := do
  let caps ← capabilitiesOf S symbol provider
  pure (match caps with
    | some c => c.lookupByClientOrderId
    | none => false)

/-- The time a submission is at most as old as. -/
def referenceAt (r : Record) : ℚ := max r.createdTs r.lastAttemptTs

/-- The absence of an order is recent enough to authorize a submit. -/
def absenceReliable (cfg : Config) (caps : Option Capabilities) (r : Record) (now : ℚ) : Bool :=
  match caps with
  | none => false
  | some c =>
      c.lookupByClientOrderId &&
        (match c.notFoundReliableForSeconds with
          | none => false
          | some horizon =>
              decide (0 < horizon) && decide (0 < referenceAt r) &&
                decide (0 ≤ now - referenceAt r) &&
                decide (now - referenceAt r ≤ min horizon cfg.notFoundMaxAgeSec))

def notFoundIsReliable (S : Setup) (r : Record) (now : ℚ) (provider : Option String) :
    Worker Bool := do
  let caps ← capabilitiesOf S r.symbol provider
  pure (absenceReliable S.cfg caps r now)

/-- A persisted intent might already have reached its venue. -/
def submissionRequiresReconciliation (r : Record) : Bool :=
  match r.submissionState with
  | some .refused => false
  | some .producerClaimed => true
  | some .unknown => true
  | _ => possiblySubmittedReasons.contains r.reasonKey

/-! ## Classification -/

inductive Class where
  | expired
  | waiting
  | live
  | quarantined
  | observe
  | reconcileCancel
  | retry
deriving DecidableEq, Repr

/-- A record that is not expired and not owned: due records by their lifecycle. -/
def classByLifecycle (cfg : Config) (r : Record) (now : ℚ) : Class :=
  if !isDue cfg r now then .waiting
  else
    match r.lifecycle with
    | .accepted => .observe
    | .awaitingCancel => .reconcileCancel
    | .submitPending => .retry

def ownerState (S : Setup) (r : Record) : Worker OwnerState := do
  interleave S
  fun w => .ok (producerClaimOwnerState (S.procs w.log.length w.shared) r) w

def classify (S : Setup) (now : ℚ) (r : Record) : Worker Class :=
  if isExpired S.cfg r now then pure .expired
  else if r.submissionState = some .producerClaimed then
    if now < r.claimUntil.getD 0 then pure .waiting
    else do
      let owner ← ownerState S r
      match owner with
      | .alive => pure .live
      | .unknown => pure .quarantined
      | _ => do
          let provider ← providerName S r
          let supported ← supportsClientIdReconciliation S r.symbol provider
          if supported then pure (classByLifecycle S.cfg r now) else pure .quarantined
  else pure (classByLifecycle S.cfg r now)

/-- The five groups of a pass, and the records nobody may touch. -/
structure Sorted where
  toRetry : List Record := []
  toObserve : List Record := []
  toReconcileCancel : List Record := []
  live : List Record := []
  expired : List Record := []
  quarantined : Nat := 0

def Sorted.add (s : Sorted) (r : Record) : Class → Sorted
  | .expired => { s with expired := s.expired ++ [r] }
  | .waiting => s
  | .live => { s with live := s.live ++ [r] }
  | .quarantined => { s with quarantined := s.quarantined + 1 }
  | .observe => { s with toObserve := s.toObserve ++ [r] }
  | .reconcileCancel => { s with toReconcileCancel := s.toReconcileCancel ++ [r] }
  | .retry => { s with toRetry := s.toRetry ++ [r] }

def classifyAll (S : Setup) (now : ℚ) (snapshot : List Record) : Worker Sorted :=
  snapshot.foldlM (fun acc r => do
    let c ← classify S now r
    pure (acc.add r c)) {}

/-- The IDs a pass leases. -/
def Sorted.claimIds (s : Sorted) : List String :=
  s.toRetry.map Record.id ++ s.toObserve.map Record.id ++ s.toReconcileCancel.map Record.id

/-! ## Steps of one leased record -/

structure Stats where
  attempted : Nat := 0
  succeeded : Nat := 0
  reconciled : Nat := 0
  observed : Nat := 0
  filled : Nat := 0
  terminalFailed : Nat := 0
  terminalRetried : Nat := 0
  expired : Nat := 0
  skippedPrice : Nat := 0
  quarantined : Nat := 0
  remaining : Nat := 0
deriving DecidableEq, Repr

def acceptedCompletion (now : ℚ) (order : OrderPayload) (provider : Option String) :
    CompleteArgs :=
  { outcome := .accepted, now := now, order := some order, providerName := provider }

/-- An expired claim of a live producer: recover venue truth by lookup, never submit. -/
def recoverLive (S : Setup) (now : ℚ) (st : Stats) (r : Record) : Worker Stats := do
  let provider ← providerName S r
  let state ← reconcileClientOrder S r.symbol r.clientOrderId provider
  match state with
  | .found order => do
      let done ← completeSection S r (acceptedCompletion now order provider)
      pure (if done then
          { st with succeeded := st.succeeded + 1, reconciled := st.reconciled + 1 }
        else st)
  | _ => pure { st with quarantined := st.quarantined + 1 }

def isCanceled (st : OrderStatus) : Bool :=
  upper st.venueStatus = "CANCELED" || upper st.venueStatus = "CANCELLED"

/-- A replacement waits until the order it replaces is confirmed canceled. -/
def reconcileReplacement (S : Setup) (now : ℚ) (st : Stats) (r : Record)
    (provider : Option String) : Worker Stats := do
  let replaced := r.replacesOrderId.getD ""
  let answer ← ask S (fun n => S.mkt.orderStatus n r.symbol replaced provider)
    (.status r.symbol replaced)
  match answer with
  | .error e => do
      let _ ← completeSection S r { outcome := .statusError, now := now, failureReason := some e }
      pure st
  | .ok status =>
      if isCanceled status then do
        let activation ← activateSection S r (replacementQty r status) now
        match activation with
        | some .activated => do
            let _ ← completeSection S r { outcome := .release, now := now }
            pure st
        | some .resolved => pure st
        | none => do
            let _ ← completeSection S r
              { outcome := .statusError, now := now
                failureReason := some "cancel_activation_failed" }
            pure st
      else if status.terminal then do
        let _ ← completeSection S r { outcome := .success, now := now }
        pure st
      else do
        let _ ← completeSection S r { outcome := .release, now := now }
        pure st

def countTransition (st : Stats) : StatusAction → Stats
  | .observed => st
  | .filled => { st with filled := st.filled + 1 }
  | .retryTerminal => { st with terminalRetried := st.terminalRetried + 1 }
  | .terminal => { st with terminalFailed := st.terminalFailed + 1 }

/-- An accepted order is polled once. -/
def observeAccepted (S : Setup) (now : ℚ) (st : Stats) (r : Record) (provider : Option String) :
    Worker Stats := do
  let orderId := r.orderId.getD "None"
  let answer ← ask S (fun n => S.mkt.orderStatus n r.symbol orderId provider)
    (.status r.symbol orderId)
  let st := { st with observed := st.observed + 1 }
  match answer with
  | .error e => do
      let _ ← completeSection S r { outcome := .statusError, now := now, failureReason := some e }
      pure st
  | .ok status => do
      let transition ← advanceSection S r status now
      pure (countTransition st transition.action)

/-- The reason a refusal is recorded under. -/
def refusalReason (answer : PlaceAnswer) : String :=
  orElse answer.reason
    (if answer.state = some .refused then "pre_submit_refused" else "submit_ambiguous")

/-- A refusal that no retry of the unchanged intent can overcome. -/
def isTerminalRefusal (answer : PlaceAnswer) : Bool :=
  (refusalReason answer = "execution_disabled" || refusalReason answer = "trading_disabled" ||
    isTerminalFilterRefusal (some (refusalReason answer))) &&
    answer.state = some .refused

/-- The completion of a refused submit. -/
def refusalCompletion (now : ℚ) (answer : PlaceAnswer) : CompleteArgs :=
  if isTerminalRefusal answer then { outcome := .success, now := now }
  else
    { outcome :=
        if isNonFailureDeferral (some (refusalReason answer)) then .deferred else .failure
      now := now
      failureReason := some (refusalReason answer)
      submissionState := some (answer.state.getD .unknown) }

/-- The order in the answer, when it carries an ID. -/
def acceptedOrder (answer : PlaceAnswer) : Option OrderPayload :=
  match answer.order with
  | .ok (some payload) => if payload.orderId.isSome then some payload else none
  | _ => none

/-- After the call: keep an accepted order, look a lost one up, or record the refusal. -/
def settle (S : Setup) (now : ℚ) (st : Stats) (r d : Record) (provider : Option String)
    (answer : PlaceAnswer) : Worker Stats :=
  match acceptedOrder answer with
  | some order => do
      let _ ← completeSection S d (acceptedCompletion now order provider)
      pure { st with succeeded := st.succeeded + 1 }
  | none => do
      let state ← reconcileClientOrder S r.symbol r.clientOrderId provider
      match state with
      | .found order => do
          let _ ← completeSection S d (acceptedCompletion now order provider)
          pure { st with succeeded := st.succeeded + 1, reconciled := st.reconciled + 1 }
      | _ => do
          let _ ← completeSection S d (refusalCompletion now answer)
          pure (if isTerminalRefusal answer then
              { st with terminalFailed := st.terminalFailed + 1 }
            else st)

/-- `mkt.place` for a record, with the shared state at that moment in the log. -/
def placeOrder (S : Setup) (d : Record) (call : PlaceCall) : Worker PlaceAnswer := do
  interleave S
  fun w =>
    .ok (S.mkt.place w.log.length call)
      { w with log := .place w.log.length d call w.shared :: w.log }

def placeCall (cfg : Config) (r d : Record) (price : ℚ) (provider : Option String) : PlaceCall where
  symbol := r.symbol
  side := d.side
  price := price
  qty := d.qty
  kwargs := r.placeKwargs
  retryRequestedPrice := r.requestedPrice
  retryPriceTolerance := cfg.priceTol
  providerName := provider

/-- Mark the claim possibly submitted, submit, and settle the answer. -/
def dispatch (S : Setup) (now : ℚ) (st : Stats) (r : Record) (price : ℚ)
    (provider : Option String) : Worker Stats := do
  let marked ← beginSection S r now
  match marked with
  | none => pure { st with quarantined := st.quarantined + 1 }
  | some d => do
      let answer ← placeOrder S d (placeCall S.cfg r d price provider)
      settle S now { st with attempted := st.attempted + 1 } r d provider answer

/-- The price gate before a dispatch. -/
def submitAtPrice (S : Setup) (now : ℚ) (st : Stats) (r : Record) (provider : Option String) :
    Worker Stats := do
  let answer ← ask S (fun n => S.mkt.getCurrentPrice n r.symbol) (.price r.symbol)
  match answer with
  | .ok (some price) =>
      if priceGateOk S.cfg r (some price) then dispatch S now st r price provider
      else do
        let _ ← completeSection S r { outcome := .release, now := now }
        pure { st with skippedPrice := st.skippedPrice + 1 }
  | _ => do
      let _ ← completeSection S r { outcome := .release, now := now }
      pure st

/-- A possibly submitted intent goes on only after a confirmed absence. -/
def retryPending (S : Setup) (now : ℚ) (st : Stats) (r : Record) (provider : Option String) :
    Worker Stats :=
  if submissionRequiresReconciliation r then do
    let state ← reconcileClientOrder S r.symbol r.clientOrderId provider
    match state with
    | .found order => do
        let _ ← completeSection S r (acceptedCompletion now order provider)
        pure { st with succeeded := st.succeeded + 1, reconciled := st.reconciled + 1 }
    | .notFound => do
        let reliable ← notFoundIsReliable S r now provider
        if reliable then submitAtPrice S now st r provider
        else do
          let _ ← completeSection S r { outcome := .release, now := now }
          pure { st with quarantined := st.quarantined + 1 }
    | .unavailable => do
        let _ ← completeSection S r { outcome := .release, now := now }
        pure { st with quarantined := st.quarantined + 1 }
  else submitAtPrice S now st r provider

def advanceClaimed (S : Setup) (now : ℚ) (st : Stats) (r : Record) : Worker Stats := do
  let provider ← providerName S r
  match r.lifecycle with
  | .awaitingCancel => reconcileReplacement S now st r provider
  | .accepted => observeAccepted S now st r provider
  | .submitPending => retryPending S now st r provider

/-! ## The pass -/

/-- Advance each due outbox record by at most one step. -/
def processOnce (S : Setup) (now : ℚ) : Worker Stats := do
  let snapshot ← loadSection S
  let sorted ← classifyAll S now snapshot
  let expired ← discardSection S sorted.expired now
  let claimed ← claimSection S sorted.claimIds now
  let st ← sorted.live.foldlM (recoverLive S now)
    { expired := expired.length, quarantined := sorted.quarantined }
  let st ← claimed.foldlM (advanceClaimed S now) st
  let remaining ← locked S (fun sh => .ok (sh.queue.length, sh))
  pure { st with remaining := remaining }

end TradingFleet.Outbox
