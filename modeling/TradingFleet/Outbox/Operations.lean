import TradingFleet.Basic.Keyed
import TradingFleet.Outbox.Record

set_option autoImplicit false

/-! # Operations of the order outbox

Each operation of `order_retry.py` runs under the queue file lock: it reads the whole queue,
decides, and replaces the file. Here it is a function from the queue before to its result
and the queue after. `uuid.uuid4()`, `os.getpid()`, the process start identity and the
clock enter as arguments. An operation that raises is an `Except.error` and changes nothing.
-/

namespace TradingFleet.Outbox

open TradingFleet.Text TradingFleet.Keyed

/-- `_client_order_id`: the stable ID of one queued intent revision. -/
def clientOrderIdFor (recordId : String) (revision : Nat) : String :=
  "OR_" ++ firstChars recordId 24 ++ "_" ++ toString revision

/-! ## Enqueue -/

structure EnqueueArgs where
  symbol : String
  side : String
  qty : ℚ
  placeKwargs : Kwargs := []
  requestedPrice : Option ℚ := none
  refPrice : Option ℚ := none
  now : ℚ
  createdTs : Option ℚ := none
  attempts : Int := 0
  lastAttemptTs : ℚ := 0
  failureReason : Option String := none
  providerName : Option String := none
  intentId : Option String := none
  kind : Option String := none
  lifecycle : Lifecycle := .submitPending
  replacesOrderId : Option String := none
  replacesOriginalQty : Option ℚ := none
  producerLease : Option ℚ := none

/-- What a call reads from `uuid4` and from its own process. `startIdentity` is `none` when
`_process_start_identity` cannot be read. -/
structure CallContext where
  recordId : String
  token : String
  pid : Nat
  startIdentity : Option String

inductive Enqueued where
  | refused
  | recordId (id : String)
  | claimed (snapshot : Record)
deriving DecidableEq, Repr

/-- The lifecycle arguments are consistent: a replacement names the order it waits for and
that order's quantity; an accepted record is never enqueued. -/
def lifecycleArgsOk (a : EnqueueArgs) : Bool :=
  match a.lifecycle with
  | .submitPending => true
  | .accepted => false
  | .awaitingCancel =>
      nonblank a.replacesOrderId &&
        (match a.replacesOriginalQty with
          | none => false
          | some q => decide (0 < q))

/-- A lease without exact process identity makes a live producer indistinguishable from a
crashed one, so it is refused. -/
def leaseArgsOk (a : EnqueueArgs) (ctx : CallContext) : Bool :=
  match a.producerLease with
  | none => true
  | some lease =>
      a.lifecycle = .submitPending && decide (0 < lease) && ctx.startIdentity.isSome

def numbersOk (a : EnqueueArgs) : Bool :=
  decide (0 < a.qty) && decide (0 < a.now) && decide (0 < a.createdTs.getD a.now) &&
    decide (0 ≤ a.attempts)

/-- The guards of `enqueue` before the queue is read; the side when they all pass. -/
def enqueueSide (cfg : Config) (a : EnqueueArgs) (ctx : CallContext) : Option Side :=
  if cfg.retryEnabled && lifecycleArgsOk a && leaseArgsOk a ctx && numbersOk a &&
      a.symbol ≠ "" then
    Side.parse a.side
  else none

/-- The record a new intent is stored as. A producer lease owns this exact revision before
it becomes visible. -/
def newRecord (a : EnqueueArgs) (ctx : CallContext) (side : Side) : Record :=
  let base : Record :=
    { id := ctx.recordId
      intentId := orElse a.intentId ("outbox-" ++ ctx.recordId)
      providerName := a.providerName
      symbol := a.symbol
      side := side
      kind := a.kind
      qty := a.qty
      requestedQtyTotal := a.qty
      deliveredQty := 0
      placeKwargs := a.placeKwargs.setdefault "client_order_id" (clientOrderIdFor ctx.recordId 0)
      requestedPrice := a.requestedPrice
      refPrice := a.refPrice
      createdTs := a.createdTs.getD a.now
      attempts := a.attempts.toNat
      lastAttemptTs := a.lastAttemptTs
      lastFailureReason := a.failureReason
      ttlStartedTs := a.createdTs.getD a.now
      revision := 0
      lifecycle := a.lifecycle
      replacesOrderId := if a.lifecycle = .awaitingCancel then a.replacesOrderId else none
      replacesOriginalQty :=
        if a.lifecycle = .awaitingCancel then a.replacesOriginalQty else none }
  let marked :=
    setSafeToDiscard base
      (base.lifecycle = .submitPending && isNonFailureDeferral base.lastFailureReason)
  match a.producerLease with
  | none => marked
  | some lease =>
      { marked with
        claimToken := some ctx.token
        claimUntil := some (a.now + lease)
        claimRevision := some 0
        submissionState := some .producerClaimed
        producerPid := some ctx.pid
        producerProcessStartId := ctx.startIdentity }

/-- An `awaiting_cancel` record for the same replaced order is retained as it is. -/
def isAwaitingDuplicate (a : EnqueueArgs) (side : Side) (item : Record) : Bool :=
  a.lifecycle = .awaitingCancel && item.lifecycle = .awaitingCancel &&
    lower (item.providerName.getD "") = lower (a.providerName.getD "") &&
    item.symbol = a.symbol && item.side = side &&
    item.replacesOrderId.getD "" = a.replacesOrderId.getD ""

/-- Older evictable deferrals of the same stream give way to the latest trend deferral. -/
def isSuperseded (a : EnqueueArgs) (fresh item : Record) : Bool :=
  a.lifecycle = .submitPending && a.failureReason = some "trend_deferred" &&
    safeToEvictForCapacity item && sameDeferredStream item fresh

/-- The record a configured deduplication refreshes instead of adding one. -/
def isDedupTarget (cfg : Config) (a : EnqueueArgs) (side : Side) (e : Record) : Bool :=
  cfg.dedup && a.lifecycle = .submitPending && a.producerLease.isNone &&
    safeToEvictForCapacity e && e.symbol = a.symbol && e.side = side &&
    e.lifecycle = .submitPending

/-- Refresh one symbol/side target while preserving age and attempts. -/
def dedupRefresh (a : EnqueueArgs) (e : Record) : Record :=
  let revision := e.revision + 1
  let ttlReset :=
    isNonFailureDeferral e.lastFailureReason && !isNonFailureDeferral a.failureReason
  let refreshed : Record :=
    { e with
      requestedPrice := a.requestedPrice
      refPrice := a.refPrice
      qty := a.qty
      requestedQtyTotal := a.qty
      placeKwargs :=
        a.placeKwargs.setdefault "client_order_id" (clientOrderIdFor e.id revision)
      createdTs := min e.createdTs (a.createdTs.getD a.now)
      attempts := max e.attempts a.attempts.toNat
      lastAttemptTs := max e.lastAttemptTs a.lastAttemptTs
      ttlStartedTs := if ttlReset then a.now else e.ttlStartedTs
      lastFailureReason := a.failureReason
      providerName := a.providerName
      intentId := orElse a.intentId (orElse (some e.intentId) ("outbox-" ++ e.id))
      kind := a.kind
      lifecycle := .submitPending
      orderId := none }
  { setSafeToDiscard refreshed (isNonFailureDeferral refreshed.lastFailureReason) with
    revision := revision }

/-- The disposable records with their positions, trend deferrals only when there are any. -/
def evictionCandidates (existing : Queue) : List (Record × Nat) :=
  let pending := existing.zipIdx.filter (fun p => safeToEvictForCapacity p.1)
  let deferred := pending.filter (fun p => p.1.lastFailureReason = some "trend_deferred")
  if deferred = [] then pending else deferred

/-- The oldest candidates, as many as have to go. -/
def evictionVictims (existing : Queue) (removeCount : Nat) : List (Record × Nat) :=
  ((evictionCandidates existing).insertionSort
    (fun p p' => p.1.createdTs ≤ p'.1.createdTs)).take removeCount

/-- Evict the oldest disposable records until one more fits; `none` when too few records are
disposable. -/
def makeRoom (cfg : Config) (existing : Queue) : Option Queue :=
  if 0 < cfg.maxQueue ∧ cfg.maxQueue ≤ existing.length then
    let removeCount := existing.length - cfg.maxQueue + 1
    let positions := (evictionVictims existing removeCount).map (·.2)
    if positions.length < removeCount then none
    else some ((existing.zipIdx.filter (fun p => !positions.contains p.2)).map (·.1))
  else some existing

/-- Persist a submission or a pre-cancel replacement. -/
def enqueue (cfg : Config) (a : EnqueueArgs) (ctx : CallContext) (q : Queue) :
    Enqueued × Queue :=
  match enqueueSide cfg a ctx with
  | none => (.refused, q)
  | some side =>
      let fresh := newRecord a ctx side
      match q.find? (isAwaitingDuplicate a side) with
      | some item => (.recordId item.id, q)
      | none =>
          let existing := q.filter (fun item => !isSuperseded a fresh item)
          match existing.find? (isDedupTarget cfg a side) with
          | some e =>
              (.recordId e.id, updateFirst (isDedupTarget cfg a side) (dedupRefresh a) existing)
          | none =>
              match makeRoom cfg existing with
              | none => (.refused, q)
              | some room =>
                  (if a.producerLease.isSome then .claimed fresh else .recordId fresh.id,
                    room ++ [fresh])

/-- Persist and lease one unique producer-owned submission. The lease covers a whole retry
interval. -/
def enqueueClaimed (cfg : Config) (a : EnqueueArgs) (leaseSec : Option ℚ) (ctx : CallContext)
    (q : Queue) : Enqueued × Queue :=
  let lease := leaseSec.getD (cfg.intervalSec + cfg.claimLeaseSec)
  if lease ≤ cfg.intervalSec then (.refused, q)
  else
    enqueue cfg
      { a with lifecycle := .submitPending, replacesOrderId := none, replacesOriginalQty := none,
               producerLease := some lease }
      ctx q

/-! ## Leases -/

/-- A record `claim` may lease: it is asked for and no lease is running. -/
def claimable (ids : List String) (now : ℚ) (r : Record) : Bool :=
  ids.contains r.id && !decide (now < r.claimUntil.getD 0)

def claimRecord (now lease : ℚ) (token : String) (r : Record) : Record :=
  { r with
    placeKwargs := r.placeKwargs.setdefault "client_order_id" (clientOrderIdFor r.id r.revision)
    claimToken := some token
    claimUntil := some (now + lease)
    claimRevision := some r.revision }

/-- Lease entries without removing them. -/
def claim (ids : List String) (now lease : ℚ) (token : String) (q : Queue) :
    Except String (List Record × Queue) :=
  if ids = [] then .ok ([], q)
  else if lease ≤ 0 then .error "claim lease must be finite and positive"
  else
    .ok ((q.filter (claimable ids now)).map (claimRecord now lease token),
      q.map (fun r => if claimable ids now r then claimRecord now lease token r else r))

/-- `int(value)` of an optional key with a default. -/
def intOr (value : Option Nat) (default : Int) : Int :=
  match value with
  | some n => n
  | none => default

/-- The token, revision and client order ID of the snapshot are those of the record. The
two defaults differ, so a record without a lease never matches. -/
def exactClaim (snap r : Record) : Bool :=
  r.id = snap.id && r.claimToken = snap.claimToken &&
    (r.revision : Int) = intOr snap.claimRevision (-1) &&
    intOr r.claimRevision (-1) = intOr snap.claimRevision (-2) &&
    r.clientOrderId = snap.clientOrderId

def beginRecord (now lease : ℚ) (pid : Nat) (start : String) (r : Record) : Record :=
  { setSafeToDiscard r false with
    producerPid := some pid
    producerProcessStartId := some start
    submissionState := some .producerClaimed
    claimUntil := some (max (r.claimUntil.getD 0) (now + lease)) }

/-- Durably mark one exact claimed revision possibly submitted. `none` means the caller must
not submit. -/
def beginClaimedSubmit (snap : Record) (now lease : ℚ) (pid : Nat)
    (startIdentity : Option String) (q : Queue) : Option Record × Queue :=
  match startIdentity with
  | none => (none, q)
  | some start =>
      if now ≤ 0 ∨ lease ≤ 0 ∨ truthy snap.clientOrderId = false then (none, q)
      else
        match q.find? (exactClaim snap) with
        | none => (none, q)
        | some r =>
            (some (beginRecord now lease pid start r),
              updateFirst (exactClaim snap) (beginRecord now lease pid start) q)

/-! ## Acceptance and failure -/

/-- The text of an optional status field, as `str(getattr(status, name, "") or "")`. -/
def statusText (status : Option OrderStatus) : String :=
  match status with
  | none => ""
  | some st => st.status.text

def statusVenueText (status : Option OrderStatus) : String :=
  match status with
  | none => ""
  | some st => st.venueStatus

def statusFilled (status : Option OrderStatus) : ℚ :=
  match status with
  | none => 0
  | some st => st.filledQty

/-- Retain a bounded audit trail when one logical intent has several orders. -/
def appendOrderHistory (r : Record) (observedAt : ℚ) (status : Option OrderStatus) : Record :=
  match r.orderId with
  | none => r
  | some orderId =>
      if orderId = "" then r
      else
        let row : HistoryRow :=
          { orderId := orderId
            clientOrderId := r.clientOrderId
            revision := r.revision
            observedAt := observedAt
            status := status.map (fun st =>
              { status := st.status.text, venueStatus := st.venueStatus,
                filledQty := st.filledQty, cost := st.cost, fee := st.fee }) }
        let history :=
          match r.orderHistory.getLast? with
          | some last =>
              if last.orderId = row.orderId then
                r.orderHistory.dropLast ++ [{ row with status := row.status <|> last.status }]
              else r.orderHistory ++ [row]
          | none => [row]
        { r with orderHistory := history.drop (history.length - 20) }

/-- Move a record to durable accepted tracking; `none` when the response has no order ID. -/
def applyAccepted (r : Record) (order : Option OrderPayload) (now : ℚ)
    (providerName : Option String) : Option Record :=
  match order.bind (·.orderId) with
  | none => none
  | some orderId =>
      let safe := setSafeToDiscard r false
      some (appendOrderHistory
        { safe with
          orderId := some orderId
          lifecycle := .accepted
          acceptedTs := some now
          lastStatusTs := some 0
          lastFailureReason := none
          submissionState := some .accepted
          providerName := providerName <|> r.providerName
          submitStatus := (order.bind (·.status)) <|> r.submitStatus }
        now none)

/-- The record a `record_id` call addresses: same ID, and the same client order ID when one
is given. -/
def addresses (recordId : String) (clientOrderId : Option String) (r : Record) : Bool :=
  r.id = recordId && (clientOrderId.isNone || r.clientOrderId = clientOrderId)

def markAccepted (recordId : String) (order : Option OrderPayload) (now : ℚ)
    (clientOrderId providerName : Option String) (q : Queue) : Bool × Queue :=
  if recordId = "" then (false, q)
  else
    match q.find? (addresses recordId clientOrderId) with
    | none => (false, q)
    | some r =>
        match applyAccepted r order now providerName with
        | none => (false, q)
        | some _ =>
            (true, updateFirst (addresses recordId clientOrderId)
              (fun r => (applyAccepted r order now providerName).getD r) q)

/-- The submission states a caller may report. -/
def reportable (state : Option SubmissionState) : Bool :=
  state = none || state = some .refused || state = some .unknown

def failRecord (failureReason : Option String) (now : ℚ) (state : Option SubmissionState)
    (r : Record) : Record :=
  let ttlReset :=
    isNonFailureDeferral r.lastFailureReason && !isNonFailureDeferral failureReason
  let annotated : Record :=
    { r with
      ttlStartedTs := if ttlReset then now else r.ttlStartedTs
      lastFailureReason := failureReason }
  match state with
  | some s => setSafeToDiscard { annotated with submissionState := some s } (s = .refused)
  | none =>
      if isNonFailureDeferral failureReason then annotated
      else setSafeToDiscard annotated false

/-- Annotate an already persisted record without changing its ID. -/
def markFailure (recordId : String) (failureReason : Option String) (now : ℚ)
    (clientOrderId : Option String) (state : Option SubmissionState) (q : Queue) :
    Except String (Bool × Queue) :=
  if recordId = "" then .ok (false, q)
  else if !reportable state then .error "invalid submission state"
  else
    match q.find? (addresses recordId clientOrderId) with
    | none => .ok (false, q)
    | some _ =>
        .ok (true, updateFirst (addresses recordId clientOrderId)
          (failRecord failureReason now state) q)

/-! ## Completing a claim -/

inductive Outcome where
  | success
  | failure
  | deferred
  | release
  | accepted
  | observed
  | statusError
  | retryTerminal
deriving DecidableEq, Repr

structure CompleteArgs where
  outcome : Outcome
  now : ℚ
  failureReason : Option String := none
  order : Option OrderPayload := none
  status : Option OrderStatus := none
  providerName : Option String := none
  submissionState : Option SubmissionState := none

/-- The record is the leased revision of the snapshot. A missing `claim_revision` reads as
revision zero here. -/
def sameClaim (claimed r : Record) : Bool :=
  r.id = claimed.id && r.claimToken = claimed.claimToken &&
    (r.revision : Int) = intOr claimed.claimRevision 0 &&
    claimed.clientOrderId.isSome && r.clientOrderId = claimed.clientOrderId

/-- `"terminal_" + venue status, else status, else unknown`, in lower case. -/
def terminalReason (status : Option OrderStatus) : String :=
  "terminal_" ++ lower
    (if statusVenueText status ≠ "" then statusVenueText status
      else match status with
        | none => "unknown"
        | some st => st.status.text)

/-- A new client-ID revision for the unfilled remainder only; `none` when nothing remains. -/
def retryTerminalRecord (status : Option OrderStatus) (now : ℚ) (r : Record) : Option Record :=
  let filled := max 0 (statusFilled status)
  let remaining := max 0 (r.qty - filled)
  let logged := appendOrderHistory r now status
  if remaining ≤ qtyTolerance r.qty then none
  else
    let revision := r.revision + 1
    some
      { setSafeToDiscard logged false with
        deliveredQty := r.deliveredQty + min r.qty filled
        revision := revision
        qty := remaining
        attempts := 0
        lastAttemptTs := now
        ttlStartedTs := now
        lastFailureReason := some (terminalReason status)
        lifecycle := .submitPending
        submissionState := some .refused
        orderId := none
        acceptedTs := none
        lastStatusTs := none
        lastStatus := none
        venueStatus := none
        submitStatus := none
        filledQty := none
        filledCost := none
        filledFee := none
        placeKwargs :=
          r.placeKwargs.set "client_order_id" (clientOrderIdFor r.id revision) }

def countAttempt (claimed r : Record) (now : ℚ) : Record :=
  { r with attempts := max r.attempts claimed.attempts + 1, lastAttemptTs := now }

/-- What an outcome does to the matching record; `none` removes it. -/
def applyOutcome (claimed : Record) (c : CompleteArgs) (r : Record) : Option Record :=
  match c.outcome with
  | .success => none
  | .release => some r
  | .accepted =>
      match applyAccepted (setSafeToDiscard r false) c.order c.now c.providerName with
      | some r' => some r'
      | none =>
          some { countAttempt claimed (setSafeToDiscard r false) c.now with
            lastFailureReason := some "response_without_order_id" }
  | .observed =>
      some { r with
        lastStatusTs := some c.now
        lastStatus := some (statusText c.status)
        venueStatus := some (statusVenueText c.status)
        filledQty := some (statusFilled c.status)
        filledCost := some (match c.status with | none => 0 | some st => st.cost)
        filledFee := some (match c.status with | none => 0 | some st => st.fee)
        statusError := none }
  | .statusError =>
      some { r with
        lastStatusTs := some c.now
        statusError := some (c.failureReason.getD "unknown") }
  | .retryTerminal => retryTerminalRecord c.status c.now r
  | .failure =>
      let ttlReset :=
        isNonFailureDeferral r.lastFailureReason && !isNonFailureDeferral c.failureReason
      some { countAttempt claimed r c.now with
        ttlStartedTs := if ttlReset then c.now else r.ttlStartedTs
        lastFailureReason := c.failureReason }
  | .deferred =>
      some { r with lastAttemptTs := c.now, lastFailureReason := some (c.failureReason.getD "None") }

def dropClaim (r : Record) : Record :=
  { r with claimToken := none, claimUntil := none, claimRevision := none }

/-- The reported submission state, then the lease, after the outcome. -/
def finishClaim (c : CompleteArgs) (r : Record) : Record :=
  dropClaim
    (match c.submissionState with
      | some s => setSafeToDiscard { r with submissionState := some s } (s = .refused)
      | none => if c.outcome = .retryTerminal then setSafeToDiscard r false else r)

/-- One record of the queue under `complete_claim`. -/
def completeRecord (claimed : Record) (c : CompleteArgs) (r : Record) : Option Record :=
  if sameClaim claimed r then (applyOutcome claimed c r).map (finishClaim c) else some r

/-- Finalize one exact leased revision without losing accepted-order tracking. -/
def completeClaim (claimed : Record) (c : CompleteArgs) (q : Queue) :
    Except String (Bool × Queue) :=
  if c.outcome = .deferred ∧ isNonFailureDeferral c.failureReason = false then
    .error "invalid non-failure deferral reason"
  else if !reportable c.submissionState then .error "invalid submission state"
  else .ok (q.any (sameClaim claimed), q.filterMap (completeRecord claimed c))

/-! ## Replacements -/

inductive Activation where
  | activated
  | resolved
deriving DecidableEq, Repr

/-- The lease a replacement is activated under; the client order ID is not compared. -/
def activationMatch (claimed r : Record) : Bool :=
  r.id = claimed.id && r.claimToken = claimed.claimToken &&
    (r.revision : Int) = intOr claimed.claimRevision (-1)

def activateRecord (qty now : ℚ) (r : Record) : Record :=
  { setSafeToDiscard
      { r with
        qty := qty
        requestedQtyTotal := qty
        lifecycle := .submitPending
        lastFailureReason := some "submit_pending"
        submissionState := some .refused }
      false with
    ttlStartedTs := now
    lastAttemptTs := 0 }

/-- Make a confirmed-cancel replacement eligible for submission, under its lease. -/
def activateClaimedReplacement (claimed : Record) (qty now : ℚ) (q : Queue) :
    Option Activation × Queue :=
  if qty < 0 then (none, q)
  else
    match q.find? (activationMatch claimed) with
    | none => (none, q)
    | some r =>
        if r.lifecycle ≠ .awaitingCancel then (none, q)
        else if r.qty + qtyTolerance r.qty < qty then (none, q)
        else if qty ≤ qtyTolerance r.qty then
          (some .resolved, q.eraseP (activationMatch claimed))
        else
          (some .activated, updateFirst (activationMatch claimed) (activateRecord qty now) q)

/-! ## Status transitions -/

inductive StatusAction where
  | observed
  | filled
  | retryTerminal
  | terminal
deriving DecidableEq, Repr

structure StatusTransition where
  action : StatusAction
  statusChanged : Bool
  remainingQty : ℚ
deriving DecidableEq, Repr

/-- Rejected and expired orders retry their remainder; other cancellations are final. -/
def outboxRetryableTerminal (st : OrderStatus) : Bool :=
  upper st.venueStatus = "REJECTED" || upper st.venueStatus = "EXPIRED" || st.status = .expired

/-- The transition one accepted record takes for a venue snapshot, and the completion it
asks for. -/
def statusTransition (claimed : Record) (st : OrderStatus) (now : ℚ) :
    StatusTransition × CompleteArgs :=
  let remaining := max 0 (claimed.qty - st.filledQty)
  if !st.terminal then
    let changed :=
      !(st.status.text = claimed.lastStatus.getD "" &&
        st.filledQty = claimed.filledQty.getD 0 &&
        st.venueStatus = claimed.venueStatus.getD "")
    (⟨.observed, changed, 0⟩, { outcome := .observed, now := now, status := some st })
  else if st.status = .closed then
    (⟨.filled, true, 0⟩, { outcome := .success, now := now, status := some st })
  else if outboxRetryableTerminal st then
    (⟨.retryTerminal, true, remaining⟩,
      { outcome := .retryTerminal, now := now, status := some st })
  else
    (⟨.terminal, true, remaining⟩, { outcome := .success, now := now, status := some st })

/-- Persist one accepted order-status transition without venue I/O. -/
def advanceClaimedStatus (claimed : Record) (st : OrderStatus) (now : ℚ) (q : Queue) :
    Except String (StatusTransition × Queue) :=
  if claimed.lifecycle ≠ .accepted then
    .error "status transition requires an accepted claimed record"
  else
    match completeClaim claimed (statusTransition claimed st now).2 q with
    | .error e => .error e
    | .ok (_, q') => .ok ((statusTransition claimed st now).1, q')

/-! ## Compaction and expiry -/

/-- Whether a record is an evictable trend deferral. -/
def isDeferredEvictable (r : Record) : Bool :=
  safeToEvictForCapacity r && r.lastFailureReason = some "trend_deferred"

/-- One record of the consolidation pass, newest first: the kept deferrals and the removed
positions so far. -/
def consolidateStep (acc : List Record × List Nat) (p : Record × Nat) : List Record × List Nat :=
  if isDeferredEvictable p.1 then
    if acc.1.any (fun newer => sameDeferredStream p.1 newer) then (acc.1, p.2 :: acc.2)
    else (acc.1 ++ [p.1], acc.2)
  else acc

/-- The records with their positions, newest first. -/
def newestFirst (q : Queue) : List (Record × Nat) :=
  q.zipIdx.insertionSort (fun p p' => p'.1.createdTs ≤ p.1.createdTs)

/-- The positions the consolidation pass removes. -/
def consolidatedPositions (q : Queue) : List Nat :=
  ((newestFirst q).foldl consolidateStep ([], [])).2

/-- Keep only the newest pending record per deferred signal stream. -/
def consolidateDeferredStreams (q : Queue) : List Record × Queue :=
  (((newestFirst q).filter (fun p => (consolidatedPositions q).contains p.2)).map (·.1),
    (q.zipIdx.filter (fun p => !(consolidatedPositions q).contains p.2)).map (·.1))

/-- The identity a snapshot is discarded under. -/
def discardKey (r : Record) : String × Nat × Option String := (r.id, r.revision, r.clientOrderId)

/-- Remove only records that remain the exact expired durable revision. A queue with an
invalid record is left untouched. -/
def discardExpired (cfg : Config) (snapshots : List Record) (now : ℚ) (q : Queue) :
    Except String (List Record × Queue) :=
  let exact := (snapshots.filter (fun s => s.id ≠ "" && truthy s.clientOrderId)).map discardKey
  if exact = [] then .ok ([], q)
  else if !q.all validRecord then .error "record failed semantic validation"
  else
    let gone := fun r : Record => exact.contains (discardKey r) && isExpired cfg r now
    .ok (q.filter gone, q.filter (fun r => !gone r))

/-- The queue, only when every durable record is semantically valid. -/
def loadValidated (q : Queue) : Except String Queue :=
  if q.all validRecord then .ok q else .error "record failed semantic validation"

end TradingFleet.Outbox
