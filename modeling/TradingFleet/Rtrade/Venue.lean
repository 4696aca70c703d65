import TradingFleet.Rtrade.Validate

set_option autoImplicit false

/-! # The live venue of a round

`_LivePairVenue` puts the orders of a coordinator at a venue. It writes the intent of an order
before it sends it, under the slot of the order, and an intent that was written is looked up before
the slot is used again. Every call of other code is numbered and may answer, raise or be the last
one before the process stops; other bots write the same store in between. -/

namespace TradingFleet.Rtrade

open TradingFleet.Buckets TradingFleet.Lifecycle TradingFleet.Text

/-! ## The surroundings -/

inductive Event where
  /-- an order was handed to the provider, and what came of it -/
  | submitted (pairId : String) (side : Pair.Side) (kind : String) (outcome : SubmissionState)
  /-- the round is written as over -/
  | finished (pairId : String)
deriving DecidableEq

/-- What `mkt.place` returns, and the state and reason of the outcome channel. -/
structure PlaceReply where
  response : Native
  context : Option (SubmissionState × String)

structure World where
  pairs : Pairs
  calls : Nat := 0
  /-- newest first -/
  log : List Event := []
  /-- `_recovery_blocked_pairs` -/
  blocked : List String := []
  /-- `_last_place_failures` -/
  failures : Pair.Side → Option String := fun _ => none
  /-- the local `retained` of a recovery -/
  retained : Option Intent := none
  /-- what the venue answered under a client ID, newest first; nothing reads it -/
  found : List (String × Native) := []

abbrev Running := EStateM Stop World

/-- A text that does not read as a refusal before the submit. -/
def plainStatus (native : Native) : Bool :=
  lower ((orderFields native).submitStatus.getD "") ≠ "refused_before_submit"

/-- The numbered answers of everything around the venue. An outer error is not caught. That a
status of the venue is no mark of rtrade's own is a property of the venue. -/
structure Venue where
  symbol : String
  retention : Nat
  settings : Settings
  pollSec : ℚ
  horizonSec : ℚ
  digest : String → String
  /-- the pair IDs that `uuid4` draws for this bot -/
  own : String → Bool
  wall : Nat → ℚ
  recoveryClock : Nat → Except Stop ℚ
  clock : Nat → Except Stop Raw
  audit : Nat → Except Stop Unit
  /-- what other bots write before a call -/
  others : Nat → List PairRecord
  /-- an access to the store that raises, after it wrote or before -/
  store : Nat → Option (Stop × Bool)
  currentPrice : Nat → Except Stop (Option ℚ)
  balanceCap : Nat → Except Stop (Option ℚ × Option String)
  finalQty : Nat → Except Stop ℚ
  precision : Nat → Except Stop (Option (Nat × ℚ))
  preflight : Nat → Except Stop String
  place : Nat → Except Stop (Except Exc PlaceReply)
  submitMarket : Nat → Except Stop (Except Exc SubmissionOutcome)
  orderByClientId : Nat → Except Stop (Except Exc Native)
  orderStatus : Nat → Except Stop (Except Exc OrderStatus)
  cancelOrder : Nat → Except Stop (Except Exc Unit)
  found_plain : ∀ n native, orderByClientId n = .ok (.ok native) → plainStatus native = true
  placed_plain : ∀ n reply, place n = .ok (.ok reply) → plainStatus reply.response = true

variable (V : Venue)

/-- `rtrade_client_order_id`. -/
def clientOrderId (pairId : String) (side : Pair.Side) (kind : String) : String :=
  "RT_" ++ V.digest (pairId ++ ":" ++ side.text ++ ":" ++ kind)

/-- One numbered call. -/
def ask {α : Type} (answer : Nat → Except Stop α) : Running α := fun w =>
  match answer w.calls with
  | .ok a => .ok a { w with calls := w.calls + 1 }
  | .error e => .error e { w with calls := w.calls + 1 }

/-- One numbered call about the order of a client ID. -/
def askOrder (clientOrderId : String) : Running (Except Exc Native) := fun w =>
  let w' := { w with calls := w.calls + 1 }
  match V.orderByClientId w.calls with
  | .error stop => .error stop w'
  | .ok (.error e) => .ok (.error e) w'
  | .ok (.ok native) => .ok (.ok native) { w' with found := (clientOrderId, native) :: w.found }

def raise {α : Type} (e : Exc) : Running α := throw (.raised e)

/-! ## The store -/

/-- A write of another bot: a round of its own, with distinct keys as every object has. -/
def foreign (pairs : Pairs) (r : PairRecord) : Pairs :=
  if V.own r.pairId || !decide ((r.intents.map Prod.fst).Nodup) then pairs
  else written V.retention (insert pairs r.pairId r)

def World.meanwhile (w : World) : World :=
  { w with pairs := (V.others w.calls).foldl (foreign V) w.pairs, calls := w.calls + 1 }

/-- `_read`, under the lock. -/
def readPairs : Running Pairs := fun w =>
  match V.store w.calls with
  | some (stop, _) => .error stop (w.meanwhile V)
  | none =>
      match validate (w.meanwhile V).pairs with
      | .error e => .error (.raised e) (w.meanwhile V)
      | .ok _ => .ok (w.meanwhile V).pairs (w.meanwhile V)

/-- What `mutate` writes, or nothing. -/
def changeOf (op : StoreOp) (now : ℚ) (pairs : Pairs) : Except Exc (Option Pairs) := do
  validate pairs
  match ← op now pairs with
  | none => .ok none
  | some d => do
      validate (pruneTerminal V.retention d)
      .ok (some (written V.retention d))

/-- The file after an operation: what it wrote, and the rounds that are over with it. -/
def World.install (w : World) (ended : List String) : Option Pairs → World
  | none => w
  | some pairs => { w with pairs := pairs, log := ended.map Event.finished ++ w.log }

/-- `mutate`, with an operation that ends these rounds. -/
def mutateEnding (ended : List String) (op : StoreOp) : Running Unit := fun w =>
  let w₁ := w.meanwhile V
  -- the lock, the read and the write may raise; a crash after the write leaves the new file
  match V.store w.calls, changeOf V op (V.wall w.calls) w₁.pairs with
  | some (stop, false), _ => .error stop w₁
  | _, .error e => .error (.raised e) w₁
  | none, .ok d => .ok () (w₁.install ended d)
  | some (stop, true), .ok d => .error stop (w₁.install ended d)

/-- `mutate`. -/
def mutate (op : StoreOp) : Running Unit := mutateEnding V [] op

/-- `_pair_record`. -/
def pairRecord (pairId : String) : Running (Option PairRecord) := do
  let pairs ← readPairs V
  pure ((activeRounds V.symbol pairs).find? (fun r => r.pairId = pairId))

/-- `_set_pair_recovery_blocked`. -/
def setBlocked (pairId : String) (blocked : Bool) : Running Unit :=
  modify (fun w =>
    { w with
      blocked :=
        if pairId = "" then w.blocked
        else if blocked then pairId :: w.blocked.filter (· ≠ pairId)
        else w.blocked.filter (· ≠ pairId) })

def setFailure (side : Pair.Side) (reason : Option String) : Running Unit :=
  modify (fun w => { w with failures := Function.update w.failures side reason })

/-! ## Intents -/

/-- `_intent_id`. -/
def intentId (pairId : String) (side : Pair.Side) (kind : String) : String :=
  "rtrade:" ++ pairId ++ ":" ++ kind ++ ":" ++ side.lowerText

/-- `value or fallback` for a number. -/
def orNumber (value fallback : ℚ) : ℚ := if value = 0 then fallback else value

/-- `_canonical_intent`. -/
def canonicalIntent (record : PairRecord) (now : ℚ) : Stored → Intent
  | .written i =>
      { intentId := intentId record.pairId i.side i.kind
        clientOrderId := i.clientOrderId
        symbol := record.symbol
        side := legSide i.side
        kind := some i.kind
        requestedQty := i.qty
        requestedPrice := some i.price
        attempt := 1
        createdAt := orNumber record.createdTs now
        lookupMisses := 0
        metadata := { pairId := some record.pairId }
        orderId := i.orderId }
  | .tracked p =>
      { p with
        intentId :=
          if p.intentId = "" then intentId record.pairId (pairSide p.side) (orElse p.kind "limit")
          else p.intentId
        symbol := if p.symbol = "" then record.symbol else p.symbol
        kind := some (orElse p.kind "limit")
        attempt := if p.attempt = 0 then 1 else p.attempt
        createdAt := orNumber p.createdAt (orNumber record.createdTs now)
        metadata := { p.metadata with pairId := some (orElse p.metadata.pairId record.pairId) } }

/-- `str(pending.get("kind") or "limit")`. -/
def Stored.kind : Stored → String
  | .written i => i.kind
  | .tracked p => orElse p.kind "limit"

/-- The revision that an intent kind carries. -/
def kindRevision (kind : String) : Option Pair.Revision :=
  Pair.intentRevision kind "limit" <|> Pair.intentRevision kind "hard_stop"

/-- A price of a ticket, or the live one. -/
def ticketPrice (p : Intent) : Running ℚ := do
  let price := orNumber (p.submittedPrice.getD 0) (p.requestedPrice.getD 0)
  if price ≤ 0 then do
    let live ← ask V.currentPrice
    pure (live.getD 0)
  else pure price

def makeTicket (r : Pair.TicketRecord) : Running Pair.OrderTicket :=
  match r.ticket with
  | .ok t => pure t
  | .error text => raise (valueError text)

/-- The ticket of an intent whose order is known. -/
def pendingTicket (p : Intent) (pairId orderId : String) : Running Pair.OrderTicket := do
  let price ← ticketPrice V p
  makeTicket
    { orderId := orderId
      side := pairSide p.side
      price := price
      qty := orNumber (p.submittedQty.getD 0) p.requestedQty
      active := true
      pairId := some pairId
      revision := ((kindRevision (p.kind.getD "")).map (fun r => (r.val : Int))).getD 0 }

/-- `_ticket_from_pending`; the list of known tickets is left out. -/
def ticketFromPending (p : Intent) (pairId : String) : Running (Option Pair.OrderTicket) :=
  match p.orderId.filter (· ≠ "") with
  | none => pure none
  | some orderId => do
      let t ← pendingTicket V p pairId orderId
      pure (some t)

def pairStatus : Status → Pair.OrderStatus
  | .opened => .opened
  | .closed => .closed
  | .canceled => .canceled
  | .expired => .expired

/-- `PairOrderSnapshot(…)`; a negative fee is refused. -/
def makeSnapshot (status : OrderStatus) : Running Pair.OrderSnapshot :=
  if h : 0 ≤ status.fee then
    pure
      { status := pairStatus status.status
        filledQty := status.filledQty
        cost := status.cost
        fee := status.fee
        filledQty_nonneg := status.filledQty_nonneg
        cost_nonneg := status.cost_nonneg
        fee_nonneg := h }
  else raise (valueError "invalid rtrade financial snapshot")

/-! ## Recovery -/

/-- Where a recovery stands before it asks the venue. -/
inductive Due where
  | exhausted
  | manual
  | early
  | due
deriving DecidableEq

def recoveryDue (p : Intent) (now : ℚ) : Due :=
  if truthy p.orderId then .due
  else if p.metadata.startedAt.any (fun t => V.horizonSec ≤ max 0 (now - t)) then .exhausted
  else if p.metadata.state.isSome then .manual
  else if p.metadata.nextAt.any (fun t => now < t) then .early
  else .due

/-- `persist_raw`. -/
def persistRaw (pairId : String) (side : Pair.Side) (kind : String) (value : Option Intent) :
    Running Unit :=
  mutate V (persistIntent V.symbol pairId side kind value)

/-- The intent that is kept in place of one that the lifecycle gives up. -/
def Pending.absent (p : Intent) (now pollSec : ℚ) : Intent :=
  { p with
    metadata := { p.metadata with
      state := some .absenceConfirmed
      absenceConfirmedAt := some now
      lastLookupAt := some now
      nextAt := some (now + pollSec) } }

/-- The marks of a recovery on an intent that the lifecycle writes. -/
def Pending.marked (p : Intent) (now pollSec : ℚ) : Intent :=
  if truthy p.orderId then
    { p with
      lookupError := none
      metadata := { p.metadata with
        state := none, startedAt := none, lastLookupAt := none, nextAt := none,
        absenceConfirmedAt := none, horizonExhaustedAt := none } }
  else if p.lookupError.isSome || 0 < p.lookupMisses then
    { p with
      metadata := { p.metadata with
        startedAt := p.metadata.startedAt <|> some now
        lastLookupAt := some now
        nextAt := some (now + pollSec) } }
  else p

/-- `retained` after a write of the lifecycle. -/
def retainedAfter (now : ℚ) (w : World) : Option Intent → Option Intent
  | none => w.retained.map (fun p => Pending.absent p now V.pollSec)
  | some p => some (Pending.marked p now V.pollSec)

/-- The callback `persist` of a recovery: it never removes the intent. -/
def persistRecovered (pairId : String) (side : Pair.Side) (kind : String) (now : ℚ)
    (value : Option Intent) : Running Unit := do
  let w ← get
  modify (fun s => { s with retained := retainedAfter V now w value })
  persistRaw V pairId side kind (retainedAfter V now w value)

/-- What the lifecycle is given. -/
def lifecycleEnv (persist : Option Intent → Running Unit) : Env Recovery World where
  persist := persist
  orderByClientId _ clientOrderId := askOrder V clientOrderId
  orderStatus _ _ := ask V.orderStatus
  cancelOrder _ _ := ask V.cancelOrder
  clock := ask V.clock
  audit _ _ := ask V.audit

/-- A recovery that is not over raises `_IntentRecoveryPending`, with this message. -/
abbrev Recovered := Except String (Pair.OrderTicket × Pair.OrderSnapshot)

/-- `recover_intent`. -/
def recoverIntent (record : PairRecord) (stored : Stored) : Running Recovered := do
  let w ← get
  let pending := canonicalIntent record (V.wall w.calls) stored
  let side := stored.side
  let kind := stored.kind
  let slot := slotKey kind side
  let persist := persistRaw V record.pairId side kind
  let now ← ask V.recoveryClock
  if now ≤ 0 then raise (valueError "rtrade recovery clock returned invalid time")
  else
    match recoveryDue V pending now with
    | .exhausted => do
        persist (some { pending with metadata := { pending.metadata with
          state := some .horizonExhausted, horizonExhaustedAt := some now } })
        pure (.error (slot ++ " recovery horizon is exhausted"))
    | .manual => do
        persist (some pending)
        pure (.error (slot ++ " requires manual reconciliation"))
    | .early => pure (.error (slot ++ " reconciliation is not due yet"))
    | .due => do
        modify (fun w => { w with retained := some pending })
        persist (some pending)
        let result ← reconcile V.settings
          (lifecycleEnv V (persistRecovered V record.pairId side kind now)) pending
        -- a client ID is not used again, even if the venue says there is no such order
        if result.outcome = .absent then
          pure (.error (slot ++ " absence is confirmed; client-ID reuse is blocked"))
        else
          match result.intent.orderId.filter (· ≠ ""), result.status with
          | none, _ =>
              pure (.error (slot ++ " intent is ambiguous; lookup/status is unavailable"))
          | some _, none =>
              pure (.error ("intent " ++ slot ++ " has an order_id but no available status"))
          | some orderId, some status => do
              let ticket ← pendingTicket V result.intent record.pairId orderId
              let snapshot ← makeSnapshot status
              pure (.ok (ticket, snapshot))

inductive Existing where
  | nothing
  | safeRefusal
  | pending
  | recovered (ticket : Pair.OrderTicket)

/-- `_reconcile_existing_intent`. -/
def reconcileExisting (pairId : String) (side : Pair.Side) (kind : String) : Running Existing := do
  match ← pairRecord V pairId with
  | none => pure .nothing
  | some record =>
      match record.intents.lookup (slotKey kind side) with
      | none => pure .nothing
      | some stored =>
          if stored.refusal then do
            persistRaw V pairId side kind none
            pure .safeRefusal
          else do
            match ← recoverIntent V record stored with
            | .error _ => do
                setBlocked pairId true
                pure .pending
            | .ok (ticket, _) => do
                setBlocked pairId false
                pure (.recovered ticket)

/-- `recover_pair_intents`: one recovery for each intent of a round. -/
def recoverOne (record : PairRecord)
    (acc : List (Pair.OrderTicket × Pair.OrderSnapshot × String) × Bool) (stored : Stored) :
    Running (List (Pair.OrderTicket × Pair.OrderSnapshot × String) × Bool) := do
  if stored.refusal then do
    persistRaw V record.pairId stored.side stored.kind none
    pure acc
  else do
    match ← recoverIntent V record stored with
    | .error _ => pure (acc.1, true)
    | .ok (ticket, snapshot) => pure (acc.1 ++ [(ticket, snapshot, stored.kind)], acc.2)

def recoverPairIntents (pairId : String) :
    Running (List (Pair.OrderTicket × Pair.OrderSnapshot × String)) := do
  match ← pairRecord V pairId with
  | none => do
      setBlocked pairId true
      raise ⟨.runtime, "_IntentRecoveryPending",
        "pair=" ++ pairId ++ ": persisted recovery record is unavailable"⟩
  | some record => do
      let acc ← (record.intents.map Prod.snd).foldlM (recoverOne V record) ([], false)
      setBlocked pairId acc.2
      pure acc.1

/-! ## Merging -/

/-- The local variables of `merge_checkpoint_intents`. -/
structure Merge where
  checkpoint : Pair.Checkpoint
  represented : List String
  recoveryPending : Bool := false
  pendingHardStop : Bool := false

/-- A revision of a stored checkpoint. -/
def checkRevision (text : String) (revision : Int) : Running Unit :=
  if 0 ≤ revision ∧ revision ≤ Pair.maxLimitRevision then pure ()
  else raise (valueError ("invalid " ++ text ++ " revision: " ++ toString revision))

/-- The revisions that the kind of an intent proves. -/
def Merge.advance (m : Merge) (side : Pair.Side) (kind : String) : Merge :=
  let limits : Pair.Side → Int :=
    match Pair.intentRevision kind "limit" with
    | none => m.checkpoint.limitRevisions
    | some r => Function.update m.checkpoint.limitRevisions side
        (max (m.checkpoint.limitRevisions side) r.val)
  let stop : Int :=
    match Pair.intentRevision kind "hard_stop" with
    | none => m.checkpoint.hardStopRevision
    | some r => max m.checkpoint.hardStopRevision r.val
  { m with checkpoint := { m.checkpoint with limitRevisions := limits, hardStopRevision := stop } }

/-- Set the revision of the first ticket of an order. -/
def setTicketRevision (orderId : String) (revision : Int) :
    List Pair.TicketRecord → List Pair.TicketRecord
  | [] => []
  | t :: tickets =>
      if t.orderId = orderId then { t with revision := revision } :: tickets
      else t :: setTicketRevision orderId revision tickets

/-- The ticket of an intent whose order the checkpoint has. -/
def reviseTicket (kind orderId : String) (tickets : List Pair.TicketRecord) :
    List Pair.TicketRecord :=
  match kindRevision kind with
  | none => tickets
  | some r => setTicketRevision orderId r.val tickets

/-- An intent whose order the checkpoint has. -/
def Merge.represent (m : Merge) (kind orderId : String) : Merge :=
  let checkpoint :=
    { m.checkpoint with tickets := reviseTicket kind orderId m.checkpoint.tickets }
  if (Pair.intentRevision kind "hard_stop").isSome then
    { m with checkpoint := { checkpoint with stopOrderId := some orderId, phase := .stopping } }
  else { m with checkpoint := checkpoint }

/-- An intent that is still in recovery. -/
def Merge.wait (m : Merge) (kind message : String) : Merge :=
  { m with
    recoveryPending := true
    pendingHardStop := m.pendingHardStop || (Pair.intentRevision kind "hard_stop").isSome
    checkpoint := { m.checkpoint with reason := some ("intent_recovery_pending:" ++ message) } }

/-- A recovered order. -/
def Merge.adopt (m : Merge) (kind : String) (ticket : Pair.OrderTicket)
    (snapshot : Pair.OrderSnapshot) : Merge :=
  let known := m.represented.contains ticket.orderId
  let row : Pair.TicketRecord := { ticket.record with active := !snapshot.status.terminal }
  let checkpoint :=
    { m.checkpoint with
      tickets := if known then m.checkpoint.tickets else m.checkpoint.tickets ++ [row]
      snapshots := Function.update m.checkpoint.snapshots ticket.orderId (some snapshot) }
  let represented := if known then m.represented else ticket.orderId :: m.represented
  if (Pair.intentRevision kind "hard_stop").isSome then
    { m with
      represented := represented
      checkpoint := { checkpoint with
        stopOrderId := some ticket.orderId
        phase := .stopping
        hardStopReason := some (orElse checkpoint.hardStopReason "inventory_hard_stop") } }
  else { m with represented := represented, checkpoint := checkpoint }

def mergeOne (record : PairRecord) (m : Merge) (stored : Stored) : Running Merge := do
  let m := m.advance stored.side stored.kind
  if stored.refusal then do
    persistRaw V record.pairId stored.side stored.kind none
    pure m
  else
    match stored.orderId.filter (fun id => m.represented.contains id) with
    | some orderId => pure (m.represent stored.kind orderId)
    | none => do
        match ← recoverIntent V record stored with
        | .error message => pure (m.wait stored.kind message)
        | .ok (ticket, snapshot) => pure (m.adopt stored.kind ticket snapshot)

/-- The phase of a merge that is not complete. -/
def Merge.saved (m : Merge) : Saved where
  checkpoint :=
    if m.recoveryPending then
      { m.checkpoint with
        phase := if m.pendingHardStop then .hardStopRecovery else .startupRecovery }
    else m.checkpoint
  recoveryPending := m.recoveryPending

/-- `merge_checkpoint_intents`. -/
def mergeCheckpointIntents (record : PairRecord) (state : Pair.Checkpoint) : Running Saved := do
  checkRevision "BUY limit" (state.limitRevisions .buy)
  checkRevision "SELL limit" (state.limitRevisions .sell)
  checkRevision "hard-stop" state.hardStopRevision
  let m ← (record.intents.map Prod.snd).foldlM (mergeOne V record)
    { checkpoint := state, represented := state.tickets.map Pair.TicketRecord.orderId }
  setBlocked record.pairId m.recoveryPending
  pure m.saved

/-! ## Orders -/

/-- `_limit_kind`. -/
def limitKind (revision : Int) : Running String :=
  if 0 ≤ revision ∧ revision ≤ Pair.maxLimitRevision then
    pure (if revision = 0 then "limit" else "limit_" ++ toString revision)
  else raise (valueError "limit revision must be between 0 and 1000000")

/-- `propagate_submission_refusal`. -/
def propagateSubmissionRefusal (reply : PlaceReply) : Except Exc Response :=
  match reply.context with
  | some (.refused, reason) =>
      if reply.response = .missing then
        .error ⟨.refused, "SubmissionRefused",
          strip (if reason = "" then "pre_submit_refused" else reason)⟩
      else .ok (.native reply.response)
  | _ => .ok (.native reply.response)

def placeAnswer : Except Exc PlaceReply → Except Exc Response
  | .error e => .error e
  | .ok reply => propagateSubmissionRefusal reply

/-- `submit_once`, with its entry in the log. -/
def submitOnce (pairId : String) (side : Pair.Side) (kind : String) :
    Running (Except Exc Response) := fun w =>
  let entry (outcome : SubmissionState) : World :=
    { w with
      calls := w.calls + 1
      log := .submitted pairId side kind outcome :: w.log }
  match V.place w.calls with
  | .error stop => .error stop (entry .unknown)
  | .ok reply => .ok (placeAnswer reply) (entry (captureSubmission (placeAnswer reply)).state)

/-- `_submit_limit_intent`. -/
def submitLimitIntent (side : Pair.Side) (price qty : ℚ) (pairId kind : String) (revision : Int) :
    Running (Option Pair.OrderTicket × Intent) := do
  let env := lifecycleEnv V (persistRaw V pairId side kind)
  let intent ← newIntent env
    { intentId := intentId pairId side kind
      clientOrderId := clientOrderId V pairId side kind
      symbol := V.symbol
      side := legSide side
      requestedQty := qty
      requestedPrice := some price
      kind := some kind
      metadata := { pairId := some pairId, limitRevision := some revision } }
  let result ← submit env (submitOnce V pairId side kind) intent
  let ticket ← ticketFromPending V result.intent pairId
  pure (ticket, result.intent)

def recoveryPendingReason (side : Pair.Side) : String := side.lowerText ++ "_recovery_pending"

/-- `place_limit` in a slot that is not in use. -/
def placeFresh (side : Pair.Side) (price qty : ℚ) (pairId kind : String) (revision : Int) :
    Running (Option Pair.OrderTicket) := do
  let (available, asset) ← ask V.balanceCap
  if truthy asset && available.any (fun qty => qty ≤ 1 / 1000000000000) then do
    setFailure side (some (side.lowerText ++ "_insufficient_funds:" ++ asset.getD ""))
    pure none
  else do
    let (ticket, pending) ← submitLimitIntent V side price qty pairId kind revision
    match ticket with
    | some ticket => do
        setBlocked pairId false
        pure (some ticket)
    | none =>
        if truthy pending.refusalReason then pure none
        else do
          setBlocked pairId true
          setFailure side (some (recoveryPendingReason side))
          pure none

/-- What a slot in use answers, or a new order. -/
def unlessInUse (side : Pair.Side) (fresh : Running (Option Pair.OrderTicket)) :
    Existing → Running (Option Pair.OrderTicket)
  | .recovered ticket => pure (some ticket)
  | .pending => do
      setFailure side (some (recoveryPendingReason side))
      pure none
  | .nothing => fresh
  | .safeRefusal => fresh

/-- `place_limit`. -/
def placeLimit (side : Pair.Side) (price qty : ℚ) (pairId : String) (revision : Int) :
    Running (Option Pair.OrderTicket) := do
  let kind ← limitKind revision
  setFailure side none
  let existing ← reconcileExisting V pairId side kind
  unlessInUse side (placeFresh V side price qty pairId kind revision) existing

/-- `Decimal(…).quantize(…, rounding=ROUND_DOWN)` of a positive quantity. -/
def roundDown (qty : ℚ) (decimals : Nat) : ℚ := ⌊qty * 10 ^ decimals⌋ / 10 ^ decimals

/-- The quantity of a market exit; `none` when nothing is left to sell. -/
def marketQty : Running (Option ℚ) := do
  let qty ← ask V.finalQty
  if qty ≤ 0 then pure none
  else do
    match ← ask V.precision with
    | none => pure (some qty)
    | some (decimals, orderMin) =>
        let qty := roundDown qty decimals
        pure (if qty ≤ 0 ∨ qty < orderMin then none else some qty)

/-- The submission of a market exit, with its entry in the log. -/
def submitMarketOnce (pairId : String) (side : Pair.Side) (kind : String) :
    Running (Except Exc SubmissionOutcome) := fun w =>
  let entry (outcome : SubmissionState) : World :=
    { w with
      calls := w.calls + 1
      log := .submitted pairId side kind outcome :: w.log }
  match V.submitMarket w.calls with
  | .error stop => .error stop (entry .unknown)
  | .ok (.error e) => .ok (.error e) (entry (if e.kind = .refused then .refused else .unknown))
  | .ok (.ok outcome) => .ok (.ok outcome) (entry outcome.state)

/-- What `submit_order_with_intent` raises or returns. -/
def marketAnswer : Except Exc SubmissionOutcome → Except Exc String
  | .error e => .error e
  | .ok outcome =>
      match outcome.state with
      | .refused => .error ⟨.refused, "SubmissionRefused", outcome.reason⟩
      | .unknown =>
          .error ⟨.provider, "ProviderError",
            if outcome.reason = "" then "submission outcome is unknown" else outcome.reason⟩
      | .accepted => .ok (outcome.orderId.getD "None")

/-- The intent that the store has in a slot. -/
def storedIntent (pairId : String) (side : Pair.Side) (kind : String) :
    Running (Option (PairRecord × Stored)) := do
  match ← pairRecord V pairId with
  | none => pure none
  | some record =>
      pure ((record.intents.lookup (slotKey kind side)).map (fun stored => (record, stored)))

/-- Write an outcome on the intent of a slot. -/
def noteIntent (pairId : String) (side : Pair.Side) (kind : String) (change : Intent → Intent) :
    Running Unit := do
  match ← storedIntent V pairId side kind with
  | none => pure ()
  | some (record, stored) => do
      let w ← get
      persistRaw V pairId side kind (some (change (canonicalIntent record (V.wall w.calls) stored)))

def hardStopKind (revision : Int) : Running String :=
  if 0 ≤ revision ∧ revision ≤ Pair.maxLimitRevision then
    pure (if revision = 0 then "hard_stop" else "hard_stop_" ++ toString revision)
  else raise (valueError "hard-stop revision must be between 0 and 1000000")

/-- The intent of a refused market exit: one that replaced an order is kept, with a mark. -/
def noteRefusal (pairId : String) (side : Pair.Side) (kind : String) (replacement : Bool)
    (e : Exc) : Running Unit :=
  if replacement then
    noteIntent V pairId side kind (fun p =>
      { p with
        submissionOutcome := some .refused
        submitStatus := some "refused_before_submit"
        refusalReason := some e.text })
  else persistRaw V pairId side kind none

/-- What a market exit does with the answer of its submission. -/
def settleMarket (side : Pair.Side) (price qty : ℚ) (pairId kind : String) (revision : Int)
    (replacement : Bool) : Except Exc String → Running (Option Pair.OrderTicket)
  | .error e =>
      if e.kind = .refused then do
        noteRefusal V pairId side kind replacement e
        raise e
      else if e.kind = .provider then do
        noteIntent V pairId side kind (fun p =>
          { p with submissionOutcome := some .unknown, submitError := some e.render })
        setBlocked pairId true
        setFailure side (some (recoveryPendingReason side))
        pure none
      else raise e
  | .ok orderId =>
      if blank orderId then do
        setBlocked pairId true
        setFailure side (some (recoveryPendingReason side))
        pure none
      else do
        let ticket ← makeTicket
          { orderId := orderId, side := side, price := price, qty := qty, active := true,
            pairId := some pairId, revision := revision }
        mutate V (storeAccepted pairId side orderId kind)
        setBlocked pairId false
        pure (some ticket)

/-- The intent of a market exit, and its order. -/
def exitSend (side : Pair.Side) (price qty : ℚ) (pairId kind : String)
    (cachePermit : Option String) (revision : Int) : Running (Option Pair.OrderTicket) := do
  mutate V (storeIntent V.symbol pairId side price qty (clientOrderId V pairId side kind) kind)
  let answer ← submitMarketOnce V pairId side kind
  settleMarket V side price qty pairId kind revision cachePermit.isSome (marketAnswer answer)

/-- `place_market_exit` in a slot that is not in use. -/
def exitFresh (side : Pair.Side) (pairId kind : String) (cachePermit : Option String)
    (revision : Int) : Running (Option Pair.OrderTicket) := do
  let live ← ask V.currentPrice
  if live.getD 0 ≤ 0 then pure none
  else do
    match ← marketQty V with
    | none => pure none
    | some qty =>
        if cachePermit.isNone then do
          let _ ← ask V.preflight
          exitSend V side (live.getD 0) qty pairId kind cachePermit revision
        else exitSend V side (live.getD 0) qty pairId kind cachePermit revision

/-- `place_market_exit`, for a round. -/
def placeMarketExit (side : Pair.Side) (pairId : String) (cachePermit : Option String)
    (revision : Int) : Running (Option Pair.OrderTicket) := do
  let kind ← hardStopKind revision
  setFailure side none
  let existing ← reconcileExisting V pairId side kind
  unlessInUse side (exitFresh V side pairId kind cachePermit revision) existing

/-! ## Checkpoints and the start of a bot -/

/-- `checkpoint_many`. -/
def checkpointMany (checkpoints : List (String × Saved × Bool)) : Running Unit :=
  if checkpoints = [] then pure ()
  else
    mutateEnding V ((checkpoints.filter (fun x => x.2.2)).map Prod.fst)
      (storeCheckpoints checkpoints)

/-- The checkpoint of a round that was never written. -/
def PairRecord.fresh (record : PairRecord) (now : ℚ) : Pair.Checkpoint where
  pairId := record.pairId
  qty := record.qty
  startSide := record.startSide
  phase := .quoting
  reason := some "recovered_by_client_order_id"
  shock := false
  elapsedSec := max 0 (now - orNumber record.createdTs now)
  firstFillElapsedSec := none
  firstFillSide := none
  stopOrderId := none
  limitRevisions := fun _ => 0
  hardStopRevision := 0
  hardStopReason := none
  tickets := []
  snapshots := fun _ => none

/-- A round at the start of a bot: its checkpoint if it is adopted, `none` if it is closed. -/
def adoptRound (record : PairRecord) : Running (Option Saved) := do
  let w ← get
  let state := (record.state.map Saved.checkpoint).getD (record.fresh (V.wall w.calls))
  let merged ← mergeCheckpointIntents V record state
  if merged.checkpoint.tickets = [] ∧ merged.checkpoint.phase ≠ .startupRecovery ∧
      merged.checkpoint.phase ≠ .hardStopRecovery then do
    let closed : Saved :=
      { merged with checkpoint := { merged.checkpoint with
          phase := .failed, reason := some "recovery_intent_not_submitted" } }
    mutateEnding V [record.pairId] (storeCheckpoint record.pairId closed true)
    pure none
  else do
    mutate V (storeCheckpoint record.pairId merged false)
    pure (some merged)

/-- The adoption of the active round of that ID. -/
def adopt (pairId : String) : Running (Option Saved) := do
  match ← pairRecord V pairId with
  | none => pure none
  | some record => adoptRound V record

end TradingFleet.Rtrade
