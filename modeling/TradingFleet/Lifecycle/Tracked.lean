import Mathlib.Algebra.Order.Ring.Rat
import Mathlib.Data.List.TakeWhile
import Mathlib.Tactic.NormNum
import TradingFleet.Basic.Text

set_option autoImplicit false

/-! # The tracked order lifecycle

`TrackedOrderLifecycle` of `order_retry.py` with `capture_submission` of
`providers/strategy_executor.py`. The caller injects the persistence of the pending intent, the
venue and the clock, so the programs below are written over any state `σ` and any such
environment (`Env`). A call of the venue may answer or raise; `Stop.crash` is the end of the
process, which no handler catches.

The intent is a record, with one optional field for each key a call may add. `μ` is whatever
the strategy attaches to it. Numbers are exact rationals.
-/

namespace TradingFleet.Lifecycle

open TradingFleet.Text

/-! ## Values -/

inductive Side where
  | buy
  | sell
deriving DecidableEq, Repr

/-- The exception classes the handlers tell apart. `refused` is `SubmissionRefused`, a
`ProviderError` and a `RuntimeError` at once. -/
inductive ExcKind where
  | provider
  | refused
  | runtime
  | value
  | other
deriving DecidableEq, Repr

structure Exc where
  kind : ExcKind
  name : String
  text : String
deriving DecidableEq, Repr

/-- `f"{exc.__class__.__name__}: {exc}"`. -/
def Exc.render (e : Exc) : String := e.name ++ ": " ++ e.text

def valueError (text : String) : Exc := ⟨.value, "ValueError", text⟩

/-- Why a program did not return. -/
inductive Stop where
  | crash
  | raised (e : Exc)
deriving DecidableEq, Repr

inductive Status where
  | opened
  | closed
  | canceled
  | expired
deriving DecidableEq, Repr

def Status.terminal : Status → Bool
  | .opened => false
  | .closed => true
  | .canceled => true
  | .expired => true

/-- `OrderStatus`, with what `__post_init__` checks. A fee may be negative. -/
structure OrderStatus where
  status : Status
  filledQty : ℚ
  cost : ℚ
  fee : ℚ
  venueStatus : String := ""
  filledQty_nonneg : 0 ≤ filledQty
  cost_nonneg : 0 ≤ cost
  venueStatus_upper : upper venueStatus = venueStatus := by decide
deriving DecidableEq

theorem OrderStatus.nothing_nonneg : (0 : ℚ) ≤ 0 := le_refl 0

/-- The value of `terminal_status`. -/
structure TerminalPayload where
  status : Status
  venueStatus : String
  filledQty : ℚ
  cost : ℚ
  fee : ℚ
  observedAt : ℚ
deriving DecidableEq

def terminalPayload (status : OrderStatus) (observedAt : ℚ) : TerminalPayload where
  status := status.status
  venueStatus := status.venueStatus
  filledQty := status.filledQty
  cost := status.cost
  fee := status.fee
  observedAt := observedAt

/-- A payload counts only if it still makes a terminal status. -/
def statusFromTerminalPayload : Option TerminalPayload → Option OrderStatus
  | none => none
  | some p =>
      if h : 0 ≤ p.filledQty ∧ 0 ≤ p.cost then
        if p.status.terminal then
          some ⟨p.status, p.filledQty, p.cost, p.fee, upper p.venueStatus, h.1, h.2, upper_upper _⟩
        else none
      else none

/-- A terminal status survives the round trip through its payload. -/
theorem statusFromTerminalPayload_terminalPayload {status : OrderStatus} (observedAt : ℚ)
    (h : status.status.terminal = true) :
    statusFromTerminalPayload (some (terminalPayload status observedAt)) = some status := by
  have hnonneg : 0 ≤ (terminalPayload status observedAt).filledQty ∧
      0 ≤ (terminalPayload status observedAt).cost :=
    ⟨status.filledQty_nonneg, status.cost_nonneg⟩
  have hterminal : (terminalPayload status observedAt).status.terminal = true := h
  have hupper : upper (terminalPayload status observedAt).venueStatus = status.venueStatus :=
    status.venueStatus_upper
  simp only [statusFromTerminalPayload, dif_pos hnonneg, if_pos hterminal, hupper]
  rfl

/-- What `float` makes of a raw value: nothing when it raises or is not finite. -/
abbrev Raw := Option ℚ

/-- `_lifecycle_finite(raw, positive=True)`. -/
def Raw.positive (raw : Raw) : Option ℚ := raw.filter (fun value => 0 < value)

/-! ## Native responses -/

def blank (s : String) : Bool := strip s = ""

theorem blank_of_prefix {c : Char} {l : List Char} (s : String) (hs : s.toList = c :: l)
    (hc : isSpace c = false) : blank s = false := by
  unfold blank strip stripChars
  rw [hs, List.dropWhile_cons_of_neg (by simp [hc]), List.reverse_cons, decide_eq_false_iff_not]
  intro h
  have hnil := congrArg String.toList h
  rw [String.toList_ofList] at hnil
  have hall : (l.reverse ++ [c]).dropWhile isSpace = [] := by simpa using hnil
  rw [List.dropWhile_eq_nil_iff] at hall
  have hwhite := hall c (by simp)
  rw [hc] at hwhite
  cases hwhite

/-- A float of a venue response: what `str` makes of it, and whether it is zero. -/
structure Decimal where
  text : String
  zero : Bool
  nonblank : blank text = false
deriving DecidableEq, Repr

/-- A scalar of a venue response. -/
inductive Scalar where
  | nothing
  | flag (b : Bool)
  | number (n : Int)
  | decimal (d : Decimal)
  | text (s : String)
deriving DecidableEq, Repr

def Scalar.truthy : Scalar → Bool
  | .nothing => false
  | .flag b => b
  | .number n => n ≠ 0
  | .decimal d => !d.zero
  | .text s => s ≠ ""

/-- `str(value)`. -/
def Scalar.str : Scalar → String
  | .nothing => "None"
  | .flag true => "True"
  | .flag false => "False"
  | .number n => toString n
  | .decimal d => d.text
  | .text s => s

def singleQuote : Char := Char.ofNat 39
def doubleQuote : Char := Char.ofNat 34
def backslash : Char := Char.ofNat 92

/-- One character of `repr(text)` between the quotes `quote`. -/
def escapeChar (quote c : Char) : List Char :=
  if c = quote || c = backslash then [backslash, c]
  else if c.toNat = 10 then [backslash, 'n']
  else if c.toNat = 13 then [backslash, 'r']
  else if c.toNat = 9 then [backslash, 't']
  else if c.toNat < 32 || c.toNat = 127 then
    [backslash, 'x', Nat.digitChar (c.toNat / 16), Nat.digitChar (c.toNat % 16)]
  else [c]

/-- `repr(text)`: double quotes only around a text with a single quote and no double one. -/
def quoted (s : String) : String :=
  let quote :=
    if s.toList.contains singleQuote && !s.toList.contains doubleQuote then doubleQuote
    else singleQuote
  String.ofList (quote :: s.toList.flatMap (escapeChar quote) ++ [quote])

/-- `repr(value)`. -/
def Scalar.repr : Scalar → String
  | .text s => quoted s
  | value => value.str

/-- A value of a venue response. -/
inductive Val where
  | scalar (value : Scalar)
  | items (l : List Scalar)
deriving DecidableEq, Repr

namespace Val

@[match_pattern] abbrev nothing : Val := .scalar .nothing
@[match_pattern] abbrev flag (b : Bool) : Val := .scalar (.flag b)
@[match_pattern] abbrev number (n : Int) : Val := .scalar (.number n)
@[match_pattern] abbrev text (s : String) : Val := .scalar (.text s)

end Val

def Val.truthy : Val → Bool
  | .scalar value => value.truthy
  | .items l => l ≠ []

/-- `str(value)`. -/
def Val.str : Val → String
  | .scalar value => value.str
  | .items l => "[" ++ String.intercalate ", " (l.map Scalar.repr) ++ "]"

/-- A response that is a dictionary. An outer `none` is a missing key. -/
structure NativeRecord where
  orderId : Option Val := none
  order_id : Option Val := none
  id : Option Val := none
  txid : Option Val := none
  status : Option String := none
  origQty : Option Raw := none
  qty : Option Raw := none
  price : Option Raw := none
deriving DecidableEq

inductive Native where
  | value (v : Val)
  | record (r : NativeRecord)
deriving DecidableEq

def Native.missing : Native := .value .nothing

inductive SubmissionState where
  | accepted
  | refused
  | unknown
deriving DecidableEq, Repr

structure SubmissionOutcome where
  state : SubmissionState
  orderId : Option String := none
  reason : String := ""
  native : Native := .missing
deriving DecidableEq

/-- What a submit callback may return. -/
inductive Response where
  | outcome (o : SubmissionOutcome)
  | native (n : Native)
deriving DecidableEq

/-- The first of the four keys that holds a true value, or else the last. -/
def NativeRecord.anyId (r : NativeRecord) : Val :=
  let first := r.orderId.getD .nothing
  let second := r.order_id.getD .nothing
  let third := r.id.getD .nothing
  if first.truthy then first
  else if second.truthy then second
  else if third.truthy then third
  else r.txid.getD .nothing

/-- The keys `_order_fields` may return. -/
structure OrderFields where
  orderId : Option String := none
  submissionOutcome : Option SubmissionState := none
  submissionReason : Option String := none
  submitStatus : Option String := none
  submittedQty : Option ℚ := none
  submittedPrice : Option ℚ := none
deriving DecidableEq

/-- `fields.update(other)`. -/
def OrderFields.update (fields other : OrderFields) : OrderFields where
  orderId := other.orderId <|> fields.orderId
  submissionOutcome := other.submissionOutcome <|> fields.submissionOutcome
  submissionReason := other.submissionReason <|> fields.submissionReason
  submitStatus := other.submitStatus <|> fields.submitStatus
  submittedQty := other.submittedQty <|> fields.submittedQty
  submittedPrice := other.submittedPrice <|> fields.submittedPrice

/-- `_order_fields` of a native response. -/
def orderFields : Native → OrderFields
  | .record r =>
      { orderId := if r.anyId = .nothing then none else some r.anyId.str
        submitStatus := r.status
        submittedQty := Raw.positive ((r.origQty.getD (r.qty.getD none)))
        submittedPrice := Raw.positive (r.price.getD none) }
  | .value (.text s) => if blank s then {} else { orderId := some s }
  | .value (.number n) => { orderId := some (toString n) }
  | .value _ => {}

/-- `_order_fields` of a typed outcome. -/
def outcomeFields (o : SubmissionOutcome) : OrderFields :=
  let fields : OrderFields :=
    { submissionOutcome := some o.state
      orderId := if truthy o.orderId then o.orderId else none
      submissionReason := if o.reason = "" then none else some o.reason }
  if o.native = .missing then fields else fields.update (orderFields o.native)

/-- The first item that is not blank. -/
def Val.firstItem : Val → Val
  | .items l => .scalar ((l.find? (fun item => !blank item.str)).getD .nothing)
  | v => v

/-- `extract_order_id`. -/
def extractOrderId (native : Native) : Option String :=
  let raw : Val := match native with
    | .record r => match (r.orderId <|> r.order_id <|> r.id).getD .nothing with
        | .nothing => r.txid.getD .nothing
        | v => v
    | .value (.flag _) => .nothing
    | .value v => v
  match raw.firstItem with
  | .nothing => none
  | v => if blank v.str then none else some v.str

def captureSubmission : Except Exc Response → SubmissionOutcome
  | .error e =>
      if e.kind = .refused then { state := .refused, reason := strip e.text }
      else { state := .unknown, reason := strip e.render }
  | .ok (.outcome o) => o
  | .ok (.native n) => match extractOrderId n with
      | none => { state := .unknown, reason := "response_without_order_id", native := n }
      | some orderId => { state := .accepted, orderId := some (strip orderId), native := n }

/-! ## The pending intent -/

structure Pending (μ : Type) where
  intentId : String
  clientOrderId : String
  symbol : String
  side : Side
  kind : Option String
  requestedQty : ℚ
  requestedPrice : Option ℚ
  attempt : Int
  createdAt : ℚ
  lookupMisses : Int
  metadata : μ
  orderId : Option String := none
  submissionOutcome : Option SubmissionState := none
  submissionReason : Option String := none
  refusalReason : Option String := none
  submitStatus : Option String := none
  submitError : Option String := none
  submittedQty : Option ℚ := none
  submittedPrice : Option ℚ := none
  lookupError : Option String := none
  statusError : Option String := none
  lastStatus : Option Status := none
  filledQty : Option ℚ := none
  terminalStatus : Option TerminalPayload := none
  cancelAttemptedAt : Option ℚ := none
  cancelError : Option String := none
deriving DecidableEq

variable {μ σ : Type}

/-- `pending.update(fields)`. -/
def Pending.update (p : Pending μ) (fields : OrderFields) : Pending μ :=
  { p with
    orderId := fields.orderId <|> p.orderId
    submissionOutcome := fields.submissionOutcome <|> p.submissionOutcome
    submissionReason := fields.submissionReason <|> p.submissionReason
    submitStatus := fields.submitStatus <|> p.submitStatus
    submittedQty := fields.submittedQty <|> p.submittedQty
    submittedPrice := fields.submittedPrice <|> p.submittedPrice }

/-! The single keys that `reconcile` writes or drops. -/

def Pending.lookupFailed (p : Pending μ) (e : Exc) : Pending μ :=
  { p with lookupError := some e.render }

def Pending.missed (p : Pending μ) : Pending μ := { p with lookupMisses := p.lookupMisses + 1 }

def Pending.recovered (p : Pending μ) (fields : OrderFields) : Pending μ :=
  { p.update fields with lookupMisses := 0, lookupError := none }

def Pending.statusFailed (p : Pending μ) (e : Exc) : Pending μ :=
  { p with statusError := some e.render }

def Pending.statusRead (p : Pending μ) : Pending μ := { p with statusError := none }

def Pending.observed (p : Pending μ) (status : OrderStatus) : Pending μ :=
  { p with lastStatus := some status.status, filledQty := some status.filledQty }

def Pending.finished (p : Pending μ) (status : OrderStatus) (t : ℚ) : Pending μ :=
  { p.observed status with terminalStatus := some (terminalPayload status t) }

def Pending.cancelling (p : Pending μ) (t : ℚ) : Pending μ :=
  { p with cancelAttemptedAt := some t }

def Pending.cancelFailed (p : Pending μ) (e : Exc) : Pending μ :=
  { p with cancelError := some e.render }

def Pending.cancelAccepted (p : Pending μ) : Pending μ := { p with cancelError := none }

/-- `bool(pending.get("order_id"))`. -/
def Pending.orderKnown (p : Pending μ) : Bool := truthy p.orderId

/-- `_validate_identity`, with the message of the first check that fails. -/
def validateIdentity (p : Pending μ) : Except Exc Unit :=
  if blank p.intentId then .error (valueError "tracked intent missing intent_id")
  else if blank p.clientOrderId then .error (valueError "tracked intent missing client_order_id")
  else if blank p.symbol then .error (valueError "tracked intent missing symbol")
  else if p.requestedQty ≤ 0 then
    .error (valueError "tracked intent requested_qty must be positive")
  else if p.requestedPrice.any (fun price => price ≤ 0) then
    .error (valueError "tracked intent requested_price must be positive")
  else .ok ()

inductive Outcome where
  | active
  | terminal
  | absent
  | retryable
  | refused
deriving DecidableEq, Repr

/-- `TrackedOrderResult`. -/
structure Tracked (μ : Type) where
  outcome : Outcome
  intent : Pending μ
  status : Option OrderStatus := none

/-! ## The lifecycle -/

/-- What the constructor checks is a field. -/
structure Settings where
  missingConfirmations : Nat := 2
  retryOnLookupError : Bool := false
  maxAgeSeconds : Option ℚ := none
  missingConfirmations_pos : 0 < missingConfirmations
  maxAgeSeconds_pos : ∀ age, maxAgeSeconds = some age → 0 < age

/-- The default number of confirmations is positive. -/
theorem Settings.default_confirmations : 0 < 2 := Nat.two_pos

/-- Without a maximal age there is nothing to check. -/
theorem Settings.no_max_age : ∀ age : ℚ, none = some age → 0 < age := fun _ h => nomatch h

inductive AuditEvent where
  | submitRequested
  | submitRefused
  | submitAmbiguous
  | submitAccepted
  | orderTerminal
  | lookupError
  | lookupRetryable
  | orderMissing
  | orderRecovered
  | statusError
  | orderStatus
  | cancelRequested
  | cancelAmbiguous
  | cancelAccepted
  | postCancelStatusError
  | cancelPending
deriving DecidableEq, Repr

/-- What the owner of the lifecycle injects. -/
structure Env (μ σ : Type) where
  persist : Option (Pending μ) → EStateM Stop σ Unit
  orderByClientId : String → String → EStateM Stop σ (Except Exc Native)
  orderStatus : String → String → EStateM Stop σ (Except Exc OrderStatus)
  cancelOrder : String → String → EStateM Stop σ (Except Exc Unit)
  clock : EStateM Stop σ Raw
  audit : AuditEvent → Pending μ → EStateM Stop σ Unit

def orRaise {α : Type} : Except Exc α → EStateM Stop σ α
  | .ok a => pure a
  | .error e => throw (.raised e)

/-- `_now`. -/
def now (E : Env μ σ) : EStateM Stop σ ℚ := do
  let raw ← E.clock
  match Raw.positive raw with
  | some t => pure t
  | none => throw (.raised (valueError "tracked-order clock returned invalid time"))

structure NewIntent (μ : Type) where
  intentId : String
  clientOrderId : String
  symbol : String
  side : Side
  requestedQty : ℚ
  requestedPrice : Option ℚ := none
  kind : Option String := none
  attempt : Int := 1
  metadata : μ

/-- The record `new_intent` fills in: no key that a later call adds. -/
def NewIntent.record (a : NewIntent μ) (createdAt : ℚ) : Pending μ where
  intentId := a.intentId
  clientOrderId := a.clientOrderId
  symbol := a.symbol
  side := a.side
  kind := a.kind
  requestedQty := a.requestedQty
  requestedPrice := a.requestedPrice
  attempt := a.attempt
  createdAt := createdAt
  lookupMisses := 0
  metadata := a.metadata

def newIntent (E : Env μ σ) (a : NewIntent μ) : EStateM Stop σ (Pending μ) := do
  let t ← now E
  let intent := a.record t
  orRaise (validateIdentity intent)
  if intent.attempt ≤ 0 then
    throw (.raised (valueError "tracked intent attempt must be positive"))
  else pure intent

/-- The intent as a refused, an ambiguous and an accepted submission leave it. -/
def Pending.submitted (p : Pending μ) (outcome : SubmissionOutcome) : Pending μ :=
  let p := { p with submissionOutcome := some outcome.state }
  match outcome.state with
  | .refused =>
      { p with refusalReason := some outcome.reason, submitStatus := some "refused_before_submit" }
  | .unknown => { p with submitError := some outcome.reason }
  | .accepted => p.update (outcomeFields outcome)

/-- Persist, submit once, persist what came of it. -/
def submit (E : Env μ σ) (callback : EStateM Stop σ (Except Exc Response)) (intent : Pending μ) :
    EStateM Stop σ (Tracked μ) := do
  orRaise (validateIdentity intent)
  E.persist (some intent)
  E.audit .submitRequested intent
  let answer ← callback
  let outcome := captureSubmission answer
  let pending := intent.submitted outcome
  E.persist (some pending)
  match outcome.state with
  | .refused => do
      E.audit .submitRefused pending
      pure ⟨.refused, pending, none⟩
  | .unknown => do
      E.audit .submitAmbiguous pending
      pure ⟨.active, pending, none⟩
  | .accepted => do
      E.audit (if pending.orderKnown then .submitAccepted else .submitAmbiguous) pending
      pure ⟨.active, pending, none⟩

def persistTerminal (E : Env μ σ) (p : Pending μ) (status : OrderStatus) :
    EStateM Stop σ (Tracked μ) := do
  let t ← now E
  E.persist (some (p.finished status t))
  E.audit .orderTerminal (p.finished status t)
  pure ⟨.terminal, p.finished status t, some status⟩

/-- Persist a record and report the order as still active. -/
def reportActive (E : Env μ σ) (p : Pending μ) (event : AuditEvent)
    (status : Option OrderStatus) : EStateM Stop σ (Tracked μ) := do
  E.persist (some p)
  E.audit event p
  pure ⟨.active, p, status⟩

/-- The status read after an accepted cancel. -/
def postCancel (E : Env μ σ) (p : Pending μ) (orderId : String) (status : OrderStatus) :
    EStateM Stop σ (Tracked μ) := do
  let answer ← E.orderStatus p.symbol orderId
  match answer with
  | .error e => reportActive E (p.statusFailed e) .postCancelStatusError (some status)
  | .ok post =>
      if post.status.terminal then persistTerminal E p post
      else reportActive E (p.observed post) .cancelPending (some post)

/-- The cancel of an order that is too old, recorded before it is requested. -/
def cancelAged (E : Env μ σ) (p : Pending μ) (orderId : String) (status : OrderStatus) :
    EStateM Stop σ (Tracked μ) := do
  let t ← now E
  E.persist (some (p.cancelling t))
  E.audit .cancelRequested (p.cancelling t)
  let answer ← E.cancelOrder p.symbol orderId
  match answer with
  | .error e => reportActive E ((p.cancelling t).cancelFailed e) .cancelAmbiguous (some status)
  | .ok _ => do
      E.persist (some (p.cancelling t).cancelAccepted)
      E.audit .cancelAccepted (p.cancelling t).cancelAccepted
      postCancel E (p.cancelling t).cancelAccepted orderId status

/-- Too old, and no cancel was attempted yet. -/
def cancelDue (maxAge : Option ℚ) (p : Pending μ) (t : ℚ) : Bool :=
  match maxAge, Raw.positive (some p.createdAt) with
  | some age, some createdAt =>
      age ≤ max 0 (t - createdAt) && (Raw.positive p.cancelAttemptedAt).isNone
  | _, _ => false

/-- The clock is only read when the creation time is usable. -/
def ageClock (E : Env μ σ) (p : Pending μ) : EStateM Stop σ ℚ :=
  if (Raw.positive (some p.createdAt)).isSome then now E else pure 0

def cancelIfAged (L : Settings) (E : Env μ σ) (p : Pending μ) (orderId : String)
    (status : OrderStatus) : EStateM Stop σ (Tracked μ) := do
  let t ← ageClock E p
  if cancelDue L.maxAgeSeconds p t then cancelAged E p orderId status
  else pure ⟨.active, p, some status⟩

/-- The status of a known order, and what follows from it. -/
def readStatus (L : Settings) (E : Env μ σ) (p : Pending μ) (orderId : String) :
    EStateM Stop σ (Tracked μ) := do
  let answer ← E.orderStatus p.symbol orderId
  match answer with
  | .error e => reportActive E (p.statusFailed e) .statusError none
  | .ok status =>
      if status.status.terminal then persistTerminal E p.statusRead status
      else do
        E.persist (some (p.statusRead.observed status))
        E.audit .orderStatus (p.statusRead.observed status)
        cancelIfAged L E (p.statusRead.observed status) orderId status

/-- An intent whose order is not known is looked up by its client order ID. -/
def lookUp (L : Settings) (E : Env μ σ) (p : Pending μ) : EStateM Stop σ (Tracked μ) := do
  let answer ← E.orderByClientId p.symbol p.clientOrderId
  match answer with
  | .error e => do
      E.persist (some (p.lookupFailed e))
      E.audit .lookupError (p.lookupFailed e)
      if L.retryOnLookupError then do
        E.persist none
        E.audit .lookupRetryable (p.lookupFailed e)
        pure ⟨.retryable, p.lookupFailed e, none⟩
      else pure ⟨.active, p.lookupFailed e, none⟩
  | .ok native =>
      if truthy (orderFields native).orderId then do
        let recovered := p.recovered (orderFields native)
        E.persist (some recovered)
        E.audit .orderRecovered recovered
        readStatus L E recovered (recovered.orderId.getD "")
      else do
        E.persist (some p.missed)
        E.audit .orderMissing p.missed
        if p.missed.lookupMisses < L.missingConfirmations then pure ⟨.active, p.missed, none⟩
        else do
          E.persist none
          pure ⟨.absent, p.missed, none⟩

/-- One observation of a pending intent. A cached terminal status answers alone. -/
def reconcile (L : Settings) (E : Env μ σ) (p : Pending μ) : EStateM Stop σ (Tracked μ) := do
  orRaise (validateIdentity p)
  match statusFromTerminalPayload p.terminalStatus with
  | some status => pure ⟨.terminal, p, some status⟩
  | none =>
      if p.orderKnown then readStatus L E p (p.orderId.getD "")
      else lookUp L E p

end TradingFleet.Lifecycle
