import TradingFleet.Basic.Hoare
import TradingFleet.Lifecycle.Tracked

set_option autoImplicit false

/-! # Rules for the lifecycle programs

What `submit` and `reconcile` do to the pending intent does not depend on who stores it. `Owner`
lists what an owner has to say about its environment: an assertion `holds p` that the intent
`p` is the stored one, and what each injected call does to it. `submit_triple` and
`reconcile_triple` are then the specifications of the two programs.
-/

namespace TradingFleet.Lifecycle

open TradingFleet.Hoare TradingFleet.Text

variable {μ σ : Type}

/-! ## How an intent may change -/

/-- A cancel was attempted, as `reconcile` reads it. -/
def Pending.cancelTried (p : Pending μ) : Bool := (Raw.positive p.cancelAttemptedAt).isSome

/-- A terminal payload as `_persist_terminal` writes it. -/
def TerminalPayload.Real (t : TerminalPayload) : Prop :=
  ∃ (status : OrderStatus) (observedAt : ℚ), status.status.terminal = true ∧
    t = terminalPayload status observedAt

theorem TerminalPayload.Real.status {t : TerminalPayload} (h : t.Real) :
    ∃ status observedAt, t = terminalPayload status observedAt ∧
      statusFromTerminalPayload (some t) = some status := by
  obtain ⟨status, observedAt, hterminal, rfl⟩ := h
  exact ⟨status, observedAt, rfl, statusFromTerminalPayload_terminalPayload observedAt hterminal⟩

/-- The record `q` may be written over `p`: the instruction is the same, and a known order, an
attempted cancel and a terminal status stay. -/
structure Pending.Follows (p q : Pending μ) : Prop where
  intentId : q.intentId = p.intentId
  clientOrderId : q.clientOrderId = p.clientOrderId
  symbol : q.symbol = p.symbol
  side : q.side = p.side
  kind : q.kind = p.kind
  requestedQty : q.requestedQty = p.requestedQty
  requestedPrice : q.requestedPrice = p.requestedPrice
  attempt : q.attempt = p.attempt
  createdAt : q.createdAt = p.createdAt
  metadata : q.metadata = p.metadata
  orderId : p.orderKnown = true → q.orderId = p.orderId
  cancelled : p.cancelTried = true → q.cancelTried = true
  terminal : q.terminalStatus = p.terminalStatus ∨
    p.terminalStatus = none ∧ ∃ t : TerminalPayload, t.Real ∧ q.terminalStatus = some t

theorem Pending.Follows.refl (p : Pending μ) : p.Follows p where
  intentId := rfl
  clientOrderId := rfl
  symbol := rfl
  side := rfl
  kind := rfl
  requestedQty := rfl
  requestedPrice := rfl
  attempt := rfl
  createdAt := rfl
  metadata := rfl
  orderId := fun _ => rfl
  cancelled := fun h => h
  terminal := Or.inl rfl

theorem Pending.Follows.orderKnown {p q : Pending μ} (h : p.Follows q) (hp : p.orderKnown = true) :
    q.orderKnown = true := by
  unfold Pending.orderKnown at hp ⊢
  rw [h.orderId hp]
  exact hp

theorem Pending.Follows.trans {p q r : Pending μ} (h : p.Follows q) (h' : q.Follows r) :
    p.Follows r where
  intentId := h'.intentId.trans h.intentId
  clientOrderId := h'.clientOrderId.trans h.clientOrderId
  symbol := h'.symbol.trans h.symbol
  side := h'.side.trans h.side
  kind := h'.kind.trans h.kind
  requestedQty := h'.requestedQty.trans h.requestedQty
  requestedPrice := h'.requestedPrice.trans h.requestedPrice
  attempt := h'.attempt.trans h.attempt
  createdAt := h'.createdAt.trans h.createdAt
  metadata := h'.metadata.trans h.metadata
  orderId := fun hp => (h'.orderId (h.orderKnown hp)).trans (h.orderId hp)
  cancelled := fun hp => h'.cancelled (h.cancelled hp)
  terminal := by
    rcases h.terminal with hpq | ⟨hp, t, ht, hq⟩
    · rw [← hpq]
      exact h'.terminal
    · rcases h'.terminal with hqr | ⟨hnone, -⟩
      · exact Or.inr ⟨hp, t, ht, hqr.trans hq⟩
      · rw [hq] at hnone
        cases hnone

/-- The instruction alone decides whether an intent is valid. -/
theorem Pending.Follows.valid {p q : Pending μ} (h : p.Follows q) :
    validateIdentity q = validateIdentity p := by
  unfold validateIdentity
  rw [h.intentId, h.clientOrderId, h.symbol, h.requestedQty, h.requestedPrice]

/-- The keys that say what was asked for. -/
def Pending.instruction (p : Pending μ) :
    String × String × String × Side × Option String × ℚ × Option ℚ × Int × ℚ × μ :=
  (p.intentId, p.clientOrderId, p.symbol, p.side, p.kind, p.requestedQty, p.requestedPrice,
    p.attempt, p.createdAt, p.metadata)

/-- A write that leaves the instruction, the order, the cancel and the terminal status alone. -/
theorem Pending.Follows.note (p q : Pending μ) (hsame : q.instruction = p.instruction)
    (horder : (q.orderId, q.cancelAttemptedAt) = (p.orderId, p.cancelAttemptedAt))
    (hterminal : q.terminalStatus = p.terminalStatus) : p.Follows q := by
  simp only [Pending.instruction, Prod.mk.injEq] at hsame horder
  obtain ⟨hid, hclient, hsymbol, hside, hkind, hqty, hprice, hattempt, hat, hmeta⟩ := hsame
  refine ⟨hid, hclient, hsymbol, hside, hkind, hqty, hprice, hattempt, hat, hmeta,
    fun _ => horder.1, ?_,
    Or.inl hterminal⟩
  intro h
  unfold Pending.cancelTried at h ⊢
  rwa [horder.2]

/-- Order fields may be merged into an intent whose order is not known yet. -/
theorem Pending.Follows.update {p : Pending μ} (fields : OrderFields) (h : p.orderKnown = false) :
    p.Follows (p.update fields) where
  intentId := rfl
  clientOrderId := rfl
  symbol := rfl
  side := rfl
  kind := rfl
  requestedQty := rfl
  requestedPrice := rfl
  attempt := rfl
  createdAt := rfl
  metadata := rfl
  orderId := fun hp => by rw [h] at hp; cases hp
  cancelled := fun h => h
  terminal := Or.inl rfl

/-- Whatever a submission comes to, the record it leaves follows the intent. -/
theorem Pending.Follows.submitted {p : Pending μ} (outcome : SubmissionOutcome)
    (h : p.orderKnown = false) : p.Follows (p.submitted outcome) := by
  unfold Pending.submitted
  cases hstate : outcome.state with
  | refused => exact Pending.Follows.note _ _ rfl rfl rfl
  | unknown => exact Pending.Follows.note _ _ rfl rfl rfl
  | accepted =>
      have hnote : p.Follows { p with submissionOutcome := some .accepted } :=
        .note _ _ rfl rfl rfl
      exact hnote.trans (Pending.Follows.update (outcomeFields outcome) h)

/-! ## Owners of an intent -/

/-- What the owner of a lifecycle says about its environment. `holds false p`: the stored intent
is `p`. `holds true p`: in addition, its cancel is recorded and not yet requested. `gone p`: the
slot was cleared, `p` was the last intent in it. `stopped`: the program did not return. -/
structure Owner (E : Env μ σ) (holds : Bool → Pending μ → σ → Prop) (gone : Pending μ → σ → Prop)
    (stopped : Stop → σ → Prop) : Prop where
  persist : ∀ p q, p.Follows q → q.cancelAttemptedAt = p.cancelAttemptedAt →
    Triple (holds false p) (E.persist (some q)) (fun _ => holds false q) stopped
  attempt : ∀ (p : Pending μ) (t : ℚ), 0 < t → p.cancelTried = false → p.orderKnown = true →
    Triple (holds false p) (E.persist (some (p.cancelling t)))
      (fun _ => holds true (p.cancelling t)) stopped
  release : ∀ p, p.orderKnown = false → p.terminalStatus = none →
    Triple (holds false p) (E.persist none) (fun _ => gone p) stopped
  orderByClientId : ∀ p,
    Triple (holds false p) (E.orderByClientId p.symbol p.clientOrderId) (fun _ => holds false p)
      stopped
  orderStatus : ∀ p orderId,
    Triple (holds false p) (E.orderStatus p.symbol orderId) (fun _ => holds false p) stopped
  cancelOrder : ∀ p orderId,
    Triple (holds true p) (E.cancelOrder p.symbol orderId) (fun _ => holds false p) stopped
  clock : ∀ p, Triple (holds false p) E.clock (fun _ => holds false p) stopped
  audit : ∀ b event p q, Triple (holds b p) (E.audit event q) (fun _ => holds b p) stopped
  auditGone : ∀ event p q, Triple (gone p) (E.audit event q) (fun _ => gone p) stopped
  raised : ∀ p e s, holds false p s → stopped (.raised e) s

/-- What `reconcile` returns, for an intent `p` it was given. -/
structure Observed (holds : Bool → Pending μ → σ → Prop) (gone : Pending μ → σ → Prop)
    (p : Pending μ) (r : Tracked μ) (s : σ) : Prop where
  follows : p.Follows r.intent
  stored : r.outcome = .active ∨ r.outcome = .terminal → holds false r.intent s
  released : r.outcome = .absent ∨ r.outcome = .retryable →
    r.intent.orderKnown = false ∧ gone r.intent s
  outcome : r.outcome ≠ .refused

section Programs

variable {E : Env μ σ} {holds : Bool → Pending μ → σ → Prop} {gone : Pending μ → σ → Prop}
  {stopped : Stop → σ → Prop}

theorem Observed.mono {p q : Pending μ} {r : Tracked μ} {s : σ} (hpq : p.Follows q)
    (h : Observed holds gone q r s) : Observed holds gone p r s :=
  ⟨hpq.trans h.follows, h.stored, h.released, h.outcome⟩

theorem Observed.of_stored {p : Pending μ} {r : Tracked μ} {s : σ} (hpr : p.Follows r.intent)
    (h : holds false r.intent s) (ho : r.outcome = .active ∨ r.outcome = .terminal) :
    Observed holds gone p r s := by
  refine ⟨hpr, fun _ => h, fun hrel => ?_, ?_⟩
  · rcases ho with ho | ho <;> rw [ho] at hrel <;> rcases hrel with hrel | hrel <;> cases hrel
  · rcases ho with ho | ho <;> rw [ho] <;> decide

theorem Observed.of_gone {p : Pending μ} {r : Tracked μ} {s : σ} (hpr : p.Follows r.intent)
    (hk : r.intent.orderKnown = false) (h : gone r.intent s)
    (ho : r.outcome = .absent ∨ r.outcome = .retryable) : Observed holds gone p r s := by
  refine ⟨hpr, fun hst => ?_, fun _ => ⟨hk, h⟩, ?_⟩
  · rcases ho with ho | ho <;> rw [ho] at hst <;> rcases hst with hst | hst <;> cases hst
  · rcases ho with ho | ho <;> rw [ho] <;> decide

theorem orRaise_triple {α : Type} {P : σ → Prop} {Q : α → σ → Prop} {x : Except Exc α}
    (hok : ∀ a s, x = .ok a → P s → Q a s)
    (herr : ∀ e s, x = .error e → P s → stopped (.raised e) s) :
    Triple P (orRaise x : EStateM Stop σ α) Q stopped := by
  cases x with
  | ok a => exact fun s hs => hok a s rfl hs
  | error e => exact fun s hs => herr e s rfl hs

theorem now_triple (O : Owner E holds gone stopped) (p : Pending μ) :
    Triple (holds false p) (now E) (fun t s => 0 < t ∧ holds false p s) stopped := by
  unfold now
  refine Triple.bind (O.clock p) (fun raw => ?_)
  cases hraw : Raw.positive raw with
  | some t =>
      refine Triple.pure (fun s hs => ⟨?_, hs⟩)
      unfold Raw.positive at hraw
      simpa using (Option.filter_eq_some_iff.mp hraw).2
  | none => exact Triple.throw (fun s hs => O.raised p _ s hs)

theorem reportActive_triple (O : Owner E holds gone stopped) {p q : Pending μ} (hpq : p.Follows q)
    (hcancel : q.cancelAttemptedAt = p.cancelAttemptedAt) (event : AuditEvent)
    (status : Option OrderStatus) :
    Triple (holds false p) (reportActive E q event status) (Observed holds gone p) stopped := by
  unfold reportActive
  refine Triple.bind (O.persist p q hpq hcancel) (fun _ => ?_)
  refine Triple.bind (O.audit false event q q) (fun _ => ?_)
  exact Triple.pure (fun s hs => Observed.of_stored hpq hs (Or.inl rfl))

/-- The terminal write may follow any record `p` that the stored one became in memory. -/
theorem persistTerminal_triple (O : Owner E holds gone stopped) {p q : Pending μ}
    (hpq : p.Follows q) (hcancel : q.cancelAttemptedAt = p.cancelAttemptedAt)
    (hp : p.terminalStatus = none) {status : OrderStatus} (hstatus : status.status.terminal = true) :
    Triple (holds false p) (persistTerminal E q status) (Observed holds gone p) stopped := by
  unfold persistTerminal
  refine Triple.bind (now_triple O p) (fun t => ?_)
  have hfinished : p.Follows (q.finished status t) :=
    { hpq with terminal := Or.inr ⟨hp, terminalPayload status t, ⟨status, t, hstatus, rfl⟩, rfl⟩ }
  refine Triple.bind ((O.persist p _ hfinished hcancel).strengthen (fun s hs => hs.2))
    (fun _ => ?_)
  refine Triple.bind (O.audit false .orderTerminal _ _) (fun _ => ?_)
  exact Triple.pure (fun s hs => Observed.of_stored hfinished hs (Or.inr rfl))

theorem postCancel_triple (O : Owner E holds gone stopped) (p : Pending μ) (orderId : String)
    (status : OrderStatus) (hp : p.terminalStatus = none) :
    Triple (holds false p) (postCancel E p orderId status) (Observed holds gone p) stopped := by
  unfold postCancel
  refine Triple.bind (O.orderStatus p orderId) (fun answer => ?_)
  cases answer with
  | error e => exact reportActive_triple O (.note p (p.statusFailed e) rfl rfl rfl) rfl _ _
  | ok post =>
      by_cases hpost : post.status.terminal = true
      · simp only [hpost, if_true]
        exact persistTerminal_triple O (.refl p) rfl hp hpost
      · simp only [hpost, Bool.false_eq_true, if_false]
        exact reportActive_triple O (.note p (p.observed post) rfl rfl rfl) rfl _ _

theorem cancelAged_triple (O : Owner E holds gone stopped) (p : Pending μ) (orderId : String)
    (status : OrderStatus) (hp : p.terminalStatus = none) (htried : p.cancelTried = false)
    (hknown : p.orderKnown = true) :
    Triple (holds false p) (cancelAged E p orderId status) (Observed holds gone p) stopped := by
  unfold cancelAged
  refine Triple.bind (now_triple O p) (fun t => ?_)
  refine Triple.of_fact (fun ht => ?_)
  have hfollows : p.Follows (p.cancelling t) :=
    { Pending.Follows.refl p with cancelled := fun h => by rw [htried] at h; cases h }
  refine Triple.bind (O.attempt p t ht htried hknown) (fun _ => ?_)
  refine Triple.bind (O.audit true .cancelRequested _ _) (fun _ => ?_)
  refine Triple.bind (O.cancelOrder (p.cancelling t) orderId) (fun answer => ?_)
  cases answer with
  | error e =>
      have hnote : (p.cancelling t).Follows ((p.cancelling t).cancelFailed e) :=
        .note _ _ rfl rfl rfl
      exact (reportActive_triple O hnote rfl _ _).weaken (fun r s hr => hr.mono hfollows)
  | ok _ =>
      have hnote : (p.cancelling t).Follows (p.cancelling t).cancelAccepted := .note _ _ rfl rfl rfl
      refine Triple.bind (O.persist _ _ hnote rfl) (fun _ => ?_)
      refine Triple.bind (O.audit false .cancelAccepted _ _) (fun _ => ?_)
      exact (postCancel_triple O (p.cancelling t).cancelAccepted orderId status hp).weaken
        (fun r s hr => hr.mono (hfollows.trans hnote))

theorem cancelDue_untried {maxAge : Option ℚ} {p : Pending μ} {t : ℚ}
    (h : cancelDue maxAge p t = true) : p.cancelTried = false := by
  unfold cancelDue at h
  unfold Pending.cancelTried
  split at h
  · rw [Bool.and_eq_true] at h
    simpa using h.2
  · cases h

theorem cancelIfAged_triple (O : Owner E holds gone stopped) (L : Settings) (p : Pending μ)
    (orderId : String) (status : OrderStatus) (hp : p.terminalStatus = none)
    (hknown : p.orderKnown = true) :
    Triple (holds false p) (cancelIfAged L E p orderId status) (Observed holds gone p) stopped := by
  unfold cancelIfAged
  refine Triple.bind (Q := fun _ => holds false p) ?_ (fun t => ?_)
  · unfold ageClock
    split
    · exact (now_triple O _).weaken (fun t s hs => hs.2)
    · exact Triple.pure (fun s hs => hs)
  · by_cases hdue : cancelDue L.maxAgeSeconds p t = true
    · simp only [hdue, if_true]
      exact cancelAged_triple O p orderId status hp (cancelDue_untried hdue) hknown
    · simp only [hdue, Bool.false_eq_true, if_false]
      exact Triple.pure (fun s hs => Observed.of_stored (.refl p) hs (Or.inl rfl))

theorem readStatus_triple (O : Owner E holds gone stopped) (L : Settings) (p : Pending μ)
    (orderId : String) (hp : p.terminalStatus = none) (hknown : p.orderKnown = true) :
    Triple (holds false p) (readStatus L E p orderId) (Observed holds gone p) stopped := by
  unfold readStatus
  refine Triple.bind (O.orderStatus p orderId) (fun answer => ?_)
  cases answer with
  | error e => exact reportActive_triple O (.note p (p.statusFailed e) rfl rfl rfl) rfl _ _
  | ok status =>
      by_cases hterminal : status.status.terminal = true
      · simp only [hterminal, if_true]
        exact persistTerminal_triple O (.note p p.statusRead rfl rfl rfl) rfl hp hterminal
      · simp only [hterminal, Bool.false_eq_true, if_false]
        have hnote : p.Follows (p.statusRead.observed status) := .note _ _ rfl rfl rfl
        refine Triple.bind (O.persist _ _ hnote rfl) (fun _ => ?_)
        refine Triple.bind (O.audit false .orderStatus _ _) (fun _ => ?_)
        exact (cancelIfAged_triple O L (p.statusRead.observed status) orderId status hp hknown).weaken
          (fun r s hr => hr.mono hnote)

theorem lookUp_triple (O : Owner E holds gone stopped) (L : Settings) (p : Pending μ)
    (hp : p.terminalStatus = none) (hknown : p.orderKnown = false) :
    Triple (holds false p) (lookUp L E p) (Observed holds gone p) stopped := by
  unfold lookUp
  refine Triple.bind (O.orderByClientId p) (fun answer => ?_)
  cases answer with
  | error e =>
      have hnote : p.Follows (p.lookupFailed e) := .note _ _ rfl rfl rfl
      refine Triple.bind (O.persist _ _ hnote rfl) (fun _ => ?_)
      refine Triple.bind (O.audit false .lookupError _ _) (fun _ => ?_)
      by_cases hretry : L.retryOnLookupError = true
      · simp only [hretry, if_true]
        refine Triple.bind (O.release _ hknown hp) (fun _ => ?_)
        refine Triple.bind (O.auditGone .lookupRetryable _ _) (fun _ => ?_)
        exact Triple.pure (fun s hs => Observed.of_gone hnote hknown hs (Or.inr rfl))
      · simp only [hretry, Bool.false_eq_true, if_false]
        exact Triple.pure (fun s hs => Observed.of_stored hnote hs (Or.inl rfl))
  | ok native =>
      by_cases hfound : truthy (orderFields native).orderId = true
      · simp only [hfound, if_true]
        have hrecovered : p.Follows (p.recovered (orderFields native)) :=
          { Pending.Follows.update (orderFields native) hknown with }
        have hnow : (p.recovered (orderFields native)).orderKnown = true := by
          show truthy ((orderFields native).orderId <|> p.orderId) = true
          cases hid : (orderFields native).orderId with
          | none =>
              rw [hid] at hfound
              cases hfound
          | some id =>
              rw [hid] at hfound
              exact hfound
        refine Triple.bind (O.persist _ _ hrecovered rfl) (fun _ => ?_)
        refine Triple.bind (O.audit false .orderRecovered _ _) (fun _ => ?_)
        exact (readStatus_triple O L (p.recovered (orderFields native)) _ hp hnow).weaken
          (fun r s hr => hr.mono hrecovered)
      · simp only [hfound, Bool.false_eq_true, if_false]
        have hnote : p.Follows p.missed := .note _ _ rfl rfl rfl
        refine Triple.bind (O.persist _ _ hnote rfl) (fun _ => ?_)
        refine Triple.bind (O.audit false .orderMissing _ _) (fun _ => ?_)
        by_cases hfew : p.missed.lookupMisses < L.missingConfirmations
        · simp only [hfew, if_true]
          exact Triple.pure (fun s hs => Observed.of_stored hnote hs (Or.inl rfl))
        · simp only [hfew, if_false]
          refine Triple.bind (O.release _ hknown hp) (fun _ => ?_)
          exact Triple.pure (fun s hs => Observed.of_gone hnote hknown hs (Or.inl rfl))

/-- What a call of `reconcile` does for any owner: the intent only advances along `Follows`, it
is the stored one unless it was released, and it is released only with no known order. A
terminal payload has to make a status for this; every payload the lifecycle writes does. -/
theorem reconcile_triple (O : Owner E holds gone stopped) (L : Settings) (p : Pending μ)
    (hp : ∀ t, p.terminalStatus = some t → t.Real) :
    Triple (holds false p) (reconcile L E p) (Observed holds gone p) stopped := by
  unfold reconcile
  refine Triple.bind (Q := fun _ => holds false p) ?_ (fun _ => ?_)
  · exact orRaise_triple (fun _ s _ hs => hs) (fun e s _ hs => O.raised p e s hs)
  · cases hcached : statusFromTerminalPayload p.terminalStatus with
    | some status =>
        exact Triple.pure (fun s hs => Observed.of_stored (.refl p) hs (Or.inr rfl))
    | none =>
        have hnone : p.terminalStatus = none := by
          cases ht : p.terminalStatus with
          | none => rfl
          | some t =>
              obtain ⟨status, observedAt, -, hstatus⟩ := (hp t ht).status
              rw [ht, hstatus] at hcached
              cases hcached
        by_cases hknown : p.orderKnown = true
        · simp only [hknown, if_true]
          exact readStatus_triple O L p _ hnone hknown
        · simp only [hknown, Bool.false_eq_true, if_false]
          exact lookUp_triple O L p hnone (by simpa using hknown)

/-- What `submit` returns. -/
structure Submitted (holds : Bool → Pending μ → σ → Prop) (intent : Pending μ) (r : Tracked μ)
    (s : σ) : Prop where
  follows : intent.Follows r.intent
  stored : holds false r.intent s
  outcome : r.outcome = .active ∨ r.outcome = .refused
  refused : r.outcome = .refused → r.intent.orderKnown = false

/-- What a call of `submit` does for any owner. Between the two writes the callback runs once,
with the intent stored (`running`). -/
theorem submit_triple (O : Owner E holds gone stopped) {free running : σ → Prop}
    {intent : Pending μ} {callback : EStateM Stop σ (Except Exc Response)}
    (hnew : intent.orderKnown = false)
    (hfirst : validateIdentity intent = .ok () →
      Triple free (E.persist (some intent)) (fun _ => running) stopped)
    (haudit : Triple running (E.audit .submitRequested intent) (fun _ => running) stopped)
    (hcall : Triple running callback (fun _ => holds false intent) stopped)
    (hraise : ∀ e s, free s → stopped (.raised e) s) :
    Triple free (submit E callback intent) (Submitted holds intent) stopped := by
  unfold submit
  refine Triple.bind (Q := fun _ s => validateIdentity intent = .ok () ∧ free s) ?_ (fun _ => ?_)
  · exact orRaise_triple (fun _ s hok hs => ⟨hok, hs⟩) (fun e s _ hs => hraise e s hs)
  refine Triple.bind (Triple.of_fact hfirst) (fun _ => ?_)
  refine Triple.bind haudit (fun _ => ?_)
  refine Triple.bind hcall (fun answer => ?_)
  have hfollows := Pending.Follows.submitted (captureSubmission answer) hnew
  have hcancel : (intent.submitted (captureSubmission answer)).cancelAttemptedAt =
      intent.cancelAttemptedAt := by
    unfold Pending.submitted
    cases (captureSubmission answer).state <;> rfl
  refine Triple.bind (O.persist _ _ hfollows hcancel) (fun _ => ?_)
  cases hstate : (captureSubmission answer).state with
  | refused =>
      refine Triple.bind (O.audit false .submitRefused _ _) (fun _ => ?_)
      refine Triple.pure (fun s hs => ⟨hfollows, hs, Or.inr rfl, fun _ => ?_⟩)
      show (intent.submitted (captureSubmission answer)).orderKnown = false
      unfold Pending.submitted
      rw [hstate]
      exact hnew
  | unknown =>
      refine Triple.bind (O.audit false .submitAmbiguous _ _) (fun _ => ?_)
      exact Triple.pure (fun s hs => ⟨hfollows, hs, Or.inl rfl, nofun⟩)
  | accepted =>
      refine Triple.bind (O.audit false _ _ _) (fun _ => ?_)
      exact Triple.pure (fun s hs => ⟨hfollows, hs, Or.inl rfl, nofun⟩)

end Programs

/-! ## The terminal result -/

/-- A terminal result carries the status that its intent stores. -/
def Tracked.Settled (r : Tracked μ) : Prop :=
  r.outcome = .terminal → ∃ status, r.status = some status ∧
    statusFromTerminalPayload r.intent.terminalStatus = some status

/-- Whatever the environment does, the result satisfies `Q`. -/
def Returns {α : Type} (x : EStateM Stop σ α) (Q : α → Prop) : Prop :=
  Triple (fun _ => True) x (fun a _ => Q a) (fun _ _ => True)

section Results

variable {α β : Type} {E : Env μ σ}

theorem Returns.pure {Q : α → Prop} {a : α} (h : Q a) :
    Returns (Pure.pure a : EStateM Stop σ α) Q :=
  Triple.pure (fun _ _ => h)

/-- Only the last program of a sequence decides the result. -/
theorem Returns.bind {x : EStateM Stop σ α} {f : α → EStateM Stop σ β} {Q : β → Prop}
    (h : ∀ a, Returns (f a) Q) : Returns (x >>= f) Q := by
  refine Triple.bind (Q := fun _ _ => True) ?_ h
  intro s _
  cases x s <;> trivial

theorem Returns.active (p : Pending μ) (status : Option OrderStatus) :
    Returns (Pure.pure ⟨.active, p, status⟩ : EStateM Stop σ (Tracked μ)) Tracked.Settled :=
  Returns.pure (fun h => by cases h)

theorem reportActive_settled (p : Pending μ) (event : AuditEvent) (status : Option OrderStatus) :
    Returns (reportActive E p event status) Tracked.Settled :=
  Returns.bind (fun _ => Returns.bind (fun _ => Returns.active _ _))

theorem persistTerminal_settled (p : Pending μ) {status : OrderStatus}
    (h : status.status.terminal = true) :
    Returns (persistTerminal E p status) Tracked.Settled := by
  refine Returns.bind (fun t => Returns.bind (fun _ => Returns.bind (fun _ => Returns.pure ?_)))
  exact fun _ => ⟨status, rfl, statusFromTerminalPayload_terminalPayload t h⟩

theorem postCancel_settled (p : Pending μ) (orderId : String) (status : OrderStatus) :
    Returns (postCancel E p orderId status) Tracked.Settled := by
  refine Returns.bind (fun answer => ?_)
  cases answer with
  | error e => exact reportActive_settled _ _ _
  | ok post =>
      by_cases hpost : post.status.terminal = true
      · simp only [hpost, if_true]
        exact persistTerminal_settled p hpost
      · simp only [hpost, Bool.false_eq_true, if_false]
        exact reportActive_settled _ _ _

theorem cancelAged_settled (p : Pending μ) (orderId : String) (status : OrderStatus) :
    Returns (cancelAged E p orderId status) Tracked.Settled := by
  refine Returns.bind (fun t => Returns.bind (fun _ => Returns.bind (fun _ =>
    Returns.bind (fun answer => ?_))))
  cases answer with
  | error e => exact reportActive_settled _ _ _
  | ok _ => exact Returns.bind (fun _ => Returns.bind (fun _ => postCancel_settled _ _ _))

theorem readStatus_settled (L : Settings) (p : Pending μ) (orderId : String) :
    Returns (readStatus L E p orderId) Tracked.Settled := by
  refine Returns.bind (fun answer => ?_)
  cases answer with
  | error e => exact reportActive_settled _ _ _
  | ok status =>
      by_cases hterminal : status.status.terminal = true
      · simp only [hterminal, if_true]
        exact persistTerminal_settled _ hterminal
      · simp only [hterminal, Bool.false_eq_true, if_false]
        refine Returns.bind (fun _ => Returns.bind (fun _ => Returns.bind (fun t => ?_)))
        by_cases hdue : cancelDue L.maxAgeSeconds (p.statusRead.observed status) t = true
        · simp only [hdue, if_true]
          exact cancelAged_settled _ _ _
        · simp only [hdue, Bool.false_eq_true, if_false]
          exact Returns.active _ _

theorem lookUp_settled (L : Settings) (p : Pending μ) :
    Returns (lookUp L E p) Tracked.Settled := by
  refine Returns.bind (fun answer => ?_)
  cases answer with
  | error e =>
      refine Returns.bind (fun _ => Returns.bind (fun _ => ?_))
      by_cases hretry : L.retryOnLookupError = true
      · simp only [hretry, if_true]
        refine Returns.bind (fun _ => Returns.bind (fun _ => Returns.pure ?_))
        exact fun h => by cases h
      · simp only [hretry, Bool.false_eq_true, if_false]
        exact Returns.active _ _
  | ok native =>
      by_cases hfound : truthy (orderFields native).orderId = true
      · simp only [hfound, if_true]
        exact Returns.bind (fun _ => Returns.bind (fun _ => readStatus_settled L _ _))
      · simp only [hfound, Bool.false_eq_true, if_false]
        refine Returns.bind (fun _ => Returns.bind (fun _ => ?_))
        by_cases hfew : p.missed.lookupMisses < L.missingConfirmations
        · simp only [hfew, if_true]
          exact Returns.active _ _
        · simp only [hfew, if_false]
          exact Returns.bind (fun _ => Returns.pure (fun h => by cases h))

/-- The status of a terminal result is the one its intent was written with. -/
theorem reconcile_settled (L : Settings) (p : Pending μ) :
    Returns (reconcile L E p) Tracked.Settled := by
  refine Returns.bind (fun _ => ?_)
  cases hcached : statusFromTerminalPayload p.terminalStatus with
  | some status => exact Returns.pure (fun _ => ⟨status, rfl, hcached⟩)
  | none =>
      by_cases hknown : p.orderKnown = true
      · simp only [hknown, if_true]
        exact readStatus_settled L _ _
      · simp only [hknown, Bool.false_eq_true, if_false]
        exact lookUp_settled L p

/-- A submit does not end an order. -/
theorem submit_unsettled (callback : EStateM Stop σ (Except Exc Response)) (intent : Pending μ) :
    Returns (submit E callback intent)
      (fun r => r.intent.terminalStatus = intent.terminalStatus) := by
  refine Returns.bind (fun _ => Returns.bind (fun _ => Returns.bind (fun _ =>
    Returns.bind (fun answer => Returns.bind (fun _ => ?_)))))
  have hsame : (intent.submitted (captureSubmission answer)).terminalStatus =
      intent.terminalStatus := by
    unfold Pending.submitted
    cases (captureSubmission answer).state <;> rfl
  cases (captureSubmission answer).state with
  | refused => exact Returns.bind (fun _ => Returns.pure hsame)
  | unknown => exact Returns.bind (fun _ => Returns.pure hsame)
  | accepted => exact Returns.bind (fun _ => Returns.pure hsame)

end Results

/-! ## Frames -/

section Frames

variable {E : Env μ σ} {I : σ → Prop}

/-- What every call keeps, a new intent keeps. -/
theorem newIntent_keeps (hclock : Keeps I E.clock) (a : NewIntent μ) : Keeps I (newIntent E a) := by
  have hraise : ∀ {α : Type} (x : Except Exc α), Keeps I (orRaise x : EStateM Stop σ α) := by
    intro α x
    cases x with
    | ok a => exact Keeps.pure a
    | error e => exact Keeps.throw _
  unfold newIntent now
  refine Keeps.bind (Keeps.bind hclock (fun raw => ?_)) (fun t => ?_)
  · cases Raw.positive raw with
    | some t => exact Keeps.pure t
    | none => exact Keeps.throw _
  · refine Keeps.bind (hraise _) (fun _ => ?_)
    split
    · exact Keeps.throw _
    · exact Keeps.pure _

/-- What every call keeps, a submit keeps. -/
theorem submit_keeps (hpersist : ∀ p, Keeps I (E.persist p)) (haudit : ∀ e p, Keeps I (E.audit e p))
    {callback : EStateM Stop σ (Except Exc Response)} (hcall : Keeps I callback)
    (intent : Pending μ) : Keeps I (submit E callback intent) := by
  unfold submit
  refine Keeps.bind ?_ (fun _ => Keeps.bind (hpersist _) (fun _ => Keeps.bind (haudit _ _)
    (fun _ => Keeps.bind hcall (fun answer => Keeps.bind (hpersist _) (fun _ => ?_)))))
  · cases validateIdentity intent with
    | ok a => exact Keeps.pure a
    | error e => exact Keeps.throw _
  · cases (captureSubmission answer).state with
    | refused => exact Keeps.bind (haudit _ _) (fun _ => Keeps.pure _)
    | unknown => exact Keeps.bind (haudit _ _) (fun _ => Keeps.pure _)
    | accepted => exact Keeps.bind (haudit _ _) (fun _ => Keeps.pure _)

end Frames

end TradingFleet.Lifecycle
