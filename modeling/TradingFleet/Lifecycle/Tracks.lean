import TradingFleet.Lifecycle.Rules

set_option autoImplicit false

/-! # What stays true of an intent while it is reconciled

An assertion about the intent and the state that every write of `reconcile` keeps and that the
answers of the venue may extend. Unlike an `Owner`, it does not follow where the intent is stored,
so it also carries over to an owner that keeps its slot when the lifecycle gives it up. -/

namespace TradingFleet.Lifecycle

open TradingFleet.Hoare TradingFleet.Text

variable {μ σ : Type}

/-- The instruction, the order and what the submission came to are the same. -/
structure Pending.SameOrder (p q : Pending μ) : Prop where
  instruction : q.instruction = p.instruction
  orderId : q.orderId = p.orderId
  submissionOutcome : q.submissionOutcome = p.submissionOutcome
  submitStatus : q.submitStatus = p.submitStatus

/-- An assertion `A` that the injected calls keep, and what a call that stops leaves. Only an order
that is found by its client ID changes what the assertion may speak about. -/
structure Tracks (E : Env μ σ) (A : Pending μ → σ → Prop) (stopped : Stop → σ → Prop) : Prop where
  persist : ∀ p q, p.SameOrder q → Triple (A p) (E.persist (some q)) (fun _ => A q) stopped
  release : ∀ p, Triple (A p) (E.persist none) (fun _ => A p) stopped
  orderByClientId : ∀ p, p.orderKnown = false →
    Triple (A p) (E.orderByClientId p.symbol p.clientOrderId)
      (fun a s => A p s ∧ ∀ native, a = .ok native → truthy (orderFields native).orderId = true →
        A (p.recovered (orderFields native)) s) stopped
  orderStatus : ∀ p orderId,
    Triple (A p) (E.orderStatus p.symbol orderId) (fun _ => A p) stopped
  cancelOrder : ∀ p orderId, Triple (A p) (E.cancelOrder p.symbol orderId) (fun _ => A p) stopped
  clock : ∀ p, Triple (A p) E.clock (fun _ => A p) stopped
  audit : ∀ event p q, Triple (A p) (E.audit event q) (fun _ => A p) stopped
  raised : ∀ p e s, A p s → stopped (.raised e) s

section Programs

variable {E : Env μ σ} {A : Pending μ → σ → Prop} {stopped : Stop → σ → Prop}

theorem now_tracks (T : Tracks E A stopped) (p : Pending μ) :
    Triple (A p) (now E) (fun _ => A p) stopped := by
  unfold now
  refine Triple.bind (T.clock p) (fun raw => ?_)
  cases Raw.positive raw with
  | some t => exact Triple.pure (fun s hs => hs)
  | none => exact Triple.throw (fun s hs => T.raised p _ s hs)

theorem reportActive_tracks (T : Tracks E A stopped) (p q : Pending μ) (hpq : p.SameOrder q)
    (event : AuditEvent) (status : Option OrderStatus) :
    Triple (A p) (reportActive E q event status) (fun r => A r.intent) stopped := by
  unfold reportActive
  refine Triple.bind (T.persist p q hpq) (fun _ => ?_)
  refine Triple.bind (T.audit event q q) (fun _ => ?_)
  exact Triple.pure (fun s hs => hs)

theorem persistTerminal_tracks (T : Tracks E A stopped) (p q : Pending μ) (hpq : p.SameOrder q)
    (status : OrderStatus) :
    Triple (A p) (persistTerminal E q status) (fun r => A r.intent) stopped := by
  unfold persistTerminal
  refine Triple.bind (now_tracks T p) (fun t => ?_)
  have hfinished : p.SameOrder (q.finished status t) :=
    ⟨hpq.instruction, hpq.orderId, hpq.submissionOutcome, hpq.submitStatus⟩
  refine Triple.bind (T.persist p _ hfinished) (fun _ => ?_)
  refine Triple.bind (T.audit .orderTerminal _ _) (fun _ => ?_)
  exact Triple.pure (fun s hs => hs)

theorem postCancel_tracks (T : Tracks E A stopped) (p : Pending μ) (orderId : String)
    (status : OrderStatus) :
    Triple (A p) (postCancel E p orderId status) (fun r => A r.intent) stopped := by
  unfold postCancel
  refine Triple.bind (T.orderStatus p orderId) (fun answer => ?_)
  cases answer with
  | error e => exact reportActive_tracks T p (p.statusFailed e) ⟨rfl, rfl, rfl, rfl⟩ _ _
  | ok post =>
      by_cases hpost : post.status.terminal = true
      · simp only [hpost, if_true]
        exact persistTerminal_tracks T p p ⟨rfl, rfl, rfl, rfl⟩ post
      · simp only [hpost, Bool.false_eq_true, if_false]
        exact reportActive_tracks T p (p.observed post) ⟨rfl, rfl, rfl, rfl⟩ _ _

theorem cancelAged_tracks (T : Tracks E A stopped) (p : Pending μ) (orderId : String)
    (status : OrderStatus) :
    Triple (A p) (cancelAged E p orderId status) (fun r => A r.intent) stopped := by
  unfold cancelAged
  refine Triple.bind (now_tracks T p) (fun t => ?_)
  refine Triple.bind (T.persist p (p.cancelling t) ⟨rfl, rfl, rfl, rfl⟩) (fun _ => ?_)
  refine Triple.bind (T.audit .cancelRequested _ _) (fun _ => ?_)
  refine Triple.bind (T.cancelOrder (p.cancelling t) orderId) (fun answer => ?_)
  cases answer with
  | error e =>
      exact reportActive_tracks T (p.cancelling t) ((p.cancelling t).cancelFailed e)
        ⟨rfl, rfl, rfl, rfl⟩ _ _
  | ok _ =>
      refine Triple.bind (T.persist _ (p.cancelling t).cancelAccepted ⟨rfl, rfl, rfl, rfl⟩)
        (fun _ => ?_)
      refine Triple.bind (T.audit .cancelAccepted _ _) (fun _ => ?_)
      exact postCancel_tracks T (p.cancelling t).cancelAccepted orderId status

theorem cancelIfAged_tracks (T : Tracks E A stopped) (L : Settings) (p : Pending μ)
    (orderId : String) (status : OrderStatus) :
    Triple (A p) (cancelIfAged L E p orderId status) (fun r => A r.intent) stopped := by
  unfold cancelIfAged
  refine Triple.bind (Q := fun _ => A p) ?_ (fun t => ?_)
  · unfold ageClock
    split
    · exact now_tracks T p
    · exact Triple.pure (fun s hs => hs)
  · by_cases hdue : cancelDue L.maxAgeSeconds p t = true
    · simp only [hdue, if_true]
      exact cancelAged_tracks T p orderId status
    · simp only [hdue, Bool.false_eq_true, if_false]
      exact Triple.pure (fun s hs => hs)

theorem readStatus_tracks (T : Tracks E A stopped) (L : Settings) (p : Pending μ)
    (orderId : String) :
    Triple (A p) (readStatus L E p orderId) (fun r => A r.intent) stopped := by
  unfold readStatus
  refine Triple.bind (T.orderStatus p orderId) (fun answer => ?_)
  cases answer with
  | error e => exact reportActive_tracks T p (p.statusFailed e) ⟨rfl, rfl, rfl, rfl⟩ _ _
  | ok status =>
      by_cases hterminal : status.status.terminal = true
      · simp only [hterminal, if_true]
        exact persistTerminal_tracks T p p.statusRead ⟨rfl, rfl, rfl, rfl⟩ status
      · simp only [hterminal, Bool.false_eq_true, if_false]
        refine Triple.bind (T.persist p (p.statusRead.observed status) ⟨rfl, rfl, rfl, rfl⟩)
          (fun _ => ?_)
        refine Triple.bind (T.audit .orderStatus _ _) (fun _ => ?_)
        exact cancelIfAged_tracks T L (p.statusRead.observed status) orderId status

theorem lookUp_tracks (T : Tracks E A stopped) (L : Settings) (p : Pending μ)
    (hknown : p.orderKnown = false) :
    Triple (A p) (lookUp L E p) (fun r => A r.intent) stopped := by
  unfold lookUp
  refine Triple.bind (T.orderByClientId p hknown) (fun answer => ?_)
  cases answer with
  | error e =>
      refine Triple.bind ((T.persist p (p.lookupFailed e) ⟨rfl, rfl, rfl, rfl⟩).strengthen
        (fun s hs => hs.1)) (fun _ => ?_)
      refine Triple.bind (T.audit .lookupError _ _) (fun _ => ?_)
      by_cases hretry : L.retryOnLookupError = true
      · simp only [hretry, if_true]
        refine Triple.bind (T.release _) (fun _ => ?_)
        refine Triple.bind (T.audit .lookupRetryable _ _) (fun _ => ?_)
        exact Triple.pure (fun s hs => hs)
      · simp only [hretry, Bool.false_eq_true, if_false]
        exact Triple.pure (fun s hs => hs)
  | ok native =>
      by_cases hfound : truthy (orderFields native).orderId = true
      · simp only [hfound, if_true]
        have hwrite := T.persist (p.recovered (orderFields native)) _ ⟨rfl, rfl, rfl, rfl⟩
        refine Triple.bind (hwrite.strengthen (fun s hs => hs.2 native rfl hfound)) (fun _ => ?_)
        refine Triple.bind (T.audit .orderRecovered _ _) (fun _ => ?_)
        exact readStatus_tracks T L (p.recovered (orderFields native)) _
      · simp only [hfound, Bool.false_eq_true, if_false]
        refine Triple.bind ((T.persist p p.missed ⟨rfl, rfl, rfl, rfl⟩).strengthen
          (fun s hs => hs.1)) (fun _ => ?_)
        refine Triple.bind (T.audit .orderMissing _ _) (fun _ => ?_)
        by_cases hfew : p.missed.lookupMisses < L.missingConfirmations
        · simp only [hfew, if_true]
          exact Triple.pure (fun s hs => hs)
        · simp only [hfew, if_false]
          refine Triple.bind (T.release _) (fun _ => ?_)
          exact Triple.pure (fun s hs => hs)

/-- **The assertion holds of the intent that `reconcile` returns.** -/
theorem reconcile_tracks (T : Tracks E A stopped) (L : Settings) (p : Pending μ) :
    Triple (A p) (reconcile L E p) (fun r => A r.intent) stopped := by
  unfold reconcile
  refine Triple.bind (Q := fun _ => A p) ?_ (fun _ => ?_)
  · exact orRaise_triple (fun _ s _ hs => hs) (fun e s _ hs => T.raised p e s hs)
  · cases statusFromTerminalPayload p.terminalStatus with
    | some status => exact Triple.pure (fun s hs => hs)
    | none =>
        by_cases hknown : p.orderKnown = true
        · simp only [hknown, if_true]
          exact readStatus_tracks T L p _
        · simp only [hknown, Bool.false_eq_true, if_false]
          exact lookUp_tracks T L p (by simpa using hknown)

end Programs

end TradingFleet.Lifecycle
