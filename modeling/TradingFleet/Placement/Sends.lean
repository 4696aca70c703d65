import TradingFleet.Placement.Stages

set_option autoImplicit false

/-! # What is sent

`place` calls `place_order` at most once. Behind the guards of the pipeline the order was cleared
then (`Cleared`), and when the call is over the local variables say what the provider
answered (`Sent`). -/

namespace TradingFleet.Placement

open TradingFleet.Hoare TradingFleet.Text TradingFleet.Outbox TradingFleet.Lifecycle

variable {E : Env} {c : Call} {w w' : World}

/-! ## Locked sections -/

/-- The other processes went on: the call itself stands still. -/
structure Waits (E : Env) (w w' : World) : Prop where
  log : w'.log = w.log
  locals : w'.locals = w.locals
  context : w'.context = w.context
  schedule : w'.schedule <:+ w.schedule
  ledger : ∃ ops : List Op, w'.ledger = ops.foldl Ledger.other w.ledger ∧
    w'.others = Ledger.met w.ledger ops ++ w.others

theorem Waits.refl (w : World) : Waits E w w where
  log := rfl
  locals := rfl
  context := rfl
  schedule := List.suffix_refl _
  ledger := ⟨[], rfl, rfl⟩

section Locked

variable {α : Type} {body : World → α × World}

/-- A locked section runs after the others, or fails after its write or before. -/
theorem locked_post {Q : α → World → Prop} {R : Raised → World → Prop}
    (hok : ∀ w₁, Waits E w w₁ → Q (body w₁).1 (body w₁).2)
    (hfails : ∀ w₁ (failure : Failure), Waits E w w₁ → R failure.raised w₁)
    (hwritten : ∀ w₁ (failure : Failure), Waits E w w₁ → R failure.raised (body w₁).2) :
    Post Q R (locked E body w) := by
  unfold locked
  cases hschedule : w.schedule with
  | nil => exact hok w (.refl w)
  | cons turn rest =>
      have hwaits : Waits E w { w.interleave E turn with schedule := rest } :=
        { log := rfl
          locals := rfl
          context := rfl
          schedule := by
            rw [hschedule]
            exact List.suffix_cons _ _
          ledger := ⟨turn.ops, rfl, rfl⟩ }
      simp only
      cases turn.failure with
      | none => exact hok _ hwaits
      | some failure =>
          obtain ⟨failure, written⟩ := failure
          cases written with
          | true => exact hwritten _ failure hwaits
          | false => exact hfails _ failure hwaits

theorem locked_ok {a : α} (h : locked E body w = .ok a w') :
    ∃ w₁, Waits E w w₁ ∧ a = (body w₁).1 ∧ w' = (body w₁).2 := by
  have hpost : Post (fun a w' => ∃ w₁, Waits E w w₁ ∧ a = (body w₁).1 ∧ w' = (body w₁).2)
      (fun _ _ => True) (locked E body w) :=
    locked_post (fun w₁ hwaits => ⟨w₁, hwaits, rfl, rfl⟩) (fun _ _ _ => trivial)
      (fun _ _ _ => trivial)
  rw [h] at hpost
  exact hpost

end Locked

/-- A section that fails raises no refusal. -/
theorem locked_error {α : Type} {body : World → α × World} {e : Raised}
    (h : locked E body w = .error e w') : ∃ failure : Failure, e = failure.raised := by
  have hpost : Post (fun _ _ => True) (fun e _ => ∃ failure : Failure, e = failure.raised)
      (locked E body w) :=
    locked_post (fun _ _ => trivial) (fun _ failure _ => ⟨failure, rfl⟩)
      (fun _ failure _ => ⟨failure, rfl⟩)
  rw [h] at hpost
  exact hpost

theorem Failure.raised_ne_refused (f : Failure) (reason : String) : f.raised ≠ .refused reason := by
  cases f <;> simp [Failure.raised]

theorem writeOutbox_ok {α : Type} {op : World → Op} {granted : World → Option Record}
    {result : World → α} {a : α} (h : writeOutbox E op granted result w = .ok a w') :
    ∃ w₁, Waits E w w₁ ∧ a = result w₁ ∧ w'.log = .outbox (op w₁) (granted w₁) :: w.log ∧
      w'.locals = w.locals := by
  obtain ⟨w₁, hwaits, rfl, rfl⟩ := locked_ok h
  refine ⟨w₁, hwaits, rfl, ?_, hwaits.locals⟩
  show _ :: w₁.log = _
  rw [hwaits.log]

/-! ## Writing -/

/-- Nothing is sent by this. -/
def Event.quiet : Event → Bool
  | .placeOrder _ _ => false
  | _ => true

theorem Event.quiet_of_harmless {e : Event} (h : e.harmless = true) : e.quiet = true := by
  cases e <;> first | rfl | cases h

/-- Up to the submit: nothing is sent, and the variables that tell of a submit stay. -/
structure Prepares (w w' : World) : Prop where
  log : ∃ new, w'.log = new ++ w.log ∧ ∀ e ∈ new, e.quiet = true
  order : w'.locals.order = w.locals.order
  submitAttempted : w'.locals.submitAttempted = w.locals.submitAttempted
  slotCommitted : w'.locals.slotCommitted = w.locals.slotCommitted
  context : w'.context = w.context
  schedule : w'.schedule <:+ w.schedule

theorem Prepares.refl (w : World) : Prepares w w :=
  ⟨⟨[], rfl, fun _ h => by cases h⟩, rfl, rfl, rfl, rfl, List.suffix_refl _⟩

theorem Prepares.trans {w w' w'' : World} (h : Prepares w w') (h' : Prepares w' w'') :
    Prepares w w'' where
  log := by
    obtain ⟨new, hnew, hquiet⟩ := h.log
    obtain ⟨new', hnew', hquiet'⟩ := h'.log
    refine ⟨new' ++ new, by rw [hnew', hnew, List.append_assoc], fun e he => ?_⟩
    rcases List.mem_append.mp he with he | he
    · exact hquiet' e he
    · exact hquiet e he
  order := h'.order.trans h.order
  submitAttempted := h'.submitAttempted.trans h.submitAttempted
  slotCommitted := h'.slotCommitted.trans h.slotCommitted
  context := h'.context.trans h.context
  schedule := h'.schedule.trans h.schedule

theorem Prepares.mem (h : Prepares w w') {e : Event} (he : e ∈ w.log) : e ∈ w'.log := by
  obtain ⟨new, hnew, -⟩ := h.log
  rw [hnew]
  exact List.mem_append_right _ he

theorem Asks.prepares (h : Asks w w') : Prepares w w' where
  log := by
    obtain ⟨new, hnew, hharmless⟩ := h.log
    exact ⟨new, hnew, fun e he => Event.quiet_of_harmless (hharmless e he)⟩
  order := h.intent.order
  submitAttempted := h.intent.submitAttempted
  slotCommitted := h.intent.slotCommitted
  context := h.context
  schedule := by rw [h.schedule]

theorem Waits.prepares (h : Waits E w w') : Prepares w w' where
  log := ⟨[], h.log, fun _ h => by cases h⟩
  order := by rw [h.locals]
  submitAttempted := by rw [h.locals]
  slotCommitted := by rw [h.locals]
  context := h.context
  schedule := h.schedule

section Bind

variable {α β : Type}

theorem prepares_bind {x : Placing α} {f : α → Placing β} (hx : Moves Prepares x)
    (hf : ∀ a, Moves Prepares (f a)) : Moves Prepares (x >>= f) :=
  Moves.bind (fun _ _ _ h h' => h.trans h') hx hf

theorem prepares_pure (a : α) : Moves Prepares (pure a : Placing α) := Moves.pure Prepares.refl a

theorem prepares_throw (e : Raised) : Moves Prepares (throw e : Placing α) :=
  Moves.throw Prepares.refl e

theorem prepares_looks {x : Placing α} (h : Moves Looks x) : Moves Prepares x :=
  h.weaken (fun _ _ h => h.asks.prepares)

theorem prepares_tryExcept {x : Placing α} {handler : Raised → Placing α} (hx : Moves Prepares x)
    (hh : ∀ e, Moves Prepares (handler e)) : Moves Prepares (tryExcept x handler) := by
  refine Moves.tryCatch (fun _ _ _ h h' => h.trans h') hx (fun e => ?_)
  split
  · exact hh e
  · exact prepares_throw e

theorem prepares_locked {body : World → α × World} (hbody : ∀ w, Prepares w (body w).2) :
    Moves Prepares (locked E body) := fun _ =>
  locked_post (fun w₁ hwaits => hwaits.prepares.trans (hbody w₁))
    (fun _ _ hwaits => hwaits.prepares) (fun w₁ _ hwaits => hwaits.prepares.trans (hbody w₁))

theorem prepares_writeOutbox (op : World → Op) (granted : World → Option Record)
    (result : World → α) : Moves Prepares (writeOutbox E op granted result) :=
  prepares_locked (fun w => ⟨⟨[.outbox (op w) (granted w)], rfl, fun e he => by
    rw [List.mem_singleton.mp he]
    rfl⟩, rfl, rfl, rfl, rfl, List.suffix_refl _⟩)

theorem prepares_writeSlot (event : World → Lock.Event) : Moves Prepares (writeSlot E event) :=
  prepares_locked (fun w => ⟨⟨[.slot (event w)], rfl, fun e he => by
    rw [List.mem_singleton.mp he]
    rfl⟩, rfl, rfl, rfl, rfl, List.suffix_refl _⟩)

/-- Assigning other variables. -/
theorem prepares_assign {change : Locals → Locals}
    (h : ∀ l, (change l).order = l.order ∧ (change l).submitAttempted = l.submitAttempted ∧
      (change l).slotCommitted = l.slotCommitted) : Moves Prepares (assign change) := by
  intro w
  obtain ⟨horder, hattempted, hcommitted⟩ := h w.locals
  exact ⟨⟨[], rfl, fun _ h => by cases h⟩, horder, hattempted, hcommitted, rfl, List.suffix_refl _⟩

end Bind

theorem prequeue_prepares (E : Env) (c : Call) : Moves Prepares (prequeue E c) := by
  unfold prequeue
  split
  · exact prepares_pure _
  · refine prepares_tryExcept ?_ (fun _ => prepares_looks (looks_giveUp _))
    split
    · refine prepares_bind (prepares_writeOutbox _ _ _) (fun granted => ?_)
      cases granted with
      | none => exact prepares_throw _
      | some snapshot =>
          refine prepares_bind (prepares_assign (fun _ => ⟨rfl, rfl, rfl⟩)) (fun _ => ?_)
          split
          · exact prepares_bind (prepares_assign (fun _ => ⟨rfl, rfl, rfl⟩))
              (fun _ => prepares_pure _)
          · exact prepares_throw _
    · exact prepares_pure _

theorem beginSubmit_prepares (E : Env) : Moves Prepares (beginSubmit E) := by
  unfold beginSubmit
  refine prepares_bind (prepares_looks looks_locals) (fun l => ?_)
  split
  · exact prepares_pure _
  · refine prepares_bind (prepares_writeOutbox _ _ _) (fun granted => ?_)
    cases granted with
    | none => exact prepares_throw _
    | some refreshed =>
        exact prepares_assign (fun _ => ⟨rfl, rfl, rfl⟩)

/-! ## The claim -/

theorem get_set (kw : Kwargs) (key value : String) : (kw.set key value).get key = some value := by
  simp [Kwargs.get, Kwargs.set]

/-- The intent that was persisted before the submit. -/
structure Persisted (E : Env) (c : Call) (qty : ℚ) (log : List Event) (kwargs : Kwargs)
    (snapshot : Record) : Prop where
  written : ∃ a ctx, .outbox (.enqueueClaimed E.cfg a none ctx) (some snapshot) ∈ log ∧
    a.symbol = c.symbol ∧ a.side = c.sideU ∧ a.qty = qty ∧ a.requestedPrice = some c.price ∧
    a.placeKwargs = c.retryKwargs
  identified : truthy snapshot.clientOrderId = true
  clientOrderId : kwargs.get "client_order_id" = snapshot.clientOrderId

theorem prequeue_ok (h : prequeue E c w = .ok (some ()) w') :
    (w'.locals.price = w.locals.price ∧ w'.locals.qty = w.locals.qty ∧
      w'.locals.cachePermit = w.locals.cachePermit) ∧
    (c.callerOwnsRetry = false → E.cfg.retryEnabled = true →
      ∃ snapshot, w'.locals.prequeuedClaim = some snapshot ∧
        Persisted E c w.locals.qty w'.log w'.locals.kwargs snapshot) ∧
    (c.callerOwnsRetry = true ∨ E.cfg.retryEnabled = false → w' = w) := by
  unfold prequeue at h
  cases howns : c.callerOwnsRetry with
  | true =>
      rw [howns] at h
      obtain ⟨-, rfl⟩ := pure_ok h
      exact ⟨⟨rfl, rfl, rfl⟩, fun hno => (by cases hno), fun _ => rfl⟩
  | false =>
      rw [howns] at h
      rcases tryExcept_ok h with h | ⟨e, w₁, -, h⟩
      · -- without retries nothing is queued
        cases henabled : E.cfg.retryEnabled with
        | false =>
            simp only [henabled, Bool.false_eq_true, if_false] at h
            obtain ⟨-, rfl⟩ := pure_ok h
            exact ⟨⟨rfl, rfl, rfl⟩, fun _ hno => (by cases hno), fun _ => rfl⟩
        | true =>
            simp only [henabled, if_true] at h
            obtain ⟨granted, w₁, hwrite, h⟩ := bind_ok h
            -- the queue may change before the write, which grants the claim on what it finds
            obtain ⟨w₀, hwaits, hgranted, hlog, hlocals⟩ := writeOutbox_ok hwrite
            cases granted with
            | none => cases h
            | some snapshot =>
                obtain ⟨_, w₂, hassign, h⟩ := bind_ok h
                cases hassign
                split at h
                · rename_i hidentified
                  obtain ⟨_, w₃, hassign, h⟩ := bind_ok h
                  cases hassign
                  obtain ⟨-, rfl⟩ := pure_ok h
                  refine ⟨?_, fun _ _ => ⟨snapshot, rfl, ?_, hidentified, ?_⟩, ?_⟩
                  · simp only [hlocals]
                    trivial
                  · refine ⟨prequeueArgs E c w₀, w₀.callContext E, ?_, rfl, rfl, ?_, rfl, rfl⟩
                    · show _ ∈ w₁.log
                      rw [hlog, ← hgranted]
                      exact List.mem_cons_self
                    · show w₀.locals.qty = _
                      rw [hwaits.locals]
                  · show Kwargs.get (Kwargs.set _ _ _) _ = _
                    rw [get_set]
                    cases hcid : snapshot.clientOrderId with
                    | none => simp [hcid, truthy] at hidentified
                    | some cid => rfl
                  · rintro (hno | hno) <;> cases hno
                · cases h
      · exact (giveUp_ok h).elim

/-- The claim under which the order goes out, renewed by the last write before it. -/
structure Begun (E : Env) (log : List Event) (snapshot begun : Record) : Prop where
  written : ∃ now lease pid start earlier,
    log = .outbox (.beginClaimedSubmit snapshot now lease pid start) (some begun) :: earlier
  id : begun.id = snapshot.id
  clientOrderId : begun.clientOrderId = snapshot.clientOrderId

theorem beginClaimedSubmit_granted {snap begun : Record} {now lease : ℚ} {pid : Nat}
    {start : Option String} {q : Queue}
    (h : (beginClaimedSubmit snap now lease pid start q).1 = some begun) :
    begun.id = snap.id ∧ begun.clientOrderId = snap.clientOrderId := by
  rcases beginClaimedSubmit_cases snap now lease pid start q with hb | ⟨st, r, -, hfind, hb⟩
  · rw [hb] at h
    cases h
  · rw [hb, Option.some.injEq] at h
    subst h
    have hexact := List.find?_some hfind
    simp only [exactClaim, Bool.and_eq_true, decide_eq_true_eq] at hexact
    exact ⟨hexact.1.1.1.1, hexact.2⟩

theorem beginSubmit_ok (h : beginSubmit E w = .ok () w') :
    (w'.locals.price = w.locals.price ∧ w'.locals.qty = w.locals.qty ∧
      w'.locals.cachePermit = w.locals.cachePermit ∧ w'.locals.kwargs = w.locals.kwargs) ∧
    (∀ snapshot, w.locals.prequeuedClaim = some snapshot →
      ∃ begun, w'.locals.prequeuedClaim = some begun ∧ Begun E w'.log snapshot begun) ∧
    (∃ begin_, w'.log = begin_ ++ w.log ∧ begin_.length ≤ 1) := by
  unfold beginSubmit at h
  obtain ⟨l, w₁, hlocals, h⟩ := bind_ok h
  cases hlocals
  cases hclaim : w.locals.prequeuedClaim with
  | none =>
      rw [hclaim] at h
      obtain ⟨-, rfl⟩ := pure_ok h
      exact ⟨⟨rfl, rfl, rfl, rfl⟩, fun _ hno => (by cases hno), [], rfl, Nat.zero_le 1⟩
  | some claim =>
      rw [hclaim] at h
      obtain ⟨granted, w₁, hwrite, h⟩ := bind_ok h
      obtain ⟨w₀, hwaits, hgranted, hlog, hlocals⟩ := writeOutbox_ok hwrite
      cases granted with
      | none => cases h
      | some begun =>
          cases h
          obtain ⟨hid, hcid⟩ := beginClaimedSubmit_granted hgranted.symm
          refine ⟨?_, ?_, ⟨[_], hlog, Nat.le_refl 1⟩⟩
          · simp only [hlocals]
            trivial
          · intro snapshot hsnapshot
            cases hsnapshot
            refine ⟨begun, rfl, ⟨w₀.now E, E.cfg.claimLeaseSec, E.pid,
              E.startIdentity w₀.log.length, w.log, ?_⟩, hid, hcid⟩
            show w₁.log = _
            rw [hlog, ← hgranted]

/-! ## What an order has passed -/

/-- The price constraint of a retry, if there is one, is a positive price and a tolerance below
one. -/
def Call.Constrained (c : Call) : Prop :=
  c.retryConstraintSupplied = true →
    ∃ requested tolerance, c.constraint = some (requested, tolerance) ∧ 0 < requested ∧
      0 ≤ tolerance ∧ tolerance < 1

/-- The log shows, when `call` is about to be made, that the order was let through. The events after
the last reading of the gate are at most the renewal of the claim. -/
structure Cleared (E : Env) (c : Call) (log : List Event) (call : OrderCall) : Prop where
  enabled : E.provider.executionEnabled.isSome = true →
    ∃ renewal earlier, log = renewal ++ .gate (.ok true) :: earlier ∧ renewal.length ≤ 1
  daily : ∃ why, .daily (.ok (true, why)) ∈ log
  profit : c.bypassProfitGuard = false → c.bypassReference = false →
    ∃ reference, .profit call.price E.margin reference (.ok true) ∈ log
  quantity : ∃ price decision, .quantity (c.quantityArgs price) (.ok decision) ∈ log ∧
    call.qty = decision.finalQty ∧ 0 < call.qty
  trend : c.waitForTrend = true → ∃ answer, .trend answer ∈ log ∧ answer ≠ .ok true
  market : c.isMarket = true → c.finalProfitCheck = true ∨ c.retryConstraintSupplied = true →
    ∃ since price checked quoted, log = since ++ checked ∧ since.length ≤ 2 ∧
      QuoteChecked E c c.constraint price checked quoted
  constrained : c.Constrained
  permitted : E.isBinance = true →
    ∃ p, call.cachePermit = some p ∧ Permitted c log call.price call.qty p
  claimed : c.callerOwnsRetry = false → E.cfg.retryEnabled = true →
    ∃ snapshot begun, Persisted E c call.qty log call.kwargs snapshot ∧ Begun E log snapshot begun

/-- Nothing was sent, and no variable tells of a submit. -/
structure Unsent (w : World) : Prop where
  quiet : ∀ e ∈ w.log, e.quiet = true
  order : w.locals.order = none
  submitAttempted : w.locals.submitAttempted = false
  slotCommitted : w.locals.slotCommitted = false

theorem Unsent.prepares (h : Unsent w) (h' : Prepares w w') : Unsent w' where
  quiet := by
    obtain ⟨new, hnew, hquiet⟩ := h'.log
    intro e he
    rw [hnew] at he
    rcases List.mem_append.mp he with he | he
    · exact hquiet e he
    · exact h.quiet e he
  order := h'.order.trans h.order
  submitAttempted := h'.submitAttempted.trans h.submitAttempted
  slotCommitted := h'.slotCommitted.trans h.slotCommitted

/-- The order of an answer that proves acceptance. -/
def acceptedOf : Answer Native → Option Native
  | .ok order => if acceptedOrderPayload order then some order else none
  | .error _ => none

/-- One order was sent, after it was cleared. -/
structure Dispatched (E : Env) (c : Call) (log : List Event) (call : OrderCall)
    (answer : Answer Native) : Prop where
  shape : ∃ after before, log = after ++ .placeOrder call answer :: before ∧
    (∀ e ∈ after, e.quiet = true) ∧ (∀ e ∈ before, e.quiet = true) ∧ Cleared E c before call

theorem Dispatched.grows {call : OrderCall} {answer : Answer Native} {new log : List Event}
    (h : Dispatched E c log call answer) (hquiet : ∀ e ∈ new, e.quiet = true) :
    Dispatched E c (new ++ log) call answer := by
  obtain ⟨after, before, rfl, hafter, hbefore, hcleared⟩ := h.shape
  refine ⟨new ++ after, before, by rw [List.append_assoc], fun e he => ?_, hbefore, hcleared⟩
  rcases List.mem_append.mp he with he | he
  · exact hquiet e he
  · exact hafter e he

/-- One order was sent, and the variables tell what was answered. -/
structure Sent (E : Env) (c : Call) (w : World) (call : OrderCall) (answer : Answer Native) :
    Prop where
  dispatched : Dispatched E c w.log call answer
  order : w.locals.order = acceptedOf answer
  submitAttempted : w.locals.submitAttempted = true

theorem Sent.prepares {call : OrderCall} {answer : Answer Native} (h : Sent E c w call answer)
    (h' : Prepares w w') : Sent E c w' call answer where
  dispatched := by
    obtain ⟨new, hnew, hquiet⟩ := h'.log
    rw [hnew]
    exact h.dispatched.grows hquiet
  order := h'.order.trans h.order
  submitAttempted := h'.submitAttempted.trans h.submitAttempted

/-- A stage that returns. -/
def Returns (E : Env) (c : Call) (a : Option Native) (w : World) : Prop :=
  (Unsent w ∧ a = none) ∨ ∃ call answer, Sent E c w call answer ∧ a = acceptedOf answer

/-- A stage that raises. -/
def Raises (E : Env) (c : Call) (e : Raised) (w : World) : Prop :=
  Unsent w ∨ ∃ call answer, Sent E c w call answer ∧
    ∀ reason, e = .refused reason → answer = .error (.refused reason)

/-- The submit, of an order that was cleared. -/
theorem submit_sends {slot : Nat} {permitPrice : Option ℚ} (hunsent : Unsent w)
    (hcleared : Cleared E c w.log (orderCall E c w.locals permitPrice)) :
    Post (Returns E c) (Raises E c) (submit E c slot permitPrice w) := by
  set call := orderCall E c w.locals permitPrice with hcall
  unfold submit
  refine Post.bind (fun e w' h => by cases h) (fun _ w₁ h => ?_)
  cases h
  refine Post.bind (fun e w' h => by cases h) (fun l w₁ h => ?_)
  cases h
  have hdispatched (answer : Answer Native) :
      Dispatched E c (.placeOrder call answer :: w.log) call answer :=
    ⟨[], w.log, rfl, fun _ h => (by cases h), hunsent.quiet, hcleared⟩
  refine Post.bind (fun e w' h => ?_) (fun response w' h => ?_)
  · unfold ask at h
    split at h
    · cases h
    · cases h
      refine .inr ⟨call, _, ⟨hdispatched _, hunsent.order, rfl⟩, fun reason he => ?_⟩
      rw [he]
  · obtain ⟨-, rfl⟩ := ask_ok h
    by_cases haccepted : acceptedOrderPayload response = true
    · rw [if_pos haccepted]
      refine Post.bind (fun e w' h => by cases h) (fun _ w₂ h => ?_)
      cases h
      have hof : acceptedOf (.ok response) = some response := by simp [acceptedOf, haccepted]
      have hsent : Sent E c
          { w with
            log := .placeOrder call (.ok response) :: w.log
            locals := { w.locals with
              reason := none, order := some response, submitAttempted := true,
              slotCommitted := true } } call (.ok response) :=
        ⟨hdispatched _, hof.symm, rfl⟩
      refine Post.bind (fun e w' h => ?_) (fun _ w' h => ?_)
      · have hprepares := (prepares_writeSlot (E := E)
          (fun _ => .commit slot (commitFields response))).error h
        refine .inr ⟨call, _, hsent.prepares hprepares, fun reason he => ?_⟩
        obtain ⟨failure, rfl⟩ := locked_error h
        exact absurd he (failure.raised_ne_refused reason)
      · have hprepares := (prepares_writeSlot (E := E)
          (fun _ => .commit slot (commitFields response))).ok h
        exact .inr ⟨call, _, hsent.prepares hprepares, hof.symm⟩
    · rw [if_neg haccepted]
      refine Post.bind (fun e w' h => by cases h) (fun _ w₂ h => ?_)
      cases h
      have hof : acceptedOf (.ok response) = none := by simp [acceptedOf, haccepted]
      exact .inr ⟨call, .ok response, ⟨hdispatched _, hof.symm, rfl⟩, hof.symm⟩

/-! ## The stages in their order -/

/-- What an order has passed before the cooldown. -/
structure Screened (E : Env) (c : Call) (state : Option OrderState)
    (constraint : Option (ℚ × ℚ)) (w : World) : Prop where
  unsent : Unsent w
  daily : ∃ why, .daily (.ok (true, why)) ∈ w.log
  profit : c.bypassProfitGuard = false → c.bypassReference = false →
    ∃ reference, .profit w.locals.price E.margin reference (.ok true) ∈ w.log
  quantity : ∃ price decision, .quantity (c.quantityArgs price) (.ok decision) ∈ w.log ∧
    w.locals.qty = decision.finalQty ∧ 0 < w.locals.qty
  trend : c.waitForTrend = true → ∃ answer, .trend answer ∈ w.log ∧ answer ≠ .ok true
  prepared : E.isBinance = true → c.cachePermit = none →
    ∃ st, state = some st ∧ .prepared (.ok (some st)) ∈ w.log
  constraint : constraint = c.constraint
  constrained : c.Constrained
  cachePermit : w.locals.cachePermit = c.cachePermit

/-- It stays so while nothing is sent and the order is left as it is. -/
theorem Screened.prepares {state : Option OrderState} {constraint : Option (ℚ × ℚ)}
    (h : Screened E c state constraint w) (h' : Prepares w w')
    (hprice : w'.locals.price = w.locals.price) (hqty : w'.locals.qty = w.locals.qty)
    (hpermit : w'.locals.cachePermit = w.locals.cachePermit) :
    Screened E c state constraint w' where
  unsent := h.unsent.prepares h'
  daily := h.daily.imp (fun _ hmem => h'.mem hmem)
  profit := fun hguard hreference => by
    rw [hprice]
    exact (h.profit hguard hreference).imp (fun _ hmem => h'.mem hmem)
  quantity := by
    obtain ⟨price, decision, hmem, hfinal, hpos⟩ := h.quantity
    exact ⟨price, decision, h'.mem hmem, hqty.trans hfinal, by rw [hqty]; exact hpos⟩
  trend := fun hwait => (h.trend hwait).imp (fun _ ha => ⟨h'.mem ha.1, ha.2⟩)
  prepared := fun hbinance hnone => (h.prepared hbinance hnone).imp
    (fun _ hst => ⟨hst.1, h'.mem hst.2⟩)
  constraint := h.constraint
  constrained := h.constrained
  cachePermit := hpermit.trans h.cachePermit

theorem Screened.looks {state : Option OrderState} {constraint : Option (ℚ × ℚ)}
    (h : Screened E c state constraint w) (h' : Looks w w') : Screened E c state constraint w' :=
  h.prepares h'.asks.prepares h'.price h'.qty h'.cachePermit

section Dispatch

variable {state : Option OrderState} {constraint : Option (ℚ × ℚ)} {reference : Option ℚ}
  {slot : Nat}

theorem Unsent.returns (h : Unsent w) : Returns E c none w := .inl ⟨h, rfl⟩

theorem dispatch_sends (h : Screened E c state constraint w) :
    Post (Returns E c) (Raises E c) (dispatch E c slot state constraint reference w) := by
  unfold dispatch
  refine Post.bind (fun e w₁ h₁ => ?_) (fun _ w₁ h₁ => ?_)
  · exact .inl (h.looks ((executionGate_looks E).error h₁)).unsent
  have hw₁ := h.looks ((executionGate_looks E).ok h₁)
  refine Post.bind (fun e w₂ h₂ => ?_) (fun queued w₂ h₂ => ?_)
  · exact .inl (hw₁.unsent.prepares ((prequeue_prepares E c).error h₂))
  have hprepares₂ := (prequeue_prepares E c).ok h₂
  cases queued with
  | none => exact (hw₁.unsent.prepares hprepares₂).returns
  | some queued =>
  obtain ⟨⟨hprice₂, hqty₂, hpermit₂⟩, hpersisted, -⟩ := prequeue_ok h₂
  have hw₂ := hw₁.prepares hprepares₂ hprice₂ hqty₂ hpermit₂
  refine Post.bind (fun e w₃ h₃ => ?_) (fun permitPrice w₃ h₃ => ?_)
  · exact .inl (hw₂.unsent.prepares ((permit_asks E c state).error h₃).prepares)
  have hasks₃ := (permit_asks E c state).ok h₃
  have hunsent₃ := hw₂.unsent.prepares hasks₃.prepares
  obtain ⟨hprice₃, hqty₃, hpermitted⟩ := permit_ok h₃ hw₂.cachePermit hw₂.prepared
  refine Post.bind (fun e w₄ h₄ => ?_) (fun checked w₄ h₄ => ?_)
  · exact .inl (hunsent₃.prepares
      ((finalMarketCheck_looks E c constraint reference).error h₄).asks.prepares)
  have hlooks₄ := (finalMarketCheck_looks E c constraint reference).ok h₄
  have hunsent₄ := hunsent₃.prepares hlooks₄.asks.prepares
  cases checked with
  | none => exact hunsent₄.returns
  | some checked =>
  have hmarket := finalMarketCheck_ok h₄
  refine Post.bind (fun e w₅ h₅ => ?_) (fun _ w₅ h₅ => ?_)
  · exact .inl (hunsent₄.prepares ((executionGate_looks E).error h₅).asks.prepares)
  have hlooks₅ := (executionGate_looks E).ok h₅
  have hunsent₅ := hunsent₄.prepares hlooks₅.asks.prepares
  obtain ⟨hon, hoff⟩ := executionGate_ok h₅
  refine Post.bind (fun e w₆ h₆ => ?_) (fun _ w₆ h₆ => ?_)
  · exact .inl (hunsent₅.prepares ((beginSubmit_prepares E).error h₆))
  have hprepares₆ := (beginSubmit_prepares E).ok h₆
  obtain ⟨⟨hprice₆, hqty₆, hpermit₆, hkwargs₆⟩, hbegun, renewal, hrenewal, hlen⟩ :=
    beginSubmit_ok h₆
  -- what was found on the way is in the log, and the order is the one it was found for
  have hon₂ : Prepares w₂ w₆ :=
    ((hasks₃.prepares.trans hlooks₄.asks.prepares).trans hlooks₅.asks.prepares).trans hprepares₆
  have hon₃ : Prepares w₃ w₆ :=
    (hlooks₄.asks.prepares.trans hlooks₅.asks.prepares).trans hprepares₆
  have hprice : w₆.locals.price = w₃.locals.price :=
    hprice₆.trans (hlooks₅.price.trans hlooks₄.price)
  have hqty : w₆.locals.qty = w₃.locals.qty := hqty₆.trans (hlooks₅.qty.trans hlooks₄.qty)
  have hpermit : w₆.locals.cachePermit = w₃.locals.cachePermit :=
    hpermit₆.trans (hlooks₅.cachePermit.trans hlooks₄.cachePermit)
  have hkwargs : w₆.locals.kwargs = w₂.locals.kwargs := by
    rw [hkwargs₆, hlooks₅.asks.intent.kwargs, hlooks₄.asks.intent.kwargs, hasks₃.intent.kwargs]
  have hclaim : w₅.locals.prequeuedClaim = w₂.locals.prequeuedClaim := by
    rw [hlooks₅.asks.intent.prequeuedClaim, hlooks₄.asks.intent.prequeuedClaim,
      hasks₃.intent.prequeuedClaim]
  refine submit_sends (hunsent₅.prepares hprepares₆) ?_
  constructor
  · intro hcallable
    exact ⟨renewal, w₄.log, by rw [hrenewal, hon hcallable], hlen⟩
  · exact hw₂.daily.imp (fun _ hmem => hon₂.mem hmem)
  · intro hguard hreference
    show ∃ reference, Event.profit w₆.locals.price _ _ _ ∈ _
    rw [hprice, hprice₃]
    exact (hw₂.profit hguard hreference).imp (fun _ hmem => hon₂.mem hmem)
  · obtain ⟨price, decision, hmem, hfinal, hpos⟩ := hw₂.quantity
    refine ⟨price, decision, hon₂.mem hmem, ?_, ?_⟩
    · exact (hqty.trans hqty₃).trans hfinal
    · show 0 < w₆.locals.qty
      rw [hqty, hqty₃]
      exact hpos
  · exact fun hwait => (hw₂.trend hwait).imp (fun _ ha => ⟨hon₂.mem ha.1, ha.2⟩)
  · intro hismarket hneeded
    obtain ⟨price, hquote⟩ := hmarket hismarket hneeded
    cases hcallable : E.provider.executionEnabled with
    | none =>
        exact ⟨renewal, price, w₄.log, w₃.log, by rw [hrenewal, hoff hcallable], by omega,
          h.constraint ▸ hquote⟩
    | some enabled =>
        refine ⟨renewal ++ [.gate (.ok true)], price, w₄.log, w₃.log, ?_, ?_,
          h.constraint ▸ hquote⟩
        · rw [hrenewal, hon (by rw [hcallable]; rfl), List.append_assoc, List.singleton_append]
        · rw [List.length_append, List.length_singleton]
          omega
  · exact h.constrained
  · intro hbinance
    obtain ⟨p, hp, hpermitted⟩ := hpermitted hbinance
    refine ⟨p, hpermit.trans hp, ?_⟩
    show Permitted c w₆.log w₆.locals.price w₆.locals.qty p
    rw [hprice, hqty]
    refine hpermitted.imp id ?_
    rintro ⟨hissued, st, hst, hvalid⟩
    exact ⟨hon₃.mem hissued, st, hon₃.mem hst, hon₃.mem hvalid⟩
  · intro howns henabled
    obtain ⟨snapshot, hsnapshot, hpersisted⟩ := hpersisted howns henabled
    obtain ⟨begun, -, hbegun⟩ := hbegun snapshot (hclaim.trans hsnapshot)
    refine ⟨snapshot, begun, ⟨?_, hpersisted.identified, ?_⟩, hbegun⟩
    · obtain ⟨a, ctx, hmem, hsymbol, hside, haqty, hrequested, hkw⟩ := hpersisted.written
      refine ⟨a, ctx, hon₂.mem hmem, hsymbol, hside, ?_, hrequested, hkw⟩
      show a.qty = w₆.locals.qty
      rw [hqty, hqty₃, haqty, hqty₂]
    · show w₆.locals.kwargs.get _ = _
      rw [hkwargs]
      exact hpersisted.clientOrderId

/-- `finally`: what it does comes after what the body did. -/
theorem tryFinally_post {α : Type} {x : Placing α} {last : Placing Unit} {Q : α → World → Prop}
    {R : Raised → World → Prop} (hx : Post Q R (x w))
    (hq : ∀ a w₁, Q a w₁ → Post (fun _ w' => Q a w') R (last w₁))
    (hr : ∀ e w₁, R e w₁ → Post (fun _ w' => R e w') R (last w₁)) :
    Post Q R (tryFinally x last w) := by
  unfold tryFinally
  cases hxw : x w with
  | ok a w₁ =>
      rw [hxw] at hx
      have hlast := hq a w₁ hx
      simp only
      cases hl : last w₁ with
      | ok _ w' =>
          rw [hl] at hlast
          exact hlast
      | error e w' =>
          rw [hl] at hlast
          exact hlast
  | error e w₁ =>
      rw [hxw] at hx
      simp only
      split
      · exact hx
      · have hlast := hr e w₁ hx
        cases hl : last w₁ with
        | ok _ w' =>
            rw [hl] at hlast
            exact hlast
        | error e' w' =>
            rw [hl] at hlast
            exact hlast

theorem Returns.prepares {a : Option Native} (h : Returns E c a w) (h' : Prepares w w') :
    Returns E c a w' := by
  rcases h with ⟨hunsent, ha⟩ | ⟨call, answer, hsent, ha⟩
  · exact .inl ⟨hunsent.prepares h', ha⟩
  · exact .inr ⟨call, answer, hsent.prepares h', ha⟩

/-- A failure on the way out hides what the body returned or raised. -/
theorem Returns.fails {a : Option Native} (h : Returns E c a w) (h' : Prepares w w')
    (failure : Failure) : Raises E c failure.raised w' := by
  rcases h with ⟨hunsent, -⟩ | ⟨call, answer, hsent, -⟩
  · exact .inl (hunsent.prepares h')
  · exact .inr ⟨call, answer, hsent.prepares h',
      fun reason he => absurd he (failure.raised_ne_refused reason)⟩

theorem Raises.prepares {e : Raised} (h : Raises E c e w) (h' : Prepares w w') :
    Raises E c e w' := by
  rcases h with hunsent | ⟨call, answer, hsent, he⟩
  · exact .inl (hunsent.prepares h')
  · exact .inr ⟨call, answer, hsent.prepares h', he⟩

theorem Raises.fails {e : Raised} (h : Raises E c e w) (h' : Prepares w w') (failure : Failure) :
    Raises E c failure.raised w' := by
  rcases h with hunsent | ⟨call, answer, hsent, -⟩
  · exact .inl (hunsent.prepares h')
  · exact .inr ⟨call, answer, hsent.prepares h',
      fun reason he => absurd he (failure.raised_ne_refused reason)⟩

theorem leaveSlot_prepares (slot : Nat) : Moves Prepares (leaveSlot E slot) := by
  unfold leaveSlot
  refine prepares_bind (prepares_looks looks_locals) (fun l => ?_)
  split
  · exact prepares_pure _
  · exact prepares_bind (prepares_writeSlot _) (fun _ => prepares_pure _)

theorem leaveSlot_fails {slot : Nat} {e : Raised} (h : leaveSlot E slot w = .error e w') :
    ∃ failure : Failure, e = failure.raised := by
  have hpost : Post (fun _ _ => True) (fun e _ => ∃ failure : Failure, e = failure.raised)
      (leaveSlot E slot w) := by
    unfold leaveSlot
    refine Post.bind (fun e w' h => by cases h) (fun l w₁ h => ?_)
    split
    · exact trivial
    · exact Post.bind (fun e w' h => locked_error h) (fun _ _ _ => trivial)
  rw [h] at hpost
  exact hpost

theorem tradeSlot_sends {body : Nat → Placing (Option Native)} (h : Unsent w)
    (hbody : ∀ slot w₁, Prepares w w₁ → w₁.locals = w.locals →
      Post (Returns E c) (Raises E c) (body slot w₁)) :
    Post (Returns E c) (Raises E c) (tradeSlot E c body w) := by
  unfold tradeSlot
  refine Post.bind (fun e w₁ h₁ => ?_) (fun slot w₁ h₁ => ?_)
  · exact .inl (h.prepares ((prepares_writeSlot _).error h₁))
  have hprepares := (prepares_writeSlot _).ok h₁
  cases slot with
  | none =>
      have hgiveUp : Prepares w₁ { w₁ with locals := { w₁.locals with reason := some "cooldown" } } :=
        (looks_reason (some "cooldown") w₁).asks.prepares
      exact ((h.prepares hprepares).prepares hgiveUp).returns
  | some slot =>
      obtain ⟨w₀, hwaits, -, rfl⟩ := locked_ok h₁
      refine tryFinally_post (hbody slot _ hprepares hwaits.locals) ?_ ?_
      · intro a w₂ ha
        cases hleave : leaveSlot E slot w₂ with
        | ok _ w₃ => exact ha.prepares ((leaveSlot_prepares slot).ok hleave)
        | error e w₃ =>
            obtain ⟨failure, rfl⟩ := leaveSlot_fails hleave
            exact ha.fails ((leaveSlot_prepares slot).error hleave) failure
      · intro e w₂ he
        cases hleave : leaveSlot E slot w₂ with
        | ok _ w₃ => exact he.prepares ((leaveSlot_prepares slot).ok hleave)
        | error e' w₃ =>
            obtain ⟨failure, rfl⟩ := leaveSlot_fails hleave
            exact he.fails ((leaveSlot_prepares slot).error hleave) failure

end Dispatch

theorem retryConstraint_ok {constraint : Option (ℚ × ℚ)}
    (h : retryConstraint c w = .ok constraint w') :
    constraint = c.constraint ∧ c.Constrained := by
  unfold retryConstraint at h
  unfold Call.Constrained Call.constraint
  split at h
  · rename_i hnot
    obtain ⟨rfl, -⟩ := pure_ok h
    have hnone : c.retryRequestedPrice = none ∧ c.retryPriceTolerance = none := by
      simpa [Call.retryConstraintSupplied] using hnot
    refine ⟨by simp [hnone.1], fun hsupplied => ?_⟩
    simp [hsupplied] at hnot
  · cases hrequested : c.retryRequestedPrice.join with
    | none =>
        rw [hrequested] at h
        cases h
    | some requested =>
        cases htolerance : c.retryPriceTolerance.join with
        | none =>
            rw [hrequested, htolerance] at h
            cases h
        | some tolerance =>
            rw [hrequested, htolerance] at h
            simp only at h
            split at h
            · rename_i hvalid
              obtain ⟨rfl, -⟩ := pure_ok h
              exact ⟨rfl, fun _ => ⟨requested, tolerance, rfl, hvalid⟩⟩
            · cases h

theorem body_sends (h : Unsent w) (hpermit : w.locals.cachePermit = c.cachePermit) :
    Post (Returns E c) (Raises E c) (body E c w) := by
  unfold body
  refine Post.bind (fun e w₁ h₁ => ?_) (fun constraint w₁ h₁ => ?_)
  · exact .inl (h.prepares ((retryConstraint_looks c).error h₁).asks.prepares)
  have hlooks₁ := (retryConstraint_looks c).ok h₁
  refine Post.bind (fun e w₂ h₂ => ?_) (fun state w₂ h₂ => ?_)
  · exact .inl (h.prepares (hlooks₁.trans ((prepareOrderState_looks E c).error h₂)).asks.prepares)
  have hlooks₂ := hlooks₁.trans ((prepareOrderState_looks E c).ok h₂)
  have hprepared := prepareOrderState_ok h₂
  refine Post.bind (fun e w₃ h₃ => ?_) (fun _ w₃ h₃ => ?_)
  · exact .inl (h.prepares (hlooks₂.trans ((preflightOther_looks E c).error h₃)).asks.prepares)
  have hlooks₃ := (preflightOther_looks E c).ok h₃
  have hunsent₃ := h.prepares (hlooks₂.trans hlooks₃).asks.prepares
  refine Post.bind (fun e w₄ h₄ => ?_) (fun _ w₄ h₄ => ?_)
  · exact .inl (hunsent₃.prepares ((smartPrice_asks E c).error h₄).prepares)
  have hasks₄ := (smartPrice_asks E c).ok h₄
  have hunsent₄ := hunsent₃.prepares hasks₄.prepares
  have hpermit₄ : w₄.locals.cachePermit = c.cachePermit := by
    rw [smartPrice_permit h₄, hlooks₃.cachePermit, hlooks₂.cachePermit, hpermit]
  refine Post.bind (fun e w₅ h₅ => ?_) (fun reference w₅ h₅ => ?_)
  · exact .inl (hunsent₄.prepares ((policyGuards_looks E c).error h₅).asks.prepares)
  have hlooks₅ := (policyGuards_looks E c).ok h₅
  have hunsent₅ := hunsent₄.prepares hlooks₅.asks.prepares
  cases reference with
  | none => exact hunsent₅.returns
  | some reference =>
  obtain ⟨hdaily, hprofit⟩ := policyGuards_ok h₅
  refine Post.bind (fun e w₆ h₆ => ?_) (fun price w₆ h₆ => ?_)
  · exact .inl (hunsent₅.prepares ((quantityPrice_looks E c).error h₆).asks.prepares)
  have hlooks₆ := (quantityPrice_looks E c).ok h₆
  have hunsent₆ := hunsent₅.prepares hlooks₆.asks.prepares
  cases price with
  | none => exact hunsent₆.returns
  | some price =>
  refine Post.bind (fun e w₇ h₇ => ?_) (fun decided w₇ h₇ => ?_)
  · exact .inl (hunsent₆.prepares ((quantityGuard_asks E c price).error h₇).prepares)
  have hasks₇ := (quantityGuard_asks E c price).ok h₇
  have hunsent₇ := hunsent₆.prepares hasks₇.prepares
  cases decided with
  | none => exact hunsent₇.returns
  | some decided =>
  obtain ⟨⟨decision, hdecision, hqty, hpos⟩, hprice₇, hpermit₇⟩ := quantityGuard_ok h₇
  refine Post.bind (fun e w₈ h₈ => ?_) (fun go w₈ h₈ => ?_)
  · exact .inl (hunsent₇.prepares ((trendGate_looks E c).error h₈).asks.prepares)
  have hlooks₈ := (trendGate_looks E c).ok h₈
  have hunsent₈ := hunsent₇.prepares hlooks₈.asks.prepares
  cases go with
  | none => exact hunsent₈.returns
  | some go =>
  have htrend := trendGate_ok h₈
  refine Post.bind (fun e w₉ h₉ => ?_) (fun early w₉ h₉ => ?_)
  · exact .inl (hunsent₈.prepares ((marketProfit_looks E c price reference).error h₉).asks.prepares)
  have hlooks₉ := (marketProfit_looks E c price reference).ok h₉
  cases early with
  | none => exact (hunsent₈.prepares hlooks₉.asks.prepares).returns
  | some early =>
  -- what the order has passed so far
  have hafter₅ : Asks w₅ w₈ := (hlooks₆.asks.trans hasks₇).trans hlooks₈.asks
  have hscreened : Screened E c state constraint w₈ :=
    { unsent := hunsent₈
      daily := hdaily.imp (fun _ hmem => hafter₅.mem hmem)
      profit := fun hguard hreference => by
        refine ⟨reference, hafter₅.mem ?_⟩
        rw [hlooks₈.price, hprice₇, hlooks₆.price, hlooks₅.price]
        exact hprofit hguard hreference
      quantity := by
        refine ⟨price, decision, hlooks₈.asks.mem hdecision, hlooks₈.qty.trans hqty, ?_⟩
        rw [hlooks₈.qty, hqty]
        exact hpos
      trend := htrend
      prepared := fun hbinance hnone => (hprepared hbinance hnone).imp (fun _ hst =>
        ⟨hst.1, hafter₅.mem (hlooks₅.asks.mem (hasks₄.mem (hlooks₃.asks.mem hst.2)))⟩)
      constraint := (retryConstraint_ok h₁).1
      constrained := (retryConstraint_ok h₁).2
      cachePermit := by
        rw [hlooks₈.cachePermit, hpermit₇, hlooks₆.cachePermit, hlooks₅.cachePermit, hpermit₄] }
  have hscreened₉ := hscreened.looks hlooks₉
  refine tradeSlot_sends hscreened₉.unsent (fun slot w₁₀ hprepares hlocals => ?_)
  exact dispatch_sends (hscreened₉.prepares hprepares (by rw [hlocals]) (by rw [hlocals])
    (by rw [hlocals]))

end TradingFleet.Placement
