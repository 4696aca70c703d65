import TradingFleet.Outbox.Standing
import TradingFleet.Placement.Reports

set_option autoImplicit false

/-! # An order that was sent is on record

Before the submit the claim of the intent is renewed; its record stands for the order from then on.
Nothing that the call does afterwards closes it, unless the provider refused the order: wherever the
call ends, the record is in the queue, or another process has closed it (`place_remembers`). -/

namespace TradingFleet.Placement

open TradingFleet.Hoare TradingFleet.Text TradingFleet.Outbox TradingFleet.Lifecycle

variable {E : Env} {c : Call} {w w' : World}

/-! ## The record through other steps -/

/-- A record of the queue stands for the order. -/
def OnRecord (id cid : String) (w : World) : Prop := ∃ r ∈ w.ledger.queue, Standing id cid r

/-- The operation met the record in this ledger, was addressed to it, and left none that stands for
the order. -/
structure Ends (id cid : String) (s : Ledger) (op : Op) : Prop where
  met : ∃ r ∈ s.queue, Standing id cid r ∧ Closes op r
  gone : ∀ r ∈ op.apply s.queue, ¬Standing id cid r

/-- Another process has closed the record while the call went on. -/
def ClosedBy (id cid : String) (w : World) : Prop := ∃ p ∈ w.others, Ends id cid p.1 p.2

/-- What stands stays, or another process closes it meanwhile. -/
structure Remembers (w w' : World) : Prop where
  log : ∀ e ∈ w.log, e ∈ w'.log
  others : ∀ p ∈ w.others, p ∈ w'.others
  claim : w'.locals.prequeuedClaim = w.locals.prequeuedClaim
  standing : ∀ id cid, OnRecord id cid w → OnRecord id cid w' ∨ ClosedBy id cid w'

theorem ClosedBy.remembers {id cid : String} (h : ClosedBy id cid w) (h' : Remembers w w') :
    ClosedBy id cid w' := by
  obtain ⟨p, hp, hends⟩ := h
  exact ⟨p, h'.others p hp, hends⟩

theorem Remembers.refl (w : World) : Remembers w w :=
  ⟨fun _ h => h, fun _ h => h, rfl, fun _ _ h => .inl h⟩

theorem Remembers.trans {w w' w'' : World} (h : Remembers w w') (h' : Remembers w' w'') :
    Remembers w w'' where
  log := fun e he => h'.log e (h.log e he)
  others := fun p hp => h'.others p (h.others p hp)
  claim := h'.claim.trans h.claim
  standing := by
    intro id cid hstands
    rcases h.standing id cid hstands with hstands | hclosed
    · exact h'.standing id cid hstands
    · exact .inr (hclosed.remembers h')

/-- A step that leaves the queue and the claim alone. -/
theorem remembers_of_same (hlog : ∃ new, w'.log = new ++ w.log) (hothers : w'.others = w.others)
    (hledger : w'.ledger = w.ledger)
    (hclaim : w'.locals.prequeuedClaim = w.locals.prequeuedClaim) : Remembers w w' := by
  obtain ⟨new, hnew⟩ := hlog
  refine ⟨fun e he => ?_, fun p hp => by rw [hothers]; exact hp, hclaim, fun id cid h => .inl ?_⟩
  · rw [hnew]
    exact List.mem_append_right _ he
  · unfold OnRecord
    rw [hledger]
    exact h

theorem Asks.remembers (h : Asks w w') : Remembers w w' :=
  remembers_of_same (h.log.imp (fun _ hnew => hnew.1)) h.others h.ledger h.intent.prequeuedClaim

/-- The operations of the others, one after the other. -/
theorem met_standing {id cid : String} :
    ∀ (ops : List Op) (s : Ledger), (∃ r ∈ s.queue, Standing id cid r) →
      (∃ r ∈ (ops.foldl Ledger.other s).queue, Standing id cid r) ∨
        ∃ p ∈ Ledger.met s ops, Ends id cid p.1 p.2 := by
  intro ops
  induction ops with
  | nil => exact fun s h => .inl h
  | cons op ops ih =>
      intro s h
      have hone : (∃ r ∈ (Ledger.other s op).queue, Standing id cid r) ∨ Ends id cid s op := by
        obtain ⟨r, hr, hstands⟩ := h
        unfold Ledger.other
        split
        · by_cases hstill : ∃ r' ∈ op.apply s.queue, Standing id cid r'
          · exact .inl hstill
          · exact .inr ⟨⟨r, hr, hstands, (hstands.step hr op).resolve_left hstill⟩,
              fun r' hr' hno => hstill ⟨r', hr', hno⟩⟩
        · exact .inl ⟨r, hr, hstands⟩
      rw [List.foldl_cons, Ledger.met]
      rcases hone with hone | hends
      · exact (ih _ hone).imp_right
          (fun ⟨p, hp, hends⟩ => ⟨p, List.mem_append_left _ hp, hends⟩)
      · exact .inr ⟨(s, op), List.mem_append_right _ (List.mem_singleton_self _), hends⟩

theorem Waits.remembers (h : Waits E w w') : Remembers w w' := by
  obtain ⟨ops, hledger, hothers⟩ := h.ledger
  refine ⟨fun e he => by rw [h.log]; exact he, fun p hp => ?_, by rw [h.locals], ?_⟩
  · rw [hothers]
    exact List.mem_append_right _ hp
  · intro id cid hstands
    unfold OnRecord ClosedBy
    rw [hledger, hothers]
    exact (met_standing ops w.ledger hstands).imp_right
      (fun ⟨p, hp, hends⟩ => ⟨p, List.mem_append_left _ hp, hends⟩)

section Steps

variable {α β : Type}

theorem remembers_pure (a : α) : Moves Remembers (pure a : Placing α) := Moves.pure Remembers.refl a

theorem remembers_throw (e : Raised) : Moves Remembers (throw e : Placing α) :=
  Moves.throw Remembers.refl e

theorem remembers_bind {x : Placing α} {f : α → Placing β} (hx : Moves Remembers x)
    (hf : ∀ a, Moves Remembers (f a)) : Moves Remembers (x >>= f) :=
  Moves.bind (fun _ _ _ h h' => h.trans h') hx hf

theorem remembers_looks {x : Placing α} (h : Moves Looks x) : Moves Remembers x :=
  h.weaken (fun _ _ h => h.asks.remembers)

theorem remembers_tryExcept {x : Placing α} {handler : Raised → Placing α}
    (hx : Moves Remembers x) (hh : ∀ e, Moves Remembers (handler e)) :
    Moves Remembers (tryExcept x handler) := by
  refine Moves.tryCatch (fun _ _ _ h h' => h.trans h') hx (fun e => ?_)
  split
  · exact hh e
  · exact remembers_throw e

theorem remembers_locked {body : World → α × World} (hbody : ∀ w, Remembers w (body w).2) :
    Moves Remembers (locked E body) := fun _ =>
  locked_post (fun w₁ hwaits => hwaits.remembers.trans (hbody w₁))
    (fun _ _ hwaits => hwaits.remembers) (fun w₁ _ hwaits => hwaits.remembers.trans (hbody w₁))

theorem remembers_writeSlot (event : World → Lock.Event) : Moves Remembers (writeSlot E event) :=
  remembers_locked (fun _ => remembers_of_same ⟨[_], rfl⟩ rfl rfl rfl)

/-- A write of the call, where it closes nothing. -/
theorem writeOutbox_remembers {op : World → Op} {granted : World → Option Record}
    {result : World → α} (h : ∀ w₁, Waits E w w₁ → ∀ r, ¬Closes (op w₁) r) :
    Post (fun _ w' => Remembers w w') (fun _ w' => Remembers w w')
      (writeOutbox E op granted result w) := by
  have hwrite (w₁ : World) (hwaits : Waits E w w₁) : Remembers w
      { w₁ with
        ledger := w₁.ledger.step (op w₁)
        log := .outbox (op w₁) (granted w₁) :: w₁.log } := by
    refine hwaits.remembers.trans
      ⟨fun e he => List.mem_cons_of_mem _ he, fun _ hp => hp, rfl, ?_⟩
    rintro id cid ⟨r, hr, hstands⟩
    exact .inl ((hstands.step hr (op w₁)).resolve_right (h w₁ hwaits r))
  exact locked_post hwrite (fun _ _ hwaits => hwaits.remembers) (fun w₁ _ hwaits => hwrite w₁ hwaits)

end Steps

/-! ## The renewed claim -/

theorem beginClaimedSubmit_standing {snap begun : Record} {now lease : ℚ} {pid : Nat}
    {start : Option String} {q : Queue} {cid : String} (hcid : snap.clientOrderId = some cid)
    (h : (beginClaimedSubmit snap now lease pid start q).1 = some begun) :
    ∃ r ∈ (Op.beginClaimedSubmit snap now lease pid start).apply q, Standing begun.id cid r := by
  obtain ⟨-, hsame⟩ := beginClaimedSubmit_granted h
  rcases beginClaimedSubmit_cases snap now lease pid start q with hb | ⟨st, r, -, hfind, hb⟩
  · rw [hb] at h
    cases h
  · rw [hb, Option.some.injEq] at h
    subst h
    refine ⟨beginRecord now lease pid st r, ?_, rfl, hsame.trans hcid,
      ⟨rfl, fun _ => .inl rfl⟩, fun hno => (by cases hno)⟩
    simp only [Op.apply, hb]
    exact Keyed.updateFirst_found hfind

/-- The claim that the call was granted for its order, with the client ID of both. -/
structure Granted (log : List Event) (call : OrderCall) (claim : Record) (cid : String) : Prop where
  written : ∃ snapshot now lease pid start,
    .outbox (.beginClaimedSubmit snapshot now lease pid start) (some claim) ∈ log
  claim : claim.clientOrderId = some cid
  sent : call.kwargs.get "client_order_id" = some cid

/-- The claim that the call holds stands for the order it is about to send. -/
def Claimed (w : World) (call : OrderCall) : Prop :=
  ∃ claim cid, w.locals.prequeuedClaim = some claim ∧ Granted w.log call claim cid ∧
    (OnRecord claim.id cid w ∨ ClosedBy claim.id cid w)

theorem Claimed.remembers {call : OrderCall} (h : Claimed w call) (h' : Remembers w w') :
    Claimed w' call := by
  obtain ⟨claim, cid, hclaim, hgranted, hstands⟩ := h
  obtain ⟨snapshot, now, lease, pid, start, hmem⟩ := hgranted.written
  refine ⟨claim, cid, h'.claim.trans hclaim,
    ⟨⟨snapshot, now, lease, pid, start, h'.log _ hmem⟩, hgranted.claim, hgranted.sent⟩, ?_⟩
  rcases hstands with hstands | hclosed
  · exact h'.standing _ _ hstands
  · exact .inr (hclosed.remembers h')

theorem beginSubmit_claims {claim : Record} {cid : String}
    (hclaim : w.locals.prequeuedClaim = some claim) (hcid : claim.clientOrderId = some cid)
    (h : beginSubmit E w = .ok () w') :
    ∃ begun, w'.locals.prequeuedClaim = some begun ∧ OnRecord begun.id cid w' := by
  unfold beginSubmit at h
  obtain ⟨l, w₁, hlocals, h⟩ := bind_ok h
  cases hlocals
  rw [hclaim] at h
  obtain ⟨granted, w₁, hwrite, h⟩ := bind_ok h
  unfold beginSection writeOutbox at hwrite
  obtain ⟨w₀, -, hgranted, rfl⟩ := locked_ok hwrite
  cases granted with
  | none => cases h
  | some begun =>
      cases h
      exact ⟨begun, rfl, beginClaimedSubmit_standing hcid hgranted.symm⟩

/-! ## After the submit -/

/-- Whether the call keeps a record of its own. -/
def Owned (E : Env) (c : Call) : Prop := c.callerOwnsRetry = false ∧ E.cfg.retryEnabled = true

/-- The variables tell of an order that was accepted, or may have been. -/
def Tells (w : World) : Prop :=
  w.locals.order.isSome = true ∨ (w.locals.submitAttempted = true ∧
    (w.locals.reason = some "submit_ambiguous" ∨
      w.locals.reason = some "response_without_order_id"))

/-- Each order that was sent is on record, and the variables tell of it unless it was refused. -/
structure Kept (E : Env) (c : Call) (w : World) : Prop where
  claimed : ∀ call answer, .placeOrder call answer ∈ w.log → Owned E c → Claimed w call
  tells : ∀ call answer, .placeOrder call answer ∈ w.log →
    Tells w ∨ ∃ reason, answer = .error (.refused reason)

/-- As long as nothing was sent. -/
theorem Kept.unsent (h : ∀ e ∈ w.log, e.quiet = true) :
    Kept E c w where
  claimed := fun _ _ hmem => by cases h _ hmem
  tells := fun _ _ hmem => by cases h _ hmem

theorem Unsent.kept (h : Unsent w) : Kept E c w :=
  .unsent h.quiet

/-- A raised refusal is the provider's, if an order was sent. -/
def Fails (E : Env) (c : Call) (e : Raised) (w : World) : Prop :=
  Kept E c w ∧ ∀ reason, e = .refused reason → ∀ call answer, .placeOrder call answer ∈ w.log →
    answer = .error (.refused reason)

theorem Unsent.fails (h : Unsent w) (e : Raised) :
    Fails E c e w :=
  ⟨h.kept, fun _ _ _ _ hmem => by cases h.quiet _ hmem⟩

/-- What the cooldown does on the way out. -/
theorem Kept.leaves (h : Kept E c w) (hremembers : Remembers w w') (hprepares : Prepares w w')
    (hreason : w'.locals.reason = w.locals.reason) : Kept E c w' where
  claimed := by
    intro call answer hmem howned
    obtain ⟨new, hnew, hquiet⟩ := hprepares.log
    rw [hnew] at hmem
    rcases List.mem_append.mp hmem with hmem | hmem
    · cases hquiet _ hmem
    · exact (h.claimed call answer hmem howned).remembers hremembers
  tells := by
    intro call answer hmem
    obtain ⟨new, hnew, hquiet⟩ := hprepares.log
    rw [hnew] at hmem
    rcases List.mem_append.mp hmem with hmem | hmem
    · cases hquiet _ hmem
    · refine (h.tells call answer hmem).imp_left (fun htells => ?_)
      unfold Tells
      rw [hprepares.order, hprepares.submitAttempted, hreason]
      exact htells

theorem Fails.failure (h : Kept E c w) (failure : Failure) : Fails E c failure.raised w :=
  ⟨h, fun reason he => absurd he (failure.raised_ne_refused reason)⟩

/-- A section of the cooldown leaves the local variables alone. -/
theorem writeSlot_locals (event : World → Lock.Event) :
    Post (fun _ w' => w'.locals = w.locals) (fun _ w' => w'.locals = w.locals)
      (writeSlot E event w) :=
  locked_post (fun _ hwaits => hwaits.locals) (fun _ _ hwaits => hwaits.locals)
    (fun _ _ hwaits => hwaits.locals)

theorem writeSlot_kept {event : World → Lock.Event} (h : Kept E c w) :
    Post (fun _ w' => Kept E c w') (fun e w' => Fails E c e w') (writeSlot E event w) := by
  have hlocals : Post _ _ (writeSlot E event w) := writeSlot_locals event
  cases hrun : writeSlot E event w with
  | ok a w' =>
      rw [hrun] at hlocals
      have hl : w'.locals = w.locals := hlocals
      exact h.leaves ((remembers_writeSlot event).ok hrun) ((prepares_writeSlot event).ok hrun)
        (by rw [hl])
  | error e w' =>
      rw [hrun] at hlocals
      have hl : w'.locals = w.locals := hlocals
      obtain ⟨failure, rfl⟩ := locked_error hrun
      exact .failure (h.leaves ((remembers_writeSlot event).error hrun)
        ((prepares_writeSlot event).error hrun) (by rw [hl])) failure

theorem submit_kept {slot : Nat} {permitPrice : Option ℚ} (hunsent : Unsent w)
   
    (hclaimed : Owned E c → Claimed w (orderCall E c w.locals permitPrice)) :
    Post (fun _ w' => Kept E c w') (Fails E c) (submit E c slot permitPrice w) := by
  set sent := orderCall E c w.locals permitPrice with hsent
  unfold submit
  refine Post.bind (fun e w' h => by cases h) (fun _ w₁ h => ?_)
  cases h
  refine Post.bind (fun e w' h => by cases h) (fun l w₁ h => ?_)
  cases h
  -- the order of the log is the one that was sent, and its answer the one that was given
  have honly {answer answer' : Answer Native} {call : OrderCall}
      (hmem : .placeOrder call answer' ∈ Event.placeOrder sent answer :: w.log) :
      call = sent ∧ answer' = answer := by
    rcases List.mem_cons.mp hmem with heq | hmem
    · cases heq
      exact ⟨rfl, rfl⟩
    · cases hunsent.quiet _ hmem
  have hkept (answer : Answer Native) (w₁ : World)
      (hothers : w₁.others = w.others) (hledger : w₁.ledger = w.ledger)
      (hclaim : w₁.locals.prequeuedClaim = w.locals.prequeuedClaim)
      (hlog : w₁.log = .placeOrder sent answer :: w.log)
      (htells : Tells w₁ ∨ ∃ reason, answer = .error (.refused reason)) : Kept E c w₁ := by
    have hremembers : Remembers w w₁ := remembers_of_same ⟨[_], hlog⟩ hothers hledger hclaim
    refine ⟨?_, ?_⟩
    · intro call answer' hmem howned
      rw [hlog] at hmem
      obtain ⟨rfl, -⟩ := honly hmem
      exact (hclaimed howned).remembers hremembers
    · intro call answer' hmem
      rw [hlog] at hmem
      obtain ⟨-, rfl⟩ := honly hmem
      exact htells
  refine Post.bind (fun e w' h => ?_) (fun response w' h => ?_)
  · unfold ask at h
    split at h
    · cases h
    · cases h
      refine ⟨hkept _ _ rfl rfl rfl rfl (.inl (.inr ⟨rfl, .inl rfl⟩)), ?_⟩
      intro reason he call answer hmem
      obtain ⟨-, rfl⟩ := honly hmem
      rw [he]
  · obtain ⟨-, rfl⟩ := ask_ok h
    by_cases haccepted : acceptedOrderPayload response = true
    · rw [if_pos haccepted]
      refine Post.bind (fun e w' h => by cases h) (fun _ w₂ h => ?_)
      cases h
      have haccepts : Kept E c { w with
          log := .placeOrder sent (.ok response) :: w.log
          locals := { w.locals with
            reason := none, order := some response, submitAttempted := true,
            slotCommitted := true } } :=
        hkept (.ok response) _ rfl rfl rfl rfl (.inl (.inl rfl))
      have hslot : Post _ _ (writeSlot E (fun _ => .commit slot (commitFields response)) _) :=
        writeSlot_kept haccepts
      exact Post.bind (fun e w' h => hslot.error h) (fun _ w' h => hslot.ok h)
    · rw [if_neg haccepted]
      refine Post.bind (fun e w' h => by cases h) (fun _ w₂ h => ?_)
      cases h
      exact hkept (.ok response) _ rfl rfl rfl rfl (.inl (.inr ⟨rfl, .inr rfl⟩))

/-! ## The stages in their order -/

theorem dispatch_kept {slot : Nat} {state : Option OrderState} {constraint : Option (ℚ × ℚ)}
    {reference : Option ℚ} (h : Unsent w) :
    Post (fun _ w' => Kept E c w') (Fails E c)
      (dispatch E c slot state constraint reference w) := by
  -- before the submit a stage may stop the call anywhere
  have hstops {w₁ : World} (hon : Prepares w w₁) (e : Raised) : Fails E c e w₁ :=
    (h.prepares hon).fails e
  unfold dispatch
  refine Post.bind (fun e w₁ h₁ => ?_) (fun _ w₁ h₁ => ?_)
  · exact hstops ((executionGate_looks E).error h₁).asks.prepares e
  have hon₁ := ((executionGate_looks E).ok h₁).asks.prepares
  refine Post.bind (fun e w₂ h₂ => ?_) (fun queued w₂ h₂ => ?_)
  · exact hstops (hon₁.trans ((prequeue_prepares E c).error h₂)) e
  have hon₂ := hon₁.trans ((prequeue_prepares E c).ok h₂)
  cases queued with
  | none => exact (hstops hon₂ .failed).1
  | some queued =>
  obtain ⟨-, hpersisted, -⟩ := prequeue_ok h₂
  refine Post.bind (fun e w₃ h₃ => ?_) (fun permitPrice w₃ h₃ => ?_)
  · exact hstops (hon₂.trans ((permit_asks E c state).error h₃).prepares) e
  have hasks₃ := (permit_asks E c state).ok h₃
  have hon₃ := hon₂.trans hasks₃.prepares
  refine Post.bind (fun e w₄ h₄ => ?_) (fun checked w₄ h₄ => ?_)
  · exact hstops (hon₃.trans
      ((finalMarketCheck_looks E c constraint reference).error h₄).asks.prepares) e
  have hlooks₄ := (finalMarketCheck_looks E c constraint reference).ok h₄
  have hon₄ := hon₃.trans hlooks₄.asks.prepares
  cases checked with
  | none => exact (hstops hon₄ .failed).1
  | some checked =>
  refine Post.bind (fun e w₅ h₅ => ?_) (fun _ w₅ h₅ => ?_)
  · exact hstops (hon₄.trans ((executionGate_looks E).error h₅).asks.prepares) e
  have hlooks₅ := (executionGate_looks E).ok h₅
  have hon₅ := hon₄.trans hlooks₅.asks.prepares
  refine Post.bind (fun e w₆ h₆ => ?_) (fun _ w₆ h₆ => ?_)
  · exact hstops (hon₅.trans ((beginSubmit_prepares E).error h₆)) e
  have hon₆ := hon₅.trans ((beginSubmit_prepares E).ok h₆)
  refine submit_kept (h.prepares hon₆) (fun howned => ?_)
  obtain ⟨snapshot, hsnapshot, hpersisted⟩ := hpersisted howned.1 howned.2
  have hclaim : w₅.locals.prequeuedClaim = some snapshot := by
    rw [hlooks₅.asks.intent.prequeuedClaim, hlooks₄.asks.intent.prequeuedClaim,
      hasks₃.intent.prequeuedClaim, hsnapshot]
  have hkwargs : w₆.locals.kwargs = w₂.locals.kwargs := by
    obtain ⟨⟨-, -, -, hkwargs₆⟩, -⟩ := beginSubmit_ok h₆
    rw [hkwargs₆, hlooks₅.asks.intent.kwargs, hlooks₄.asks.intent.kwargs, hasks₃.intent.kwargs]
  cases hcid : snapshot.clientOrderId with
  | none =>
      have htruthy := hpersisted.identified
      rw [hcid] at htruthy
      cases htruthy
  | some cid =>
      obtain ⟨begun, hbegun, hstands⟩ := beginSubmit_claims hclaim hcid h₆
      obtain ⟨-, hgranted, -⟩ := beginSubmit_ok h₆
      obtain ⟨begun', hbegun', hrenewed⟩ := hgranted snapshot hclaim
      rw [hbegun, Option.some.injEq] at hbegun'
      subst hbegun'
      obtain ⟨now, lease, pid, start, earlier, hlog⟩ := hrenewed.written
      refine ⟨begun, cid, hbegun, ⟨?_, hrenewed.clientOrderId.trans hcid, ?_⟩, .inl hstands⟩
      · exact ⟨snapshot, now, lease, pid, start, by rw [hlog]; exact List.mem_cons_self⟩
      · show w₆.locals.kwargs.get _ = _
        rw [hkwargs, hpersisted.clientOrderId, hcid]

theorem leaveSlot_kept {slot : Nat} (h : Kept E c w) :
    Post (fun _ w' => Kept E c w') (Fails E c) (leaveSlot E slot w) := by
  unfold leaveSlot
  refine Post.bind (fun e w' h => by cases h) (fun l w₁ h₁ => ?_)
  cases h₁
  split
  · exact h
  · have hslot : Post _ _ (writeSlot E (fun _ => .leave slot) w) := writeSlot_kept h
    exact Post.bind (fun e w' h => hslot.error h) (fun _ w' h => hslot.ok h)

theorem tradeSlot_kept {body : Nat → Placing (Option Native)} (h : Unsent w)
   
    (hbody : ∀ slot w₁, Prepares w w₁ →
      Post (fun _ w' => Kept E c w') (Fails E c) (body slot w₁)) :
    Post (fun _ w' => Kept E c w') (Fails E c) (tradeSlot E c body w) := by
  unfold tradeSlot
  refine Post.bind (fun e w₁ h₁ => ?_) (fun slot w₁ h₁ => ?_)
  · have hon := (prepares_writeSlot (E := E) (fun w => enterEvent E c w)).error h₁
    exact (h.prepares hon).fails e
  have hon := (prepares_writeSlot (E := E) (fun w => enterEvent E c w)).ok h₁
  cases slot with
  | none =>
      have hgiveUp : Prepares w₁ { w₁ with locals := { w₁.locals with reason := some "cooldown" } } :=
        (looks_reason (some "cooldown") w₁).asks.prepares
      exact (h.prepares (hon.trans hgiveUp)).kept
  | some slot =>
      refine tryFinally_post (hbody slot w₁ hon) (fun a w₂ ha => leaveSlot_kept ha) ?_
      intro e w₂ he
      have hleave : Post _ _ (leaveSlot E slot w₂) := leaveSlot_kept he.1
      cases hrun : leaveSlot E slot w₂ with
      | ok _ w₃ =>
          rw [hrun] at hleave
          have hprepares := (leaveSlot_prepares slot).ok hrun
          refine ⟨hleave, fun reason hreason call answer hmem => ?_⟩
          obtain ⟨new, hnew, hquiet⟩ := hprepares.log
          rw [hnew] at hmem
          rcases List.mem_append.mp hmem with hmem | hmem
          · cases hquiet _ hmem
          · exact he.2 reason hreason call answer hmem
      | error e' w₃ =>
          rw [hrun] at hleave
          exact hleave

theorem body_kept (h : Unsent w) :
    Post (fun _ w' => Kept E c w') (Fails E c) (body E c w) := by
  -- up to the slot the call only asks, so whatever stops it has sent nothing
  have hstops {w₁ : World} (hon : Prepares w w₁) (e : Raised) : Fails E c e w₁ :=
    (h.prepares hon).fails e
  unfold body
  refine Post.bind (fun e w₁ h₁ => ?_) (fun constraint w₁ h₁ => ?_)
  · exact hstops ((retryConstraint_looks c).error h₁).asks.prepares e
  have hon₁ := ((retryConstraint_looks c).ok h₁).asks.prepares
  refine Post.bind (fun e w₂ h₂ => ?_) (fun state w₂ h₂ => ?_)
  · exact hstops (hon₁.trans ((prepareOrderState_looks E c).error h₂).asks.prepares) e
  have hon₂ := hon₁.trans ((prepareOrderState_looks E c).ok h₂).asks.prepares
  refine Post.bind (fun e w₃ h₃ => ?_) (fun _ w₃ h₃ => ?_)
  · exact hstops (hon₂.trans ((preflightOther_looks E c).error h₃).asks.prepares) e
  have hon₃ := hon₂.trans ((preflightOther_looks E c).ok h₃).asks.prepares
  refine Post.bind (fun e w₄ h₄ => ?_) (fun _ w₄ h₄ => ?_)
  · exact hstops (hon₃.trans ((smartPrice_asks E c).error h₄).prepares) e
  have hon₄ := hon₃.trans ((smartPrice_asks E c).ok h₄).prepares
  refine Post.bind (fun e w₅ h₅ => ?_) (fun reference w₅ h₅ => ?_)
  · exact hstops (hon₄.trans ((policyGuards_looks E c).error h₅).asks.prepares) e
  have hon₅ := hon₄.trans ((policyGuards_looks E c).ok h₅).asks.prepares
  cases reference with
  | none => exact (hstops hon₅ .failed).1
  | some reference =>
  refine Post.bind (fun e w₆ h₆ => ?_) (fun price w₆ h₆ => ?_)
  · exact hstops (hon₅.trans ((quantityPrice_looks E c).error h₆).asks.prepares) e
  have hon₆ := hon₅.trans ((quantityPrice_looks E c).ok h₆).asks.prepares
  cases price with
  | none => exact (hstops hon₆ .failed).1
  | some price =>
  refine Post.bind (fun e w₇ h₇ => ?_) (fun decided w₇ h₇ => ?_)
  · exact hstops (hon₆.trans ((quantityGuard_asks E c price).error h₇).prepares) e
  have hon₇ := hon₆.trans ((quantityGuard_asks E c price).ok h₇).prepares
  cases decided with
  | none => exact (hstops hon₇ .failed).1
  | some decided =>
  refine Post.bind (fun e w₈ h₈ => ?_) (fun go w₈ h₈ => ?_)
  · exact hstops (hon₇.trans ((trendGate_looks E c).error h₈).asks.prepares) e
  have hon₈ := hon₇.trans ((trendGate_looks E c).ok h₈).asks.prepares
  cases go with
  | none => exact (hstops hon₈ .failed).1
  | some go =>
  refine Post.bind (fun e w₉ h₉ => ?_) (fun early w₉ h₉ => ?_)
  · exact hstops (hon₈.trans ((marketProfit_looks E c price reference).error h₉).asks.prepares) e
  have hon₉ := hon₈.trans ((marketProfit_looks E c price reference).ok h₉).asks.prepares
  cases early with
  | none => exact (hstops hon₉ .failed).1
  | some early =>
  refine tradeSlot_kept (h.prepares hon₉) (fun slot w₁₀ hon => ?_)
  have hon₁₀ := hon₉.trans hon
  exact dispatch_kept (h.prepares hon₁₀)

/-! ## Behind the handlers -/

/-- A handler changes the variables only after a refusal. -/
theorem handle_kept {e : Raised} (h : Fails E c e w) :
    Post (fun _ w' => Kept E c w') (fun _ _ => False) (handle e w) := by
  -- any other exception leaves the reason that the submit has set
  have hother : Kept E c { w with locals := { w.locals with
      reason := some (orElse w.locals.reason "guard_check_failed") } } := by
    refine ⟨h.1.claimed, fun call answer hmem => ?_⟩
    refine (h.1.tells call answer hmem).imp_left (fun htells => ?_)
    rcases htells with horder | ⟨hattempted, hreason⟩
    · exact .inl horder
    · refine .inr ⟨hattempted, ?_⟩
      rcases hreason with hreason | hreason
      · left
        simp only [hreason]
        rfl
      · right
        simp only [hreason]
        rfl
  cases e with
  | refused reason =>
      exact ⟨h.1.claimed,
        fun call answer hmem => .inr ⟨reason, h.2 reason rfl call answer hmem⟩⟩
  | failed => exact hother
  | interrupted => exact hother
  | crashed => exact hother

theorem handled_kept (h : Unsent w) :
    Post (fun _ w' => Kept E c w') (fun _ w' => Kept E c w')
      ((tryCatch (body E c) (fun e => if e.caught then handle e else throw e) :
        Placing (Option Native)) w) := by
  have hbody : Post _ _ (body E c w) := body_kept h
  show Post _ _ (EStateM.tryCatch (body E c) (fun e => if e.caught then handle e else throw e) w)
  unfold EStateM.tryCatch
  cases hrun : body E c w with
  | ok a w' => exact hbody.ok hrun
  | error e w' =>
      have hfails : Fails E c e w' := hbody.error hrun
      show Post _ _ ((if e.caught then handle e else throw e : Placing (Option Native)) w')
      split
      · have hhandle := handle_kept hfails
        cases hh : handle e w' with
        | ok a w'' => exact hhandle.ok hh
        | error e' w'' => exact (hhandle.error hh).elim
      · exact hfails.1

/-! ## `finally` -/

/-- A completion that accepts the order closes no record. -/
theorem not_closes_accepted {claim : Record} {order : Native} {w₁ : World} (r : Record) :
    ¬Closes (.completeClaim claim (acceptedArgs E order w₁)) r := by
  intro h
  cases h with
  | completed _ hcloses =>
      rcases hcloses with h | h | h
      · cases h
      · cases h
      · cases h

/-- Nor does one that reports a submit whose outcome is not known. -/
theorem not_closes_unknown {claim : Record} {w₁ : World} (horder : w₁.locals.order = none)
    (htells : Tells w₁) (r : Record) : ¬Closes (.completeClaim claim (failureArgs E w₁)) r := by
  rcases htells with hsome | ⟨hattempted, hreason⟩
  · rw [horder] at hsome
    cases hsome
  have hterminal : w₁.locals.terminalRefusal = false := by
    simp [Locals.terminalRefusal, hattempted]
  have houtcome : w₁.locals.claimOutcome = .deferred ∨ w₁.locals.claimOutcome = .failure := by
    unfold Locals.claimOutcome
    rw [hterminal]
    rcases hreason with hreason | hreason
    · rw [hreason]
      simp only [Bool.false_or]
      rw [if_neg (by decide)]
      split
      · exact .inl rfl
      · exact .inr rfl
    · rw [hreason]
      simp only [Bool.false_or]
      rw [if_neg (by decide)]
      split
      · exact .inl rfl
      · exact .inr rfl
  intro h
  cases h with
  | completed _ hcloses =>
      simp only [failureArgs, hattempted, if_true] at hcloses
      rcases hcloses with h | h | h
      · rcases houtcome with ho | ho <;> rw [ho] at h <;> cases h
      · rcases houtcome with ho | ho <;> rw [ho] at h <;> cases h
      · cases h

theorem completeAcceptedClaim_remembers (claim : Record) (order : Native) :
    ∀ n, Moves Remembers (completeAcceptedClaim E claim order n)
  | 0 => remembers_pure _
  | n + 1 => by
      unfold completeAcceptedClaim
      refine remembers_bind (remembers_tryExcept
        (fun _ => writeOutbox_remembers (fun _ _ => not_closes_accepted))
        (fun _ => remembers_pure _)) (fun done => ?_)
      split
      · exact remembers_pure _
      · refine remembers_bind (remembers_tryExcept (remembers_locked (fun w => .refl w))
          (fun _ => remembers_pure _)) (fun durable => ?_)
        split
        · exact remembers_pure _
        · exact completeAcceptedClaim_remembers claim order n

theorem trackAccepted_remembers (order : Native) : Moves Remembers (trackAccepted E order) := by
  unfold trackAccepted
  refine remembers_tryExcept (remembers_bind (remembers_looks looks_locals) (fun l => ?_))
    (fun _ => remembers_pure _)
  split
  · exact remembers_pure _
  · exact remembers_bind (completeAcceptedClaim_remembers _ _ _) (fun _ => remembers_pure _)

/-- `try … except Exception: pass`. -/
theorem tryExcept_pass {R : World → World → Prop} {x : Placing Unit}
    (h : Post (fun _ w' => R w w') (fun _ w' => R w w') (x w)) :
    Post (fun _ w' => R w w') (fun _ w' => R w w') (tryExcept x (fun _ => pure ()) w) := by
  show Post _ _ (EStateM.tryCatch x (fun e => if e.caught then pure () else throw e) w)
  unfold EStateM.tryCatch
  cases hrun : x w with
  | ok a w' => exact h.ok hrun
  | error e w' =>
      show Post _ _ ((if e.caught then pure () else throw e : Placing Unit) w')
      split
      · exact h.error hrun
      · exact h.error hrun

theorem trackFailure_remembers {claim : Record} (hclaim : w.locals.prequeuedClaim = some claim)
    (horder : w.locals.order = none) (htells : Tells w) :
    Post (fun _ w' => Remembers w w') (fun _ w' => Remembers w w') (trackFailure E c w) := by
  unfold trackFailure
  refine tryExcept_pass ?_
  split
  · refine Post.bind (fun e w' h => by cases h) (fun l w₁ h => ?_)
    cases h
    rw [hclaim]
    have hwrite : Post (fun _ w' => Remembers w w') (fun _ w' => Remembers w w')
        (complete E claim (failureArgs E) w) := by
      refine writeOutbox_remembers (fun w₁ hwaits => not_closes_unknown ?_ ?_)
      · rw [hwaits.locals]
        exact horder
      · unfold Tells
        rw [hwaits.locals]
        exact htells
    exact Post.bind (fun e w' h => hwrite.error h) (fun _ w' h => hwrite.ok h)
  · exact Remembers.refl w

/-- **Settling closes no record of an order that may be at its venue.** -/
theorem settle_remembers (htells : Tells w) (hclaim : w.locals.prequeuedClaim.isSome = true) :
    Post (fun _ w' => Remembers w w') (fun _ w' => Remembers w w') (settle E c w) := by
  unfold settle
  refine Post.bind (fun e w' h => by cases h) (fun l w₁ h => ?_)
  cases h
  refine Post.bind (fun e w' h => ?_) (fun _ w₁ h => ?_)
  · unfold writeReport at h
    split at h <;> cases h
  have hsame : Remembers w w₁ ∧ w₁.locals = w.locals := by
    unfold writeReport at h
    split at h
    · cases h
      exact ⟨remembers_of_same ⟨[], rfl⟩ rfl rfl rfl, rfl⟩
    · cases h
      exact ⟨.refl w, rfl⟩
  have hthen (x : Placing Unit) (hx : Post (fun _ w' => Remembers w₁ w')
      (fun _ w' => Remembers w₁ w') (x w₁)) :
      Post (fun _ w' => Remembers w w') (fun _ w' => Remembers w w') (x w₁) := by
    cases hrun : x w₁ with
    | ok a w' => exact hsame.1.trans (hx.ok hrun)
    | error e w' => exact hsame.1.trans (hx.error hrun)
  cases horder : w.locals.order with
  | some order =>
      refine hthen _ ?_
      split
      · exact .refl w₁
      · exact trackAccepted_remembers order w₁
  | none =>
      refine hthen _ ?_
      simp only
      split
      · obtain ⟨claim, hclaim⟩ := Option.isSome_iff_exists.mp hclaim
        have hclaim₁ : w₁.locals.prequeuedClaim = some claim := by rw [hsame.2, hclaim]
        refine trackFailure_remembers hclaim₁ ?_ ?_
        · rw [hsame.2, horder]
        · unfold Tells
          rw [hsame.2]
          exact htells
      · exact Remembers.refl w₁

/-! ## The main result -/

/-- Each order that its provider did not refuse is on record, in the record whose claim the call was
granted for it and under the client ID it was sent with, unless an operation of another process met
that record while the call went on and closed it. -/
def Unforgotten (E : Env) (c : Call) (w : World) : Prop :=
  Owned E c → .internal (.ok true) ∉ w.log → ∀ call answer, .placeOrder call answer ∈ w.log →
    (∀ reason, answer ≠ .error (.refused reason)) →
    ∃ claim cid, Granted w.log call claim cid ∧
      (OnRecord claim.id cid w ∨ ClosedBy claim.id cid w)

theorem Kept.unforgotten (h : Kept E c w) : Unforgotten E c w := by
  intro howned _ call answer hmem _
  obtain ⟨claim, cid, -, hgranted, hstands⟩ := h.claimed call answer hmem howned
  exact ⟨claim, cid, hgranted, hstands⟩

/-- What follows the handlers sends nothing, and closes only what was refused. -/
theorem Kept.settled (h : Kept E c w) (hprepares : ∀ e ∈ w'.log, e ∈ w.log ∨ e.quiet = true)
    (hsettled : Tells w → w.locals.prequeuedClaim.isSome = true → Remembers w w') :
    Unforgotten E c w' := by
  intro howned _ call answer hmem hanswer
  have hmem₀ : .placeOrder call answer ∈ w.log := by
    rcases hprepares _ hmem with hmem | hquiet
    · exact hmem
    · cases hquiet
  rcases h.tells call answer hmem₀ with htells | ⟨reason, hrefused⟩
  · obtain ⟨claim, cid, hclaim, hrest⟩ := h.claimed call answer hmem₀ howned
    have hremembers := hsettled htells (by rw [hclaim]; rfl)
    obtain ⟨claim, cid, -, hgranted, hstands⟩ :=
      Claimed.remembers ⟨claim, cid, hclaim, hrest⟩ hremembers
    exact ⟨claim, cid, hgranted, hstands⟩
  · exact absurd hrefused (hanswer reason)

theorem settle_unforgotten (h : Kept E c w) :
    Post (fun _ w' => Unforgotten E c w') (fun _ w' => Unforgotten E c w')
      (settle E c w) := by
  have hpost := settle_post (E := E) (c := c) (w := w)
  have hlog {w' : World} (hprepares : Prepares { w with
      context := if c.withContext then some w.locals.report else w.context } w') :
      ∀ e ∈ w'.log, e ∈ w.log ∨ e.quiet = true := by
    obtain ⟨new, hnew, hquiet⟩ := hprepares.log
    intro e he
    rw [hnew] at he
    exact (List.mem_append.mp he).symm.imp_right (hquiet e)
  cases hrun : settle E c w with
  | ok a w' =>
      exact h.settled (hlog (hpost.ok hrun)) (fun ht hc => (settle_remembers ht hc).ok hrun)
  | error e w' =>
      exact h.settled (hlog (hpost.error hrun)) (fun ht hc => (settle_remembers ht hc).error hrun)

theorem guardedPlace_unforgotten (h : Unsent w) :
    Post (fun _ w' => Unforgotten E c w') (fun _ w' => Unforgotten E c w')
      (guardedPlace E c w) := by
  have hhandled : Post _ _ _ := handled_kept (E := E) (c := c) h
  unfold guardedPlace tryFinally
  cases hrun : (tryCatch (body E c) (fun e => if e.caught then handle e else throw e) :
      Placing (Option Native)) w with
  | ok a w₁ =>
      have hsettle := settle_unforgotten (hhandled.ok hrun)
      simp only
      cases hlast : settle E c w₁ with
      | ok _ w' => exact hsettle.ok hlast
      | error e w' => exact hsettle.error hlast
  | error e w₁ =>
      have hkept : Kept E c w₁ := hhandled.error hrun
      simp only
      split
      · exact hkept.unforgotten
      · have hsettle := settle_unforgotten hkept
        cases hlast : settle E c w₁ with
        | ok _ w' => exact hsettle.ok hlast
        | error e' w' => exact hsettle.error hlast

/-- **An order that was sent is never forgotten.** Wherever a call ends, also when it raises or its
process stops, the order that it may have put at the venue is in the outbox, under the client ID it
was sent with and with no permission to discard it, unless another process has closed its record. -/
theorem place_remembers (E : Env) (c : Call) (w : World) :
    Post (fun _ w' => Unforgotten E c w') (fun _ w' => Unforgotten E c w')
      (place E c (w.start c)) := by
  have hquiet {w' : World} (h : Prepares (w.start c) w') : Unforgotten E c w' :=
    (((unsent_start c w).prepares h).kept).unforgotten
  have hearly {reason : String} {w₁ : World} (h : Prepares (w.start c) w₁) :
      Post (fun _ w' => Unforgotten E c w') (fun _ w' => Unforgotten E c w')
        (refuseEarly c reason w₁) := by
    unfold refuseEarly writeReport
    cases c.withContext with
    | true => exact (Kept.unsent ((unsent_start c w).prepares h).quiet).unforgotten
    | false => exact hquiet h
  unfold place
  split
  · exact hearly (.refl _)
  have hgate := readGate_post (E := E) (w := w.start c)
  refine Post.bind (fun e w₁ h₁ => ?_) (fun on w₁ h₁ => ?_)
  · exact hquiet (hgate.error h₁).1.asks.prepares
  have hon₁ := (hgate.ok h₁).1.asks.prepares
  cases on with
  | none => exact hearly hon₁
  | some on =>
  cases on with
  | false => exact hearly hon₁
  | true =>
  have hask : Moves Looks (ask E.provider.guardsInternally Event.internal) :=
    looks_ask (fun _ => rfl)
  refine Post.bind (fun e w₂ h₂ => ?_) (fun internal w₂ h₂ => ?_)
  · exact hquiet (hon₁.trans (hask.error h₂).asks.prepares)
  have hon₂ := hon₁.trans (hask.ok h₂).asks.prepares
  obtain ⟨-, hw₂⟩ := ask_ok h₂
  cases internal with
  | false => exact guardedPlace_unforgotten ((unsent_start c w).prepares hon₂)
  | true =>
      simp only [if_true]
      split
      · exact hearly hon₂
      · -- the provider guards the order itself
        have hinternal : .internal (.ok true) ∈ w₂.log := by
          rw [hw₂]
          exact List.mem_cons_self
        refine Post.bind (fun e w₃ h₃ => ?_) (fun response w₃ h₃ => ?_)
        · intro _ hnot
          unfold ask at h₃
          split at h₃
          · cases h₃
          · cases h₃
            exact absurd (List.mem_cons_of_mem _ hinternal) hnot
        · intro _ hnot
          obtain ⟨-, rfl⟩ := ask_ok h₃
          exact absurd (List.mem_cons_of_mem _ hinternal) hnot

end TradingFleet.Placement
