import TradingFleet.Placement.Sends

set_option autoImplicit false

/-! # What is reported

The handlers and the `finally` of `place`. A call sends at most one order, and that one was cleared
or handed over to a provider with guards of its own (`place_sends_cleared`); what it reports about the
submit is what the provider answered (`place_reports`). -/

namespace TradingFleet.Placement

open TradingFleet.Hoare TradingFleet.Text TradingFleet.Outbox TradingFleet.Lifecycle

variable {E : Env} {c : Call} {w w' : World}

/-! ## Behind the handlers -/

/-- The variables that `finally` reads tell what was sent and answered. -/
inductive Ended (E : Env) (c : Call) (w : World) : Prop
  | unsent (h : Unsent w)
  | sent (call : OrderCall) (answer : Answer Native) (h : Dispatched E c w.log call answer)
      (order : w.locals.order = acceptedOf answer)
      (attempted : w.locals.submitAttempted = true ∨
        ∃ reason, answer = .error (.refused reason))

theorem Returns.ended {a : Option Native} (h : Returns E c a w) :
    Ended E c w ∧ a = w.locals.order := by
  rcases h with ⟨hunsent, rfl⟩ | ⟨call, answer, hsent, rfl⟩
  · exact ⟨.unsent hunsent, hunsent.order.symm⟩
  · exact ⟨.sent call answer hsent.dispatched hsent.order (.inl hsent.submitAttempted),
      hsent.order.symm⟩

theorem Raises.ended {e : Raised} (h : Raises E c e w) : Ended E c w := by
  rcases h with hunsent | ⟨call, answer, hsent, -⟩
  · exact .unsent hunsent
  · exact .sent call answer hsent.dispatched hsent.order (.inl hsent.submitAttempted)

/-- A handler returns `None`, and keeps what was sent apart from what was refused. -/
theorem handle_post {e : Raised} (h : Raises E c e w) :
    Post (fun a w' => Ended E c w' ∧ a = none) (fun _ _ => False) (handle e w) := by
  have hfailed (reason : Option String) :
      Ended E c { w with locals := { w.locals with reason := reason } } := by
    rcases h with hunsent | ⟨call, answer, hsent, -⟩
    · exact .unsent ⟨hunsent.quiet, hunsent.order, hunsent.submitAttempted, hunsent.slotCommitted⟩
    · exact .sent call answer hsent.dispatched hsent.order (.inl hsent.submitAttempted)
  cases e with
  | refused reason =>
      refine ⟨?_, rfl⟩
      rcases h with hunsent | ⟨call, answer, hsent, hrefused⟩
      · exact .unsent ⟨hunsent.quiet, hunsent.order, rfl, hunsent.slotCommitted⟩
      · exact .sent call answer hsent.dispatched hsent.order (.inr ⟨reason, hrefused reason rfl⟩)
  | failed => exact ⟨hfailed _, rfl⟩
  | interrupted => exact ⟨hfailed _, rfl⟩
  | crashed => exact ⟨hfailed _, rfl⟩

/-- The value that `place` returns is the order it knows of, unless a handler lost it. -/
def Handled (E : Env) (c : Call) (a : Option Native) (w : World) : Prop :=
  Ended E c w ∧ (a = none ∨ a = w.locals.order)

theorem handled_post (h : Unsent w) (hpermit : w.locals.cachePermit = c.cachePermit) :
    Post (Handled E c) (fun _ w' => Ended E c w')
      ((tryCatch (body E c) (fun e => if e.caught then handle e else throw e) :
        Placing (Option Native)) w) := by
  have hbody : Post (Returns E c) (Raises E c) (body E c w) := body_sends h hpermit
  show Post _ _ (EStateM.tryCatch (body E c) (fun e => if e.caught then handle e else throw e) w)
  unfold EStateM.tryCatch
  cases hrun : body E c w with
  | ok a w' =>
      rw [hrun] at hbody
      obtain ⟨hended, ha⟩ := hbody.ended
      exact ⟨hended, .inr ha⟩
  | error e w' =>
      rw [hrun] at hbody
      show Post _ _ ((if e.caught then handle e else throw e : Placing (Option Native)) w')
      split
      · have hhandle := handle_post hbody
        cases hh : handle e w' with
        | ok a w'' =>
            rw [hh] at hhandle
            exact ⟨hhandle.1, .inl hhandle.2⟩
        | error e' w'' =>
            rw [hh] at hhandle
            exact hhandle.elim
      · exact hbody.ended

/-! ## `finally` -/

theorem complete_prepares (claim : Record) (args : World → CompleteArgs) :
    Moves Prepares (complete E claim args) := prepares_writeOutbox _ _ _

theorem completeAcceptedClaim_prepares (claim : Record) (order : Native) :
    ∀ n, Moves Prepares (completeAcceptedClaim E claim order n)
  | 0 => prepares_pure _
  | n + 1 => by
      unfold completeAcceptedClaim
      refine prepares_bind
        (prepares_tryExcept (complete_prepares _ _) (fun _ => prepares_pure _)) (fun done => ?_)
      split
      · exact prepares_pure _
      · refine prepares_bind (prepares_tryExcept (prepares_locked (fun w => .refl w))
          (fun _ => prepares_pure _)) (fun durable => ?_)
        split
        · exact prepares_pure _
        · exact completeAcceptedClaim_prepares claim order n

theorem trackAccepted_prepares (order : Native) : Moves Prepares (trackAccepted E order) := by
  unfold trackAccepted
  refine prepares_tryExcept (prepares_bind (prepares_looks looks_locals) (fun l => ?_))
    (fun _ => prepares_pure _)
  split
  · exact prepares_pure _
  · exact prepares_bind (completeAcceptedClaim_prepares _ _ _) (fun _ => prepares_pure _)

theorem trackFailure_prepares : Moves Prepares (trackFailure E c) := by
  unfold trackFailure
  refine prepares_tryExcept ?_ (fun _ => prepares_pure _)
  split
  · refine prepares_bind (prepares_looks looks_locals) (fun l => ?_)
    split
    · exact prepares_bind (complete_prepares _ _) (fun _ => prepares_pure _)
    · refine prepares_bind (prepares_tryExcept (prepares_looks (looks_ask (fun _ => rfl)))
        (fun _ => prepares_pure _)) (fun reference => prepares_writeOutbox _ _ _)
  · exact prepares_pure _

/-- The report is made before the outbox is told. -/
theorem settle_post : Post
    (fun _ w' => Prepares { w with
      context := if c.withContext then some w.locals.report else w.context } w')
    (fun _ w' => Prepares { w with
      context := if c.withContext then some w.locals.report else w.context } w')
    (settle E c w) := by
  unfold settle
  refine Post.bind (fun e w₁ h => by cases h) (fun l w₁ h => ?_)
  cases h
  refine Post.bind (fun e w₁ h => ?_) (fun _ w₁ h => ?_)
  · unfold writeReport at h
    split at h <;> cases h
  · have hw₁ : w₁ = { w with
        context := if c.withContext then some w.locals.report else w.context } := by
      unfold writeReport at h
      split at h
      · rename_i hcontext
        cases h
        rw [if_pos hcontext]
      · rename_i hcontext
        cases h
        rw [if_neg hcontext]
    subst hw₁
    cases w.locals.order with
    | some order =>
        refine (?_ : Moves Prepares
          (if c.callerOwnsRetry = true then pure () else trackAccepted E order)) _
        split
        · exact prepares_pure _
        · exact trackAccepted_prepares _
    | none =>
        refine (?_ : Moves Prepares (ite _ (trackFailure E c) (pure ()))) _
        split
        · exact trackFailure_prepares
        · exact prepares_pure _

/-! ## The report -/

/-- The one order of the log. -/
theorem Dispatched.only {log : List Event} {call call' : OrderCall} {answer answer' : Answer Native}
    (h : Dispatched E c log call answer) (hmem : .placeOrder call' answer' ∈ log) :
    call' = call ∧ answer' = answer := by
  obtain ⟨after, before, rfl, hafter, hbefore, -⟩ := h.shape
  rcases List.mem_append.mp hmem with hmem | hmem
  · cases hafter _ hmem
  · rcases List.mem_cons.mp hmem with heq | hmem
    · cases heq
      exact ⟨rfl, rfl⟩
    · cases hbefore _ hmem

theorem Dispatched.mem {log : List Event} {call : OrderCall} {answer : Answer Native}
    (h : Dispatched E c log call answer) : .placeOrder call answer ∈ log := by
  obtain ⟨after, before, rfl, -⟩ := h.shape
  exact List.mem_append_right _ List.mem_cons_self

/-- The report tells what the provider was asked and answered: accepted exactly when it accepted;
refused only when it was not asked or refused. -/
structure Truthful (log : List Event) (r : Report) : Prop where
  flag : r.accepted = true ↔ r.state = .accepted
  accepted : r.state = .accepted ↔ ∃ call answer, .placeOrder call answer ∈ log ∧
    (acceptedOf answer).isSome = true
  refused : r.state = .refused → ∀ call answer, .placeOrder call answer ∈ log →
    ∃ reason, answer = .error (.refused reason)
  unknown : r.state = .unknown → ∃ call answer, .placeOrder call answer ∈ log ∧
    acceptedOf answer = none

theorem truthful_quiet {log : List Event} {r : Report} (hquiet : ∀ e ∈ log, e.quiet = true)
    (hflag : r.accepted = false) (hstate : r.state = .refused) : Truthful log r where
  flag := by simp [hflag, hstate]
  accepted := by
    rw [hstate]
    constructor
    · intro h
      cases h
    · rintro ⟨call, answer, hmem, -⟩
      cases hquiet _ hmem
  refused := fun _ call answer hmem => by cases hquiet _ hmem
  unknown := fun h => by
    rw [hstate] at h
    cases h

theorem Ended.truthful (h : Ended E c w) {new : List Event} (hquiet : ∀ e ∈ new, e.quiet = true) :
    Truthful (new ++ w.log) w.locals.report := by
  cases h with
  | unsent h =>
      refine truthful_quiet (fun e he => ?_) ?_ ?_
      · rcases List.mem_append.mp he with he | he
        · exact hquiet e he
        · exact h.quiet e he
      · simp [Locals.report, h.order]
      · simp [Locals.report, Locals.state, h.order, h.submitAttempted]
  | sent call answer h horder hattempted =>
      have hlog := h.grows hquiet
      -- what the report says follows from the one answer and the mark before it
      have hstate : w.locals.report.state =
          if (acceptedOf answer).isSome then .accepted
          else if w.locals.submitAttempted then .unknown else .refused := by
        simp only [Locals.report, Locals.state, horder]
      constructor
      · rw [hstate]
        simp only [Locals.report, horder]
        by_cases hsome : (acceptedOf answer).isSome = true
        · simp [hsome]
        · rw [if_neg hsome]
          split <;> simp [hsome]
      · rw [hstate]
        constructor
        · intro haccepted
          refine ⟨call, answer, hlog.mem, ?_⟩
          split at haccepted
          · assumption
          · split at haccepted <;> cases haccepted
        · rintro ⟨call', answer', hmem, haccepted⟩
          obtain ⟨-, rfl⟩ := hlog.only hmem
          rw [if_pos haccepted]
      · rw [hstate]
        intro hrefused call' answer' hmem
        obtain ⟨-, rfl⟩ := hlog.only hmem
        rcases hattempted with hattempted | hattempted
        · rw [hattempted] at hrefused
          split at hrefused <;> cases hrefused
        · exact hattempted
      · rw [hstate]
        intro hunknown
        refine ⟨call, answer, hlog.mem, ?_⟩
        cases haccepted : acceptedOf answer with
        | none => rfl
        | some order =>
            rw [haccepted] at hunknown
            cases hunknown

/-! ## The call -/

/-- What a call may have sent: nothing, the order as it is to a provider with guards of its own, or
one order that was cleared. -/
inductive Submitted (E : Env) (c : Call) (log : List Event) : Prop
  | nothing (h : ∀ e ∈ log, e.quiet = true)
  | handedOver (answer : Answer Native) (before : List Event)
      (h : log = .placeOrder c.plain answer :: .internal (.ok true) :: before)
      (quiet : ∀ e ∈ before, e.quiet = true)
  | cleared (call : OrderCall) (answer : Answer Native) (h : Dispatched E c log call answer)

/-- The call is over, and has reported if it was asked to. -/
structure Concluded (E : Env) (c : Call) (w : World) : Prop where
  submitted : Submitted E c w.log
  reported : c.withContext = true → ∃ r, w.context = some r ∧ Truthful w.log r

theorem Ended.submitted (h : Ended E c w) {new : List Event}
    (hquiet : ∀ e ∈ new, e.quiet = true) : Submitted E c (new ++ w.log) := by
  cases h with
  | unsent h =>
      refine .nothing (fun e he => ?_)
      rcases List.mem_append.mp he with he | he
      · exact hquiet e he
      · exact h.quiet e he
  | sent call answer h _ _ => exact .cleared call answer (h.grows hquiet)

theorem Ended.concluded (h : Ended E c w)
    (hsettled : Prepares { w with
      context := if c.withContext then some w.locals.report else w.context } w') :
    Concluded E c w' := by
  obtain ⟨new, hnew, hquiet⟩ := hsettled.log
  constructor
  · rw [hnew]
    exact h.submitted hquiet
  · intro hcontext
    refine ⟨w.locals.report, ?_, ?_⟩
    · rw [hsettled.context, if_pos hcontext]
    · rw [hnew]
      exact h.truthful hquiet

/-- What a call that returns has done: an order that it returns was accepted. -/
def Returned (E : Env) (c : Call) (a : Option Native) (w : World) : Prop :=
  Concluded E c w ∧ ∀ order, a = some order →
    ∃ call, .placeOrder call (.ok order) ∈ w.log ∧ acceptedOrderPayload order = true

theorem Ended.accepted (h : Ended E c w) {order : Native} (ho : w.locals.order = some order) :
    ∃ call, .placeOrder call (.ok order) ∈ w.log ∧ acceptedOrderPayload order = true := by
  cases h with
  | unsent h =>
      rw [h.order] at ho
      cases ho
  | sent call answer h horder _ =>
      rw [horder] at ho
      cases answer with
      | error e => cases ho
      | ok response =>
          simp only [acceptedOf] at ho
          split at ho
          · cases ho
            exact ⟨call, h.mem, ‹_›⟩
          · cases ho

theorem guardedPlace_post (h : Unsent w) (hpermit : w.locals.cachePermit = c.cachePermit) :
    Post (Returned E c) (fun e w' => Submitted E c w'.log ∧ (e ≠ .crashed → Concluded E c w'))
      (guardedPlace E c w) := by
  have hhandled : Post (Handled E c) (fun _ w' => Ended E c w') _ := handled_post h hpermit
  unfold guardedPlace tryFinally
  cases hrun : (tryCatch (body E c) (fun e => if e.caught then handle e else throw e) :
      Placing (Option Native)) w with
  | ok a w₁ =>
      rw [hrun] at hhandled
      obtain ⟨hended, ha⟩ := hhandled
      have hsettle := settle_post (E := E) (c := c) (w := w₁)
      simp only
      cases hlast : settle E c w₁ with
      | ok _ w' =>
          rw [hlast] at hsettle
          refine ⟨hended.concluded hsettle, fun order horder => ?_⟩
          have ho : w₁.locals.order = some order := by
            rcases ha with rfl | rfl
            · cases horder
            · exact horder
          obtain ⟨call, hmem, haccepted⟩ := hended.accepted ho
          exact ⟨call, hsettle.mem hmem, haccepted⟩
      | error e w' =>
          rw [hlast] at hsettle
          exact ⟨(hended.concluded hsettle).submitted, fun _ => hended.concluded hsettle⟩
  | error e w₁ =>
      rw [hrun] at hhandled
      have hended : Ended E c w₁ := hhandled
      simp only
      split
      · rename_i hcrashed
        have hnone : ∀ e ∈ ([] : List Event), e.quiet = true := List.forall_mem_nil _
        exact ⟨hended.submitted hnone, fun hne => absurd hcrashed hne⟩
      · have hsettle := settle_post (E := E) (c := c) (w := w₁)
        cases hlast : settle E c w₁ with
        | ok _ w' =>
            rw [hlast] at hsettle
            exact ⟨(hended.concluded hsettle).submitted, fun _ => hended.concluded hsettle⟩
        | error e' w' =>
            rw [hlast] at hsettle
            exact ⟨(hended.concluded hsettle).submitted, fun _ => hended.concluded hsettle⟩

/-! ## The main results -/

theorem unsent_start (c : Call) (w : World) : Unsent (w.start c) :=
  ⟨fun _ h => (by cases h), rfl, rfl, rfl⟩

/-- A refusal before the pipeline reports itself. -/
theorem refuseEarly_post {reason : String} (hquiet : ∀ e ∈ w.log, e.quiet = true) :
    Post (Returned E c) (fun _ _ => False) (refuseEarly c reason w) := by
  unfold refuseEarly writeReport
  cases hcontext : c.withContext with
  | true =>
      refine ⟨⟨.nothing hquiet, fun _ => ⟨_, rfl, truthful_quiet hquiet rfl rfl⟩⟩, fun _ h => ?_⟩
      cases h
  | false =>
      refine ⟨⟨.nothing hquiet, fun h => ?_⟩, fun _ h => ?_⟩
      · rw [hcontext] at h
        cases h
      · cases h

/-- Reading the gate asks nothing else. -/
theorem readGate_post : Post (fun _ w' => Looks w w' ∧ ∀ e ∈ w'.log, e ∈ w.log ∨ ∃ a, e = .gate a)
    (fun _ w' => Looks w w' ∧ ∀ e ∈ w'.log, e ∈ w.log ∨ ∃ a, e = .gate a) (readGate E w) := by
  unfold readGate
  cases hcallable : E.provider.executionEnabled with
  | none => exact ⟨.refl w, fun e he => .inl he⟩
  | some enabled =>
      have hask : Moves Looks (ask enabled Event.gate) := looks_ask (fun _ => rfl)
      show Post _ _ (EStateM.tryCatch (ask enabled Event.gate >>= fun on => pure (some on))
        (fun e => if e.caught then pure none else throw e) w)
      unfold EStateM.tryCatch
      cases hanswer : enabled w.log.length with
      | ok on =>
          have hrun : ask enabled Event.gate w =
              .ok on { w with log := .gate (.ok on) :: w.log } := by
            unfold ask
            rw [hanswer]
          simp only [bind, EStateM.bind, hrun, pure, EStateM.pure]
          refine ⟨hask.ok hrun, fun e he => ?_⟩
          exact (List.mem_cons.mp he).symm.imp id (fun h => ⟨_, h⟩)
      | error e =>
          have hrun : ask enabled Event.gate w =
              .error e { w with log := .gate (.error e) :: w.log } := by
            unfold ask
            rw [hanswer]
          have hlog : ∀ e' ∈ Event.gate (.error e) :: w.log, e' ∈ w.log ∨ ∃ a, e' = .gate a :=
            fun e' he' => (List.mem_cons.mp he').symm.imp id (fun h => ⟨_, h⟩)
          simp only [bind, EStateM.bind, hrun]
          cases e.caught with
          | true => exact ⟨hask.error hrun, hlog⟩
          | false => exact ⟨hask.error hrun, hlog⟩

/-- However a call ends, the pipeline has sent what it may; and it has reported, unless the process
stopped or the pipeline was not entered. -/
theorem place_post : Post
    (fun a w' => Submitted E c w'.log ∧ (Returned E c a w' ∨ .internal (.ok true) ∈ w'.log))
    (fun e w' => Submitted E c w'.log ∧
      (.internal (.ok false) ∈ w'.log → e ≠ .crashed → Concluded E c w'))
    (place E c (w.start c)) := by
  -- a call that is refused before the pipeline has only looked
  have hearly {reason : String} {w₁ : World} (hquiet : ∀ e ∈ w₁.log, e.quiet = true) : Post
      (fun a w' => Submitted E c w'.log ∧ (Returned E c a w' ∨ .internal (.ok true) ∈ w'.log))
      (fun e w' => Submitted E c w'.log ∧
        (.internal (.ok false) ∈ w'.log → e ≠ .crashed → Concluded E c w'))
      (refuseEarly c reason w₁) := by
    have h : Post (Returned E c) (fun _ _ => False) (refuseEarly c reason w₁) :=
      refuseEarly_post hquiet
    cases hrun : refuseEarly c reason w₁ with
    | ok a w' =>
        rw [hrun] at h
        exact ⟨h.1.submitted, .inl h⟩
    | error e w' =>
        rw [hrun] at h
        exact h.elim
  unfold place
  split
  · exact hearly (unsent_start c w).quiet
  refine Post.bind (fun e w₁ h₁ => ?_) (fun on w₁ h₁ => ?_)
  · have hgate := readGate_post (E := E) (w := w.start c)
    rw [h₁] at hgate
    obtain ⟨hlooks, hlog⟩ := hgate
    refine ⟨.nothing ((unsent_start c w).prepares hlooks.asks.prepares).quiet, fun hmem => ?_⟩
    rcases hlog _ hmem with hmem | ⟨a, hmem⟩
    · cases hmem
    · cases hmem
  have hgate := readGate_post (E := E) (w := w.start c)
  rw [h₁] at hgate
  obtain ⟨hlooks, hlog⟩ := hgate
  have hunsent := (unsent_start c w).prepares hlooks.asks.prepares
  cases on with
  | none => exact hearly hunsent.quiet
  | some on =>
  cases on with
  | false => exact hearly hunsent.quiet
  | true =>
  -- a provider with guards of its own gets the order as it is
  have hask : Moves Looks (ask E.provider.guardsInternally Event.internal) :=
    looks_ask (fun _ => rfl)
  refine Post.bind (fun e w₂ h₂ => ?_) (fun internal w₂ h₂ => ?_)
  · refine ⟨.nothing (hunsent.prepares (hask.error h₂).asks.prepares).quiet, fun hmem => ?_⟩
    unfold ask at h₂
    split at h₂
    · cases h₂
    · cases h₂
      rcases List.mem_cons.mp hmem with heq | hmem
      · cases heq
      · rcases hlog _ hmem with hmem | ⟨a, hmem⟩
        · cases hmem
        · cases hmem
  have hunsent₂ := hunsent.prepares (hask.ok h₂).asks.prepares
  obtain ⟨-, hw₂⟩ := ask_ok h₂
  cases internal with
  | true =>
      simp only [if_true]
      split
      · exact hearly hunsent₂.quiet
      · refine Post.bind (fun e w₃ h₃ => ?_) (fun response w₃ h₃ => ?_)
        · unfold ask at h₃
          split at h₃
          · cases h₃
          · cases h₃
            subst hw₂
            refine ⟨.handedOver _ _ rfl hunsent.quiet, fun hmem => ?_⟩
            rcases List.mem_cons.mp hmem with heq | hmem
            · cases heq
            · rcases List.mem_cons.mp hmem with heq | hmem
              · cases heq
              · rcases hlog _ hmem with hmem | ⟨a, hmem⟩
                · cases hmem
                · cases hmem
        · obtain ⟨-, rfl⟩ := ask_ok h₃
          subst hw₂
          exact ⟨.handedOver _ _ rfl hunsent.quiet, .inr (List.mem_cons_of_mem _ List.mem_cons_self)⟩
  | false =>
      simp only [Bool.false_eq_true, if_false]
      -- any other order goes through the pipeline
      have hpermit : w₂.locals.cachePermit = c.cachePermit := by
        subst hw₂
        exact hlooks.cachePermit
      have hguarded : Post (Returned E c) (fun e w' => Submitted E c w'.log ∧
          (e ≠ .crashed → Concluded E c w')) (guardedPlace E c w₂) :=
        guardedPlace_post hunsent₂ hpermit
      cases hrun : guardedPlace E c w₂ with
      | ok a w' =>
          rw [hrun] at hguarded
          exact ⟨hguarded.1.submitted, .inl hguarded⟩
      | error e w' =>
          rw [hrun] at hguarded
          exact ⟨hguarded.1, fun _ => hguarded.2⟩

/-- **What a call reports is what the provider answered**: a call whose provider leaves the guards to
it reports acceptance exactly when the order was accepted, and a refusal only when no order was sent
or the provider refused it; it returns only an accepted order; also when it raises, unless the
process stops. -/
theorem place_reports (E : Env) (c : Call) (w : World) :
    Post (fun a w' => Returned E c a w' ∨ .internal (.ok true) ∈ w'.log)
      (fun e w' => .internal (.ok false) ∈ w'.log → e ≠ .crashed → Concluded E c w')
      (place E c (w.start c)) := by
  have h : Post _ _ (place E c (w.start c)) := place_post
  cases hrun : place E c (w.start c) with
  | ok a w' =>
      rw [hrun] at h
      exact h.2
  | error e w' =>
      rw [hrun] at h
      exact h.2

end TradingFleet.Placement
