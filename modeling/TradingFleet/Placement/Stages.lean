import TradingFleet.Placement.Place

set_option autoImplicit false

/-! # What the stages before the submit do

Each stage only asks (`Asks`): the queue and the cooldown stay, and so do the local variables but
for the reason and for the one that the stage is there to set. A stage that lets the order through
has the answers for it in the log. -/

namespace TradingFleet.Placement

open TradingFleet.Hoare TradingFleet.Text TradingFleet.Outbox TradingFleet.Lifecycle

variable {E : Env} {c : Call} {w w' : World}

/-! ## Asking -/

/-- No write, and nothing sent. -/
def Event.harmless : Event → Bool
  | .outbox _ _ => false
  | .slot _ => false
  | .placeOrder _ _ => false
  | _ => true

/-- The local variables that an asking stage leaves as they are. -/
structure SameIntent (l l' : Locals) : Prop where
  order : l'.order = l.order
  submitAttempted : l'.submitAttempted = l.submitAttempted
  prequeuedRecordId : l'.prequeuedRecordId = l.prequeuedRecordId
  prequeuedClaim : l'.prequeuedClaim = l.prequeuedClaim
  kwargs : l'.kwargs = l.kwargs
  slotCommitted : l'.slotCommitted = l.slotCommitted

theorem SameIntent.refl (l : Locals) : SameIntent l l := ⟨rfl, rfl, rfl, rfl, rfl, rfl⟩

theorem SameIntent.trans {l l' l'' : Locals} (h : SameIntent l l') (h' : SameIntent l' l'') :
    SameIntent l l'' where
  order := h'.order.trans h.order
  submitAttempted := h'.submitAttempted.trans h.submitAttempted
  prequeuedRecordId := h'.prequeuedRecordId.trans h.prequeuedRecordId
  prequeuedClaim := h'.prequeuedClaim.trans h.prequeuedClaim
  kwargs := h'.kwargs.trans h.kwargs
  slotCommitted := h'.slotCommitted.trans h.slotCommitted

/-- The stage asked, and may have set variables that only later stages read. -/
structure Asks (w w' : World) : Prop where
  log : ∃ new, w'.log = new ++ w.log ∧ ∀ e ∈ new, e.harmless = true
  ledger : w'.ledger = w.ledger
  cooldown : w'.cooldown = w.cooldown
  schedule : w'.schedule = w.schedule
  others : w'.others = w.others
  context : w'.context = w.context
  intent : SameIntent w.locals w'.locals

theorem Asks.refl (w : World) : Asks w w where
  log := ⟨[], rfl, fun _ h => by cases h⟩
  ledger := rfl
  cooldown := rfl
  schedule := rfl
  others := rfl
  context := rfl
  intent := .refl _

theorem Asks.trans {w w' w'' : World} (h : Asks w w') (h' : Asks w' w'') : Asks w w'' where
  log := by
    obtain ⟨new, hnew, hharmless⟩ := h.log
    obtain ⟨new', hnew', hharmless'⟩ := h'.log
    refine ⟨new' ++ new, by rw [hnew', hnew, List.append_assoc], fun e he => ?_⟩
    rcases List.mem_append.mp he with he | he
    · exact hharmless' e he
    · exact hharmless e he
  ledger := h'.ledger.trans h.ledger
  cooldown := h'.cooldown.trans h.cooldown
  schedule := h'.schedule.trans h.schedule
  others := h'.others.trans h.others
  context := h'.context.trans h.context
  intent := h.intent.trans h'.intent

/-- An answer that is in the log stays there. -/
theorem Asks.mem (h : Asks w w') {e : Event} (he : e ∈ w.log) : e ∈ w'.log := by
  obtain ⟨new, hnew, -⟩ := h.log
  rw [hnew]
  exact List.mem_append_right _ he

/-- The stage leaves the order as it is, too. -/
structure Looks (w w' : World) : Prop where
  asks : Asks w w'
  price : w'.locals.price = w.locals.price
  qty : w'.locals.qty = w.locals.qty
  cachePermit : w'.locals.cachePermit = w.locals.cachePermit

theorem Looks.refl (w : World) : Looks w w := ⟨.refl w, rfl, rfl, rfl⟩

theorem Looks.trans {w w' w'' : World} (h : Looks w w') (h' : Looks w' w'') : Looks w w'' where
  asks := h.asks.trans h'.asks
  price := h'.price.trans h.price
  qty := h'.qty.trans h.qty
  cachePermit := h'.cachePermit.trans h.cachePermit

section Steps

variable {α β : Type}

theorem looks_pure (a : α) : Moves Looks (pure a : Placing α) := Moves.pure Looks.refl a

theorem looks_throw (e : Raised) : Moves Looks (throw e : Placing α) := Moves.throw Looks.refl e

theorem looks_bind {x : Placing α} {f : α → Placing β} (hx : Moves Looks x)
    (hf : ∀ a, Moves Looks (f a)) : Moves Looks (x >>= f) :=
  Moves.bind (fun _ _ _ h h' => h.trans h') hx hf

theorem looks_ask {call : Nat → Answer α} {event : Answer α → Event}
    (hharmless : ∀ a, (event a).harmless = true) : Moves Looks (ask call event) := by
  intro w
  unfold ask
  cases call w.log.length with
  | ok a =>
      exact ⟨⟨⟨[event (.ok a)], rfl, fun e he => by rw [List.mem_singleton.mp he, hharmless]⟩,
        rfl, rfl, rfl, rfl, rfl, .refl _⟩, rfl, rfl, rfl⟩
  | error e =>
      exact ⟨⟨⟨[event (.error e)], rfl, fun e he => by rw [List.mem_singleton.mp he, hharmless]⟩,
        rfl, rfl, rfl, rfl, rfl, .refl _⟩, rfl, rfl, rfl⟩

theorem looks_locals : Moves Looks locals := fun w => Looks.refl w

theorem looks_reason (reason : Option String) :
    Moves Looks (assign (fun l => { l with reason := reason })) :=
  fun _ => ⟨⟨⟨[], rfl, fun _ h => by cases h⟩, rfl, rfl, rfl, rfl, rfl,
    ⟨rfl, rfl, rfl, rfl, rfl, rfl⟩⟩, rfl, rfl, rfl⟩

theorem looks_giveUp (reason : String) : Moves Looks (giveUp reason : Placing (Option α)) :=
  looks_bind (looks_reason _) (fun _ => looks_pure _)

theorem looks_ite {p : Prop} [Decidable p] {x y : Placing α} (hx : Moves Looks x)
    (hy : Moves Looks y) : Moves Looks (if p then x else y) := by
  split
  · exact hx
  · exact hy

theorem looks_tryExcept {x : Placing α} {handler : Raised → Placing α} (hx : Moves Looks x)
    (hh : ∀ e, Moves Looks (handler e)) : Moves Looks (tryExcept x handler) :=
  Moves.tryCatch (fun _ _ _ h h' => h.trans h') hx
    (fun e => looks_ite (hh e) (looks_throw e))

/-- The answer of a call is the newest event. -/
theorem ask_ok {call : Nat → Answer α} {event : Answer α → Event} {a : α}
    (h : ask call event w = .ok a w') :
    call w.log.length = .ok a ∧ w' = { w with log := event (.ok a) :: w.log } := by
  unfold ask at h
  cases hcall : call w.log.length with
  | ok b =>
      rw [hcall] at h
      cases h
      exact ⟨rfl, rfl⟩
  | error e =>
      rw [hcall] at h
      cases h

theorem pure_ok {a b : α} (h : (pure a : Placing α) w = .ok b w') : a = b ∧ w' = w := by
  cases h
  exact ⟨rfl, rfl⟩

theorem giveUp_ok {reason : String} {a : α} (h : (giveUp reason : Placing (Option α)) w =
    .ok (some a) w') : False := by
  cases h

theorem tryExcept_ok {x : Placing α} {handler : Raised → Placing α} {a : α}
    (h : tryExcept x handler w = .ok a w') :
    x w = .ok a w' ∨ ∃ e w₁, x w = .error e w₁ ∧ handler e w₁ = .ok a w' := by
  have htry : EStateM.tryCatch x (fun e => if e.caught then handler e else throw e) w =
      .ok a w' := h
  unfold EStateM.tryCatch at htry
  cases hx : x w with
  | ok b w₁ =>
      rw [hx] at htry
      cases htry
      exact .inl rfl
  | error e w₁ =>
      rw [hx] at htry
      right
      refine ⟨e, w₁, rfl, ?_⟩
      cases hcaught : e.caught with
      | true =>
          simp only [hcaught, if_true] at htry
          exact htry
      | false =>
          simp only [hcaught, Bool.false_eq_true, if_false] at htry
          cases htry

end Steps

/-! ## The stages -/

variable (E c)

theorem retryConstraint_looks : Moves Looks (retryConstraint c) := by
  unfold retryConstraint
  split
  · exact looks_pure _
  · split
    · exact looks_ite (looks_pure _) (looks_throw _)
    · exact looks_throw _

theorem prepareOrderState_looks : Moves Looks (prepareOrderState E c) := by
  unfold prepareOrderState
  refine looks_ite (looks_throw _) (looks_ite ?_ (looks_pure _))
  split
  · exact looks_throw _
  · refine looks_bind (looks_ask (fun _ => rfl)) (fun state => ?_)
    cases state with
    | none => exact looks_throw _
    | some state => exact looks_pure _

theorem preflightOther_looks : Moves Looks (preflightOther E c) := by
  unfold preflightOther
  split
  · exact looks_pure _
  · exact looks_ite (looks_pure _)
      (looks_bind (looks_ask (fun _ => rfl)) (fun _ => looks_pure _))

theorem policyGuards_looks : Moves Looks (policyGuards E c) := by
  unfold policyGuards
  refine looks_bind (looks_ask (fun _ => rfl)) (fun daily => ?_)
  refine looks_bind (looks_reason _) (fun _ => looks_ite (looks_pure _) (looks_ite (looks_pure _) ?_))
  refine looks_bind (looks_ask (fun _ => rfl)) (fun reference => looks_bind looks_locals (fun l => ?_))
  exact looks_bind (looks_ask (fun _ => rfl)) (fun _ => looks_ite (looks_pure _) (looks_giveUp _))

theorem quantityPrice_looks : Moves Looks (quantityPrice E c) := by
  unfold quantityPrice
  split
  · refine looks_bind (looks_ask (fun _ => rfl)) (fun price => ?_)
    cases price with
    | none => exact looks_giveUp _
    | some price => exact looks_ite (looks_giveUp _) (looks_pure _)
  · exact looks_bind looks_locals (fun _ => looks_pure _)

theorem trendGate_looks : Moves Looks (trendGate E c) := by
  unfold trendGate
  refine looks_ite (looks_tryExcept ?_ (fun _ => looks_pure _)) (looks_pure _)
  exact looks_bind (looks_ask (fun _ => rfl)) (fun _ => looks_ite (looks_giveUp _) (looks_pure _))

theorem marketProfit_looks (price : ℚ) (reference : Option ℚ) :
    Moves Looks (marketProfit E c price reference) := by
  unfold marketProfit
  refine looks_ite (looks_bind (looks_ask (fun _ => rfl)) (fun _ => ?_)) (looks_pure _)
  exact looks_ite (looks_pure _) (looks_giveUp _)

theorem executionGate_looks : Moves Looks (executionGate E) := by
  unfold executionGate
  split
  · exact looks_pure _
  · exact looks_bind (looks_ask (fun _ => rfl)) (fun _ => looks_ite (looks_pure _) (looks_throw _))

theorem finalMarketCheck_looks (constraint : Option (ℚ × ℚ)) (reference : Option ℚ) :
    Moves Looks (finalMarketCheck E c constraint reference) := by
  unfold finalMarketCheck
  refine looks_ite (looks_bind (looks_ask (fun _ => rfl)) (fun price => ?_)) (looks_pure _)
  cases price with
  | none => exact looks_giveUp _
  | some price =>
      exact looks_ite (looks_giveUp _) (looks_ite (looks_giveUp _) (marketProfit_looks E c _ _))

/-- A new price, for a smart order. -/
theorem smartPrice_asks : Moves Asks (smartPrice E c) := by
  unfold smartPrice
  split
  · refine Moves.bind (fun _ _ _ h h' => h.trans h') ((looks_ask (fun _ => rfl)).weaken
      (fun _ _ h => h.asks)) (fun price => ?_)
    exact fun _ => ⟨⟨[], rfl, fun _ h => by cases h⟩, rfl, rfl, rfl, rfl, rfl,
      ⟨rfl, rfl, rfl, rfl, rfl, rfl⟩⟩
  · exact Moves.pure Asks.refl _

theorem quantityGuard_asks (price : ℚ) : Moves Asks (quantityGuard E c price) := by
  unfold quantityGuard
  refine Moves.bind (fun _ _ _ h h' => h.trans h') ((looks_ask (fun _ => rfl)).weaken
    (fun _ _ h => h.asks)) (fun decision => ?_)
  refine Moves.bind (fun _ _ _ h h' => h.trans h') ?_ (fun _ => ?_)
  · exact fun _ => ⟨⟨[], rfl, fun _ h => by cases h⟩, rfl, rfl, rfl, rfl, rfl,
      ⟨rfl, rfl, rfl, rfl, rfl, rfl⟩⟩
  · exact (looks_ite (looks_giveUp _) (looks_pure _)).weaken (fun _ _ h => h.asks)

theorem permit_asks (state : Option OrderState) : Moves Asks (permit E c state) := by
  have looks {α : Type} {x : Placing α} (h : Moves Looks x) : Moves Asks x :=
    h.weaken (fun _ _ h => h.asks)
  have bind {α β : Type} {x : Placing α} {f : α → Placing β} (hx : Moves Asks x)
      (hf : ∀ a, Moves Asks (f a)) : Moves Asks (x >>= f) :=
    Moves.bind (fun _ _ _ h h' => h.trans h') hx hf
  unfold permit
  refine bind (looks looks_locals) (fun l => ?_)
  split
  · split
    · exact looks (looks_throw _)
    · refine bind (looks (looks_ask (fun _ => rfl))) (fun issued => ?_)
      cases issued with
      | none => exact looks (looks_throw _)
      | some issued =>
          refine bind ?_ (fun _ => ?_)
          · exact fun _ => ⟨⟨[], rfl, fun _ h => by cases h⟩, rfl, rfl, rfl, rfl, rfl,
              ⟨rfl, rfl, rfl, rfl, rfl, rfl⟩⟩
          · split
            · exact bind (looks (looks_ask (fun _ => rfl))) (fun _ => looks (looks_pure _))
            · exact looks (looks_throw _)
  · exact looks (looks_pure _)

/-! ## What lets an order through -/

variable {E c}

theorem prepareOrderState_ok {state : Option OrderState}
    (h : prepareOrderState E c w = .ok state w') :
    E.isBinance = true → c.cachePermit = none →
      ∃ st, state = some st ∧ .prepared (.ok (some st)) ∈ w'.log := by
  intro hbinance hpermit
  unfold prepareOrderState at h
  simp only [hbinance, hpermit, Option.isSome_none, Bool.and_false, Bool.false_eq_true, if_false,
    Option.isNone_none, Bool.and_true, if_true] at h
  cases hprepare : E.provider.prepareOrderState with
  | none =>
      rw [hprepare] at h
      cases h
  | some prepare =>
      rw [hprepare] at h
      obtain ⟨answer, w₁, hask, h⟩ := bind_ok h
      obtain ⟨-, rfl⟩ := ask_ok hask
      cases answer with
      | none => cases h
      | some st =>
          obtain ⟨rfl, rfl⟩ := pure_ok h
          exact ⟨st, rfl, List.mem_cons_self⟩

theorem smartPrice_permit (h : smartPrice E c w = .ok () w') :
    w'.locals.cachePermit = w.locals.cachePermit := by
  unfold smartPrice at h
  split at h
  · obtain ⟨price, w₁, hask, h⟩ := bind_ok h
    obtain ⟨-, rfl⟩ := ask_ok hask
    cases h
    rfl
  · obtain ⟨-, rfl⟩ := pure_ok h
    rfl

theorem policyGuards_ok {reference : Option ℚ}
    (h : policyGuards E c w = .ok (some reference) w') :
    (∃ why, .daily (.ok (true, why)) ∈ w'.log) ∧
      (c.bypassProfitGuard = false → c.bypassReference = false →
        .profit w.locals.price E.margin reference (.ok true) ∈ w'.log) := by
  unfold policyGuards at h
  obtain ⟨⟨ok, why⟩, w₁, hask, h⟩ := bind_ok h
  obtain ⟨-, rfl⟩ := ask_ok hask
  obtain ⟨_, w₂, hassign, h⟩ := bind_ok h
  cases hassign
  cases ok with
  | false => cases h
  | true =>
      simp only [Bool.not_true, Bool.false_eq_true, if_false] at h
      split at h
      · rename_i hbypass
        obtain ⟨-, rfl⟩ := pure_ok h
        refine ⟨⟨why, List.mem_cons_self⟩, fun hguard hreference => ?_⟩
        simp [hguard, hreference] at hbypass
      · obtain ⟨ref, w₃, hwindow, h⟩ := bind_ok h
        obtain ⟨-, rfl⟩ := ask_ok hwindow
        obtain ⟨l, w₄, hlocals, h⟩ := bind_ok h
        cases hlocals
        obtain ⟨ok, w₅, hprofit, h⟩ := bind_ok h
        obtain ⟨-, rfl⟩ := ask_ok hprofit
        cases ok with
        | false => exact (giveUp_ok h).elim
        | true =>
            obtain ⟨href, rfl⟩ := pure_ok h
            cases href
            exact ⟨⟨why, by simp⟩, fun _ _ => List.mem_cons_self⟩

theorem quantityGuard_ok {price : ℚ} (h : quantityGuard E c price w = .ok (some ()) w') :
    (∃ decision, .quantity (c.quantityArgs price) (.ok decision) ∈ w'.log ∧
      w'.locals.qty = decision.finalQty ∧ 0 < decision.finalQty) ∧
    w'.locals.price = w.locals.price ∧ w'.locals.cachePermit = w.locals.cachePermit := by
  unfold quantityGuard at h
  obtain ⟨decision, w₁, hask, h⟩ := bind_ok h
  obtain ⟨-, rfl⟩ := ask_ok hask
  obtain ⟨_, w₂, hassign, h⟩ := bind_ok h
  cases hassign
  split at h
  · exact (giveUp_ok h).elim
  · rename_i hpos
    obtain ⟨-, rfl⟩ := pure_ok h
    exact ⟨⟨decision, List.mem_cons_self, rfl, not_le.mp hpos⟩, rfl, rfl⟩

/-- The trend manager was asked, and did not say to wait. -/
theorem trendGate_ok (h : trendGate E c w = .ok (some ()) w') :
    c.waitForTrend = true → ∃ answer, .trend answer ∈ w'.log ∧ answer ≠ .ok true := by
  intro hwait
  unfold trendGate at h
  rw [if_pos hwait] at h
  rcases tryExcept_ok h with h | ⟨e, w₁, h, hhandler⟩
  · obtain ⟨wait, w₁, hask, h⟩ := bind_ok h
    obtain ⟨-, rfl⟩ := ask_ok hask
    cases wait with
    | true => exact (giveUp_ok h).elim
    | false =>
        obtain ⟨-, rfl⟩ := pure_ok h
        exact ⟨_, List.mem_cons_self, by simp⟩
  · obtain ⟨-, rfl⟩ := pure_ok hhandler
    cases hcall : E.shouldWait w.log.length with
    | ok wait =>
        exfalso
        have hask : ask E.shouldWait Event.trend w =
            .ok wait { w with log := .trend (.ok wait) :: w.log } := by
          unfold ask
          rw [hcall]
        have hbind : (ask E.shouldWait Event.trend >>= fun wait =>
            if wait then giveUp "trend_deferred" else pure (some ())) w = .error e w' := h
        simp only [bind, EStateM.bind, hask] at hbind
        -- neither branch raises
        cases wait with
        | true => cases hbind
        | false => cases hbind
    | error e' =>
        refine ⟨.error e', ?_, by simp⟩
        have hask : ask E.shouldWait Event.trend w =
            .error e' { w with log := .trend (.error e') :: w.log } := by
          unfold ask
          rw [hcall]
        have hbind : (ask E.shouldWait Event.trend >>= fun wait =>
            if wait then giveUp "trend_deferred" else pure (some ())) w = .error e w' := h
        simp only [bind, EStateM.bind, hask] at hbind
        cases hbind
        exact List.mem_cons_self

theorem marketProfit_ok {price : ℚ} {reference : Option ℚ}
    (h : marketProfit E c price reference w = .ok (some ()) w') :
    (c.finalProfitCheck = true →
      w' = { w with log := .profit price E.margin reference (.ok true) :: w.log }) ∧
    (c.finalProfitCheck = false → w' = w) := by
  unfold marketProfit at h
  split at h
  · rename_i hcheck
    refine ⟨fun _ => ?_, fun hno => by rw [hcheck] at hno; cases hno⟩
    obtain ⟨ok, w₁, hask, h⟩ := bind_ok h
    obtain ⟨-, rfl⟩ := ask_ok hask
    cases ok with
    | false => exact (giveUp_ok h).elim
    | true =>
        obtain ⟨-, rfl⟩ := pure_ok h
        rfl
  · rename_i hcheck
    obtain ⟨-, rfl⟩ := pure_ok h
    exact ⟨fun hyes => absurd hyes hcheck, fun _ => rfl⟩

theorem executionGate_ok (h : executionGate E w = .ok () w') :
    (E.provider.executionEnabled.isSome = true →
      w' = { w with log := .gate (.ok true) :: w.log }) ∧
    (E.provider.executionEnabled = none → w' = w) := by
  unfold executionGate at h
  cases hgate : E.provider.executionEnabled with
  | none =>
      rw [hgate] at h
      obtain ⟨-, rfl⟩ := pure_ok h
      exact ⟨fun hsome => (by cases hsome), fun _ => rfl⟩
  | some enabled =>
      rw [hgate] at h
      refine ⟨fun _ => ?_, fun hnone => by cases hnone⟩
      obtain ⟨on, w₁, hask, h⟩ := bind_ok h
      obtain ⟨-, rfl⟩ := ask_ok hask
      cases on with
      | false => cases h
      | true =>
          obtain ⟨-, rfl⟩ := pure_ok h
          rfl

/-- A market order goes out at a quote of its dispatch, which is positive, which the profit guard
has let through and which the constraint of a retry allows. -/
structure QuoteChecked (E : Env) (c : Call) (constraint : Option (ℚ × ℚ)) (price : ℚ)
    (checked quoted : List Event) : Prop where
  pos : 0 < price
  favorable : ∀ p ∈ constraint, favorable c p.1 p.2 price = true
  profit : c.finalProfitCheck = true → ∃ reference, checked =
    .profit price E.margin reference (.ok true) :: .quote (.ok (some price)) :: quoted
  looked : c.finalProfitCheck = false → checked = .quote (.ok (some price)) :: quoted

theorem finalMarketCheck_ok {constraint : Option (ℚ × ℚ)} {reference : Option ℚ}
    (h : finalMarketCheck E c constraint reference w = .ok (some ()) w') :
    c.isMarket = true → c.finalProfitCheck = true ∨ c.retryConstraintSupplied = true →
      ∃ price, QuoteChecked E c constraint price w'.log w.log := by
  intro hmarket hneeded
  unfold finalMarketCheck at h
  rw [if_pos (by rcases hneeded with hn | hn <;> simp [hmarket, hn])] at h
  obtain ⟨price, w₁, hask, h⟩ := bind_ok h
  obtain ⟨-, rfl⟩ := ask_ok hask
  cases price with
  | none => exact (giveUp_ok h).elim
  | some price =>
      simp only at h
      split at h
      · exact (giveUp_ok h).elim
      · rename_i hpos
        split at h
        · exact (giveUp_ok h).elim
        · rename_i hfavorable
          obtain ⟨hprofit, hlooked⟩ := marketProfit_ok h
          refine ⟨price, not_le.mp hpos, ?_, ?_, ?_⟩
          · rintro p hp
            rw [Option.mem_def] at hp
            subst hp
            simpa using hfavorable
          · intro hcheck
            exact ⟨reference, by rw [hprofit hcheck]⟩
          · intro hcheck
            rw [hlooked hcheck]

/-- The permit that a Binance order is sent with: the caller's, or the one that the provider issued
for exactly this order on the state that it then found unchanged. -/
def Permitted (c : Call) (log : List Event) (price qty : ℚ) (p : Permit) : Prop :=
  c.cachePermit = some p ∨
    (.preflight price qty (.ok (some p)) ∈ log ∧ ∃ st, .prepared (.ok (some st)) ∈ log ∧
      .validated st (.ok ()) ∈ log)

theorem permit_ok {state : Option OrderState} {permitPrice : Option ℚ}
    (h : permit E c state w = .ok permitPrice w') (hpermit : w.locals.cachePermit = c.cachePermit)
    (hstate : E.isBinance = true → c.cachePermit = none →
      ∃ st, state = some st ∧ .prepared (.ok (some st)) ∈ w.log) :
    w'.locals.price = w.locals.price ∧ w'.locals.qty = w.locals.qty ∧
      (E.isBinance = true → ∃ p, w'.locals.cachePermit = some p ∧
        Permitted c w'.log w'.locals.price w'.locals.qty p) := by
  unfold permit at h
  obtain ⟨l, w₁, hlocals, h⟩ := bind_ok h
  cases hlocals
  rw [hpermit] at h
  split at h
  · rename_i hcond
    obtain ⟨hbinance, hnone⟩ := Bool.and_eq_true_iff.mp hcond
    obtain ⟨st, rfl, hprepared⟩ := hstate hbinance (Option.isNone_iff_eq_none.mp hnone)
    cases hpreflight : E.provider.preflightOrder with
    | none =>
        rw [hpreflight] at h
        cases h
    | some preflight =>
        rw [hpreflight] at h
        obtain ⟨issued, w₂, hask, h⟩ := bind_ok h
        obtain ⟨-, rfl⟩ := ask_ok hask
        cases issued with
        | none => cases h
        | some p =>
            obtain ⟨_, w₃, hassign, h⟩ := bind_ok h
            cases hassign
            cases hvalidate : E.provider.validateOrderState with
            | none =>
                rw [hvalidate] at h
                cases h
            | some validate =>
                rw [hvalidate] at h
                obtain ⟨_, w₄, hvalid, h⟩ := bind_ok h
                obtain ⟨-, rfl⟩ := ask_ok hvalid
                obtain ⟨-, rfl⟩ := pure_ok h
                refine ⟨rfl, rfl, fun _ => ⟨p, rfl, .inr ⟨?_, st, ?_, ?_⟩⟩⟩
                · exact List.mem_cons_of_mem _ List.mem_cons_self
                · exact List.mem_cons_of_mem _ (List.mem_cons_of_mem _ hprepared)
                · exact List.mem_cons_self
  · rename_i hcond
    obtain ⟨-, rfl⟩ := pure_ok h
    refine ⟨rfl, rfl, fun hbinance => ?_⟩
    cases hp : c.cachePermit with
    | none => simp [hbinance, hp] at hcond
    | some p => exact ⟨p, hpermit.trans hp, .inl hp⟩

end TradingFleet.Placement
