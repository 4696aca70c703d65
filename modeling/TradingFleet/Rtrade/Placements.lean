import TradingFleet.Rtrade.Recoveries

set_option autoImplicit false

/-! # Placements

An order goes out in two writes: its intent before, what came of it after. The slot was found free
before the first, so an order that is sent is the only one of its slot that may stand. -/

namespace TradingFleet.Rtrade

open TradingFleet.Buckets TradingFleet.Hoare TradingFleet.Lifecycle TradingFleet.Text

variable {V : Venue} {log : List Event} {pairId : String} {side : Pair.Side} {kind : String}

/-! ## Sending -/

/-- What keeps `At` ends well. -/
theorem at_good {α : Type} {x : Running α} (hx : Keeps (At V log) x) :
    Triple (At V log) x (fun _ => At V log) (fun _ => Good V) :=
  hx.conseq (fun _ hs => hs) (fun _ _ hs => hs) (fun _ _ hs => hs.good)

theorem At.keeps_good {α : Type} {x : Running α} (hx : Keeps (At V log) x) :
    Triple (At V log) x (fun _ => Good V) (fun _ => Good V) :=
  hx.conseq (fun _ hs => hs) (fun _ _ hs => hs.good) (fun _ _ hs => hs.good)

/-- An entry of the log is in order if an order that it sends has its intent, and what was sent in
the slot before was refused. -/
theorem Inv.logged {pairs : Pairs} (h : Inv V pairs log) {e : Event}
    (hsent : ∀ q side kind outcome, e = .submitted q side kind outcome →
      V.own q = true ∧ Holds pairs q (slotKey kind side) ∧
        ∀ earlier, .submitted q side kind earlier ∈ log → earlier = .refused) :
    Inv V pairs (e :: log) where
  wellformed := h.wellformed
  owned q r hr hq := (h.owned q r hr hq).imp_right
    (fun hover hterminal => List.mem_cons_of_mem _ (hover hterminal))
  sent q side kind outcome hmem := by
    rcases List.mem_cons.mp hmem with heq | hmem
    · exact (hsent q side kind outcome heq.symm).1
    · exact h.sent q side kind outcome hmem
  held q side kind outcome hmem hne := by
    rcases List.mem_cons.mp hmem with heq | hmem
    · exact .inr (hsent q side kind outcome heq.symm).2.1
    · exact (h.held q side kind outcome hmem hne).imp_left (List.mem_cons_of_mem _)
  once := by
    refine List.pairwise_cons.mpr ⟨fun earlier hmem => ?_, h.once⟩
    rintro q side kind outcome outcome' heq rfl
    exact (hsent q side kind outcome heq).2.2 outcome' hmem

/-- An order is sent in a free slot that has its intent. -/
theorem Inv.send {pairs : Pairs} (h : Inv V pairs log) (hown : V.own pairId = true)
    (hopen : .finished pairId ∉ log) (hfree : Free log pairId (slotKey kind side))
    (hholds : Holds pairs pairId (slotKey kind side)) (outcome : SubmissionState) :
    Inv V pairs (.submitted pairId side kind outcome :: log) := by
  refine h.logged (fun q side' kind' outcome' heq => ?_)
  cases heq
  refine ⟨hown, hholds, fun earlier hmem => ?_⟩
  rcases hfree with hover | hrefused
  · exact absurd hover hopen
  · exact hrefused side kind earlier rfl hmem

/-- A slot stays free when the order sent in it is refused. -/
theorem Free.refused {key : String} (h : Free log pairId key) :
    Free (.submitted pairId side kind .refused :: log) pairId key := by
  refine h.imp (List.mem_cons_of_mem _) (fun hrefused side' kind' outcome hkey hmem => ?_)
  rcases List.mem_cons.mp hmem with heq | hmem
  · cases heq
    rfl
  · exact hrefused side' kind' outcome hkey hmem

/-- A round that is over is written down as such. -/
theorem Inv.finish {pairs : Pairs} (h : Inv V pairs log) (q : String) :
    Inv V pairs (.finished q :: log) :=
  h.logged (fun _ _ _ _ heq => nomatch heq)

theorem Inv.finishAll {pairs : Pairs} (h : Inv V pairs log) (pairIds : List String) :
    Inv V pairs (pairIds.map Event.finished ++ log) := by
  induction pairIds with
  | nil => exact h
  | cons q rest ih => exact ih.finish q

/-- **Rounds are over once the file says so.** An operation that ends them may count on it. -/
theorem mutateEnding_good {ended : List String} {op : StoreOp}
    (hop : ∀ now pairs d, Inv V pairs (ended.map Event.finished ++ log) →
      op now pairs = .ok (some d) → Inv V d (ended.map Event.finished ++ log)) :
    Triple (At V log) (mutateEnding V ended op) (fun _ => Good V) (fun _ => Good V) := by
  intro w hw
  have hread := meanwhile_at hw
  have hinstall : ∀ change, changeOf V op (V.wall w.calls) (w.meanwhile V).pairs = .ok change →
      Good V ((w.meanwhile V).install ended change) := by
    intro change hchange
    obtain ⟨c, hc, rfl⟩ := changeOf_ok hchange
    cases c with
    | none => exact hread.good
    | some d =>
        have hover := hread.1.finishAll ended
        show Inv V (written V.retention d) (ended.map Event.finished ++ w.log)
        rw [hw.2]
        exact (hop _ _ d hover hc).written V.retention
  unfold mutateEnding
  simp only
  cases hchange : changeOf V op (V.wall w.calls) (w.meanwhile V).pairs with
  | error e =>
      cases V.store w.calls with
      | none => exact hread.good
      | some fault =>
          obtain ⟨stop, wrote⟩ := fault
          cases wrote with
          | false => exact hread.good
          | true => exact hread.good
  | ok change =>
      cases V.store w.calls with
      | none => exact hinstall change hchange
      | some fault =>
          -- a call that raised after it wrote has ended the rounds as well
          obtain ⟨stop, wrote⟩ := fault
          cases wrote with
          | false => exact hread.good
          | true => exact hinstall change hchange

/-! ## What comes of a submission -/

/-- An answer that is no refusal does not mark an intent as refused. -/
def Plain (answer : Except Exc Response) : Prop :=
  ∀ p : Intent, preSubmitRefusal p = false → (captureSubmission answer).state ≠ .refused →
    preSubmitRefusal (p.submitted (captureSubmission answer)) = false

/-- An unknown outcome marks nothing as refused. -/
theorem unknown_refusal (p : Intent) (error : Option String) (hp : preSubmitRefusal p = false) :
    preSubmitRefusal { p with submissionOutcome := some .unknown, submitError := error } =
      false := by
  rw [preSubmitRefusal_false] at hp ⊢
  exact ⟨by simp, hp.2⟩

theorem plain_error (e : Exc) : Plain (.error e) := by
  intro p hp hstate
  unfold captureSubmission at hstate ⊢
  by_cases he : e.kind = .refused
  · simp only [he, if_true] at hstate
    exact absurd rfl hstate
  · simp only [he, if_false]
    exact unknown_refusal p _ hp

theorem plain_native {native : Native} (hplain : plainStatus native = true) :
    Plain (.ok (.native native)) := by
  intro p hp _
  unfold captureSubmission
  simp only
  cases extractOrderId native with
  | none => exact unknown_refusal p _ hp
  | some orderId =>
      have hfields : ∀ fields : OrderFields, fields.submissionOutcome = some .accepted →
          (fields.submitStatus = none ∨ fields.submitStatus = (orderFields native).submitStatus) →
          preSubmitRefusal ({ p with submissionOutcome := some .accepted }.update fields) =
            false := by
        intro fields houtcome hstatus
        rw [preSubmitRefusal_false] at hp ⊢
        refine ⟨by simp [Pending.update, houtcome], ?_⟩
        show lower ((fields.submitStatus <|> p.submitStatus).getD "") ≠ _
        unfold plainStatus at hplain
        have hplain := of_decide_eq_true hplain
        cases hfield : fields.submitStatus with
        | none => exact hp.2
        | some status =>
            rcases hstatus with hnone | hsame
            · rw [hfield] at hnone
              cases hnone
            · rw [← hsame, hfield] at hplain
              exact hplain
      refine hfields (outcomeFields _) ?_ ?_
      · unfold outcomeFields
        simp only
        split
        · rfl
        · show ((orderFields native).submissionOutcome <|> some SubmissionState.accepted) = _
          rw [orderFields_outcome]
          rfl
      · unfold outcomeFields
        simp only
        split
        · exact .inl rfl
        · right
          show ((orderFields native).submitStatus <|> none) = _
          cases (orderFields native).submitStatus <;> rfl

theorem placeAnswer_plain {reply : Except Exc PlaceReply}
    (h : ∀ r, reply = .ok r → plainStatus r.response = true) : Plain (placeAnswer reply) := by
  cases reply with
  | error e => exact plain_error e
  | ok r =>
      show Plain (propagateSubmissionRefusal r)
      unfold propagateSubmissionRefusal
      split
      · split
        · exact plain_error _
        · exact plain_native (h r rfl)
      · exact plain_native (h r rfl)

/-- The slot is free and has its intent: the order may go out. -/
structure Armed (V : Venue) (log : List Event) (pairId : String) (side : Pair.Side)
    (kind : String) : Prop where
  own : V.own pairId = true
  opened : .finished pairId ∉ log
  free : Free log pairId (slotKey kind side)

theorem submitOnce_triple (h : Armed V log pairId side kind) :
    Triple (fun w => At V log w ∧ Holds w.pairs pairId (slotKey kind side))
      (submitOnce V pairId side kind)
      (fun answer w => Plain answer ∧
        At V (.submitted pairId side kind (captureSubmission answer).state :: log) w)
      (fun _ => Good V) := by
  intro w hw
  have hsend := fun outcome => hw.1.1.send h.own h.opened h.free hw.2 outcome
  unfold submitOnce
  simp only
  cases hplace : V.place w.calls with
  | error stop =>
      show Inv V w.pairs (_ :: w.log)
      rw [hw.1.2]
      exact hsend .unknown
  | ok reply =>
      refine ⟨placeAnswer_plain (fun r hr => V.placed_plain w.calls r (hr ▸ hplace)), ?_, ?_⟩
      · exact hsend _
      · show _ :: w.log = _
        rw [hw.1.2]

/-! ## Limit orders -/

theorem newIntent_triple {persist : Option Intent → Running Unit} (a : NewIntent Recovery) :
    Triple (At V log) (newIntent (lifecycleEnv V persist) a)
      (fun p w => preSubmitRefusal p = false ∧ At V log w) (fun _ => At V log) := by
  unfold newIntent Lifecycle.now
  have hclock : Keeps (At V log) (lifecycleEnv V persist).clock := ask_at
  refine Triple.bind (Q := fun _ => At V log) (Triple.bind hclock (fun raw => ?_)) (fun t => ?_)
  · cases Raw.positive raw with
    | none => exact Triple.throw (fun _ hs => hs)
    | some t => exact Triple.pure (fun _ hs => hs)
  · refine Triple.bind (Q := fun _ => At V log) ?_ (fun _ => ?_)
    · cases validateIdentity (a.record t) with
      | error e => exact Triple.throw (fun _ hs => hs)
      | ok _ => exact Triple.pure (fun _ hs => hs)
    · refine Triple.ite (Triple.throw (fun _ hs => hs)) (Triple.pure (fun _ hs => ⟨rfl, hs⟩))

theorem submit_triple (h : Armed V log pairId side kind) {p : Intent}
    (hp : preSubmitRefusal p = false) :
    Triple (At V log)
      (submit (lifecycleEnv V (persistRaw V pairId side kind)) (submitOnce V pairId side kind) p)
      (fun _ => Good V) (fun _ => Good V) := by
  unfold submit
  refine Triple.bind (Q := fun _ => At V log) ?_ (fun _ => ?_)
  · cases validateIdentity p with
    | error e => exact Triple.throw (fun _ hs => hs.good)
    | ok _ => exact Triple.pure (fun _ hs => hs)
  · have hcounts : (Stored.tracked { p with side := legSide side, kind := some kind }).refusal =
        false := hp
    -- the intent is in the store when the order goes out
    have hput := put_holds side kind h.own h.opened p.requestedQty hcounts
    refine Triple.bind (hput.conseq (fun _ hs => hs) (fun _ _ hs => hs) (fun _ _ hs => hs.good))
      (fun _ => ?_)
    have haudit : Keeps (fun w => At V log w ∧ Holds w.pairs pairId (slotKey kind side))
        ((lifecycleEnv V (persistRaw V pairId side kind)).audit .submitRequested p) :=
      (ask_triple (fun _ _ hs => hs)).weaken (fun _ _ hs => hs.1)
    refine Triple.bind (haudit.conseq (fun _ hs => hs) (fun _ _ hs => hs)
      (fun _ _ hs => hs.1.good)) (fun _ => ?_)
    refine Triple.bind (submitOnce_triple h) (fun answer => Triple.of_fact (fun hplain => ?_))
    dsimp only
    -- a refusal is written in a slot that stays free
    have hsafe : preSubmitRefusal (p.submitted (captureSubmission answer)) = true →
        Free (.submitted pairId side kind (captureSubmission answer).state :: log) pairId
          (slotKey kind side) := by
      intro hrefused
      by_cases hstate : (captureSubmission answer).state = .refused
      · rw [hstate]
        exact h.free.refused
      · -- and no other outcome looks like a refusal
        rw [hplain p hp hstate] at hrefused
        cases hrefused
    have hpersist := persistSome_at (V := V) h.own hsafe
    refine At.keeps_good (Keeps.bind hpersist (fun _ => ?_))
    cases (captureSubmission answer).state with
    | refused => exact Keeps.bind ask_at (fun _ => Keeps.pure _)
    | unknown => exact Keeps.bind ask_at (fun _ => Keeps.pure _)
    | accepted => exact Keeps.bind ask_at (fun _ => Keeps.pure _)

theorem submitLimitIntent_triple (h : Armed V log pairId side kind) (price qty : ℚ)
    (revision : Int) :
    Triple (At V log) (submitLimitIntent V side price qty pairId kind revision)
      (fun _ => Good V) (fun _ => Good V) := by
  unfold submitLimitIntent
  refine Triple.bind ((newIntent_triple _).conseq (fun _ hs => hs) (fun _ _ hs => hs)
    (fun _ _ hs => hs.good)) (fun p => Triple.of_fact (fun hp => ?_))
  refine Triple.bind (submit_triple h hp) (fun result => ?_)
  exact Keeps.bind (ticketFromPending_keeps (fun _ _ hs => hs) _) (fun _ => Keeps.pure _)

theorem good_updates {f : World → World} (hpairs : ∀ w, (f w).pairs = w.pairs)
    (hlog : ∀ w, (f w).log = w.log) : Keeps (Good V) (modify f : Running PUnit) := by
  refine Triple.updates (fun w hw => ?_)
  unfold Good
  rw [hpairs, hlog]
  exact hw

theorem setBlocked_good (blocked : Bool) : Keeps (Good V) (setBlocked pairId blocked) :=
  good_updates (fun _ => rfl) (fun _ => rfl)

theorem setFailure_good (reason : Option String) : Keeps (Good V) (setFailure side reason) :=
  good_updates (fun _ => rfl) (fun _ => rfl)

theorem placeFresh_triple (h : Armed V log pairId side kind) (price qty : ℚ) (revision : Int) :
    Triple (At V log) (placeFresh V side price qty pairId kind revision)
      (fun _ => Good V) (fun _ => Good V) := by
  unfold placeFresh
  refine Triple.bind (at_good ask_at) (fun cap => ?_)
  refine Triple.ite ?_ ?_
  · exact Triple.bind (at_good (setFailure_at _ _)) (fun _ => Triple.pure (fun _ hs => hs.good))
  · refine Triple.bind (submitLimitIntent_triple h price qty revision) (fun sent => ?_)
    obtain ⟨ticket, pending⟩ := sent
    cases ticket with
    | some ticket => exact Keeps.bind (setBlocked_good _) (fun _ => Keeps.pure _)
    | none =>
        refine Triple.ite (Keeps.pure _) ?_
        exact Keeps.bind (setBlocked_good _)
          (fun _ => Keeps.bind (setFailure_good _) (fun _ => Keeps.pure _))

/-- A slot is looked up before an order goes out in it. -/
theorem unlessInUse_triple (hown : V.own pairId = true) (hopen : .finished pairId ∉ log)
    {fresh : Running (Option Pair.OrderTicket)}
    (hfresh : Armed V log pairId side kind →
      Triple (At V log) fresh (fun _ => Good V) (fun _ => Good V)) :
    Triple (At V log) (reconcileExisting V pairId side kind >>= unlessInUse side fresh)
      (fun _ => Good V) (fun _ => Good V) := by
  refine Triple.bind ((reconcileExisting_triple hown side kind).conseq (fun _ hs => hs)
    (fun _ _ hs => hs) (fun _ _ hs => hs.good)) (fun existing => Triple.of_fact (fun hfree => ?_))
  cases existing with
  | nothing => exact hfresh ⟨hown, hopen, hfree (.inl rfl)⟩
  | safeRefusal => exact hfresh ⟨hown, hopen, hfree (.inr rfl)⟩
  | pending =>
      exact Triple.bind (at_good (setFailure_at _ _)) (fun _ => Triple.pure (fun _ hs => hs.good))
  | recovered ticket => exact Triple.pure (fun _ hs => hs.good)

/-- **`place_limit` keeps the invariant**, for a round that is not over. -/
theorem placeLimit_triple (hown : V.own pairId = true) (hopen : .finished pairId ∉ log)
    (price qty : ℚ) (revision : Int) :
    Triple (At V log) (placeLimit V side price qty pairId revision)
      (fun _ => Good V) (fun _ => Good V) := by
  unfold placeLimit limitKind
  refine Triple.bind (at_good (Triple.ite (Keeps.pure _) (raise_at _))) (fun kind => ?_)
  refine Triple.bind (at_good (setFailure_at _ _)) (fun _ => ?_)
  exact unlessInUse_triple hown hopen (fun h => placeFresh_triple h price qty revision)

/-! ## Market exits -/

/-- The intent of a slot is read; if it is marked as refused the slot is free. -/
theorem storedIntent_triple (hown : V.own pairId = true) :
    Triple (At V log) (storedIntent V pairId side kind)
      (fun found w => (∀ record stored, found = some (record, stored) →
        stored.refusal = true → Free log pairId (slotKey kind side)) ∧ At V log w)
      (fun _ => At V log) := by
  unfold storedIntent
  refine Triple.bind (pairRecord_triple hown) (fun found => Triple.of_fact (fun hread => ?_))
  cases found with
  | none => exact Triple.pure (fun _ hs => ⟨fun _ _ h => (nomatch h), hs⟩)
  | some r =>
      refine Triple.pure (fun _ hs => ⟨fun record stored hfound hrefusal => ?_, hs⟩)
      obtain ⟨value, hvalue, heq⟩ := Option.map_eq_some_iff.mp hfound
      cases heq
      exact (hread.2 r rfl).refused _ (mem_of_lookup hvalue) hrefusal

theorem noteIntent_at (hown : V.own pairId = true) {change : Intent → Intent}
    (hsafe : ∀ p, preSubmitRefusal (change p) = true → preSubmitRefusal p = true ∨
      Free log pairId (slotKey kind side)) :
    Keeps (At V log) (noteIntent V pairId side kind change) := by
  unfold noteIntent
  refine Triple.bind (storedIntent_triple hown) (fun found => Triple.of_fact (fun hfound => ?_))
  cases found with
  | none => exact Keeps.pure _
  | some found =>
      refine get_triple (fun w => persistSome_at hown (fun hrefused => ?_))
      rcases hsafe _ hrefused with hstored | hfree
      · rw [canonicalIntent_refusal] at hstored
        exact hfound _ _ rfl hstored
      · exact hfree

theorem settleMarket_at (hown : V.own pairId = true) {price qty : ℚ} {revision : Int}
    {replacement : Bool} {answer : Except Exc String}
    (hrefused : ∀ e, answer = .error e → e.kind = .refused →
      Free log pairId (slotKey kind side)) :
    Keeps (At V log) (settleMarket V side price qty pairId kind revision replacement answer) := by
  cases answer with
  | error e =>
      unfold settleMarket noteRefusal
      dsimp only
      by_cases hkind : e.kind = .refused
      · rw [if_pos hkind]
        -- dropped, or kept with the mark of the refusal
        have hfree := hrefused e rfl hkind
        refine Keeps.bind (Triple.ite ?_ (persistNone_at hfree)) (fun _ => raise_at e)
        exact noteIntent_at hown (fun _ _ => .inr hfree)
      · rw [if_neg hkind]
        refine Triple.ite ?_ (raise_at e)
        refine Keeps.bind (noteIntent_at hown (fun p hmark => .inl ?_)) (fun _ => ?_)
        · -- an unknown outcome leaves the status as it was
          by_contra hp
          rw [unknown_refusal p _ (by simpa using hp)] at hmark
          cases hmark
        · exact Keeps.bind (setBlocked_at _)
            (fun _ => Keeps.bind (setFailure_at _ _) (fun _ => Keeps.pure _))
  | ok orderId =>
      unfold settleMarket
      refine Triple.ite ?_ ?_
      · exact Keeps.bind (setBlocked_at _)
          (fun _ => Keeps.bind (setFailure_at _ _) (fun _ => Keeps.pure _))
      · refine Keeps.bind (makeTicket_keeps _) (fun ticket => ?_)
        refine Keeps.bind (mutate_at (fun _ _ _ h hd => storeAccepted_inv h hd)) (fun _ => ?_)
        exact Keeps.bind (setBlocked_at _) (fun _ => Keeps.pure _)

/-- What `submitMarketOnce` writes in the log agrees with its answer. -/
theorem submitMarketOnce_triple (h : Armed V log pairId side kind) :
    Triple (fun w => At V log w ∧ Holds w.pairs pairId (slotKey kind side))
      (submitMarketOnce V pairId side kind)
      (fun answer w => ∃ outcome, At V (.submitted pairId side kind outcome :: log) w ∧
        ∀ e, marketAnswer answer = .error e → e.kind = .refused → outcome = .refused)
      (fun _ => Good V) := by
  intro w hw
  have hsend : ∀ outcome, At V (.submitted pairId side kind outcome :: log)
      { w with calls := w.calls + 1, log := .submitted pairId side kind outcome :: w.log } :=
    fun outcome => ⟨hw.1.1.send h.own h.opened h.free hw.2 outcome, congrArg _ hw.1.2⟩
  unfold submitMarketOnce
  simp only
  cases V.submitMarket w.calls with
  | error stop => exact (hsend .unknown).good
  | ok answer =>
      cases answer with
      | error e =>
          refine ⟨_, hsend _, fun e' he' hkind => ?_⟩
          cases he'
          exact if_pos hkind
      | ok outcome =>
          refine ⟨_, hsend _, fun e' he' hkind => ?_⟩
          unfold marketAnswer at he'
          simp only at he'
          cases hstate : outcome.state with
          | refused => rfl
          | unknown =>
              rw [hstate] at he'
              cases he'
              cases hkind
          | accepted =>
              rw [hstate] at he'
              cases he'

theorem exitSend_triple (h : Armed V log pairId side kind) (price qty : ℚ)
    (cachePermit : Option String) (revision : Int) :
    Triple (At V log) (exitSend V side price qty pairId kind cachePermit revision)
      (fun _ => Good V) (fun _ => Good V) := by
  unfold exitSend
  have hcounts : (Stored.written
      { side := side, price := price, qty := qty, clientOrderId := clientOrderId V pairId side kind,
        kind := kind }).refusal = false := rfl
  -- as for a limit order, the intent comes first
  have hput := put_holds side kind h.own h.opened qty hcounts
  refine Triple.bind (hput.conseq (fun _ hs => hs) (fun _ _ hs => hs) (fun _ _ hs => hs.good))
    (fun _ => ?_)
  refine Triple.bind (submitMarketOnce_triple h) (fun answer w hw => ?_)
  obtain ⟨outcome, hat, hrefused⟩ := hw
  have hsettle : Keeps (At V (.submitted pairId side kind outcome :: log))
      (settleMarket V side price qty pairId kind revision cachePermit.isSome
        (marketAnswer answer)) := by
    refine settleMarket_at h.own (fun e he hkind => ?_)
    rw [hrefused e he hkind]
    exact h.free.refused
  exact At.keeps_good hsettle w hat

theorem marketQty_at : Keeps (At V log) (marketQty V) := by
  unfold marketQty
  refine Keeps.bind ask_at (fun qty => Triple.ite (Keeps.pure _) ?_)
  refine Keeps.bind ask_at (fun precision => ?_)
  cases precision with
  | none => exact Keeps.pure _
  | some precision => exact Keeps.pure _

theorem exitFresh_triple (h : Armed V log pairId side kind) (cachePermit : Option String)
    (revision : Int) :
    Triple (At V log) (exitFresh V side pairId kind cachePermit revision)
      (fun _ => Good V) (fun _ => Good V) := by
  unfold exitFresh
  refine Triple.bind (at_good ask_at) (fun live => ?_)
  refine Triple.ite (Triple.pure (fun _ hs => hs.good)) ?_
  refine Triple.bind (at_good marketQty_at) (fun qty => ?_)
  cases qty with
  | none => exact Triple.pure (fun _ hs => hs.good)
  | some qty =>
      have hsend := exitSend_triple h (live.getD 0) qty cachePermit revision
      exact Triple.ite (Triple.bind (at_good ask_at) (fun _ => hsend)) hsend

/-- **`place_market_exit` keeps the invariant**, for a round that is not over. -/
theorem placeMarketExit_triple (hown : V.own pairId = true) (hopen : .finished pairId ∉ log)
    (cachePermit : Option String) (revision : Int) :
    Triple (At V log) (placeMarketExit V side pairId cachePermit revision)
      (fun _ => Good V) (fun _ => Good V) := by
  unfold placeMarketExit hardStopKind
  refine Triple.bind (at_good (Triple.ite (Keeps.pure _) (raise_at _))) (fun kind => ?_)
  refine Triple.bind (at_good (setFailure_at _ _)) (fun _ => ?_)
  exact unlessInUse_triple hown hopen (fun h => exitFresh_triple h cachePermit revision)

end TradingFleet.Rtrade
