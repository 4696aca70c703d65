import TradingFleet.Rtrade.Programs

set_option autoImplicit false

/-! # Recoveries

A recovery keeps the intent it recovers: the lifecycle may give an order up, the callback of the
venue writes the intent again with a mark. So a recovery sends nothing and frees no slot. -/

namespace TradingFleet.Rtrade

open TradingFleet.Buckets TradingFleet.Hoare TradingFleet.Lifecycle TradingFleet.Text

variable {V : Venue} {log : List Event} {pairId : String}

/-! ## Refusals -/

theorem preSubmitRefusal_false {p : Intent} : preSubmitRefusal p = false ↔
    p.submissionOutcome ≠ some .refused ∧
      lower (p.submitStatus.getD "") ≠ "refused_before_submit" := by
  unfold preSubmitRefusal
  rw [Bool.or_eq_false_iff, decide_eq_false_iff_not, decide_eq_false_iff_not]

theorem canonicalIntent_refusal (record : PairRecord) (now : ℚ) (stored : Stored) :
    preSubmitRefusal (canonicalIntent record now stored) = stored.refusal := by
  cases stored with
  | written i => rfl
  | tracked p => rfl

theorem marked_refusal (p : Intent) (now pollSec : ℚ) :
    preSubmitRefusal (Pending.marked p now pollSec) = preSubmitRefusal p := by
  unfold Pending.marked
  split
  · rfl
  · split
    · rfl
    · rfl

theorem sameOrder_refusal {p q : Intent} (h : p.SameOrder q) :
    preSubmitRefusal q = preSubmitRefusal p := by
  unfold preSubmitRefusal
  rw [h.submissionOutcome, h.submitStatus]

theorem orderFields_outcome (native : Native) :
    (orderFields native).submissionOutcome = none := by
  unfold orderFields
  split
  · rfl
  · split
    · rfl
    · rfl
  · rfl
  · rfl

/-- An answer of the venue does not make a refusal of an intent. -/
theorem recovered_refusal {p : Intent} {native : Native} (hplain : plainStatus native = true)
    (hp : preSubmitRefusal p = false) :
    preSubmitRefusal (p.recovered (orderFields native)) = false := by
  have houtcome : (p.recovered (orderFields native)).submissionOutcome = p.submissionOutcome := by
    show ((orderFields native).submissionOutcome <|> p.submissionOutcome) = _
    rw [orderFields_outcome]
    rfl
  have hstatus : (p.recovered (orderFields native)).submitStatus =
      ((orderFields native).submitStatus <|> p.submitStatus) := rfl
  rw [preSubmitRefusal_false] at hp ⊢
  rw [houtcome, hstatus]
  refine ⟨hp.1, ?_⟩
  cases hnative : (orderFields native).submitStatus with
  | none => exact hp.2
  | some status =>
      unfold plainStatus at hplain
      rw [hnative] at hplain
      exact of_decide_eq_true hplain

/-! ## The callback -/

/-- The local `retained` has an intent that counts. -/
def Retains (w : World) : Prop := ∃ q, w.retained = some q ∧ preSubmitRefusal q = false

theorem mutate_retained {op : StoreOp} {q : Option Intent} :
    Keeps (fun w => w.retained = q) (mutate V op) :=
  mutateEnding_frame (fun _ _ _ _ h => h) [] op

theorem retainedAfter_counts {w : World} (now : ℚ) {value : Option Intent} (hw : Retains w)
    (hvalue : ∀ p, value = some p → preSubmitRefusal p = false) :
    ∃ q, retainedAfter V now w value = some q ∧ preSubmitRefusal q = false := by
  cases value with
  | none =>
      obtain ⟨q, hq, hcounts⟩ := hw
      refine ⟨Pending.absent q now V.pollSec, ?_, hcounts⟩
      show w.retained.map _ = _
      rw [hq]
      rfl
  | some p => exact ⟨_, rfl, (marked_refusal p now V.pollSec).trans (hvalue p rfl)⟩

theorem persistRecovered_triple (hown : V.own pairId = true) (side : Pair.Side) (kind : String)
    (now : ℚ) (log : List Event) (value : Option Intent)
    (hvalue : ∀ p, value = some p → preSubmitRefusal p = false) :
    Triple (fun w => At V log w ∧ Retains w) (persistRecovered V pairId side kind now value)
      (fun _ w => At V log w ∧ Retains w) (fun _ => At V log) := by
  unfold persistRecovered
  refine Triple.get (fun w₀ h₀ => ?_)
  obtain ⟨q, hq, hcounts⟩ := retainedAfter_counts (V := V) now h₀.2 hvalue
  rw [hq]
  refine Triple.bind (Q := fun _ w => At V log w ∧ w.retained = some q)
    (Triple.updates (fun s hs => ?_)) (fun _ => ?_)
  · subst hs
    exact ⟨h₀.1, rfl⟩
  · have hpersist : Keeps (At V log) (persistRaw V pairId side kind (some q)) :=
      persistSome_at hown (fun hrefused => by rw [hcounts] at hrefused; cases hrefused)
    exact (hpersist.and mutate_retained).conseq (fun _ h => h)
      (fun _ _ h => ⟨h.1, q, h.2, hcounts⟩) (fun _ _ h => h.1)

/-- An intent is this order: its ID is stored, or the venue gave it for the client ID. -/
def Identifies (found : List (String × Native)) (clientOrderId : String)
    (stored : Option String) (orderId : String) : Prop :=
  stored = some orderId ∨
    (truthy stored = false ∧
      ∃ native, (clientOrderId, native) ∈ found ∧ (orderFields native).orderId = some orderId)

theorem Identifies.mono {found found' : List (String × Native)} {clientOrderId orderId : String}
    {stored : Option String} (h : Identifies found clientOrderId stored orderId)
    (hsub : found ⊆ found') : Identifies found' clientOrderId stored orderId :=
  h.imp_right (fun ⟨hno, native, hmem, hid⟩ => ⟨hno, native, hsub hmem, hid⟩)

/-- What a recovery of `p₀` keeps true of the intent it works on; a known order ID stays, and one
that was not known is what the venue answered. -/
structure Recovers (V : Venue) (log : List Event) (p₀ p : Intent) (w : World) : Prop where
  good : At V log w
  retains : Retains w
  counts : preSubmitRefusal p = false
  clientOrderId : p.clientOrderId = p₀.clientOrderId
  known : p₀.orderKnown = true → p.orderId = p₀.orderId
  identified : ∀ orderId, p.orderId = some orderId → orderId ≠ "" →
    Identifies w.found p₀.clientOrderId p₀.orderId orderId

/-- A call that answers about no order. -/
theorem Recovers.called {p₀ p : Intent} {w : World} (h : Recovers V log p₀ p w) (n : Nat) :
    Recovers V log p₀ p { w with calls := n } :=
  ⟨h.good, h.retains, h.counts, h.clientOrderId, h.known, h.identified⟩

theorem Recovers.found {p₀ p : Intent} {w : World} (h : Recovers V log p₀ p w)
    (answer : String × Native) :
    Recovers V log p₀ p { w with found := answer :: w.found } :=
  ⟨h.good, h.retains, h.counts, h.clientOrderId, h.known,
    fun orderId hid hne => (h.identified orderId hid hne).mono (List.subset_cons_self _ _)⟩

/-- The answer to a lookup is taken over; only an order without an ID is looked up. -/
theorem Recovers.looked {p₀ p : Intent} {w : World} (h : Recovers V log p₀ p w)
    (hknown : p.orderKnown = false) {native : Native} (hplain : plainStatus native = true)
    (hmem : (p.clientOrderId, native) ∈ w.found) :
    Recovers V log p₀ (p.recovered (orderFields native)) w := by
  have hunknown : truthy p₀.orderId = false := by
    refine Bool.eq_false_iff.mpr (fun hk => ?_)
    unfold Pending.orderKnown at hknown
    rw [h.known hk, hk] at hknown
    cases hknown
  refine ⟨h.good, h.retains, recovered_refusal hplain h.counts, h.clientOrderId, fun hk => ?_,
    fun orderId hid hne => ?_⟩
  · unfold Pending.orderKnown at hk
    rw [hunknown] at hk
    cases hk
  · have hfields : ((orderFields native).orderId <|> p.orderId) = some orderId := hid
    -- the answer names an order, or leaves the one of the intent
    cases hfield : (orderFields native).orderId with
    | some given =>
        rw [hfield] at hfields
        refine .inr ⟨hunknown, native, h.clientOrderId ▸ hmem, ?_⟩
        rw [hfield]
        exact hfields
    | none =>
        rw [hfield] at hfields
        exact h.identified orderId hfields hne

theorem ask_recovers {α : Type} {p₀ p : Intent} {answer : Nat → Except Stop α} :
    Triple (Recovers V log p₀ p) (ask answer) (fun _ => Recovers V log p₀ p)
      (fun _ => At V log) :=
  (ask_triple (fun _ n h => h.called n)).conseq (fun _ h => h) (fun _ _ h => h.1)
    (fun _ _ h => h.good)

theorem persistRecovered_found (side : Pair.Side) (kind : String) (now : ℚ)
    (value : Option Intent) (found : List (String × Native)) :
    Keeps (fun w => w.found = found) (persistRecovered V pairId side kind now value) := by
  unfold persistRecovered
  refine get_triple (fun w => Keeps.bind (Triple.updates (fun _ h => h)) (fun _ => ?_))
  exact mutateEnding_frame (fun _ _ _ _ h => h) [] _

theorem recovery_tracks (hown : V.own pairId = true) (side : Pair.Side) (kind : String) (now : ℚ)
    (p₀ : Intent) :
    Tracks (lifecycleEnv V (persistRecovered V pairId side kind now)) (Recovers V log p₀)
      (fun _ => At V log) where
  persist p q hpq := by
    refine fun w hw => ?_
    have hq : preSubmitRefusal q = false := (sameOrder_refusal hpq).trans hw.counts
    have hclient : q.clientOrderId = p.clientOrderId := by
      have hinstruction := hpq.instruction
      simp only [Pending.instruction, Prod.mk.injEq] at hinstruction
      exact hinstruction.2.1
    have hpersist := (persistRecovered_triple (V := V) hown side kind now log (some q)
      (fun r hr => by cases hr; exact hq)).and
      (persistRecovered_found side kind now (some q) w.found)
    refine hpersist.conseq (fun _ h => h) (fun _ s hs => ?_) (fun _ _ h => h.1) w
      ⟨⟨hw.good, hw.retains⟩, rfl⟩
    refine ⟨hs.1.1, hs.1.2, hq, hclient.trans hw.clientOrderId,
      fun hk => hpq.orderId.trans (hw.known hk), fun orderId hid hne => ?_⟩
    rw [hs.2]
    exact hw.identified orderId (hpq.orderId ▸ hid) hne
  release p := by
    refine fun w hw => ?_
    have hpersist := (persistRecovered_triple (V := V) hown side kind now log none
      (fun r hr => by cases hr)).and (persistRecovered_found side kind now none w.found)
    refine hpersist.conseq (fun _ h => h) (fun _ s hs => ?_) (fun _ _ h => h.1) w
      ⟨⟨hw.good, hw.retains⟩, rfl⟩
    refine ⟨hs.1.1, hs.1.2, hw.counts, hw.clientOrderId, hw.known, ?_⟩
    rw [hs.2]
    exact hw.identified
  orderByClientId p hknown := by
    refine (askOrder_triple (P := Recovers V log p₀ p) (fun _ n h => h.called n)
      (fun _ native h => h.found (p.clientOrderId, native))).conseq (fun _ h => h) ?_
      (fun _ _ h => h.good)
    rintro answer w ⟨hw, hanswer⟩
    refine ⟨hw, fun native hnative _ => ?_⟩
    obtain ⟨hmem, n, hn⟩ := hanswer native hnative
    exact hw.looked hknown (V.found_plain n native hn) hmem
  orderStatus _ _ := ask_recovers
  cancelOrder _ _ := ask_recovers
  clock _ := ask_recovers
  audit _ _ _ := ask_recovers
  raised _ _ _ h := h.good

/-- What the venue answered before is not forgotten. -/
def Saw (answers : List (String × Native)) (w : World) : Prop := answers ⊆ w.found

theorem saw_called {answers : List (String × Native)} (w : World) (n : Nat) (h : Saw answers w) :
    Saw answers { w with calls := n } := h

theorem mutate_saw {answers : List (String × Native)} (op : StoreOp) :
    Keeps (Saw answers) (mutate V op) :=
  mutateEnding_frame (fun _ _ _ _ h => h) [] op

theorem ask_saw {α : Type} {answers : List (String × Native)} {answer : Nat → Except Stop α} :
    Keeps (Saw answers) (ask answer) :=
  (ask_triple saw_called).weaken (fun _ _ h => h.1)

theorem recovery_saw (answers : List (String × Native)) (side : Pair.Side) (kind : String)
    (now : ℚ) :
    Tracks (lifecycleEnv V (persistRecovered V pairId side kind now)) (fun _ => Saw answers)
      (fun _ => Saw answers) where
  persist _ q _ := by
    unfold lifecycleEnv persistRecovered
    exact get_triple (fun w => Keeps.bind (Triple.updates (fun _ h => h)) (fun _ => mutate_saw _))
  release _ := by
    unfold lifecycleEnv persistRecovered
    exact get_triple (fun w => Keeps.bind (Triple.updates (fun _ h => h)) (fun _ => mutate_saw _))
  orderByClientId p _ :=
    (askOrder_triple saw_called (fun _ _ h => List.subset_cons_of_subset _ h)).weaken
      (fun _ _ h => ⟨h.1, fun _ _ _ => h.1⟩)
  orderStatus _ _ := ask_saw
  cancelOrder _ _ := ask_saw
  clock _ := ask_saw
  audit _ _ _ := ask_saw
  raised _ _ _ h := h

/-! ## Tickets -/

section Tickets

variable {P : World → Prop}

theorem makeTicket_triple (r : Pair.TicketRecord) :
    Triple P (makeTicket r) (fun t w => t.orderId = r.orderId ∧ P w) (fun _ => P) := by
  unfold makeTicket Pair.TicketRecord.ticket
  split
  · rename_i t ht
    split at ht
    · cases ht
      exact Triple.pure (fun _ hs => ⟨rfl, hs⟩)
    · cases ht
  · exact Triple.throw (fun _ hs => hs)

theorem makeTicket_keeps (r : Pair.TicketRecord) : Keeps P (makeTicket r) :=
  (makeTicket_triple r).weaken (fun _ _ h => h.2)

theorem makeSnapshot_keeps (status : OrderStatus) : Keeps P (makeSnapshot status) := by
  unfold makeSnapshot
  split
  · exact Keeps.pure _
  · exact Keeps.throw _

/-- The ticket of an order has its ID. -/
theorem pendingTicket_triple (hP : ∀ w n, P w → P { w with calls := n }) (p : Intent)
    (orderId : String) :
    Triple P (pendingTicket V p pairId orderId) (fun t w => t.orderId = orderId ∧ P w)
      (fun _ => P) := by
  unfold pendingTicket
  refine Triple.bind (Q := fun _ => P) ?_ (fun price => makeTicket_triple _)
  unfold ticketPrice
  refine Triple.ite ?_ (Keeps.pure _)
  exact Keeps.bind ((ask_triple hP).weaken (fun _ _ h => h.1)) (fun _ => Keeps.pure _)

theorem ticketFromPending_keeps (hP : ∀ w n, P w → P { w with calls := n }) (p : Intent) :
    Keeps P (ticketFromPending V p pairId) := by
  unfold ticketFromPending
  cases p.orderId.filter (· ≠ "") with
  | none => exact Keeps.pure _
  | some orderId =>
      refine Keeps.bind ((pendingTicket_triple hP p orderId).weaken (fun _ _ h => h.2))
        (fun t => ?_)
      exact Keeps.pure _

end Tickets

/-! ## The recovery of an intent -/

theorem recoverDue_triple (hown : V.own pairId = true) {side : Pair.Side} {kind : String} {now : ℚ}
    {p : Intent} (hp : preSubmitRefusal p = false) :
    Triple (fun w => At V log w ∧ w.retained = some p)
      (reconcile V.settings (lifecycleEnv V (persistRecovered V pairId side kind now)) p)
      (fun r w => (∀ orderId, r.intent.orderId = some orderId → orderId ≠ "" →
        Identifies w.found p.clientOrderId p.orderId orderId) ∧ At V log w)
      (fun _ => At V log) :=
  (reconcile_tracks (recovery_tracks hown side kind now p) V.settings p).conseq
    (fun _ h => ⟨h.1, ⟨p, h.2, hp⟩, hp, rfl, fun _ => rfl, fun _ hid _ => .inl hid⟩)
    (fun _ _ h => ⟨h.identified, h.good⟩) (fun _ _ h => h)

/-- What a recovery found is the order of the intent. -/
def Recovered.Fits (found : List (String × Native)) (stored : Stored) (result : Recovered) :
    Prop :=
  ∀ ticket snapshot, result = .ok (ticket, snapshot) →
    Identifies found stored.clientOrderId stored.orderId ticket.orderId

theorem fits_error (found : List (String × Native)) (stored : Stored) (message : String) :
    Recovered.Fits found stored (.error message) :=
  fun _ _ h => by cases h

theorem canonicalIntent_ids (record : PairRecord) (now : ℚ) (stored : Stored) :
    (canonicalIntent record now stored).clientOrderId = stored.clientOrderId ∧
      (canonicalIntent record now stored).orderId = stored.orderId := by
  cases stored with
  | written i => exact ⟨rfl, rfl⟩
  | tracked p => exact ⟨rfl, rfl⟩

/-- **A recovery keeps what the store holds**, and finds no other order than the one it knows or
the venue has under the client ID. -/
theorem recoverIntent_triple {record : PairRecord} {stored : Stored}
    (hown : V.own record.pairId = true) (hcounts : stored.refusal = false) :
    Triple (At V log) (recoverIntent V record stored)
      (fun result w => Recovered.Fits w.found stored result ∧ At V log w) (fun _ => At V log) := by
  unfold recoverIntent
  refine get_triple (fun w => ?_)
  have hp : preSubmitRefusal (canonicalIntent record (V.wall w.calls) stored) = false :=
    (canonicalIntent_refusal _ _ _).trans hcounts
  obtain ⟨hclient, hid⟩ := canonicalIntent_ids record (V.wall w.calls) stored
  dsimp only
  generalize canonicalIntent record (V.wall w.calls) stored = p at hp hclient hid ⊢
  have hpersist : ∀ q : Intent, preSubmitRefusal q = false →
      Keeps (At V log) (persistRaw V record.pairId stored.side stored.kind (some q)) :=
    fun q hq => persistSome_at hown (fun hrefused => by rw [hq] at hrefused; cases hrefused)
  have hpending : ∀ {P : World → Prop} message, (∀ w, P w → At V log w) →
      Triple P (pure (.error message) : Running Recovered)
        (fun result w => Recovered.Fits w.found stored result ∧ At V log w) (fun _ => At V log) :=
    fun message hP => Triple.pure (fun w hw => ⟨fits_error w.found stored message, hP w hw⟩)
  refine Triple.bind ask_at (fun now => ?_)
  refine Triple.ite (Triple.throw (fun _ hs => hs)) ?_
  cases recoveryDue V p now with
  -- without a lookup the intent is written back as it counts, or left as it is
  | exhausted => exact Triple.bind (hpersist _ hp) (fun _ => hpending _ (fun _ h => h))
  | manual => exact Triple.bind (hpersist _ hp) (fun _ => hpending _ (fun _ h => h))
  | early => exact hpending _ (fun _ h => h)
  | due =>
      refine Triple.bind (Q := fun _ w => At V log w ∧ w.retained = some p)
        (Triple.updates (fun _ hw => ⟨hw, rfl⟩)) (fun _ => ?_)
      refine Triple.bind (((hpersist p hp).and mutate_retained).conseq (fun _ h => h)
        (fun _ _ h => h) (fun _ _ h => h.1)) (fun _ => ?_)
      refine Triple.bind (recoverDue_triple hown hp) (fun result => ?_)
      refine Triple.ite (hpending _ (fun _ h => h.2)) ?_
      cases horder : result.intent.orderId.filter (· ≠ "") with
      | none => exact hpending _ (fun _ h => h.2)
      | some orderId =>
          obtain ⟨hresult, hne⟩ := Option.filter_eq_some_iff.mp horder
          cases result.status with
          | none => exact hpending _ (fun _ h => h.2)
          | some status =>
              have hfits : ∀ w : World, (∀ id, result.intent.orderId = some id → id ≠ "" →
                  Identifies w.found p.clientOrderId p.orderId id) →
                  Identifies w.found stored.clientOrderId stored.orderId orderId := by
                intro w hw
                rw [← hclient, ← hid]
                exact hw orderId hresult (by simpa using hne)
              refine Triple.bind ((pendingTicket_triple (fun _ _ h => h) _ orderId).conseq
                (fun _ h => h) (fun _ _ h => h) (fun _ _ h => h.2)) (fun ticket => ?_)
              refine Triple.of_fact (fun hticket => ?_)
              refine Triple.bind ((makeSnapshot_keeps status).conseq (fun _ h => h)
                (fun _ _ h => h) (fun _ _ h => h.2)) (fun snapshot => Triple.pure ?_)
              refine fun w hw => ⟨fun t s heq => ?_, hw.2⟩
              cases heq
              rw [hticket]
              exact hfits w hw.1

theorem recoverIntent_at {record : PairRecord} {stored : Stored}
    (hown : V.own record.pairId = true) (hcounts : stored.refusal = false) :
    Keeps (At V log) (recoverIntent V record stored) :=
  (recoverIntent_triple hown hcounts).weaken (fun _ _ h => h.2)

theorem recoverIntent_saw {record : PairRecord} {stored : Stored}
    (answers : List (String × Native)) : Keeps (Saw answers) (recoverIntent V record stored) := by
  unfold recoverIntent
  refine get_triple (fun w => Keeps.bind ask_saw (fun now => Triple.ite (Keeps.throw _) ?_))
  cases recoveryDue V (canonicalIntent record (V.wall w.calls) stored) now with
  | exhausted => exact Keeps.bind (mutate_saw _) (fun _ => Keeps.pure _)
  | manual => exact Keeps.bind (mutate_saw _) (fun _ => Keeps.pure _)
  | early => exact Keeps.pure _
  | due =>
      refine Keeps.bind (Triple.updates (fun _ h => h)) (fun _ => ?_)
      refine Keeps.bind (mutate_saw _) (fun _ => ?_)
      refine Keeps.bind (reconcile_tracks (recovery_saw answers _ _ now) V.settings _)
        (fun result => Triple.ite (Keeps.pure _) ?_)
      cases result.intent.orderId.filter (· ≠ "") with
      | none => exact Keeps.pure _
      | some orderId =>
          cases result.status with
          | none => exact Keeps.pure _
          | some status =>
              refine Keeps.bind ((pendingTicket_triple saw_called _ orderId).weaken
                (fun _ _ h => h.2)) (fun ticket => ?_)
              exact Keeps.bind (makeSnapshot_keeps status) (fun snapshot => Keeps.pure _)

/-- **Before a slot is used.** A slot that is not recovered and not pending is free. -/
theorem reconcileExisting_triple (hown : V.own pairId = true) (side : Pair.Side) (kind : String) :
    Triple (At V log) (reconcileExisting V pairId side kind)
      (fun e w => (e = .nothing ∨ e = .safeRefusal → Free log pairId (slotKey kind side)) ∧
        At V log w)
      (fun _ => At V log) := by
  unfold reconcileExisting
  refine Triple.bind (pairRecord_triple hown) (fun found => Triple.of_fact (fun hread => ?_))
  cases found with
  | none => exact Triple.pure (fun s hs => ⟨fun _ => hread.1 rfl _, hs⟩)
  | some record =>
      have hreads := hread.2 record rfl
      dsimp only
      cases hlookup : record.intents.lookup (slotKey kind side) with
      | none => exact Triple.pure (fun s hs => ⟨fun _ => hreads.missing _ hlookup, hs⟩)
      | some stored =>
          dsimp only
          by_cases hrefusal : stored.refusal = true
          · have hfree := hreads.refused _ (mem_of_lookup hlookup) hrefusal
            rw [if_pos hrefusal]
            exact Triple.bind (persistNone_at hfree)
              (fun _ => Triple.pure (fun s hs => ⟨fun _ => hfree, hs⟩))
          · rw [if_neg hrefusal]
            have hown' : V.own record.pairId = true := hreads.named ▸ hown
            refine Triple.bind (recoverIntent_at hown' (by simpa using hrefusal)) (fun result => ?_)
            cases result with
            | error _ =>
                refine Triple.bind (setBlocked_at true)
                  (fun _ => Triple.pure (fun s hs => ⟨?_, hs⟩))
                rintro (h | h) <;> cases h
            | ok found =>
                refine Triple.bind (setBlocked_at false)
                  (fun _ => Triple.pure (fun s hs => ⟨?_, hs⟩))
                rintro (h | h) <;> cases h

end TradingFleet.Rtrade
