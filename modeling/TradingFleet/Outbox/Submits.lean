import TradingFleet.Outbox.Worker

set_option autoImplicit false

/-! # Every worker submit is justified

One pass of the worker on its own: nobody else takes a step. Each `mkt.place` of the pass is
shown to be for a due record under a lease of this pass, marked before the call, at a price
that passes its gate, and after a proof that no earlier submission is at the venue
(`Justified`); no record is submitted twice; and afterwards the record is accepted or its
failure or deferral is recorded (`Settled`), unless the facade reports an acceptance without
an order that a lookup finds (`LostReport`): then `complete_claim` raises.
-/

namespace TradingFleet.Outbox

open TradingFleet.Text TradingFleet.Keyed TradingFleet.Hoare

/-! ## What is said about a submit -/

/-- A call of `mkt.place` in the log. -/
structure Submitted where
  number : Nat
  record : Record
  call : PlaceCall
  scene : Shared

def Event.submitted : Event → Option Submitted
  | .place number record call scene => some ⟨number, record, call, scene⟩
  | _ => none

def submits (log : List Event) : List Submitted := log.filterMap Event.submitted

/-- Every submit satisfies `P` together with the events before it. -/
def AllSubmits (P : Submitted → List Event → Prop) : List Event → Prop
  | [] => True
  | e :: older => (∀ s, e.submitted = some s → P s older) ∧ AllSubmits P older

/-- No earlier submission of the record is at its venue: its stored state says so, or a
lookup of this pass answered an explicit `None` and that absence is recent enough. -/
def NothingAtVenue (cfg : Config) (now : ℚ) (r : Record) (cid : Option String)
    (older : List Event) : Prop :=
  submissionRequiresReconciliation r = false ∨
    ∃ clientOrderId provider caps horizon, cid = some clientOrderId ∧
      .lookup r.symbol clientOrderId provider (.ok .absent) ∈ older ∧
      .capabilities r.symbol provider (.ok (some caps)) ∈ older ∧
      caps.lookupByClientOrderId = true ∧ caps.notFoundReliableForSeconds = some horizon ∧
      0 ≤ now - referenceAt r ∧ now - referenceAt r ≤ min horizon cfg.notFoundMaxAgeSec

/-- The justification of a submit, from the shared state the pass started in. -/
structure Justified (S : Setup) (now : ℚ) (start : Shared) (s : Submitted) (older : List Event)
    (r : Record) : Prop where
  queued : r ∈ start.queue
  id : r.id = s.record.id
  pending : r.lifecycle = .submitPending
  due : isDue S.cfg r now = true
  notExpired : isExpired S.cfg r now = false
  token : ∃ t, s.record.claimToken = some t ∧ t ∉ start.used
  marked : s.record ∈ s.scene.queue ∧ s.record.submissionState = some .producerClaimed ∧
    s.record.producerPid = some s.scene.worker.pid
  price : priceGateOk S.cfg r (some s.call.price) = true
  order : s.call.symbol = r.symbol ∧ s.call.side = r.side ∧ s.call.qty = r.qty
  absent : NothingAtVenue S.cfg now r (s.call.kwargs.get "client_order_id") older

/-- The answer to a submit. -/
def Submitted.answer (S : Setup) (s : Submitted) : PlaceAnswer := S.mkt.place s.number s.call

/-- What the numbered lookup of a client order ID says. -/
def lookedUp (S : Setup) (number : Nat) (symbol : String) (cid provider : Option String) :
    Reconciliation :=
  match S.mkt.orderByClientId, cid with
  | some lookup, some cid =>
      if cid = "" then .unavailable else readLookup (lookup number symbol cid provider)
  | _, _ => .unavailable

/-- After the call the record is accepted, or its failure or deferral is recorded and its
lease released; only a refusal that cannot be overcome removes it. -/
inductive Settled (S : Setup) (now : ℚ) (s : Submitted) (q : Queue) : Prop
  | accepted {r : Record} : r ∈ q → r.id = s.record.id → r.lifecycle = .accepted →
      r.orderId.isSome = true → Settled S now s q
  | failed {r : Record} : r ∈ q → r.id = s.record.id → r.claimToken = none →
      r.lastFailureReason = some (refusalReason (s.answer S)) →
      r.attempts = s.record.attempts + 1 → r.lastAttemptTs = now → Settled S now s q
  | deferred {r : Record} : r ∈ q → r.id = s.record.id → r.claimToken = none →
      r.lastFailureReason = some (refusalReason (s.answer S)) →
      isNonFailureDeferral r.lastFailureReason = true → r.lastAttemptTs = now → Settled S now s q
  | removed : (s.answer S).state = some .refused →
      (refusalReason (s.answer S) = "execution_disabled" ∨
        refusalReason (s.answer S) = "trading_disabled" ∨
        isTerminalFilterRefusal (some (refusalReason (s.answer S))) = true) → Settled S now s q

/-- The facade reports a state that is neither `refused` nor `unknown`, returns no order ID,
and the lookup right after the call does not find the order. -/
structure LostReport (S : Setup) (s : Submitted) : Prop where
  noOrder : acceptedOrder (s.answer S) = none
  notFound : ∀ order, lookedUp S (s.number + 1) s.call.symbol (s.call.kwargs.get "client_order_id")
    s.call.providerName ≠ .found order
  reported : reportable (some ((s.answer S).state.getD .unknown)) = false

/-- A pass starts with an empty log and nobody else around; record IDs are unique and every
token in the queue has been issued. -/
structure QuietStart (w : World) : Prop where
  quiet : w.schedule = []
  log : w.log = []
  nodup : (w.shared.queue.map Record.id).Nodup
  tokens : ∀ r ∈ w.shared.queue, ∀ t, r.claimToken = some t → t ∈ w.shared.used

def finalWorld {α : Type} : EStateM.Result Stop World α → World
  | .ok _ w => w
  | .error _ w => w

/-- What is promised of one pass: a record is submitted at most once, every submit is
justified, and afterwards every submit is settled in the queue. -/
structure PassSound (S : Setup) (now : ℚ) (w : World) : Prop where
  once : ((submits (finalWorld (processOnce S now w)).log).map (fun s => s.record.id)).Nodup
  justified : AllSubmits (fun s older => ∃ r, Justified S now w.shared s older r)
    (finalWorld (processOnce S now w)).log
  settled : ∀ s ∈ submits (finalWorld (processOnce S now w)).log,
    Settled S now s (finalWorld (processOnce S now w)).shared.queue

/-! ## Lemmas on logs and answers -/

theorem submits_cons_none {e : Event} (h : e.submitted = none) (log : List Event) :
    submits (e :: log) = submits log := by
  simp [submits, h]

theorem AllSubmits.push {P : Submitted → List Event → Prop} {log : List Event}
    (h : AllSubmits P log) {e : Event} (he : e.submitted = none) : AllSubmits P (e :: log) := by
  refine ⟨?_, h⟩
  intro s hs
  rw [he] at hs
  cases hs

/-- A settled submit stays settled when other records change. -/
theorem Settled.elsewhere {S : Setup} {now : ℚ} {s : Submitted} {q q' : Queue}
    (h : Settled S now s q) (hq : ∀ r ∈ q, r.id = s.record.id → r ∈ q') : Settled S now s q' := by
  cases h with
  | accepted hr hid hl ho => exact .accepted (hq _ hr hid) hid hl ho
  | failed hr hid hc hf ha ht => exact .failed (hq _ hr hid) hid hc hf ha ht
  | deferred hr hid hc hf hd ht => exact .deferred (hq _ hr hid) hid hc hf hd ht
  | removed hs hreason => exact .removed hs hreason

/-! ## Sections when nobody else acts -/

section Quiet

variable {S : Setup} {P : World → Prop} {E : Stop → World → Prop}

theorem interleave_quiet {w : World} (h : w.schedule = []) : interleave S w = .ok () w := by
  unfold interleave
  rw [h]

theorem Triple.lockedQuiet {α : Type} {body : Shared → Except String (α × Shared)}
    {Q : α → World → Prop} (hq : ∀ w, P w → w.schedule = [])
    (hok : ∀ w a sh, P w → body w.shared = .ok (a, sh) → Q a { w with shared := sh })
    (herr : ∀ w e, P w → body w.shared = .error e → E (.raised e) w) :
    Triple P (locked S body) Q E := by
  intro w hw
  have hi := interleave_quiet (S := S) (hq w hw)
  show Post Q E (EStateM.bind (interleave S) _ w)
  simp only [EStateM.bind, hi]
  cases hb : body w.shared with
  | error e => exact herr w e hw hb
  | ok p => exact hok w p.1 p.2 hw hb

theorem Triple.askQuiet {α : Type} {call : Nat → α} {event : α → Event} {Q : α → World → Prop}
    (hq : ∀ w, P w → w.schedule = [])
    (hok : ∀ w, P w → Q (call w.log.length)
      { w with log := event (call w.log.length) :: w.log }) :
    Triple P (ask S call event) Q E := by
  intro w hw
  have hi := interleave_quiet (S := S) (hq w hw)
  show Post Q E (EStateM.bind (interleave S) _ w)
  simp only [EStateM.bind, hi]
  exact hok w hw

end Quiet

/-! ## What holds along a pass -/

section Pass

variable (S : Setup) (now : ℚ) (start : Shared)

/-- A snapshot leased in this pass: from a record of the queue the pass started with, under
a new token; a pending one is due and not expired. -/
def Leased (r : Record) : Prop :=
  ∃ t r₀, r₀ ∈ start.queue ∧ t ∉ start.used ∧ r = claimRecord now S.cfg.claimLeaseSec t r₀ ∧
    (r₀.lifecycle = .submitPending → isDue S.cfg r₀ now = true ∧ isExpired S.cfg r₀ now = false)

/-- Between two records: those still to be advanced are in the queue as they were leased,
and every submit so far is settled. -/
structure PassInv (rest : List Record) (w : World) : Prop where
  quiet : w.schedule = []
  nodup : (w.shared.queue.map Record.id).Nodup
  leased : ∀ r ∈ rest, r ∈ w.shared.queue ∧ Leased S now start r
  restNodup : (rest.map Record.id).Nodup
  justified : AllSubmits (fun s older => ∃ r, Justified S now start s older r) w.log
  once : ((submits w.log).map (fun s => s.record.id)).Nodup
  apart : ∀ s ∈ submits w.log, s.record.id ∉ rest.map Record.id
  settled : ∀ s ∈ submits w.log, Settled S now s w.shared.queue ∧ ¬ LostReport S s

/-- The same while the record `r` is in hand. -/
structure AtRecord (r : Record) (rest : List Record) (w : World) : Prop
    extends PassInv S now start rest w where
  fresh : r.id ∉ rest.map Record.id
  other : ∀ s ∈ submits w.log, s.record.id ≠ r.id

/-- What is left when a pass ends or raises: all submits are settled, or one was lost. -/
structure Accounted (w : World) : Prop where
  justified : AllSubmits (fun s older => ∃ r, Justified S now start s older r) w.log
  once : ((submits w.log).map (fun s => s.record.id)).Nodup
  outcome : (∀ s ∈ submits w.log, Settled S now s w.shared.queue ∧ ¬ LostReport S s) ∨
    ∃ s ∈ submits w.log, LostReport S s ∧ ¬ Settled S now s w.shared.queue

/-- The leased record may be submitted at `price`. -/
structure Ready (r : Record) (price : ℚ) (log : List Event) : Prop where
  leased : Leased S now start r
  pending : r.lifecycle = .submitPending
  absent : NothingAtVenue S.cfg now r r.clientOrderId log
  gate : priceGateOk S.cfg r (some price) = true

/-- `d` is the record `r` after its mark, and it is in the queue. -/
structure Marked (r d : Record) (w : World) : Prop where
  queued : d ∈ w.shared.queue
  begun : ∃ identity, d = beginRecord now S.cfg.claimLeaseSec w.shared.worker.pid identity r
  named : truthy r.clientOrderId = true

/-- The submit `s` of the marked record `d` is not settled yet; everything else is as it
is between two records. -/
structure InFlight (d : Record) (rest : List Record) (s : Submitted) (w : World) : Prop where
  quiet : w.schedule = []
  nodup : (w.shared.queue.map Record.id).Nodup
  leased : ∀ x ∈ rest, x ∈ w.shared.queue ∧ Leased S now start x
  restNodup : (rest.map Record.id).Nodup
  justified : AllSubmits (fun s older => ∃ r, Justified S now start s older r) w.log
  once : ((submits w.log).map (fun s => s.record.id)).Nodup
  apart : ∀ s' ∈ submits w.log, s'.record.id ∉ rest.map Record.id
  settled : ∀ s' ∈ submits w.log, s' = s ∨
    s'.record.id ≠ d.id ∧ Settled S now s' w.shared.queue ∧ ¬ LostReport S s'
  mine : s ∈ submits w.log ∧ s.record = d
  queued : d ∈ w.shared.queue
  fresh : d.id ∉ rest.map Record.id
  own : sameClaim d d = true
  pending : d.lifecycle = .submitPending
  claimed : d.claimToken ≠ none

end Pass

section PassLemmas

variable {S : Setup} {now : ℚ} {start : Shared} {r : Record} {rest : List Record} {w : World}

theorem PassInv.accounted (h : PassInv S now start rest w) : Accounted S now start w :=
  ⟨h.justified, h.once, Or.inl h.settled⟩

theorem PassInv.push (h : PassInv S now start rest w) {e : Event} (he : e.submitted = none) :
    PassInv S now start rest { w with log := e :: w.log } where
  quiet := h.quiet
  nodup := h.nodup
  leased := h.leased
  restNodup := h.restNodup
  justified := h.justified.push he
  once := by rw [submits_cons_none he]; exact h.once
  apart := by rw [submits_cons_none he]; exact h.apart
  settled := by rw [submits_cons_none he]; exact h.settled

/-- An operation on the record at hand leaves the others and the settled submits alone. -/
theorem AtRecord.section (h : AtRecord S now start r rest w) {o : Op} {sh : Shared}
    (ht : o.target = some r.id) (hq : sh.queue = o.apply w.shared.queue) :
    AtRecord S now start r rest { w with shared := sh } := by
  have hissues : o.issues = [] := by
    unfold Op.issues
    rw [Op.enqueueCall_of_target ht]
  have hkeep : ∀ x ∈ w.shared.queue, x.id ≠ r.id → x ∈ sh.queue := by
    intro x hx hne
    rw [hq]
    exact apply_elsewhere ht hx hne
  refine ⟨⟨h.quiet, ?_, ?_, h.restNodup, h.justified, h.once, h.apart, ?_⟩, h.fresh, h.other⟩
  · show (sh.queue.map Record.id).Nodup
    rw [hq]
    exact apply_nodup_of_no_issue hissues h.nodup
  · intro x hx
    obtain ⟨hmem, hl⟩ := h.leased x hx
    refine ⟨hkeep x hmem ?_, hl⟩
    intro heq
    exact h.fresh (heq ▸ List.mem_map_of_mem hx)
  · intro s hs
    obtain ⟨hset, hlost⟩ := h.settled s hs
    refine ⟨hset.elsewhere ?_, hlost⟩
    intro x hx hid
    refine hkeep x hx ?_
    intro heq
    exact h.other s hs (hid ▸ heq)

/-- The queue after a completion that did not raise. -/
theorem Shared.complete_queue {sh sh' : Shared} {claimed : Record} {c : CompleteArgs} {b : Bool}
    (h : sh.complete claimed c = .ok (b, sh')) :
    sh'.queue = sh.queue.filterMap (completeRecord claimed c) := by
  unfold Shared.complete at h
  cases hc : completeClaim claimed c sh.queue with
  | error e => rw [hc] at h; cases h
  | ok p =>
      obtain ⟨found, q⟩ := p
      rw [hc] at h
      obtain ⟨hfound, hq⟩ := completeClaim_eq_of_ok hc
      cases found with
      | true => cases h; exact hq
      | false =>
          cases h
          refine (completeClaim_unmatched c ?_).symm
          simpa using hfound.symm

theorem Shared.complete_error {sh : Shared} {claimed : Record} {c : CompleteArgs} {e : String}
    (h : sh.complete claimed c = .error e) : completeClaim claimed c sh.queue = .error e := by
  unfold Shared.complete at h
  cases hc : completeClaim claimed c sh.queue with
  | error e' => rw [hc] at h; cases h; rfl
  | ok p =>
      obtain ⟨found, q⟩ := p
      rw [hc] at h
      cases found <;> cases h

/-- That is what the operation does to the queue. -/
theorem Shared.complete_apply {sh sh' : Shared} {claimed : Record} {c : CompleteArgs} {b : Bool}
    (h : sh.complete claimed c = .ok (b, sh')) :
    sh'.queue = (Op.completeClaim claimed c).apply sh.queue := by
  rw [Shared.complete_queue h]
  unfold Shared.complete at h
  cases hc : completeClaim claimed c sh.queue with
  | error e => rw [hc] at h; cases h
  | ok p =>
      obtain ⟨found, q⟩ := p
      simp only [Op.apply, hc, queueAfter]
      exact (completeClaim_eq_of_ok hc).2.symm

theorem completeSection_pass (c : CompleteArgs) :
    Triple (AtRecord S now start r rest) (completeSection S r c)
      (fun _ => AtRecord S now start r rest) (fun _ => Accounted S now start) := by
  refine Triple.lockedQuiet (fun w h => h.quiet) ?_ ?_
  · intro w b sh h hb
    exact h.section (o := .completeClaim r c) rfl (Shared.complete_apply hb)
  · intro w e h _
    exact h.accounted

theorem activateSection_pass (qty : ℚ) :
    Triple (AtRecord S now start r rest) (activateSection S r qty now)
      (fun _ => AtRecord S now start r rest) (fun _ => Accounted S now start) := by
  refine Triple.lockedQuiet (fun w h => h.quiet) ?_ ?_
  · intro w act sh h hb
    cases hb
    exact h.section (o := .activate r qty now) rfl rfl
  · intro w e _ hb
    cases hb

theorem advanceSection_pass (st : OrderStatus) :
    Triple (AtRecord S now start r rest) (advanceSection S r st now)
      (fun _ => AtRecord S now start r rest) (fun _ => Accounted S now start) := by
  refine Triple.lockedQuiet (fun w h => h.quiet) ?_ ?_
  · intro w t sh h hb
    split_ifs at hb
    cases hc : w.shared.complete r (statusTransition r st now).2 with
    | error e => rw [hc] at hb; cases hb
    | ok p =>
        rw [hc] at hb
        cases hb
        exact h.section (o := .completeClaim r (statusTransition r st now).2) rfl
          (Shared.complete_apply hc)
  · intro w e h _
    exact h.accounted

/-- Taking the next leased record in hand. -/
theorem PassInv.head (h : PassInv S now start (r :: rest) w) :
    AtRecord S now start r rest w ∧ r ∈ w.shared.queue ∧ Leased S now start r := by
  obtain ⟨hfresh, hrest⟩ := List.nodup_cons.mp h.restNodup
  have hr := h.leased r (by simp)
  refine ⟨⟨⟨h.quiet, h.nodup, fun x hx => h.leased x (by simp [hx]), hrest, h.justified, h.once,
    ?_, h.settled⟩, hfresh, ?_⟩, hr.1, hr.2⟩
  · intro s hs hmem
    exact h.apart s hs (List.mem_cons_of_mem _ hmem)
  · intro s hs heq
    exact h.apart s hs (by simp [heq])

end PassLemmas

/-! ## Calls of the facade -/

/-- A property of quiet worlds that reading from the facade does not disturb. -/
structure Steady (P : World → Prop) : Prop where
  quiet : ∀ w, P w → w.schedule = []
  push : ∀ w e, P w → e.submitted = none → P { w with log := e :: w.log }

theorem AtRecord.steady {S : Setup} {now : ℚ} {start : Shared} {r : Record} {rest : List Record} :
    Steady (AtRecord S now start r rest) where
  quiet := fun _ h => h.quiet
  push := by
    intro w e h he
    refine ⟨h.toPassInv.push he, h.fresh, ?_⟩
    rw [submits_cons_none he]
    exact h.other

theorem PassInv.steady {S : Setup} {now : ℚ} {start : Shared} {rest : List Record} :
    Steady (PassInv S now start rest) :=
  ⟨fun _ h => h.quiet, fun _ _ h he => h.push he⟩

/-- Events that are in the log stay there. -/
theorem Steady.and_mem {P : World → Prop} (h : Steady P) (e : Event) :
    Steady (fun w => P w ∧ e ∈ w.log) :=
  ⟨fun w hw => h.quiet w hw.1,
    fun w e' hw he => ⟨h.push w e' hw.1 he, List.mem_cons_of_mem _ hw.2⟩⟩

section Calls

variable {S : Setup} {P : World → Prop} {E : Stop → World → Prop} (hP : Steady P)
include hP

theorem providerName_steady (hE : ∀ e w, P w → E e w) (r : Record) : Triple P (providerName S r) (fun _ => P) E := by
  unfold providerName
  split_ifs
  · exact Triple.pure (fun _ h => h)
  · split
    · exact Triple.pure (fun _ h => h)
    · refine Triple.bind (Q := fun _ => P) ?_ (fun answer => ?_)
      · exact Triple.askQuiet hP.quiet (fun w hw => hP.push w _ hw rfl)
      · refine Triple.bind (Q := fun _ => P) ?_ (fun name => Triple.pure (fun _ h => h))
        cases answer with
        | ok name => exact Triple.pure (fun _ h => h)
        | error e => exact Triple.throw (fun w hw => hE _ w hw)

/-- A lookup reports an absence only when this very lookup answered `None`. -/
theorem reconcileClientOrder_steady (symbol : String) (cid provider : Option String) :
    Triple P (reconcileClientOrder S symbol cid provider)
      (fun res w => P w ∧ (res = .notFound → ∃ c, cid = some c ∧
        .lookup symbol c provider (.ok .absent) ∈ w.log)) E := by
  unfold reconcileClientOrder
  split
  · rename_i lookup c _
    split_ifs
    · exact Triple.pure (fun w hw => ⟨hw, fun h => by cases h⟩)
    · refine Triple.bind
        (Q := fun answer w => P w ∧ .lookup symbol c provider answer ∈ w.log) ?_ (fun answer => ?_)
      · exact Triple.askQuiet hP.quiet (fun w hw => ⟨hP.push w _ hw rfl, List.mem_cons_self⟩)
      · refine Triple.pure (fun w hw => ⟨hw.1, fun hres => ⟨c, rfl, ?_⟩⟩)
        have habs : answer = .ok .absent := by
          cases answer with
          | error e => cases hres
          | ok a =>
              cases a with
              | absent => rfl
              | malformed => cases hres
              | order payload =>
                  simp only [readLookup] at hres
                  split_ifs at hres
        exact habs ▸ hw.2
  · exact Triple.pure (fun w hw => ⟨hw, fun h => by cases h⟩)

theorem capabilitiesOf_steady (symbol : String) (provider : Option String) :
    Triple P (capabilitiesOf S symbol provider)
      (fun caps w => P w ∧ ∀ c, caps = some c →
        .capabilities symbol provider (.ok (some c)) ∈ w.log) E := by
  unfold capabilitiesOf
  split
  · exact Triple.pure (fun w hw => ⟨hw, fun c h => by cases h⟩)
  · refine Triple.bind
      (Q := fun answer w => P w ∧ .capabilities symbol provider answer ∈ w.log) ?_
      (fun answer => ?_)
    · exact Triple.askQuiet hP.quiet (fun w hw => ⟨hP.push w _ hw rfl, List.mem_cons_self⟩)
    · cases answer with
      | ok declared =>
          refine Triple.pure (fun w hw => ⟨hw.1, fun c hc => ?_⟩)
          exact hc ▸ hw.2
      | error e => exact Triple.pure (fun w hw => ⟨hw.1, fun c h => by cases h⟩)

/-- A reliable absence comes with the declared horizon it is within. -/
theorem notFoundIsReliable_steady (r : Record) (now : ℚ) (provider : Option String) :
    Triple P (notFoundIsReliable S r now provider)
      (fun ok w => P w ∧ (ok = true → ∃ caps horizon,
        .capabilities r.symbol provider (.ok (some caps)) ∈ w.log ∧
        caps.lookupByClientOrderId = true ∧ caps.notFoundReliableForSeconds = some horizon ∧
        0 ≤ now - referenceAt r ∧
        now - referenceAt r ≤ min horizon S.cfg.notFoundMaxAgeSec)) E := by
  unfold notFoundIsReliable
  refine Triple.bind (capabilitiesOf_steady hP r.symbol provider) (fun caps => ?_)
  refine Triple.pure (fun w hw => ⟨hw.1, fun hok => ?_⟩)
  unfold absenceReliable at hok
  cases caps with
  | none => cases hok
  | some c =>
      simp only [Bool.and_eq_true] at hok
      obtain ⟨hsupport, hrest⟩ := hok
      cases hh : c.notFoundReliableForSeconds with
      | none => rw [hh] at hrest; cases hrest
      | some horizon =>
          rw [hh] at hrest
          simp only [Bool.and_eq_true, decide_eq_true_eq] at hrest
          exact ⟨c, horizon, hw.2 c rfl, hsupport, hh, hrest.1.2, hrest.2⟩

end Calls

/-! ## Records that are not submitted -/

section Advance

variable {S : Setup} {now : ℚ} {start : Shared} {r : Record} {rest : List Record}

/-- A completion that ends the work on a record. -/
theorem completeThen_pass (c : CompleteArgs) (st : Stats) :
    Triple (AtRecord S now start r rest) (do
        let _ ← completeSection S r c
        pure st)
      (fun _ => AtRecord S now start r rest) (fun _ => Accounted S now start) :=
  Triple.bind (completeSection_pass c) (fun _ => Triple.pure (fun _ h => h))

theorem reconcileReplacement_pass (st : Stats) (provider : Option String) :
    Triple (AtRecord S now start r rest) (reconcileReplacement S now st r provider)
      (fun _ => AtRecord S now start r rest) (fun _ => Accounted S now start) := by
  unfold reconcileReplacement
  refine Triple.bind (Q := fun _ => AtRecord S now start r rest) ?_ (fun answer => ?_)
  · exact Triple.askQuiet AtRecord.steady.quiet (fun w h => AtRecord.steady.push w _ h rfl)
  · cases answer with
    | error e => exact completeThen_pass _ st
    | ok status =>
        simp only
        split_ifs
        · refine Triple.bind (activateSection_pass _) (fun activation => ?_)
          split
          · exact completeThen_pass _ st
          · exact Triple.pure (fun _ h => h)
          · exact completeThen_pass _ st
        · exact completeThen_pass _ st
        · exact completeThen_pass _ st

theorem observeAccepted_pass (st : Stats) (provider : Option String) :
    Triple (AtRecord S now start r rest) (observeAccepted S now st r provider)
      (fun _ => AtRecord S now start r rest) (fun _ => Accounted S now start) := by
  unfold observeAccepted
  refine Triple.bind (Q := fun _ => AtRecord S now start r rest) ?_ (fun answer => ?_)
  · exact Triple.askQuiet AtRecord.steady.quiet (fun w h => AtRecord.steady.push w _ h rfl)
  · cases answer with
    | error e => exact completeThen_pass _ _
    | ok status =>
        exact Triple.bind (advanceSection_pass status) (fun _ => Triple.pure (fun _ h => h))

end Advance

/-! ## Submitting -/

section Submitting

variable {S : Setup} {now : ℚ} {start : Shared} {r d : Record} {rest : List Record}

theorem NothingAtVenue.push {cfg : Config} {cid : Option String} {older : List Event} (e : Event)
    (h : NothingAtVenue cfg now r cid older) : NothingAtVenue cfg now r cid (e :: older) := by
  rcases h with h | ⟨c, provider, caps, horizon, hc, hl, hcaps, hrest⟩
  · exact Or.inl h
  · exact Or.inr ⟨c, provider, caps, horizon, hc, List.mem_cons_of_mem _ hl,
      List.mem_cons_of_mem _ hcaps, hrest⟩

/-- A marked record still carries its own lease. -/
theorem Marked.sameClaim {w : World} (h : Marked S now r d w) (hl : Leased S now start r) :
    sameClaim d d = true ∧ d.claimToken ≠ none := by
  obtain ⟨t, r₀, -, -, rfl, -⟩ := hl
  obtain ⟨identity, rfl⟩ := h.begun
  have hsome : (claimRecord now S.cfg.claimLeaseSec t r₀).clientOrderId.isSome = true := by
    have hn := h.named
    unfold truthy at hn
    split at hn
    · cases hn
    · rename_i hc
      rw [hc]
      rfl
  refine ⟨?_, by simp [beginRecord, setSafeToDiscard, claimRecord]⟩
  simp only [Outbox.sameClaim, Bool.and_eq_true, decide_eq_true_eq]
  exact ⟨⟨⟨⟨trivial, trivial⟩, rfl⟩, hsome⟩, trivial⟩

/-- The submit of a marked record is justified by what was established before it. -/
theorem Marked.justified {w : World} (h : Marked S now r d w) {price : ℚ}
    (hready : Ready S now start r price w.log) (provider : Option String) :
    ∃ r₀, Justified S now start
      ⟨w.log.length, d, placeCall S.cfg r d price provider, w.shared⟩ w.log r₀ := by
  obtain ⟨t, r₀, hr₀, ht, rfl, hdue⟩ := hready.leased
  obtain ⟨identity, rfl⟩ := h.begun
  obtain ⟨hd, hne⟩ := hdue hready.pending
  exact ⟨r₀,
    { queued := hr₀, id := rfl, pending := hready.pending, due := hd, notExpired := hne
      token := ⟨t, rfl, ht⟩
      marked := ⟨h.queued, rfl, rfl⟩
      price := hready.gate
      order := ⟨rfl, rfl, rfl⟩
      absent := hready.absent }⟩

/-- `mkt.place` puts the marked record in flight. -/
theorem placeOrder_pass (price : ℚ) (provider : Option String) :
    Triple (fun w => AtRecord S now start r rest w ∧ Ready S now start r price w.log ∧
        Marked S now r d w)
      (placeOrder S d (placeCall S.cfg r d price provider))
      (fun answer w => ∃ s, InFlight S now start d rest s w ∧ answer = s.answer S ∧
        s.call = placeCall S.cfg r d price provider ∧ w.log.length = s.number + 1)
      (fun _ => Accounted S now start) := by
  rintro w ⟨hat, hready, hm⟩
  have hi := interleave_quiet (S := S) hat.quiet
  show Post _ _ (EStateM.bind (interleave S) _ w)
  simp only [EStateM.bind, hi]
  have hid : d.id = r.id := by
    obtain ⟨identity, hd⟩ := hm.begun
    rw [hd]
    rfl
  have hpend : d.lifecycle = .submitPending := by
    obtain ⟨identity, hd⟩ := hm.begun
    rw [hd]
    exact hready.pending
  obtain ⟨hown, hclaimed⟩ := hm.sameClaim hready.leased
  refine ⟨⟨w.log.length, d, placeCall S.cfg r d price provider, w.shared⟩, ?_, rfl, rfl, rfl⟩
  have hsub : submits (.place w.log.length d (placeCall S.cfg r d price provider) w.shared :: w.log)
      = ⟨w.log.length, d, placeCall S.cfg r d price provider, w.shared⟩ :: submits w.log := rfl
  refine ⟨hat.quiet, hat.nodup, hat.leased, hat.restNodup, ?_, ?_, ?_, ?_, ?_, hm.queued,
    hid ▸ hat.fresh, hown, hpend, hclaimed⟩
  · refine ⟨?_, hat.justified⟩
    intro s hs
    cases hs
    exact hm.justified hready provider
  · rw [hsub, List.map_cons, List.nodup_cons]
    refine ⟨?_, hat.once⟩
    intro hmem
    obtain ⟨s, hs, heq⟩ := List.mem_map.mp hmem
    exact hat.other s hs (heq.trans hid)
  · rw [hsub]
    intro s hs
    rcases List.mem_cons.mp hs with rfl | hs
    · exact hid ▸ hat.fresh
    · exact hat.apart s hs
  · rw [hsub]
    intro s hs
    rcases List.mem_cons.mp hs with rfl | hs
    · exact Or.inl rfl
    · exact Or.inr ⟨fun h => hat.other s hs (h.trans hid), hat.settled s hs⟩
  · rw [hsub]
    exact ⟨List.mem_cons_self, rfl⟩

/-! ## Settling -/

theorem InFlight.steady {s : Submitted} : Steady (InFlight S now start d rest s) where
  quiet := fun _ h => h.quiet
  push := by
    intro w e h he
    refine ⟨h.quiet, h.nodup, h.leased, h.restNodup, h.justified.push he, ?_, ?_, ?_, ?_,
      h.queued, h.fresh, h.own, h.pending, h.claimed⟩ <;> rw [submits_cons_none he]
    · exact h.once
    · exact h.apart
    · exact h.settled
    · exact h.mine

/-- The numbered lookup after a submit is the one `LostReport` speaks about. -/
theorem reconcileClientOrder_value {P : World → Prop} {E : Stop → World → Prop} (hP : Steady P)
    (symbol : String) (cid provider : Option String) (n : Nat) :
    Triple (fun w => P w ∧ w.log.length = n) (reconcileClientOrder S symbol cid provider)
      (fun res w => P w ∧ res = lookedUp S n symbol cid provider) E := by
  unfold reconcileClientOrder lookedUp
  cases hl : S.mkt.orderByClientId with
  | none => exact Triple.pure (fun w hw => ⟨hw.1, rfl⟩)
  | some lookup =>
      cases cid with
      | none => exact Triple.pure (fun w hw => ⟨hw.1, rfl⟩)
      | some c =>
          by_cases hc : c = ""
          · simp only [hc, if_true]
            exact Triple.pure (fun w hw => ⟨hw.1, rfl⟩)
          · simp only [hc, if_false]
            refine Triple.bind (Q := fun answer w => P w ∧ answer = lookup n symbol c provider) ?_
              (fun answer => Triple.pure (fun w hw => ⟨hw.1, by rw [hw.2]⟩))
            refine Triple.askQuiet (fun w hw => hP.quiet w hw.1) ?_
            rintro w ⟨hw, rfl⟩
            exact ⟨hP.push w _ hw rfl, rfl⟩

/-- A completion under the lease of the record in flight finds it. -/
theorem InFlight.complete_mem {s : Submitted} {w : World} (h : InFlight S now start d rest s w)
    {c : CompleteArgs} {b : Bool} {sh : Shared} (hb : w.shared.complete d c = .ok (b, sh))
    {x : Record} (hx : applyOutcome d c d = some x) : finishClaim c x ∈ sh.queue := by
  rw [Shared.complete_queue hb]
  refine List.mem_filterMap.mpr ⟨d, h.queued, ?_⟩
  simp [completeRecord, h.own, hx]

/-- Once its submit is settled the record is done. -/
theorem InFlight.settle {s : Submitted} {w : World} (h : InFlight S now start d rest s w)
    {c : CompleteArgs} {b : Bool} {sh : Shared} (hb : w.shared.complete d c = .ok (b, sh))
    (hset : Settled S now s sh.queue) (hlost : ¬ LostReport S s) :
    PassInv S now start rest { w with shared := sh } := by
  have hq := Shared.complete_apply hb
  have hkeep : ∀ x ∈ w.shared.queue, x.id ≠ d.id → x ∈ sh.queue := by
    intro x hx hne
    rw [hq]
    exact apply_elsewhere (o := .completeClaim d c) rfl hx hne
  refine ⟨h.quiet, ?_, ?_, h.restNodup, h.justified, h.once, h.apart, ?_⟩
  · show (sh.queue.map Record.id).Nodup
    rw [hq]
    exact apply_nodup_of_no_issue (o := .completeClaim d c) rfl h.nodup
  · intro x hx
    obtain ⟨hmem, hl⟩ := h.leased x hx
    refine ⟨hkeep x hmem ?_, hl⟩
    intro heq
    exact h.fresh (heq ▸ List.mem_map_of_mem hx)
  · intro s' hs'
    rcases h.settled s' hs' with rfl | ⟨hne, hold, hnl⟩
    · exact ⟨hset, hlost⟩
    · refine ⟨hold.elsewhere ?_, hnl⟩
      intro x hx hid
      exact hkeep x hx (fun heq => hne (hid ▸ heq))

theorem applyAccepted_settles {x y : Record} {order : OrderPayload} {provider : Option String}
    (h : applyAccepted x (some order) now provider = some y) :
    y.lifecycle = .accepted ∧ y.orderId.isSome = true := by
  unfold applyAccepted at h
  split at h
  · cases h
  · rename_i orderId ho
    rw [Option.some.injEq] at h
    rw [← h]
    unfold appendOrderHistory
    simp only
    split_ifs <;> exact ⟨rfl, rfl⟩

/-- An order with an ID settles the submit as accepted. -/
theorem settle_accepted {s : Submitted} {order : OrderPayload} (ho : order.orderId.isSome = true)
    (hlost : ¬ LostReport S s) (provider : Option String) (st : Stats) :
    Triple (InFlight S now start d rest s) (do
        let _ ← completeSection S d (acceptedCompletion now order provider)
        pure st)
      (fun _ => PassInv S now start rest) (fun _ => Accounted S now start) := by
  refine Triple.bind (Q := fun _ => PassInv S now start rest) ?_
    (fun _ => Triple.pure (fun _ h => h))
  refine Triple.lockedQuiet (fun w h => h.quiet) ?_ ?_
  · intro w b sh h hb
    refine h.settle hb ?_ hlost
    obtain ⟨orderId, hid⟩ := Option.isSome_iff_exists.mp ho
    cases hy : applyAccepted (setSafeToDiscard d false) (some order) now provider with
    | none =>
        unfold applyAccepted at hy
        simp only [Option.bind_some, hid] at hy
        cases hy
    | some y =>
        have hx : applyOutcome d (acceptedCompletion now order provider) d = some y := by
          simp only [applyOutcome, acceptedCompletion, hy]
        obtain ⟨hlife, hoid⟩ := applyAccepted_settles hy
        refine .accepted (h.complete_mem hb hx) ?_ hlife hoid
        rw [finishClaim_id, applyOutcome_id hx, h.mine.2]
  · intro w e _ hb
    -- an acceptance is never refused as a report
    have hraised := Shared.complete_error hb
    rw [completeClaim_ok d w.shared.queue rfl (fun h => by cases h)] at hraised
    cases hraised

/-- Finishing a claim releases it and keeps what the outcome recorded. -/
theorem finishClaim_recorded (c : CompleteArgs) (x : Record) :
    (finishClaim c x).claimToken = none ∧
      (finishClaim c x).lastFailureReason = x.lastFailureReason ∧
      (finishClaim c x).attempts = x.attempts ∧
      (finishClaim c x).lastAttemptTs = x.lastAttemptTs := by
  unfold finishClaim dropClaim
  split
  · exact ⟨rfl, rfl, rfl, rfl⟩
  · split_ifs <;> exact ⟨rfl, rfl, rfl, rfl⟩

/-- The recorded refusal of a submit. -/
theorem refusal_settles {s : Submitted} {w : World} (h : InFlight S now start d rest s w)
    {b : Bool} {sh : Shared}
    (hb : w.shared.complete d (refusalCompletion now (s.answer S)) = .ok (b, sh)) :
    Settled S now s sh.queue := by
  by_cases hterm : isTerminalRefusal (s.answer S) = true
  · simp only [isTerminalRefusal, Bool.and_eq_true, Bool.or_eq_true, decide_eq_true_eq] at hterm
    obtain ⟨(hreason | hreason) | hreason, hstate⟩ := hterm
    · exact .removed hstate (Or.inl hreason)
    · exact .removed hstate (Or.inr (Or.inl hreason))
    · exact .removed hstate (Or.inr (Or.inr hreason))
  · have hid : ∀ x, applyOutcome d (refusalCompletion now (s.answer S)) d = some x →
        (finishClaim (refusalCompletion now (s.answer S)) x).id = s.record.id := by
      intro x hx
      rw [finishClaim_id, applyOutcome_id hx, h.mine.2]
    by_cases hdef : isNonFailureDeferral (some (refusalReason (s.answer S))) = true
    · have hx : applyOutcome d (refusalCompletion now (s.answer S)) d
          = some { d with
              lastAttemptTs := now, lastFailureReason := some (refusalReason (s.answer S)) } := by
        simp only [applyOutcome, refusalCompletion, hterm, hdef, Bool.false_eq_true, if_true,
          if_false, Option.getD_some]
      obtain ⟨htok, hreason, -, hts⟩ := finishClaim_recorded (refusalCompletion now (s.answer S))
        { d with lastAttemptTs := now, lastFailureReason := some (refusalReason (s.answer S)) }
      exact .deferred (h.complete_mem hb hx) (hid _ hx) htok hreason (by rw [hreason]; exact hdef)
        hts
    · have hx : ∃ x, applyOutcome d (refusalCompletion now (s.answer S)) d = some x ∧
          x.lastFailureReason = some (refusalReason (s.answer S)) ∧
          x.attempts = d.attempts + 1 ∧ x.lastAttemptTs = now := by
        refine ⟨_, by
          simp only [applyOutcome, refusalCompletion, hterm, hdef, Bool.false_eq_true, if_false]
          rfl, rfl, ?_, rfl⟩
        simp [countAttempt]
      obtain ⟨x, hx, hreason, hatt, hts⟩ := hx
      obtain ⟨htok, hreason', hatt', hts'⟩ :=
        finishClaim_recorded (refusalCompletion now (s.answer S)) x
      refine .failed (h.complete_mem hb hx) (hid x hx) htok (hreason'.trans hreason) ?_
        (hts'.trans hts)
      rw [h.mine.2]
      exact hatt'.trans hatt

/-- A report `complete_claim` does not know loses the submit: the record stays leased. -/
theorem InFlight.lost {s : Submitted} {w : World} (h : InFlight S now start d rest s w)
    (hlost : LostReport S s) : Accounted S now start w := by
  refine ⟨h.justified, h.once, Or.inr ⟨s, h.mine.1, hlost, ?_⟩⟩
  have hdid : s.record.id = d.id := by rw [h.mine.2]
  have hsame : ∀ x ∈ w.shared.queue, x.id = s.record.id → x = d := fun x hx hid =>
    eq_of_key_eq h.nodup hx h.queued (hid.trans hdid)
  intro hset
  cases hset with
  | accepted hr hid hl _ =>
      rw [hsame _ hr hid, h.pending] at hl
      cases hl
  | failed hr hid hc _ _ _ =>
      rw [hsame _ hr hid] at hc
      exact h.claimed hc
  | deferred hr hid hc _ _ _ =>
      rw [hsame _ hr hid] at hc
      exact h.claimed hc
  | removed hstate _ =>
      have hrep := hlost.reported
      rw [hstate] at hrep
      cases hrep

theorem settle_refused {s : Submitted} (hno : acceptedOrder (s.answer S) = none)
    (hnf : ∀ order, lookedUp S (s.number + 1) s.call.symbol
      (s.call.kwargs.get "client_order_id") s.call.providerName ≠ .found order) (st : Stats) :
    Triple (InFlight S now start d rest s) (do
        let _ ← completeSection S d (refusalCompletion now (s.answer S))
        pure st)
      (fun _ => PassInv S now start rest) (fun _ => Accounted S now start) := by
  refine Triple.bind (Q := fun _ => PassInv S now start rest) ?_
    (fun _ => Triple.pure (fun _ h => h))
  have hdefer : (refusalCompletion now (s.answer S)).outcome = .deferred →
      isNonFailureDeferral (refusalCompletion now (s.answer S)).failureReason = true := by
    unfold refusalCompletion
    split_ifs with h1 h2
    · intro h; cases h
    · intro _; exact h2
    · intro h; cases h
  have hlost : LostReport S s ↔
      reportable (refusalCompletion now (s.answer S)).submissionState = false := by
    by_cases hterm : isTerminalRefusal (s.answer S) = true
    · have hstate : (s.answer S).state = some .refused := by
        simp only [isTerminalRefusal, Bool.and_eq_true, decide_eq_true_eq] at hterm
        exact hterm.2
      simp only [refusalCompletion, hterm, if_true]
      constructor
      · intro h
        have hrep := h.reported
        rw [hstate] at hrep
        cases hrep
      · intro h; cases h
    · simp only [refusalCompletion, hterm, Bool.false_eq_true, if_false]
      exact ⟨fun h => h.reported, fun h => ⟨hno, hnf, h⟩⟩
  refine Triple.lockedQuiet (fun w h => h.quiet) ?_ ?_
  · intro w b sh h hb
    refine h.settle hb (refusal_settles h hb) ?_
    intro hl
    -- an unknown report raises, so this completion did not get one
    rw [hlost] at hl
    unfold Shared.complete completeClaim at hb
    simp only [hl, Bool.not_false, if_true] at hb
    split_ifs at hb
  · intro w e h hb
    have hraised := Shared.complete_error hb
    refine h.lost (hlost.mpr ?_)
    by_contra hrep
    rw [completeClaim_ok d w.shared.queue (by simpa using hrep) hdefer] at hraised
    cases hraised

theorem settle_pass {s : Submitted} {price : ℚ} {provider : Option String} (st : Stats)
    (hcall : s.call = placeCall S.cfg r d price provider) :
    Triple (fun w => InFlight S now start d rest s w ∧ w.log.length = s.number + 1)
      (settle S now st r d provider (s.answer S))
      (fun _ => PassInv S now start rest) (fun _ => Accounted S now start) := by
  unfold settle
  cases hacc : acceptedOrder (s.answer S) with
  | some order =>
      have ho : order.orderId.isSome = true := by
        unfold acceptedOrder at hacc
        split at hacc
        · split_ifs at hacc with hsome
          cases hacc
          exact hsome
        · cases hacc
      have hlost : ¬ LostReport S s := by
        intro h
        have hno := h.noOrder
        rw [hacc] at hno
        cases hno
      exact (settle_accepted ho hlost provider _).strengthen (fun w hw => hw.1)
  | none =>
      have hvalue := reconcileClientOrder_value (S := S) (E := fun _ => Accounted S now start)
        (@InFlight.steady S now start d rest s)
        r.symbol r.clientOrderId provider (s.number + 1)
      refine Triple.bind hvalue (fun state => ?_)
      -- the lookup that was made is the one right after the call
      have hargs : lookedUp S (s.number + 1) s.call.symbol
          (s.call.kwargs.get "client_order_id") s.call.providerName
          = lookedUp S (s.number + 1) r.symbol r.clientOrderId provider := by
        rw [hcall]
        rfl
      have hrefused : (∀ order, state ≠ .found order) →
          Triple (fun w => InFlight S now start d rest s w ∧
              state = lookedUp S (s.number + 1) r.symbol r.clientOrderId provider)
            (do
              let _ ← completeSection S d (refusalCompletion now (s.answer S))
              pure (if isTerminalRefusal (s.answer S) then
                  { st with terminalFailed := st.terminalFailed + 1 }
                else st))
            (fun _ => PassInv S now start rest) (fun _ => Accounted S now start) := by
        intro hne w hw
        refine settle_refused hacc ?_ _ w hw.1
        intro order
        rw [hargs, ← hw.2]
        exact hne order
      cases state with
      | found order =>
          intro w hw
          have hfound := hw.2.symm
          have ho : order.orderId.isSome = true := by
            unfold lookedUp at hfound
            split at hfound
            · split_ifs at hfound
              unfold readLookup at hfound
              split at hfound
              · cases hfound
              · cases hfound
              · cases hfound
              · split_ifs at hfound with hsome
                cases hfound
                exact hsome
            · cases hfound
          have hlost : ¬ LostReport S s := by
            intro h
            exact h.notFound order (hargs.trans hfound)
          exact settle_accepted ho hlost provider _ w hw.1
      | notFound => exact hrefused (fun order h => by cases h)
      | unavailable => exact hrefused (fun order h => by cases h)

/-- The mark: the caller gets the record itself, or must not submit. -/
theorem beginSection_pass {price : ℚ} :
    Triple (fun w => AtRecord S now start r rest w ∧ r ∈ w.shared.queue ∧
        Ready S now start r price w.log)
      (beginSection S r now)
      (fun marked w => AtRecord S now start r rest w ∧ Ready S now start r price w.log ∧
        ∀ d, marked = some d → Marked S now r d w)
      (fun _ => Accounted S now start) := by
  rintro w ⟨hat, hr, hready⟩
  have hi := interleave_quiet (S := S) hat.quiet
  show Post _ _ (EStateM.bind (interleave S) _ w)
  simp only [EStateM.bind, hi]
  cases hb : w.shared.begin w.shared.worker (ownIdentity S w.log.length w.shared) r now
      S.cfg.claimLeaseSec with
  | mk marked sh =>
      unfold Shared.begin at hb
      rcases beginClaimedSubmit_cases r now S.cfg.claimLeaseSec w.shared.worker.pid
          (ownIdentity S w.log.length w.shared) w.shared.queue with
        hnone | ⟨identity, r₁, hst, hf, hsome⟩
      · rw [hnone] at hb
        cases hb
        exact ⟨hat, hready, fun d h => by cases h⟩
      · rw [hsome] at hb
        cases hb
        have heq : r₁ = r := eq_of_key_eq hat.nodup (List.mem_of_find?_eq_some hf) hr
          (exactClaim_id (List.find?_some hf))
        subst heq
        refine ⟨hat.section (o := .beginClaimedSubmit r₁ now S.cfg.claimLeaseSec
          w.shared.worker.pid (some identity)) rfl ?_, hready, ?_⟩
        · simp only [Op.apply, ← hst, hsome]
          rfl
        · intro d hd
          cases hd
          refine ⟨updateFirst_found hf, ⟨identity, rfl⟩, ?_⟩
          by_contra hn
          -- without a client order ID nothing is marked
          unfold beginClaimedSubmit at hsome
          rw [hst] at hsome
          simp only [Bool.not_eq_true] at hn
          simp only [hn, or_true, if_true] at hsome
          cases hsome

theorem dispatch_pass {price : ℚ} (st : Stats) (provider : Option String) :
    Triple (fun w => AtRecord S now start r rest w ∧ r ∈ w.shared.queue ∧
        Ready S now start r price w.log)
      (dispatch S now st r price provider)
      (fun _ => PassInv S now start rest) (fun _ => Accounted S now start) := by
  unfold dispatch
  refine Triple.bind beginSection_pass (fun marked => ?_)
  cases marked with
  | none => exact Triple.pure (fun w hw => hw.1.toPassInv)
  | some d =>
      refine Triple.bind ((placeOrder_pass price provider).strengthen
        (fun w hw => ⟨hw.1, hw.2.1, hw.2.2 d rfl⟩)) (fun answer => ?_)
      rintro w ⟨s, hflight, rfl, hcall, hlen⟩
      exact settle_pass _ hcall w ⟨hflight, hlen⟩

/-- A pending record in hand that nothing at the venue stands against. -/
def Cleared (S : Setup) (now : ℚ) (start : Shared) (r : Record) (rest : List Record)
    (w : World) : Prop :=
  AtRecord S now start r rest w ∧ r ∈ w.shared.queue ∧ Leased S now start r ∧
    r.lifecycle = .submitPending ∧ NothingAtVenue S.cfg now r r.clientOrderId w.log

theorem Cleared.steady : Steady (Cleared S now start r rest) where
  quiet := fun _ h => h.1.quiet
  push := by
    rintro w e ⟨hat, hr, hl, hp, ha⟩ he
    exact ⟨AtRecord.steady.push w e hat he, hr, hl, hp, ha.push e⟩

theorem submitAtPrice_pass (st : Stats) (provider : Option String) :
    Triple (Cleared S now start r rest) (submitAtPrice S now st r provider)
      (fun _ => PassInv S now start rest) (fun _ => Accounted S now start) := by
  have hrelease : ∀ (c : CompleteArgs) (st : Stats), Triple (Cleared S now start r rest) (do
        let _ ← completeSection S r c
        pure st)
      (fun _ => PassInv S now start rest) (fun _ => Accounted S now start) := by
    intro c st
    exact (completeThen_pass c st).conseq (fun w hw => hw.1) (fun _ w hw => hw.toPassInv)
      (fun _ _ h => h)
  unfold submitAtPrice
  refine Triple.bind (Q := fun _ => Cleared S now start r rest) ?_ (fun answer => ?_)
  · exact Triple.askQuiet Cleared.steady.quiet (fun w h => Cleared.steady.push w _ h rfl)
  · split
    · rename_i price
      split_ifs with hgate
      · exact (dispatch_pass st provider).strengthen
          (fun w hw => ⟨hw.1, hw.2.1, hw.2.2.1, hw.2.2.2.1, hw.2.2.2.2, hgate⟩)
      · exact hrelease _ _
    · exact hrelease _ _

theorem retryPending_pass (st : Stats) (provider : Option String) :
    Triple (fun w => AtRecord S now start r rest w ∧ r ∈ w.shared.queue ∧ Leased S now start r ∧
        r.lifecycle = .submitPending)
      (retryPending S now st r provider)
      (fun _ => PassInv S now start rest) (fun _ => Accounted S now start) := by
  have hsteady : Steady (fun w => AtRecord S now start r rest w ∧ r ∈ w.shared.queue ∧
      Leased S now start r ∧ r.lifecycle = .submitPending) :=
    ⟨fun w hw => hw.1.quiet, fun w e hw he => ⟨AtRecord.steady.push w e hw.1 he, hw.2⟩⟩
  have hdone : ∀ (c : CompleteArgs) (st : Stats),
      Triple (AtRecord S now start r rest) (do
        let _ ← completeSection S r c
        pure st)
      (fun _ => PassInv S now start rest) (fun _ => Accounted S now start) := by
    intro c st
    exact (completeThen_pass c st).weaken (fun _ w hw => hw.toPassInv)
  unfold retryPending
  split_ifs with hrec
  · refine Triple.bind (reconcileClientOrder_steady hsteady r.symbol r.clientOrderId provider)
      (fun state => ?_)
    cases state with
    | found order => exact (hdone _ _).strengthen (fun w hw => hw.1.1)
    | unavailable => exact (hdone _ _).strengthen (fun w hw => hw.1.1)
    | notFound =>
        -- the absence stays in the log while its horizon is read
        intro w hw
        obtain ⟨c, hc, hl⟩ := hw.2 rfl
        have hmore := hsteady.and_mem (.lookup r.symbol c provider (.ok .absent))
        refine Triple.bind (notFoundIsReliable_steady hmore r now provider)
          (fun reliable => ?_) w ⟨hw.1, hl⟩
        cases reliable with
        | false => exact (hdone _ _).strengthen (fun w hw => hw.1.1.1)
        | true =>
            refine (submitAtPrice_pass st provider).strengthen ?_
            rintro w ⟨⟨⟨hat, hr, hle, hp⟩, hlook⟩, hrel⟩
            obtain ⟨caps, horizon, hcaps, hsup, hh, hlow, hhigh⟩ := hrel rfl
            exact ⟨hat, hr, hle, hp, Or.inr ⟨c, provider, caps, horizon, hc, hlook, hcaps, hsup,
              hh, hlow, hhigh⟩⟩
  · refine (submitAtPrice_pass st provider).strengthen ?_
    rintro w ⟨hat, hr, hle, hp⟩
    exact ⟨hat, hr, hle, hp, Or.inl (by simpa using hrec)⟩

/-- One leased record is advanced and the rest of the pass goes on. -/
theorem advanceClaimed_pass (st : Stats) :
    Triple (PassInv S now start (r :: rest)) (advanceClaimed S now st r)
      (fun _ => PassInv S now start rest) (fun _ => Accounted S now start) := by
  have hsteady : Steady (fun w => AtRecord S now start r rest w ∧ r ∈ w.shared.queue ∧
      Leased S now start r) :=
    ⟨fun w hw => hw.1.quiet, fun w e hw he => ⟨AtRecord.steady.push w e hw.1 he, hw.2⟩⟩
  unfold advanceClaimed
  refine Triple.bind ((providerName_steady hsteady (fun _ w hw => hw.1.accounted) r).strengthen
    (fun w hw => hw.head)) (fun provider => ?_)
  split
  · exact (reconcileReplacement_pass st provider).conseq (fun w hw => hw.1)
      (fun _ w hw => hw.toPassInv) (fun _ _ h => h)
  · exact (observeAccepted_pass st provider).conseq (fun w hw => hw.1)
      (fun _ w hw => hw.toPassInv) (fun _ _ h => h)
  · rename_i hp
    exact (retryPending_pass st provider).strengthen (fun w hw => ⟨hw.1, hw.2.1, hw.2.2, hp⟩)

end Submitting

/-! ## The whole pass -/

section Whole

variable {S : Setup} {now : ℚ} {start : Shared}

theorem allSubmits_of_none {P : Submitted → List Event → Prop} {log : List Event}
    (h : submits log = []) : AllSubmits P log := by
  induction log with
  | nil => trivial
  | cons e log ih =>
      cases he : e.submitted with
      | none =>
          rw [submits_cons_none he] at h
          exact (ih h).push he
      | some s => simp [submits, he] at h

/-- Nothing has been submitted yet, and the queue is still a part of the one at the start. -/
structure Unsubmitted (start : Shared) (w : World) : Prop where
  quiet : w.schedule = []
  none : submits w.log = []
  queue : w.shared.queue.Sublist start.queue
  used : w.shared.used = start.used

theorem Unsubmitted.steady : Steady (Unsubmitted start) where
  quiet := fun _ h => h.quiet
  push := fun w e h he => ⟨h.quiet, by rw [submits_cons_none he]; exact h.none, h.queue, h.used⟩

theorem accounted_of_none {w : World} (h : submits w.log = []) : Accounted S now start w := by
  refine ⟨allSubmits_of_none h, ?_, Or.inl ?_⟩ <;> simp [h]

/-- A class says what was checked of the record. -/
structure ClassOk (cfg : Config) (now : ℚ) (r : Record) (c : Class) : Prop where
  retry : c = .retry → r.lifecycle = .submitPending ∧ isDue cfg r now = true ∧
    isExpired cfg r now = false
  observe : c = .observe → r.lifecycle = .accepted
  reconcileCancel : c = .reconcileCancel → r.lifecycle = .awaitingCancel

theorem classByLifecycle_ok {cfg : Config} {r : Record} (h : isExpired cfg r now = false) :
    ClassOk cfg now r (classByLifecycle cfg r now) := by
  unfold classByLifecycle
  split_ifs with hdue
  · exact ⟨nofun, nofun, nofun⟩
  · have hd : isDue cfg r now = true := by simpa using hdue
    cases hl : r.lifecycle with
    | accepted => exact ⟨nofun, fun _ => hl, nofun⟩
    | awaitingCancel => exact ⟨nofun, nofun, fun _ => hl⟩
    | submitPending =>
        exact ⟨fun _ => ⟨hl, hd, h⟩, nofun, nofun⟩

theorem classify_pass (r : Record) :
    Triple (Unsubmitted start) (classify S now r)
      (fun c w => Unsubmitted start w ∧ ClassOk S.cfg now r c) (fun _ => Accounted S now start) := by
  have hother : ∀ c, c ≠ .retry → c ≠ .observe → c ≠ .reconcileCancel →
      Triple (Unsubmitted start) (pure c : Worker Class)
        (fun c w => Unsubmitted start w ∧ ClassOk S.cfg now r c)
        (fun _ => Accounted S now start) := by
    intro c h1 h2 h3
    exact Triple.pure (fun w hw => ⟨hw, fun h => absurd h h1, fun h => absurd h h2,
      fun h => absurd h h3⟩)
  unfold classify
  split_ifs with hexp hclaimed hlease
  · exact hother _ (by decide) (by decide) (by decide)
  · exact hother _ (by decide) (by decide) (by decide)
  · have hne : isExpired S.cfg r now = false := by simpa using hexp
    refine Triple.bind (Q := fun _ => Unsubmitted start) ?_ (fun owner => ?_)
    · intro w hw
      have hi := interleave_quiet (S := S) hw.quiet
      show Post _ _ (EStateM.bind (interleave S) _ w)
      simp only [EStateM.bind, hi]
      exact hw
    · have hgone : Triple (Unsubmitted start) (do
            let provider ← providerName S r
            let supported ← supportsClientIdReconciliation S r.symbol provider
            if supported then pure (classByLifecycle S.cfg r now) else pure .quarantined)
          (fun c w => Unsubmitted start w ∧ ClassOk S.cfg now r c)
          (fun _ => Accounted S now start) := by
        refine Triple.bind (providerName_steady Unsubmitted.steady
          (fun _ w hw => accounted_of_none hw.none) r) (fun provider => ?_)
        refine Triple.bind (Q := fun _ => Unsubmitted start) ?_ (fun supported => ?_)
        · exact Triple.bind (capabilitiesOf_steady Unsubmitted.steady r.symbol provider)
            (fun caps => Triple.pure (fun w hw => hw.1))
        · split_ifs
          · exact Triple.pure (fun w hw => ⟨hw, classByLifecycle_ok hne⟩)
          · exact hother _ (by decide) (by decide) (by decide)
      cases owner with
      | alive => exact hother _ (by decide) (by decide) (by decide)
      | unknown => exact hother _ (by decide) (by decide) (by decide)
      | dead => exact hgone
      | mismatched => exact hgone
  · exact Triple.pure (fun w hw => ⟨hw, classByLifecycle_ok (by simpa using hexp)⟩)

/-- The groups hold records of the snapshot, each with what was checked of it. -/
structure Sorted.Ok (cfg : Config) (now : ℚ) (snapshot : List Record) (s : Sorted) : Prop where
  toRetry : ∀ r ∈ s.toRetry, r ∈ snapshot ∧ ClassOk cfg now r .retry
  toObserve : ∀ r ∈ s.toObserve, r ∈ snapshot ∧ ClassOk cfg now r .observe
  toReconcileCancel : ∀ r ∈ s.toReconcileCancel, r ∈ snapshot ∧ ClassOk cfg now r .reconcileCancel
  live : ∀ r ∈ s.live, r ∈ snapshot

theorem Sorted.Ok.add {cfg : Config} {snapshot : List Record} {s : Sorted}
    (h : s.Ok cfg now snapshot) {r : Record} (hr : r ∈ snapshot) {c : Class}
    (hc : ClassOk cfg now r c) : (s.add r c).Ok cfg now snapshot := by
  have happend : ∀ {l : List Record} {P : Record → Prop}, (∀ x ∈ l, x ∈ snapshot ∧ P x) → P r →
      ∀ x ∈ l ++ [r], x ∈ snapshot ∧ P x := by
    intro l P hl hPr x hx
    rcases List.mem_append.mp hx with hx | hx
    · exact hl x hx
    · rw [List.mem_singleton] at hx
      exact hx ▸ ⟨hr, hPr⟩
  cases c with
  | expired => exact ⟨h.toRetry, h.toObserve, h.toReconcileCancel, h.live⟩
  | waiting => exact h
  | live =>
      refine ⟨h.toRetry, h.toObserve, h.toReconcileCancel, ?_⟩
      intro x hx
      rcases List.mem_append.mp hx with hx | hx
      · exact h.live x hx
      · rw [List.mem_singleton] at hx
        exact hx ▸ hr
  | quarantined => exact ⟨h.toRetry, h.toObserve, h.toReconcileCancel, h.live⟩
  | observe => exact ⟨h.toRetry, happend h.toObserve hc, h.toReconcileCancel, h.live⟩
  | reconcileCancel => exact ⟨h.toRetry, h.toObserve, happend h.toReconcileCancel hc, h.live⟩
  | retry => exact ⟨happend h.toRetry hc, h.toObserve, h.toReconcileCancel, h.live⟩

theorem classifyAll_pass (snapshot : List Record) :
    Triple (Unsubmitted start) (classifyAll S now snapshot)
      (fun s w => Unsubmitted start w ∧ s.Ok S.cfg now snapshot) (fun _ => Accounted S now start) := by
  unfold classifyAll
  refine Triple.strengthen (Triple.foldlM (I := fun _ (s : Sorted) w => Unsubmitted start w ∧
    s.Ok S.cfg now snapshot) ?_ {}) ?_
  · intro done r rest acc hl
    have hr : r ∈ snapshot := by rw [hl]; simp
    refine Triple.bind (Q := fun c w => (Unsubmitted start w ∧ ClassOk S.cfg now r c) ∧
      acc.Ok S.cfg now snapshot) ?_ (fun c => ?_)
    · rintro w ⟨hw, hacc⟩
      have h := @classify_pass S now start r w hw
      cases hres : classify S now r w with
      | ok c w' => rw [hres] at h; exact ⟨h, hacc⟩
      | error e w' => rw [hres] at h; exact h
    · exact Triple.pure (fun w hw => ⟨hw.1.1, hw.2.add hr hw.1.2⟩)
  · intro w hw
    exact ⟨hw, by constructor <;> intro r hr <;> cases hr⟩

/-- What the leased IDs stand for. -/
theorem Sorted.Ok.claimIds {cfg : Config} {snapshot : List Record} {s : Sorted}
    (h : s.Ok cfg now snapshot) {id : String} (hid : id ∈ s.claimIds) :
    ∃ r ∈ snapshot, r.id = id ∧ (r.lifecycle = .submitPending →
      isDue cfg r now = true ∧ isExpired cfg r now = false) := by
  simp only [Sorted.claimIds, List.mem_append, List.mem_map] at hid
  rcases hid with (⟨r, hr, rfl⟩ | ⟨r, hr, rfl⟩) | ⟨r, hr, rfl⟩
  · obtain ⟨hmem, hc⟩ := h.toRetry r hr
    exact ⟨r, hmem, rfl, fun _ => (hc.retry rfl).2⟩
  · obtain ⟨hmem, hc⟩ := h.toObserve r hr
    refine ⟨r, hmem, rfl, fun hp => ?_⟩
    rw [hc.observe rfl] at hp
    cases hp
  · obtain ⟨hmem, hc⟩ := h.toReconcileCancel r hr
    refine ⟨r, hmem, rfl, fun hp => ?_⟩
    rw [hc.reconcileCancel rfl] at hp
    cases hp

theorem discardSection_pass (expired : List Record) :
    Triple (Unsubmitted start) (discardSection S expired now) (fun _ => Unsubmitted start)
      (fun _ => Accounted S now start) := by
  refine Triple.lockedQuiet (fun w h => h.quiet) ?_ ?_
  · intro w gone sh h hb
    cases hd : discardExpired S.cfg expired now w.shared.queue with
    | error e => rw [hd] at hb; cases hb
    | ok p =>
        rw [hd] at hb
        cases hb
        obtain ⟨gone, -, hq⟩ := discardExpired_queue S.cfg expired now w.shared.queue
        rw [hd] at hq
        refine ⟨h.quiet, h.none, ?_, h.used⟩
        show p.2.Sublist start.queue
        rw [show p.2 = w.shared.queue.filter (fun r => !gone r) from hq]
        exact List.filter_sublist.trans h.queue
  · intro w e h _
    exact accounted_of_none h.none

/-- The lease gives the pass its records. -/
theorem claimSection_pass (hstart : (start.queue.map Record.id).Nodup) {ids : List String}
    (hids : ∀ id ∈ ids, ∃ r ∈ start.queue, r.id = id ∧ (r.lifecycle = .submitPending →
      isDue S.cfg r now = true ∧ isExpired S.cfg r now = false)) :
    Triple (Unsubmitted start) (claimSection S ids now)
      (fun claimed w => PassInv S now start claimed w ∧ submits w.log = [])
      (fun _ => Accounted S now start) := by
  refine Triple.lockedQuiet (fun w h => h.quiet) ?_ ?_
  · intro w claimed sh h hb
    have hnd : (w.shared.queue.map Record.id).Nodup := hstart.sublist (h.queue.map _)
    have hinv : ∀ (l : List Record) (sh' : Shared), (sh'.queue.map Record.id).Nodup →
        (∀ r ∈ l, r ∈ sh'.queue ∧ Leased S now start r) → (l.map Record.id).Nodup →
        PassInv S now start l { w with shared := sh' } := by
      intro l sh' hq hl hn
      refine ⟨h.quiet, hq, hl, hn, allSubmits_of_none h.none, ?_, ?_, ?_⟩ <;> simp [h.none]
    refine ⟨?_, h.none⟩
    split_ifs at hb with hempty
    · cases hb
      exact hinv [] w.shared hnd (fun r hr => by cases hr) List.nodup_nil
    · have hlease : ¬ S.cfg.claimLeaseSec ≤ 0 := not_le.mpr S.cfg.lease_pos
      simp only [claim, hempty, hlease, if_false, Except.map] at hb
      cases hb
      -- the token is new, so no earlier claim has it
      have hfresh : S.uuid.next w.shared.used ∉ start.used := h.used ▸ S.uuid.fresh w.shared.used
      refine hinv _ _ ?_ ?_ ?_
      · show ((w.shared.queue.map (fun r => if claimable ids now r then
          claimRecord now S.cfg.claimLeaseSec (S.uuid.next w.shared.used) r else r)).map
            Record.id).Nodup
        have hsame : w.shared.queue.map (Record.id ∘ fun r => if claimable ids now r then
            claimRecord now S.cfg.claimLeaseSec (S.uuid.next w.shared.used) r else r)
            = w.shared.queue.map Record.id := by
          refine List.map_congr_left (fun r _ => ?_)
          show (if claimable ids now r then _ else r).id = r.id
          split_ifs <;> rfl
        rw [List.map_map, hsame]
        exact hnd
      · intro r hr
        obtain ⟨r₁, hr₁, rfl⟩ := List.mem_map.mp hr
        obtain ⟨hq₁, hc₁⟩ := List.mem_filter.mp hr₁
        refine ⟨?_, S.uuid.next w.shared.used, r₁, h.queue.subset hq₁, hfresh, rfl, ?_⟩
        · exact List.mem_map.mpr ⟨r₁, hq₁, by rw [if_pos hc₁]⟩
        · have hid : r₁.id ∈ ids := by
            simp only [claimable, Bool.and_eq_true, List.contains_eq_mem, decide_eq_true_eq] at hc₁
            exact hc₁.1
          obtain ⟨r', hr', hrid, hgood⟩ := hids r₁.id hid
          rw [← eq_of_key_eq hstart hr' (h.queue.subset hq₁) hrid]
          exact hgood
      · rw [List.map_map]
        have hsame : (w.shared.queue.filter (claimable ids now)).map
            (Record.id ∘ claimRecord now S.cfg.claimLeaseSec (S.uuid.next w.shared.used))
            = (w.shared.queue.filter (claimable ids now)).map Record.id := rfl
        rw [hsame]
        exact hnd.sublist (List.filter_sublist.map _)
  · intro w e h _
    exact accounted_of_none h.none

/-- Recovering a live producer's claim does not touch the leased records: its token is older. -/
theorem recoverLive_pass (htok : ∀ r ∈ start.queue, ∀ t, r.claimToken = some t → t ∈ start.used)
    {claimed : List Record} (st : Stats) {r : Record} (hr : r ∈ start.queue) :
    Triple (fun w => PassInv S now start claimed w ∧ submits w.log = []) (recoverLive S now st r)
      (fun _ w => PassInv S now start claimed w ∧ submits w.log = [])
      (fun _ => Accounted S now start) := by
  have hsteady : Steady (fun w => PassInv S now start claimed w ∧ submits w.log = []) :=
    ⟨fun w hw => hw.1.quiet, fun w e hw he => ⟨hw.1.push he, by
      rw [submits_cons_none he]; exact hw.2⟩⟩
  unfold recoverLive
  refine Triple.bind (providerName_steady hsteady (fun _ w hw => hw.1.accounted) r)
    (fun provider => ?_)
  refine Triple.bind (reconcileClientOrder_steady hsteady r.symbol r.clientOrderId provider)
    (fun state => ?_)
  split
  · refine Triple.bind (Q := fun _ w => PassInv S now start claimed w ∧ submits w.log = []) ?_
      (fun _ => Triple.pure (fun w hw => hw))
    refine Triple.lockedQuiet (fun w hw => hw.1.1.quiet) ?_ (fun w e hw _ => hw.1.1.accounted)
    rintro w b sh ⟨⟨h, hnone⟩, -⟩ hb
    refine ⟨⟨h.quiet, ?_, ?_, h.restNodup, h.justified, h.once, h.apart, ?_⟩, hnone⟩
    · show (sh.queue.map Record.id).Nodup
      rw [Shared.complete_apply hb]
      exact apply_nodup_of_no_issue (o := .completeClaim r _) rfl h.nodup
    · intro x hx
      obtain ⟨hq, hl⟩ := h.leased x hx
      refine ⟨?_, hl⟩
      have hne : sameClaim r x = false := by
        obtain ⟨t, r₀, -, ht, rfl, -⟩ := hl
        by_contra hsame
        simp only [Bool.not_eq_false, sameClaim, Bool.and_eq_true, decide_eq_true_eq] at hsame
        exact ht (htok r hr t hsame.1.1.1.2.symm)
      show x ∈ sh.queue
      rw [Shared.complete_queue hb]
      exact List.mem_filterMap.mpr ⟨x, hq, by simp [completeRecord, hne]⟩
    · intro s hs
      rw [hnone] at hs
      cases hs
  · exact Triple.pure (fun w hw => hw.1)

theorem advanceAll_pass (claimed : List Record) (st : Stats) :
    Triple (PassInv S now start claimed) (claimed.foldlM (advanceClaimed S now) st)
      (fun _ => PassInv S now start []) (fun _ => Accounted S now start) := by
  induction claimed generalizing st with
  | nil => exact Triple.pure (fun _ h => h)
  | cons r rest ih =>
      rw [List.foldlM_cons]
      exact Triple.bind (advanceClaimed_pass st) (fun st' => ih st')

theorem processOnce_accounted {w : World} (h : QuietStart w) :
    Accounted S now w.shared (finalWorld (processOnce S now w)) := by
  have htriple : Triple (fun w' => w' = w) (processOnce S now)
      (fun _ => Accounted S now w.shared) (fun _ => Accounted S now w.shared) := by
    unfold processOnce
    refine Triple.bind (Q := fun snapshot w' => Unsubmitted w.shared w' ∧
      snapshot = w.shared.queue) ?_ (fun snapshot => ?_)
    · have hfirst : Unsubmitted w.shared w :=
        ⟨h.quiet, by rw [h.log]; rfl, List.Sublist.refl _, rfl⟩
      refine Triple.lockedQuiet (fun w' hw => hw ▸ h.quiet) ?_ ?_
      · rintro _ q sh rfl hb
        unfold loadValidated at hb
        split_ifs at hb
        · cases hb
          exact ⟨hfirst, rfl⟩
        · cases hb
      · rintro _ e rfl _
        exact accounted_of_none hfirst.none
    · rintro w₁ ⟨hw₁, rfl⟩
      refine Triple.bind (classifyAll_pass w.shared.queue) (fun sorted => ?_) w₁ hw₁
      rintro w₂ ⟨hw₂, hok⟩
      refine Triple.bind (discardSection_pass sorted.expired) (fun expired => ?_) w₂ hw₂
      refine Triple.bind (claimSection_pass h.nodup (fun id hid => hok.claimIds hid))
        (fun claimed => ?_)
      -- recovering sends nothing: what a pass submits, it submits for a record that it claimed
      have hlive : ∀ st, Triple
          (fun w' => PassInv S now w.shared claimed w' ∧ submits w'.log = [])
          (sorted.live.foldlM (recoverLive S now) st)
          (fun _ w' => PassInv S now w.shared claimed w' ∧ submits w'.log = [])
          (fun _ => Accounted S now w.shared) := by
        intro st
        refine Triple.foldlM (I := fun _ _ w' => PassInv S now w.shared claimed w' ∧
          submits w'.log = []) ?_ st
        intro done r rest acc hl
        exact recoverLive_pass h.tokens acc (hok.live r (by rw [hl]; simp))
      refine Triple.bind (hlive _) (fun st => ?_)
      refine Triple.bind ((advanceAll_pass claimed st).strengthen (fun w' hw => hw.1))
        (fun st' => ?_)
      refine Triple.bind (Q := fun _ => Accounted S now w.shared) ?_
        (fun _ => Triple.pure (fun _ h => h))
      refine Triple.lockedQuiet (fun w' hw => hw.quiet) ?_ (fun w' e hw _ => hw.accounted)
      intro w' n sh hw hb
      cases hb
      exact hw.accounted
  have hpost := htriple w rfl
  cases hres : processOnce S now w with
  | ok st w' => rw [hres] at hpost; exact hpost
  | error e w' => rw [hres] at hpost; exact hpost

/-- **Every worker submit is justified, and settled unless its report is lost.** A pass is
sound exactly when the facade never reports an acceptance without an order that is returned
or found. -/
theorem passSound_iff_no_lost_report (S : Setup) (now : ℚ) {w : World} (h : QuietStart w) :
    PassSound S now w ↔
      ∀ s ∈ submits (finalWorld (processOnce S now w)).log, ¬ LostReport S s := by
  have hacc := @processOnce_accounted S now _ h
  constructor
  · intro hsound s hs hlost
    rcases hacc.outcome with hall | ⟨s', hs', -, hnot⟩
    · exact (hall s hs).2 hlost
    · exact hnot (hsound.settled s' hs')
  · intro hno
    refine ⟨hacc.once, hacc.justified, ?_⟩
    intro s hs
    rcases hacc.outcome with hall | ⟨s', hs', hlost, -⟩
    · exact (hall s hs).1
    · exact absurd hlost (hno s' hs')

end Whole

/-! ## A pass that accepts and a pass that loses its report -/

/-- A facade without lookup that quotes 100 and answers every submit alike. -/
def sampleMarket (answer : PlaceAnswer) : Market where
  orderByClientId := none
  providerNameFor := none
  reconciliationCapabilities := none
  getCurrentPrice := fun _ _ => .ok (some 100)
  orderStatus := fun _ _ _ _ => .error "unavailable"
  place := fun _ _ => answer

def sampleSetup (answer : PlaceAnswer) : Setup where
  cfg := Config.repository
  mkt := sampleMarket answer
  uuid := UuidSource.longest
  procs := fun _ _ _ => .identity "boot-9"

/-- One due trend deferral. -/
def sampleDeferral : Record :=
  { id := "a1", intentId := "outbox-a1", providerName := some "binance", symbol := "BTCUSDC",
    side := .sell, kind := none, qty := 2, requestedQtyTotal := 2, deliveredQty := 0,
    placeKwargs := [("client_order_id", some "OR_a1_0")], requestedPrice := some 100,
    refPrice := none, createdTs := 10, attempts := 0, lastAttemptTs := 0,
    lastFailureReason := some "trend_deferred", ttlStartedTs := 10, revision := 0,
    lifecycle := .submitPending, safeToDiscard := true }

def sampleWorker : Process := ⟨9, "boot-9", by decide, by decide⟩

def sampleWorld : World where
  shared :=
    { queue := [sampleDeferral], used := ["a1"], spawned := [sampleWorker],
      running := [sampleWorker], worker := sampleWorker,
      held := [], grants := [], completed := [], superseded := [] }
  schedule := []
  log := []

theorem sampleWorld_quiet : QuietStart sampleWorld := by
  refine ⟨rfl, rfl, by decide, ?_⟩
  intro r hr t ht
  rw [show sampleWorld.shared.queue = [sampleDeferral] from rfl, List.mem_singleton] at hr
  rw [hr] at ht
  cases ht

/-- What a facade answers when the venue accepts. -/
def acceptingAnswer : PlaceAnswer := ⟨.ok (some ⟨some "9001", some "NEW"⟩), none, some .accepted⟩

/-- What `Instrument.place` answers when the cooldown commit after an accepted order raises:
nothing, with the state `accepted`. -/
def lostAnswer : PlaceAnswer := ⟨.ok none, none, some .accepted⟩

/-- The venue accepts: one submit, and the pass is sound. -/
theorem accepting_pass_sound :
    (submits (finalWorld (processOnce (sampleSetup acceptingAnswer) 1000 sampleWorld)).log).length
        = 1 ∧
      PassSound (sampleSetup acceptingAnswer) 1000 sampleWorld := by
  refine ⟨by decide +kernel, ?_⟩
  refine (passSound_iff_no_lost_report _ 1000 sampleWorld_quiet).mpr ?_
  intro s _ hlost
  have hno := hlost.noOrder
  cases hno

/-- The report is lost: the pass is not sound. -/
theorem lost_report_pass_not_sound :
    QuietStart sampleWorld ∧ ¬ PassSound (sampleSetup lostAnswer) 1000 sampleWorld := by
  refine ⟨sampleWorld_quiet, ?_⟩
  intro hsound
  have hlen : (submits (finalWorld (processOnce (sampleSetup lostAnswer) 1000 sampleWorld)).log).length
      = 1 := by
    decide +kernel
  obtain ⟨s, hs⟩ := List.exists_mem_of_length_eq_add_one hlen
  have hlost : LostReport (sampleSetup lostAnswer) s := ⟨rfl, nofun, rfl⟩
  rcases (@processOnce_accounted (sampleSetup lostAnswer) 1000 _
    sampleWorld_quiet).outcome with hok | ⟨s', hs', -, hnot⟩
  · exact (hok s hs).2 hlost
  · exact hnot (hsound.settled s' hs')

end TradingFleet.Outbox
