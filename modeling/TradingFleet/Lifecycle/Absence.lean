import TradingFleet.Lifecycle.Crash
import TradingFleet.Outbox.Worker

set_option autoImplicit false

/-! # When an intent counts as absent

`reconcile` looks an intent without an order ID up by its client order ID, counts the responses
without an order ID and gives the intent up at `missing_confirmations` of them. The retry worker
asks the same question and lets only an explicit `None` confirm absence. The two count the same
responses when every response is `None` or has an order ID: `absence_is_confirmed` is about runs
of that kind, over any number of ticks, failing writes and restarts.
-/

namespace TradingFleet.Lifecycle

open TradingFleet.Hoare TradingFleet.Text

variable {μ : Type}

/-! ## Two readings of one response -/

/-- What the worker is given for a response. -/
def lookupAnswer : Native → Outbox.LookupAnswer
  | .value .nothing => .absent
  | .value _ => .malformed
  | .record r => .order ⟨extractOrderId (.record r), r.status⟩

/-- `_reconcile_client_order` of the worker. -/
def workerReads : Except Exc Native → Outbox.Reconciliation
  | .error e => Outbox.readLookup (.error e.render)
  | .ok native => Outbox.readLookup (.ok (lookupAnswer native))

/-- The worker takes the response as a confirmed absence. -/
def notFound (answer : Except Exc Native) : Bool := workerReads answer = .notFound

/-- `lookUp` counts the response as a miss. -/
def miss : Except Exc Native → Bool
  | .error _ => false
  | .ok native => !truthy (orderFields native).orderId

/-- No response, `None`, or a response with an order ID. -/
def Clear (answer : Except Exc Native) : Prop :=
  ∀ native, answer = .ok native →
    native = .missing ∨ truthy (orderFields native).orderId = true

theorem notFound_iff (answer : Except Exc Native) :
    notFound answer = true ↔ answer = .ok .missing := by
  unfold notFound
  rw [decide_eq_true_iff]
  constructor
  · intro h
    match answer, h with
    | .ok (.value .nothing), _ => rfl
    | .ok (.record r), h =>
        simp only [workerReads, lookupAnswer, Outbox.readLookup] at h
        split at h <;> cases h
  · rintro rfl
    rfl

/-- The lifecycle and the worker draw the same line exactly at the clear responses. -/
theorem miss_eq_notFound_iff (answer : Except Exc Native) :
    miss answer = notFound answer ↔ Clear answer := by
  constructor
  · intro h native hnative
    by_cases hid : truthy (orderFields native).orderId = true
    · exact Or.inr hid
    · have hmiss : miss answer = true := by
        rw [hnative]
        simpa [miss] using hid
      rw [h, notFound_iff, hnative] at hmiss
      exact Or.inl (Except.ok.inj hmiss)
  · intro h
    cases answer with
    | error e => rfl
    | ok native =>
        rcases h native rfl with rfl | hid
        · rfl
        · have hnot : notFound (.ok native) = false := by
            rw [Bool.eq_false_iff, Ne, notFound_iff]
            rintro ⟨⟩
            exact absurd hid (by decide)
          rw [hnot]
          simpa [miss] using hid

/-! ## Runs -/

/-- What survives, and what the lookups answered, newest first. `released` is a call of
`persist(None)`, `absent` a result that says so. -/
structure Tally (μ : Type) where
  stored : Option (Pending μ) := none
  calls : Nat := 0
  answers : List (Except Exc Native) := []
  released : Bool := false
  absent : Bool := false

/-- One numbered call that leaves the slot alone. -/
def Tally.ask {α : Type} (answer : Nat → Except Stop α) : EStateM Stop (Tally μ) α := fun j =>
  let j' := { j with calls := j.calls + 1 }
  match answer j.calls with
  | .ok a => .ok a j'
  | .error e => .error e j'

def Tally.lookup (answer : Nat → Except Stop (Except Exc Native)) :
    EStateM Stop (Tally μ) (Except Exc Native) := fun j =>
  match answer j.calls with
  | .ok a => .ok a { j with calls := j.calls + 1, answers := a :: j.answers }
  | .error e => .error e { j with calls := j.calls + 1 }

/-- A write that raises may or may not have been made. -/
def Tally.keep (V : Surroundings) (written : Nat → Bool) (value : Option (Pending μ)) :
    EStateM Stop (Tally μ) Unit := fun j =>
  let released := j.released || value.isNone
  match V.persist j.calls with
  | .ok _ => .ok () { j with stored := value, calls := j.calls + 1, released }
  | .error e =>
      let stored := if written j.calls then value else j.stored
      .error e { j with stored, calls := j.calls + 1, released }

def tallyEnv (V : Surroundings) (written : Nat → Bool) : Env μ (Tally μ) where
  persist := Tally.keep V written
  orderByClientId _ _ := Tally.lookup V.orderByClientId
  orderStatus _ _ := Tally.ask V.orderStatus
  cancelOrder _ _ := Tally.ask V.cancelOrder
  clock := Tally.ask V.clock
  audit _ _ := Tally.ask V.audit

/-- The tally after a call, with the result of the call. -/
def Tally.after : EStateM.Result Stop (Tally μ) (Tracked μ) → Tally μ
  | .ok r j => { j with absent := j.absent || r.outcome = .absent }
  | .error _ j => j

/-- One more call of `reconcile`, on the intent that survived. -/
def Tally.reconciled (L : Settings) (V : Surroundings) (written : Nat → Bool) (j : Tally μ) :
    Tally μ :=
  match j.stored with
  | none => j
  | some p => Tally.after (reconcile L (tallyEnv V written) p j)

/-- `submit` of a new intent and then `n` calls of `reconcile`. -/
def lookups (L : Settings) (V : Surroundings) (written : Nat → Bool) (intent : Pending μ) :
    Nat → Tally μ
  | 0 => Tally.after (submit (tallyEnv V written) (Tally.ask V.submit) intent {})
  | n + 1 => (lookups L V written intent n).reconciled L V written

/-! ## Misses and what is counted -/

/-- An intent without an order has counted no more misses than there were. -/
structure Sound (answers : List (Except Exc Native)) (p : Pending μ) : Prop where
  misses : p.orderKnown = false → p.lookupMisses ≤ answers.countP miss
  real : ∀ t, p.terminalStatus = some t → t.Real

theorem Sound.cons {answers : List (Except Exc Native)} {p : Pending μ} (h : Sound answers p)
    (answer : Except Exc Native) : Sound (answer :: answers) p := by
  refine ⟨fun hp => (h.misses hp).trans ?_, h.real⟩
  rw [List.countP_cons]
  exact_mod_cast Nat.le_add_right _ _

/-- Once the order is known, what `reconcile` writes counts nothing. -/
theorem Sound.follows {answers : List (Except Exc Native)} {p q : Pending μ} (h : Sound answers p)
    (hp : p.orderKnown = true) (hpq : p.Follows q) : Sound answers q := by
  refine ⟨fun hq => ?_, fun t ht => ?_⟩
  · rw [hpq.orderKnown hp] at hq
    cases hq
  · rcases hpq.terminal with heq | ⟨-, t', hreal, ht'⟩
    · exact h.real t (heq ▸ ht)
    · rw [ht', Option.some.injEq] at ht
      exact ht ▸ hreal

structure Counted (M : Nat) (j : Tally μ) : Prop where
  stored : ∀ p, j.stored = some p → Sound j.answers p
  released : j.released = true → M ≤ j.answers.countP miss
  absent : j.absent = true → M ≤ j.answers.countP miss

theorem Counted.start (M : Nat) : Counted M ({} : Tally μ) where
  stored := fun p hp => by cases hp
  released := fun h => by cases h
  absent := fun h => by cases h

theorem Counted.asked {M : Nat} {j : Tally μ} (h : Counted M j) :
    Counted M { j with calls := j.calls + 1 } :=
  ⟨h.stored, h.released, h.absent⟩

theorem Counted.answered {M : Nat} {j : Tally μ} (h : Counted M j) (answer : Except Exc Native) :
    Counted M { j with calls := j.calls + 1, answers := answer :: j.answers } := by
  have hle : j.answers.countP miss ≤ (answer :: j.answers).countP miss := by
    rw [List.countP_cons]
    exact Nat.le_add_right _ _
  exact ⟨fun p hp => (h.stored p hp).cons answer, fun hr => (h.released hr).trans hle,
    fun ha => (h.absent ha).trans hle⟩

section Steps

variable {V : Surroundings} {written : Nat → Bool} {M : Nat}

theorem Tally.ask_triple {α : Type} {answer : Nat → Except Stop α} {P : Tally μ → Prop}
    (hP : ∀ j, P j → P { j with calls := j.calls + 1 }) (hM : ∀ j, P j → Counted M j) :
    Triple P (Tally.ask answer) (fun _ => P) (fun _ => Counted M) := by
  intro j hj
  unfold Tally.ask
  cases answer j.calls with
  | ok a => exact hP j hj
  | error e => exact hM _ (hP j hj)

/-- The write of an intent that has not counted too much. -/
theorem Tally.keep_triple {P : Tally μ → Prop} (q : Pending μ) (hM : ∀ j, P j → Counted M j)
    (hq : ∀ j, P j → Sound j.answers q) :
    Triple P (Tally.keep V written (some q)) (fun _ j => Counted M j ∧ Sound j.answers q)
      (fun _ => Counted M) := by
  intro j hj
  obtain ⟨hstored, hreleased, habsent⟩ := hM j hj
  have hwrote : ∀ p, some q = some p → Sound j.answers p := by
    rintro p ⟨⟩
    exact hq j hj
  unfold Tally.keep
  simp only [Option.isNone_some, Bool.or_false]
  cases V.persist j.calls with
  | ok a => exact ⟨⟨hwrote, hreleased, habsent⟩, hq j hj⟩
  | error e =>
      cases written j.calls with
      | true => exact ⟨hwrote, hreleased, habsent⟩
      | false => exact ⟨hstored, hreleased, habsent⟩

/-- Giving the intent up, once enough misses were counted. -/
theorem Tally.release_triple :
    Triple (fun j : Tally μ => Counted M j ∧ M ≤ j.answers.countP miss)
      (Tally.keep V written none)
      (fun _ j => Counted M j ∧ M ≤ j.answers.countP miss) (fun _ => Counted M) := by
  intro j ⟨⟨hstored, hreleased, habsent⟩, henough⟩
  have hnone : ∀ p : Pending μ, none = some p → Sound j.answers p := fun p hp => by cases hp
  unfold Tally.keep
  cases V.persist j.calls with
  | ok a => exact ⟨⟨hnone, fun _ => henough, habsent⟩, henough⟩
  | error e =>
      cases written j.calls with
      | true => exact ⟨hnone, fun _ => henough, habsent⟩
      | false => exact ⟨hstored, fun _ => henough, habsent⟩

/-- The order of the stored intent is known: it is not given up any more. -/
structure Known (M : Nat) (p : Pending μ) (j : Tally μ) : Prop where
  known : p.orderKnown = true
  sound : Sound j.answers p
  counted : Counted M j

theorem Known.asked_triple {α : Type} (p : Pending μ) (answer : Nat → Except Stop α) :
    Triple (Known M p) (Tally.ask answer) (fun _ => Known M p) (fun _ => Counted M) :=
  Tally.ask_triple (fun _ hj => ⟨hj.known, hj.sound, hj.counted.asked⟩) (fun _ hj => hj.counted)

theorem Known.keep_triple {p q : Pending μ} (hpq : p.Follows q) :
    Triple (Known M p) (Tally.keep V written (some q)) (fun _ => Known M q)
      (fun _ => Counted M) := by
  intro j hj
  refine ((Tally.keep_triple q (fun j hj => hj.counted)
    (fun j hj => hj.sound.follows hj.known hpq)).weaken (fun _ j' hj' => ?_)) j hj
  exact ⟨hpq.orderKnown hj.known, hj'.2, hj'.1⟩

theorem tally_owner (V : Surroundings) (written : Nat → Bool) :
    Owner (μ := μ) (tallyEnv V written) (fun _ => Known M) (fun _ => Counted M)
      (fun _ => Counted M) where
  persist := fun p q hpq _ => Known.keep_triple hpq
  attempt := by
    intro p t _ htried _
    exact Known.keep_triple
      { Pending.Follows.refl p with cancelled := fun h => by rw [htried] at h; cases h }
  release := by
    intro p hknown _ j hj
    rw [hj.known] at hknown
    cases hknown
  orderByClientId := by
    intro p j hj
    show Post _ _ (Tally.lookup V.orderByClientId j)
    unfold Tally.lookup
    cases V.orderByClientId j.calls with
    | error e => exact hj.counted.asked
    | ok answer => exact ⟨hj.known, hj.sound.cons answer, hj.counted.answered answer⟩
  orderStatus := fun p _ => Known.asked_triple p V.orderStatus
  cancelOrder := fun p _ => Known.asked_triple p V.cancelOrder
  clock := fun p => Known.asked_triple p V.clock
  audit := fun _ _ p _ => Known.asked_triple p V.audit
  auditGone := fun _ _ _ => Tally.ask_triple (fun _ hj => hj.asked) (fun _ hj => hj)
  raised := fun p e s hs => hs.counted

/-- What a call of `reconcile` comes to. -/
def Reported (M : Nat) (r : Tracked μ) (j : Tally μ) : Prop :=
  Counted M j ∧ (r.outcome = .absent → M ≤ j.answers.countP miss)

/-- A call on an intent whose order is known does not report it absent. -/
theorem readStatus_reported (L : Settings) (p : Pending μ) (orderId : String)
    (hp : p.terminalStatus = none) :
    Triple (Known M p) (readStatus L (tallyEnv V written) p orderId) (Reported M)
      (fun _ => Counted M) := by
  intro j hj
  refine ((readStatus_triple (tally_owner V written) L p orderId hp hj.known).weaken
    (fun r j' hr => ?_)) j hj
  have hknown := hr.follows.orderKnown hj.known
  have hnot : r.outcome ≠ .absent := by
    intro habsent
    rw [(hr.released (Or.inl habsent)).1] at hknown
    cases hknown
  refine ⟨?_, fun habsent => absurd habsent hnot⟩
  cases houtcome : r.outcome with
  | active => exact (hr.stored (Or.inl houtcome)).counted
  | terminal => exact (hr.stored (Or.inr houtcome)).counted
  | absent => exact absurd houtcome hnot
  | retryable => exact (hr.released (Or.inr houtcome)).2
  | refused => exact absurd houtcome hr.outcome

theorem Reported.active_triple {p : Pending μ} {P : Tally μ → Prop}
    (hP : ∀ j, P j → Counted M j) :
    Triple P (pure ⟨.active, p, none⟩ : EStateM Stop (Tally μ) (Tracked μ)) (Reported M)
      (fun _ => Counted M) :=
  Triple.pure (fun j hj => ⟨hP j hj, nofun⟩)

/-- A write and the audit of it. -/
theorem Tally.noted_triple {P : Tally μ → Prop} (q : Pending μ) (event : AuditEvent)
    {k : EStateM Stop (Tally μ) (Tracked μ)} (hM : ∀ j, P j → Counted M j)
    (hq : ∀ j, P j → Sound j.answers q)
    (hk : Triple (fun j => Counted M j ∧ Sound j.answers q) k (Reported M) (fun _ => Counted M)) :
    Triple P (do
        (tallyEnv V written).persist (some q)
        (tallyEnv V written).audit event q
        k) (Reported M) (fun _ => Counted M) := by
  refine Triple.bind (Tally.keep_triple q hM hq) (fun _ => ?_)
  refine Triple.bind (Q := fun _ j => Counted M j ∧ Sound j.answers q) ?_ (fun _ => hk)
  exact Tally.ask_triple (fun _ hj => ⟨hj.1.asked, hj.2⟩) (fun _ hj => hj.1)

theorem lookUp_reported (L : Settings) (hretry : L.retryOnLookupError = false) (p : Pending μ)
    (hp : p.terminalStatus = none) (hknown : p.orderKnown = false) :
    Triple (fun j => Counted L.missingConfirmations j ∧ Sound j.answers p)
      (lookUp L (tallyEnv V written) p) (Reported L.missingConfirmations)
      (fun _ => Counted L.missingConfirmations) := by
  have hreal : ∀ t, p.terminalStatus = some t → t.Real := fun t ht => by
    rw [hp] at ht
    cases ht
  unfold lookUp
  -- a miss is among the answers before it is counted
  refine Triple.bind (Q := fun answer j => Counted L.missingConfirmations j ∧
    p.lookupMisses + (if miss answer then 1 else 0) ≤ j.answers.countP miss) ?_ (fun answer => ?_)
  · intro j ⟨hcounted, hsound⟩
    show Post _ _ (Tally.lookup V.orderByClientId j)
    unfold Tally.lookup
    cases V.orderByClientId j.calls with
    | error e => exact hcounted.asked
    | ok answer =>
        refine ⟨hcounted.answered answer, ?_⟩
        have hle := hsound.misses hknown
        show _ ≤ (((answer :: j.answers).countP miss : Nat) : Int)
        rw [List.countP_cons]
        split <;> push_cast <;> omega
  · cases answer with
    | error e =>
        refine Tally.noted_triple (p.lookupFailed e) _ (fun j hj => hj.1)
          (fun j hj => ⟨fun _ => by simpa [miss, Pending.lookupFailed] using hj.2, hreal⟩) ?_
        rw [hretry]
        exact Reported.active_triple (fun j hj => hj.1)
    | ok native =>
        by_cases hfound : truthy (orderFields native).orderId = true
        · simp only [hfound, if_true]
          have hnow : (p.recovered (orderFields native)).orderKnown = true := by
            show truthy ((orderFields native).orderId <|> p.orderId) = true
            cases hid : (orderFields native).orderId with
            | none =>
                rw [hid] at hfound
                cases hfound
            | some id =>
                rw [hid] at hfound
                exact hfound
          have hunknown : ∀ {n : Int}, (p.recovered (orderFields native)).orderKnown = false →
              (p.recovered (orderFields native)).lookupMisses ≤ n := by
            intro n h
            rw [hnow] at h
            cases h
          refine Tally.noted_triple _ _ (fun j hj => hj.1) (fun j hj => ⟨hunknown, hreal⟩) ?_
          exact (readStatus_reported L (p.recovered (orderFields native)) _ hp).strengthen
            (fun j hj => ⟨hnow, hj.2, hj.1⟩)
        · simp only [hfound, Bool.false_eq_true, if_false]
          have hmiss : miss (.ok native) = true := by simpa [miss] using hfound
          rw [hmiss]
          have hmissed : (p.missed).orderKnown = false := hknown
          refine Tally.noted_triple p.missed _ (fun j hj => hj.1)
            (fun j hj => ⟨fun _ => hj.2, hreal⟩) ?_
          by_cases hfew : p.missed.lookupMisses < L.missingConfirmations
          · simp only [hfew, if_true]
            exact Reported.active_triple (fun j hj => hj.1)
          · simp only [hfew, if_false]
            refine Triple.bind (Tally.release_triple.strengthen (fun j hj => ⟨hj.1, ?_⟩))
              (fun _ => Triple.pure (fun j hj => ⟨hj.1, fun _ => hj.2⟩))
            have hle := hj.2.misses hmissed
            omega

/-- One call of `reconcile`: an intent is given up only after enough misses. -/
theorem reconcile_reported (L : Settings) (hretry : L.retryOnLookupError = false) (p : Pending μ)
    (hreal : ∀ t, p.terminalStatus = some t → t.Real) :
    Triple (fun j => Counted L.missingConfirmations j ∧ Sound j.answers p)
      (reconcile L (tallyEnv V written) p) (Reported L.missingConfirmations)
      (fun _ => Counted L.missingConfirmations) := by
  unfold reconcile
  refine Triple.bind (Q := fun _ j => Counted L.missingConfirmations j ∧ Sound j.answers p) ?_
    (fun _ => ?_)
  · exact orRaise_triple (fun _ _ _ hj => hj) (fun _ _ _ hj => hj.1)
  · cases hcached : statusFromTerminalPayload p.terminalStatus with
    | some status => exact Triple.pure (fun j hj => ⟨hj.1, nofun⟩)
    | none =>
        have hnone : p.terminalStatus = none := by
          cases ht : p.terminalStatus with
          | none => rfl
          | some t =>
              obtain ⟨status, observedAt, -, hstatus⟩ := (hreal t ht).status
              rw [ht, hstatus] at hcached
              cases hcached
        by_cases hknown : p.orderKnown = true
        · simp only [hknown, if_true]
          exact (readStatus_reported L p _ hnone).strengthen (fun j hj => ⟨hknown, hj.2, hj.1⟩)
        · simp only [hknown, Bool.false_eq_true, if_false]
          exact lookUp_reported L hretry p hnone (by simpa using hknown)

/-- `submit` counts nothing. -/
theorem submit_reported (intent : Pending μ) (hzero : intent.lookupMisses = 0)
    (hnone : intent.terminalStatus = none) :
    Triple (fun j => Counted M j) (submit (tallyEnv V written) (Tally.ask V.submit) intent)
      (Reported M) (fun _ => Counted M) := by
  have hsound : ∀ (q : Pending μ) (answers : List (Except Exc Native)), q.lookupMisses = 0 →
      q.terminalStatus = none → Sound answers q := by
    intro q answers hq ht
    refine ⟨fun _ => by rw [hq]; exact Int.natCast_nonneg _, fun t ht' => ?_⟩
    rw [ht] at ht'
    cases ht'
  have quiet : ∀ {α : Type} (answer : Nat → Except Stop α),
      Triple (Counted M) (Tally.ask (μ := μ) answer) (fun _ => Counted M) (fun _ => Counted M) :=
    fun answer => Tally.ask_triple (fun _ hj => hj.asked) (fun _ hj => hj)
  have writes : ∀ q : Pending μ, q.lookupMisses = 0 → q.terminalStatus = none →
      Triple (Counted M) (Tally.keep V written (some q)) (fun _ => Counted M)
        (fun _ => Counted M) :=
    fun q hq ht => (Tally.keep_triple q (fun _ hj => hj) (fun _ _ => hsound q _ hq ht)).weaken
      (fun _ _ hj => hj.1)
  unfold submit
  refine Triple.bind (Q := fun _ => Counted M) ?_ (fun _ => ?_)
  · exact orRaise_triple (fun _ _ _ hj => hj) (fun _ _ _ hj => hj)
  refine Triple.bind (writes intent hzero hnone) (fun _ => ?_)
  refine Triple.bind (quiet V.audit) (fun _ => ?_)
  refine Triple.bind (quiet V.submit) (fun answer => ?_)
  have hsame : (intent.submitted (captureSubmission answer)).lookupMisses = 0 ∧
      (intent.submitted (captureSubmission answer)).terminalStatus = none := by
    unfold Pending.submitted
    cases (captureSubmission answer).state <;> exact ⟨hzero, hnone⟩
  refine Triple.bind (writes _ hsame.1 hsame.2) (fun _ => ?_)
  cases (captureSubmission answer).state with
  | refused =>
      exact Triple.bind (quiet V.audit) (fun _ => Triple.pure (fun j hj => ⟨hj, nofun⟩))
  | unknown =>
      exact Triple.bind (quiet V.audit) (fun _ => Triple.pure (fun j hj => ⟨hj, nofun⟩))
  | accepted =>
      exact Triple.bind (quiet V.audit) (fun _ => Triple.pure (fun j hj => ⟨hj, nofun⟩))

theorem Counted.after {x : EStateM Stop (Tally μ) (Tracked μ)} {P : Tally μ → Prop} {j : Tally μ}
    (h : Triple P x (Reported M) (fun _ => Counted M)) (hj : P j) :
    Counted M (Tally.after (x j)) := by
  have hpost := h j hj
  cases hx : x j with
  | error e j' =>
      rw [hx] at hpost
      exact hpost
  | ok r j' =>
      rw [hx] at hpost
      obtain ⟨hcounted, habsent⟩ := hpost
      refine ⟨hcounted.stored, hcounted.released, fun h => ?_⟩
      rcases (Bool.or_eq_true _ _).mp h with h | h
      · exact hcounted.absent h
      · exact habsent (of_decide_eq_true h)

end Steps

/-- In every run an intent is given up only after `missing_confirmations` responses without an
order ID. -/
theorem lookups_counted (L : Settings) (hretry : L.retryOnLookupError = false) (V : Surroundings)
    (written : Nat → Bool) (a : NewIntent μ) (createdAt : ℚ) (n : Nat) :
    Counted L.missingConfirmations (lookups L V written (a.record createdAt) n) := by
  induction n with
  | zero =>
      exact Counted.after (submit_reported (a.record createdAt) rfl rfl)
        (Counted.start L.missingConfirmations)
  | succ n ih =>
      unfold lookups Tally.reconciled
      cases hp : (lookups L V written (a.record createdAt) n).stored with
      | none => exact ih
      | some p =>
          have hsound := ih.stored p hp
          exact Counted.after (reconcile_reported L hretry p hsound.real) ⟨ih, hsound⟩

/-- **Absence is not invented** as long as no response other than `None` lacks an order ID: an
intent is given up only after `missing_confirmations` responses that the worker also takes for a
confirmed absence. -/
theorem absence_is_confirmed (L : Settings) (V : Surroundings) (written : Nat → Bool)
    (a : NewIntent μ) (createdAt : ℚ) (n : Nat) (hretry : L.retryOnLookupError = false)
    (hclear : ∀ answer ∈ (lookups L V written (a.record createdAt) n).answers, Clear answer)
    (hgone : (lookups L V written (a.record createdAt) n).released = true ∨
      (lookups L V written (a.record createdAt) n).absent = true) :
    L.missingConfirmations ≤
      (lookups L V written (a.record createdAt) n).answers.countP notFound := by
  have hcounted := lookups_counted L hretry V written a createdAt n
  have henough : L.missingConfirmations ≤
      (lookups L V written (a.record createdAt) n).answers.countP miss := by
    rcases hgone with hreleased | habsent
    · exact hcounted.released hreleased
    · exact hcounted.absent habsent
  rwa [List.countP_congr (fun answer hmem =>
    iff_of_eq (congrArg (· = true) ((miss_eq_notFound_iff answer).mpr (hclear answer hmem))))]
    at henough

/-- A submission that times out, then the response `native` to every lookup. -/
def unanswered (native : Native) : Surroundings where
  persist := fun _ => .ok ()
  submit := fun _ => .ok (.error ⟨.provider, "ProviderError", "timed out"⟩)
  orderByClientId := fun _ => .ok (.ok native)
  orderStatus := fun _ => .ok (.error ⟨.provider, "ProviderError", "unavailable"⟩)
  cancelOrder := fun _ => .ok (.ok ())
  clock := fun _ => .ok (some 1)
  audit := fun _ => .ok ()

def twoConfirmations : Settings where
  missingConfirmations_pos := by decide
  maxAgeSeconds_pos := fun _ h => by cases h

def sampleIntent : NewIntent Unit where
  intentId := "dca-1"
  clientOrderId := "DCA_1"
  symbol := "BTCUSDC"
  side := .buy
  requestedQty := 1
  metadata := ()

theorem absence_confirmed_twice :
    (lookups twoConfirmations (unanswered .missing) (fun _ => true) (sampleIntent.record 1)
      2).released = true ∧
    2 ≤ (lookups twoConfirmations (unanswered .missing) (fun _ => true) (sampleIntent.record 1)
      2).answers.countP notFound := by
  have hgone : (lookups twoConfirmations (unanswered .missing) (fun _ => true)
      (sampleIntent.record 1) 2).released = true := by decide +kernel
  refine ⟨hgone, absence_is_confirmed twoConfirmations (unanswered .missing) (fun _ => true)
    sampleIntent 1 2 rfl (fun answer hmem native hnative => Or.inl ?_) (Or.inl hgone)⟩
  have hall : (lookups twoConfirmations (unanswered .missing) (fun _ => true)
      (sampleIntent.record 1) 2).answers = [.ok .missing, .ok .missing] := by decide +kernel
  rw [hall] at hmem
  rcases List.mem_cons.mp hmem with rfl | hmem
  · exact (Except.ok.inj hnative).symm
  · rw [List.mem_singleton.mp hmem] at hnative
    exact (Except.ok.inj hnative).symm

/-- Two empty objects, which the worker does not take for an answer, release the intent. -/
theorem empty_responses_release :
    ¬ ∀ (L : Settings) (V : Surroundings) (written : Nat → Bool) (a : NewIntent Unit)
      (createdAt : ℚ) (n : Nat), L.retryOnLookupError = false →
      (lookups L V written (a.record createdAt) n).released = true →
      L.missingConfirmations ≤
        (lookups L V written (a.record createdAt) n).answers.countP notFound := by
  intro h
  have htwo := h twoConfirmations (unanswered (.record {})) (fun _ => true) sampleIntent 1 2 rfl
    (by decide +kernel)
  revert htwo
  decide +kernel

end TradingFleet.Lifecycle
