import TradingFleet.Basic.Runs
import TradingFleet.Permits.Submit

set_option autoImplicit false

/-! # What a permit authorizes

A permit is burned by the first call that compares it, so it leads to one order at most, and that
order is inside its scope. How old the synchronizations behind the order are is another matter:
the lifetime of a permit begins when it is constructed, not when the caches were read, and ends
when it is compared, not when the client is called. `permits_hold_iff` says for which runs these
two gaps do no harm.
-/

namespace TradingFleet.Permits

open TradingFleet.Hoare TradingFleet.Runs

/-! ## What each call does -/

/-- Nothing but the clock has changed. -/
def Kept (s₀ s : Desk) : Prop := s.permits = s₀.permits ∧ s.actions = s₀.actions

theorem Kept.refl (s : Desk) : Kept s s := ⟨rfl, rfl⟩

theorem pass_triple {s₀ : Desk} (d : Elapsed) {E : String → Desk → Prop} :
    Triple (Kept s₀) (pass d) (fun _ => Kept s₀) E :=
  Triple.updates (fun _ h => h)

theorem refuseIf_triple {P : Desk → Prop} {E : String → Desk → Prop} {c : Prop} [Decidable c]
    {reason : String} (h : c → ∀ s, P s → E reason s) :
    Triple P (refuseIf c reason) (fun _ s => ¬c ∧ P s) E := by
  unfold refuseIf
  by_cases hc : c
  · rw [if_pos hc]
    exact Triple.throw (h hc)
  · rw [if_neg hc]
    exact Triple.pure (fun s hs => ⟨hc, hs⟩)

section Validation

variable {H : HealthConfig} {s₀ : Desk}

/-- The status of the reading, which was found ready. -/
structure Judged (H : HealthConfig) (c : Confirmed) : Prop where
  status : c.status = inspectHealth H c.read c.nowMs
  ready : c.status.ready = true

theorem requireFresh_triple (r : HealthRead) :
    Triple (Kept s₀) (requireFreshAccountCache H r) (fun c s => Judged H c ∧ Kept s₀ s)
      (fun _ => Kept s₀) := by
  unfold requireFreshAccountCache
  apply Triple.get
  intro s hs
  dsimp only
  split
  · rename_i hready
    apply Triple.pure
    rintro s rfl
    exact ⟨⟨rfl, hready⟩, hs⟩
  · apply Triple.throw
    rintro s rfl
    exact hs

theorem attempt_triple (a : Attempt) :
    Triple (Kept s₀) (attempt H a) (fun o s => (∀ c, o = some c → Judged H c) ∧ Kept s₀ s)
      (fun _ => Kept s₀) := by
  unfold attempt
  refine Triple.bind (pass_triple a.beforeRequest) (fun _ => ?_)
  refine Triple.bind (requireFresh_triple a.requested) (fun requested => ?_)
  apply Triple.of_fact
  intro _
  refine Triple.bind (refuseIf_triple (fun _ s hs => hs)) (fun _ => ?_)
  apply Triple.of_fact
  intro _
  refine Triple.bind (pass_triple a.beforeConfirm) (fun _ => ?_)
  refine Triple.bind (requireFresh_triple a.confirmed) (fun confirmed => ?_)
  apply Triple.of_fact
  intro hjudged
  split
  · apply Triple.pure
    intro s hs
    refine ⟨?_, hs⟩
    rintro c ⟨⟩
    exact hjudged
  · apply Triple.pure
    intro s hs
    exact ⟨by simp, hs⟩

theorem attempts_triple (x : CacheCheck) :
    Triple (Kept s₀) (attempts H x) (fun c s => Judged H c ∧ Kept s₀ s) (fun _ => Kept s₀) := by
  unfold attempts
  refine Triple.bind (attempt_triple x.first) (fun o => ?_)
  apply Triple.of_fact
  intro hfirst
  cases o with
  | some c => exact Triple.pure (fun s hs => ⟨hfirst c rfl, hs⟩)
  | none =>
      refine Triple.bind (attempt_triple x.second) (fun o => ?_)
      apply Triple.of_fact
      intro hsecond
      cases o with
      | some c => exact Triple.pure (fun s hs => ⟨hsecond c rfl, hs⟩)
      | none => exact Triple.throw (fun s hs => hs)

theorem requireAccountCache_triple (x : CacheCheck) :
    Triple (Kept s₀) (requireAccountCacheForSubmit H x) (fun c s => Judged H c ∧ Kept s₀ s)
      (fun _ => Kept s₀) := by
  unfold requireAccountCacheForSubmit
  refine Triple.bind (refuseIf_triple (fun _ s hs => hs)) (fun _ => ?_)
  apply Triple.of_fact
  intro _
  exact Triple.tryCatch (attempts_triple x) (fun e => Triple.throw (fun s hs => hs))

theorem requireHeadroom_triple (x : CacheCheck) :
    Triple (Kept s₀) (requireHeadroom H x)
      (fun c s => (Judged H c ∧ hasHeadroom H c.status = true) ∧ Kept s₀ s) (fun _ => Kept s₀) := by
  unfold requireHeadroom
  refine Triple.bind (requireAccountCache_triple x) (fun c => ?_)
  apply Triple.of_fact
  intro hjudged
  refine Triple.bind (refuseIf_triple (fun _ s hs => hs)) (fun _ => ?_)
  apply Triple.of_fact
  intro hroom
  exact Triple.pure (fun s hs => ⟨⟨hjudged, by simpa using hroom⟩, hs⟩)

end Validation

/-! ## The lifetime of a permit -/

/-- The reading a permit rests on left room for its lifetime. -/
structure Sound (H : HealthConfig) (p : Permit) : Prop where
  expires : p.expiresAtWall = p.issuedAtWall + H.permitTtlSec
  tick : 0 ≤ p.priceTickSize
  basis : ∃ S, p.basis.read.snapshot? = some S ∧
    (p.basis.nowMs : ℚ) / 1000 - (S.orderSyncMs : ℚ) / 1000 + H.permitTtlSec ≤ H.maxAgeSec ∧
    (p.basis.nowMs : ℚ) / 1000 - (S.tradeSyncMs : ℚ) / 1000 + H.permitTtlSec ≤ H.maxAgeSec

/-- Headroom is room for the lifetime beside the age of either synchronization. -/
theorem Judged.basis {H : HealthConfig} {c : Confirmed} (h : Judged H c)
    (hroom : hasHeadroom H c.status = true) :
    ∃ S, c.read.snapshot? = some S ∧
      (c.nowMs : ℚ) / 1000 - (S.orderSyncMs : ℚ) / 1000 + H.permitTtlSec ≤ H.maxAgeSec ∧
      (c.nowMs : ℚ) / 1000 - (S.tradeSyncMs : ℚ) / 1000 + H.permitTtlSec ≤ H.maxAgeSec := by
  obtain ⟨S, hS, horder, htrade⟩ := inspectHealth_ready (h.status ▸ h.ready)
  rw [← h.status] at horder htrade
  unfold hasHeadroom at hroom
  simp only [horder, htrade, decide_eq_true_eq] at hroom
  have hmax : max (ageSec c.nowMs S.orderSyncMs) (ageSec c.nowMs S.tradeSyncMs) ≤
      H.maxAgeSec - H.permitTtlSec := by linarith
  have hages := max_le_iff.mp hmax
  have ho := le_ageSec c.nowMs S.orderSyncMs
  have ht := le_ageSec c.nowMs S.tradeSyncMs
  exact ⟨S, hS, by linarith [hages.1], by linarith [hages.2]⟩

/-- **What an issue does**: nothing, or it adds a sound permit that is not consumed. -/
structure Issued (H : HealthConfig) (s₀ s : Desk) : Prop where
  actions : s.actions = s₀.actions
  permits : s.permits = s₀.permits ∨
    ∃ p, s.permits = s₀.permits ++ [p] ∧ Sound H p ∧ p.consumed = false

theorem priceTickSize_triple {s₀ : Desk} (x : IssueCall) :
    Triple (Kept s₀) (priceTickSize x) (fun tick s => 0 ≤ tick ∧ Kept s₀ s) (fun _ => Kept s₀) := by
  unfold priceTickSize
  split
  · exact Triple.pure (fun s hs => ⟨le_rfl, hs⟩)
  · split
    · rename_i rules _
      exact Triple.pure (fun s hs => ⟨rules.tickSize.2.1, hs⟩)
    · exact Triple.throw (fun s hs => hs)

theorem issuePermit_triple {H : HealthConfig} (x : IssueCall) (s₀ : Desk) :
    Triple (Kept s₀) (issuePermit H x) (fun _ => Issued H s₀) (fun _ => Issued H s₀) := by
  have hkept : ∀ s, Kept s₀ s → Issued H s₀ s := fun s hs => ⟨hs.2, Or.inl hs.1⟩
  unfold issuePermit
  split
  · exact Triple.throw hkept
  · rename_i qty price hparameters
    refine Triple.bind (refuseIf_triple (fun _ => hkept)) (fun _ => ?_)
    apply Triple.of_fact
    intro _
    refine Triple.bind ((requireHeadroom_triple x.early).conseq (fun _ h => h) (fun _ _ h => h)
      (fun _ => hkept)) (fun _ => ?_)
    apply Triple.of_fact
    intro _
    refine Triple.bind ((priceTickSize_triple x).conseq (fun _ h => h) (fun _ _ h => h)
      (fun _ => hkept)) (fun tick => ?_)
    apply Triple.of_fact
    intro htick
    refine Triple.bind ((requireHeadroom_triple x.late).conseq (fun _ h => h) (fun _ _ h => h)
      (fun _ => hkept)) (fun confirmed => ?_)
    apply Triple.of_fact
    rintro ⟨hjudged, hroom⟩
    refine Triple.bind (pass_triple x.toIssue) (fun _ => ?_)
    apply Triple.updates
    intro s hs
    constructor
    · exact hs.2
    · refine Or.inr ⟨_, by rw [hs.1], ⟨rfl, htick, hjudged.basis hroom⟩, rfl⟩

/-! ## Presenting a permit -/

/-- The clocks that a presented permit is compared with. -/
def presentedAt (s : Desk) (x : SubmitCall) : Clock := s.clock.after x.toConsume

/-- The clocks when the client is called. -/
def calledAt (s : Desk) (x : SubmitCall) : Clock := (presentedAt s x).after x.toCall

/-- The opposing cancellations, if any are asked for, are all confirmed. -/
def cancelsConfirmed (x : SubmitCall) (cancelPrice : Option ℚ) : Bool :=
  match cancelPrice with
  | none => true
  | some price =>
      if x.side ≠ "BUY" ∧ x.side ≠ "SELL" then true
      else
        match x.opposing with
        | none => false
        | some orders => (orders.filter (adverse x.side price)).all (·.canceled)

/-- The desk after a permit was compared. -/
def compared (s : Desk) (x : SubmitCall) (i : Nat) : Desk :=
  { s with clock := presentedAt s x, permits := burn s.permits i }

/-- A permit of the desk accepts the call. -/
structure Accepted (s₀ : Desk) (x : SubmitCall) (i : Nat) (p : Permit) : Prop where
  held : s₀.permits[i]? = some p
  unconsumed : p.consumed = false
  accepts : p.accepts x (presentedAt s₀ x) = true

/-- A refused presentation: an unconsumed permit is burned, and it did not accept the call. -/
structure Refused (s₀ : Desk) (x : SubmitCall) (i : Nat) (s : Desk) : Prop where
  actions : s.actions = s₀.actions
  permits : s.permits = s₀.permits ∧ (∀ p, s₀.permits[i]? = some p → p.consumed = true) ∨
    s.permits = burn s₀.permits i ∧
      ∀ p, s₀.permits[i]? = some p → p.consumed = false ∧ p.accepts x (presentedAt s₀ x) = false

/-- What `accepts` needs of the arguments. -/
theorem accepts_arguments {p : Permit} {x : SubmitCall} {c : Clock} (h : p.accepts x c = true) :
    x.qty ≠ .raises ∧ p.market = x.market ∧
      (x.market = false → x.price ≠ .raises ∧ x.permitRequestedPrice ≠ .raises) := by
  simp only [Permit.accepts, Bool.and_eq_true, Bool.or_eq_true, decide_eq_true_eq] at h
  obtain ⟨⟨⟨⟨-, hmarket⟩, -⟩, hqty⟩, hprice⟩ := h
  refine ⟨?_, hmarket, ?_⟩
  · intro hraises
    rw [hraises] at hqty
    cases hqty
  · intro hlimit
    rw [hmarket, hlimit] at hprice
    have hsafe := hprice.resolve_left (by simp)
    unfold Permit.priceIsSafe at hsafe
    split at hsafe
    · rename_i hp hr
      simp [hp, hr]
    · cases hsafe

/-- **A permit is burned by the first call that compares it.** -/
theorem consumePermit_triple (x : SubmitCall) (i : Nat) (s₀ : Desk) :
    Triple (· = s₀) (consumePermit x i)
      (fun _ s => ∃ p, Accepted s₀ x i p ∧ s = compared s₀ x i)
      (fun _ s => Refused s₀ x i s) := by
  unfold consumePermit
  apply Triple.get
  rintro s rfl
  cases hp : s.permits[i]? with
  | none =>
      apply Triple.throw
      rintro t rfl
      exact ⟨rfl, Or.inl ⟨rfl, by simp [hp]⟩⟩
  | some p =>
      dsimp only
      -- once the permit is burned, every refusal means that it does not accept the call
      have hburned : ∀ t : Desk, t.permits = burn s.permits i ∧ t.actions = s.actions →
          p.consumed = false → p.accepts x (presentedAt s x) = false → Refused s x i t := by
        intro t ht hunconsumed hmismatch
        refine ⟨ht.2, Or.inr ⟨ht.1, ?_⟩⟩
        intro p' hp'
        rw [hp] at hp'
        cases hp'
        exact ⟨hunconsumed, hmismatch⟩
      have hno : ¬ (p.accepts x (presentedAt s x) = true) →
          p.accepts x (presentedAt s x) = false := by simp
      refine Triple.bind (refuseIf_triple ?_) (fun _ => ?_)
      · rintro hconsumed t rfl
        refine ⟨rfl, Or.inl ⟨rfl, ?_⟩⟩
        intro p' hp'
        rw [hp] at hp'
        cases hp'
        exact hconsumed
      apply Triple.of_fact
      intro hunconsumed
      have hun : p.consumed = false := by simpa using hunconsumed
      refine Triple.bind (Q := fun _ t => t = { s with permits := burn s.permits i })
        (Triple.updates (fun t ht => by rw [ht])) (fun _ => ?_)
      refine Triple.bind (refuseIf_triple ?_) (fun _ => ?_)
      · rintro hraises t rfl
        refine hburned _ ⟨rfl, rfl⟩ hun (hno (fun hacc => ?_))
        obtain ⟨hqty, -, hprices⟩ := accepts_arguments hacc
        rcases hraises with hr | ⟨hlimit, hr | hr⟩
        · exact hqty hr
        · exact (hprices hlimit).1 hr
        · exact (hprices hlimit).2 hr
      apply Triple.of_fact
      intro _
      refine Triple.bind (refuseIf_triple ?_) (fun _ => ?_)
      · rintro ⟨hlimit, hmarket⟩ t rfl
        refine hburned _ ⟨rfl, rfl⟩ hun (hno (fun hacc => ?_))
        have heq := (accepts_arguments hacc).2.1
        rw [hlimit, hmarket] at heq
        cases heq
      apply Triple.of_fact
      intro _
      refine Triple.bind (Q := fun _ t => t = compared s x i)
        (Triple.updates (fun t ht => by rw [ht]; rfl)) (fun _ => ?_)
      refine (refuseIf_triple ?_).weaken ?_
      · rintro hmismatch t rfl
        exact hburned _ ⟨rfl, rfl⟩ hun hmismatch
      · rintro _ t ⟨haccepts, rfl⟩
        exact ⟨p, ⟨hp, hun, by simpa [presentedAt] using haccepts⟩, rfl⟩

/-! ## Submitting -/

/-- The desk with cancellations requested. -/
def canceling (s : Desk) (cs : List Nat) : Desk :=
  { s with actions := s.actions ++ cs.map Action.cancel }

theorem cancelOppositeOrders_triple (x : SubmitCall) (price : ℚ) (s₀ : Desk) :
    Triple (· = s₀) (cancelOppositeOrders x price)
      (fun _ s => cancelsConfirmed x (some price) = true ∧ ∃ cs, s = canceling s₀ cs)
      (fun _ s => cancelsConfirmed x (some price) = false ∧ ∃ cs, s = canceling s₀ cs) := by
  have hnone : s₀ = canceling s₀ [] := by simp [canceling]
  unfold cancelOppositeOrders cancelsConfirmed
  split
  · rename_i hside
    apply Triple.pure
    rintro s rfl
    exact ⟨rfl, [], hnone⟩
  · rename_i hside
    cases x.opposing with
    | none =>
        apply Triple.throw
        rintro s rfl
        exact ⟨rfl, [], hnone⟩
    | some orders =>
        dsimp only
        refine Triple.bind (Q := fun _ s => ∃ cs, s = canceling s₀ cs) (Triple.updates ?_)
          (fun _ => ?_)
        · rintro s rfl
          exact ⟨(cancelUntilRefused (orders.filter (adverse x.side price))).map Opposing.orderId,
            by simp [canceling, Function.comp_def]⟩
        · refine (refuseIf_triple ?_).weaken ?_
          · intro hrefused s hs
            refine ⟨?_, hs⟩
            rw [← Bool.not_eq_true, List.all_eq_true]
            intro hall
            obtain ⟨o, ho, hno⟩ := List.any_eq_true.mp hrefused
            simp [hall o ho] at hno
          · rintro _ s ⟨hconfirmed, hs⟩
            refine ⟨?_, hs⟩
            rw [List.all_eq_true]
            intro o ho
            by_contra hno
            exact hconfirmed (List.any_eq_true.mpr ⟨o, ho, by simpa using hno⟩)

/-- **The client is called after the cancellations**, if all are confirmed. -/
theorem dispatch_triple (x : SubmitCall) (cancelPrice : Option ℚ) (s₀ : Desk) :
    Triple (· = s₀) (dispatch x cancelPrice)
      (fun _ s => cancelsConfirmed x cancelPrice = true ∧ s.permits = s₀.permits ∧ ∃ cs : List Nat,
        s.actions = s₀.actions ++ cs.map Action.cancel ++
          [.order (clientOrder x (s₀.clock.after x.toCall))])
      (fun _ s => cancelsConfirmed x cancelPrice = false ∧ s.permits = s₀.permits ∧
        ∃ cs : List Nat, s.actions = s₀.actions ++ cs.map Action.cancel) := by
  have hfirst : Triple (· = s₀) (cancelFirst x cancelPrice)
      (fun _ s => cancelsConfirmed x cancelPrice = true ∧ ∃ cs, s = canceling s₀ cs)
      (fun _ s => cancelsConfirmed x cancelPrice = false ∧ s.permits = s₀.permits ∧
        ∃ cs : List Nat, s.actions = s₀.actions ++ cs.map Action.cancel) := by
    cases cancelPrice with
    | none =>
        apply Triple.pure
        rintro s rfl
        exact ⟨rfl, [], by simp [canceling]⟩
    | some price =>
        refine (cancelOppositeOrders_triple x price s₀).conseq (fun _ h => h) (fun _ _ h => h) ?_
        rintro _ s ⟨hno, cs, rfl⟩
        exact ⟨hno, rfl, cs, rfl⟩
  unfold dispatch
  refine Triple.bind hfirst (fun _ => ?_)
  apply Triple.of_fact
  intro hconfirmed
  refine Triple.bind (Q := fun _ s => ∃ cs, s = { canceling s₀ cs with
    clock := s₀.clock.after x.toCall }) (Triple.updates ?_) (fun _ => Triple.updates ?_)
  · rintro s ⟨cs, rfl⟩
    exact ⟨cs, rfl⟩
  · rintro s ⟨cs, rfl⟩
    exact ⟨hconfirmed, rfl, cs, rfl⟩

/-- The request for opposing cancellations is refused before the permit is looked at. -/
def refusesCancel (x : SubmitCall) : Bool :=
  match opposingCancelPrice x with
  | .error _ => true
  | .ok _ => false

/-- A call whose permit accepts it goes on to the client. -/
def reachesClient (x : SubmitCall) : Bool :=
  match opposingCancelPrice x with
  | .error _ => false
  | .ok cancelPrice => x.enabled && cancelsConfirmed x cancelPrice

/-- How a submit ends. -/
inductive SubmitEnds (s₀ : Desk) (x : SubmitCall) (s : Desk) : Prop
  /-- no permit is presented -/
  | unpermitted (hx : x.permit = none) (permits : s.permits = s₀.permits) (l : List Action)
      (orders : ∀ o, Action.order o ∈ l → o.permit = none) (actions : s.actions = s₀.actions ++ l)
  /-- the permit is not compared -/
  | uncompared (i : Nat) (hx : x.permit = some i) (permits : s.permits = s₀.permits)
      (actions : s.actions = s₀.actions)
      (why : refusesCancel x = true ∨ ∀ p, s₀.permits[i]? = some p → p.consumed = true)
  | mismatched (i : Nat) (hx : x.permit = some i) (permits : s.permits = burn s₀.permits i)
      (actions : s.actions = s₀.actions) (readable : refusesCancel x = false)
      (why : ∀ p, s₀.permits[i]? = some p →
        p.consumed = false ∧ p.accepts x (presentedAt s₀ x) = false)
  /-- the permit accepts the call, but the client is not reached -/
  | spent (i : Nat) (hx : x.permit = some i) (p : Permit) (accepted : Accepted s₀ x i p)
      (permits : s.permits = burn s₀.permits i) (why : reachesClient x = false) (cs : List Nat)
      (actions : s.actions = s₀.actions ++ cs.map Action.cancel)
  | ordered (i : Nat) (hx : x.permit = some i) (p : Permit) (accepted : Accepted s₀ x i p)
      (permits : s.permits = burn s₀.permits i) (why : reachesClient x = true) (cs : List Nat)
      (actions : s.actions = s₀.actions ++ cs.map Action.cancel ++
        [.order (clientOrder x (calledAt s₀ x))])

theorem submit_unpermitted_triple {H : HealthConfig} {x : SubmitCall} (hx : x.permit = none)
    (cancelPrice : Option ℚ) (s₀ : Desk) :
    Triple (· = s₀) (do
      let authorized ← authorize H x
      if authorized then dispatch x cancelPrice else pure ())
      (fun _ s => SubmitEnds s₀ x s) (fun _ s => SubmitEnds s₀ x s) := by
  have hkept : ∀ s, Kept s₀ s → SubmitEnds s₀ x s := fun s hs =>
    .unpermitted hx hs.1 [] (by simp) (by rw [hs.2, List.append_nil])
  have hauthorize : Triple (· = s₀) (authorize H x) (fun _ => Kept s₀)
      (fun _ s => SubmitEnds s₀ x s) := by
    unfold authorize
    rw [hx]
    dsimp only
    split
    · exact Triple.pure (fun s hs => hs ▸ Kept.refl s)
    · refine Triple.bind (((requireAccountCache_triple x.check).conseq
        (fun s hs => hs ▸ Kept.refl s) (fun _ _ h => h) (fun _ => hkept))) (fun _ => ?_)
      apply Triple.of_fact
      intro _
      refine Triple.bind (refuseIf_triple (fun _ => hkept)) (fun _ => ?_)
      exact Triple.pure (fun s hs => hs.2)
  refine Triple.bind hauthorize (fun authorized => ?_)
  cases authorized with
  | false => exact Triple.pure hkept
  | true =>
      intro s hs
      -- without a permit the order carries none
      refine ((dispatch_triple x cancelPrice s).conseq (fun _ h => h) ?_ ?_) s rfl
      · rintro _ t ⟨-, hp, cs, ha⟩
        refine .unpermitted hx (hp.trans hs.1) _ ?_ (by rw [ha, hs.2, List.append_assoc])
        intro o ho
        simp only [List.mem_append, List.mem_map, reduceCtorEq, and_false, exists_false, false_or,
          List.mem_singleton, Action.order.injEq] at ho
        rw [ho]
        exact hx
      · rintro _ t ⟨-, hp, cs, ha⟩
        refine .unpermitted hx (hp.trans hs.1) _ ?_ (by rw [ha, hs.2])
        intro o ho
        simp at ho

theorem submit_permitted_triple {H : HealthConfig} {x : SubmitCall} {i : Nat}
    (hx : x.permit = some i) {cancelPrice : Option ℚ}
    (hcancel : opposingCancelPrice x = .ok cancelPrice) (s₀ : Desk) :
    Triple (· = s₀) (do
      let authorized ← authorize H x
      if authorized then dispatch x cancelPrice else pure ())
      (fun _ s => SubmitEnds s₀ x s) (fun _ s => SubmitEnds s₀ x s) := by
  have hreaches : reachesClient x = (x.enabled && cancelsConfirmed x cancelPrice) := by
    unfold reachesClient
    rw [hcancel]
  have hauthorize : Triple (· = s₀) (authorize H x)
      (fun authorized s => authorized = true ∧ x.enabled = true ∧
        ∃ p, Accepted s₀ x i p ∧ s = compared s₀ x i)
      (fun _ s => SubmitEnds s₀ x s) := by
    unfold authorize
    rw [hx]
    dsimp only
    refine Triple.bind ((consumePermit_triple x i s₀).conseq (fun _ h => h) (fun _ _ h => h) ?_)
      (fun _ => ?_)
    · rintro _ s ⟨ha, hp | hp⟩
      · exact .uncompared i hx hp.1 ha (Or.inr hp.2)
      · exact .mismatched i hx hp.1 ha (by simp [refusesCancel, hcancel]) hp.2
    · refine Triple.bind (refuseIf_triple ?_) (fun _ => ?_)
      · rintro hdisabled s ⟨p, hacc, rfl⟩
        exact .spent i hx p hacc rfl (by simp [hreaches, hdisabled]) [] (by simp [compared])
      · apply Triple.of_fact
        intro henabled
        apply Triple.pure
        rintro s ⟨p, hacc, rfl⟩
        exact ⟨rfl, by simpa using henabled, p, hacc, rfl⟩
  refine Triple.bind hauthorize (fun authorized => ?_)
  apply Triple.of_fact
  rintro rfl
  apply Triple.of_fact
  intro henabled
  rintro s ⟨p, hacc, rfl⟩
  refine ((dispatch_triple x cancelPrice (compared s₀ x i)).conseq (fun _ h => h) ?_ ?_) _ rfl
  · rintro _ t ⟨hconfirmed, hp, cs, ha⟩
    exact .ordered i hx p hacc hp (by simp [hreaches, henabled, hconfirmed]) cs ha
  · rintro _ t ⟨hno, hp, cs, ha⟩
    exact .spent i hx p hacc hp (by simp [hreaches, hno]) cs ha

theorem ended_of_triple {α : Type} {P Q : Desk → Prop} {x : PermitM α}
    (h : Triple P x (fun _ => Q) (fun _ => Q)) {s : Desk} (hs : P s) : Q (ended (x s)) := by
  have hpost := h s hs
  unfold ended
  cases hx : x s with
  | ok a s' =>
      rw [hx] at hpost
      exact hpost
  | error e s' =>
      rw [hx] at hpost
      exact hpost

/-- **What a submit does.** -/
theorem submit_ends (H : HealthConfig) (s₀ : Desk) (x : SubmitCall) :
    SubmitEnds s₀ x (serve H s₀ (.submit x)) := by
  refine ended_of_triple (P := (· = s₀)) (Q := SubmitEnds s₀ x) ?_ rfl
  unfold submitBinanceOrder
  cases hcancel : opposingCancelPrice x with
  | error reason =>
      apply Triple.throw
      rintro s rfl
      cases hx : x.permit with
      | none => exact .unpermitted hx rfl [] (by simp) (by simp)
      | some i => exact .uncompared i hx rfl rfl (Or.inl (by simp [refusesCancel, hcancel]))
  | ok cancelPrice =>
      cases hx : x.permit with
      | none => exact submit_unpermitted_triple hx cancelPrice s₀
      | some i => exact submit_permitted_triple hx hcancel s₀

theorem issue_ends (H : HealthConfig) (s₀ : Desk) (x : IssueCall) :
    Issued H s₀ (serve H s₀ (.issue x)) :=
  ended_of_triple (issuePermit_triple x s₀) (Kept.refl s₀)

end TradingFleet.Permits
