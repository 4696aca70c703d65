import TradingFleet.Basic.Runs
import TradingFleet.Outbox.Effects

set_option autoImplicit false

/-! # A possibly submitted order is never forgotten

A record that `begin_claimed_submit` marked, and that nobody has marked `refused` since, may
exist at its venue; so may an accepted record and a replacement that waits for a cancel. This
file follows such a record through every sequence of outbox operations. The invariant is
that it carries no discard permission and reads as possibly submitted (`Guarded`), so that
none of the housekeeping paths finds it disposable; what is left are the two operations
that finalize it under its own lease (`Finalizes`).

Both compare the claim tokens of the record and of the snapshot, and two missing tokens are equal
to them. A record that nobody has leased can so be removed with a snapshot that holds no lease
(`tokenless_completion_forgets`); the main result is about calls that do not do that (`Tokened`).
-/

namespace TradingFleet.Outbox

open TradingFleet.Keyed TradingFleet.Runs

/-! ## Runs of the outbox -/

/-- The queue with its history: the IDs ever issued, and the records `begin_claimed_submit` marked
that have not been marked `refused` since. -/
structure Ledger where
  queue : Queue
  issued : List String
  begun : List String

/-- The record a successful `begin_claimed_submit` marks. -/
def Op.began (op : Op) (q : Queue) : Option String :=
  match op with
  | .beginClaimedSubmit snap now lease pid start =>
      (Outbox.beginClaimedSubmit snap now lease pid start q).1.map Record.id
  | _ => none

def refusedIn (q : Queue) (id : String) : Bool :=
  q.any (fun r => r.id = id && r.submissionState = some .refused)

def Ledger.step (s : Ledger) (op : Op) : Ledger where
  queue := op.apply s.queue
  issued := op.issues ++ s.issued
  begun := (op.began s.queue).toList ++
    s.begun.filter (fun id => !refusedIn (op.apply s.queue) id)

/-- `uuid4` never repeats an ID. -/
def Op.IssuesFresh (op : Op) (s : Ledger) : Prop := ∀ id ∈ op.issues, id ∉ s.issued

def Ledger.Initial (s : Ledger) : Prop := s.queue = [] ∧ s.issued = [] ∧ s.begun = []

def Ledger.Next (s : Ledger) (op : Op) (s' : Ledger) : Prop :=
  op.IssuesFresh s ∧ s' = s.step op

/-- The ledgers some sequence of operations on an empty queue leads to. -/
abbrev Ledger.Reachable : Ledger → Prop := Reach Ledger.Initial Ledger.Next

/-! ## The invariant -/

/-- A record no housekeeping path may touch: it has no discard permission, and while it is
pending it reads as possibly submitted. -/
structure Guarded (r : Record) : Prop where
  notDisposable : r.safeToDiscard = false
  possiblySubmitted : r.lifecycle = .submitPending →
    r.submissionState = some .producerClaimed ∨ r.submissionState = some .unknown

theorem appendOrderHistory_guarded {r : Record} (t : ℚ) (st : Option OrderStatus)
    (h : Guarded r) : Guarded (appendOrderHistory r t st) := by
  unfold appendOrderHistory
  split
  · exact h
  · split_ifs
    · exact h
    · exact ⟨h.notDisposable, h.possiblySubmitted⟩

/-- An accepted record is guarded whatever it was before. -/
theorem applyAccepted_guarded {r r' : Record} {order : Option OrderPayload} {now : ℚ}
    {provider : Option String} (h : applyAccepted r order now provider = some r') :
    Guarded r' := by
  unfold applyAccepted at h
  split at h
  · cases h
  · rw [Option.some.injEq] at h
    rw [← h]
    refine appendOrderHistory_guarded now none ⟨?_, ?_⟩
    · rfl
    · intro hl; cases hl

theorem retryTerminalRecord_refused {r r' : Record} {st : Option OrderStatus} {now : ℚ}
    (h : retryTerminalRecord st now r = some r') : r'.submissionState = some .refused := by
  unfold retryTerminalRecord at h
  simp only at h
  split_ifs at h
  rw [Option.some.injEq] at h
  rw [← h]

/-- Every outcome but a terminal retry keeps a guarded record guarded. -/
theorem applyOutcome_guarded {claimed r r' : Record} {c : CompleteArgs} (hg : Guarded r)
    (hc : c.outcome ≠ .retryTerminal) (h : applyOutcome claimed c r = some r') : Guarded r' := by
  unfold applyOutcome at h
  split at h
  · cases h
  · rw [Option.some.injEq] at h; exact h ▸ hg
  · split at h
    · rename_i ha
      rw [Option.some.injEq] at h
      exact h ▸ applyAccepted_guarded ha
    · rw [Option.some.injEq] at h
      exact h ▸ ⟨rfl, hg.possiblySubmitted⟩
  · rw [Option.some.injEq] at h; exact h ▸ ⟨hg.notDisposable, hg.possiblySubmitted⟩
  · rw [Option.some.injEq] at h; exact h ▸ ⟨hg.notDisposable, hg.possiblySubmitted⟩
  · rename_i ho; exact absurd ho hc
  · rw [Option.some.injEq] at h; exact h ▸ ⟨hg.notDisposable, hg.possiblySubmitted⟩
  · rw [Option.some.injEq] at h; exact h ▸ ⟨hg.notDisposable, hg.possiblySubmitted⟩

/-- Reporting a state other than `refused` guards the record. -/
theorem reported_guarded (r : Record) {s : SubmissionState} (hrep : reportable (some s) = true)
    (hs : s ≠ .refused) :
    Guarded (setSafeToDiscard { r with submissionState := some s } (s = .refused)) := by
  have hu : s = .unknown := by
    cases s <;> first | rfl | exact absurd rfl hs | cases hrep
  subst hu
  exact ⟨rfl, fun _ => Or.inr rfl⟩

/-- Until it is marked `refused`, a guarded record stays guarded. -/
theorem Change.guarded {op : Op} {r r' : Record} (h : Change op r r') (hg : Guarded r)
    (hr : r'.submissionState ≠ some .refused) : Guarded r' := by
  cases h with
  | same => exact hg
  | refreshed _ _ he =>
      simp only [safeToEvictForCapacity, hg.notDisposable, Bool.and_false, Bool.false_and,
        Bool.false_eq_true] at he
  | claimed => exact ⟨hg.notDisposable, hg.possiblySubmitted⟩
  | begun => exact ⟨rfl, fun _ => Or.inl rfl⟩
  | @completed claimed c r x _ hrep ho =>
      cases hc : c.submissionState with
      | some s =>
          have hs : s ≠ .refused := by
            intro hs
            exact hr (by simp [finishClaim, hc, dropClaim, setSafeToDiscard, hs])
          -- any other state that may be reported keeps the record
          have hgx := reported_guarded x (hc ▸ hrep) hs
          simp only [finishClaim, hc, dropClaim]
          exact ⟨hgx.notDisposable, hgx.possiblySubmitted⟩
      | none =>
          by_cases hrt : c.outcome = .retryTerminal
          · -- a terminal retry marks the record refused
            refine absurd ?_ hr
            have ho' : retryTerminalRecord c.status c.now r = some x := by
              simpa [applyOutcome, hrt] using ho
            simp [finishClaim, hc, hrt, dropClaim, setSafeToDiscard,
              retryTerminalRecord_refused ho']
          · have hgx := applyOutcome_guarded hg hrt ho
            simp only [finishClaim, hc, dropClaim, if_neg hrt]
            exact ⟨hgx.notDisposable, hgx.possiblySubmitted⟩
  | @failed recordId reason now cid state r _ hrep =>
      cases state with
      | some s =>
          -- of the states a failure report may carry only this one is left
          have hu : s = .unknown := by
            cases s with
            | unknown => rfl
            | refused => exact absurd rfl hr
            | producerClaimed => cases hrep
            | accepted => cases hrep
          rw [hu]
          exact ⟨rfl, fun _ => Or.inr rfl⟩
      | none =>
          by_cases hd : isNonFailureDeferral reason = true
          · simp only [failRecord, hd, if_true]
            exact ⟨hg.notDisposable, hg.possiblySubmitted⟩
          · simp only [failRecord, hd, Bool.false_eq_true, if_false]
            exact ⟨rfl, hg.possiblySubmitted⟩
  | accepted _ ha => exact applyAccepted_guarded ha
  | activated => exact absurd rfl hr

/-- Capacity pressure never finds a guarded record, nor one that is not pending. -/
theorem not_evictable_of_guarded {r : Record}
    (h : r.lifecycle ≠ .submitPending ∨ Guarded r) : safeToEvictForCapacity r = false := by
  rcases h with h | h
  · simp [safeToEvictForCapacity, h]
  · simp [safeToEvictForCapacity, h.notDisposable]

/-- Expiry never finds a guarded record, nor one that is not pending. -/
theorem not_expired_of_guarded {cfg : Config} {r : Record} {now : ℚ}
    (h : r.lifecycle ≠ .submitPending ∨ Guarded r) : isExpired cfg r now = false := by
  by_cases hl : r.lifecycle = .submitPending
  · rcases h with h | h
    · exact absurd hl h
    · have hp : isPossiblySubmitted r = true := by
        rcases h.possiblySubmitted hl with hs | hs <;> simp [isPossiblySubmitted, hl, hs]
      simp [isExpired, hp]
  · cases hl' : r.lifecycle with
    | submitPending => exact absurd hl' hl
    | accepted => simp [isExpired, hl']
    | awaitingCancel => simp [isExpired, hl']

/-- The invariant of a ledger: IDs are unique and were issued, and every begun record is
guarded. -/
structure Ledger.Inv (s : Ledger) : Prop where
  nodup : (s.queue.map Record.id).Nodup
  issued : ∀ r ∈ s.queue, r.id ∈ s.issued
  begunIssued : ∀ id ∈ s.begun, id ∈ s.issued
  guarded : ∀ r ∈ s.queue, r.id ∈ s.begun → Guarded r

/-- What the outbox may not forget: a begun record, an accepted one, and a replacement that
waits for its cancel. -/
def Ledger.Protected (s : Ledger) (r : Record) : Prop :=
  r.lifecycle = .accepted ∨ r.lifecycle = .awaitingCancel ∨ r.id ∈ s.begun

/-- A begun record is one `begin_claimed_submit` found by its exact claim. -/
theorem Op.began_eq {op : Op} {q : Queue} {id : String} (h : op.began q = some id) :
    ∃ r, r.id = id ∧ r ∈ q ∧ ∃ r' ∈ op.apply q, r'.id = id ∧ Guarded r' := by
  cases op with
  | beginClaimedSubmit snap now lease pid start =>
      simp only [Op.began] at h
      rcases beginClaimedSubmit_cases snap now lease pid start q with hb | ⟨st, r, rfl, hf, hb⟩
      · rw [hb] at h; cases h
      · rw [hb, Option.map_some, Option.some.injEq] at h
        have hr : r ∈ q := List.mem_of_find?_eq_some hf
        refine ⟨r, h, hr, beginRecord now lease pid st r, ?_, h, ⟨rfl, fun _ => Or.inl rfl⟩⟩
        simp only [Op.apply, hb]
        exact updateFirst_found hf
  | _ => simp [Op.began] at h

/-- One operation keeps the invariant. -/
theorem Ledger.Inv.step {s : Ledger} (hi : s.Inv) {op : Op} (hf : op.IssuesFresh s) :
    (s.step op).Inv where
  nodup := apply_nodup hi.nodup hi.issued hf
  issued := fun _ hr => apply_issued hi.issued hr
  begunIssued := by
    intro id hid
    refine List.mem_append_right _ ?_
    rcases List.mem_append.mp hid with h | h
    · obtain ⟨r, rfl, hr, -⟩ := Op.began_eq (by simpa using h)
      exact hi.issued r hr
    · exact hi.begunIssued id (List.mem_of_mem_filter h)
  guarded := by
    intro r hr hb
    rcases List.mem_append.mp hb with h | h
    · obtain ⟨-, -, -, r', hr', hid, hg⟩ := Op.began_eq (by simpa using h)
      have heq : r = r' := eq_of_key_eq (apply_nodup hi.nodup hi.issued hf) hr hr' hid.symm
      rw [heq]
      exact hg
    · obtain ⟨hold, hnot⟩ := List.mem_filter.mp h
      have hns : r.submissionState ≠ some .refused := by
        intro hrf
        simp only [refusedIn, Bool.not_eq_true', List.any_eq_false, Bool.and_eq_true,
          decide_eq_true_eq, not_and] at hnot
        exact hnot r hr rfl hrf
      rcases apply_mem op hr with ⟨r₀, hr₀, hc⟩ | hfresh
      · exact hc.guarded (hi.guarded r₀ hr₀ (hc.id_eq ▸ hold)) hns
      · exact absurd (hi.begunIssued _ hold) (hf _ hfresh.id_mem)

theorem Ledger.Reachable.inv {s : Ledger} (h : s.Reachable) : s.Inv := by
  refine Reach.invariant ?_ ?_ h
  · rintro s ⟨hq, hissued, hb⟩
    refine ⟨by simp [hq], by simp [hq], by simp [hb], by simp [hq]⟩
  · rintro s op s' hi ⟨hf, rfl⟩
    exact hi.step hf

theorem guarded_of_protected {s : Ledger} (hi : s.Inv) {r : Record} (hr : r ∈ s.queue)
    (hp : s.Protected r) : r.lifecycle ≠ .submitPending ∨ Guarded r := by
  rcases hp with h | h | h
  · exact Or.inl (by simp [h])
  · exact Or.inl (by simp [h])
  · exact Or.inr (hi.guarded r hr h)

/-! ## What may remove a protected record -/

/-- The snapshot carries the record's current token, revision and client order ID. -/
structure CarriesLease (claimed r : Record) : Prop where
  id : claimed.id = r.id
  token : ∃ token, claimed.claimToken = some token ∧ r.claimToken = some token
  revision : intOr claimed.claimRevision 0 = r.revision
  clientOrderId : claimed.clientOrderId = r.clientOrderId

/-- The two operations that finalize a record under its lease: a completion with `success`,
or with a terminal retry that has no remainder, and the resolution of a replacement. -/
inductive Finalizes : Op → Record → Prop
  | success {claimed r : Record} {c : CompleteArgs} : CarriesLease claimed r →
      c.outcome = .success → Finalizes (.completeClaim claimed c) r
  | noRemainder {claimed r : Record} {c : CompleteArgs} : CarriesLease claimed r →
      c.outcome = .retryTerminal →
      max 0 (r.qty - max 0 (statusFilled c.status)) ≤ qtyTolerance r.qty →
      Finalizes (.completeClaim claimed c) r
  | resolved {claimed r : Record} {token : String} {qty now : ℚ} : claimed.id = r.id →
      claimed.claimToken = some token → r.claimToken = some token →
      intOr claimed.claimRevision (-1) = r.revision →
      r.lifecycle = .awaitingCancel → qty ≤ qtyTolerance r.qty →
      Finalizes (.activate claimed qty now) r

/-- The snapshot of a call that would end the record, if the call is about it. -/
def Op.ends (op : Op) (r : Record) : Option Record :=
  match op with
  | .completeClaim claimed c =>
      if c.outcome = .success ∨ c.outcome = .retryTerminal ∧
          max 0 (r.qty - max 0 (statusFilled c.status)) ≤ qtyTolerance r.qty
      then some claimed
      else none
  | .activate claimed qty _ =>
      if r.lifecycle = .awaitingCancel ∧ qty ≤ qtyTolerance r.qty then some claimed else none
  | _ => none

/-- No call that would end a protected record without a lease has a snapshot without a token. -/
def Op.Tokened (op : Op) (s : Ledger) : Prop :=
  ∀ r ∈ s.queue, s.Protected r → r.claimToken = none → ∀ claimed, op.ends r = some claimed →
    claimed.id = r.id → claimed.claimToken ≠ none

/-- Where one of two equal tokens is there, both are. -/
theorem token_of_eq {claimed r : Record} (h : r.claimToken = claimed.claimToken)
    (hsome : r.claimToken = none → claimed.claimToken ≠ none) :
    ∃ token, claimed.claimToken = some token ∧ r.claimToken = some token := by
  cases hr : r.claimToken with
  | some token => exact ⟨token, h.symm.trans hr, rfl⟩
  | none => exact absurd (h.symm.trans hr) (hsome hr)

theorem sameClaim_carriesLease {claimed r : Record} (h : sameClaim claimed r = true)
    (hsome : r.claimToken = none → claimed.claimToken ≠ none) : CarriesLease claimed r := by
  simp only [sameClaim, Bool.and_eq_true, decide_eq_true_eq] at h
  obtain ⟨⟨⟨⟨hid, htok⟩, hrev⟩, -⟩, hcid⟩ := h
  exact ⟨hid.symm, token_of_eq htok hsome, hrev.symm, hcid.symm⟩

/-- An outcome that removes its record is `success` or a terminal retry without remainder. -/
theorem applyOutcome_none {claimed r : Record} {c : CompleteArgs}
    (h : applyOutcome claimed c r = none) :
    c.outcome = .success ∨ c.outcome = .retryTerminal ∧
      max 0 (r.qty - max 0 (statusFilled c.status)) ≤ qtyTolerance r.qty := by
  unfold applyOutcome at h
  split at h
  · rename_i ho; exact Or.inl ho
  · cases h
  · split at h <;> cases h
  · cases h
  · cases h
  · rename_i ho
    refine Or.inr ⟨ho, ?_⟩
    unfold retryTerminalRecord at h
    simp only at h
    split_ifs at h with hrem
    exact hrem
  · cases h
  · cases h

/-- A record that leaves and is protected leaves by being finalized. -/
theorem Dropped.finalizes {op : Op} {r : Record} (h : Dropped op r)
    (hp : r.lifecycle ≠ .submitPending ∨ Guarded r)
    (ht : r.claimToken = none → ∀ claimed, op.ends r = some claimed → claimed.id = r.id →
      claimed.claimToken ≠ none) : Finalizes op r := by
  cases h with
  | evicted _ he => rw [not_evictable_of_guarded hp] at he; cases he
  | expired he => rw [not_expired_of_guarded hp] at he; cases he
  | @completed claimed c _ hm ho =>
      have hends := applyOutcome_none ho
      have hid : claimed.id = r.id := by
        simp only [sameClaim, Bool.and_eq_true, decide_eq_true_eq] at hm
        exact hm.1.1.1.1.symm
      have hl := sameClaim_carriesLease hm
        (fun hnone => ht hnone claimed (if_pos hends) hid)
      rcases hends with hs | ⟨hs, hrem⟩
      · exact .success hl hs
      · exact .noRemainder hl hs hrem
  | @resolved claimed qty now _ hm hl hq =>
      simp only [activationMatch, Bool.and_eq_true, decide_eq_true_eq] at hm
      obtain ⟨⟨hid, htok⟩, hrev⟩ := hm
      obtain ⟨token, hclaimed, hr⟩ := token_of_eq htok
        (fun hnone => ht hnone claimed (if_pos ⟨hl, hq⟩) hid.symm)
      exact .resolved hid.symm hclaimed hr hrev.symm hl hq

/-- Housekeeping does not overwrite a protected record either. -/
theorem Change.eq_of_housekeeping {op : Op} {r r' : Record} (h : Change op r r')
    (hk : op.housekeeping = true) (hp : r.lifecycle ≠ .submitPending ∨ Guarded r) : r' = r := by
  cases h with
  | same => rfl
  | refreshed _ _ he => rw [not_evictable_of_guarded hp] at he; cases he
  | claimed => cases hk
  | begun => cases hk
  | completed => cases hk
  | failed => cases hk
  | accepted => cases hk
  | activated => cases hk

/-! ## The main result -/

/-- Along the operations `ops`, the record `r` is finalized by the next one, or is still
queued after it (as it was, when the operation was housekeeping), and so on for as long as
it is protected. -/
def StaysUntilFinalized : Ledger → Record → List Op → Prop
  | _, _, [] => True
  | s, r, op :: ops =>
      Finalizes op r ∨
        ∃ r' ∈ (s.step op).queue, r'.id = r.id ∧ (op.housekeeping = true → r' = r) ∧
          ((s.step op).Protected r' → StaysUntilFinalized (s.step op) r' ops)

/-- **A possibly submitted order is never forgotten.** In every reachable queue a protected
record stays, through any further operations, until it is finalized under its own lease. No call
that would end it may be made without a token while nobody has leased it. -/
theorem protected_stays_until_finalized {s : Ledger} (hs : s.Reachable) {r : Record}
    (hr : r ∈ s.queue) (hp : s.Protected r) (ops : List Op)
    (hf : Along Ledger.step (fun s op => op.IssuesFresh s ∧ op.Tokened s) s ops) :
    StaysUntilFinalized s r ops := by
  induction ops generalizing s r with
  | nil => trivial
  | cons op ops ih =>
      obtain ⟨⟨hfresh, htokened⟩, hrest⟩ := hf
      have hg := guarded_of_protected hs.inv hr hp
      rcases apply_keeps op hr with ⟨r', hr', hc⟩ | hd
      · refine Or.inr ⟨r', hr', hc.id_eq, fun hk => hc.eq_of_housekeeping hk hg, ?_⟩
        intro hp'
        exact ih (hs.step ⟨hfresh, rfl⟩) hr' hp' hrest
      · exact Or.inl (hd.finalizes hg (htokened r hr hp))

/-- The ledger after the producer has also begun its submit. -/
def sampleLedger : Ledger :=
  (Ledger.step ⟨[], [], []⟩ sampleEnqueue).step
    (.beginClaimedSubmit sampleSnapshot 11 120 7 (some "boot-7"))

theorem sampleLedger_reachable : sampleLedger.Reachable := by
  refine Reach.step (Reach.step (Reach.start (s := ⟨[], [], []⟩) ⟨rfl, rfl, rfl⟩) ⟨?_, rfl⟩)
    ⟨?_, rfl⟩
  · intro id _ h
    cases h
  · intro id h
    cases h

/-- A full queue, a consolidation and an expiry pass a week later leave the begun order, until its
lease completes it. -/
theorem begun_order_survives_housekeeping :
    sampleSnapshot ∈ sampleLedger.queue ∧
      StaysUntilFinalized sampleLedger sampleSnapshot
        [.enqueue { Config.repository with maxQueue := 1 }
            { symbol := "BTCUSDC", side := "SELL", qty := 1, now := 20,
              failureReason := some "trend_deferred" } ⟨"a2", "t2", 8, some "boot-8"⟩,
          .consolidate, .discardExpired Config.repository [sampleSnapshot] 604800,
          .completeClaim sampleSnapshot { outcome := .success, now := 604801 }] := by
  have hmem : sampleSnapshot ∈ sampleLedger.queue := by decide +kernel
  have huntouched : ∀ (op : Op) (s : Ledger), (∀ r, op.ends r = none) → op.Tokened s := by
    intro op s hends r _ _ _ claimed hsome
    rw [hends r] at hsome
    cases hsome
  refine ⟨hmem, protected_stays_until_finalized sampleLedger_reachable hmem ?_ _ ?_⟩
  · exact Or.inr (Or.inr (by decide +kernel))
  · refine ⟨⟨?_, huntouched _ _ (fun _ => rfl)⟩, ⟨?_, huntouched _ _ (fun _ => rfl)⟩,
      ⟨?_, huntouched _ _ (fun _ => rfl)⟩, ⟨?_, ?_⟩, trivial⟩
    · unfold Op.IssuesFresh
      decide +kernel
    · intro id h
      cases h
    · intro id h
      cases h
    · intro id h
      cases h
    · intro r _ _ _ claimed hends _
      simp only [Op.ends, true_or, if_true, Option.some.injEq] at hends
      rw [← hends]
      simp [sampleSnapshot]

/-- The venue has accepted the order, and the lease is given back. -/
def acceptedLedger : Ledger :=
  sampleLedger.step (.completeClaim sampleSnapshot
    { outcome := .accepted, now := 12, order := some ⟨some "9001", some "NEW"⟩ })

/-- The accepted record as it is read from the file. -/
def acceptedRecord : Record := acceptedLedger.queue.headD sampleSnapshot

/-- **A completion without a token removes an accepted order.** The record has no token after its
acceptance, and neither has the snapshot that is read from the file. -/
theorem tokenless_completion_forgets :
    ¬ ∀ (s : Ledger) (r : Record) (ops : List Op), s.Reachable → r ∈ s.queue → s.Protected r →
      Along Ledger.step (fun s op => op.IssuesFresh s) s ops → StaysUntilFinalized s r ops := by
  intro hall
  have hreach : acceptedLedger.Reachable := by
    refine Reach.step sampleLedger_reachable ⟨?_, rfl⟩
    intro id h
    cases h
  have hmem : acceptedRecord ∈ acceptedLedger.queue := by decide +kernel
  have hlife : acceptedRecord.lifecycle = .accepted := by decide +kernel
  have htoken : acceptedRecord.claimToken = none := by decide +kernel
  have hgone : (acceptedLedger.step
      (.completeClaim acceptedRecord { outcome := .success, now := 13 })).queue = [] := by
    decide +kernel
  have hstays := hall acceptedLedger acceptedRecord
    [.completeClaim acceptedRecord { outcome := .success, now := 13 }] hreach hmem (Or.inl hlife)
    ⟨fun id h => (by cases h), trivial⟩
  rcases hstays with hfinal | ⟨r', hr', -⟩
  · -- the completion carries no lease, for there is no token
    cases hfinal with
    | success hlease _ =>
        obtain ⟨token, hclaimed, -⟩ := hlease.token
        rw [htoken] at hclaimed
        cases hclaimed
    | noRemainder _ ho _ => cases ho
  · rw [hgone] at hr'
    cases hr'

end TradingFleet.Outbox
