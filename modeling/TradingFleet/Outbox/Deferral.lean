import Mathlib.Tactic.Linarith
import TradingFleet.Basic.Runs
import TradingFleet.Outbox.Effects

set_option autoImplicit false

/-! # Waiting for a signal costs nothing

A record that is deferred for a reason that is no failure waits. While it waits it must not
use up its attempts or its time to live, and the time to live starts anew when it is refused
for a real reason. This file follows one record, under its ID, through any sequence of outbox
operations and keeps a diary of it (`Diary`): with how many attempts its revision was opened,
how many failure completions it had since, whether it waits, and when it was last refused
after it had waited.

One completion costs an attempt without being a failure, and ends a deferral without a refusal:
a response that is reported as accepted and names no order. The results below are about runs
without it (`Op.Identified`); `unidentified_response_expires` is a run with it.
-/

namespace TradingFleet.Outbox

open TradingFleet.Keyed TradingFleet.Runs

/-! ## The diary of one record -/

/-- The calls that raise before they read the queue. -/
def Op.raises : Op → Bool
  | .completeClaim _ c =>
      (c.outcome = .deferred && !isNonFailureDeferral c.failureReason) ||
        !reportable c.submissionState
  | .markFailure _ _ _ _ state => !reportable state
  | _ => false

/-- A response without an order ID. -/
def CompleteArgs.unidentified (c : CompleteArgs) : Bool :=
  c.outcome = .accepted && (c.order.bind (·.orderId)).isNone

/-- The operation completes a claim of this record. -/
def Op.completes (op : Op) (r : Record) : Option CompleteArgs :=
  match op with
  | .completeClaim claimed c => if !op.raises && sameClaim claimed r then some c else none
  | _ => none

/-- A failure completion of this record. -/
def Op.failsOn (op : Op) (r : Record) : Bool :=
  match op.completes r with
  | none => false
  | some c => c.outcome = .failure

/-- When the operation refuses the record `r`, which it turns into `r'`, for a reason that is
a failure. -/
def Op.refusesAt (op : Op) (r r' : Record) : Option ℚ :=
  match op with
  | .completeClaim claimed c =>
      if !op.raises && sameClaim claimed r &&
          (c.outcome = .retryTerminal ||
            (c.outcome = .failure && !isNonFailureDeferral c.failureReason)) then some c.now
      else none
  | .markFailure recordId reason now cid _ =>
      if recordId ≠ "" && !op.raises && addresses recordId cid r && !isNonFailureDeferral reason
      then some now
      else none
  | _ =>
      match op.enqueueCall with
      | some (_, a, _) =>
          if r'.revision ≠ r.revision && !isNonFailureDeferral a.failureReason then some a.now
          else none
      | none => none

/-- The activation of a replacement makes the record a new submission, which starts its own
time to live. -/
def Op.activates : Op → Record → Bool
  | .activate claimed _ _, r => activationMatch claimed r && r.lifecycle = .awaitingCancel
  | _, _ => false

structure Diary where
  base : Nat
  failures : Nat
  waiting : Bool
  resumed : Option ℚ
deriving DecidableEq, Repr

/-- The diary of a record that has just been enqueued. -/
def Diary.opened (r : Record) : Diary :=
  ⟨r.attempts, 0, isNonFailureDeferral r.lastFailureReason, none⟩

def Diary.next (d : Diary) (op : Op) (r r' : Record) : Diary where
  base := if r'.revision = r.revision then d.base else r'.attempts
  failures :=
    if r'.revision = r.revision then (if op.failsOn r then d.failures + 1 else d.failures)
    else 0
  waiting :=
    isNonFailureDeferral r'.lastFailureReason ||
      (d.waiting && (op.refusesAt r r').isNone && !op.activates r)
  resumed := if d.waiting then op.refusesAt r r' <|> d.resumed else d.resumed

/-! ## Histories -/

/-- The time an operation is called at. -/
def Op.time : Op → Option ℚ
  | .enqueue _ a _ => some a.now
  | .enqueueClaimed _ a _ _ => some a.now
  | .claim _ now _ _ => some now
  | .beginClaimedSubmit _ now _ _ _ => some now
  | .completeClaim _ c => some c.now
  | .markFailure _ _ now _ _ => some now
  | .markAccepted _ _ now _ _ => some now
  | .activate _ _ now => some now
  | .consolidate => none
  | .discardExpired _ _ now => some now

theorem Op.time_of_enqueueCall {op : Op} {cfg : Config} {a : EnqueueArgs} {ctx : CallContext}
    (h : op.enqueueCall = some (cfg, a, ctx)) : op.time = some a.now := by
  cases op with
  | enqueue => cases h; rfl
  | enqueueClaimed => cases h; rfl
  | _ => cases h

/-- The snapshots a call hands out to its caller. -/
def Op.handsOut (op : Op) (q : Queue) : List Record :=
  match op with
  | .claim ids now lease token =>
      match Outbox.claim ids now lease token q with
      | .ok (claimed, _) => claimed
      | .error _ => []
  | .enqueueClaimed cfg a lease ctx =>
      match (Outbox.enqueueClaimed cfg a lease ctx q).1 with
      | .claimed snapshot => [snapshot]
      | _ => []
  | .beginClaimedSubmit snap now lease pid start =>
      (Outbox.beginClaimedSubmit snap now lease pid start q).1.toList
  | _ => []

structure History where
  queue : Queue
  issued : List String
  held : List Record
  now : ℚ
  diary : Diary

def History.find (s : History) (id : String) : Option Record :=
  s.queue.find? (fun r => r.id = id)

section OneRecord

variable (id : String)

def History.step (s : History) (op : Op) : History where
  queue := op.apply s.queue
  issued := op.issues ++ s.issued
  held := op.handsOut s.queue ++ s.held
  now := op.time.getD s.now
  diary :=
    match s.find id, (op.apply s.queue).find? (fun r => r.id = id) with
    | some r, some r' => s.diary.next op r r'
    | none, some r' => Diary.opened r'
    | _, none => s.diary

/-- IDs are fresh, time does not run backwards, and a claim is completed by a caller that
was handed its snapshot. -/
structure Op.Allowed (op : Op) (s : History) : Prop where
  fresh : ∀ x ∈ op.issues, x ∉ s.issued
  time : ∀ t, op.time = some t → s.now ≤ t
  held : ∀ claimed c, op = .completeClaim claimed c → claimed ∈ s.held

/-- The operation does not report an accepted response without an order ID for the record. -/
def Op.Identified (op : Op) (s : History) : Prop :=
  ∀ r ∈ s.queue, r.id = id → ∀ c, op.completes r = some c → c.unidentified = false

def History.Initial (s : History) : Prop :=
  s.queue = [] ∧ s.issued = [] ∧ s.held = [] ∧ s.diary = ⟨0, 0, false, none⟩

def History.Next (s : History) (op : Op) (s' : History) : Prop :=
  op.Allowed s ∧ s' = s.step id op

/-- The histories of the record `id`. -/
abbrev History.Reachable : History → Prop := Reach History.Initial (History.Next id)

/-- Those in which every accepted response for the record names its order. -/
abbrev History.IdentifiedReachable : History → Prop :=
  Reach History.Initial (fun s op s' => History.Next id s op s' ∧ op.Identified id s)

/-- Deferral costs nothing: the attempts are those the revision was opened with and the
failure completions since; a deferred record is not expired; and within the time to live
after the refusal that ended its last deferral only the attempt limit expires it. -/
structure History.CostsNothing (s : History) : Prop where
  attempts : ∀ r ∈ s.queue, r.id = id → r.attempts = s.diary.base + s.diary.failures
  deferred : ∀ r ∈ s.queue, r.id = id → isNonFailureDeferral r.lastFailureReason = true →
    ∀ cfg now, isExpired cfg r now = false
  resumed : ∀ r ∈ s.queue, r.id = id → ∀ t, s.diary.resumed = some t →
    ∀ cfg now, now ≤ t + cfg.ttlSec → isExpired cfg r now = true →
      0 < cfg.maxAttempts ∧ cfg.maxAttempts ≤ r.attempts

end OneRecord

/-! ## What an operation does to the record -/

/-- Nothing a deferral is about has changed. -/
structure SameAge (r r' : Record) : Prop where
  attempts : r'.attempts = r.attempts
  reason : r'.lastFailureReason = r.lastFailureReason
  ttl : r'.ttlStartedTs = r.ttlStartedTs
  created : r'.createdTs = r.createdTs
  revision : r'.revision = r.revision
  lifecycle : r'.lifecycle = r.lifecycle

theorem SameAge.refl (r : Record) : SameAge r r := ⟨rfl, rfl, rfl, rfl, rfl, rfl⟩

theorem SameAge.trans {r r' r'' : Record} (h : SameAge r r') (h' : SameAge r' r'') :
    SameAge r r'' where
  attempts := h'.attempts.trans h.attempts
  reason := h'.reason.trans h.reason
  ttl := h'.ttl.trans h.ttl
  created := h'.created.trans h.created
  revision := h'.revision.trans h.revision
  lifecycle := h'.lifecycle.trans h.lifecycle

/-- How a record that stays becomes what it is, with what the diary sees of it. -/
inductive Traced : Op → Record → Record → Prop
  | quiet {op : Op} {r r' : Record} :
      op.completes r = none → op.refusesAt r r' = none → SameAge r r' → Traced op r r'
  | refreshed {op : Op} {cfg : Config} {a : EnqueueArgs} {ctx : CallContext} {side : Side}
      {r : Record} :
      enqueueSide cfg a ctx = some side → op.time = some a.now → op.completes r = none →
      op.refusesAt r (dedupRefresh a r)
        = (if isNonFailureDeferral a.failureReason then none else some a.now) →
      safeToEvictForCapacity r = true → Traced op r (dedupRefresh a r)
  | completed {claimed : Record} {c : CompleteArgs} {r x : Record} :
      Op.raises (.completeClaim claimed c) = false → sameClaim claimed r = true →
      applyOutcome claimed c r = some x →
      Traced (.completeClaim claimed c) r (finishClaim c x)
  | failed {recordId : String} {reason : Option String} {now : ℚ} {cid : Option String}
      {state : Option SubmissionState} {r : Record} :
      Op.refusesAt (.markFailure recordId reason now cid state) r
          (failRecord reason now state r)
        = (if isNonFailureDeferral reason then none else some now) →
      Traced (.markFailure recordId reason now cid state) r (failRecord reason now state r)
  | accepted {recordId : String} {order : Option OrderPayload} {now : ℚ}
      {cid provider : Option String} {r r' : Record} :
      applyAccepted r order now provider = some r' →
      Traced (.markAccepted recordId order now cid provider) r r'
  | activated {claimed : Record} {qty now : ℚ} {r : Record} :
      Op.activates (.activate claimed qty now) r = true →
      Traced (.activate claimed qty now) r (activateRecord qty now r)

theorem dedupRefresh_revision (a : EnqueueArgs) (r : Record) :
    (dedupRefresh a r).revision = r.revision + 1 := rfl

/-- A refresh opens a revision, so the diary sees its reason. -/
theorem refusesAt_refresh {op : Op} {cfg : Config} {a : EnqueueArgs} {ctx : CallContext}
    (hop : op.enqueueCall = some (cfg, a, ctx)) (r : Record) :
    op.refusesAt r (dedupRefresh a r)
      = (if isNonFailureDeferral a.failureReason then none else some a.now) := by
  have hseen : (if (dedupRefresh a r).revision ≠ r.revision &&
        !isNonFailureDeferral a.failureReason then some a.now else none)
      = (if isNonFailureDeferral a.failureReason then none else some a.now) := by
    cases hd : isNonFailureDeferral a.failureReason <;> simp [dedupRefresh_revision]
  cases op with
  | enqueue cfg' a' ctx' =>
      cases hop
      exact hseen
  | enqueueClaimed cfg' a' lease ctx' =>
      cases hop
      exact hseen
  | _ => cases hop

/-- Without a refresh, enqueueing something else refuses nothing. -/
theorem refusesAt_same {op : Op} {p : Config × EnqueueArgs × CallContext}
    (hop : op.enqueueCall = some p) (r : Record) : op.refusesAt r r = none := by
  cases op with
  | enqueue cfg a ctx => simp [Op.refusesAt, Op.enqueueCall]
  | enqueueClaimed cfg a lease ctx => simp [Op.refusesAt, Op.enqueueCall]
  | _ => cases hop

theorem enqueue_traced {op : Op} {cfg : Config} {a : EnqueueArgs} {ctx : CallContext}
    (hop : op.enqueueCall = some (cfg, a, ctx)) (htime : op.time = some a.now)
    (hcomp : ∀ r, op.completes r = none) {q : Queue} {r' : Record}
    (h : r' ∈ (enqueue cfg a ctx q).2) :
    Fresh op r' ∨ ∃ r ∈ q, r'.id = r.id ∧ Traced op r r' := by
  have hquiet : r' ∈ q → ∃ r ∈ q, r'.id = r.id ∧ Traced op r r' := fun hr =>
    ⟨r', hr, rfl, .quiet (hcomp r') (refusesAt_same hop r') (.refl r')⟩
  rcases enqueue_cases cfg a ctx q with hq | ⟨side, hs, existing, hsub, -, ⟨e, hf, hq⟩ | hq⟩
  · rw [hq] at h
    exact Or.inr (hquiet h)
  · rw [hq] at h
    rcases mem_updateFirst hf h with hr | rfl
    · exact Or.inr (hquiet (hsub.subset hr))
    · exact Or.inr ⟨e, hsub.subset (List.mem_of_find?_eq_some hf), rfl,
        .refreshed hs htime (hcomp e) (refusesAt_refresh hop e)
          (isDedupTarget_evictable (List.find?_some hf))⟩
  · rw [hq] at h
    rcases List.mem_append.mp h with hr | hr
    · exact Or.inr (hquiet (hsub.subset hr))
    · rw [List.mem_singleton] at hr
      exact Or.inl (hr ▸ .enqueued hop hs)

theorem completeClaim_mem {claimed : Record} {c : CompleteArgs} {q : Queue} {r' : Record}
    (h : r' ∈ (Op.completeClaim claimed c).apply q) :
    ∃ r ∈ q, r'.id = r.id ∧ Traced (.completeClaim claimed c) r r' := by
  cases hraise : Op.raises (.completeClaim claimed c) with
  | true =>
      have hsame : (Op.completeClaim claimed c).apply q = q := by
        simp only [Op.raises, Bool.or_eq_true, Bool.and_eq_true, decide_eq_true_eq,
          Bool.not_eq_true'] at hraise
        show queueAfter q (completeClaim claimed c q) = q
        unfold completeClaim
        rcases hraise with ⟨ho, hd⟩ | hrep
        · rw [if_pos ⟨ho, hd⟩]
          rfl
        · split_ifs
          · rfl
          · rfl
          · rename_i hno
            exact absurd hrep (by simpa using hno)
      rw [hsame] at h
      refine ⟨r', h, rfl, .quiet ?_ ?_ (.refl r')⟩
      · simp [Op.completes, hraise]
      · simp [Op.refusesAt, hraise]
  | false =>
      have hok := hraise
      simp only [Op.raises, Bool.or_eq_false_iff, Bool.and_eq_false_iff, decide_eq_false_iff_not,
        Bool.not_eq_false'] at hok
      have hdef : c.outcome = .deferred → isNonFailureDeferral c.failureReason = true :=
        fun ho => hok.1.resolve_left (fun hne => hne ho)
      simp only [Op.apply, completeClaim_ok claimed q hok.2 hdef, queueAfter] at h
      obtain ⟨r, hr, hc⟩ := List.mem_filterMap.mp h
      unfold completeRecord at hc
      split_ifs at hc with hm
      · obtain ⟨x, hx, rfl⟩ := Option.map_eq_some_iff.mp hc
        exact ⟨r, hr, by rw [finishClaim_id, applyOutcome_id hx], .completed hraise hm hx⟩
      · rw [Option.some.injEq] at hc
        subst hc
        refine ⟨r, hr, rfl, .quiet ?_ ?_ (.refl r)⟩
        · simp [Op.completes, hm]
        · simp [Op.refusesAt, hm]

theorem markFailure_mem {recordId : String} {reason : Option String} {now : ℚ}
    {cid : Option String} {state : Option SubmissionState} {q : Queue} {r' : Record}
    (hn' : (((Op.markFailure recordId reason now cid state).apply q).map Record.id).Nodup)
    (h : r' ∈ (Op.markFailure recordId reason now cid state).apply q) :
    ∃ r ∈ q, r'.id = r.id ∧ Traced (.markFailure recordId reason now cid state) r r' := by
  have hquiet : r' ∈ q → (recordId = "" ∨ reportable state = false ∨
      addresses recordId cid r' = false) →
      ∃ r ∈ q, r'.id = r.id ∧ Traced (.markFailure recordId reason now cid state) r r' := by
    intro hr hno
    refine ⟨r', hr, rfl, .quiet rfl ?_ (.refl r')⟩
    rcases hno with hno | hno | hno <;> simp [Op.refusesAt, Op.raises, hno]
  simp only [Op.apply, markFailure] at h hn'
  split_ifs at h with hid hrep
  · exact hquiet h (Or.inl hid)
  · exact hquiet h (Or.inr (Or.inl (by simpa using hrep)))
  · have hrep' : reportable state = true := by simpa using hrep
    rw [if_neg hid, if_neg hrep] at hn'
    cases hf : q.find? (addresses recordId cid) with
    | none =>
        simp only [hf, queueAfter] at h
        exact hquiet h (Or.inr (Or.inr (by simpa using List.find?_eq_none.mp hf r' h)))
    | some r₀ =>
        simp only [hf, queueAfter] at h hn'
        have haddr : addresses recordId cid r₀ = true := List.find?_some hf
        have hfailed : ∃ r ∈ q, (failRecord reason now state r₀).id = r.id ∧
            Traced (.markFailure recordId reason now cid state) r
              (failRecord reason now state r₀) := by
          refine ⟨r₀, List.mem_of_find?_eq_some hf, failRecord_id _ _ _ r₀, .failed ?_⟩
          cases hd : isNonFailureDeferral reason <;>
            simp [Op.refusesAt, Op.raises, hid, hrep', haddr, hd]
        rcases mem_updateFirst hf h with hr | rfl
        · by_cases ha : addresses recordId cid r' = true
          · -- the record found is this one, and it was rewritten
            have hids : ∀ r, addresses recordId cid r = true → r.id = recordId := by
              intro r hr
              simp only [addresses, Bool.and_eq_true, decide_eq_true_eq] at hr
              exact hr.1
            have heq : r' = failRecord reason now state r₀ := by
              refine eq_of_key_eq hn' h (updateFirst_found hf) ?_
              rw [failRecord_id, hids r' ha, hids r₀ haddr]
            rw [heq]
            exact hfailed
          · exact hquiet hr (Or.inr (Or.inr (by simpa using ha)))
        · exact hfailed

/-- **Every record of the new queue is new, or traced to one of the old queue.** -/
theorem apply_traced {op : Op} {q : Queue} (hn : ((op.apply q).map Record.id).Nodup)
    {r' : Record} (h : r' ∈ op.apply q) :
    Fresh op r' ∨ ∃ r ∈ q, r'.id = r.id ∧ Traced op r r' := by
  -- `apply_mem` names the change; most changes are quiet ones
  have hmem := apply_mem op h
  cases op with
  | completeClaim claimed c => exact Or.inr (completeClaim_mem h)
  | markFailure recordId reason now cid state => exact Or.inr (markFailure_mem hn h)
  | enqueue cfg a ctx => exact enqueue_traced rfl rfl (fun _ => rfl) h
  | enqueueClaimed cfg a lease ctx =>
      rcases enqueueClaimed_eq cfg a lease ctx q with hq | hq
      · simp only [Op.apply, hq] at h
        exact Or.inr ⟨r', h, rfl, .quiet rfl (refusesAt_same rfl r') (.refl r')⟩
      · simp only [Op.apply, hq] at h
        exact enqueue_traced rfl rfl (fun _ => rfl) h
  | claim ids now lease token =>
      rcases hmem with ⟨r, hr, hc⟩ | hfresh
      · refine Or.inr ⟨r, hr, hc.id_eq, ?_⟩
        cases hc with
        | same => exact .quiet rfl rfl (.refl _)
        | refreshed hop => cases hop
        | claimed => exact .quiet rfl rfl ⟨rfl, rfl, rfl, rfl, rfl, rfl⟩
      · exact Or.inl hfresh
  | beginClaimedSubmit snap now lease pid start =>
      rcases hmem with ⟨r, hr, hc⟩ | hfresh
      · refine Or.inr ⟨r, hr, hc.id_eq, ?_⟩
        cases hc with
        | same => exact .quiet rfl rfl (.refl _)
        | refreshed hop => cases hop
        | begun => exact .quiet rfl rfl ⟨rfl, rfl, rfl, rfl, rfl, rfl⟩
      · exact Or.inl hfresh
  | markAccepted recordId order now cid provider =>
      rcases hmem with ⟨r, hr, hc⟩ | hfresh
      · refine Or.inr ⟨r, hr, hc.id_eq, ?_⟩
        cases hc with
        | same => exact .quiet rfl rfl (.refl _)
        | refreshed hop => cases hop
        | accepted _ ha => exact .accepted ha
      · exact Or.inl hfresh
  | activate claimed qty now =>
      rcases hmem with ⟨r, hr, hc⟩ | hfresh
      · refine Or.inr ⟨r, hr, hc.id_eq, ?_⟩
        cases hc with
        | same => exact .quiet rfl rfl (.refl _)
        | refreshed hop => cases hop
        | activated hm hl _ => exact .activated (by simp [Op.activates, hm, hl])
      · exact Or.inl hfresh
  | consolidate =>
      rcases hmem with ⟨r, hr, hc⟩ | hfresh
      · refine Or.inr ⟨r, hr, hc.id_eq, ?_⟩
        cases hc with
        | same => exact .quiet rfl rfl (.refl _)
        | refreshed hop => cases hop
      · exact Or.inl hfresh
  | discardExpired cfg snapshots now =>
      rcases hmem with ⟨r, hr, hc⟩ | hfresh
      · refine Or.inr ⟨r, hr, hc.id_eq, ?_⟩
        cases hc with
        | same => exact .quiet rfl rfl (.refl _)
        | refreshed hop => cases hop
      · exact Or.inl hfresh

/-! ## What a completion does to attempts and time to live -/

theorem finishClaim_age (c : CompleteArgs) (r : Record) : SameAge r (finishClaim c r) := by
  unfold finishClaim dropClaim
  split
  · exact ⟨rfl, rfl, rfl, rfl, rfl, rfl⟩
  · split_ifs <;> exact ⟨rfl, rfl, rfl, rfl, rfl, rfl⟩

theorem appendOrderHistory_age (r : Record) (t : ℚ) (st : Option OrderStatus) :
    SameAge r (appendOrderHistory r t st) := by
  unfold appendOrderHistory
  split
  · exact .refl r
  · split_ifs
    · exact .refl r
    · exact ⟨rfl, rfl, rfl, rfl, rfl, rfl⟩

/-- An acceptance only moves the record to tracking. -/
structure Tracked (r r' : Record) : Prop where
  attempts : r'.attempts = r.attempts
  ttl : r'.ttlStartedTs = r.ttlStartedTs
  created : r'.createdTs = r.createdTs
  revision : r'.revision = r.revision
  lifecycle : r'.lifecycle = .accepted
  reason : r'.lastFailureReason = none

theorem applyAccepted_tracked {r r' : Record} {order : Option OrderPayload} {now : ℚ}
    {provider : Option String} (h : applyAccepted r order now provider = some r') :
    Tracked r r' := by
  unfold applyAccepted at h
  split at h
  · cases h
  · rw [Option.some.injEq] at h
    rw [← h]
    exact ⟨(appendOrderHistory_age _ now none).attempts, (appendOrderHistory_age _ now none).ttl,
      (appendOrderHistory_age _ now none).created, (appendOrderHistory_age _ now none).revision,
      (appendOrderHistory_age _ now none).lifecycle, (appendOrderHistory_age _ now none).reason⟩

/-- An acceptance is refused exactly for want of an order ID. -/
theorem applyAccepted_none {r : Record} {order : Option OrderPayload} {now : ℚ}
    {provider : Option String} :
    applyAccepted r order now provider = none ↔ order.bind (·.orderId) = none := by
  unfold applyAccepted
  split
  · simp [*]
  · simp [*]

/-- What a completion makes of the record it keeps, as far as deferrals are concerned. -/
inductive Completed (claimed : Record) (c : CompleteArgs) (r x : Record) : Prop
  | quiet : c.outcome ≠ .failure → c.outcome ≠ .retryTerminal → c.unidentified = false →
      SameAge r x → Completed claimed c r x
  | tracked : c.outcome = .accepted → c.unidentified = false → Tracked r x →
      Completed claimed c r x
  | unidentified : c.outcome = .accepted → c.unidentified = true →
      x.attempts = max r.attempts claimed.attempts + 1 → x.ttlStartedTs = r.ttlStartedTs →
      x.createdTs = r.createdTs → x.revision = r.revision → x.lifecycle = r.lifecycle →
      isNonFailureDeferral x.lastFailureReason = false → Completed claimed c r x
  | retried : c.outcome = .retryTerminal → x.attempts = 0 → x.ttlStartedTs = c.now →
      x.createdTs = r.createdTs → x.revision = r.revision + 1 → Completed claimed c r x
  | failed : c.outcome = .failure → x.attempts = max r.attempts claimed.attempts + 1 →
      x.ttlStartedTs =
        (if isNonFailureDeferral r.lastFailureReason && !isNonFailureDeferral c.failureReason
          then c.now else r.ttlStartedTs) →
      x.createdTs = r.createdTs → x.revision = r.revision → x.lifecycle = r.lifecycle →
      x.lastFailureReason = c.failureReason → Completed claimed c r x
  | deferred : c.outcome = .deferred → x.attempts = r.attempts →
      x.ttlStartedTs = r.ttlStartedTs → x.createdTs = r.createdTs → x.revision = r.revision →
      x.lifecycle = r.lifecycle → x.lastFailureReason = some (c.failureReason.getD "None") →
      Completed claimed c r x

theorem unidentified_of_outcome {c : CompleteArgs} (h : c.outcome ≠ .accepted) :
    c.unidentified = false := by
  simp [CompleteArgs.unidentified, h]

theorem applyOutcome_completed {claimed r x : Record} {c : CompleteArgs}
    (h : applyOutcome claimed c r = some x) : Completed claimed c r x := by
  unfold applyOutcome at h
  cases ho : c.outcome with
  | success => simp [ho] at h
  | release =>
      simp only [ho, Option.some.injEq] at h
      rw [← h]
      exact .quiet (by simp [ho]) (by simp [ho]) (unidentified_of_outcome (by simp [ho])) (.refl r)
  | accepted =>
      simp only [ho] at h
      split at h
      · rename_i r' ha
        rw [Option.some.injEq] at h
        have hid : c.unidentified = false := by
          cases hb : c.order.bind (·.orderId) with
          | none =>
              rw [applyAccepted_none.mpr hb] at ha
              cases ha
          | some orderId => simp [CompleteArgs.unidentified, hb]
        have ht := applyAccepted_tracked ha
        rw [← h]
        exact .tracked ho hid ⟨ht.attempts, ht.ttl, ht.created, ht.revision, ht.lifecycle, ht.reason⟩
      · rename_i ha
        rw [Option.some.injEq] at h
        have hid : c.unidentified = true := by
          simp [CompleteArgs.unidentified, ho, applyAccepted_none.mp ha]
        -- a response without an ID counts as a failure
        have hreason : isNonFailureDeferral (some "response_without_order_id") = false := by
          decide +kernel
        rw [← h]
        exact .unidentified ho hid rfl rfl rfl rfl rfl hreason
  | observed =>
      simp only [ho, Option.some.injEq] at h
      rw [← h]
      exact .quiet (by simp [ho]) (by simp [ho]) (unidentified_of_outcome (by simp [ho]))
        ⟨rfl, rfl, rfl, rfl, rfl, rfl⟩
  | statusError =>
      simp only [ho, Option.some.injEq] at h
      rw [← h]
      exact .quiet (by simp [ho]) (by simp [ho]) (unidentified_of_outcome (by simp [ho]))
        ⟨rfl, rfl, rfl, rfl, rfl, rfl⟩
  | retryTerminal =>
      simp only [ho, retryTerminalRecord] at h
      split_ifs at h
      rw [Option.some.injEq] at h
      rw [← h]
      have hage := appendOrderHistory_age r c.now c.status
      exact .retried ho rfl rfl hage.created rfl
  | failure =>
      simp only [ho, Option.some.injEq] at h
      rw [← h]
      exact .failed ho rfl rfl rfl rfl rfl rfl
  | deferred =>
      simp only [ho, Option.some.injEq] at h
      rw [← h]
      exact .deferred ho rfl rfl rfl rfl rfl rfl

theorem Completed.finish {claimed r x : Record} {c : CompleteArgs}
    (h : Completed claimed c r x) : Completed claimed c r (finishClaim c x) := by
  have hage := finishClaim_age c x
  cases h with
  | quiet hf hr hu hs => exact .quiet hf hr hu (hs.trans hage)
  | tracked ho hu ht =>
      exact .tracked ho hu ⟨hage.attempts.trans ht.attempts, hage.ttl.trans ht.ttl,
        hage.created.trans ht.created, hage.revision.trans ht.revision,
        hage.lifecycle.trans ht.lifecycle, hage.reason.trans ht.reason⟩
  | unidentified ho hu ha ht hc hr hl hd =>
      exact .unidentified ho hu (hage.attempts.trans ha) (hage.ttl.trans ht)
        (hage.created.trans hc) (hage.revision.trans hr) (hage.lifecycle.trans hl)
        (by rw [hage.reason]; exact hd)
  | retried ho ha ht hc hr =>
      exact .retried ho (hage.attempts.trans ha) (hage.ttl.trans ht) (hage.created.trans hc)
        (hage.revision.trans hr)
  | failed ho ha ht hc hr hl hd =>
      exact .failed ho (hage.attempts.trans ha) (hage.ttl.trans ht) (hage.created.trans hc)
        (hage.revision.trans hr) (hage.lifecycle.trans hl) (hage.reason.trans hd)
  | deferred ho ha ht hc hr hl hd =>
      exact .deferred ho (hage.attempts.trans ha) (hage.ttl.trans ht) (hage.created.trans hc)
        (hage.revision.trans hr) (hage.lifecycle.trans hl) (hage.reason.trans hd)

theorem failRecord_age (reason : Option String) (now : ℚ) (state : Option SubmissionState)
    (r : Record) :
    (failRecord reason now state r).attempts = r.attempts ∧
      (failRecord reason now state r).ttlStartedTs =
        (if isNonFailureDeferral r.lastFailureReason && !isNonFailureDeferral reason then now
          else r.ttlStartedTs) ∧
      (failRecord reason now state r).createdTs = r.createdTs ∧
      (failRecord reason now state r).revision = r.revision ∧
      (failRecord reason now state r).lifecycle = r.lifecycle ∧
      (failRecord reason now state r).lastFailureReason = reason := by
  unfold failRecord
  simp only
  split
  · exact ⟨rfl, rfl, rfl, rfl, rfl, rfl⟩
  · split_ifs <;> exact ⟨rfl, rfl, rfl, rfl, rfl, rfl⟩

/-! ## The invariant -/

section Invariant

variable {id : String}

/-- What the diary and the record `r` it is about have in common at the time `now`. -/
structure Diary.Fits (d : Diary) (now : ℚ) (r : Record) : Prop where
  attempts : r.attempts = d.base + d.failures
  created : 0 < r.createdTs
  ttl : 0 < r.ttlStartedTs
  waiting : d.waiting = true →
    isNonFailureDeferral r.lastFailureReason = true ∨ r.lifecycle = .accepted
  resumed : ∀ t, d.resumed = some t →
    t ≤ now ∧ (r.lifecycle = .accepted ∨ t ≤ r.ttlStartedTs)

/-- A held snapshot is no newer than its record, and within one revision it has no more
attempts. -/
def HeldBound (h r : Record) : Prop :=
  intOr h.claimRevision 0 ≤ r.revision ∧
    (intOr h.claimRevision 0 = r.revision → h.attempts ≤ r.attempts)

structure History.Inv (id : String) (s : History) : Prop where
  nodup : (s.queue.map Record.id).Nodup
  issued : ∀ r ∈ s.queue, r.id ∈ s.issued
  heldIssued : ∀ h ∈ s.held, h.id ∈ s.issued
  clock : s.queue ≠ [] → 0 < s.now
  held : ∀ h ∈ s.held, ∀ r ∈ s.queue, r.id = h.id → HeldBound h r
  fits : ∀ r ∈ s.queue, r.id = id → s.diary.Fits s.now r

/-- What the guards of `enqueue` check about the times. -/
theorem enqueueSide_times {cfg : Config} {a : EnqueueArgs} {ctx : CallContext} {side : Side}
    (h : enqueueSide cfg a ctx = some side) : 0 < a.now ∧ 0 < a.createdTs.getD a.now := by
  unfold enqueueSide at h
  split at h
  · rename_i hg
    simp only [Bool.and_eq_true, numbersOk, decide_eq_true_eq] at hg
    exact ⟨hg.1.2.1.1.2, hg.1.2.1.2⟩
  · cases h

theorem newRecord_times (a : EnqueueArgs) (ctx : CallContext) (side : Side) :
    (newRecord a ctx side).createdTs = a.createdTs.getD a.now ∧
      (newRecord a ctx side).ttlStartedTs = a.createdTs.getD a.now := by
  unfold newRecord
  simp only
  split <;> exact ⟨rfl, rfl⟩

theorem Diary.opened_fits {a : EnqueueArgs} {cfg : Config} {ctx : CallContext} {side : Side}
    (h : enqueueSide cfg a ctx = some side) (now : ℚ) :
    (Diary.opened (newRecord a ctx side)).Fits now (newRecord a ctx side) where
  attempts := rfl
  created := by
    rw [(newRecord_times a ctx side).1]
    exact (enqueueSide_times h).2
  ttl := by
    rw [(newRecord_times a ctx side).2]
    exact (enqueueSide_times h).2
  waiting := fun hw => Or.inl hw
  resumed := by
    intro t ht
    cases ht

/-- An operation that changes nothing a deferral is about leaves the diary right. -/
theorem Diary.Fits.next_quiet {d : Diary} {op : Op} {now now' : ℚ} {r r' : Record}
    (hd : d.Fits now r) (hf : op.failsOn r = false) (hr : op.refusesAt r r' = none)
    (hs : SameAge r r') (hle : now ≤ now') : (d.next op r r').Fits now' r' where
  attempts := by
    simp only [Diary.next, hs.revision, hf, if_true, Bool.false_eq_true, if_false]
    rw [hs.attempts]
    exact hd.attempts
  created := by
    rw [hs.created]
    exact hd.created
  ttl := by
    rw [hs.ttl]
    exact hd.ttl
  waiting := by
    intro hw
    simp only [Diary.next, Bool.or_eq_true, Bool.and_eq_true] at hw
    rw [hs.reason, hs.lifecycle]
    rcases hw with hw | ⟨⟨hw, -⟩, -⟩
    · exact Or.inl (hs.reason ▸ hw)
    · exact hd.waiting hw
  resumed := by
    intro t ht
    have ht' : d.resumed = some t := by
      simpa [Diary.next, hr] using ht
    rw [hs.lifecycle, hs.ttl]
    exact ⟨le_trans (hd.resumed t ht').1 hle, (hd.resumed t ht').2⟩

/-- How the time to live moves: not at all, or to the present. It moves when the operation
refuses a record that waits. -/
structure Restarted (d : Diary) (op : Op) (now' : ℚ) (r r' : Record) : Prop where
  moved : r'.ttlStartedTs = r.ttlStartedTs ∨ r'.ttlStartedTs = now'
  refused : ∀ t, d.waiting = true → op.refusesAt r r' = some t →
    t = now' ∧ (r'.lifecycle = .accepted ∨ r'.ttlStartedTs = now')

/-- The diary fits when the attempts are booked, the wait is accounted for and the time to
live moves as it should. -/
theorem Diary.Fits.next_of {d : Diary} {op : Op} {now now' : ℚ} {r r' : Record}
    (hd : d.Fits now r) (hle : now ≤ now') (hnow : 0 < now')
    (hattempts : r'.attempts = (d.next op r r').base + (d.next op r r').failures)
    (hcreated : 0 < r'.createdTs)
    (hwaiting : d.waiting = true → op.refusesAt r r' = none → op.activates r = false →
      isNonFailureDeferral r'.lastFailureReason = true ∨ r'.lifecycle = .accepted)
    (hlife : r.lifecycle = .accepted → r'.lifecycle = .accepted ∨ r'.ttlStartedTs = now')
    (hr : Restarted d op now' r r') : (d.next op r r').Fits now' r' where
  attempts := hattempts
  created := hcreated
  ttl := by
    rcases hr.moved with h | h
    · rw [h]
      exact hd.ttl
    · rw [h]
      exact hnow
  waiting := by
    intro hw
    simp only [Diary.next, Bool.or_eq_true, Bool.and_eq_true, Bool.not_eq_true',
      Option.isNone_iff_eq_none] at hw
    rcases hw with hw | ⟨⟨hw, hn⟩, hact⟩
    · exact Or.inl hw
    · exact hwaiting hw hn hact
  resumed := by
    -- a resumption that was noted before stays in the past
    have hold : ∀ t, d.resumed = some t →
        t ≤ now' ∧ (r'.lifecycle = .accepted ∨ t ≤ r'.ttlStartedTs) := by
      intro t ht
      obtain ⟨hpast, hor⟩ := hd.resumed t ht
      have hpast' := le_trans hpast hle
      refine ⟨hpast', ?_⟩
      rcases hor with hacc | httl
      · rcases hlife hacc with h | h
        · exact Or.inl h
        · exact Or.inr (h ▸ hpast')
      · rcases hr.moved with h | h
        · exact Or.inr (h ▸ httl)
        · exact Or.inr (h ▸ hpast')
    intro t ht
    simp only [Diary.next] at ht
    split_ifs at ht with hw
    · cases href : op.refusesAt r r' with
      | none =>
          rw [href] at ht
          exact hold t ht
      | some t' =>
          rw [href] at ht
          cases ht
          obtain ⟨heq, hor⟩ := hr.refused t hw href
          refine ⟨le_of_eq heq, ?_⟩
          rcases hor with h | h
          · exact Or.inl h
          · exact Or.inr (by rw [h, heq])
    · exact hold t ht

/-- A refusal: the time to live begins anew when it ends a wait, and a deferral keeps it. -/
theorem Diary.Fits.next_refused {d : Diary} {op : Op} {now now' : ℚ} {r r' : Record}
    {reason : Option String} (hd : d.Fits now r) (hle : now ≤ now') (hnow : 0 < now')
    (hattempts : r'.attempts = (d.next op r r').base + (d.next op r r').failures)
    (hcreated : 0 < r'.createdTs) (hl : r'.lifecycle = r.lifecycle)
    (hreason : r'.lastFailureReason = reason)
    (ht : r'.ttlStartedTs =
      if isNonFailureDeferral r.lastFailureReason && !isNonFailureDeferral reason then now'
      else r.ttlStartedTs)
    (hs : op.refusesAt r r' = if isNonFailureDeferral reason then none else some now') :
    (d.next op r r').Fits now' r' := by
  refine hd.next_of hle hnow hattempts hcreated ?_ (fun h => Or.inl (hl.trans h)) ⟨?_, ?_⟩
  · intro _ hn _
    rw [hs] at hn
    split_ifs at hn with hdef
    exact Or.inl (hreason ▸ hdef)
  · rw [ht]
    split_ifs
    · exact Or.inr rfl
    · exact Or.inl rfl
  · intro t hw h
    rw [hs] at h
    split_ifs at h with hdef
    cases h
    refine ⟨rfl, ?_⟩
    -- the record waited until now, unless it was accepted in the meantime
    rcases hd.waiting hw with hwas | hacc
    · rw [ht, if_pos (by simp [hwas, hdef])]
      exact Or.inr rfl
    · exact Or.inl (hl.trans hacc)

theorem Op.failsOn_of_completes {op : Op} {r : Record} (h : op.completes r = none) :
    op.failsOn r = false := by
  unfold Op.failsOn
  rw [h]

/-- **One operation keeps the diary in step with the record.** `now'` is the time after the
operation. -/
theorem Diary.Fits.next {d : Diary} {op : Op} {now now' : ℚ} {r r' : Record}
    (hd : d.Fits now r) (ht : Traced op r r') (hle : now ≤ now')
    (htime : ∀ t, op.time = some t → t = now') (hnow : 0 < now')
    (hid : ∀ c, op.completes r = some c → c.unidentified = false)
    (hheld : ∀ claimed c, op = .completeClaim claimed c → sameClaim claimed r = true →
      claimed.attempts ≤ r.attempts) :
    (d.next op r r').Fits now' r' := by
  cases ht with
  | quiet hc hr hs => exact hd.next_quiet (Op.failsOn_of_completes hc) hr hs hle
  | @refreshed _ cfg a ctx side _ hs htm hc hr he =>
      have hnw : a.now = now' := htime a.now htm
      subst hnw
      -- a second refusal of the same intent: only a pending record is refreshed
      have hpending : r.lifecycle = .submitPending := by
        simp only [safeToEvictForCapacity, Bool.and_eq_true, decide_eq_true_eq] at he
        exact he.1.1.1.1.1
      refine hd.next_refused hle hnow ?_ (lt_min hd.created (enqueueSide_times hs).2)
        hpending.symm rfl rfl hr
      simp [Diary.next, dedupRefresh_revision]
  | @completed claimed c _ x hraise hm ho =>
      have hnw : c.now = now' := htime c.now rfl
      -- the snapshot is not ahead of the record, so its attempts do not count twice
      have hmax : max r.attempts claimed.attempts = r.attempts :=
        max_eq_left (hheld claimed c rfl hm)
      have hcomp : Op.completes (.completeClaim claimed c) r = some c := by
        simp [Op.completes, hraise, hm]
      cases (applyOutcome_completed ho).finish with
      | quiet hf hrt hu hs =>
          refine hd.next_quiet ?_ ?_ hs hle
          · simp [Op.failsOn, hcomp, hf]
          · simp [Op.refusesAt, hf, hrt]
      | tracked hacc hu ht =>
          have hn : Op.refusesAt (.completeClaim claimed c) r (finishClaim c x) = none := by
            simp [Op.refusesAt, hacc]
          refine hd.next_of hle hnow ?_ (ht.created ▸ hd.created) (fun _ _ _ => Or.inr ht.lifecycle)
            (fun _ => Or.inl ht.lifecycle) ⟨Or.inl ht.ttl, fun t _ h => by rw [hn] at h; cases h⟩
          simp only [Diary.next, ht.revision, if_true, Op.failsOn, hcomp, hacc]
          rw [ht.attempts]
          exact hd.attempts
      | unidentified _ hu =>
          -- excluded: an accepted answer without an order ID
          rw [hid c hcomp] at hu
          cases hu
      | retried hrt ha ht hcr hrev =>
          have hs : Op.refusesAt (.completeClaim claimed c) r (finishClaim c x) = some c.now := by
            simp [Op.refusesAt, hraise, hm, hrt]
          refine hd.next_of hle hnow ?_ (hcr ▸ hd.created)
            (fun _ h _ => by rw [hs] at h; cases h) (fun _ => Or.inr (ht.trans hnw))
            ⟨Or.inr (ht.trans hnw), fun t _ h => ?_⟩
          · simp [Diary.next, hrev]
          · rw [hs] at h
            cases h
            exact ⟨hnw, Or.inr (ht.trans hnw)⟩
      | failed hf ha ht hcr hrev hl hreason =>
          have hs : Op.refusesAt (.completeClaim claimed c) r (finishClaim c x) =
              (if isNonFailureDeferral c.failureReason then none else some c.now) := by
            cases hdef : isNonFailureDeferral c.failureReason <;>
              simp [Op.refusesAt, hraise, hm, hf, hdef]
          refine hd.next_refused hle hnow ?_ (hcr ▸ hd.created) hl hreason (hnw ▸ ht) (hnw ▸ hs)
          simp only [Diary.next, hrev, if_true, Op.failsOn, hcomp, hf, decide_true]
          rw [ha, hmax, hd.attempts, Nat.add_assoc]
      | deferred hdo ha ht hcr hrev hl hreason =>
          have hn : Op.refusesAt (.completeClaim claimed c) r (finishClaim c x) = none := by
            simp [Op.refusesAt, hdo]
          -- a deferral carries one of the reasons that are no failure, or it would have raised
          have hdef : isNonFailureDeferral (finishClaim c x).lastFailureReason = true := by
            have hvalid : isNonFailureDeferral c.failureReason = true := by
              have hraise' := hraise
              simp only [Op.raises, hdo, decide_true, Bool.true_and, Bool.or_eq_false_iff,
                Bool.not_eq_false'] at hraise'
              exact hraise'.1
            rw [hreason]
            cases hc : c.failureReason with
            | none =>
                rw [hc] at hvalid
                cases hvalid
            | some reason => exact hc ▸ hvalid
          refine hd.next_of hle hnow ?_ (hcr ▸ hd.created) (fun _ _ _ => Or.inl hdef)
            (fun h => Or.inl (hl.trans h))
            ⟨Or.inl ht, fun t _ h => by rw [hn] at h; cases h⟩
          simp only [Diary.next, hrev, if_true, Op.failsOn, hcomp, hdo]
          rw [ha]
          exact hd.attempts
  | @failed recordId reason now₀ cid state _ hr =>
      have hnw : now₀ = now' := htime now₀ rfl
      obtain ⟨ha, ht, hcr, hrev, hl, hreason⟩ := failRecord_age reason now₀ state r
      refine hd.next_refused hle hnow ?_ (hcr ▸ hd.created) hl hreason (hnw ▸ ht) (hnw ▸ hr)
      simp only [Diary.next, hrev, if_true, Op.failsOn, Op.completes]
      rw [ha]
      exact hd.attempts
  | accepted ha =>
      have ht := applyAccepted_tracked ha
      refine hd.next_of hle hnow ?_ (ht.created ▸ hd.created) (fun _ _ _ => Or.inr ht.lifecycle)
        (fun _ => Or.inl ht.lifecycle) ⟨Or.inl ht.ttl, fun t _ h => by cases h⟩
      simp only [Diary.next, ht.revision, if_true, Op.failsOn, Op.completes]
      rw [ht.attempts]
      exact hd.attempts
  | @activated claimed qty now₀ _ hact =>
      have hnw : now₀ = now' := htime now₀ rfl
      have hrev : (activateRecord qty now₀ r).revision = r.revision := rfl
      refine hd.next_of hle hnow ?_ hd.created
        (fun _ _ hno => by rw [hact] at hno; cases hno) (fun _ => Or.inr hnw)
        ⟨Or.inr hnw, fun t _ h => by cases h⟩
      simp only [Diary.next, hrev, if_true, Op.failsOn, Op.completes]
      exact hd.attempts

/-! ## Held snapshots -/

/-- The snapshot an `enqueue` hands out is the record it appends, under its lease. -/
theorem enqueue_leased {cfg : Config} {a : EnqueueArgs} {ctx : CallContext} {q : Queue}
    {snapshot : Record} (h : (enqueue cfg a ctx q).1 = .claimed snapshot) :
    snapshot ∈ (enqueue cfg a ctx q).2 ∧ snapshot.claimRevision = some snapshot.revision := by
  unfold enqueue at h ⊢
  cases hs : enqueueSide cfg a ctx with
  | none => simp [hs] at h
  | some side =>
      simp only [hs] at h ⊢
      cases hd : q.find? (isAwaitingDuplicate a side) with
      | some item => simp [hd] at h
      | none =>
          simp only [hd] at h ⊢
          cases hf : (q.filter (fun item => !isSuperseded a (newRecord a ctx side) item)).find?
              (isDedupTarget cfg a side) with
          | some e => simp only [hf] at h; cases h
          | none =>
              simp only [hf] at h ⊢
              cases hm : makeRoom cfg
                  (q.filter (fun item => !isSuperseded a (newRecord a ctx side) item)) with
              | none => simp only [hm] at h; cases h
              | some room =>
                  simp only [hm] at h ⊢
                  split_ifs at h with hlease
                  cases h
                  refine ⟨List.mem_append_right _ (List.mem_singleton_self _), ?_⟩
                  obtain ⟨lease, hl⟩ := Option.isSome_iff_exists.mp hlease
                  simp [newRecord, hl, setSafeToDiscard]

theorem enqueueClaimed_leased {cfg : Config} {a : EnqueueArgs} {lease : Option ℚ}
    {ctx : CallContext} {q : Queue} {snapshot : Record}
    (h : (enqueueClaimed cfg a lease ctx q).1 = .claimed snapshot) :
    snapshot ∈ (enqueueClaimed cfg a lease ctx q).2 ∧
      snapshot.claimRevision = some snapshot.revision := by
  unfold enqueueClaimed at h ⊢
  simp only at h ⊢
  split_ifs at h ⊢ with hlease
  exact enqueue_leased h

/-- A record that is exactly the claimed one is leased in its own revision. -/
theorem exactClaim_revision {snap r : Record} (h : exactClaim snap r = true) :
    r.claimRevision = some r.revision := by
  simp only [exactClaim, Bool.and_eq_true, decide_eq_true_eq] at h
  obtain ⟨⟨⟨-, hrev⟩, hsame⟩, -⟩ := h
  cases hsnap : snap.claimRevision with
  | none =>
      rw [hsnap] at hrev
      simp only [intOr] at hrev
      omega
  | some n =>
      rw [hsnap] at hrev hsame
      cases hr : r.claimRevision with
      | none =>
          rw [hr] at hsame
          simp only [intOr] at hsame
          omega
      | some m =>
          rw [hr] at hsame
          simp only [intOr] at hrev hsame
          congr 1
          omega

/-- A snapshot is the record as it stands after the call that hands it out, under a lease of
its revision. -/
theorem handsOut_mem {op : Op} {q : Queue} {h : Record} (hh : h ∈ op.handsOut q) :
    h ∈ op.apply q ∧ h.claimRevision = some h.revision := by
  cases op with
  | claim ids now lease token =>
      simp only [Op.handsOut, Outbox.claim] at hh
      simp only [Op.apply, Outbox.claim]
      split_ifs at hh ⊢ with hids hlease
      · cases hh
      · cases hh
      · obtain ⟨r, hr, rfl⟩ := List.mem_map.mp hh
        obtain ⟨hq, hcl⟩ := List.mem_filter.mp hr
        exact ⟨List.mem_map.mpr ⟨r, hq, if_pos hcl⟩, rfl⟩
  | enqueueClaimed cfg a lease ctx =>
      simp only [Op.handsOut] at hh
      split at hh
      · rename_i snapshot hres
        rw [List.mem_singleton] at hh
        rw [hh]
        exact enqueueClaimed_leased hres
      · cases hh
  | beginClaimedSubmit snap now lease pid start =>
      simp only [Op.handsOut] at hh
      rcases beginClaimedSubmit_cases snap now lease pid start q with hb | ⟨st, r, rfl, hf, hb⟩
      · rw [hb] at hh
        cases hh
      · rw [hb, Option.toList_some, List.mem_singleton] at hh
        refine ⟨?_, ?_⟩
        · simp only [Op.apply, hb, hh]
          exact updateFirst_found hf
        · rw [hh]
          show r.claimRevision = some r.revision
          exact exactClaim_revision (List.find?_some hf)
  | _ => cases hh

/-- Revisions do not go back, and attempts go back only in a new revision. -/
theorem Traced.monotone {op : Op} {r r' : Record} (h : Traced op r r') :
    r.revision < r'.revision ∨ (r'.revision = r.revision ∧ r.attempts ≤ r'.attempts) := by
  cases h with
  | quiet _ _ hs => exact Or.inr ⟨hs.revision, le_of_eq hs.attempts.symm⟩
  | refreshed => exact Or.inl (Nat.lt_succ_self _)
  | @completed claimed c _ x _ _ ho =>
      cases (applyOutcome_completed ho).finish with
      | quiet _ _ _ hs => exact Or.inr ⟨hs.revision, le_of_eq hs.attempts.symm⟩
      | tracked _ _ ht => exact Or.inr ⟨ht.revision, le_of_eq ht.attempts.symm⟩
      | unidentified _ _ ha _ _ hrev => exact Or.inr ⟨hrev, by rw [ha]; omega⟩
      | retried _ _ _ _ hrev => exact Or.inl (by rw [hrev]; exact Nat.lt_succ_self _)
      | failed _ ha _ _ hrev => exact Or.inr ⟨hrev, by rw [ha]; omega⟩
      | deferred _ ha _ _ hrev => exact Or.inr ⟨hrev, le_of_eq ha.symm⟩
  | @failed recordId reason now cid state _ _ =>
      obtain ⟨ha, -, -, hrev, -⟩ := failRecord_age reason now state r
      exact Or.inr ⟨hrev, le_of_eq ha.symm⟩
  | accepted ha =>
      have ht := applyAccepted_tracked ha
      exact Or.inr ⟨ht.revision, le_of_eq ht.attempts.symm⟩
  | activated => exact Or.inr ⟨rfl, le_refl _⟩

/-- A snapshot stays a bound as its record goes on. -/
theorem HeldBound.next {op : Op} {h r r' : Record} (hb : HeldBound h r) (ht : Traced op r r') :
    HeldBound h r' := by
  obtain ⟨hle, heq⟩ := hb
  rcases ht.monotone with hlt | ⟨hrev, hatt⟩
  · refine ⟨by omega, fun he => ?_⟩
    omega
  · rw [HeldBound, hrev]
    exact ⟨hle, fun he => le_trans (heq he) hatt⟩

theorem HeldBound.self {h : Record} (hc : h.claimRevision = some h.revision) : HeldBound h h := by
  rw [HeldBound, hc]
  exact ⟨le_refl _, fun _ => le_refl _⟩

/-! ## Runs -/

theorem find_id {q : Queue} (hn : (q.map Record.id).Nodup) {r : Record} (hr : r ∈ q)
    (hid : r.id = id) : q.find? (fun r => r.id = id) = some r :=
  find_of_nodup hn (p := fun r => r.id = id) (x := id) (fun _ h => by simpa using h) hr
    (by simpa using hid)

theorem History.Inv.initial {s : History} (h : s.Initial) : s.Inv id := by
  obtain ⟨hq, hissued, hheld, hdiary⟩ := h
  refine ⟨by simp [hq], by simp [hq], by simp [hheld], by simp [hq], by simp [hq], by simp [hq]⟩

/-- **One operation keeps the invariant.** -/
theorem History.Inv.step {s : History} (hi : s.Inv id) {op : Op} (ha : op.Allowed s)
    (hident : op.Identified id s) : (s.step id op).Inv id := by
  have hnodup := apply_nodup hi.nodup hi.issued ha.fresh
  have htime : s.now ≤ op.time.getD s.now := by
    cases ht : op.time with
    | none => exact le_refl _
    | some t => exact ha.time t ht
  -- a record is there only after an enqueue, which has a positive time
  have hclock : op.apply s.queue ≠ [] → 0 < op.time.getD s.now := by
    intro hne
    obtain ⟨r', hr'⟩ := List.exists_mem_of_ne_nil _ hne
    rcases apply_traced hnodup hr' with hfresh | ⟨r, hr, -⟩
    · cases hfresh with
      | enqueued hop hs =>
          rw [Op.time_of_enqueueCall hop]
          exact (enqueueSide_times hs).1
    · exact lt_of_lt_of_le (hi.clock (List.ne_nil_of_mem hr)) htime
  -- a claim that was handed out bounds the record under its ID ever after
  have hheld : ∀ h ∈ s.held, ∀ r ∈ op.apply s.queue, r.id = h.id → HeldBound h r := by
    intro h hh r' hr' hid'
    rcases apply_traced hnodup hr' with hfresh | ⟨r, hr, hrid, ht⟩
    · exact absurd (hi.heldIssued h hh) (hid' ▸ ha.fresh _ hfresh.id_mem)
    · exact (hi.held h hh r hr (hrid.symm.trans hid')).next ht
  refine ⟨hnodup, fun r hr => apply_issued hi.issued hr, ?_, hclock, ?_, ?_⟩
  · intro h hh
    rcases List.mem_append.mp hh with hout | hold
    · exact apply_issued hi.issued (handsOut_mem hout).1
    · exact List.mem_append_right _ (hi.heldIssued h hold)
  · intro h hh r' hr' hid'
    rcases List.mem_append.mp hh with hout | hold
    · obtain ⟨hmem, hrev⟩ := handsOut_mem hout
      rw [eq_of_key_eq hnodup hr' hmem hid']
      exact HeldBound.self hrev
    · exact hheld h hold r' hr' hid'
  · intro r' hr' hid'
    have hfind' : (op.apply s.queue).find? (fun r => r.id = id) = some r' :=
      find_id hnodup hr' hid'
    rcases apply_traced hnodup hr' with hfresh | ⟨r, hr, hrid, ht⟩
    -- an ID is issued once, so the diary is empty before
    · have hnone : s.find id = none := by
        refine List.find?_eq_none.mpr (fun r hr => ?_)
        have hne : r.id ≠ id := fun h =>
          ha.fresh _ hfresh.id_mem (hid' ▸ h ▸ hi.issued r hr)
        simpa using hne
      have hdiary : (s.step id op).diary = Diary.opened r' := by
        simp only [History.step, hnone, hfind']
      rw [hdiary]
      cases hfresh with
      | enqueued _ hs => exact Diary.opened_fits hs _
    · have hrid' : r.id = id := hrid.symm.trans hid'
      have hfind : s.find id = some r := find_id hi.nodup hr hrid'
      have hdiary : (s.step id op).diary = s.diary.next op r r' := by
        simp only [History.step, hfind, hfind']
      rw [hdiary]
      refine (hi.fits r hr hrid').next ht htime ?_ (hclock (List.ne_nil_of_mem hr'))
        (hident r hr hrid') ?_
      · intro t htm
        show t = op.time.getD s.now
        rw [htm, Option.getD_some]
      · intro claimed c hop hm
        obtain ⟨-, hbound⟩ := hi.held claimed (ha.held claimed c hop) r hr (sameClaim_id hm)
        simp only [sameClaim, Bool.and_eq_true, decide_eq_true_eq] at hm
        exact hbound hm.1.1.2.symm

theorem History.IdentifiedReachable.reachable {s : History} (h : s.IdentifiedReachable id) :
    s.Reachable id := by
  induction h with
  | start hi => exact Reach.start hi
  | step _ hn ih => exact Reach.step ih hn.1

theorem History.IdentifiedReachable.inv {s : History} (h : s.IdentifiedReachable id) :
    s.Inv id := by
  refine Reach.invariant ?_ ?_ h
  · intro s hinit
    exact History.Inv.initial hinit
  · rintro s op s' hi ⟨⟨ha, rfl⟩, hident⟩
    exact hi.step ha hident

/-- A record the diary fits is expired only as the diary allows. -/
theorem History.Inv.costsNothing {s : History} (hi : s.Inv id) : s.CostsNothing id where
  attempts := fun r hr hid => (hi.fits r hr hid).attempts
  deferred := by
    intro r hr hid hdef cfg now
    have hf := hi.fits r hr hid
    unfold isExpired
    split_ifs with hlife hage
    · rfl
    · simp only [Bool.or_eq_true, decide_eq_true_eq] at hage
      rcases hage with h | h
      · exact absurd hf.created (not_lt.mpr h)
      · exact absurd hf.ttl (not_lt.mpr h)
    · rfl
    · rfl
  resumed := by
    intro r hr hid t ht cfg now hnow hexp
    have hf := hi.fits r hr hid
    unfold isExpired at hexp
    split_ifs at hexp with hlife hage hclaim hdef
    · simp only [Bool.or_eq_true, decide_eq_true_eq] at hage
      rcases hage with h | h
      · exact absurd hf.created (not_lt.mpr h)
      · exact absurd hf.ttl (not_lt.mpr h)
    · simp only [Bool.or_eq_true, Bool.and_eq_true, decide_eq_true_eq] at hexp
      rcases hexp with hold | hlimit
      · rcases (hf.resumed t ht).2 with hacc | httl
        · simp [hacc] at hlife
        · linarith
      · exact hlimit

/-- **Deferral costs nothing**, in every history in which no accepted response without an
order ID is reported for the record. -/
theorem deferral_costs_nothing {s : History} (h : s.IdentifiedReachable id) :
    s.CostsNothing id :=
  (History.IdentifiedReachable.inv h).costsNothing

end Invariant

/-! ## Two histories -/

def noHistory : History := ⟨[], [], [], 0, ⟨0, 0, false, none⟩⟩

def sampleWait : Op :=
  .enqueue Config.repository
    { symbol := "BTCUSDC", side := "SELL", qty := 1, now := 10,
      failureReason := some "trend_deferred" } ⟨"a1", "t1", 7, some "boot-7"⟩

/-- A record that waits for its trend for two days and is then claimed. -/
def waitingRun : History :=
  (noHistory.step "a1" sampleWait).step "a1" (.claim ["a1"] 172800 120 "t2")

/-- The snapshot its caller holds. -/
def waitingSnapshot : Record :=
  { id := "a1", intentId := "outbox-a1", providerName := none, symbol := "BTCUSDC", side := .sell,
    kind := none, qty := 1, requestedQtyTotal := 1, deliveredQty := 0,
    placeKwargs := [("client_order_id", some "OR_a1_0")], requestedPrice := none,
    refPrice := none, createdTs := 10, attempts := 0, lastAttemptTs := 0,
    lastFailureReason := some "trend_deferred", ttlStartedTs := 10, revision := 0,
    lifecycle := .submitPending, safeToDiscard := true, claimToken := some "t2",
    claimUntil := some 172920, claimRevision := some 0 }

def realRefusal (now : ℚ) : CompleteArgs :=
  { outcome := .failure, now := now, failureReason := some "pre_submit_refused",
    submissionState := some .refused }

/-- It is refused for a real reason. -/
def refusedRun : History :=
  waitingRun.step "a1" (.completeClaim waitingSnapshot (realRefusal 172810))

theorem waitingRun_reachable : waitingRun.IdentifiedReachable "a1" := by
  refine Reach.step (Reach.step (Reach.start (s := noHistory) ⟨rfl, rfl, rfl, rfl⟩)
    (i := sampleWait) ⟨⟨⟨?_, ?_, ?_⟩, rfl⟩, ?_⟩) (i := .claim ["a1"] 172800 120 "t2")
    ⟨⟨⟨?_, ?_, ?_⟩, rfl⟩, ?_⟩
  · intro x _ hx
    cases hx
  · intro t ht
    cases ht
    decide +kernel
  · intro claimed c h
    cases h
  · intro r hr
    cases hr
  · intro x hx
    cases hx
  · intro t ht
    cases ht
    decide +kernel
  · intro claimed c h
    cases h
  · intro r _ _ c hc
    cases hc

/-- After two days of waiting the refusal leaves the record its whole time to live. -/
theorem refused_after_wait_keeps_ttl :
    refusedRun.CostsNothing "a1" ∧ refusedRun.diary = ⟨0, 1, false, some 172810⟩ := by
  refine ⟨deferral_costs_nothing (Reach.step waitingRun_reachable
    (i := .completeClaim waitingSnapshot (realRefusal 172810)) ⟨⟨⟨?_, ?_, ?_⟩, rfl⟩, ?_⟩),
    by decide +kernel⟩
  · intro x hx
    cases hx
  · intro t ht
    cases ht
    decide +kernel
  · intro claimed c h
    cases h
    decide +kernel
  · intro r _ _ c hc
    unfold Op.completes at hc
    simp only at hc
    split_ifs at hc
    cases hc
    rfl

/-- Its venue answers without an order ID first. -/
def answeredRun : History :=
  waitingRun.step "a1" (.completeClaim waitingSnapshot
    { outcome := .accepted, now := 172810, order := some ⟨none, some "NEW"⟩ })

/-- The snapshot of the next try. -/
def answeredSnapshot : Record :=
  { waitingSnapshot with
    attempts := 1, lastAttemptTs := 172810, claimToken := some "t3", claimUntil := some 173320,
    lastFailureReason := some "response_without_order_id", safeToDiscard := false }

def unidentifiedRun : History :=
  (answeredRun.step "a1" (.claim ["a1"] 173200 120 "t3")).step "a1"
    (.completeClaim answeredSnapshot (realRefusal 173210))

/-- **A response without an order ID ends the wait and keeps the old time to live**: the
refusal at the next try finds the record expired. -/
theorem unidentified_response_expires :
    ¬ ∀ (id : String) (s : History), s.Reachable id → s.CostsNothing id := by
  intro hall
  have hwait := waitingRun_reachable.reachable
  have hreach : unidentifiedRun.Reachable "a1" := by
    refine Reach.step (Reach.step (@Reach.step _ _ _ _ _ answeredRun _ hwait ⟨⟨?_, ?_, ?_⟩, rfl⟩)
      (i := .claim ["a1"] 173200 120 "t3") ⟨⟨?_, ?_, ?_⟩, rfl⟩)
      (i := .completeClaim answeredSnapshot (realRefusal 173210)) ⟨⟨?_, ?_, ?_⟩, rfl⟩
    · intro x hx
      cases hx
    · intro t ht
      cases ht
      decide +kernel
    · intro claimed c h
      cases h
      decide +kernel
    · intro x hx
      cases hx
    · intro t ht
      cases ht
      decide +kernel
    · intro claimed c h
      cases h
    · intro x hx
      cases hx
    · intro t ht
      cases ht
      decide +kernel
    · intro claimed c h
      cases h
      decide +kernel
  have hcost := hall "a1" unidentifiedRun hreach
  have hsome : ∃ r ∈ unidentifiedRun.queue, r.id = "a1" ∧
      isExpired Config.repository r 173210 = true := by decide +kernel
  obtain ⟨r, hr, hid, hexp⟩ := hsome
  have hresumed : unidentifiedRun.diary.resumed = some 173210 := by decide +kernel
  have hbound : (173210 : ℚ) ≤ 173210 + Config.repository.ttlSec := by decide +kernel
  have hlimit := (hcost.resumed r hr hid 173210 hresumed Config.repository 173210 hbound hexp).1
  exact absurd hlimit (by decide +kernel)

end TradingFleet.Outbox
