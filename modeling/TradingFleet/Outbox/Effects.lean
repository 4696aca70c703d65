import TradingFleet.Basic.Greedy
import TradingFleet.Outbox.Operations

set_option autoImplicit false

/-! # What one operation does to one record

The ten operations that rewrite the queue are the constructors of `Op`. For each of them
three relations say everything it can do: `Change op r r'` (the record `r` stays, as `r'`),
`Dropped op r` (it leaves the queue) and `Fresh op r'` (it is new). Every invariant of the
outbox is proved from `apply_keeps` and `apply_mem`, without looking into an operation again.
-/

namespace TradingFleet.Outbox

open TradingFleet.Keyed

/-! ## Operations as data -/

inductive Op where
  | enqueue (cfg : Config) (a : EnqueueArgs) (ctx : CallContext)
  | enqueueClaimed (cfg : Config) (a : EnqueueArgs) (lease : Option ℚ) (ctx : CallContext)
  | claim (ids : List String) (now lease : ℚ) (token : String)
  | beginClaimedSubmit (snap : Record) (now lease : ℚ) (pid : Nat) (start : Option String)
  | completeClaim (claimed : Record) (c : CompleteArgs)
  | markFailure (recordId : String) (reason : Option String) (now : ℚ)
      (clientOrderId : Option String) (state : Option SubmissionState)
  | markAccepted (recordId : String) (order : Option OrderPayload) (now : ℚ)
      (clientOrderId providerName : Option String)
  | activate (claimed : Record) (qty now : ℚ)
  | consolidate
  | discardExpired (cfg : Config) (snapshots : List Record) (now : ℚ)

/-- The queue after an operation that may raise. -/
def queueAfter {α : Type} (q : Queue) : Except String (α × Queue) → Queue
  | .error _ => q
  | .ok (_, q') => q'

def Op.apply : Op → Queue → Queue
  | .enqueue cfg a ctx, q => (Outbox.enqueue cfg a ctx q).2
  | .enqueueClaimed cfg a lease ctx, q => (Outbox.enqueueClaimed cfg a lease ctx q).2
  | .claim ids now lease token, q => queueAfter q (Outbox.claim ids now lease token q)
  | .beginClaimedSubmit snap now lease pid start, q =>
      (Outbox.beginClaimedSubmit snap now lease pid start q).2
  | .completeClaim claimed c, q => queueAfter q (Outbox.completeClaim claimed c q)
  | .markFailure recordId reason now cid state, q =>
      queueAfter q (Outbox.markFailure recordId reason now cid state q)
  | .markAccepted recordId order now cid provider, q =>
      (Outbox.markAccepted recordId order now cid provider q).2
  | .activate claimed qty now, q => (activateClaimedReplacement claimed qty now q).2
  | .consolidate, q => (consolidateDeferredStreams q).2
  | .discardExpired cfg snapshots now, q => queueAfter q (Outbox.discardExpired cfg snapshots now q)

/-- The arguments `enqueue_claimed` hands to `enqueue`. -/
def claimedArgs (cfg : Config) (a : EnqueueArgs) (lease : Option ℚ) : EnqueueArgs :=
  { a with lifecycle := .submitPending, replacesOrderId := none, replacesOriginalQty := none,
           producerLease := some (lease.getD (cfg.intervalSec + cfg.claimLeaseSec)) }

/-- The call behind an enqueueing operation. -/
def Op.enqueueCall : Op → Option (Config × EnqueueArgs × CallContext)
  | .enqueue cfg a ctx => some (cfg, a, ctx)
  | .enqueueClaimed cfg a lease ctx => some (cfg, claimedArgs cfg a lease, ctx)
  | _ => none

/-- The operations that look after the queue as a whole: they may make room, compact or
expire, and are not addressed to one record. -/
def Op.housekeeping : Op → Bool
  | .enqueue .. => true
  | .enqueueClaimed .. => true
  | .consolidate => true
  | .discardExpired .. => true
  | _ => false

/-! ## Effects -/

/-- A record that stays in the queue, before and after. -/
inductive Change : Op → Record → Record → Prop
  | same {op : Op} {r : Record} : Change op r r
  | refreshed {op : Op} {cfg : Config} {a : EnqueueArgs} {ctx : CallContext} {r : Record} :
      op.enqueueCall = some (cfg, a, ctx) → 0 < a.qty → safeToEvictForCapacity r = true →
      Change op r (dedupRefresh a r)
  | claimed {ids : List String} {now lease : ℚ} {token : String} {r : Record} :
      claimable ids now r = true →
      Change (.claim ids now lease token) r (claimRecord now lease token r)
  | begun {snap : Record} {now lease : ℚ} {pid : Nat} {start : String} {r : Record} :
      exactClaim snap r = true →
      Change (.beginClaimedSubmit snap now lease pid (some start)) r
        (beginRecord now lease pid start r)
  | completed {claimed : Record} {c : CompleteArgs} {r r' : Record} :
      sameClaim claimed r = true → reportable c.submissionState = true →
      applyOutcome claimed c r = some r' →
      Change (.completeClaim claimed c) r (finishClaim c r')
  | failed {recordId : String} {reason : Option String} {now : ℚ} {cid : Option String}
      {state : Option SubmissionState} {r : Record} :
      addresses recordId cid r = true → reportable state = true →
      Change (.markFailure recordId reason now cid state) r (failRecord reason now state r)
  | accepted {recordId : String} {order : Option OrderPayload} {now : ℚ}
      {cid provider : Option String} {r r' : Record} :
      addresses recordId cid r = true → applyAccepted r order now provider = some r' →
      Change (.markAccepted recordId order now cid provider) r r'
  | activated {claimed : Record} {qty now : ℚ} {r : Record} :
      activationMatch claimed r = true → r.lifecycle = .awaitingCancel →
      qtyTolerance r.qty < qty → Change (.activate claimed qty now) r (activateRecord qty now r)

/-- A record that leaves the queue. -/
inductive Dropped : Op → Record → Prop
  | evicted {op : Op} {r : Record} :
      op.housekeeping = true → safeToEvictForCapacity r = true → Dropped op r
  | expired {cfg : Config} {snapshots : List Record} {now : ℚ} {r : Record} :
      isExpired cfg r now = true → Dropped (.discardExpired cfg snapshots now) r
  | completed {claimed : Record} {c : CompleteArgs} {r : Record} :
      sameClaim claimed r = true → applyOutcome claimed c r = none →
      Dropped (.completeClaim claimed c) r
  | resolved {claimed : Record} {qty now : ℚ} {r : Record} :
      activationMatch claimed r = true → r.lifecycle = .awaitingCancel →
      qty ≤ qtyTolerance r.qty → Dropped (.activate claimed qty now) r

/-- A record an operation adds. -/
inductive Fresh : Op → Record → Prop
  | enqueued {op : Op} {cfg : Config} {a : EnqueueArgs} {ctx : CallContext} {side : Side} :
      op.enqueueCall = some (cfg, a, ctx) → enqueueSide cfg a ctx = some side →
      Fresh op (newRecord a ctx side)

/-! ## Enqueue -/

/-- The guards of `enqueue` let only a positive quantity through. -/
theorem enqueueSide_qty_pos {cfg : Config} {a : EnqueueArgs} {ctx : CallContext} {side : Side}
    (h : enqueueSide cfg a ctx = some side) : 0 < a.qty := by
  unfold enqueueSide at h
  split at h
  · rename_i hg
    simp only [Bool.and_eq_true, numbersOk, decide_eq_true_eq] at hg
    exact hg.1.2.1.1.1
  · cases h

theorem evictionVictims_disposable {q : Queue} {n : Nat} {r : Record} {i : Nat}
    (h : (r, i) ∈ evictionVictims q n) :
    (r, i) ∈ q.zipIdx ∧ safeToEvictForCapacity r = true := by
  have hc : (r, i) ∈ evictionCandidates q :=
    (List.perm_insertionSort _ _).mem_iff.mp (List.mem_of_mem_take h)
  unfold evictionCandidates at hc
  simp only at hc
  split at hc
  · simpa [List.mem_filter] using hc
  · have := List.mem_of_mem_filter hc
    simpa [List.mem_filter] using this

theorem makeRoom_keeps {cfg : Config} {q room : Queue} (h : makeRoom cfg q = some room)
    {r : Record} (hr : r ∈ q) : r ∈ room ∨ safeToEvictForCapacity r = true := by
  unfold makeRoom at h
  simp only at h
  split_ifs at h with hfull hfew
  · cases h
    rcases mem_filter_zipIdx (k := fun i =>
        !((evictionVictims q (q.length - cfg.maxQueue + 1)).map (·.2)).contains i) hr
      with hk | ⟨i, hi, hn⟩
    · exact Or.inl hk
    · simp only [Bool.not_eq_false', List.contains_eq_mem, decide_eq_true_eq, List.mem_map] at hn
      obtain ⟨⟨r', i'⟩, hv, rfl⟩ := hn
      obtain ⟨hz, hs⟩ := evictionVictims_disposable hv
      exact Or.inr (zipIdx_eq_of_idx_eq hi hz ▸ hs)
  · cases h
    exact Or.inl hr

theorem makeRoom_sublist {cfg : Config} {q room : Queue} (h : makeRoom cfg q = some room) :
    room.Sublist q := by
  unfold makeRoom at h
  simp only at h
  split_ifs at h with hfull hfew
  · cases h
    exact filter_zipIdx_sublist (fun i =>
      !((evictionVictims q (q.length - cfg.maxQueue + 1)).map (·.2)).contains i) q
  · cases h
    exact List.Sublist.refl _

/-- What an `enqueue` leaves behind: the queue as it was, a refreshed deduplication target,
or the new record after the rows that were kept. -/
theorem enqueue_cases (cfg : Config) (a : EnqueueArgs) (ctx : CallContext) (q : Queue) :
    (enqueue cfg a ctx q).2 = q ∨
    ∃ side, enqueueSide cfg a ctx = some side ∧
      ∃ existing, existing.Sublist q ∧
        (∀ r ∈ q, r ∈ existing ∨ safeToEvictForCapacity r = true) ∧
        ((∃ e, existing.find? (isDedupTarget cfg a side) = some e ∧
            (enqueue cfg a ctx q).2
              = updateFirst (isDedupTarget cfg a side) (dedupRefresh a) existing) ∨
          (enqueue cfg a ctx q).2 = existing ++ [newRecord a ctx side]) := by
  cases hs : enqueueSide cfg a ctx with
  | none => exact Or.inl (by simp [enqueue, hs])
  | some side =>
      cases hd : q.find? (isAwaitingDuplicate a side) with
      | some item => exact Or.inl (by simp [enqueue, hs, hd])
      | none =>
          set existing := q.filter (fun item => !isSuperseded a (newRecord a ctx side) item)
            with he
          have hsub : existing.Sublist q := List.filter_sublist
          have hkeep : ∀ r ∈ q, r ∈ existing ∨ safeToEvictForCapacity r = true := by
            intro r hr
            by_cases hsup : isSuperseded a (newRecord a ctx side) r = true
            · refine Or.inr ?_
              simp only [isSuperseded, Bool.and_eq_true] at hsup
              exact hsup.1.2
            · exact Or.inl (List.mem_filter.mpr ⟨hr, by simp [hsup]⟩)
          cases hf : existing.find? (isDedupTarget cfg a side) with
          | some e =>
              exact Or.inr ⟨side, rfl, existing, hsub, hkeep, Or.inl ⟨e, hf, by
                simp [enqueue, hs, hd, ← he, hf]⟩⟩
          | none =>
              cases hm : makeRoom cfg existing with
              | none => exact Or.inl (by simp [enqueue, hs, hd, ← he, hf, hm])
              | some room =>
                  refine Or.inr ⟨side, rfl, room, (makeRoom_sublist hm).trans hsub, ?_, Or.inr ?_⟩
                  · intro r hr
                    rcases hkeep r hr with h | h
                    · exact makeRoom_keeps hm h
                    · exact Or.inr h
                  · simp [enqueue, hs, hd, ← he, hf, hm]

/-- The deduplication target is disposable. -/
theorem isDedupTarget_evictable {cfg : Config} {a : EnqueueArgs} {side : Side} {e : Record}
    (h : isDedupTarget cfg a side e = true) : safeToEvictForCapacity e = true := by
  simp only [isDedupTarget, Bool.and_eq_true] at h
  exact h.1.1.1.2

theorem enqueueClaimed_eq (cfg : Config) (a : EnqueueArgs) (lease : Option ℚ)
    (ctx : CallContext) (q : Queue) :
    (enqueueClaimed cfg a lease ctx q).2 = q ∨
      (enqueueClaimed cfg a lease ctx q).2 = (enqueue cfg (claimedArgs cfg a lease) ctx q).2 := by
  unfold enqueueClaimed
  simp only
  split_ifs
  · exact Or.inl rfl
  · exact Or.inr rfl

section EnqueueEffects

variable {op : Op} {cfg : Config} {a : EnqueueArgs} {ctx : CallContext}

theorem enqueue_keeps (hop : op.enqueueCall = some (cfg, a, ctx)) (hhk : op.housekeeping = true)
    {q : Queue} {r : Record} (hr : r ∈ q) :
    (∃ r' ∈ (enqueue cfg a ctx q).2, Change op r r') ∨ Dropped op r := by
  rcases enqueue_cases cfg a ctx q with h | ⟨side, hs, existing, -, hkeep, h⟩
  · exact Or.inl ⟨r, by rw [h]; exact hr, .same⟩
  · rcases hkeep r hr with hex | hev
    · rcases h with ⟨e, hf, h⟩ | h
      · rw [h]
        rcases updateFirst_keeps (f := dedupRefresh a) hf hex with hu | rfl
        · exact Or.inl ⟨r, hu, .same⟩
        · exact Or.inl ⟨_, updateFirst_found hf, .refreshed hop (enqueueSide_qty_pos hs)
            (isDedupTarget_evictable (List.find?_some hf))⟩
      · rw [h]
        exact Or.inl ⟨r, List.mem_append_left _ hex, .same⟩
    · exact Or.inr (.evicted hhk hev)

theorem enqueue_mem (hop : op.enqueueCall = some (cfg, a, ctx)) {q : Queue} {r' : Record}
    (hr : r' ∈ (enqueue cfg a ctx q).2) : (∃ r ∈ q, Change op r r') ∨ Fresh op r' := by
  rcases enqueue_cases cfg a ctx q with h | ⟨side, hs, existing, hsub, -, h⟩
  · exact Or.inl ⟨r', by rw [h] at hr; exact hr, .same⟩
  · rcases h with ⟨e, hf, h⟩ | h
    · rw [h] at hr
      have he : e ∈ q := hsub.subset (List.mem_of_find?_eq_some hf)
      rcases mem_updateFirst hf hr with hu | rfl
      · exact Or.inl ⟨r', hsub.subset hu, .same⟩
      · exact Or.inl ⟨e, he, .refreshed hop (enqueueSide_qty_pos hs)
          (isDedupTarget_evictable (List.find?_some hf))⟩
    · rw [h] at hr
      rcases List.mem_append.mp hr with hu | hu
      · exact Or.inl ⟨r', hsub.subset hu, .same⟩
      · rw [List.mem_singleton] at hu
        exact Or.inr (hu ▸ .enqueued hop hs)

end EnqueueEffects

/-! ## The other operations -/

/-- `claim` leaves the queue alone or leases the records it may. -/
theorem claim_queue (ids : List String) (now lease : ℚ) (token : String) (q : Queue) :
    queueAfter q (claim ids now lease token q) = q ∨
      queueAfter q (claim ids now lease token q)
        = q.map (fun r => if claimable ids now r then claimRecord now lease token r else r) := by
  unfold claim
  split_ifs
  · exact Or.inl rfl
  · exact Or.inl rfl
  · exact Or.inr rfl

theorem beginClaimedSubmit_cases (snap : Record) (now lease : ℚ) (pid : Nat)
    (start : Option String) (q : Queue) :
    beginClaimedSubmit snap now lease pid start q = (none, q) ∨
      ∃ st r, start = some st ∧ q.find? (exactClaim snap) = some r ∧
        beginClaimedSubmit snap now lease pid start q
          = (some (beginRecord now lease pid st r),
              updateFirst (exactClaim snap) (beginRecord now lease pid st) q) := by
  unfold beginClaimedSubmit
  cases start with
  | none => exact Or.inl rfl
  | some st =>
      simp only
      split_ifs
      · exact Or.inl rfl
      · cases hf : q.find? (exactClaim snap) with
        | none => exact Or.inl rfl
        | some r => exact Or.inr ⟨st, r, rfl, rfl, rfl⟩

theorem completeClaim_queue (claimed : Record) (c : CompleteArgs) (q : Queue) :
    queueAfter q (completeClaim claimed c q) = q ∨
      reportable c.submissionState = true ∧
      queueAfter q (completeClaim claimed c q) = q.filterMap (completeRecord claimed c) := by
  unfold completeClaim
  split_ifs with h1 h2
  · exact Or.inl rfl
  · exact Or.inl rfl
  · exact Or.inr ⟨by simpa using h2, rfl⟩

theorem markFailure_queue (recordId : String) (reason : Option String) (now : ℚ)
    (cid : Option String) (state : Option SubmissionState) (q : Queue) :
    queueAfter q (markFailure recordId reason now cid state q) = q ∨
      reportable state = true ∧ ∃ r, q.find? (addresses recordId cid) = some r ∧
        queueAfter q (markFailure recordId reason now cid state q)
          = updateFirst (addresses recordId cid) (failRecord reason now state) q := by
  unfold markFailure
  split_ifs with h1 h2
  · exact Or.inl rfl
  · exact Or.inl rfl
  · cases hf : q.find? (addresses recordId cid) with
    | none => exact Or.inl rfl
    | some r => exact Or.inr ⟨by simpa using h2, r, rfl, rfl⟩

theorem markAccepted_queue (recordId : String) (order : Option OrderPayload) (now : ℚ)
    (cid provider : Option String) (q : Queue) :
    (markAccepted recordId order now cid provider q).2 = q ∨
      ∃ r r', q.find? (addresses recordId cid) = some r ∧
        applyAccepted r order now provider = some r' ∧
        (markAccepted recordId order now cid provider q).2
          = updateFirst (addresses recordId cid)
              (fun r => (applyAccepted r order now provider).getD r) q := by
  unfold markAccepted
  split_ifs
  · exact Or.inl rfl
  · cases hf : q.find? (addresses recordId cid) with
    | none => exact Or.inl rfl
    | some r =>
        cases ha : applyAccepted r order now provider with
        | none => exact Or.inl (by simp [ha])
        | some r' => exact Or.inr ⟨r, r', rfl, ha, by simp [ha]⟩

theorem activate_queue (claimed : Record) (qty now : ℚ) (q : Queue) :
    activateClaimedReplacement claimed qty now q = (none, q) ∨
      ∃ r, q.find? (activationMatch claimed) = some r ∧ r.lifecycle = .awaitingCancel ∧
        ((qty ≤ qtyTolerance r.qty ∧
            activateClaimedReplacement claimed qty now q
              = (some .resolved, q.eraseP (activationMatch claimed))) ∨
          (qtyTolerance r.qty < qty ∧
            activateClaimedReplacement claimed qty now q
              = (some .activated,
                  updateFirst (activationMatch claimed) (activateRecord qty now) q))) := by
  unfold activateClaimedReplacement
  split_ifs with hneg
  · exact Or.inl rfl
  · cases hf : q.find? (activationMatch claimed) with
    | none => exact Or.inl rfl
    | some r =>
        simp only
        split_ifs with hl hbig hsmall
        · exact Or.inl rfl
        · exact Or.inl rfl
        · exact Or.inr ⟨r, rfl, not_not.mp hl, Or.inl ⟨hsmall, rfl⟩⟩
        · exact Or.inr ⟨r, rfl, not_not.mp hl, Or.inr ⟨not_le.mp hsmall, rfl⟩⟩

/-- The consolidation pass removes only evictable trend deferrals. -/
theorem consolidate_keeps {q : Queue} {r : Record} (hr : r ∈ q) :
    r ∈ (consolidateDeferredStreams q).2 ∨ safeToEvictForCapacity r = true := by
  rcases mem_filter_zipIdx (k := fun i => !(consolidatedPositions q).contains i) hr
    with hk | ⟨i, hi, hn⟩
  · exact Or.inl hk
  · simp only [Bool.not_eq_false', List.contains_eq_mem, decide_eq_true_eq] at hn
    have hin : i ∈ Greedy.removedPositions isDeferredEvictable sameDeferredStream
        Record.createdTs q := hn
    obtain ⟨r', hr', he, -⟩ := Greedy.removedPositions_reason hin
    rw [Keyed.zipIdx_eq_of_idx_eq hi hr']
    simp only [isDeferredEvictable, Bool.and_eq_true] at he
    exact Or.inr he.1

theorem consolidate_sublist (q : Queue) : (consolidateDeferredStreams q).2.Sublist q :=
  filter_zipIdx_sublist (fun i => !(consolidatedPositions q).contains i) q

theorem discardExpired_queue (cfg : Config) (snapshots : List Record) (now : ℚ) (q : Queue) :
    ∃ gone : Record → Bool, (∀ r, gone r = true → isExpired cfg r now = true) ∧
      queueAfter q (discardExpired cfg snapshots now q) = q.filter (fun r => !gone r) := by
  unfold discardExpired
  simp only
  split_ifs with h1 h2
  · exact ⟨fun _ => false, by simp, by simp [queueAfter]⟩
  · exact ⟨fun _ => false, by simp, by simp [queueAfter]⟩
  · exact ⟨_, fun r hr => (Bool.and_eq_true_iff.mp hr).2, rfl⟩

/-! ## Every record stays, changed in a known way, or leaves for a known reason -/

theorem apply_keeps (op : Op) {q : Queue} {r : Record} (hr : r ∈ q) :
    (∃ r' ∈ op.apply q, Change op r r') ∨ Dropped op r := by
  cases op with
  | enqueue cfg a ctx => exact enqueue_keeps rfl rfl hr
  | enqueueClaimed cfg a lease ctx =>
      rcases enqueueClaimed_eq cfg a lease ctx q with h | h
      · exact Or.inl ⟨r, by simp only [Op.apply, h]; exact hr, .same⟩
      · simp only [Op.apply, h]
        exact enqueue_keeps rfl rfl hr
  | claim ids now lease token =>
      rcases claim_queue ids now lease token q with h | h
      · exact Or.inl ⟨r, by simp only [Op.apply, h]; exact hr, .same⟩
      · simp only [Op.apply, h]
        refine Or.inl ⟨_, List.mem_map.mpr ⟨r, hr, rfl⟩, ?_⟩
        split
        · rename_i hc; exact .claimed hc
        · exact .same
  | beginClaimedSubmit snap now lease pid start =>
      rcases beginClaimedSubmit_cases snap now lease pid start q with h | ⟨st, r₀, rfl, hf, h⟩
      · exact Or.inl ⟨r, by simp only [Op.apply, h]; exact hr, .same⟩
      -- the record is the one that is rewritten, or another
      · simp only [Op.apply, h]
        rcases updateFirst_keeps (f := beginRecord now lease pid st) hf hr with hu | rfl
        · exact Or.inl ⟨r, hu, .same⟩
        · exact Or.inl ⟨_, updateFirst_found hf, .begun (List.find?_some hf)⟩
  | completeClaim claimed c =>
      rcases completeClaim_queue claimed c q with h | ⟨hrep, h⟩
      · exact Or.inl ⟨r, by simp only [Op.apply, h]; exact hr, .same⟩
      · simp only [Op.apply, h]
        by_cases hm : sameClaim claimed r = true
        · cases ho : applyOutcome claimed c r with
          | none => exact Or.inr (.completed hm ho)
          | some r' =>
              refine Or.inl ⟨finishClaim c r', List.mem_filterMap.mpr ⟨r, hr, ?_⟩,
                .completed hm hrep ho⟩
              simp [completeRecord, hm, ho]
        · refine Or.inl ⟨r, List.mem_filterMap.mpr ⟨r, hr, ?_⟩, .same⟩
          simp [completeRecord, hm]
  | markFailure recordId reason now cid state =>
      rcases markFailure_queue recordId reason now cid state q with h | ⟨hrep, r₀, hf, h⟩
      · exact Or.inl ⟨r, by simp only [Op.apply, h]; exact hr, .same⟩
      · simp only [Op.apply, h]
        rcases updateFirst_keeps (f := failRecord reason now state) hf hr with hu | rfl
        · exact Or.inl ⟨r, hu, .same⟩
        · exact Or.inl ⟨_, updateFirst_found hf, .failed (List.find?_some hf) hrep⟩
  | markAccepted recordId order now cid provider =>
      rcases markAccepted_queue recordId order now cid provider q with h | ⟨r₀, r', hf, ha, h⟩
      · exact Or.inl ⟨r, by simp only [Op.apply, h]; exact hr, .same⟩
      · simp only [Op.apply, h]
        rcases updateFirst_keeps (f := fun r => (applyAccepted r order now provider).getD r)
          hf hr with hu | rfl
        · exact Or.inl ⟨r, hu, .same⟩
        · have hu := updateFirst_found (f := fun r => (applyAccepted r order now provider).getD r) hf
          rw [ha, Option.getD_some] at hu
          exact Or.inl ⟨r', hu, .accepted (List.find?_some hf) ha⟩
  | activate claimed qty now =>
      -- an activation drops the record when what is left is too small
      rcases activate_queue claimed qty now q with h | ⟨r₀, hf, hl, ⟨hsmall, h⟩ | ⟨hbig, h⟩⟩
      · exact Or.inl ⟨r, by simp only [Op.apply, h]; exact hr, .same⟩
      · simp only [Op.apply, h]
        rcases eraseP_keeps hf hr with hu | rfl
        · exact Or.inl ⟨r, hu, .same⟩
        · exact Or.inr (.resolved (List.find?_some hf) hl hsmall)
      · simp only [Op.apply, h]
        rcases updateFirst_keeps (f := activateRecord qty now) hf hr with hu | rfl
        · exact Or.inl ⟨r, hu, .same⟩
        · exact Or.inl ⟨_, updateFirst_found hf, .activated (List.find?_some hf) hl hbig⟩
  | consolidate =>
      rcases consolidate_keeps hr with h | h
      · exact Or.inl ⟨r, h, .same⟩
      · exact Or.inr (.evicted rfl h)
  | discardExpired cfg snapshots now =>
      obtain ⟨gone, hgone, h⟩ := discardExpired_queue cfg snapshots now q
      simp only [Op.apply, h]
      by_cases hg : gone r = true
      · exact Or.inr (.expired (hgone r hg))
      · exact Or.inl ⟨r, List.mem_filter.mpr ⟨hr, by simp [hg]⟩, .same⟩

/-- Every record of the new queue comes from one of the old queue, or is new. -/
theorem apply_mem (op : Op) {q : Queue} {r' : Record} (hr : r' ∈ op.apply q) :
    (∃ r ∈ q, Change op r r') ∨ Fresh op r' := by
  cases op with
  | enqueue cfg a ctx => exact enqueue_mem rfl hr
  | enqueueClaimed cfg a lease ctx =>
      rcases enqueueClaimed_eq cfg a lease ctx q with h | h
      · simp only [Op.apply, h] at hr
        exact Or.inl ⟨r', hr, .same⟩
      · simp only [Op.apply, h] at hr
        exact enqueue_mem rfl hr
  | claim ids now lease token =>
      refine Or.inl ?_
      rcases claim_queue ids now lease token q with h | h
      · simp only [Op.apply, h] at hr
        exact ⟨r', hr, .same⟩
      · simp only [Op.apply, h] at hr
        obtain ⟨r, hq, rfl⟩ := List.mem_map.mp hr
        refine ⟨r, hq, ?_⟩
        split
        · rename_i hc; exact .claimed hc
        · exact .same
  | beginClaimedSubmit snap now lease pid start =>
      refine Or.inl ?_
      rcases beginClaimedSubmit_cases snap now lease pid start q with h | ⟨st, r, rfl, hf, h⟩
      · simp only [Op.apply, h] at hr
        exact ⟨r', hr, .same⟩
      · simp only [Op.apply, h] at hr
        rcases mem_updateFirst hf hr with hu | rfl
        · exact ⟨r', hu, .same⟩
        · exact ⟨r, List.mem_of_find?_eq_some hf, .begun (List.find?_some hf)⟩
  | completeClaim claimed c =>
      refine Or.inl ?_
      rcases completeClaim_queue claimed c q with h | ⟨hrep, h⟩
      · simp only [Op.apply, h] at hr
        exact ⟨r', hr, .same⟩
      · simp only [Op.apply, h] at hr
        obtain ⟨r, hq, hc⟩ := List.mem_filterMap.mp hr
        by_cases hm : sameClaim claimed r = true
        · simp only [completeRecord, hm, if_true, Option.map_eq_some_iff] at hc
          obtain ⟨x, hx, rfl⟩ := hc
          exact ⟨r, hq, .completed hm hrep hx⟩
        · -- a record under another lease is passed over
          simp only [completeRecord, hm, Bool.false_eq_true, if_false, Option.some.injEq] at hc
          exact ⟨r, hq, hc ▸ .same⟩
  | markFailure recordId reason now cid state =>
      refine Or.inl ?_
      rcases markFailure_queue recordId reason now cid state q with h | ⟨hrep, r, hf, h⟩
      · simp only [Op.apply, h] at hr
        exact ⟨r', hr, .same⟩
      · simp only [Op.apply, h] at hr
        rcases mem_updateFirst hf hr with hu | rfl
        · exact ⟨r', hu, .same⟩
        · exact ⟨r, List.mem_of_find?_eq_some hf, .failed (List.find?_some hf) hrep⟩
  | markAccepted recordId order now cid provider =>
      refine Or.inl ?_
      rcases markAccepted_queue recordId order now cid provider q with h | ⟨r, x, hf, ha, h⟩
      · simp only [Op.apply, h] at hr
        exact ⟨r', hr, .same⟩
      · simp only [Op.apply, h] at hr
        rcases mem_updateFirst hf hr with hu | hu
        · exact ⟨r', hu, .same⟩
        · rw [ha, Option.getD_some] at hu
          exact ⟨r, List.mem_of_find?_eq_some hf, hu ▸ .accepted (List.find?_some hf) ha⟩
  | activate claimed qty now =>
      refine Or.inl ?_
      -- the rest of the intent is too small, or the record is made ready for it
      rcases activate_queue claimed qty now q with h | ⟨r, hf, hl, ⟨hsmall, h⟩ | ⟨hbig, h⟩⟩
      · simp only [Op.apply, h] at hr
        exact ⟨r', hr, .same⟩
      · simp only [Op.apply, h] at hr
        exact ⟨r', List.mem_of_mem_eraseP hr, .same⟩
      · simp only [Op.apply, h] at hr
        rcases mem_updateFirst hf hr with hu | rfl
        · exact ⟨r', hu, .same⟩
        · exact ⟨r, List.mem_of_find?_eq_some hf, .activated (List.find?_some hf) hl hbig⟩
  | consolidate => exact Or.inl ⟨r', (consolidate_sublist q).subset hr, .same⟩
  | discardExpired cfg snapshots now =>
      obtain ⟨gone, -, h⟩ := discardExpired_queue cfg snapshots now q
      simp only [Op.apply, h] at hr
      exact Or.inl ⟨r', List.mem_of_mem_filter hr, .same⟩

/-! ## Record IDs -/

theorem appendOrderHistory_id (r : Record) (t : ℚ) (st : Option OrderStatus) :
    (appendOrderHistory r t st).id = r.id := by
  unfold appendOrderHistory
  split
  · rfl
  · split_ifs <;> rfl

theorem applyAccepted_id {r r' : Record} {order : Option OrderPayload} {now : ℚ}
    {provider : Option String} (h : applyAccepted r order now provider = some r') :
    r'.id = r.id := by
  unfold applyAccepted at h
  split at h
  · cases h
  · rw [Option.some.injEq] at h
    rw [← h, appendOrderHistory_id]
    rfl

theorem retryTerminalRecord_id {r r' : Record} {st : Option OrderStatus} {now : ℚ}
    (h : retryTerminalRecord st now r = some r') : r'.id = r.id := by
  unfold retryTerminalRecord at h
  simp only at h
  split_ifs at h
  rw [Option.some.injEq] at h
  rw [← h]
  exact appendOrderHistory_id r now st

theorem applyOutcome_id {claimed r r' : Record} {c : CompleteArgs}
    (h : applyOutcome claimed c r = some r') : r'.id = r.id := by
  unfold applyOutcome at h
  split at h
  · cases h
  · rw [Option.some.injEq] at h; rw [← h]
  · split at h
    · rename_i ha
      rw [Option.some.injEq] at h
      rw [← h]
      exact applyAccepted_id ha
    · rw [Option.some.injEq] at h; rw [← h]; rfl
  · rw [Option.some.injEq] at h; rw [← h]
  · rw [Option.some.injEq] at h; rw [← h]
  · exact retryTerminalRecord_id h
  · rw [Option.some.injEq] at h; rw [← h]; rfl
  · rw [Option.some.injEq] at h; rw [← h]

theorem finishClaim_id (c : CompleteArgs) (r : Record) : (finishClaim c r).id = r.id := by
  unfold finishClaim dropClaim
  split
  · rfl
  · split_ifs <;> rfl

theorem failRecord_id (reason : Option String) (now : ℚ) (state : Option SubmissionState)
    (r : Record) : (failRecord reason now state r).id = r.id := by
  unfold failRecord
  simp only
  split
  · rfl
  · split_ifs <;> rfl

/-- No operation changes the ID of a record. -/
theorem Change.id_eq {op : Op} {r r' : Record} (h : Change op r r') : r'.id = r.id := by
  cases h with
  | same => rfl
  | refreshed => rfl
  | claimed => rfl
  | begun => rfl
  | completed _ _ ho => rw [finishClaim_id, applyOutcome_id ho]
  | failed => rw [failRecord_id]
  | accepted _ ha => exact applyAccepted_id ha
  | activated => rfl

/-- The IDs an operation issues. -/
def Op.issues (op : Op) : List String :=
  match op.enqueueCall with
  | some (_, _, ctx) => [ctx.recordId]
  | none => []

theorem newRecord_id (a : EnqueueArgs) (ctx : CallContext) (side : Side) :
    (newRecord a ctx side).id = ctx.recordId := by
  unfold newRecord
  simp only
  split <;> rfl

/-- The IDs after an operation: some of those from before, in order, and the issued one. -/
theorem apply_ids (op : Op) (q : Queue) :
    ((op.apply q).map Record.id).Sublist (q.map Record.id ++ op.issues) := by
  -- only an enqueue may add a record, under the ID it is given
  have henq : ∀ (cfg : Config) (a : EnqueueArgs) (ctx : CallContext),
      op.enqueueCall = some (cfg, a, ctx) →
      ((enqueue cfg a ctx q).2.map Record.id).Sublist (q.map Record.id ++ op.issues) := by
    intro cfg a ctx hop
    rcases enqueue_cases cfg a ctx q with h | ⟨side, -, existing, hsub, -, ⟨e, -, h⟩ | h⟩
    · rw [h]; exact List.sublist_append_left _ _
    · rw [h]
      exact (updateFirst_keys_sublist Record.id (f := dedupRefresh a) (fun _ => rfl) existing).trans
        ((hsub.map _).trans (List.sublist_append_left _ _))
    · rw [h, List.map_append, List.map_singleton, newRecord_id]
      have hi : op.issues = [ctx.recordId] := by simp [Op.issues, hop]
      rw [hi]
      exact (hsub.map _).append (List.Sublist.refl _)
  have hleft : ∀ {l : Queue}, (l.map Record.id).Sublist (q.map Record.id) →
      (l.map Record.id).Sublist (q.map Record.id ++ op.issues) :=
    fun h => h.trans (List.sublist_append_left _ _)
  cases op with
  | enqueue cfg a ctx => exact henq cfg a ctx rfl
  | enqueueClaimed cfg a lease ctx =>
      rcases enqueueClaimed_eq cfg a lease ctx q with h | h
      · simp only [Op.apply, h]; exact hleft (List.Sublist.refl _)
      · simp only [Op.apply, h]; exact henq cfg (claimedArgs cfg a lease) ctx rfl
  | claim ids now lease token =>
      rcases claim_queue ids now lease token q with h | h
      · simp only [Op.apply, h]; exact hleft (List.Sublist.refl _)
      · simp only [Op.apply, h]
        have hid : ∀ r : Record,
            (if claimable ids now r then claimRecord now lease token r else r).id = r.id := by
          intro r
          split_ifs <;> rfl
        refine hleft ?_
        rw [List.map_map]
        have hcongr : q.map (Record.id ∘ fun r =>
            if claimable ids now r then claimRecord now lease token r else r) = q.map Record.id :=
          List.map_congr_left (fun r _ => hid r)
        rw [hcongr]
  | beginClaimedSubmit snap now lease pid start =>
      rcases beginClaimedSubmit_cases snap now lease pid start q with h | ⟨st, r, rfl, hf, h⟩
      · simp only [Op.apply, h]; exact hleft (List.Sublist.refl _)
      · simp only [Op.apply, h]
        exact hleft (updateFirst_keys_sublist Record.id
          (f := beginRecord now lease pid st) (fun _ => rfl) q)
  | completeClaim claimed c =>
      rcases completeClaim_queue claimed c q with h | ⟨-, h⟩
      · simp only [Op.apply, h]; exact hleft (List.Sublist.refl _)
      · simp only [Op.apply, h]
        refine hleft (filterMap_keys_sublist Record.id ?_ q)
        intro r r' hr
        unfold completeRecord at hr
        split_ifs at hr
        · obtain ⟨x, hx, rfl⟩ := Option.map_eq_some_iff.mp hr
          rw [finishClaim_id, applyOutcome_id hx]
        · rw [Option.some.injEq] at hr; rw [hr]
  | markFailure recordId reason now cid state =>
      rcases markFailure_queue recordId reason now cid state q with h | ⟨-, r, -, h⟩
      · simp only [Op.apply, h]; exact hleft (List.Sublist.refl _)
      · simp only [Op.apply, h]
        exact hleft (updateFirst_keys_sublist Record.id (failRecord_id reason now state) q)
  | markAccepted recordId order now cid provider =>
      rcases markAccepted_queue recordId order now cid provider q with h | ⟨r, x, -, -, h⟩
      · simp only [Op.apply, h]; exact hleft (List.Sublist.refl _)
      · simp only [Op.apply, h]
        refine hleft (updateFirst_keys_sublist Record.id (fun r => ?_) q)
        cases ha : applyAccepted r order now provider with
        | none => rfl
        | some r' => exact applyAccepted_id ha
  | activate claimed qty now =>
      rcases activate_queue claimed qty now q with h | ⟨r, -, -, ⟨-, h⟩ | ⟨-, h⟩⟩
      · simp only [Op.apply, h]; exact hleft (List.Sublist.refl _)
      · simp only [Op.apply, h]; exact hleft (List.eraseP_sublist.map _)
      · simp only [Op.apply, h]
        exact hleft (updateFirst_keys_sublist Record.id
          (f := activateRecord qty now) (fun _ => rfl) q)
  | consolidate => exact hleft ((consolidate_sublist q).map _)
  | discardExpired cfg snapshots now =>
      obtain ⟨gone, -, h⟩ := discardExpired_queue cfg snapshots now q
      simp only [Op.apply, h]
      exact hleft (List.filter_sublist.map _)

theorem Fresh.id_mem {op : Op} {r : Record} (h : Fresh op r) : r.id ∈ op.issues := by
  cases h with
  | enqueued hop _ => simp [Op.issues, hop, newRecord_id]

/-- IDs stay unique when the issued one is new: the new ones are a sublist of the old ones
and of the issued one. -/
theorem apply_nodup {op : Op} {q : Queue} {issued : List String} (hn : (q.map Record.id).Nodup)
    (hq : ∀ r ∈ q, r.id ∈ issued) (hf : ∀ id ∈ op.issues, id ∉ issued) :
    ((op.apply q).map Record.id).Nodup := by
  refine List.Nodup.sublist (apply_ids op q) ?_
  refine List.Nodup.append hn ?_ ?_
  · unfold Op.issues
    split <;> simp
  · intro id hid hissue
    obtain ⟨r, hr, rfl⟩ := List.mem_map.mp hid
    exact hf r.id hissue (hq r hr)

/-- Every ID of the new queue was issued, before or by the operation. -/
theorem apply_issued {op : Op} {q : Queue} {issued : List String}
    (hq : ∀ r ∈ q, r.id ∈ issued) {r : Record} (hr : r ∈ op.apply q) :
    r.id ∈ op.issues ++ issued := by
  rcases apply_mem op hr with ⟨r₀, hr₀, hc⟩ | hfresh
  · rw [hc.id_eq]
    exact List.mem_append_right _ (hq r₀ hr₀)
  · exact List.mem_append_left _ hfresh.id_mem

/-! ## Operations addressed to one record -/

/-- The record an operation under a lease is addressed to. -/
def Op.target : Op → Option String
  | .beginClaimedSubmit snap _ _ _ _ => some snap.id
  | .completeClaim claimed _ => some claimed.id
  | .activate claimed _ _ => some claimed.id
  | _ => none

theorem Op.enqueueCall_of_target {op : Op} {x : String} (h : op.target = some x) :
    op.enqueueCall = none := by
  cases op with
  | enqueue => cases h
  | enqueueClaimed => cases h
  | _ => rfl

theorem Op.housekeeping_of_target {op : Op} {x : String} (h : op.target = some x) :
    op.housekeeping = false := by
  cases op with
  | enqueue => cases h
  | enqueueClaimed => cases h
  | consolidate => cases h
  | discardExpired => cases h
  | _ => rfl

theorem sameClaim_id {claimed r : Record} (h : sameClaim claimed r = true) :
    r.id = claimed.id := by
  simp only [sameClaim, Bool.and_eq_true, decide_eq_true_eq] at h
  exact h.1.1.1.1

theorem exactClaim_id {snap r : Record} (h : exactClaim snap r = true) : r.id = snap.id := by
  simp only [exactClaim, Bool.and_eq_true, decide_eq_true_eq] at h
  exact h.1.1.1.1

theorem activationMatch_id {claimed r : Record} (h : activationMatch claimed r = true) :
    r.id = claimed.id := by
  simp only [activationMatch, Bool.and_eq_true, decide_eq_true_eq] at h
  exact h.1.1

theorem Change.eq_of_other {op : Op} {r r' : Record} {x : String} (h : Change op r r')
    (ht : op.target = some x) (hx : r.id ≠ x) : r' = r := by
  cases h with
  | same => rfl
  | refreshed hop _ _ => rw [Op.enqueueCall_of_target ht] at hop; cases hop
  | claimed => cases ht
  | begun hm => cases ht; exact absurd (exactClaim_id hm) hx
  | completed hm _ _ => cases ht; exact absurd (sameClaim_id hm) hx
  | failed => cases ht
  | accepted => cases ht
  | activated hm _ _ => cases ht; exact absurd (activationMatch_id hm) hx

/-- Such an operation leaves every other record as it is. -/
theorem apply_elsewhere {o : Op} {q : Queue} {r : Record} {x : String}
    (ht : o.target = some x) (hr : r ∈ q) (hx : r.id ≠ x) : r ∈ o.apply q := by
  rcases apply_keeps o hr with ⟨r', hr', hc⟩ | hd
  · rw [hc.eq_of_other ht hx] at hr'
    exact hr'
  · cases hd with
    | evicted hk _ => rw [Op.housekeeping_of_target ht] at hk; cases hk
    | expired => cases ht
    | completed hm _ => cases ht; exact absurd (sameClaim_id hm) hx
    | resolved hm _ _ => cases ht; exact absurd (activationMatch_id hm) hx

/-- A completion does not raise when it knows the report and the deferral reason. -/
theorem completeClaim_ok (claimed : Record) {c : CompleteArgs} (q : Queue)
    (hrep : reportable c.submissionState = true)
    (hdef : c.outcome = .deferred → isNonFailureDeferral c.failureReason = true) :
    completeClaim claimed c q
      = .ok (q.any (sameClaim claimed), q.filterMap (completeRecord claimed c)) := by
  unfold completeClaim
  rw [if_neg, if_neg]
  · simp [hrep]
  · rintro ⟨ho, hn⟩
    rw [hdef ho] at hn
    cases hn

/-- What a completion that did not raise did. -/
theorem completeClaim_eq_of_ok {claimed : Record} {c : CompleteArgs} {q q' : Queue} {b : Bool}
    (h : completeClaim claimed c q = .ok (b, q')) :
    b = q.any (sameClaim claimed) ∧ q' = q.filterMap (completeRecord claimed c) := by
  unfold completeClaim at h
  split_ifs at h
  cases h
  exact ⟨rfl, rfl⟩

/-- A completion that matches no record leaves the queue as it is. -/
theorem completeClaim_unmatched {claimed : Record} (c : CompleteArgs) {q : Queue}
    (h : ∀ r ∈ q, sameClaim claimed r = false) : q.filterMap (completeRecord claimed c) = q := by
  refine filterMap_eq_self (fun r hr => ?_)
  simp [completeRecord, h r hr]

/-- An operation that issues no ID keeps IDs unique. -/
theorem apply_nodup_of_no_issue {o : Op} {q : Queue} (hi : o.issues = [])
    (hn : (q.map Record.id).Nodup) : ((o.apply q).map Record.id).Nodup := by
  have h := apply_ids o q
  rw [hi, List.append_nil] at h
  exact hn.sublist h

/-- The record an operation addressed it to is found by its ID. -/
theorem find_of_nodup {q : Queue} (hn : (q.map Record.id).Nodup) {p : Record → Bool} {x : String}
    (hp : ∀ r, p r = true → r.id = x) {r : Record} (hr : r ∈ q) (hm : p r = true) :
    q.find? p = some r := by
  obtain ⟨r₀, hr₀⟩ := Option.isSome_iff_exists.mp (List.find?_isSome.mpr ⟨r, hr, hm⟩)
  have heq : r₀ = r := eq_of_key_eq hn (List.mem_of_find?_eq_some hr₀) hr
    ((hp r₀ (List.find?_some hr₀)).trans (hp r hm).symm)
  rw [hr₀, heq]

/-! ## A sample order -/

/-- A producer persists and leases a sell order. -/
def sampleEnqueue : Op :=
  .enqueueClaimed Config.repository
    { symbol := "BTCUSDC", side := "SELL", qty := 2, requestedPrice := some 100, now := 10 }
    none ⟨"a1", "t1", 7, some "boot-7"⟩

/-- The snapshot the producer gets back. -/
def sampleSnapshot : Record :=
  { id := "a1", intentId := "outbox-a1", providerName := none, symbol := "BTCUSDC",
    side := .sell, kind := none, qty := 2, requestedQtyTotal := 2, deliveredQty := 0,
    placeKwargs := [("client_order_id", some "OR_a1_0")], requestedPrice := some 100,
    refPrice := none, createdTs := 10, attempts := 0, lastAttemptTs := 0,
    lastFailureReason := none, ttlStartedTs := 10, revision := 0, lifecycle := .submitPending,
    claimToken := some "t1", claimUntil := some 430, claimRevision := some 0,
    submissionState := some .producerClaimed, producerPid := some 7,
    producerProcessStartId := some "boot-7" }

end TradingFleet.Outbox
