import Mathlib.Algebra.Order.BigOperators.Group.List
import Mathlib.Logic.Function.Basic
import Mathlib.Tactic.Linarith
import TradingFleet.Basic.Runs
import TradingFleet.Outbox.Effects

set_option autoImplicit false

/-! # Quantity is conserved across retries

A record carries the quantity it was asked for, the part terminal orders delivered, and the
part that is still to be traded. This file keeps books beside the queue: what the terminal
statuses of one record reported as unfilled, and what was submitted again because of them.
The invariant is that every record balances (`Balanced`) and that a reissued revision that
is not submitted yet is covered by what was reported (`Book.Inv`).
-/

namespace TradingFleet.Outbox

open TradingFleet.Keyed TradingFleet.Runs

/-! ## Books -/

/-- The quantity the worker asks the replacement of a canceled order to carry. -/
def replacementQty (r : Record) (st : OrderStatus) : ℚ :=
  match r.replacesOriginalQty with
  | none => -1
  | some original => max 0 (original - st.filledQty)

/-- One record's account. `opened` is the revision a terminal status opened and nobody has
submitted yet; a revision has one client order ID, so it counts once. -/
structure Account where
  unfilled : ℚ
  again : ℚ
  opened : Option Nat

def Account.empty : Account := ⟨0, 0, none⟩

/-- A terminal status left `qty` unfilled and opened `revision` for it. -/
def Account.report (a : Account) (qty : ℚ) (revision : Nat) : Account :=
  { a with unfilled := a.unfilled + qty, opened := some revision }

/-- The record goes to its venue. -/
def Account.submit (a : Account) (r : Record) : Account :=
  if a.opened = some r.revision then { a with again := a.again + r.qty, opened := none } else a

/-- What happens to the queue: an outbox operation, or the worker's activation of a
replacement after it read the status of the replaced order. -/
inductive Action where
  | op (op : Op)
  | replace (claimed : Record) (st : OrderStatus) (now : ℚ)

def Action.toOp : Action → Op
  | .op o => o
  | .replace claimed st now => .activate claimed (replacementQty claimed st) now

/-- The snapshots a `claim` returns. -/
def Op.leased (op : Op) (q : Queue) : List Record :=
  match op with
  | .claim ids now lease token =>
      match Outbox.claim ids now lease token q with
      | .ok (claimed, _) => claimed
      | .error _ => []
  | _ => []

/-- The record whose account an action touches, with the new account. -/
def Action.entry (a : Action) (q : Queue) (acct : String → Account) :
    Option (String × Account) :=
  match a with
  | .op (.completeClaim claimed c) =>
      if c.outcome = .retryTerminal ∧ reportable c.submissionState = true then
        (q.find? (sameClaim claimed)).map (fun r =>
          (r.id, (acct r.id).report (max 0 (r.qty - statusFilled c.status)) (r.revision + 1)))
      else none
  | .op (.beginClaimedSubmit snap now lease pid start) =>
      (Outbox.beginClaimedSubmit snap now lease pid start q).1.map (fun r =>
        (r.id, (acct r.id).submit r))
  | .replace claimed st now =>
      if (activateClaimedReplacement claimed (replacementQty claimed st) now q).1
          = some .activated then
        (q.find? (activationMatch claimed)).map (fun r =>
          (r.id, (acct r.id).report (replacementQty r st) r.revision))
      else none
  | _ => none

structure Book where
  queue : Queue
  issued : List String
  held : List Record
  account : String → Account

def Book.step (b : Book) (a : Action) : Book where
  queue := a.toOp.apply b.queue
  issued := a.toOp.issues ++ b.issued
  held := a.toOp.leased b.queue ++ b.held
  account :=
    match a.entry b.queue b.account with
    | none => b.account
    | some (id, acc) => Function.update b.account id acc

/-- IDs are fresh, and a replacement is activated by the worker, which holds the snapshot
that `claim` returned. -/
structure Action.Allowed (a : Action) (b : Book) : Prop where
  fresh : ∀ id ∈ a.toOp.issues, id ∉ b.issued
  worker : ∀ claimed qty now, a ≠ .op (.activate claimed qty now)
  held : ∀ claimed st now, a = .replace claimed st now → claimed ∈ b.held

def Book.Initial (b : Book) : Prop :=
  b.queue = [] ∧ b.issued = [] ∧ b.held = [] ∧ ∀ id, b.account id = Account.empty

def Book.Next (b : Book) (a : Action) (b' : Book) : Prop := a.Allowed b ∧ b' = b.step a

abbrev Book.Reachable : Book → Prop := Reach Book.Initial Book.Next

/-! ## What an operation does to the quantities -/

/-- The quantities of a record, unchanged. -/
structure SameQuantities (r r' : Record) : Prop where
  qty : r'.qty = r.qty
  delivered : r'.deliveredQty = r.deliveredQty
  requested : r'.requestedQtyTotal = r.requestedQtyTotal
  revision : r'.revision = r.revision
  original : r'.replacesOriginalQty = r.replacesOriginalQty
  awaiting : r'.lifecycle = .awaitingCancel → r.lifecycle = .awaitingCancel

theorem SameQuantities.refl (r : Record) : SameQuantities r r := ⟨rfl, rfl, rfl, rfl, rfl, id⟩

theorem SameQuantities.trans {r r' r'' : Record} (h : SameQuantities r r')
    (h' : SameQuantities r' r'') : SameQuantities r r'' where
  qty := h'.qty.trans h.qty
  delivered := h'.delivered.trans h.delivered
  requested := h'.requested.trans h.requested
  revision := h'.revision.trans h.revision
  original := h'.original.trans h.original
  awaiting := fun ha => h.awaiting (h'.awaiting ha)

theorem appendOrderHistory_quantities (r : Record) (t : ℚ) (st : Option OrderStatus) :
    SameQuantities r (appendOrderHistory r t st) := by
  unfold appendOrderHistory
  split
  · exact .refl r
  · split_ifs
    · exact .refl r
    · exact ⟨rfl, rfl, rfl, rfl, rfl, id⟩

theorem applyAccepted_quantities {r r' : Record} {order : Option OrderPayload} {now : ℚ}
    {provider : Option String} (h : applyAccepted r order now provider = some r') :
    SameQuantities r r' := by
  unfold applyAccepted at h
  split at h
  · cases h
  · rw [Option.some.injEq] at h
    rw [← h]
    refine SameQuantities.trans ?_ (appendOrderHistory_quantities _ now none)
    exact ⟨rfl, rfl, rfl, rfl, rfl, fun ha => by cases ha⟩

theorem failRecord_quantities (reason : Option String) (now : ℚ)
    (state : Option SubmissionState) (r : Record) :
    SameQuantities r (failRecord reason now state r) := by
  unfold failRecord
  simp only
  split
  · exact ⟨rfl, rfl, rfl, rfl, rfl, id⟩
  · split_ifs <;> exact ⟨rfl, rfl, rfl, rfl, rfl, id⟩

theorem finishClaim_quantities (c : CompleteArgs) (r : Record) :
    SameQuantities r (finishClaim c r) := by
  unfold finishClaim dropClaim
  split
  · exact ⟨rfl, rfl, rfl, rfl, rfl, id⟩
  · split_ifs <;> exact ⟨rfl, rfl, rfl, rfl, rfl, id⟩

theorem applyOutcome_quantities {claimed r r' : Record} {c : CompleteArgs}
    (hc : c.outcome ≠ .retryTerminal) (h : applyOutcome claimed c r = some r') :
    SameQuantities r r' := by
  unfold applyOutcome at h
  split at h
  · cases h
  · rw [Option.some.injEq] at h; rw [← h]; exact .refl r
  · split at h
    · rename_i ha
      rw [Option.some.injEq] at h
      rw [← h]
      exact SameQuantities.trans ⟨rfl, rfl, rfl, rfl, rfl, id⟩ (applyAccepted_quantities ha)
    · rw [Option.some.injEq] at h; rw [← h]; exact ⟨rfl, rfl, rfl, rfl, rfl, id⟩
  · rw [Option.some.injEq] at h; rw [← h]; exact ⟨rfl, rfl, rfl, rfl, rfl, id⟩
  · rw [Option.some.injEq] at h; rw [← h]; exact ⟨rfl, rfl, rfl, rfl, rfl, id⟩
  · rename_i ho; exact absurd ho hc
  · rw [Option.some.injEq] at h; rw [← h]; exact ⟨rfl, rfl, rfl, rfl, rfl, id⟩
  · rw [Option.some.injEq] at h; rw [← h]; exact ⟨rfl, rfl, rfl, rfl, rfl, id⟩

/-- A terminal retry moves the filled part, at most all of it, from `qty` to `deliveredQty`. -/
structure Retried (st : Option OrderStatus) (r r' : Record) : Prop where
  qty : r'.qty = r.qty - min r.qty (statusFilled st)
  remaining : r'.qty = max 0 (r.qty - statusFilled st)
  positive : 0 < r'.qty
  delivered : r'.deliveredQty = r.deliveredQty + min r.qty (statusFilled st)
  requested : r'.requestedQtyTotal = r.requestedQtyTotal
  revision : r'.revision = r.revision + 1
  original : r'.replacesOriginalQty = r.replacesOriginalQty
  pending : r'.lifecycle = .submitPending

theorem statusFilled_nonneg (st : Option OrderStatus) : 0 ≤ statusFilled st := by
  cases st with
  | none => exact le_refl 0
  | some st => exact st.filledQty_nonneg

theorem qtyTolerance_pos (x : ℚ) : 0 < qtyTolerance x :=
  lt_of_lt_of_le (by norm_num) (le_max_left _ _)

theorem retryTerminalRecord_retried {r r' : Record} {st : Option OrderStatus} {now : ℚ}
    (h : retryTerminalRecord st now r = some r') : Retried st r r' := by
  have hlog := appendOrderHistory_quantities r now st
  have hfill : max 0 (statusFilled st) = statusFilled st := max_eq_right (statusFilled_nonneg st)
  have hsplit : max 0 (r.qty - statusFilled st) = r.qty - min r.qty (statusFilled st) := by
    rcases le_total r.qty (statusFilled st) with hle | hle
    · rw [min_eq_left hle, max_eq_left (by linarith), sub_self]
    · rw [min_eq_right hle, max_eq_right (by linarith)]
  unfold retryTerminalRecord at h
  simp only [hfill] at h
  split_ifs at h with hrem
  rw [Option.some.injEq] at h
  rw [← h]
  have hpos : 0 < max 0 (r.qty - statusFilled st) :=
    lt_trans (qtyTolerance_pos r.qty) (not_le.mp hrem)
  exact ⟨hsplit, rfl, hpos, rfl, hlog.requested, rfl, hlog.original, rfl⟩

/-- Finishing the claim keeps what a terminal retry did. -/
theorem finishClaim_retried {claimed r x : Record} {c : CompleteArgs}
    (hc : c.outcome = .retryTerminal) (ho : applyOutcome claimed c r = some x) :
    Retried c.status r (finishClaim c x) := by
  have hx : retryTerminalRecord c.status c.now r = some x := by
    simpa [applyOutcome, hc] using ho
  have hlife : (finishClaim c x).lifecycle = x.lifecycle := by
    unfold finishClaim dropClaim
    split
    · rfl
    · rw [if_pos hc]; rfl
  have h := retryTerminalRecord_retried hx
  have hfin := finishClaim_quantities c x
  exact ⟨hfin.qty.trans h.qty, hfin.qty.trans h.remaining, hfin.qty ▸ h.positive,
    hfin.delivered.trans h.delivered, hfin.requested.trans h.requested,
    hfin.revision.trans h.revision, hfin.original.trans h.original, hlife.trans h.pending⟩

/-- **The four things an operation does to the quantities of a record that stays.** -/
theorem Change.quantities {op : Op} {r r' : Record} (h : Change op r r') :
    SameQuantities r r' ∨
    (∃ cfg a ctx, op.enqueueCall = some (cfg, a, ctx) ∧ 0 < a.qty ∧
      safeToEvictForCapacity r = true ∧ r' = dedupRefresh a r) ∨
    (∃ claimed c, op = .completeClaim claimed c ∧ c.outcome = .retryTerminal ∧
      sameClaim claimed r = true ∧ reportable c.submissionState = true ∧
      Retried c.status r r') ∨
    (∃ claimed qty now, op = .activate claimed qty now ∧ activationMatch claimed r = true ∧
      r.lifecycle = .awaitingCancel ∧ qtyTolerance r.qty < qty ∧ r' = activateRecord qty now r) := by
  cases h with
  | same => exact Or.inl (.refl r)
  | @refreshed _ cfg a ctx _ hop hq he =>
      exact Or.inr (Or.inl ⟨cfg, a, ctx, hop, hq, he, rfl⟩)
  | claimed => exact Or.inl ⟨rfl, rfl, rfl, rfl, rfl, id⟩
  | begun => exact Or.inl ⟨rfl, rfl, rfl, rfl, rfl, id⟩
  | @completed claimed c _ x hm hrep ho =>
      by_cases hc : c.outcome = .retryTerminal
      · exact Or.inr (Or.inr (Or.inl ⟨claimed, c, rfl, hc, hm, hrep,
          finishClaim_retried hc ho⟩))
      · exact Or.inl ((applyOutcome_quantities hc ho).trans (finishClaim_quantities c x))
  | failed => exact Or.inl (failRecord_quantities _ _ _ r)
  | accepted _ ha => exact Or.inl (applyAccepted_quantities ha)
  | @activated claimed qty now _ hm hl hq =>
      exact Or.inr (Or.inr (Or.inr ⟨claimed, qty, now, rfl, hm, hl, hq, rfl⟩))

/-- No operation changes the quantity of the order a replacement waits for. -/
theorem Change.original {op : Op} {r r' : Record} (h : Change op r r') :
    r'.replacesOriginalQty = r.replacesOriginalQty := by
  rcases h.quantities with hs | ⟨_, a, _, -, -, -, rfl⟩ | ⟨_, c, -, -, -, -, hr⟩ |
    ⟨_, qty, now, -, -, -, -, rfl⟩
  · exact hs.original
  · rfl
  · exact hr.original
  · rfl

/-! ## Every record balances -/

/-- What was asked for is what was delivered and what is still to be traded; a replacement
that waits for its cancel has delivered nothing and knows the quantity of its order. -/
structure Balanced (r : Record) : Prop where
  total : r.requestedQtyTotal = r.deliveredQty + r.qty
  positive : 0 < r.qty
  awaiting : r.lifecycle = .awaitingCancel →
    r.deliveredQty = 0 ∧ ∃ original, r.replacesOriginalQty = some original ∧ 0 < original

theorem delivered_zero_of_evictable {r : Record} (h : safeToEvictForCapacity r = true) :
    r.deliveredQty = 0 := by
  by_contra hne
  have hev : hasPriorVenueEvidence r = true := by simp [hasPriorVenueEvidence, hne]
  simp [safeToEvictForCapacity, hev] at h

theorem Change.balanced {op : Op} {r r' : Record} (h : Change op r r') (hb : Balanced r) :
    Balanced r' := by
  rcases h.quantities with hs | ⟨_, a, _, -, hq, he, rfl⟩ |
    ⟨claimed, c, -, -, -, -, hr⟩ | ⟨claimed, qty, now, -, -, hl, hq, rfl⟩
  · refine ⟨?_, hs.qty ▸ hb.positive, fun ha => ?_⟩
    · rw [hs.requested, hs.delivered, hs.qty, hb.total]
    · rw [hs.delivered, hs.original]
      exact hb.awaiting (hs.awaiting ha)
  · -- only a record without any venue evidence is refreshed, and it has delivered nothing
    have hz : r.deliveredQty = 0 := delivered_zero_of_evictable he
    refine ⟨?_, hq, fun ha => by cases ha⟩
    show a.qty = r.deliveredQty + a.qty
    rw [hz, zero_add]
  · refine ⟨?_, hr.positive, fun ha => by rw [hr.pending] at ha; cases ha⟩
    rw [hr.requested, hr.delivered, hr.qty, hb.total]
    linarith
  · have hz : r.deliveredQty = 0 := (hb.awaiting hl).1
    refine ⟨?_, lt_trans (qtyTolerance_pos r.qty) hq, fun ha => by cases ha⟩
    show qty = r.deliveredQty + qty
    rw [hz, zero_add]

theorem newRecord_balanced {cfg : Config} {a : EnqueueArgs} {ctx : CallContext} {side : Side}
    (h : enqueueSide cfg a ctx = some side) : Balanced (newRecord a ctx side) := by
  have hq := enqueueSide_qty_pos h
  have hargs : lifecycleArgsOk a = true := by
    unfold enqueueSide at h
    split at h
    · rename_i hg
      simp only [Bool.and_eq_true] at hg
      exact hg.1.1.1.2
    · cases h
  have hrec : (newRecord a ctx side).qty = a.qty ∧ (newRecord a ctx side).requestedQtyTotal = a.qty ∧
      (newRecord a ctx side).deliveredQty = 0 ∧ (newRecord a ctx side).lifecycle = a.lifecycle ∧
      (newRecord a ctx side).replacesOriginalQty
        = if a.lifecycle = .awaitingCancel then a.replacesOriginalQty else none := by
    unfold newRecord
    simp only
    split <;> exact ⟨rfl, rfl, rfl, rfl, rfl⟩
  obtain ⟨hqty, hreq, hdel, hlife, horig⟩ := hrec
  refine ⟨by rw [hreq, hdel, hqty, zero_add], hqty ▸ hq, fun ha => ⟨hdel, ?_⟩⟩
  rw [hlife] at ha
  rw [horig, if_pos ha]
  unfold lifecycleArgsOk at hargs
  rw [ha] at hargs
  simp only [Bool.and_eq_true] at hargs
  cases ho : a.replacesOriginalQty with
  | none => rw [ho] at hargs; cases hargs.2
  | some original =>
      rw [ho] at hargs
      exact ⟨original, rfl, by simpa using hargs.2⟩

/-! ## The books cover what is submitted again -/

/-- An opened revision is not ahead of its record, and while it is the current one its
quantity is covered by what was reported unfilled. -/
def Account.Covers (a : Account) (r : Record) : Prop :=
  ∀ k, a.opened = some k → k ≤ r.revision ∧ (k = r.revision → a.again + r.qty ≤ a.unfilled)

structure Book.Inv (b : Book) : Prop where
  nodup : (b.queue.map Record.id).Nodup
  issued : ∀ r ∈ b.queue, r.id ∈ b.issued
  heldIssued : ∀ h ∈ b.held, h.id ∈ b.issued
  heldOriginal : ∀ h ∈ b.held, ∀ r ∈ b.queue, r.id = h.id →
    r.replacesOriginalQty = h.replacesOriginalQty
  balanced : ∀ r ∈ b.queue, Balanced r
  unopened : ∀ id, id ∉ b.issued → (b.account id).opened = none
  covers : ∀ r ∈ b.queue, (b.account r.id).Covers r
  bounded : ∀ id, (b.account id).again ≤ (b.account id).unfilled

/-- The three actions that touch an account. -/
theorem Action.entry_cases {a : Action} {q : Queue} {acct : String → Account} {id : String}
    {acc : Account} (h : a.entry q acct = some (id, acc)) :
    (∃ claimed c r, a = .op (.completeClaim claimed c) ∧ c.outcome = .retryTerminal ∧
      reportable c.submissionState = true ∧ q.find? (sameClaim claimed) = some r ∧ r.id = id ∧
      acc = (acct id).report (max 0 (r.qty - statusFilled c.status)) (r.revision + 1)) ∨
    (∃ snap now lease pid start r, a = .op (.beginClaimedSubmit snap now lease pid start) ∧
      r ∈ q ∧ r.id = id ∧ acc = (acct id).submit r) ∨
    (∃ claimed st now r, a = .replace claimed st now ∧
      (activateClaimedReplacement claimed (replacementQty claimed st) now q).1
        = some .activated ∧
      q.find? (activationMatch claimed) = some r ∧ r.id = id ∧
      acc = (acct id).report (replacementQty r st) r.revision) := by
  unfold Action.entry at h
  split at h
  · rename_i claimed c
    split_ifs at h with hc
    obtain ⟨r, hf, hr⟩ := Option.map_eq_some_iff.mp h
    cases hr
    exact Or.inl ⟨claimed, c, r, rfl, hc.1, hc.2, hf, rfl, rfl⟩
  · rename_i snap now lease pid start
    obtain ⟨r, hb, hr⟩ := Option.map_eq_some_iff.mp h
    cases hr
    rcases beginClaimedSubmit_cases snap now lease pid start q with hn | ⟨st, r₀, rfl, hf, hs⟩
    · rw [hn] at hb; cases hb
    · rw [hs] at hb
      cases hb
      exact Or.inr (Or.inl ⟨snap, now, lease, pid, _, r₀, rfl, List.mem_of_find?_eq_some hf,
        rfl, rfl⟩)
  · rename_i claimed st now
    split_ifs at h with hact
    obtain ⟨r, hf, hr⟩ := Option.map_eq_some_iff.mp h
    cases hr
    exact Or.inr (Or.inr ⟨claimed, st, now, r, rfl, hact, hf, rfl, rfl⟩)
  · cases h

/-- Only accounts of queued records are touched. -/
theorem Action.entry_mem {a : Action} {q : Queue} {acct : String → Account} {id : String}
    {acc : Account} (h : a.entry q acct = some (id, acc)) : ∃ r ∈ q, r.id = id := by
  rcases Action.entry_cases h with ⟨_, _, r, -, -, -, hf, hid, -⟩ | ⟨_, _, _, _, _, r, -, hr, hid, -⟩ |
    ⟨_, _, _, r, -, -, hf, hid, -⟩
  · exact ⟨r, List.mem_of_find?_eq_some hf, hid⟩
  · exact ⟨r, hr, hid⟩
  · exact ⟨r, List.mem_of_find?_eq_some hf, hid⟩

theorem Book.step_account_of_entry {b : Book} {a : Action} {id : String} {acc : Account}
    (h : a.entry b.queue b.account = some (id, acc)) : (b.step a).account id = acc := by
  simp only [Book.step, h, Function.update_self]

theorem Book.step_account_of_no_entry {b : Book} {a : Action} {id : String}
    (h : ∀ acc, a.entry b.queue b.account ≠ some (id, acc)) :
    (b.step a).account id = b.account id := by
  cases he : a.entry b.queue b.account with
  | none => simp only [Book.step, he]
  | some e =>
      obtain ⟨id', acc⟩ := e
      have hne : id ≠ id' := by
        intro heq
        exact h acc (by rw [he, heq])
      simp only [Book.step, he, Function.update_of_ne hne]

section Touched

variable {q : Queue} (hn : (q.map Record.id).Nodup)
include hn

theorem find_sameClaim {claimed r : Record} (hr : r ∈ q) (hm : sameClaim claimed r = true) :
    q.find? (sameClaim claimed) = some r :=
  find_of_nodup hn (fun _ => sameClaim_id) hr hm

theorem find_activationMatch {claimed r : Record} (hr : r ∈ q)
    (hm : activationMatch claimed r = true) : q.find? (activationMatch claimed) = some r :=
  find_of_nodup hn (fun _ => activationMatch_id) hr hm

/-- The record a terminal retry matched is the retried one afterwards, if it is there. -/
theorem retried_after {claimed r r' : Record} {c : CompleteArgs} (hr : r ∈ q)
    (hm : sameClaim claimed r = true) (hc : c.outcome = .retryTerminal)
    (hr' : r' ∈ q.filterMap (completeRecord claimed c)) (hid : r'.id = r.id) :
    Retried c.status r r' := by
  obtain ⟨r₁, hr₁, hcr⟩ := List.mem_filterMap.mp hr'
  have hid₁ : r'.id = r₁.id := by
    unfold completeRecord at hcr
    split_ifs at hcr
    · obtain ⟨x, hx, rfl⟩ := Option.map_eq_some_iff.mp hcr
      rw [finishClaim_id, applyOutcome_id hx]
    · rw [Option.some.injEq] at hcr; rw [hcr]
  have heq : r₁ = r := eq_of_key_eq hn hr₁ hr (hid₁.symm.trans hid)
  subst heq
  simp only [completeRecord, hm, if_true, Option.map_eq_some_iff] at hcr
  obtain ⟨x, hx, rfl⟩ := hcr
  exact finishClaim_retried hc hx

/-- The record an activation matched is the activated one afterwards. -/
theorem activated_after {claimed r r' : Record} {qty now : ℚ} (hr : r ∈ q)
    (hm : activationMatch claimed r = true)
    (hact : (activateClaimedReplacement claimed qty now q).1 = some .activated)
    (hr' : r' ∈ (activateClaimedReplacement claimed qty now q).2) (hid : r'.id = r.id) :
    r.lifecycle = .awaitingCancel ∧ qtyTolerance r.qty < qty ∧ r' = activateRecord qty now r := by
  have hf := find_activationMatch hn hr hm
  rcases activate_queue claimed qty now q with h | ⟨r₀, hf₀, hl, ⟨-, h⟩ | ⟨hq, h⟩⟩
  · rw [h] at hact; cases hact
  · rw [h] at hact; cases hact
  · have heq : r₀ = r := by
      rw [hf] at hf₀
      exact (Option.some.inj hf₀).symm
    subst heq
    refine ⟨hl, hq, ?_⟩
    rw [h] at hr'
    have hmem : activateRecord qty now r₀
        ∈ updateFirst (activationMatch claimed) (activateRecord qty now) q := updateFirst_found hf
    have hnd : ((updateFirst (activationMatch claimed) (activateRecord qty now) q).map
        Record.id).Nodup := by
      rw [map_updateFirst Record.id (f := activateRecord qty now) (fun _ => rfl)]
      exact hn
    exact eq_of_key_eq hnd hr' hmem hid

/-- A terminal retry or an activation that changed a record is in the books under its ID. -/
theorem entry_of_change {a : Action} (acct : String → Account) {b : Book} (ha : a.Allowed b)
    {r r' : Record} (hr : r ∈ q) (hr' : r' ∈ a.toOp.apply q) (hc : Change a.toOp r r') :
    SameQuantities r r' ∨
      (∃ args, r' = dedupRefresh args r) ∨ ∃ acc, a.entry q acct = some (r.id, acc) := by
  rcases hc.quantities with hs | ⟨_, args, _, -, -, -, he⟩ | ⟨claimed, c, hop, hct, hm, hrep, -⟩ |
    ⟨claimed, qty, now, hop, hm, hl, -, rfl⟩
  · exact Or.inl hs
  · exact Or.inr (Or.inl ⟨args, he⟩)
  · have ha' : a = .op (.completeClaim claimed c) := by
      cases a with
      | op o => rw [← hop]; rfl
      | replace => cases hop
    refine Or.inr (Or.inr ⟨(acct r.id).report (max 0 (r.qty - statusFilled c.status))
      (r.revision + 1), ?_⟩)
    rw [ha']
    simp only [Action.entry, hct, hrep, and_self, if_true, find_sameClaim hn hr hm,
      Option.map_some]
  · cases a with
    | op o => exact absurd (congrArg Action.op hop) (ha.worker claimed qty now)
    | replace claimed' st now' =>
        cases hop
        have hf := find_activationMatch hn hr hm
        -- an activated record was not in the queue before, so the queue was rewritten
        have hnew : activateRecord (replacementQty claimed st) now r ∉ q := by
          intro hold
          have heq := eq_of_key_eq hn hold hr rfl
          rw [← heq] at hl
          cases hl
        have hact : (activateClaimedReplacement claimed (replacementQty claimed st) now q).1
            = some .activated := by
          simp only [Action.toOp, Op.apply] at hr'
          rcases activate_queue claimed (replacementQty claimed st) now q with
            h | ⟨r₀, -, -, ⟨-, h⟩ | ⟨-, h⟩⟩
          · rw [h] at hr'; exact absurd hr' hnew
          · rw [h] at hr'; exact absurd (List.mem_of_mem_eraseP hr') hnew
          · rw [h]
        refine Or.inr (Or.inr ⟨(acct r.id).report (replacementQty r st) r.revision, ?_⟩)
        simp only [Action.entry, hact, if_true, hf, Option.map_some]

end Touched

theorem Account.Covers.of_same {a : Account} {r r' : Record} (h : a.Covers r)
    (hs : SameQuantities r r') : a.Covers r' := by
  intro k hk
  rw [hs.revision, hs.qty]
  exact h k hk

/-- A refreshed record has left the opened revision behind. -/
theorem Account.Covers.of_refresh {a : Account} {r : Record} (h : a.Covers r)
    (args : EnqueueArgs) : a.Covers (dedupRefresh args r) := by
  intro k hk
  have hle : k ≤ r.revision := (h k hk).1
  have hrev : (dedupRefresh args r).revision = r.revision + 1 := rfl
  rw [hrev]
  exact ⟨by omega, fun he => by omega⟩

theorem Account.submit_covers {a : Account} {r : Record} (h : a.Covers r) :
    (a.submit r).Covers r := by
  unfold Account.submit
  split_ifs with ho
  · intro k hk; cases hk
  · exact h

theorem Account.report_covers {a : Account} {r : Record} {qty : ℚ} {k : Nat}
    (hb : a.again ≤ a.unfilled) (hk : k = r.revision) (hq : r.qty = qty) :
    (a.report qty k).Covers r := by
  intro k' hk'
  simp only [Account.report, Option.some.injEq] at hk'
  subst hk'
  refine ⟨le_of_eq hk, fun _ => ?_⟩
  simp only [Account.report, hq]
  linarith

/-- The worker's snapshot and the record it was taken from ask for the same replacement. -/
theorem replacementQty_congr {r h : Record} {st : OrderStatus}
    (heq : r.replacesOriginalQty = h.replacesOriginalQty) :
    replacementQty r st = replacementQty h st := by
  unfold replacementQty
  rw [heq]

theorem awaiting_of_activated {q : Queue} {claimed r : Record} {qty now : ℚ}
    (hf : q.find? (activationMatch claimed) = some r)
    (hact : (activateClaimedReplacement claimed qty now q).1 = some .activated) :
    r.lifecycle = .awaitingCancel := by
  rcases activate_queue claimed qty now q with h | ⟨r₀, hf₀, hl, -⟩
  · rw [h] at hact; cases hact
  · rw [hf, Option.some.injEq] at hf₀
    rw [hf₀]
    exact hl

/-- A leased snapshot is of a queued record. -/
theorem Op.leased_mem {op : Op} {q : Queue} {h : Record} (hh : h ∈ op.leased q) :
    ∃ r ∈ q, r.id = h.id ∧ r.replacesOriginalQty = h.replacesOriginalQty := by
  cases op with
  | claim ids now lease token =>
      simp only [Op.leased, Outbox.claim] at hh
      split_ifs at hh with h1 h2
      · cases hh
      · cases hh
      · obtain ⟨r, hr, rfl⟩ := List.mem_map.mp hh
        exact ⟨r, List.mem_of_mem_filter hr, rfl, rfl⟩
  | _ => cases hh

namespace Book.Inv

variable {b : Book} {a : Action} (hi : b.Inv) (ha : a.Allowed b)
include hi ha

/-- A touched account covers its record after the action. -/
theorem entry_covers {r r' : Record} {acc : Account} (hr : r ∈ b.queue)
    (hr' : r' ∈ (b.step a).queue) (hc : Change a.toOp r r')
    (he : a.entry b.queue b.account = some (r.id, acc)) : acc.Covers r' := by
  have hid : r'.id = r.id := hc.id_eq
  rcases Action.entry_cases he with ⟨claimed, c, r₀, rfl, hct, hrep, hf, hid₀, rfl⟩ |
    ⟨snap, now, lease, pid, start, r₀, rfl, hr₀, hid₀, rfl⟩ |
    ⟨claimed, st, now, r₀, rfl, hact, hf, hid₀, rfl⟩
  · have heq : r₀ = r := eq_of_key_eq hi.nodup (List.mem_of_find?_eq_some hf) hr hid₀
    subst heq
    have hq : (b.step (.op (.completeClaim claimed c))).queue
        = b.queue.filterMap (completeRecord claimed c) := by
      simp [Book.step, Action.toOp, Op.apply, completeClaim, hct, hrep, queueAfter]
    rw [hq] at hr'
    have hret := retried_after hi.nodup hr (List.find?_some hf) hct hr' hid
    exact Account.report_covers (hi.bounded r₀.id) hret.revision.symm hret.remaining
  · have heq : r₀ = r := eq_of_key_eq hi.nodup hr₀ hr hid₀
    subst heq
    rcases hc.quantities with hs | ⟨_, _, _, hop, -⟩ | ⟨_, _, hop, -⟩ | ⟨_, _, _, hop, -⟩
    · exact (Account.submit_covers (hi.covers r₀ hr)).of_same hs
    · cases hop
    · cases hop
    · cases hop
  · have heq : r₀ = r := eq_of_key_eq hi.nodup (List.mem_of_find?_eq_some hf) hr hid₀
    subst heq
    obtain ⟨-, -, rfl⟩ := activated_after hi.nodup hr (List.find?_some hf) hact hr' hid
    have hheld := ha.held claimed st now rfl
    have hcid : r₀.id = claimed.id := activationMatch_id (List.find?_some hf)
    refine Account.report_covers (hi.bounded r₀.id) rfl ?_
    exact (replacementQty_congr (hi.heldOriginal claimed hheld r₀ hr hcid)).symm

omit ha in
theorem step_unopened {id : String} (hid : id ∉ b.issued) :
    ((b.step a).account id).opened = none := by
  rw [Book.step_account_of_no_entry]
  · exact hi.unopened id hid
  · intro acc he
    obtain ⟨r, hr, rfl⟩ := Action.entry_mem he
    exact hid (hi.issued r hr)

theorem step_covers {r' : Record} (hr' : r' ∈ (b.step a).queue) :
    ((b.step a).account r'.id).Covers r' := by
  rcases apply_mem a.toOp hr' with ⟨r, hr, hc⟩ | hfresh
  · rw [hc.id_eq]
    have hold := hi.covers r hr
    by_cases htouch : ∃ acc, a.entry b.queue b.account = some (r.id, acc)
    · obtain ⟨acc, he⟩ := htouch
      rw [Book.step_account_of_entry he]
      exact hi.entry_covers ha hr hr' hc he
    · have hne : ∀ acc, a.entry b.queue b.account ≠ some (r.id, acc) := fun acc h =>
        htouch ⟨acc, h⟩
      rw [Book.step_account_of_no_entry hne]
      rcases entry_of_change hi.nodup b.account ha hr hr' hc with
        hs | ⟨args, rfl⟩ | he
      · exact hold.of_same hs
      · exact hold.of_refresh args
      · exact absurd he htouch
  · -- a new record has a new ID, and nothing was opened for that
    have hnew : r'.id ∉ b.issued := ha.fresh _ hfresh.id_mem
    intro k hk
    rw [hi.step_unopened hnew] at hk
    cases hk

theorem step_bounded (id : String) :
    ((b.step a).account id).again ≤ ((b.step a).account id).unfilled := by
  by_cases htouch : ∃ acc, a.entry b.queue b.account = some (id, acc)
  · obtain ⟨acc, he⟩ := htouch
    rw [Book.step_account_of_entry he]
    have hb := hi.bounded id
    rcases Action.entry_cases he with ⟨claimed, c, r, -, -, -, -, -, rfl⟩ |
      ⟨_, _, _, _, _, r, -, hr, rfl, rfl⟩ | ⟨claimed, st, now, r, rfl, hact, hf, rfl, rfl⟩
    · have hmax : 0 ≤ max 0 (r.qty - statusFilled c.status) := le_max_left _ _
      simp only [Account.report]
      linarith
    · unfold Account.submit
      split_ifs with ho
      · exact (hi.covers r hr r.revision ho).2 rfl
      · exact hb
    · have hr := List.mem_of_find?_eq_some hf
      obtain ⟨original, ho, -⟩ := ((hi.balanced r hr).awaiting (awaiting_of_activated hf hact)).2
      have hmax : 0 ≤ max 0 (original - st.filledQty) := le_max_left _ _
      simp only [Account.report, replacementQty, ho]
      linarith
  · rw [Book.step_account_of_no_entry (fun acc h => htouch ⟨acc, h⟩)]
    exact hi.bounded id

theorem step_held {h r' : Record} (hh : h ∈ (b.step a).held) (hr' : r' ∈ (b.step a).queue)
    (hid : r'.id = h.id) : r'.replacesOriginalQty = h.replacesOriginalQty := by
  have hsource : h ∈ b.held ∨ ∃ r ∈ b.queue, r.id = h.id ∧
      r.replacesOriginalQty = h.replacesOriginalQty := by
    rcases List.mem_append.mp hh with hl | hl
    · obtain ⟨r, hr, hrid, horig⟩ := Op.leased_mem hl
      exact Or.inr ⟨r, hr, hrid, horig⟩
    · exact Or.inl hl
  have hissued : h.id ∈ b.issued := by
    rcases hsource with hl | ⟨r, hr, hrid, -⟩
    · exact hi.heldIssued h hl
    · exact hrid ▸ hi.issued r hr
  rcases apply_mem a.toOp hr' with ⟨r₁, hr₁, hc⟩ | hfresh
  · have hid₁ : r₁.id = h.id := hc.id_eq.symm.trans hid
    rw [hc.original]
    rcases hsource with hl | ⟨r, hr, hrid, horig⟩
    · exact hi.heldOriginal h hl r₁ hr₁ hid₁
    · rw [eq_of_key_eq hi.nodup hr₁ hr (hid₁.trans hrid.symm), horig]
  · exact absurd (hid ▸ hissued) (ha.fresh _ hfresh.id_mem)

/-- One action keeps the books in order. -/
theorem step : (b.step a).Inv where
  nodup := apply_nodup hi.nodup hi.issued ha.fresh
  issued := fun _ hr => apply_issued hi.issued hr
  heldIssued := by
    intro h hh
    refine List.mem_append_right _ ?_
    rcases List.mem_append.mp hh with hl | hl
    · obtain ⟨r, hr, hrid, -⟩ := Op.leased_mem hl
      exact hrid ▸ hi.issued r hr
    · exact hi.heldIssued h hl
  heldOriginal := fun h hh r hr hid => hi.step_held ha hh hr hid
  balanced := by
    intro r' hr'
    rcases apply_mem a.toOp hr' with ⟨r, hr, hc⟩ | hfresh
    · exact hc.balanced (hi.balanced r hr)
    · cases hfresh with
      | enqueued _ hs => exact newRecord_balanced hs
  unopened := by
    intro id hid
    exact hi.step_unopened (fun h => hid (List.mem_append_right _ h))
  covers := fun r hr => hi.step_covers ha hr
  bounded := fun id => hi.step_bounded ha id

end Book.Inv

theorem Book.Reachable.inv {b : Book} (h : b.Reachable) : b.Inv := by
  refine Reach.invariant ?_ ?_ h
  · rintro b ⟨hq, hissued, hheld, hacct⟩
    constructor
    · simp [hq]
    · simp [hq]
    · simp [hheld]
    · simp [hheld]
    · simp [hq]
    · intro id _
      rw [hacct id]
      rfl
    · simp [hq]
    · intro id
      rw [hacct id]
      exact le_refl _
  · rintro b a b' hi ⟨ha, rfl⟩
    exact hi.step ha

/-! ## The main result -/

/-- A completed terminal retry leaves the retried record, or removes it. -/
theorem completeClaim_retried {b : Book} (hi : b.Inv) {claimed : Record} {c : CompleteArgs}
    {q' : Queue} (h : completeClaim claimed c b.queue = .ok (true, q'))
    (hc : c.outcome = .retryTerminal) :
    ∃ r ∈ b.queue, sameClaim claimed r = true ∧
      ∀ r' ∈ q', r'.id = r.id → Retried c.status r r' := by
  have hnd : c.outcome ≠ .deferred := by simp [hc]
  unfold completeClaim at h
  rw [if_neg (fun hd => hnd hd.1)] at h
  split_ifs at h with hrep
  simp only [Except.ok.injEq, Prod.mk.injEq, List.any_eq_true] at h
  obtain ⟨⟨r, hr, hm⟩, rfl⟩ := h
  exact ⟨r, hr, hm, fun r' hr' hid => retried_after hi.nodup hr hm hc hr' hid⟩

/-- The worker's activation leaves a replacement for what its order left unfilled. -/
theorem activation_unfilled {b : Book} (hi : b.Inv) {claimed : Record} (hheld : claimed ∈ b.held)
    {st : OrderStatus} {now : ℚ} {q' : Queue}
    (h : activateClaimedReplacement claimed (replacementQty claimed st) now b.queue
      = (some .activated, q')) :
    ∃ r ∈ b.queue, ∃ original, r.replacesOriginalQty = some original ∧
      ∃ r' ∈ q', r'.id = r.id ∧ r'.lifecycle = .submitPending ∧
        r'.qty = original - st.filledQty ∧ r'.requestedQtyTotal = original - st.filledQty := by
  rcases activate_queue claimed (replacementQty claimed st) now b.queue with
    h' | ⟨r, hf, hl, ⟨-, h'⟩ | ⟨hq, h'⟩⟩
  · rw [h'] at h; cases h
  · rw [h'] at h; cases h
  · rw [h'] at h
    cases h
    have hr := List.mem_of_find?_eq_some hf
    have hid : r.id = claimed.id := activationMatch_id (List.find?_some hf)
    obtain ⟨original, ho, -⟩ := ((hi.balanced r hr).awaiting hl).2
    have hrep : replacementQty claimed st = max 0 (original - st.filledQty) := by
      rw [← replacementQty_congr (hi.heldOriginal claimed hheld r hr hid)]
      simp only [replacementQty, ho]
    -- the activated quantity is above the tolerance, so nothing was cut off at zero
    have hpos : 0 < max 0 (original - st.filledQty) :=
      hrep ▸ lt_trans (qtyTolerance_pos r.qty) hq
    have hexact : replacementQty claimed st = original - st.filledQty := by
      rw [hrep]
      rcases le_total (original - st.filledQty) 0 with hle | hle
      · rw [max_eq_left hle] at hpos
        exact absurd hpos (lt_irrefl 0)
      · exact max_eq_right hle
    exact ⟨r, hr, original, ho, _, updateFirst_found hf, rfl, rfl, hexact, hexact⟩

/-- **Quantity is conserved across retries.** In every reachable state each record balances;
a terminal retry moves exactly the filled part, an activated replacement carries exactly
what its order left unfilled; and over the records of one intent, with all their revisions,
what was submitted again is at most what terminal statuses reported as unfilled. -/
theorem quantity_conserved_across_retries {b : Book} (hb : b.Reachable) :
    (∀ r ∈ b.queue, r.requestedQtyTotal = r.deliveredQty + r.qty ∧ 0 < r.qty) ∧
    (∀ claimed c q', completeClaim claimed c b.queue = .ok (true, q') →
      c.outcome = .retryTerminal →
      ∃ r ∈ b.queue, sameClaim claimed r = true ∧ ∀ r' ∈ q', r'.id = r.id →
        r'.qty = r.qty - min r.qty (statusFilled c.status) ∧
        r'.deliveredQty = r.deliveredQty + min r.qty (statusFilled c.status)) ∧
    (∀ claimed ∈ b.held, ∀ st now q',
      activateClaimedReplacement claimed (replacementQty claimed st) now b.queue
        = (some .activated, q') →
      ∃ r ∈ b.queue, ∃ original, r.replacesOriginalQty = some original ∧
        ∃ r' ∈ q', r'.id = r.id ∧ r'.lifecycle = .submitPending ∧
          r'.qty = original - st.filledQty ∧ r'.requestedQtyTotal = original - st.filledQty) ∧
    ∀ ids : List String,
      (ids.map (fun id => (b.account id).again)).sum
        ≤ (ids.map (fun id => (b.account id).unfilled)).sum := by
  have hi := hb.inv
  refine ⟨?_, ?_, ?_, ?_⟩
  · intro r hr
    exact ⟨(hi.balanced r hr).total, (hi.balanced r hr).positive⟩
  · intro claimed c q' h hc
    obtain ⟨r, hr, hm, hall⟩ := completeClaim_retried hi h hc
    exact ⟨r, hr, hm, fun r' hr' hid => ⟨(hall r' hr' hid).qty, (hall r' hr' hid).delivered⟩⟩
  · intro claimed hheld st now q' h
    exact activation_unfilled hi hheld h
  · intro ids
    exact List.sum_le_sum (fun id _ => hi.bounded id)

/-- The sample order is accepted, expires with a quarter of it filled, and its remainder is
submitted under the next revision. -/
def sampleOps : List Op :=
  [sampleEnqueue,
    .beginClaimedSubmit sampleSnapshot 11 120 7 (some "boot-7"),
    .completeClaim sampleSnapshot
      { outcome := .accepted, now := 12, order := some ⟨some "9001", some "NEW"⟩ },
    .claim ["a1"] 2000 120 "t2",
    .completeClaim { sampleSnapshot with claimToken := some "t2" }
      { outcome := .retryTerminal, now := 2001,
        status := some { status := .expired, filledQty := 1 / 2, cost := 50, fee := 0,
                         venueStatus := "EXPIRED" } },
    .claim ["a1"] 4000 120 "t3",
    .beginClaimedSubmit
      { sampleSnapshot with
        claimToken := some "t3", claimRevision := some 1
        placeKwargs := [("client_order_id", some "OR_a1_1")] }
      4001 120 9 (some "boot-9")]

def Book.run (b : Book) (ops : List Op) : Book := ops.foldl (fun b o => b.step (.op o)) b

def Book.empty : Book := ⟨[], [], [], fun _ => Account.empty⟩

theorem Book.Reachable.op {b : Book} (h : b.Reachable) {o : Op}
    (hfresh : ∀ id ∈ o.issues, id ∉ b.issued)
    (hworker : ∀ claimed qty now, o ≠ .activate claimed qty now) :
    (b.step (.op o)).Reachable := by
  refine Reach.step (i := .op o) h ⟨⟨hfresh, ?_, ?_⟩, rfl⟩
  · intro claimed qty now heq
    exact hworker claimed qty now (Action.op.inj heq)
  · intro claimed st now heq
    cases heq

theorem sampleBook_reachable : (Book.empty.run sampleOps).Reachable := by
  have h0 : Book.empty.Reachable := Reach.start ⟨rfl, rfl, rfl, fun _ => rfl⟩
  have h1 : (Book.empty.step (.op sampleEnqueue)).Reachable :=
    h0.op (fun id _ h => by cases h) (fun _ _ _ h => by cases h)
  -- the other operations issue no IDs
  refine Book.Reachable.op (Book.Reachable.op (Book.Reachable.op (Book.Reachable.op
    (Book.Reachable.op (Book.Reachable.op h1 ?_ ?_) ?_ ?_) ?_ ?_) ?_ ?_) ?_ ?_) ?_ ?_ <;>
    first
      | exact fun _ _ _ h => nomatch h
      | exact fun _ h => nomatch h

/-- The remainder of the sample order, 3/2, is what its status reported as unfilled. -/
theorem sample_remainder_is_covered :
    ((Book.empty.run sampleOps).account "a1").again = 3 / 2 ∧
      (["a1"].map (fun id => ((Book.empty.run sampleOps).account id).again)).sum
        ≤ (["a1"].map (fun id => ((Book.empty.run sampleOps).account id).unfilled)).sum := by
  refine ⟨by decide +kernel, ?_⟩
  exact (quantity_conserved_across_retries sampleBook_reachable).2.2.2 ["a1"]

end TradingFleet.Outbox
