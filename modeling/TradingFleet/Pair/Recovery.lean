import TradingFleet.Pair.Moves
import TradingFleet.Pair.Terminal

set_option autoImplicit false

/-! # Legs whose placement was not answered

When `place_limit` raises inside `start`, the order may exist. The round then waits in
`startup_recovery`, and whether a step recovers it is decided by the text of `reason`. Until a
recovery has returned true, the round is not over (`unanswered_leg_not_abandoned`), provided
that two things do not happen (`LegsKept`): the second leg raises while the cancel of the first
is not confirmed and the reported reason says nothing about a recovery, and a recovery that is
not complete returns a stop order.
-/

namespace TradingFleet.Pair

open TradingFleet.Hoare TradingFleet.Runs

/-! ## The log -/

/-- What a call says about the entry orders of the round: one was not answered, or none is
missing. -/
def Event.unanswered : Event → Option Bool
  | .placeLimit .entry _ (.error _) => some true
  | .placeLimit .entry _ (.ok _) => some false
  | .point (.recovered true) => some false
  | _ => none

/-- An entry order was not answered and no recovery has returned true since. An entry order
that is answered belongs to a round in which none has raised before. -/
def unresolved : List Call → Bool
  | [] => false
  | x :: log => x.event.unanswered.getD (unresolved log)

/-- The orders the last recovery returned. -/
def lastRecovered : List Call → List Recovered
  | [] => []
  | x :: log =>
      match x.event with
      | .recoverPairIntents (.ok items) => items
      | .recoverPairIntents (.error _) => []
      | _ => lastRecovered log

/-- A recovery ends here without returning true. -/
def Event.recoveryFails : Event → Bool
  | .point (.recovered false) => true
  | .pairRecoveryBlocked (.error _) => true
  | _ => false

/-- What is asked of a call, given the calls before it. -/
structure Call.LegKept (x : Call) (older : List Call) : Prop where
  cancelled : ∀ reason, x.event = .point (.firstLegKept true reason) →
    isRecoveryPending (some reason) = true
  noStop : x.event.recoveryFails = true → unresolved older = true →
    ∀ r ∈ lastRecovered older, intentRevision r.kind "hard_stop" = none

def LegsKept : List Call → Prop
  | [] => True
  | x :: log => x.LegKept log ∧ LegsKept log

theorem LegsKept.tail {n log : List Call} (h : LegsKept (n ++ log)) : LegsKept log := by
  induction n with
  | nil => exact h
  | cons x n ih => exact ih h.2

theorem unanswered_of_quiet {e : Event} (h : e.quiet = true) : e.unanswered = none := by
  unfold Event.unanswered
  split
  · cases h
  · cases h
  · cases h
  · rfl

theorem unresolved_of_quiet {n log : List Call} (h : ∀ x ∈ n, x.event.quiet = true) :
    unresolved (n ++ log) = unresolved log := by
  induction n with
  | nil => rfl
  | cons x n ih =>
      show x.event.unanswered.getD (unresolved (n ++ log)) = unresolved log
      rw [unanswered_of_quiet (h x List.mem_cons_self)]
      exact ih (fun y hy => h y (List.mem_cons_of_mem _ hy))

/-! ## Waiting -/

/-- While a leg is unresolved, the round is in `startup_recovery` for a reason that is pending. -/
def Waiting (w : World) : Prop :=
  LegsKept w.log → unresolved w.log = true →
    w.coord.phase = .startupRecovery ∧ isRecoveryPending w.coord.reason = true

def Resolved (w : World) : Prop := LegsKept w.log → unresolved w.log = false

theorem Resolved.waiting {w : World} (h : Resolved w) : Waiting w := by
  intro hkept hun
  rw [h hkept] at hun
  cases hun

/-- Outside `startup_recovery` nothing is unresolved. -/
theorem Waiting.resolved {w : World} (h : Waiting w) (hphase : w.coord.phase ≠ .startupRecovery) :
    Resolved w := by
  intro hkept
  by_contra hun
  exact hphase (h hkept (Bool.eq_true_of_not_eq_false hun)).1

theorem Waiting.touched {w w' : World} (h : Waiting w) (ht : Touches w w') : Waiting w' := by
  obtain ⟨new, hlog, hquiet⟩ := ht.log
  intro hkept hun
  rw [hlog] at hkept hun
  rw [unresolved_of_quiet hquiet] at hun
  rw [ht.phase, ht.reason]
  exact h hkept.tail hun

/-- A call that places no entry order. -/
theorem Resolved.called {w : World} (h : Resolved w) {e : Event} (he : e.limitSite ≠ some .entry)
    (c : Coordinator) : Resolved ⟨c, ⟨w.coord, e⟩ :: w.log⟩ := by
  intro hkept
  show e.unanswered.getD (unresolved w.log) = false
  unfold Event.unanswered
  split
  · exact absurd rfl he
  · exact absurd rfl he
  · rfl
  · exact h hkept.2

/-- No call of a step makes an entry order unanswered. -/
theorem Resolved.walked {policy : PairPolicy} {now : ℚ} {w w' : World} (h : Resolved w)
    (hw : Walks policy now (fun e => e.limitSite ≠ some .entry) w w') : Resolved w' := by
  refine hw.invariant ?_ h
  intro w w' hmove hres
  cases hmove with
  | call hallowed _ => exact hres.called hallowed w.coord
  | read hallowed _ => exact hres.called hallowed _
  | compact hallowed _ => exact hres.called hallowed _
  | adopt hallowed => exact hres.called hallowed _
  | _ => exact hres

section Steps

variable (S : Setup)

theorem resolved_walks {α : Type} {x : PairM α} {now : ℚ}
    (hx : Moves (Walks S.policy now (fun e => e.limitSite ≠ some .entry)) x) :
    Keeps Resolved x :=
  hx.triple (fun _ _ h hw => h.walked hw)

/-! ## Recovering -/

theorem adopt_of_no_stop {c : Coordinator} {r : Recovered}
    (h : intentRevision r.kind "hard_stop" = none) :
    (c.adopt r).phase = c.phase ∧ (c.adopt r).reason = c.reason := by
  have hadopted : (c.adopted r.ticket).1.phase = c.phase ∧
      (c.adopted r.ticket).1.reason = c.reason := by
    unfold Coordinator.adopted
    split
    · exact ⟨rfl, rfl⟩
    · exact ⟨rfl, rfl⟩
  unfold Coordinator.adopt Coordinator.adoptStop
  simp only [h]
  unfold Coordinator.adoptLimit
  split
  · exact hadopted
  · exact hadopted

theorem adoptAll_of_no_stop {items : List Recovered} (c : Coordinator)
    (h : ∀ r ∈ items, intentRevision r.kind "hard_stop" = none) :
    (items.foldl Coordinator.adopt c).phase = c.phase ∧
      (items.foldl Coordinator.adopt c).reason = c.reason := by
  induction items generalizing c with
  | nil => exact ⟨rfl, rfl⟩
  | cons r rest ih =>
      obtain ⟨hphase, hreason⟩ := adopt_of_no_stop (c := c) (h r List.mem_cons_self)
      obtain ⟨hphase', hreason'⟩ := ih (c.adopt r) (fun x hx => h x (List.mem_cons_of_mem _ hx))
      exact ⟨hphase'.trans hphase, hreason'.trans hreason⟩

/-- In the middle of a recovery: the round waits if no stop order was among what it returned. -/
structure Recovering (w : World) : Prop where
  waits : (∀ r ∈ lastRecovered w.log, intentRevision r.kind "hard_stop" = none) → Waiting w

theorem Recovering.asked {w : World} (h : Recovering w) {e : Event} (hquiet : e.quiet = true)
    (hlast : lastRecovered (⟨w.coord, e⟩ :: w.log) = lastRecovered w.log) :
    Recovering { w with log := ⟨w.coord, e⟩ :: w.log } := by
  refine ⟨fun hno hkept hun => ?_⟩
  rw [hlast] at hno
  have hun' : unresolved w.log = true := by
    rwa [unresolved, unanswered_of_quiet hquiet] at hun
  exact h.waits hno hkept.2 hun'

/-- A recovery that fails leaves the round waiting. -/
theorem Recovering.fails {w : World} {c : Coordinator} {e : Event} {older : List Call}
    (h : Recovering { w with log := older }) (hlog : w.log = ⟨c, e⟩ :: older)
    (hfails : e.recoveryFails = true) (hnone : e.unanswered = none) : Waiting w := by
  intro hkept hun
  rw [hlog] at hkept hun
  have hun' : unresolved older = true := by
    rwa [unresolved, hnone] at hun
  exact h.waits (hkept.1.noStop hfails hun') hkept.2 hun'

theorem recoveryReturns_waiting (ok : Bool) :
    Triple Recovering (recoveryReturns ok)
      (fun ok w => if ok = true then Resolved w else Waiting w) (fun _ => Waiting) := by
  cases ok with
  | true =>
      refine Triple.bind (Q := fun _ => Resolved) (Triple.mark (fun _ _ _ => rfl)) (fun _ => ?_)
      exact Triple.pure (fun _ h => h)
  | false =>
      refine Triple.bind (Q := fun _ => Waiting) (Triple.mark ?_) (fun _ => ?_)
      · intro w h
        exact Recovering.fails h rfl rfl rfl
      · exact Triple.pure (fun _ h => by simpa using h)

theorem recoverPersistedIntents_waiting :
    Triple Waiting (recoverPersistedIntents S)
      (fun ok w => if ok = true then Resolved w else Waiting w) (fun _ => Waiting) := by
  unfold recoverPersistedIntents
  split
  · exact (recoveryReturns_waiting false).strengthen (fun w h => ⟨fun _ => h⟩)
  · refine Triple.coord (fun c => ?_)
    refine Triple.bind (Q := fun answer w => Waiting w ∧
      ∃ x older, w.log = x :: older ∧ x.event = .recoverPairIntents answer) (Triple.ask ?_)
      (fun answer => ?_)
    · rintro w answer ⟨h, -⟩
      exact ⟨fun hkept hun => h hkept.2 hun, _, _, rfl, rfl⟩
    split
    · exact (recoveryReturns_waiting false).strengthen (fun w h => ⟨fun _ => h.1⟩)
    · rename_i items
      refine Triple.bind (Q := fun _ => Recovering) (Triple.update ?_) (fun _ => ?_)
      · rintro w ⟨h, x, older, hlog, hx⟩
        refine ⟨fun hno hkept hun => ?_⟩
        have hitems : lastRecovered w.log = items := by
          rw [hlog]
          simp only [lastRecovered, hx]
        obtain ⟨hphase, hreason⟩ := adoptAll_of_no_stop w.coord (hitems ▸ hno)
        show (items.foldl Coordinator.adopt w.coord).phase = _ ∧ _
        rw [hphase, hreason]
        exact h hkept hun
      · split
        · refine Triple.bind (Q := fun answer w => Recovering w ∧
            ∀ e, answer = .error e → Waiting w) (Triple.ask ?_) (fun answer => ?_)
          · intro w answer h
            refine ⟨h.asked rfl rfl, ?_⟩
            rintro e rfl
            exact Recovering.fails h rfl rfl rfl
          · refine Triple.bind (Q := fun _ => Recovering) (Triple.orRaise (fun _ _ _ h => h.1) ?_)
              (fun blocked => recoveryReturns_waiting _)
            rintro e w rfl h
            exact h.2 e rfl
        · refine Triple.bind (Q := fun _ => Recovering) (Triple.ask ?_)
            (fun blocked => recoveryReturns_waiting _)
          intro w answer h
          exact h.asked rfl rfl

/-! ## Steps -/

theorem stepStartupRecovery_waiting :
    Triple Waiting (stepStartupRecovery S)
      (fun goesOn w => Waiting w ∧ (goesOn = true → Resolved w)) (fun _ => Waiting) := by
  refine Triple.bind (Q := fun ok w => if ok = true then Resolved w else Waiting w) ?_
    (fun recovered => ?_)
  · refine Triple.coord (fun c => Triple.ite (fun _ => ?_) (fun hreason => Triple.pure ?_))
    · exact (recoverPersistedIntents_waiting S).strengthen (fun w h => h.1)
    · -- a reason that is not pending: nothing is unresolved
      rintro w ⟨h, rfl⟩ hkept
      by_contra hun
      exact hreason (h hkept (Bool.eq_true_of_not_eq_false hun)).2
  · refine Triple.ite (fun hrec => ?_) (fun hrec => ?_)
    · refine Triple.strengthen (P := Resolved) ?_ (fun w h => by rwa [if_pos hrec] at h)
      have hkeeps : ∀ {α : Type} {x : PairM α},
          Moves (Walks S.policy 0 (fun e => e.limitSite ≠ some .entry)) x →
          Triple Resolved x (fun _ => Resolved) (fun _ => Waiting) := fun hx =>
        (resolved_walks S hx).conseq (fun _ h => h) (fun _ _ h => h) (fun _ _ h => h.waiting)
      refine Triple.bind (hkeeps (cancelEach_walks step_allowed _ _)) (fun failure => ?_)
      split
      · exact Triple.pure (fun _ h => ⟨h.waiting, fun _ => h⟩)
      · refine Triple.coord (fun c => Triple.strengthen (P := Resolved) ?_ (fun w h => h.1))
        refine Triple.ite (fun _ => ?_) (fun _ => ?_)
        · exact Triple.bind (Q := fun _ => Resolved) (Triple.update (fun _ h => h))
            (fun _ => Triple.pure (fun _ h => ⟨h.waiting, fun _ => h⟩))
        · exact Triple.bind (Q := fun _ => Resolved) (Triple.update (fun _ h => h))
            (fun _ => Triple.pure (fun _ h => ⟨h.waiting, fun _ => h⟩))
    · refine Triple.pure (fun w h => ⟨?_, fun hgo => by cases hgo⟩)
      rwa [if_neg hrec] at h

/-- A step keeps a round waiting, or resolves it. -/
theorem stepBody_waiting (now : ℚ) (fuel : Nat) : Keeps Waiting (stepBody S now fuel) := by
  have hallowed := step_allowed
  have hexit : ∀ order answer,
      (Event.placeLimit .anchoredExit order answer).limitSite ≠ some .entry := by
    intro order answer hsite
    cases hsite
  have hresolved : ∀ {α : Type} {x : PairM α},
      Moves (Walks S.policy now (fun e => e.limitSite ≠ some .entry)) x →
      Triple Resolved x (fun _ => Waiting) (fun _ => Waiting) := fun hx =>
    (resolved_walks S hx).conseq (fun _ h => h) (fun _ _ h => h.waiting) (fun _ _ h => h.waiting)
  cases fuel with
  | zero => exact Keeps.throw _
  | succ fuel =>
      refine Triple.coord (fun c => Triple.strengthen (P := Waiting) ?_ (fun w h => h.1))
      refine Triple.ite (fun _ => Keeps.pure _) (fun _ => ?_)
      refine Triple.ite (fun _ => Keeps.throw _) (fun _ => ?_)
      refine Keeps.bind ((refresh_touches S).triple (fun _ _ h ht => h.touched ht)) (fun _ => ?_)
      refine Keeps.bind (Triple.update ?_) (fun _ => Triple.coord (fun c' => ?_))
      · intro w h
        unfold Coordinator.recordFirstFill
        split
        · exact h
        · exact h
      split
      · refine Triple.strengthen (P := Waiting) ?_ (fun w h => h.1)
        refine Triple.bind (stepStartupRecovery_waiting S) (fun goesOn => ?_)
        refine Triple.ite (fun hgo => ?_) (fun _ => Triple.pure (fun _ h => h.1))
        exact (hresolved (stepQuotes_walks hallowed hexit (stepBody_walks hallowed hexit fuel))).strengthen
          (fun w h => h.2 hgo)
      · rename_i hphase
        refine (hresolved (stepHardStopRecovery_walks hallowed _)).strengthen ?_
        rintro w ⟨h, rfl⟩
        exact h.resolved (by simp [hphase])
      · rename_i hphase
        refine (hresolved (stepStopping_walks hallowed _)).strengthen ?_
        rintro w ⟨h, rfl⟩
        exact h.resolved (by simp [hphase])
      · rename_i hstartup _ _
        refine (hresolved (stepQuotes_walks hallowed hexit
          (stepBody_walks hallowed hexit fuel))).strengthen ?_
        rintro w ⟨h, rfl⟩
        exact h.resolved hstartup

theorem step_waiting (now : ℚ) (fuel : Nat) : Keeps Waiting (step S now fuel) :=
  Keeps.bind (stepBody_waiting S now fuel)
    (fun _ => Triple.coord (fun _ => Triple.pure (fun _ h => h.1)))

/-! ## Starting -/

theorem pendingReason_pending (side : Side) (reason : String) :
    isRecoveryPending (some (pendingReason side reason)) = true := by
  unfold pendingReason
  split
  · assumption
  · cases side with
    | buy => decide +kernel
    | sell => decide +kernel

/-- Calls that say nothing about entry orders. -/
theorem unresolved_touches {α : Type} {x : PairM α} (hx : Moves Touches x) (b : Bool) :
    Triple (fun w => unresolved w.log = b) x (fun _ w => unresolved w.log = b)
      (fun _ _ => True) := by
  refine (hx.triple (Q := fun w => unresolved w.log = b) ?_).conseq (fun _ h => h)
    (fun _ _ h => h) (fun _ _ _ => trivial)
  intro w w' h ht
  obtain ⟨new, hlog, hquiet⟩ := ht.log
  rw [hlog, unresolved_of_quiet hquiet]
  exact h

theorem legRecoveryPending_waiting (raised : Bool) (reason : String) :
    Triple (fun w => unresolved w.log = raised) (legRecoveryPending S raised reason)
      (fun pending w => unresolved w.log = raised ∧ (raised = true → pending = true))
      (fun _ _ => True) := by
  unfold legRecoveryPending
  cases raised with
  | true => exact Triple.pure (fun _ h => ⟨h, fun _ => rfl⟩)
  | false =>
      refine (unresolved_touches ?_ false).weaken (fun _ _ h => ⟨h, nofun⟩)
      split
      · exact touches_pure _
      · exact touches_ask (fun _ => rfl)

theorem waiting_of_answered {w : World} (h : unresolved w.log = false) : Waiting w := by
  intro _ hun
  rw [h] at hun
  cases hun

/-- The leg waits for its recovery, or it was answered. -/
theorem setPhase_waiting (side : Side) (raised pending : Bool) (reason : String) :
    Triple (fun w => unresolved w.log = raised ∧ (raised = true → pending = true))
      (if pending then setPhase .startupRecovery (some (pendingReason side reason))
        else setPhase .failed (some reason)) (fun _ => Waiting) (fun _ _ => True) := by
  refine Triple.ite (fun _ => ?_) (fun hpending => ?_)
  · exact Triple.update (fun w _ _ _ => ⟨rfl, pendingReason_pending side reason⟩)
  · refine Triple.update (fun w h => waiting_of_answered ?_)
    show unresolved w.log = false
    rw [h.1]
    exact Bool.eq_false_iff.mpr (fun hraised => hpending (h.2 hraised))

theorem firstLegFailed_waiting (side : Side) (raised : Bool) :
    Triple (fun w => unresolved w.log = raised) (firstLegFailed S side raised) (fun _ => Waiting)
      (fun _ _ => True) := by
  refine Triple.bind (unresolved_touches (touches_of_asks (placeFailureReason_asks S side)) raised)
    (fun reason => ?_)
  refine Triple.bind (legRecoveryPending_waiting S raised reason) (fun pending => ?_)
  exact setPhase_waiting side raised pending reason

theorem secondLegFailed_waiting (side : Side) (raised : Bool) (firstId : String) :
    Triple (fun w => unresolved w.log = raised) (secondLegFailed S side raised firstId)
      (fun _ => Waiting) (fun _ _ => True) := by
  refine Triple.bind (unresolved_touches (touches_of_asks (placeFailureReason_asks S side)) raised)
    (fun reason => ?_)
  refine Triple.bind (unresolved_touches (cancelAndReconcile_touches S 0 firstId) raised)
    (fun failure => ?_)
  refine Triple.bind (legRecoveryPending_waiting S raised reason) (fun pending => ?_)
  split
  · -- the reason of the placement stays, so it has to be a pending one
    refine Triple.bind (Q := fun _ w => LegsKept w.log → unresolved w.log = true →
      isRecoveryPending (some reason) = true) (Triple.mark ?_) (fun _ => Triple.update ?_)
    · intro w h hkept hun
      have hraised : raised = true := h.1.symm.trans hun
      refine hkept.1.cancelled reason ?_
      rw [hraised]
    · intro w h hkept hun
      exact ⟨rfl, h hkept hun⟩
  · by_cases hpending : pending = true
    · rw [if_pos hpending]
      exact Triple.update (fun w _ _ _ => ⟨rfl, pendingReason_pending side reason⟩)
    · rw [if_neg hpending]
      refine Triple.coord (fun c => Triple.strengthen (P := fun w => unresolved w.log = false) ?_ ?_)
      · refine Triple.ite (fun _ => ?_) (fun _ => ?_)
        · exact Triple.update (fun w h => waiting_of_answered h)
        · exact Triple.update (fun w h => waiting_of_answered h)
      · rintro w ⟨h, -⟩
        rw [h.1]
        exact Bool.eq_false_iff.mpr (fun hraised => hpending (h.2 hraised))

/-- After an entry order, it is unresolved or not by its answer. -/
theorem placeEntry_answered (side : Side) (price : ℚ) :
    Triple (fun _ => True) (placeEntry S side price)
      (fun answer w => unresolved w.log = !answer.isOk) (fun _ _ => True) := by
  refine Triple.coord (fun c => Triple.ask (fun w answer _ => ?_))
  cases answer with
  | ok t => rfl
  | error e => rfl

theorem start_waiting (mid : Option ℚ) (pairId : String) (clock : ℚ) :
    Triple (fun _ => True) (start S mid pairId clock) (fun _ => Waiting) (fun _ _ => True) := by
  refine Triple.coord (fun c => Triple.strengthen (P := fun _ => True) ?_ (fun _ _ => trivial))
  refine Triple.ite (fun _ => Triple.throw (fun _ _ => trivial)) (fun _ => ?_)
  refine Triple.bind (asks_keeping (startMid_asks S mid) (fun _ _ _ _ => trivial)) (fun mid => ?_)
  refine Triple.bind (asks_keeping (asks_orRaise _) (fun _ _ _ _ => trivial)) (fun prices => ?_)
  refine Triple.bind (Q := fun _ _ => True) (Triple.update (fun _ _ => trivial)) (fun _ => ?_)
  refine Triple.bind (Q := fun _ => Waiting) ?_
    (fun _ => Triple.coord (fun _ => Triple.pure (fun _ h => h.1)))
  refine Triple.coord (fun c' => Triple.strengthen (P := fun _ => True) ?_ (fun _ _ => trivial))
  refine Triple.bind (placeEntry_answered S _ _) (fun first => ?_)
  split
  · refine Triple.bind (Q := fun _ _ => True) (Triple.update (fun _ _ => trivial)) (fun _ => ?_)
    refine Triple.bind (placeEntry_answered S _ _) (fun second => ?_)
    split
    · exact Triple.bind (Q := fun _ w => unresolved w.log = false) (Triple.update (fun _ h => h))
        (fun _ => Triple.update (fun w h => waiting_of_answered h))
    · exact secondLegFailed_waiting S _ false _
    · exact secondLegFailed_waiting S _ true _
  · exact firstLegFailed_waiting S _ false
  · exact firstLegFailed_waiting S _ true

/-! ## Rounds that are not under way -/

theorem step_idle (now : ℚ) (fuel : Nat) :
    Keeps (fun w => w.coord.phase = .idle) (step S now fuel) := by
  refine Keeps.bind ?_ (fun _ => Triple.coord (fun _ => Triple.pure (fun _ h => h.1)))
  cases fuel with
  | zero => exact Keeps.throw _
  | succ fuel =>
      refine Triple.coord (fun c => Triple.ite (fun _ => Triple.pure (fun _ h => h.1)) (fun _ => ?_))
      refine Triple.ite (fun _ => Triple.throw (fun _ h => h.1)) (fun hidle w hw => ?_)
      exact absurd (hw.2 ▸ hw.1) hidle

theorem step_over (now : ℚ) (fuel : Nat) :
    Keeps (fun w => w.coord.phase.terminal = true) (step S now fuel) := by
  refine Keeps.bind ?_ (fun _ => Triple.coord (fun _ => Triple.pure (fun _ h => h.1)))
  cases fuel with
  | zero => exact Keeps.throw _
  | succ fuel =>
      refine Triple.coord (fun c => Triple.ite (fun _ => Triple.pure (fun _ h => h.1))
        (fun hover w hw => ?_))
      exact absurd (hw.2 ▸ hw.1) hover

/-- A round under way is not started again. -/
theorem start_under_way (mid : Option ℚ) (pairId : String) (clock : ℚ) {I : World → Prop}
    (hI : ∀ w, I w → w.coord.phase ≠ .idle ∧ w.coord.phase.terminal = false) :
    Keeps I (start S mid pairId clock) := by
  refine Triple.coord (fun c => Triple.ite (fun _ => Triple.throw (fun _ h => h.1)) (fun hno w hw => ?_))
  exact absurd (hw.2 ▸ hI w hw.1) hno

end Steps

/-! ## The main result -/

/-- Every leg of a round under way is answered, or waited for. -/
def Tended (w : World) : Prop :=
  Waiting w ∨ w.coord.phase = .idle ∨ w.coord.phase.terminal = true

theorem Waiting.answered {w : World} (h : Waiting w) (hkept : LegsKept w.log)
    (hover : w.coord.phase.terminal = true) : unresolved w.log = false := by
  refine h.resolved ?_ hkept
  intro hphase
  rw [hphase] at hover
  cases hover

theorem start_tended (S : Setup) (mid : Option ℚ) (pairId : String) (clock : ℚ) {w : World}
    (h : Tended w) : Tended (finalWorld (start S mid pairId clock w)) := by
  by_cases hunder : w.coord.phase ≠ .idle ∧ w.coord.phase.terminal = false
  · have hkeeps := start_under_way S mid pairId clock (I := fun w => Tended w ∧
      w.coord.phase ≠ .idle ∧ w.coord.phase.terminal = false) (fun w hw => hw.2)
    exact (final_of_triple hkeeps ⟨h, hunder⟩).1
  · have hwaiting := start_waiting S mid pairId clock w trivial
    have hphase := start_raises S mid pairId clock w.coord.phase w rfl
    cases hres : start S mid pairId clock w with
    | ok outcome w' =>
        rw [hres] at hwaiting
        exact Or.inl hwaiting
    | error e w' =>
        -- the phase was not set: it is the one before
        rw [hres] at hphase
        have hsame : w'.coord.phase = w.coord.phase := hphase
        refine Or.inr ?_
        show w'.coord.phase = _ ∨ w'.coord.phase.terminal = true
        rw [hsame]
        by_cases hidle : w.coord.phase = .idle
        · exact Or.inl hidle
        · exact Or.inr (Bool.eq_true_of_not_eq_false (fun hlive => hunder ⟨hidle, hlive⟩))

theorem after_tended (S : Setup) {w : World} (a : Action) (h : Tended w) :
    Tended (w.after S a) := by
  cases a with
  | start mid pairId clock => exact start_tended S mid pairId clock h
  | step now fuel =>
      rcases h with h | h | h
      · exact Or.inl (final_of_triple (step_waiting S now fuel) h)
      · exact Or.inr (Or.inl (final_of_triple (step_idle S now fuel) h))
      · exact Or.inr (Or.inr (final_of_triple (step_over S now fuel) h))
  | restart clock =>
      simp only [World.after, w.restarted_eq clock]
      exact h

/-- When a round ends, its legs are answered. -/
theorem after_answered (S : Setup) {w : World} (a : Action) (h : Tended w)
    (hkept : LegsKept (w.after S a).log) (hterm : BecomesTerminal S w a) :
    unresolved (w.after S a).log = false := by
  rcases hterm.cases with ⟨mid, pairId, clock, outcome, w', rfl, hok, hover⟩ |
    ⟨now, fuel, rfl, hlive, hover⟩
  · have hwaiting := start_waiting S mid pairId clock w trivial
    simp only [World.after, hok] at hwaiting hkept ⊢
    exact Waiting.answered hwaiting hkept hover
  · rcases h with h | h | h
    · exact (final_of_triple (step_waiting S now fuel) h).answered hkept hover
    · rw [final_of_triple (step_idle S now fuel) h] at hover
      cases hover
    · rw [World.Live, h] at hlive
      cases hlive

/-- **A leg that was not answered is not abandoned.** In every run in which no start keeps an
unconfirmed first leg under a reason that says nothing of the second, and no incomplete recovery
returns a stop order: when a round ends, a recovery has returned true since the last entry order
that raised. -/
theorem unanswered_leg_not_abandoned {S : Setup} {w : World} (hinit : World.Initial w)
    (actions : List Action)
    (hkept : Along (World.after S) (fun w a => LegsKept (w.after S a).log) w actions) :
    Along (World.after S) (fun w a => BecomesTerminal S w a → unresolved (w.after S a).log = false)
      w actions := by
  have hstart : Tended w := by
    refine Or.inl (waiting_of_answered ?_)
    rw [hinit.1]
    rfl
  exact Along.of_invariant (I := Tended)
    (fun w a h hk => ⟨after_answered S a h hk, after_tended S a h⟩) hstart hkept

/-! ## A second leg that raises -/

instance (x : Call) (older : List Call) : Decidable (x.LegKept older) :=
  let cancelled : Bool := match x.event with
    | .point (.firstLegKept true reason) => isRecoveryPending (some reason)
    | _ => true
  decidable_of_iff (cancelled = true ∧ (x.event.recoveryFails = true → unresolved older = true →
      ∀ r ∈ lastRecovered older, intentRevision r.kind "hard_stop" = none)) <| by
    constructor
    · rintro ⟨hc, hs⟩
      refine ⟨fun reason hx => ?_, hs⟩
      simpa [cancelled, hx] using hc
    · intro h
      refine ⟨?_, h.noStop⟩
      simp only [cancelled]
      split
      · rename_i reason hx
        exact h.cancelled reason hx
      · rfl

instance LegsKept.decidable : (log : List Call) → Decidable (LegsKept log)
  | [] => isTrue trivial
  | x :: log => @instDecidableAnd (x.LegKept log) (LegsKept log) _ (LegsKept.decidable log)

/-- The SELL leg raises, although the venue has it; the cancel of the BUY leg is answered with
`cancelled`. Both orders are read as canceled later. -/
def raisingVenue (cancelled : Bool) : Venue :=
  { sampleVenue with
    placeLimit := fun n order =>
      if order.side = .sell then .error "timeout" else sampleVenue.placeLimit n order
    cancel := fun _ _ => .ok cancelled
    orderStatus := fun _ _ => .ok withdrawnRead
    recoverPairIntents := some (fun _ _ =>
      .ok [⟨sampleTicket "SELL-0" .sell Revision.zero, withdrawnRead, "limit"⟩]) }

def raisingRun : List Action := [.start (some 100) "pair-1" 0]

theorem raised_leg_recovered_after_cancel :
    BecomesTerminal ⟨raisingVenue true, samplePolicy⟩
        (sampleStart.run ⟨raisingVenue true, samplePolicy⟩ raisingRun) (.step 1 1000) ∧
      Along (World.after ⟨raisingVenue true, samplePolicy⟩)
        (fun w a => BecomesTerminal ⟨raisingVenue true, samplePolicy⟩ w a →
          unresolved (w.after ⟨raisingVenue true, samplePolicy⟩ a).log = false)
        sampleStart (raisingRun ++ [.step 1 1000]) := by
  refine ⟨⟨by decide +kernel, Or.inl ?_⟩, ?_⟩
  · show Phase.terminal _ = false
    decide +kernel
  · exact unanswered_leg_not_abandoned sampleStart_initial _ (by decide +kernel)

/-- The cancel of the BUY leg fails, so the reason stays `sell_place_failed` and the next step
ends the round without a recovery. -/
theorem raised_leg_abandoned_after_failed_cancel :
    World.Reachable ⟨raisingVenue false, samplePolicy⟩
        (sampleStart.run ⟨raisingVenue false, samplePolicy⟩ raisingRun) ∧
      BecomesTerminal ⟨raisingVenue false, samplePolicy⟩
        (sampleStart.run ⟨raisingVenue false, samplePolicy⟩ raisingRun) (.step 1 1000) ∧
      unresolved ((sampleStart.run ⟨raisingVenue false, samplePolicy⟩ raisingRun).after
        ⟨raisingVenue false, samplePolicy⟩ (.step 1 1000)).log = true := by
  refine ⟨run_reachable _ (Reach.start sampleStart_initial), ⟨by decide +kernel, Or.inl ?_⟩, ?_⟩
  · show Phase.terminal _ = false
    decide +kernel
  · decide +kernel

end TradingFleet.Pair
