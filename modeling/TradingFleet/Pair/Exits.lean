import Mathlib.Tactic.Linarith
import TradingFleet.Pair.Rules

set_option autoImplicit false

/-! # Exit orders and the open exposure

An exit order should be on the side that reduces the net position and no larger than it. The
quantity is computed from the totals at one moment and the order is placed at another; between
the two an order may be cancelled and read once more, and that read may bring new fills. Each
lemma below says which exposure the quantity was computed from and that it is still the one
held when the order is placed.

One path fails: `step` keeps the exposure it handed to the hard stop for the exit order it
falls back to. The stop may have withdrawn the exit leg and seen it fill in part before its
market exit was refused; `StopsFresh` says that this did not happen.
-/

namespace TradingFleet.Pair

open TradingFleet.Hoare TradingFleet.Runs

/-! ## Sound exits -/

/-- An order on this side makes the net position smaller. -/
def Reduces (net : ℚ) : Side → Prop
  | .sell => 0 < net
  | .buy => net < 0

/-- An exit order of this side and quantity stays within the exposure. -/
structure Covered (c : Coordinator) (side : Side) (qty : ℚ) : Prop where
  reduces : Reduces c.netQty side
  bounded : qty ≤ |c.netQty| + flatTolerance

/-- Side and quantity of the exit order a call places. -/
def Event.exitOrder : Event → Option (Side × ℚ)
  | .placeLimit .anchoredExit order _ => some (order.side, order.qty)
  | .placeMarketExit _ order _ => some (order.side, order.qty)
  | _ => none

/-- A call that places an exit order is covered by the snapshots held then. -/
def Call.ExitSound (x : Call) : Prop := ∀ o ∈ x.event.exitOrder, Covered x.before o.1 o.2

/-- The exposure a refused market exit was asked for. -/
def Event.refusedStop : Event → Option ℚ
  | .point (.stopRefused net) => some net
  | _ => none

/-- Where the market exit of a hard stop was refused, the exposure it was asked for is still
there. -/
def Call.StopFresh (x : Call) : Prop :=
  ∀ net ∈ x.event.refusedStop, |net| ≤ |x.before.netQty| + flatTolerance

def StopsFresh (log : List Call) : Prop := ∀ x ∈ log, x.StopFresh

def ExitsSound (w : World) : Prop := StopsFresh w.log → ∀ x ∈ w.log, x.ExitSound

theorem StopsFresh.tail {n log : List Call} (h : StopsFresh (n ++ log)) : StopsFresh log :=
  fun x hx => h x (List.mem_append_right _ hx)

theorem exitSound_of_quiet {x : Call} (h : x.event.quiet = true) : x.ExitSound := by
  intro o ho
  unfold Event.exitOrder at ho
  split at ho
  · rename_i hx
    rw [hx] at h
    cases h
  · rename_i hx
    rw [hx] at h
    cases h
  · cases ho

theorem exitSound_of_order {x : Call} {side : Side} {qty : ℚ}
    (hx : x.event.exitOrder = some (side, qty)) (h : Covered x.before side qty) : x.ExitSound := by
  intro o ho
  rw [hx, Option.mem_some_iff] at ho
  rw [← ho]
  exact h

/-- Adding calls. -/
theorem ExitsSound.extend {w w' : World} (h : ExitsSound w) {n : List Call}
    (hlog : w'.log = n ++ w.log) (hnew : StopsFresh w'.log → ∀ x ∈ n, x.ExitSound) :
    ExitsSound w' := by
  intro hfresh x hx
  have hold := h (by rw [hlog] at hfresh; exact hfresh.tail)
  rw [hlog] at hx
  rcases List.mem_append.mp hx with hx | hx
  · exact hnew hfresh x hx
  · exact hold x hx

theorem ExitsSound.touched {w w' : World} (h : ExitsSound w) (ht : Touches w w') :
    ExitsSound w' := by
  obtain ⟨new, hlog, hquiet⟩ := ht.log
  exact h.extend hlog (fun _ x hx => exitSound_of_quiet (hquiet x hx))

theorem ExitsSound.asked {w w' : World} (h : ExitsSound w) (ha : Asks w w') : ExitsSound w' :=
  h.touched ha.touches

theorem exitsSound_update (f : Coordinator → Coordinator) : Keeps ExitsSound (update f) :=
  Triple.update (fun _ h => h)

theorem exitsSound_mark {p : Point} : Keeps ExitsSound (mark p) := by
  refine Triple.mark (fun w h => h.extend (n := [⟨w.coord, .point p⟩]) rfl ?_)
  intro _ x hx
  rw [List.mem_singleton.mp hx]
  exact nofun

theorem exitsSound_touches {α : Type} {x : PairM α} (h : Moves Touches x) : Keeps ExitsSound x :=
  h.triple (fun _ _ hw ht => hw.touched ht)

/-- A call that places no exit order. -/
theorem exitsSound_ask {α : Type} {call : Nat → α} {event : α → Event}
    (h : ∀ c a, Call.ExitSound ⟨c, event a⟩) : Keeps ExitsSound (ask call event) := by
  refine Triple.ask (fun w a hw => hw.extend (n := [⟨w.coord, event a⟩]) rfl ?_)
  intro _ x hx
  rw [List.mem_singleton.mp hx]
  exact h _ _

theorem setPhase_sound (phase : Phase) (reason : Option String) :
    Keeps ExitsSound (setPhase phase reason) := exitsSound_update _

theorem concludeFlat_sound (phase : Phase) (reason : Option String) :
    Keeps ExitsSound (concludeFlat phase reason) :=
  Keeps.bind exitsSound_mark (fun _ => setPhase_sound phase reason)

theorem setReason_sound (reason : String) : Keeps ExitsSound (setReason reason) := exitsSound_update _

/-- The sign of the exposure decides the side. -/
theorem reduces_of_open {net : ℚ} {side : Side} (hopen : ¬ |net| ≤ flatTolerance)
    (hside : (if 0 < net then Side.sell else Side.buy) = side) : Reduces net side := by
  rw [← hside]
  by_cases hpos : 0 < net
  · rw [if_pos hpos]
    exact hpos
  · rw [if_neg hpos]
    have hne : net ≠ 0 := by
      intro hzero
      rw [hzero, abs_zero] at hopen
      exact hopen (by decide +kernel)
    exact lt_of_le_of_ne (not_lt.mp hpos) hne

theorem covered_self {c : Coordinator} {side : Side} (h : Reduces c.netQty side) :
    Covered c side |c.netQty| := by
  have : (0 : ℚ) ≤ flatTolerance := by decide +kernel
  exact ⟨h, by linarith⟩

section Sound

variable (S : Setup)

/-! ## Placing -/

theorem placeExit_sound (side : Side) (target qty : ℚ) (permit : Option String) :
    Triple (fun w => ExitsSound w ∧ (StopsFresh w.log → Covered w.coord side qty))
      (placeExit S side target qty permit) (fun _ => ExitsSound) (fun _ => ExitsSound) := by
  refine Triple.coord (fun c => ?_)
  refine Triple.bind (Q := fun _ => ExitsSound) (Triple.ask ?_) (fun answer => ?_)
  · rintro w a ⟨⟨h, hcov⟩, rfl⟩
    refine h.extend (n := [_]) rfl ?_
    intro hfresh x hx
    rw [List.mem_singleton.mp hx]
    exact exitSound_of_order rfl (hcov (StopsFresh.tail (n := [_]) hfresh))
  · refine Triple.bind (Triple.orRaise (fun _ _ _ h => h) (fun _ _ _ h => h)) (fun replacement => ?_)
    split
    · exact Keeps.bind (exitsSound_update _) (fun _ => Keeps.pure _)
    · exact Keeps.bind (exitsSound_update _) (fun _ => Keeps.pure _)

/-- After a read that confirmed the cancel, the exit is sized by the exposure of that read. -/
theorem replaceExit_sound (side : Side) (netQty target : ℚ) (ticket : OrderTicket) (i : Nat) :
    Keeps ExitsSound (replaceExit S side netQty target ticket i) := by
  refine Keeps.bind (exitsSound_touches (touches_ask (fun _ => rfl))) (fun answer => ?_)
  refine Keeps.bind (exitsSound_touches (touches_orRaise answer)) (fun permit => ?_)
  refine Keeps.bind (exitsSound_touches (cancelAndReconcile_touches S i _)) (fun failure => ?_)
  split
  · exact Keeps.bind (setReason_sound _) (fun _ => Keeps.pure _)
  · exact Keeps.bind (setReason_sound _) (fun _ => Keeps.pure _)
  · refine Triple.coord (fun c => ?_)
    refine Triple.ite (fun _ => ?_) (fun hopen => ?_)
    · exact (Keeps.bind (concludeFlat_sound _ _) (fun _ => Keeps.pure _)).strengthen (fun _ h => h.1)
    · split
      · exact (Keeps.bind (setReason_sound _) (fun _ => Keeps.pure _)).strengthen (fun _ h => h.1)
      · rename_i next _
        -- advancing the revision does not change the exposure
        refine Triple.bind (Q := fun _ w => ExitsSound w ∧ w.coord.netQty = c.netQty)
          (Triple.update ?_) (fun _ => ?_)
        · rintro w ⟨h, rfl⟩
          exact ⟨h, rfl⟩
        · refine Triple.ite (fun _ => ?_) (fun hsame => ?_)
          · exact (Keeps.bind (setReason_sound _) (fun _ => Keeps.pure _)).strengthen
              (fun _ h => h.1)
          · refine (placeExit_sound S side target |c.netQty| (some permit)).strengthen ?_
            rintro w ⟨h, hnet⟩
            refine ⟨h, fun _ => ?_⟩
            have hcov : Covered c side |c.netQty| :=
              covered_self (reduces_of_open hopen (not_not.mp (not_or.mp hsame).1))
            exact ⟨hnet ▸ hcov.reduces, hnet ▸ hcov.bounded⟩

/-- Without an active exit order, the exposure asked for has to be the one held. -/
theorem renewExit_sound (side : Side) (netQty target : ℚ) :
    Triple (fun w => ExitsSound w ∧ (StopsFresh w.log → Covered w.coord side |netQty|))
      (renewExit S side netQty target) (fun _ => ExitsSound) (fun _ => ExitsSound) := by
  refine Triple.coord (fun c => ?_)
  split
  · exact (placeExit_sound S side target _ none).strengthen (fun _ h => h.1)
  · refine Triple.ite (fun _ => ?_) (fun _ => ?_)
    · split
      · exact (Keeps.bind (exitsSound_update _) (fun _ => Keeps.bind (setReason_sound _)
          (fun _ => Keeps.pure _))).strengthen (fun _ h => h.1.1)
      · refine Triple.bind (Q := fun _ w => ExitsSound w ∧
          (StopsFresh w.log → Covered w.coord side |netQty|)) (Triple.update ?_)
          (fun _ => placeExit_sound S side target _ none)
        rintro w ⟨⟨h, hcov⟩, -⟩
        exact ⟨h, fun hfresh => ⟨(hcov hfresh).1, (hcov hfresh).2⟩⟩
    · exact (Keeps.bind (setReason_sound _) (fun _ => Keeps.pure _)).strengthen (fun _ h => h.1.1)

theorem ensureAnchoredExit_sound (exposure : Exposure) (netQty entryAvg current : ℚ) :
    Triple (fun w => ExitsSound w ∧
        (StopsFresh w.log → Covered w.coord exposure.exitSide |netQty|))
      (ensureAnchoredExit S exposure netQty entryAvg current) (fun _ => ExitsSound)
      (fun _ => ExitsSound) := by
  refine Triple.bind (Q := fun _ w => ExitsSound w ∧
    (StopsFresh w.log → Covered w.coord exposure.exitSide |netQty|))
    (Triple.orRaise (fun _ _ _ h => h) (fun _ _ _ h => h.1)) (fun target => ?_)
  refine Triple.coord (fun c => ?_)
  split
  · refine Triple.ite (fun _ => ?_) (fun _ => ?_)
    · exact Triple.pure (fun _ h => h.1.1)
    · exact (replaceExit_sound S _ netQty target _ _).strengthen (fun _ h => h.1.1)
  · exact (renewExit_sound S _ netQty target).strengthen (fun _ h => h.1)

/-! ## Stopping -/

/-- What a hard stop that did not go through leaves for the exit order that follows. -/
def Fallback (side : Side) (netQty : ℚ) (stopped : Bool) (w : World) : Prop :=
  ExitsSound w ∧ (stopped = false → stopForbidsExit w.coord.reason = true ∨
    (StopsFresh w.log → Covered w.coord side |netQty|))

theorem placeStop_sound (side : Side) (netQty exitQty : ℚ) (reason : String)
    (permit : Option String) :
    Triple (fun w => ExitsSound w ∧ Covered w.coord side exitQty)
      (placeStop S side netQty exitQty reason permit) (Fallback side netQty)
      (fun _ => ExitsSound) := by
  refine Triple.coord (fun c => ?_)
  refine Triple.bind (Q := fun _ w => ExitsSound w ∧ Covered w.coord side exitQty)
    (Triple.ask ?_) (fun answer => ?_)
  · rintro w a ⟨⟨h, hcov⟩, rfl⟩
    refine ⟨h.extend (n := [_]) rfl ?_, hcov⟩
    intro _ x hx
    rw [List.mem_singleton.mp hx]
    exact exitSound_of_order rfl hcov
  refine Triple.bind (Q := fun _ w => ExitsSound w ∧ Covered w.coord side exitQty)
    (Triple.orRaise (fun _ _ _ h => h) (fun _ _ _ h => h.1)) (fun market => ?_)
  split
  · refine Triple.bind (Q := fun _ w => ExitsSound w ∧ Covered w.coord side exitQty) ?_
      (fun pending => ?_)
    · refine ((marketExitRefused_asks S side).triple (Q := fun w => ExitsSound w ∧
        Covered w.coord side exitQty) ?_).conseq (fun _ h => h) (fun _ _ h => h) (fun _ _ h => h.1)
      rintro w w' ⟨h, hcov⟩ ha
      exact ⟨h.asked ha, ha.coord ▸ hcov⟩
    · refine Triple.ite (fun _ => ?_) (fun _ => ?_)
      · exact Triple.bind (Q := fun _ => Fallback side netQty false)
          (Triple.update (fun w h => ⟨h.1, fun _ => Or.inl rfl⟩))
          (fun _ => Triple.pure (fun _ h => h))
      · refine Triple.bind (Q := fun _ w => ExitsSound w ∧ Reduces w.coord.netQty side ∧
          (StopsFresh w.log → |netQty| ≤ |w.coord.netQty| + flatTolerance)) (Triple.mark ?_)
          (fun _ => Triple.bind (Q := fun _ => Fallback side netQty false) (Triple.update ?_)
            (fun _ => Triple.pure (fun _ h => h)))
        · rintro w ⟨h, hcov⟩
          refine ⟨h.extend (n := [_]) rfl ?_, hcov.reduces, ?_⟩
          · intro _ x hx
            rw [List.mem_singleton.mp hx]
            exact nofun
          · intro hfresh
            exact hfresh ⟨w.coord, .point (.stopRefused netQty)⟩ List.mem_cons_self netQty rfl
        · rintro w ⟨h, hred, hbound⟩
          exact ⟨h, fun _ => Or.inr (fun hfresh => ⟨hred, hbound hfresh⟩)⟩
  · exact Triple.bind (Q := fun _ => ExitsSound) (Triple.update (fun _ h => h.1))
      (fun _ => Triple.pure (fun _ h => ⟨h, fun hst => by cases hst⟩))

/-- Questions to the venue while the coordinator is known. -/
theorem exitsSound_asks {α : Type} {x : PairM α} (hx : Moves Asks x) (c : Coordinator) :
    Triple (fun w => ExitsSound w ∧ w.coord = c) x (fun _ w => ExitsSound w ∧ w.coord = c)
      (fun _ => ExitsSound) := by
  refine (hx.triple (Q := fun w => ExitsSound w ∧ w.coord = c) ?_).conseq (fun _ h => h)
    (fun _ _ h => h) (fun _ _ h => h.1)
  rintro w w' ⟨h, hc⟩ ha
  exact ⟨h.asked ha, ha.coord.trans hc⟩

theorem replaceByStop_sound (side : Side) (netQty : ℚ) (reason : String) (ticket : OrderTicket)
    (i : Nat) {c : Coordinator} (hnet : c.netQty = netQty) (hred : Reduces netQty side) :
    Triple (fun w => ExitsSound w ∧ w.coord = c) (replaceByStop S side netQty reason ticket i)
      (Fallback side netQty) (fun _ => ExitsSound) := by
  refine Triple.coord (fun c' => ?_)
  refine Triple.strengthen (P := fun w => ExitsSound w ∧ w.coord = c) ?_ (fun w h => h.1)
  refine Triple.bind (exitsSound_asks (asks_ask (fun _ => rfl)) c) (fun answer => ?_)
  refine Triple.bind (exitsSound_asks (asks_orRaise answer) c) (fun permit => ?_)
  refine Triple.bind (Q := fun failure w => ExitsSound w ∧
    (failure = some .cancelFailed → w.coord = c)) ?_ (fun failure => ?_)
  · exact ((exitsSound_touches (cancelAndReconcile_touches S i ticket.orderId)).and
      (cancelAndReconcile_failed S c i ticket.orderId)).conseq (fun _ h => h) (fun _ _ h => h)
      (fun _ _ h => h.1)
  split
  · -- the exit leg was not withdrawn, so the exposure is the one asked for
    refine Triple.bind (Q := fun _ => Fallback side netQty false) (Triple.update ?_)
      (fun _ => Triple.pure (fun _ h => h))
    rintro w ⟨h, hsame⟩
    have hc : w.coord = c := hsame rfl
    have hcov : Covered c side |netQty| := hnet ▸ covered_self (hnet ▸ hred)
    refine ⟨h, fun _ => Or.inr (fun _ => ?_)⟩
    rw [hc]
    exact ⟨hcov.reduces, hcov.bounded⟩
  · exact Triple.bind (Q := fun _ => Fallback side netQty false)
      (Triple.update (fun w h => ⟨h.1, fun _ => Or.inl rfl⟩)) (fun _ => Triple.pure (fun _ h => h))
  · refine Triple.coord (fun c'' => ?_)
    refine Triple.ite (fun _ => ?_) (fun hopen => ?_)
    · refine Triple.strengthen (P := ExitsSound) ?_ (fun w h => h.1.1)
      exact Triple.bind (Q := fun _ => ExitsSound) (concludeFlat_sound _ _)
        (fun _ => Triple.pure (fun _ h => ⟨h, fun hst => by cases hst⟩))
    · refine Triple.ite (fun _ => ?_) (fun hsame => ?_)
      · exact Triple.bind (Q := fun _ => Fallback side netQty false)
          (Triple.update (fun w h => ⟨h.1.1, fun _ => Or.inl rfl⟩))
          (fun _ => Triple.pure (fun _ h => h))
      · refine (placeStop_sound S side netQty _ reason (some permit)).strengthen ?_
        rintro w ⟨⟨h, -⟩, rfl⟩
        exact ⟨h, covered_self (reduces_of_open hopen (not_not.mp (not_or.mp hsame).1))⟩

theorem submitHardStop_sound (exposure : Exposure) (netQty entryAvg current : ℚ) {c : Coordinator}
    (hnet : c.netQty = netQty) (hred : Reduces netQty exposure.exitSide) :
    Triple (fun w => ExitsSound w ∧ w.coord = c) (submitHardStop S exposure netQty entryAvg current)
      (Fallback exposure.exitSide netQty) (fun _ => ExitsSound) := by
  have hcov : Covered c exposure.exitSide |netQty| := hnet ▸ covered_self (hnet ▸ hred)
  have hsame : ∀ w : World, ExitsSound w ∧ w.coord = c →
      Fallback exposure.exitSide netQty false w := by
    rintro w ⟨h, rfl⟩
    exact ⟨h, fun _ => Or.inr (fun _ => hcov)⟩
  refine Triple.coord (fun c' => ?_)
  refine Triple.strengthen (P := fun w => ExitsSound w ∧ w.coord = c) ?_ (fun w h => h.1)
  refine Triple.ite (fun _ => ?_) (fun _ => ?_)
  · exact Triple.pure hsame
  · refine Triple.bind (exitsSound_asks (asks_orRaise _) c) (fun loss => ?_)
    refine Triple.bind (exitsSound_asks (marketExitPermitted_asks S exposure loss _) c) (fun permitted => ?_)
    refine Triple.ite (fun _ => ?_) (fun _ => ?_)
    · split
      · refine (placeStop_sound S _ netQty _ _ none).strengthen ?_
        rintro w ⟨h, rfl⟩
        exact ⟨h, hcov⟩
      · exact replaceByStop_sound S _ netQty _ _ _ hnet hred
    · refine Triple.bind (Q := fun _ => Fallback exposure.exitSide netQty false) (Triple.update ?_)
        (fun _ => Triple.pure (fun _ h => h))
      rintro w ⟨h, rfl⟩
      exact ⟨h, fun _ => Or.inr (fun _ => ⟨hcov.reduces, hcov.bounded⟩)⟩

/-- The retry is sized by the exposure of this step's reads. -/
theorem retryTerminalHardStop_sound (netQty : ℚ) {c : Coordinator} (hnet : c.netQty = netQty) :
    Triple (fun w => ExitsSound w ∧ w.coord = c) (retryTerminalHardStop S netQty)
      (fun _ => ExitsSound) (fun _ => ExitsSound) := by
  refine Triple.coord (fun c' => ?_)
  refine Triple.strengthen (P := fun w => ExitsSound w ∧ w.coord = c) ?_ (fun w h => h.1)
  refine Triple.ite (fun _ => Triple.pure (fun _ h => h.1)) (fun hopen => ?_)
  refine Triple.ite (fun _ => (setPhase_sound _ _).strengthen (fun _ h => h.1)) (fun _ => ?_)
  have hcov : Covered c (if 0 < netQty then Side.sell else Side.buy) |netQty| := by
    rw [← hnet] at hopen ⊢
    exact covered_self (reduces_of_open hopen rfl)
  refine Triple.bind (Q := fun _ => ExitsSound) ?_ (fun market => ?_)
  · refine Triple.bind (exitsSound_asks (asks_ask (fun _ => rfl)) c) (fun answer => ?_)
    split
    · exact Triple.pure (fun _ h => h.1)
    · refine Triple.bind (Q := fun _ => ExitsSound) (Triple.ask ?_) (fun market => ?_)
      · rintro w a ⟨h, rfl⟩
        refine h.extend (n := [_]) rfl ?_
        intro _ x hx
        rw [List.mem_singleton.mp hx]
        exact exitSound_of_order rfl hcov
      · split
        · exact Keeps.pure _
        · exact Keeps.pure _
  · split
    · refine Keeps.bind (exitsSound_update _) (fun _ => ?_)
      exact Keeps.bind (exitsSound_touches (touches_of_asks (marketExitRefused_asks S _)))
        (fun _ => setReason_sound _)
    · exact exitsSound_update _

/-! ## Recovering -/

theorem recoveryReturns_sound (ok : Bool) : Keeps ExitsSound (recoveryReturns ok) :=
  Keeps.bind exitsSound_mark (fun _ => Keeps.pure _)

theorem recoverPersistedIntents_sound : Keeps ExitsSound (recoverPersistedIntents S) := by
  unfold recoverPersistedIntents
  split
  · exact recoveryReturns_sound false
  · refine Triple.coord (fun c => ?_)
    refine Triple.strengthen (P := ExitsSound) ?_ (fun w h => h.1)
    refine Keeps.bind (exitsSound_ask (fun _ _ => nofun)) (fun answer => ?_)
    split
    · exact recoveryReturns_sound false
    · refine Keeps.bind (exitsSound_update _) (fun _ => ?_)
      split
      · refine Keeps.bind (exitsSound_ask (fun _ _ => nofun)) (fun answer => ?_)
        exact Keeps.bind (exitsSound_touches (touches_orRaise answer))
          (fun _ => recoveryReturns_sound _)
      · exact Keeps.bind (exitsSound_ask (fun _ _ => nofun)) (fun _ => recoveryReturns_sound _)

/-! ## Steps -/

theorem stepStopping_sound (net : ℚ) {c : Coordinator} (hnet : c.netQty = net) :
    Triple (fun w => ExitsSound w ∧ w.coord = c) (stepStopping S net) (fun _ => ExitsSound)
      (fun _ => ExitsSound) := by
  refine Triple.coord (fun c' => ?_)
  refine Triple.strengthen (P := fun w => ExitsSound w ∧ w.coord = c) ?_ (fun w h => h.1)
  refine Triple.ite (fun _ => ?_) (fun _ => ?_)
  · exact (concludeFlat_sound _ _).strengthen (fun _ h => h.1)
  · split
    · exact Triple.ite (fun _ => retryTerminalHardStop_sound S net hnet)
        (fun _ => Triple.pure (fun _ h => h.1))
    · exact Triple.pure (fun _ h => h.1)

theorem stepHardStopRecovery_sound (net : ℚ) {c : Coordinator} (hnet : c.netQty = net) :
    Triple (fun w => ExitsSound w ∧ w.coord = c) (stepHardStopRecovery S net)
      (fun _ => ExitsSound) (fun _ => ExitsSound) := by
  refine Triple.coord (fun c' => ?_)
  refine Triple.strengthen (P := fun w => ExitsSound w ∧ w.coord = c) ?_ (fun w h => h.1)
  refine Triple.ite (fun _ => retryTerminalHardStop_sound S net hnet) (fun _ => ?_)
  refine Triple.strengthen (P := ExitsSound) ?_ (fun w h => h.1)
  refine Triple.ite (fun _ => ?_) (fun _ => Keeps.pure _)
  refine Keeps.bind (recoverPersistedIntents_sound S) (fun recovered => ?_)
  refine Triple.ite (fun _ => ?_) (fun _ => Keeps.pure _)
  refine Triple.coord (fun c'' => ?_)
  refine Triple.ite (fun _ => ?_) (fun _ => Triple.ite (fun _ => ?_) (fun _ => ?_))
  · exact (concludeFlat_sound _ _).strengthen (fun _ h => h.1)
  · exact (setReason_sound _).strengthen (fun _ h => h.1)
  · -- the exposure is read again after the recovery
    refine Triple.bind (Q := fun _ w => ExitsSound w ∧ w.coord = { c'' with phase := .stopping })
      (Triple.update ?_) (fun _ => stepStopping_sound S c''.netQty rfl)
    rintro w ⟨h, rfl⟩
    exact ⟨h, rfl⟩

theorem stepStartupRecovery_sound : Keeps ExitsSound (stepStartupRecovery S) := by
  refine Keeps.bind ?_ (fun recovered => ?_)
  · refine Triple.coord (fun c => ?_)
    refine Triple.strengthen (P := ExitsSound) ?_ (fun w h => h.1)
    exact Triple.ite (fun _ => recoverPersistedIntents_sound S) (fun _ => Keeps.pure _)
  refine Triple.ite (fun _ => ?_) (fun _ => Keeps.pure _)
  refine Keeps.bind (exitsSound_touches (cancelEach_touches S _ _)) (fun failure => ?_)
  split
  · exact Keeps.pure _
  · refine Triple.coord (fun c' => ?_)
    refine Triple.strengthen (P := ExitsSound) ?_ (fun w h => h.1)
    exact Triple.ite (fun _ => Keeps.bind (exitsSound_update _) (fun _ => Keeps.pure _))
      (fun _ => Keeps.bind (exitsSound_update _) (fun _ => Keeps.pure _))

/-- Without a verdict the round is exposed. -/
theorem closeBalanced_sound :
    Triple ExitsSound (closeBalanced S)
      (fun ended w => ExitsSound w ∧ (ended = false → ¬ |w.coord.netQty| ≤ flatTolerance))
      (fun _ => ExitsSound) := by
  refine Triple.bind (exitsSound_touches (cancelEach_touches S _ _)) (fun failure => ?_)
  refine Triple.bind (exitsSound_touches (refresh_touches S)) (fun _ => ?_)
  refine Triple.coord (fun c => ?_)
  refine Triple.ite (fun _ => ?_) (fun hopen => ?_)
  · refine Triple.strengthen (P := ExitsSound) ?_ (fun w h => h.1)
    refine Triple.ite (fun _ => ?_) (fun _ => ?_)
    · exact Triple.bind (Q := fun _ => ExitsSound) (setPhase_sound _ _)
        (fun _ => Triple.pure (fun _ h => ⟨h, fun hover => by cases hover⟩))
    · exact Triple.bind (Q := fun _ => ExitsSound) (setPhase_sound _ _)
        (fun _ => Triple.pure (fun _ h => ⟨h, fun hover => by cases hover⟩))
  · refine Triple.pure ?_
    rintro w ⟨h, rfl⟩
    exact ⟨h, fun _ => hopen⟩

theorem exposureOf_exitSide (net : ℚ) :
    (if 0 < net then Side.sell else Side.buy) = (exposureOf net).exitSide := by
  unfold exposureOf
  split_ifs <;> rfl

theorem exitExposure_sound :
    Triple (fun w => ExitsSound w ∧ ¬ |w.coord.netQty| ≤ flatTolerance) (exitExposure S)
      (fun _ => ExitsSound) (fun _ => ExitsSound) := by
  refine Triple.coord (fun c => ?_)
  refine Triple.strengthen
    (P := fun w => ¬ |c.netQty| ≤ flatTolerance ∧ (ExitsSound w ∧ w.coord = c))
    (Triple.of_fact (fun hopen => ?_)) ?_
  · have hred : Reduces c.netQty (exposureOf c.netQty).exitSide :=
      reduces_of_open hopen (exposureOf_exitSide _)
    refine Triple.bind (exitsSound_asks (asks_ask (fun _ => rfl)) c) (fun answer => ?_)
    refine Triple.bind (exitsSound_asks (asks_orRaise answer) c) (fun price => ?_)
    refine Triple.ite (fun _ => (setReason_sound _).strengthen (fun _ h => h.1)) (fun _ => ?_)
    refine Triple.bind (submitHardStop_sound S _ c.netQty _ _ rfl hred) (fun stopped => ?_)
    refine Triple.ite (fun _ => Triple.pure (fun _ h => h.1)) (fun hstopped => ?_)
    refine Triple.coord (fun c' => ?_)
    refine Triple.ite (fun _ => Triple.pure (fun _ h => h.1.1)) (fun hforbids => ?_)
    refine Triple.bind (Q := fun _ => ExitsSound) ?_ (fun _ => Keeps.pure _)
    refine (ensureAnchoredExit_sound S _ c.netQty _ _).strengthen ?_
    rintro w ⟨⟨h, hfallback⟩, rfl⟩
    rcases hfallback (Bool.eq_false_iff.mpr hstopped) with hf | hcov
    · exact absurd hf hforbids
    · exact ⟨h, hcov⟩
  · rintro w ⟨⟨h, hopen⟩, rfl⟩
    exact ⟨hopen, h, rfl⟩

theorem manageExposure_sound : Keeps ExitsSound (manageExposure S) := by
  refine Keeps.bind (exitsSound_update _) (fun _ => ?_)
  refine Triple.coord (fun c => ?_)
  refine Triple.strengthen (P := ExitsSound) ?_ (fun w h => h.1)
  refine Keeps.bind (exitsSound_touches (cancelEach_touches S _ _)) (fun failure => ?_)
  split
  · exact setReason_sound _
  · exact setReason_sound _
  · refine Keeps.bind (exitsSound_touches (refresh_touches S)) (fun _ => ?_)
    refine Triple.coord (fun c' => ?_)
    refine Triple.ite (fun _ => ?_) (fun hopen => ?_)
    · refine Triple.strengthen (P := ExitsSound) ?_ (fun w h => h.1)
      refine Triple.bind (Q := fun _ => ExitsSound) (exitsSound_update _) (fun _ => ?_)
      refine Triple.bind (closeBalanced_sound S) (fun ended => ?_)
      refine Triple.ite (fun _ => Triple.pure (fun _ h => h.1)) (fun hover => ?_)
      exact (exitExposure_sound S).strengthen
        (fun w h => ⟨h.1, h.2 (Bool.eq_false_iff.mpr hover)⟩)
    · refine (exitExposure_sound S).strengthen ?_
      rintro w ⟨h, rfl⟩
      exact ⟨h, hopen⟩

theorem stepQuotes_sound {again : PairM Unit} (hagain : Keeps ExitsSound again) (now : ℚ) :
    Keeps ExitsSound (stepQuotes S again now) := by
  refine Triple.coord (fun c => ?_)
  refine Triple.strengthen (P := ExitsSound) ?_ (fun w h => h.1)
  refine Triple.ite (fun _ => ?_) (fun _ => ?_)
  · refine Triple.coord (fun c' => ?_)
    refine Triple.strengthen (P := ExitsSound) ?_ (fun w h => h.1)
    refine Triple.ite (fun _ => ?_) (fun _ => manageExposure_sound S)
    refine Triple.bind (closeBalanced_sound S) (fun ended => ?_)
    exact (Triple.ite (fun _ => Keeps.pure _) (fun _ => manageExposure_sound S)).strengthen
      (fun _ h => h.1)
  · refine Triple.coord (fun c' => ?_)
    refine Triple.strengthen (P := ExitsSound) ?_ (fun w h => h.1)
    refine Triple.ite (fun _ => ?_) (fun _ => Keeps.pure _)
    refine Keeps.bind (exitsSound_touches (Moves.foldlM Touches.refl Touches.trans
      (fun _ i => cancelOptimistic_touches S i) () _)) (fun _ => ?_)
    refine Keeps.bind (exitsSound_touches (refresh_touches S)) (fun _ => ?_)
    refine Triple.coord (fun c'' => ?_)
    refine Triple.strengthen (P := ExitsSound) ?_ (fun w h => h.1)
    exact Triple.ite (fun _ => hagain) (fun _ =>
      Triple.ite (fun _ => setReason_sound _) (fun _ => setPhase_sound _ _))

theorem stepBody_sound (now : ℚ) (fuel : Nat) : Keeps ExitsSound (stepBody S now fuel) := by
  induction fuel with
  | zero => exact Keeps.throw _
  | succ fuel ih =>
      refine Triple.coord (fun c => ?_)
      refine Triple.strengthen (P := ExitsSound) ?_ (fun w h => h.1)
      refine Triple.ite (fun _ => Keeps.pure _) (fun _ => ?_)
      refine Triple.ite (fun _ => Keeps.throw _) (fun _ => ?_)
      refine Keeps.bind (exitsSound_touches (refresh_touches S)) (fun _ => ?_)
      refine Keeps.bind (exitsSound_update _) (fun _ => ?_)
      refine Triple.coord (fun c' => ?_)
      split
      · refine Triple.strengthen (P := ExitsSound) ?_ (fun w h => h.1)
        refine Keeps.bind (stepStartupRecovery_sound S) (fun goesOn => ?_)
        exact Triple.ite (fun _ => stepQuotes_sound S ih now) (fun _ => Keeps.pure _)
      · exact stepHardStopRecovery_sound S c'.netQty rfl
      · exact stepStopping_sound S c'.netQty rfl
      · exact (stepQuotes_sound S ih now).strengthen (fun _ h => h.1)

theorem step_sound (now : ℚ) (fuel : Nat) : Keeps ExitsSound (step S now fuel) := by
  refine Keeps.bind (stepBody_sound S now fuel) (fun _ => ?_)
  exact Triple.coord (fun c => Triple.pure (fun _ h => h.1))

/-! ## Starting -/

theorem placeEntry_sound (side : Side) (price : ℚ) :
    Keeps ExitsSound (placeEntry S side price) := by
  refine Triple.coord (fun c => ?_)
  refine Triple.strengthen (P := ExitsSound) ?_ (fun w h => h.1)
  exact exitsSound_ask (fun _ _ => nofun)

theorem firstLegFailed_sound (side : Side) (raised : Bool) :
    Keeps ExitsSound (firstLegFailed S side raised) := by
  refine Keeps.bind (exitsSound_touches (touches_of_asks (placeFailureReason_asks S side)))
    (fun reason => ?_)
  refine Keeps.bind (exitsSound_touches (touches_of_asks (legRecoveryPending_asks S raised reason)))
    (fun pending => ?_)
  exact Triple.ite (fun _ => setPhase_sound _ _) (fun _ => setPhase_sound _ _)

theorem secondLegFailed_sound (side : Side) (raised : Bool) (firstId : String) :
    Keeps ExitsSound (secondLegFailed S side raised firstId) := by
  refine Keeps.bind (exitsSound_touches (touches_of_asks (placeFailureReason_asks S side)))
    (fun reason => ?_)
  refine Keeps.bind (exitsSound_touches (cancelAndReconcile_touches S 0 firstId)) (fun failure => ?_)
  refine Keeps.bind (exitsSound_touches (touches_of_asks (legRecoveryPending_asks S raised reason)))
    (fun pending => ?_)
  split
  · exact Keeps.bind exitsSound_mark (fun _ => setPhase_sound _ _)
  · refine Triple.ite (fun _ => setPhase_sound _ _) (fun _ => ?_)
    refine Triple.coord (fun c => ?_)
    exact (Triple.ite (fun _ => setPhase_sound _ _) (fun _ => setPhase_sound _ _)).strengthen
      (fun _ h => h.1)

theorem placeLegs_sound (prices : ℚ × ℚ) : Keeps ExitsSound (placeLegs S prices) := by
  refine Triple.coord (fun c => ?_)
  refine Triple.strengthen (P := ExitsSound) ?_ (fun w h => h.1)
  refine Keeps.bind (placeEntry_sound S _ _) (fun first => ?_)
  split
  · refine Keeps.bind (exitsSound_update _) (fun _ => ?_)
    refine Keeps.bind (placeEntry_sound S _ _) (fun second => ?_)
    split
    · exact Keeps.bind (exitsSound_update _) (fun _ => exitsSound_update _)
    · exact secondLegFailed_sound S _ _ _
    · exact secondLegFailed_sound S _ _ _
  · exact firstLegFailed_sound S _ _
  · exact firstLegFailed_sound S _ _

theorem start_sound (mid : Option ℚ) (pairId : String) (clock : ℚ) :
    Keeps ExitsSound (start S mid pairId clock) := by
  refine Triple.coord (fun c => ?_)
  refine Triple.strengthen (P := ExitsSound) ?_ (fun w h => h.1)
  refine Triple.ite (fun _ => Keeps.throw _) (fun _ => ?_)
  refine Keeps.bind (exitsSound_touches (touches_of_asks (startMid_asks S mid))) (fun mid => ?_)
  refine Keeps.bind (exitsSound_touches (touches_orRaise _)) (fun prices => ?_)
  refine Keeps.bind (exitsSound_update _) (fun _ => ?_)
  refine Keeps.bind (placeLegs_sound S prices) (fun _ => ?_)
  exact Triple.coord (fun c => Triple.pure (fun _ h => h.1))

end Sound

/-! ## The main result -/

/-- **Exit orders stay within the exposure.** In every run in which no refused hard stop had
seen its exit leg fill, every exit order is on the reducing side and no larger than the net
position of the snapshots held when it is placed. -/
theorem exits_within_exposure {S : Setup} {w : World} (h : w.Reachable S)
    (hfresh : StopsFresh w.log) : ∀ x ∈ w.log, x.ExitSound := by
  have hsound : ExitsSound w := by
    refine h.invariant ?_ (start_sound S) (step_sound S) ?_
    · rintro w ⟨hlog, -⟩ _ x hx
      rw [hlog] at hx
      cases hx
    · intro w clock hw
      rw [w.restarted_eq clock]
      exact hw
  exact hsound hfresh

/-! ## A refused stop -/

instance (net : ℚ) : DecidablePred (Reduces net)
  | .sell => inferInstanceAs (Decidable (0 < net))
  | .buy => inferInstanceAs (Decidable (net < 0))

instance (c : Coordinator) (side : Side) (qty : ℚ) : Decidable (Covered c side qty) :=
  decidable_of_iff (Reduces c.netQty side ∧ qty ≤ |c.netQty| + flatTolerance)
    ⟨fun h => ⟨h.1, h.2⟩, fun h => ⟨h.reduces, h.bounded⟩⟩

instance (x : Call) : Decidable x.ExitSound :=
  inferInstanceAs (Decidable (∀ o ∈ x.event.exitOrder, Covered x.before o.1 o.2))

instance (x : Call) : Decidable x.StopFresh :=
  inferInstanceAs (Decidable (∀ net ∈ x.event.refusedStop, |net| ≤ |x.before.netQty| + flatTolerance))

instance (log : List Call) : Decidable (StopsFresh log) :=
  inferInstanceAs (Decidable (∀ x ∈ log, x.StopFresh))

/-- The price falls to 80 after the BUY leg filled; the venue refuses market exits, and reads
the withdrawn SELL leg as filled by `raced`. -/
def refusingVenue (raced : ℚ) (hraced : 0 ≤ raced) : Venue :=
  { sampleVenue with
    currentPrice := fun _ => .ok (some 80)
    placeMarketExit := fun _ _ => .ok none
    orderStatus := fun n orderId =>
      if orderId = "BUY-0" then .ok filledRead
      else if n < 11 then .ok OrderSnapshot.unread
      else .ok (sampleRead .canceled raced (101 * raced) hraced (by linarith)) }

def refusedStop (raced : ℚ) (hraced : 0 ≤ raced) : World :=
  sampleStart.run ⟨refusingVenue raced hraced, samplePolicy⟩
    [.start (some 100) "pair-1" 0, .step 1 1000]

theorem refusedStop_sound_without_race :
    (refusedStop 0 (le_refl 0)).log.length = 16 ∧
      ∀ x ∈ (refusedStop 0 (le_refl 0)).log, x.ExitSound := by
  refine ⟨by decide +kernel, ?_⟩
  exact exits_within_exposure (run_reachable _ (Reach.start sampleStart_initial))
    (by decide +kernel)

/-- The exit order is sized by the exposure of 10 although 6 are left. -/
theorem refusedStop_oversized_after_race :
    World.Reachable ⟨refusingVenue 4 (by decide +kernel), samplePolicy⟩
        (refusedStop 4 (by decide +kernel)) ∧
      ¬ ∀ x ∈ (refusedStop 4 (by decide +kernel)).log, x.ExitSound :=
  ⟨run_reachable _ (Reach.start sampleStart_initial), by decide +kernel⟩

end TradingFleet.Pair
