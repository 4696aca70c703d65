import TradingFleet.Trading212.Moves

set_option autoImplicit false

/-! # Trading 212: every live tick is a walk

One specification for each program of a live tick: from a world that was walked to from `w₀`, it
walks on, also when it raises. While it does not raise, the last write has succeeded.
-/

namespace TradingFleet.Trading212

open TradingFleet.Text hiding orElse
open TradingFleet.Lifecycle TradingFleet.Hoare
open TradingFleet.Keyed (updateFirst mem_replaced replaced_mem replaced_keeps)
open TradingFleet.Rounding (roundTo)

/-! ## Assertions -/

section Assertions

variable {S : Setup} {w₀ : World} {f g : World → Prop}

/-- Walked to from `w₀`, with the state on disk, and `f` holds. -/
def At (S : Setup) (w₀ : World) (f : World → Prop) (w : World) : Prop :=
  Walks S w₀ w ∧ w.writeFailed = false ∧ f w

/-- Where a program stops that raises. -/
def Gone (S : Setup) (w₀ : World) (_ : Stop) (w : World) : Prop :=
  Walks S w₀ w

theorem At.gone {w : World} (h : At S w₀ f w) (e : Stop) : Gone S w₀ e w := h.1

theorem At.imp {w : World} (h : At S w₀ f w) (hfg : f w → g w) : At S w₀ g w :=
  ⟨h.1, h.2.1, hfg h.2.2⟩

theorem At.step {w w' : World} (h : At S w₀ f w) (hmove : Move S w w')
    (hok : w'.writeFailed = false) (hg : g w') : At S w₀ g w' :=
  ⟨h.1.tail hmove, hok, hg⟩

variable {α β : Type} {R : β → World → Prop} {E : Stop → World → Prop}

theorem state_at {k : State → StratM β}
    (h : ∀ s, Triple (At S w₀ (fun w => f w ∧ w.s = s)) (k s) R E) :
    Triple (At S w₀ f) (state >>= k) R E :=
  fun w hw => h w.s w ⟨hw.1, hw.2.1, hw.2.2, rfl⟩

/-- The number of calls, and the cache of the trend gate, do not matter for `f`. -/
def Quiet (f : World → Prop) : Prop :=
  ∀ (w : World) (n : Nat) (gate : ℚ), f w → f { w with calls := n, dcaGateUntil := gate }

/-- What is written beside the state in memory does not matter for `f`. -/
structure Closed (f : World → Prop) : Prop where
  quiet : Quiet f
  log : ∀ w (e : Entry), e.event.quiet = true → f w → f { w with log := e :: w.log }
  save : ∀ w n, f w → f { w with saved := w.s, writeFailed := false, calls := n }

/-- A fact about the state in memory. -/
def On (P : State → Prop) (w : World) : Prop := P w.s

theorem closed_on (P : State → Prop) : Closed (On P) :=
  ⟨fun _ _ _ h => h, fun _ _ _ h => h, fun _ _ h => h⟩

theorem ask_at (hf : Quiet f) (answer : Nat → Except Stop α) :
    Triple (At S w₀ f) (ask answer) (fun a w => At S w₀ f w ∧ ∃ n, answer n = .ok a)
      (Gone S w₀) := by
  intro w hw
  have hmove : Move S w { w with calls := w.calls + 1 } := .called (w.calls + 1) w.dcaGateUntil
  unfold ask
  cases ha : answer w.calls with
  | ok a => exact ⟨⟨hw.1.tail hmove, hw.2.1, hf w _ w.dcaGateUntil hw.2.2⟩, w.calls, ha⟩
  | error e => exact hw.1.tail hmove

/-- A call of which only the answer matters. -/
theorem asking (hf : Quiet f) {answer : Nat → Except Stop α} {k : α → StratM β}
    (hk : ∀ a, Triple (At S w₀ f) (k a) R (Gone S w₀)) :
    Triple (At S w₀ f) (ask answer >>= k) R (Gone S w₀) :=
  Triple.bind (ask_at hf answer) (fun a => (hk a).strengthen (fun _ hw => hw.1))

theorem update_at {u : State → State}
    (hmove : ∀ w, f w → w.writeFailed = false → Move S w { w with s := u w.s })
    (hg : ∀ w, f w → g { w with s := u w.s }) :
    Triple (At S w₀ f) (update u) (fun _ => At S w₀ g) E :=
  fun w hw => ⟨hw.1.tail (hmove w hw.2.2 hw.2.1), hw.2.1, hg w hw.2.2⟩

theorem mark_at (e : Event) (hquiet : e.quiet = true)
    (hg : ∀ w, f w → g { w with log := ⟨w.s, e⟩ :: w.log }) :
    Triple (At S w₀ f) (mark e) (fun _ => At S w₀ g) E :=
  fun w hw => ⟨hw.1.tail (.logged e hquiet), hw.2.1, hg w hw.2.2⟩

/-- What the event says has not been done yet. -/
def Owed (S : Setup) (w₀ : World) (f : World → Prop) (e : Event)
    (w : World) : Prop :=
  ∃ w₁, At S w₀ f w₁ ∧ w = { w₁ with log := ⟨w₁.s, e⟩ :: w₁.log }

theorem mark_owed (e : Event) :
    Triple (At S w₀ f) (mark e) (fun _ => Owed S w₀ f e) E :=
  fun w hw => ⟨w, hw, rfl⟩

theorem settle_owed {e : Event} {u : State → State}
    (hmove : ∀ w, f w → w.writeFailed = false →
      Move S w { w with s := u w.s, log := ⟨w.s, e⟩ :: w.log })
    (hg : ∀ w, f w → g { w with s := u w.s, log := ⟨w.s, e⟩ :: w.log }) :
    Triple (Owed S w₀ f e) (update u) (fun _ => At S w₀ g) E := by
  rintro w ⟨w₁, hw, rfl⟩
  exact ⟨hw.1.tail (hmove w₁ hw.2.2 hw.2.1), hw.2.1, hg w₁ hw.2.2⟩

theorem raise_at (e : Exc) {Q : α → World → Prop} :
    Triple (At S w₀ f) (raise e : StratM α) Q (Gone S w₀) :=
  fun _ hw => hw.1

theorem done {Q : α → World → Prop} {a : α} (h : ∀ w, At S w₀ f w → Q a w) :
    Triple (At S w₀ f) (pure a : StratM α) Q E :=
  Triple.pure h

/-- The same for a fact that is weakened. -/
theorem done_at {a : α} (h : ∀ {w}, f w → g w) :
    Triple (At S w₀ f) (pure a : StratM α) (fun _ => At S w₀ g) E :=
  Triple.pure (fun _ hw => hw.imp h)

/-- A save also ends the time in which nothing is decided. -/
theorem save_from
    (hf : ∀ w n, f w → f { w with saved := w.s, writeFailed := false, calls := n })
    (hlive : S.dryRun = false) :
    Triple (fun w => Walks S w₀ w ∧ f w) (save S) (fun _ => At S w₀ f)
      (Gone S w₀) := by
  intro w hw
  have hcall : ∀ n, Move S w { w with calls := n } := fun n => .called n w.dcaGateUntil
  unfold save
  cases S.venue.save w.calls with
  | stored =>
      have hsaved : Move S { w with calls := w.calls + 1 } { w with
          saved := w.s, writeFailed := false, calls := w.calls + 1 } := .saved
      exact ⟨(hw.1.tail (hcall _)).tail hsaved, rfl, hf w _ hw.2⟩
  | failed =>
      have hfailed : Move S { w with calls := w.calls + 1 } { w with
          writeFailed := true, calls := w.calls + 1 } := .saveFailed
      simp only [hlive]
      exact (hw.1.tail (hcall _)).tail hfailed
  | crashed replaced =>
      have hfailed : Move S { w with calls := w.calls + 1 } { w with
          writeFailed := true, calls := w.calls + 1 } := .saveFailed
      have hwalk := (hw.1.tail (hcall _)).tail hfailed
      by_cases hr : replaced = true
      · -- the file was replaced, and the process ends before it can notice
        have hsaved : Move S { w with calls := w.calls + 1 } { w with
            saved := w.s, writeFailed := false, calls := w.calls + 1 } := .saved
        have hfailed' : Move S { w with
            saved := w.s, writeFailed := false, calls := w.calls + 1 } { w with
            saved := w.s, writeFailed := true, calls := w.calls + 1 } := .saveFailed
        simp only [hr, if_true]
        exact ((hw.1.tail (hcall _)).tail hsaved).tail hfailed'
      · simp only [hr]
        exact hwalk

theorem save_at (hf : ∀ w n, f w → f { w with saved := w.s, writeFailed := false, calls := n })
    (hlive : S.dryRun = false) :
    Triple (At S w₀ f) (save S) (fun _ => At S w₀ f) (Gone S w₀) :=
  (save_from hf hlive).strengthen (fun _ hw => ⟨hw.1, hw.2.2⟩)

end Assertions

/-! ## Submits -/

section Submits

variable {S : Setup} {w₀ : World} (hlive : S.dryRun = false)

/-- The state is exactly `s`. -/
def Is (s : State) (w : World) : Prop := w.s = s

theorem quiet_is (s : State) : Quiet (Is s) := fun _ _ _ h => h

include hlive

theorem persist_at {s : State} (pending : Option Pending)
    (hmove : ∀ w, Is s w → w.writeFailed = false →
      Move S w { w with s := { w.s with pendingSubmit := pending } }) :
    Triple (At S w₀ (Is s)) (persistPendingSubmit S pending)
      (fun _ => At S w₀ (Is { s with pendingSubmit := pending })) (Gone S w₀) := by
  unfold persistPendingSubmit
  refine Triple.bind (update_at hmove ?_) (fun _ => save_at (fun _ _ h => h) hlive)
  intro w hw
  show ({ w.s with pendingSubmit := pending } : State) = _
  rw [hw]

theorem settle_persist {s : State} {e : Event}
    (hmove : ∀ w, Is s w → w.writeFailed = false →
      Move S w { w with
        s := { w.s with pendingSubmit := none }, log := ⟨w.s, e⟩ :: w.log }) :
    Triple (Owed S w₀ (Is s) e) (persistPendingSubmit S none)
      (fun _ => At S w₀ (Is { s with pendingSubmit := none })) (Gone S w₀) := by
  unfold persistPendingSubmit
  refine Triple.bind (settle_owed hmove ?_) (fun _ => save_at (fun _ _ h => h) hlive)
  intro w hw
  show ({ w.s with pendingSubmit := none } : State) = _
  rw [hw]

/-- A submit is on disk before its POST. -/
theorem pend_at {s : State} {p : Pending} (hfree : s.pendingSubmit = none)
    (hplacing : Placing S s p) :
    Triple (At S w₀ (Is s)) (persistPendingSubmit S (some p))
      (fun _ => At S w₀ (Is { s with pendingSubmit := some p })) (Gone S w₀) := by
  intro w hw
  obtain ⟨hwalk, -, hs⟩ := hw
  cases hs
  let next : World := { w with s := { w.s with pendingSubmit := some p } }
  have hwalk' : Walks S w₀ { w with calls := w.calls + 1 } :=
    hwalk.tail (.called (w.calls + 1) w.dcaGateUntil)
  have hfailed : Walks S w₀ { next with writeFailed := true, calls := w.calls + 1 } :=
    hwalk'.tail (.pendFailed hfree hplacing)
  have hsaved : Walks S w₀ { next with
      saved := next.s, writeFailed := false, calls := w.calls + 1 } :=
    hwalk'.tail (.pended hfree hplacing)
  show Post _ _ (save S next)
  unfold save
  dsimp only [next]
  cases S.venue.save w.calls with
  | stored => exact ⟨hsaved, rfl, rfl⟩
  | failed =>
      simp only [hlive]
      exact hfailed
  | crashed replaced =>
      by_cases hr : replaced = true
      · simp only [hr, if_true]
        exact hsaved.tail .saveFailed
      · simp only [hr]
        exact hfailed

/-- The state after an order was adopted. -/
def State.adopting (s : State) (p : Pending) (orderId : String) : State :=
  { s with orders := s.orders ++ [p.order orderId], pendingSubmit := none }

theorem adoptPendingSubmit_at {s : State} {p : Pending} {orderId : String}
    (hp : s.pendingSubmit = some p) (hid : ¬ Paper orderId) :
    Triple (At S w₀ (Is s)) (adoptPendingSubmit S orderId)
      (fun _ => At S w₀ (Is (s.adopting p orderId))) (Gone S w₀) := by
  unfold adoptPendingSubmit
  refine state_at (fun s' => ?_)
  intro w hw
  obtain ⟨hwalk, hok, hs, hs'⟩ := hw
  have hsame : s' = s := hs'.symm.trans hs
  subst hsame
  rw [hp]
  dsimp only
  refine Triple.bind (mark_owed (f := Is s') _) (fun _ => ?_) w ⟨hwalk, hok, hs⟩
  refine Triple.bind (settle_owed (g := Is (s'.adopting p orderId)) ?_ ?_)
    (fun _ => save_at (fun _ _ h => h) hlive)
  · intro w hw hok
    refine .adopted orderId ?_ hok hid
    rw [hw]
    exact hp
  · intro w hw
    show ({ w.s with orders := _, pendingSubmit := none } : State) = _
    rw [hw]
    rfl

/-- The state a submit leaves, by its outcome. -/
def State.afterSubmit (s : State) (p : Pending) (outcome : SubmissionOutcome) : State :=
  match outcome.state with
  | .accepted => s.adopting p (outcome.orderId.getD "None")
  | .refused => s
  | .unknown => { s with pendingSubmit := some p }

theorem submitPendingOrder_at (hids : VenueIds S) {s : State} {p : Pending}
    (hfree : s.pendingSubmit = none) (hplacing : Placing S s p) :
    Triple (At S w₀ (Is s)) (submitPendingOrder S p)
      (fun outcome => At S w₀ (Is (s.afterSubmit p outcome))) (Gone S w₀) := by
  let pended : State := { s with pendingSubmit := some p }
  have hplacing' : Placing S pended p := fun hside => (hplacing hside).congr rfl rfl rfl rfl
  unfold submitPendingOrder
  refine Triple.bind (pend_at hlive hfree hplacing) (fun _ => ?_)
  refine Triple.bind (ask_at (quiet_is pended) S.venue.submit) (fun answer => ?_)
  intro w hw
  obtain ⟨hw, n, hn⟩ := hw
  have hpending : ∀ v : World, Is pended v → v.s.pendingSubmit = some p := by
    intro v hv
    rw [hv]
  have hrule : ∀ v : World, Is pended v → Placing S v.s p := by
    intro v hv
    rw [hv]
    exact hplacing'
  dsimp only
  -- the pending order goes with an answer that says what became of it, and stays otherwise
  cases hstate : (captureSubmission answer).state with
  | accepted =>
      have hid : ¬ Paper ((captureSubmission answer).orderId.getD "None") := by
        cases ho : (captureSubmission answer).orderId with
        | none => decide
        | some id => exact hids.submit n answer id hn ho
      have hafter : s.afterSubmit p (captureSubmission answer) =
          pended.adopting p ((captureSubmission answer).orderId.getD "None") := by
        unfold State.afterSubmit
        rw [hstate]
        rfl
      refine Triple.bind (Q := fun _ => At S w₀ (Is pended)) ?_ (fun _ => ?_) w hw
      · exact fun v hv => ⟨hv.1.tail (.submitted (hpending v hv.2.2) hv.2.1 (hrule v hv.2.2)), hv.2⟩
      · refine Triple.bind (adoptPendingSubmit_at hlive rfl hid) (fun _ => done (fun v hv => ?_))
        rw [hafter]
        exact hv
  | refused =>
      have hafter : s.afterSubmit p (captureSubmission answer) =
          { pended with pendingSubmit := none } := by
        unfold State.afterSubmit
        rw [hstate, ← hfree]
      refine Triple.bind (mark_owed (f := Is pended) _) (fun _ => ?_) w hw
      refine Triple.bind (settle_persist hlive ?_) (fun _ => done (fun v hv => ?_))
      · exact fun v hv _ => .refused (hpending v hv) (hrule v hv) hstate
      · rw [hafter]
        exact hv
  | unknown =>
      have hafter : s.afterSubmit p (captureSubmission answer) = pended := by
        unfold State.afterSubmit
        rw [hstate]
      refine Triple.bind (Q := fun _ => At S w₀ (Is pended)) ?_ (fun _ => ?_) w hw
      · exact fun v hv => ⟨hv.1.tail (.submitted (hpending v hv.2.2) hv.2.1 (hrule v hv.2.2)), hv.2⟩
      · refine Triple.bind (persist_at hlive (some p) (fun v hv _ => .note ?_))
          (fun _ => done (fun v hv => ?_))
        · simp [SameTracking, hpending v hv]
        · rw [hafter]
          exact hv

omit hlive in
theorem newPendingSubmit_at {s : State} (side : Side) (qty limit : ℚ) (amount : Option ℚ)
    (kind : Kind) (level : Option ℚ) (market : Bool) :
    Triple (At S w₀ (Is s)) (newPendingSubmit S side qty limit amount kind level market)
      (fun p w => At S w₀ (Is s) w ∧ p.side = side ∧ p.qty = qty ∧ p.kind = kind ∧
        p.level = level) (Gone S w₀) := by
  unfold newPendingSubmit
  refine Triple.get (fun v hv => ?_)
  refine Triple.strengthen (P := At S w₀ (Is s)) ?_ (fun w hw => hw ▸ hv)
  refine asking (quiet_is s) (fun t => Triple.pure (fun w hw => ⟨hw, rfl, rfl, rfl, rfl⟩))

end Submits

/-! ## Placing and cancelling -/

section Placing

variable {S : Setup} {w₀ : World} (hlive : S.dryRun = false)

/-- Only the fields that nothing here looks at differ. -/
def Free (_ : World) : Prop := True

theorem quiet_free : Quiet Free := fun _ _ _ _ => trivial

theorem At.free {f : World → Prop} {w : World} (h : At S w₀ f w) : At S w₀ Free w :=
  h.imp (fun _ => trivial)

/-- The position is the one of `s`, unless nothing is held any more; SELLs were only added at
`level`. -/
def After (s : State) (level : Option ℚ) (s' : State) : Prop :=
  s'.tpSoldLevels = s.tpSoldLevels ∧
    (flatQty < s'.qty → s'.qty = s.qty ∧ s'.costUsd = s.costUsd) ∧
    ∀ o ∈ s'.orders, o.side = .sell → o.level = level ∨ ∃ o' ∈ s.orders, o'.side = .sell ∧
      o'.level = o.level

theorem After.refl (s : State) (level : Option ℚ) : After s level s :=
  ⟨rfl, fun _ => ⟨rfl, rfl⟩, fun o ho hside => Or.inr ⟨o, ho, hside, rfl⟩⟩

theorem After.ownedZero {s s' : State} {level : Option ℚ} (h : After s level s') (t : ℚ) :
    After s level (s'.ownedZero t) := by
  refine ⟨h.1, fun hheld => ?_, fun o ho => by cases ho⟩
  have hzero : flatQty < (0 : ℚ) := hheld
  unfold flatQty at hzero
  norm_num at hzero

theorem after_submit {s : State} {p : Pending} (outcome : SubmissionOutcome) :
    After s p.level (s.afterSubmit p outcome) := by
  unfold State.afterSubmit
  cases outcome.state with
  | accepted =>
      refine ⟨rfl, fun _ => ⟨rfl, rfl⟩, fun o ho hside => ?_⟩
      rcases List.mem_append.mp ho with ho | ho
      · exact Or.inr ⟨o, ho, hside, rfl⟩
      · rw [List.mem_singleton.mp ho]
        exact Or.inl rfl
  | refused => exact After.refl s p.level
  | unknown => exact ⟨rfl, fun _ => ⟨rfl, rfl⟩, fun o ho hside => Or.inr ⟨o, ho, hside, rfl⟩⟩

include hlive

theorem sellNotAccepted_at {s s' : State} {level : Option ℚ} (h : After s level s')
    (outcome : SubmissionOutcome) :
    Triple (At S w₀ (Is s')) (sellNotAccepted S outcome)
      (fun _ => At S w₀ (fun w => After s level w.s)) (Gone S w₀) := by
  have hstay : ∀ b : Bool, Triple (At S w₀ (Is s')) (pure b : StratM Bool)
      (fun _ => At S w₀ (fun w => After s level w.s)) (Gone S w₀) := fun b =>
    done (fun w hw => hw.imp (fun hs => by rw [hs]; exact h))
  unfold sellNotAccepted
  split
  · cases ownedQuantity outcome.reason with
    | none => exact hstay _
    | some digits =>
        dsimp only
        cases parseFloat digits with
        | none => exact raise_at _
        | some owned =>
            dsimp only
            split
            · refine asking (quiet_is s') (fun t => ?_)
              refine Triple.bind (mark_owed (f := Is s') _) (fun _ => ?_)
              refine Triple.bind (settle_owed (g := fun w => After s level w.s)
                (fun w _ _ => .ownedZero t) (fun w hw => ?_)) (fun _ => ?_)
              · show After s level (w.s.ownedZero t)
                rw [hw]
                exact h.ownedZero t
              · exact Triple.bind (save_at (fun _ _ hw => hw) hlive) (fun _ => done (fun _ hw => hw))
            · exact hstay _
  · exact hstay _

/-- `_place_sell`, for a SELL that the decisions ask for. -/
theorem placeSell_at (hids : VenueIds S) {s : State} {qty : ℚ} (limit : ℚ) (level : Option ℚ)
    (kind : Kind) (market : Bool)
    (hrule : ∀ p : Pending, p.qty = roundTo qty 2 → p.kind = kind → p.level = level →
      SellRule S s p) :
    Triple (At S w₀ (Is s)) (placeSell S qty limit level kind market)
      (fun _ => At S w₀ (fun w => After s level w.s)) (Gone S w₀) := by
  have hstay : ∀ b : Bool, Triple (At S w₀ (Is s)) (pure b : StratM Bool)
      (fun _ => At S w₀ (fun w => After s level w.s)) (Gone S w₀) := fun b =>
    done (fun w hw => hw.imp (fun hs => by rw [hs]; exact After.refl s level))
  unfold placeSell
  refine state_at (fun s' => ?_)
  refine Triple.strengthen (P := fun w => s' = s ∧ At S w₀ (Is s) w) ?_
    (fun w hw => ⟨hw.2.2.2.symm.trans hw.2.2.1, hw.imp And.left⟩)
  refine Triple.of_fact (fun hsame => ?_)
  subst hsame
  split
  · exact hstay _
  · rw [if_neg (by simp [hlive])]
    split
    · exact hstay _
    · rename_i hpending
      have hfree : s'.pendingSubmit = none := by simpa using hpending
      refine Triple.bind (newPendingSubmit_at _ _ _ _ _ _ _) (fun p => ?_)
      refine Triple.strengthen (P := fun w => (p.side = .sell ∧ p.qty = roundTo qty 2 ∧
        p.kind = kind ∧ p.level = level) ∧ At S w₀ (Is s') w) ?_ (fun w hw => ⟨hw.2, hw.1⟩)
      refine Triple.of_fact (fun hp => ?_)
      obtain ⟨-, hq, hk, hl⟩ := hp
      refine Triple.bind (submitPendingOrder_at hlive hids hfree (fun _ => hrule p hq hk hl))
        (fun outcome => ?_)
      have hafter : After s' level (s'.afterSubmit p outcome) := by
        rw [← hl]
        exact after_submit outcome
      split
      · exact done (fun w hw => hw.imp (fun hs => by rw [hs]; exact hafter))
      · exact sellNotAccepted_at hlive hafter outcome

theorem placeBuy_at (hids : VenueIds S) (amount limit : ℚ) (kind : Kind) :
    Triple (At S w₀ Free) (placeBuy S amount limit kind)
      (fun _ => At S w₀ Free) (Gone S w₀) := by
  unfold placeBuy
  refine state_at (fun s => ?_)
  refine Triple.strengthen (P := At S w₀ (Is s)) ?_ (fun w hw => hw.imp And.right)
  split
  · exact done (fun _ hw => hw.free)
  · rw [if_neg (by simp [hlive])]
    split
    · exact done (fun _ hw => hw.free)
    · rename_i hpending
      have hfree : s.pendingSubmit = none := by simpa using hpending
      refine Triple.bind (newPendingSubmit_at _ _ _ _ _ _ _) (fun p => ?_)
      refine Triple.strengthen (P := fun w => p.side = .buy ∧ At S w₀ (Is s) w) ?_
        (fun w hw => ⟨hw.2.1, hw.1⟩)
      refine Triple.of_fact (fun hside => ?_)
      have hplacing : Placing S s p := by
        intro hsell
        rw [hside] at hsell
        cases hsell
      refine Triple.bind (submitPendingOrder_at hlive hids hfree hplacing) (fun outcome => ?_)
      refine Triple.strengthen (P := At S w₀ Free) ?_ (fun _ hw => hw.free)
      split
      · exact done (fun _ hw => hw)
      · split
        · exact asking quiet_free (fun t =>
            update_at (fun w _ _ => .note rfl) (fun _ _ => trivial))
        · exact done (fun _ hw => hw)

/-- A cancel is a request: the order stays, with a mark. -/
theorem cancelSpecific_at {f : World → Prop} (hf : Closed f) {o : Order} (hid : ¬ Paper o.id)
    (hmark : ∀ w, f w →
      f { w with s := w.s.replaceOrder o { o with cancelRequested := true } }) :
    Triple (At S w₀ f) (cancelSpecific S o) (fun _ => At S w₀ f) (Gone S w₀) := by
  unfold cancelSpecific
  have hnot : ¬ (S.dryRun = true ∨ startsWith o.id "PAPER" = true) := by
    rw [hlive]
    rintro (h | h)
    · cases h
    · exact hid h
  rw [if_neg hnot]
  split
  · exact done (fun _ hw => hw)
  · refine asking hf.quiet (fun answer => ?_)
    refine Triple.bind (mark_at (g := f) _ rfl (fun w hw => hf.log w ⟨w.s, _⟩ rfl hw)) (fun _ => ?_)
    cases answer with
    | error e =>
        dsimp only
        split
        · exact done (fun _ hw => hw)
        · exact raise_at e
    | ok _ =>
        refine asking hf.quiet (fun t => ?_)
        refine Triple.bind (update_at (g := f) (fun w _ _ => .marked ?_) hmark) (fun _ => ?_)
        · exact ⟨rfl, rfl, rfl, rfl, rfl, rfl, id⟩
        · exact Triple.bind (save_at hf.save hlive) (fun _ => done (fun _ hw => hw))

end Placing

/-! ## Cancels and exits -/

theorem live_of_ids {w w' : World} (hw : w.Live)
    (horders : ∀ o ∈ w'.s.orders, ∃ o' ∈ w.s.orders, o'.id = o.id)
    (hsaved : w'.saved = w.saved) : w'.Live := by
  refine ⟨fun o ho => ?_, by rw [hsaved]; exact hw.2⟩
  obtain ⟨o', ho', hid⟩ := horders o ho
  rw [← hid]
  exact hw.1 o' ho'

theorem Move.live {S : Setup} {w w' : World} (h : Move S w w')
    (hw : w.Live) : w'.Live := by
  have hstay : ∀ o ∈ w.s.orders, ∃ o' ∈ w.s.orders, o'.id = o.id := fun o ho => ⟨o, ho, rfl⟩
  cases h with
  | note h =>
      have horders : _ = w.s.orders := congrArg Prod.fst h
      refine live_of_ids hw (fun o ho => hstay o ?_) rfl
      rw [← horders]
      exact ho
  | saved => exact ⟨hw.1, hw.1⟩
  | adopted orderId _ _ hid =>
      refine ⟨fun o ho => ?_, hw.2⟩
      rcases List.mem_append.mp ho with ho | ho
      · exact hw.1 o ho
      · rw [List.mem_singleton.mp ho]
        exact hid
  | marked h =>
      refine live_of_ids hw (fun b hb => ?_) rfl
      rcases mem_replaced hb with hb | ⟨rfl, ho⟩
      · exact hstay b hb
      · exact ⟨_, ho, h.id.symm⟩
  | swept _ _ _ _ => exact live_of_ids hw (fun o ho => hstay o (List.mem_of_mem_erase ho)) rfl
  | closed _ => exact live_of_ids hw (fun o ho => by cases ho) rfl
  | ownedZero _ => exact live_of_ids hw (fun o ho => by cases ho) rfl
  | called _ _ => exact live_of_ids hw hstay rfl
  | saveFailed => exact live_of_ids hw hstay rfl
  | logged _ _ => exact live_of_ids hw hstay rfl
  | pended _ _ => exact ⟨hw.1, hw.1⟩
  | pendFailed _ _ => exact live_of_ids hw hstay rfl
  | began => exact live_of_ids hw hstay rfl
  | submitted _ _ _ => exact live_of_ids hw hstay rfl
  | refused _ _ _ => exact live_of_ids hw hstay rfl
  | missed _ _ => exact live_of_ids hw hstay rfl
  | absent _ => exact live_of_ids hw hstay rfl
  | filled _ => exact live_of_ids hw hstay rfl
  | unexplained => exact live_of_ids hw hstay rfl
  | protecting => exact live_of_ids hw hstay rfl
  | recovered => exact live_of_ids hw hstay rfl
  | rebuy _ => exact live_of_ids hw hstay rfl

section Cancels

variable {S : Setup} {w₀ : World} (hlive : S.dryRun = false) (hw₀ : w₀.Live)

include hw₀ in
theorem At.live {f : World → Prop} {w : World} (h : At S w₀ f w) : w.Live :=
  h.1.invariant (fun _ _ hmove => hmove.live) hw₀

/-- The position is the one of `s`, and no SELL was added. -/
def Kin (s s' : State) : Prop :=
  s'.qty = s.qty ∧ s'.costUsd = s.costUsd ∧ s'.tpSoldLevels = s.tpSoldLevels ∧
    ∀ o ∈ s'.orders, o.side = .sell → ∃ o' ∈ s.orders, o'.side = .sell ∧ o'.level = o.level

theorem Kin.refl (s : State) : Kin s s := ⟨rfl, rfl, rfl, fun o ho hside => ⟨o, ho, hside, rfl⟩⟩

theorem Kin.marked {s s' : State} (h : Kin s s') {o o' : Order} (ho : o.Marked o') :
    Kin s (s'.replaceOrder o o') := by
  obtain ⟨hqty, hcost, hsold, horders⟩ := h
  refine ⟨hqty, hcost, hsold, fun b hb hside => ?_⟩
  rcases mem_replaced hb with hb | ⟨rfl, hmem⟩
  · exact horders b hb hside
  · obtain ⟨o'', ho'', hside'', hlevel⟩ := horders o hmem (by rw [← ho.side]; exact hside)
    exact ⟨o'', ho'', hside'', by rw [ho.level]; exact hlevel⟩

/-- A cancel that was requested. -/
theorem marked_requested (o : Order) : o.Marked { o with cancelRequested := true } :=
  ⟨rfl, rfl, rfl, rfl, rfl, rfl, id⟩

theorem stillTracks_of_mem {s : State} {o : Order} (h : o ∈ s.orders) : s.stillTracks o = true := by
  unfold State.stillTracks
  simp [h]

theorem stillTracks_requested {s : State} {o : Order} (h : s.stillTracks o = true) :
    (s.replaceOrder o { o with cancelRequested := true }).stillTracks o = true := by
  unfold State.stillTracks at h ⊢
  rw [Bool.or_eq_true, decide_eq_true_eq, decide_eq_true_eq] at h
  rw [Bool.or_eq_true, decide_eq_true_eq, decide_eq_true_eq]
  refine Or.inr ?_
  rcases h with h | h
  · exact replaced_mem h
  · by_cases hsame : ({ o with cancelRequested := true } : Order) = o
    · exact replaced_mem (hsame ▸ h)
    · exact replaced_keeps h hsame

include hlive hw₀

/-- In live mode an order is still tracked after its cancel. -/
theorem cancelTracked_at {P : State → Prop} {o : Order}
    (hmark : ∀ s, P s → P (s.replaceOrder o { o with cancelRequested := true })) :
    Triple (At S w₀ (On (fun s => P s ∧ o ∈ s.orders))) (cancelSpecific S o)
      (fun _ => At S w₀ (On (fun s => P s ∧ s.stillTracks o = true))) (Gone S w₀) := by
  intro w hw
  have hid : ¬ Paper o.id := (hw.live hw₀).1 o hw.2.2.2
  refine cancelSpecific_at hlive
    (closed_on (fun s => P s ∧ s.stillTracks o = true)) hid ?_ w
    (hw.imp (fun h => ⟨h.1, stillTracks_of_mem h.2⟩))
  exact fun v hv => ⟨hmark _ hv.1, stillTracks_requested hv.2⟩

/-- `_cancel_open`. -/
theorem cancelOpen_at {f : World → Prop} (hf : Closed f) (side : Side)
    (hmark : ∀ w o, f w → f { w with
      s := w.s.replaceOrder o { o with cancelRequested := true } }) :
    Triple (At S w₀ f) (cancelOpen S side) (fun _ => At S w₀ f) (Gone S w₀) := by
  unfold cancelOpen
  refine state_at (fun s => ?_)
  cases hfind : s.findOpen side with
  | none => exact done (fun w hw => hw.imp And.left)
  | some o =>
      intro w hw
      have hid : ¬ Paper o.id := by
        refine (hw.live hw₀).1 o ?_
        rw [hw.2.2.2]
        exact List.mem_of_find?_eq_some hfind
      exact cancelSpecific_at hlive hf hid (fun v hv => hmark v o hv) w (hw.imp And.left)

/-- `_cancel_all_orders`. -/
theorem cancelAllOrders_at :
    Triple (At S w₀ Free) (cancelAllOrders S) (fun _ => At S w₀ Free)
      (Gone S w₀) := by
  unfold cancelAllOrders
  refine state_at (fun s => ?_)
  intro w hw
  have hids : ∀ o ∈ s.orders, ¬ Paper o.id := by
    intro o ho
    refine (hw.live hw₀).1 o ?_
    rw [hw.2.2.2]
    exact ho
  refine (Triple.foldlM (I := fun _ _ => At S w₀ Free) ?_ true) w hw.free
  intro _ o rest _ hsplit
  have ho : o ∈ s.orders := by
    rw [hsplit]
    simp
  refine Triple.bind (cancelSpecific_at hlive (closed_on (fun _ => True)) (hids o ho)
    (fun _ _ => trivial)) (fun _ => done (fun _ hv => hv))

/-- A protective exit, whatever is tracked. -/
theorem protectiveExit_at (hids : VenueIds S) {kind : Kind} (hkind : kind = .tr ∨ kind = .sl)
    (price : ℚ) :
    Triple (At S w₀ Free) (protectiveExit S kind price) (fun _ => At S w₀ Free)
      (Gone S w₀) := by
  have hstay : Triple (At S w₀ Free) (pure () : StratM Unit) (fun _ => At S w₀ Free)
      (Gone S w₀) := done (fun _ hw => hw)
  unfold protectiveExit
  refine state_at (fun _ => Triple.strengthen (P := At S w₀ Free) ?_ (fun _ hw => hw.free))
  extract_lets again
  split
  · refine Triple.bind (cancelAllOrders_at hlive hw₀) (fun cancelled => ?_)
    split
    · refine state_at (fun s => Triple.strengthen (P := At S w₀ (Is s)) ?_
        (fun _ hw => hw.imp And.right))
      refine Triple.bind (placeSell_at hlive hids (roundTo price 2) none kind true
        (fun p hq hk hl => .exit (by rw [hk]; exact hkind) hl hq)) (fun placed => ?_)
      refine Triple.strengthen (P := At S w₀ Free) ?_ (fun _ hw => hw.free)
      split
      · exact update_at (fun _ _ _ => .protecting) (fun _ _ => trivial)
      · exact hstay
    · exact hstay
  · exact hstay

/-- What is held, and what it cost. -/
def Holding (held cost : ℚ) (s : State) : Prop := s.qty = held ∧ s.costUsd = cost

/-- `false` leaves the position as it was. -/
def Unless (stop : Bool) (held cost : ℚ) (w : World) : Prop := stop = false → Holding held cost w.s

theorem checkTrailing_at (hids : VenueIds S) (held cost price : ℚ) :
    Triple (At S w₀ (On (Holding held cost))) (checkTrailing S price)
      (fun b => At S w₀ (Unless b held cost)) (Gone S w₀) := by
  have hstay : Triple (At S w₀ (On (Holding held cost))) (pure false : StratM Bool)
      (fun b => At S w₀ (Unless b held cost)) (Gone S w₀) :=
    done (fun _ hw => hw.imp (fun h _ => h))
  unfold checkTrailing
  refine state_at (fun s => ?_)
  refine Triple.strengthen (P := At S w₀ (On (Holding held cost))) ?_
    (fun _ hw => hw.imp And.left)
  split
  · exact Triple.bind (update_at (fun _ _ _ => .note rfl) (fun _ hw => hw)) (fun _ => hstay)
  · refine Triple.ite ?_ ?_
    · exact hstay
    · -- the peak and the arming move, the position does not
      refine Triple.bind (update_at (g := On (Holding held cost)) (fun w _ _ => .note ?_)
        (fun w hw => ?_)) (fun _ => ?_)
      · by_cases harmed : w.s.trArmed = true <;> simp [harmed, SameTracking]
      · by_cases harmed : w.s.trArmed = true <;> simpa [harmed, On, Holding] using hw
      refine Triple.bind (update_at (g := On (Holding held cost)) (fun w _ _ => .note ?_)
        (fun w hw => ?_)) (fun _ => ?_)
      · by_cases hpeak : w.s.posPeak < price <;> simp [hpeak, SameTracking]
      · by_cases hpeak : w.s.posPeak < price <;> simpa [hpeak, On, Holding] using hw
      refine state_at (fun s' => ?_)
      refine Triple.strengthen (P := At S w₀ (On (Holding held cost))) ?_
        (fun _ hw => hw.imp And.left)
      split
      · exact hstay
      · split
        · exact hstay
        · refine Triple.strengthen (P := At S w₀ Free) ?_ (fun _ hw => hw.free)
          refine Triple.bind (protectiveExit_at hlive hw₀ hids (Or.inl rfl) price)
            (fun _ => done (fun _ hw => hw.imp (fun _ hstop => ?_)))
          cases hstop

theorem checkStopLoss_at (hids : VenueIds S) (held cost price : ℚ) :
    Triple (At S w₀ (On (Holding held cost))) (checkStopLoss S price)
      (fun b => At S w₀ (Unless b held cost)) (Gone S w₀) := by
  have hstay : Triple (At S w₀ (On (Holding held cost))) (pure false : StratM Bool)
      (fun b => At S w₀ (Unless b held cost)) (Gone S w₀) :=
    done (fun _ hw => hw.imp (fun h _ => h))
  unfold checkStopLoss
  refine state_at (fun s => ?_)
  refine Triple.strengthen (P := At S w₀ (On (Holding held cost))) ?_
    (fun _ hw => hw.imp And.left)
  split
  · exact hstay
  · split
    · exact hstay
    · split
      · exact Triple.bind (update_at (fun _ _ _ => .recovered) (fun _ hw => hw)) (fun _ => hstay)
      · refine Triple.strengthen (P := At S w₀ Free) ?_ (fun _ hw => hw.free)
        refine Triple.bind (protectiveExit_at hlive hw₀ hids (Or.inr rfl) price)
          (fun _ => done (fun _ hw => hw.imp (fun _ hstop => ?_)))
        cases hstop

end Cancels

/-! ## The take-profit -/

section TakeProfit

variable {S : Setup} {w₀ : World} (hlive : S.dryRun = false) (hw₀ : w₀.Live)

theorem outdated_at {f : World → Prop} (o : Order) (qty limit : ℚ) :
    Triple (At S w₀ f) (outdated o qty limit) (fun _ => At S w₀ f)
      (Gone S w₀) := by
  unfold outdated relativeGap
  refine Triple.bind (Q := fun _ => At S w₀ f) ?_ (fun _ => done (fun _ hw => hw))
  split
  · exact raise_at _
  · exact done (fun _ hw => hw)

include hlive hw₀

/-- One SELL of everything, while none is tracked. -/
theorem manageTp_at (hids : VenueIds S) {s : State} (avg : ℚ) :
    Triple (At S w₀ (Is s)) (manageTp S s.qty avg) (fun _ => At S w₀ Free)
      (Gone S w₀) := by
  unfold manageTp
  refine state_at (fun s' => ?_)
  refine Triple.strengthen (P := fun w => s' = s ∧ At S w₀ (Is s) w) ?_
    (fun w hw => ⟨hw.2.2.2.symm.trans hw.2.2.1, hw.imp And.left⟩)
  refine Triple.of_fact (fun hsame => ?_)
  subst hsame
  cases hfind : s'.findOpen .sell with
  | none =>
      have hfree : ∀ o ∈ s'.orders, o.side ≠ .sell := by
        intro o ho hside
        have hno := List.find?_eq_none.mp hfind o ho
        simp [hside] at hno
      exact Triple.bind (placeSell_at hlive hids _ none .tp false
        (fun p hq hk hl => .takeProfit hk hl hq hfree)) (fun _ => done (fun _ hw => hw.free))
  | some o =>
      refine Triple.bind (outdated_at o _ _) (fun stale => ?_)
      split
      · refine Triple.bind (Q := fun _ => At S w₀ (On (fun s => s.stillTracks o = true)))
          ?_ (fun cancelled => ?_)
        · -- the cancel is for `o` itself, and leaves it tracked
          have hmem : o ∈ s'.orders := List.mem_of_find?_eq_some hfind
          intro w hw
          unfold cancelOpen
          refine state_at (fun s => ?_) w hw
          intro v hv
          have hs : s = s' := hv.2.2.2.symm.trans hv.2.2.1
          rw [hs, hfind]
          refine (cancelTracked_at (P := fun _ => True) hlive hw₀ (fun _ _ => trivial)).conseq
            (fun u hu => hu) (fun _ u hu => hu.imp And.right) (fun _ _ he => he) v
            (hv.imp (fun h => ⟨trivial, ?_⟩))
          rw [h.1]
          exact hmem
        · split
          · refine state_at (fun s => ?_)
            intro w hw
            have hs : s.stillTracks o = true := by
              rw [← hw.2.2.2]
              exact hw.2.2.1
            rw [if_pos hs]
            exact hw.free
          · exact done (fun _ hw => hw.free)
      · exact done (fun _ hw => hw.free)

end TakeProfit

end TradingFleet.Trading212
