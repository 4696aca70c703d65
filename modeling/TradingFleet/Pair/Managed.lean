import TradingFleet.Pair.Alike

set_option autoImplicit false

/-! # An exposed round and the reason of an earlier tick

After the hard stop had its turn, `step` looks at `self.reason` to see whether the stop left an
exit order in doubt. Nothing resets the reason, so the test also answers for an earlier tick. The
reads and cancels before it do not depend on the reason (`approach`), and the anchored exit after
it does not either; `exposed_round_managed_iff` says exactly when the exit is reached.
-/

namespace TradingFleet.Pair

open TradingFleet.Hoare

/-! ## Up to the price -/

/-- Withdraw the entry side: whether its cancels are confirmed and the round is exposed still. -/
def withdrawEntry (S : Setup) : PairM Bool := do
  update (fun c => { c with phase := .exposed })
  let c ← coord
  let failure ← cancelEach S true (fun t => t.side = (exposureOf c.netQty).entrySide && t.active)
  match failure with
  | some _ => pure false
  | none => do
      refresh S
      let c ← coord
      if |c.netQty| ≤ flatTolerance then do
        update (fun c => { c with phase := .closing })
        let ended ← closeBalanced S
        pure (!ended)
      else pure true

/-- What a step of a round with fills does before it asks for the price. -/
def approach (S : Setup) (now : ℚ) : PairM Bool := do
  refresh S
  update (fun c => c.recordFirstFill S.policy now c.totals.buyQty c.totals.sellQty)
  let c ← coord
  if 0 < c.totals.buyQty ∨ 0 < c.totals.sellQty then
    if |c.netQty| ≤ flatTolerance then do
      let ended ← closeBalanced S
      if ended then pure false else withdrawEntry S
    else withdrawEntry S
  else pure false

section Evaluation

variable {α β : Type} {w w' : World}

theorem bind_eq {x : PairM α} {a : α} (h : x w = .ok a w') (f : α → PairM β) :
    (x >>= f) w = f a w' := by
  show EStateM.bind x f w = f a w'
  unfold EStateM.bind
  rw [h]

theorem bind_raised {x : PairM α} {e : String} (h : x w = .error e w') (f : α → PairM β) :
    (x >>= f) w = .error e w' := by
  show EStateM.bind x f w = .error e w'
  unfold EStateM.bind
  rw [h]

/-- What returned came through both halves. -/
theorem bind_returned {x : PairM α} {f : α → PairM β} {b : β} (h : (x >>= f) w = .ok b w') :
    ∃ a w₁, x w = .ok a w₁ ∧ f a w₁ = .ok b w' := by
  cases hx : x w with
  | ok a w₁ =>
      rw [bind_eq hx] at h
      exact ⟨a, w₁, rfl, h⟩
  | error e w₁ =>
      rw [bind_raised hx] at h
      cases h

theorem coord_eq (f : Coordinator → PairM β) (w : World) : (coord >>= f) w = f w.coord w := rfl

end Evaluation

variable {S : Setup} {now : ℚ} {w w₃ : World}

/-- Once the entry side is withdrawn, the exposure is exited. -/
theorem manageExposure_eq (h : withdrawEntry S w = .ok true w₃) :
    manageExposure S w = exitExposure S w₃ := by
  unfold withdrawEntry at h
  unfold manageExposure
  obtain ⟨_, w₁, hexposed, h⟩ := bind_returned h
  rw [bind_eq hexposed, coord_eq]
  rw [coord_eq] at h
  obtain ⟨failure, w₂, hcancels, h⟩ := bind_returned h
  rw [bind_eq hcancels]
  cases failure with
  | some failure => cases h
  | none =>
      obtain ⟨_, wₐ, hread, h⟩ := bind_returned h
      rw [coord_eq] at h
      show (refresh S >>= _) w₂ = _
      rw [bind_eq hread, coord_eq]
      by_cases hflat : |wₐ.coord.netQty| ≤ flatTolerance
      · rw [if_pos hflat] at h ⊢
        obtain ⟨_, wₑ, hclosing, h⟩ := bind_returned h
        obtain ⟨ended, wₒ, hclose, h⟩ := bind_returned h
        rw [bind_eq hclosing, bind_eq hclose]
        cases ended with
        | true => cases h
        | false =>
            cases h
            rfl
      · rw [if_neg hflat] at h ⊢
        cases h
        rfl

/-- The phases in which a step looks at the fills and nothing else. -/
def Phase.quotes (p : Phase) : Bool :=
  p = .quoting || p = .exposed || p = .closing

theorem recordFirstFill_rest (c : Coordinator) (policy : PairPolicy) (now buyQty sellQty : ℚ) :
    ∃ firstFillAt firstFillSide shock, c.recordFirstFill policy now buyQty sellQty =
      { c with firstFillAt := firstFillAt, firstFillSide := firstFillSide, shock := shock } := by
  unfold Coordinator.recordFirstFill
  split
  · exact ⟨_, _, _, rfl⟩
  · exact ⟨_, _, _, rfl⟩

theorem touches_of_ok {α : Type} {x : PairM α} (hx : Moves Touches x) {a : α} {w w' : World}
    (h : x w = .ok a w') : Touches w w' := by
  have hpost := hx w
  rwa [h] at hpost

/-- The reads at the beginning of a step leave the phase and the reason alone. -/
theorem firstRead_same {w₁ w₂ : World} (hread : refresh S w = .ok () w₁)
    (hfirst : update (fun c => c.recordFirstFill S.policy now c.totals.buyQty c.totals.sellQty) w₁ =
      .ok () w₂) :
    w₂.coord.phase = w.coord.phase ∧ w₂.coord.reason = w.coord.reason := by
  have htouched := touches_of_ok (refresh_touches S) hread
  obtain ⟨firstFillAt, firstFillSide, shock, hrest⟩ := recordFirstFill_rest w₁.coord S.policy now
    w₁.coord.totals.buyQty w₁.coord.totals.sellQty
  cases hfirst
  show (Coordinator.recordFirstFill _ _ _ _ _).phase = _ ∧
    (Coordinator.recordFirstFill _ _ _ _ _).reason = _
  rw [hrest]
  exact ⟨htouched.phase, htouched.reason⟩

/-- A step that gets as far as the price goes on with the exit. -/
theorem stepBody_eq (hphase : w.coord.phase.quotes = true) (h : approach S now w = .ok true w₃)
    (fuel : Nat) : stepBody S now (fuel + 1) w = exitExposure S w₃ := by
  unfold approach at h
  obtain ⟨_, w₁, hread, h⟩ := bind_returned h
  obtain ⟨_, w₂, hfirst, h⟩ := bind_returned h
  rw [coord_eq] at h
  have hsame := (firstRead_same hread hfirst).1
  have hrest : stepQuotes S (stepBody S now fuel) now w₂ = exitExposure S w₃ := by
    unfold stepQuotes
    rw [coord_eq]
    by_cases hfills : 0 < w₂.coord.totals.buyQty ∨ 0 < w₂.coord.totals.sellQty
    · rw [if_pos hfills] at h ⊢
      unfold stepFilled
      rw [coord_eq]
      by_cases hflat : |w₂.coord.netQty| ≤ flatTolerance
      · rw [if_pos hflat] at h ⊢
        obtain ⟨ended, w₄, hclose, h⟩ := bind_returned h
        rw [bind_eq hclose]
        cases ended with
        | true => cases h
        | false => exact manageExposure_eq h
      · rw [if_neg hflat] at h ⊢
        exact manageExposure_eq h
    · rw [if_neg hfills] at h
      cases h
  have hlive : w.coord.phase.terminal = false ∧ w.coord.phase ≠ .idle := by
    revert hphase
    cases w.coord.phase <;> decide
  unfold stepBody
  rw [coord_eq, hlive.1, if_neg (by decide), if_neg hlive.2, bind_eq hread, bind_eq hfirst, coord_eq]
  rw [← hsame] at hphase
  revert hphase
  generalize w₂.coord.phase = phase
  intro hphase
  cases phase with
  | quoting => exact hrest
  | exposed => exact hrest
  | closing => exact hrest
  | idle => cases hphase
  | startupRecovery => cases hphase
  | stopping => cases hphase
  | hardStopRecovery => cases hphase
  | complete => cases hphase
  | expired => cases hphase
  | failed => cases hphase
  | hardStop => cases hphase

/-! ## The reason on the way -/

theorem closeBalanced_open {w' : World} (h : closeBalanced S w = .ok false w') :
    w'.coord.reason = w.coord.reason ∧ w'.coord.phase = w.coord.phase := by
  unfold closeBalanced at h
  obtain ⟨failure, w₁, hcancels, h⟩ := bind_returned h
  obtain ⟨_, w₂, hread, h⟩ := bind_returned h
  rw [coord_eq] at h
  have htouched := Touches.trans _ _ _ (touches_of_ok (cancelEach_touches S _ _) hcancels)
    (touches_of_ok (refresh_touches S) hread)
  by_cases hflat : |w₂.coord.netQty| ≤ flatTolerance
  · rw [if_pos hflat] at h
    split at h
    · obtain ⟨_, _, _, h⟩ := bind_returned h
      cases h
    · obtain ⟨_, _, _, h⟩ := bind_returned h
      cases h
  · rw [if_neg hflat] at h
    cases h
    exact ⟨htouched.reason, htouched.phase⟩

theorem withdrawEntry_open (h : withdrawEntry S w = .ok true w₃) :
    w₃.coord.reason = w.coord.reason ∧ w₃.coord.phase.terminal = false := by
  unfold withdrawEntry at h
  obtain ⟨_, w₁, hexposed, h⟩ := bind_returned h
  rw [coord_eq] at h
  obtain ⟨failure, w₂, hcancels, h⟩ := bind_returned h
  cases hexposed
  cases failure with
  | some failure => cases h
  | none =>
      obtain ⟨_, wₐ, hread, h⟩ := bind_returned h
      rw [coord_eq] at h
      have htouched := Touches.trans _ _ _ (touches_of_ok (cancelEach_touches S _ _) hcancels)
        (touches_of_ok (refresh_touches S) hread)
      by_cases hflat : |wₐ.coord.netQty| ≤ flatTolerance
      · rw [if_pos hflat] at h
        obtain ⟨_, wₑ, hclosing, h⟩ := bind_returned h
        obtain ⟨ended, wₒ, hclose, h⟩ := bind_returned h
        cases ended with
        | true => cases h
        | false =>
            cases h
            cases hclosing
            obtain ⟨hreason, hphase⟩ := closeBalanced_open hclose
            exact ⟨hreason.trans htouched.reason, by rw [hphase]; rfl⟩
      · rw [if_neg hflat] at h
        cases h
        exact ⟨htouched.reason, by rw [htouched.phase]; rfl⟩

/-- Before the price, the reason is the one the step began with, and the round goes on. -/
theorem approach_open (h : approach S now w = .ok true w₃) :
    w₃.coord.reason = w.coord.reason ∧ w₃.coord.phase.terminal = false := by
  unfold approach at h
  obtain ⟨_, w₁, hread, h⟩ := bind_returned h
  obtain ⟨_, w₂, hfirst, h⟩ := bind_returned h
  rw [coord_eq] at h
  have hreason := (firstRead_same hread hfirst).2
  split at h
  · split at h
    · obtain ⟨ended, w₄, hclose, h⟩ := bind_returned h
      cases ended with
      | true => cases h
      | false =>
          have hopen := withdrawEntry_open h
          exact ⟨hopen.1.trans ((closeBalanced_open hclose).1.trans hreason), hopen.2⟩
    · have hopen := withdrawEntry_open h
      exact ⟨hopen.1.trans hreason, hopen.2⟩
  · cases h

/-! ## The exit -/

/-- The world once the price was read. -/
def World.priced (w : World) (price : ℚ) : World :=
  { w with log := ⟨w.coord, .currentPrice (.ok (some price))⟩ :: w.log }

@[simp] theorem World.priced_coord (w : World) (price : ℚ) : (w.priced price).coord = w.coord := rfl

/-- The threshold of the hard stop is breached at this price. -/
def stopDue (S : Setup) (c : Coordinator) (price : ℚ) : Bool :=
  let exposure := exposureOf c.netQty
  stopBreached c S.policy exposure (entryAverage c.totals exposure) price

/-- The anchored exit of the exposure as it is. -/
def anchoredExit (S : Setup) (price : ℚ) : PairM Bool := do
  let c ← coord
  let exposure := exposureOf c.netQty
  ensureAnchoredExit S exposure c.netQty (entryAverage c.totals exposure) price

/-- Below the threshold only the reason decides whether the exit is reached. -/
theorem exitExposure_eq {price : ℚ} (hpos : 0 < price)
    (hprice : S.venue.currentPrice w.log.length = .ok (some price))
    (hquiet : stopDue S w.coord price = false) :
    exitExposure S w =
      if stopForbidsExit w.coord.reason then .ok () (w.priced price)
      else (anchoredExit S price >>= fun _ => pure ()) (w.priced price) := by
  have hask : ask S.venue.currentPrice Event.currentPrice w =
      .ok (.ok (some price)) (w.priced price) := by
    unfold ask
    rw [hprice]
    rfl
  have hstop : submitHardStop S (exposureOf w.coord.netQty) w.coord.netQty
      (entryAverage w.coord.totals (exposureOf w.coord.netQty)) price (w.priced price) =
        .ok false (w.priced price) := by
    have hnot : stopBreached w.coord S.policy (exposureOf w.coord.netQty)
        (entryAverage w.coord.totals (exposureOf w.coord.netQty)) price = false := hquiet
    unfold submitHardStop
    rw [coord_eq, World.priced_coord]
    refine (congrFun (if_pos ?_) _).trans rfl
    rw [hnot, Bool.not_false, Bool.or_true]
  have hraise : orRaise (.ok (some price)) (w.priced price) = .ok (some price) (w.priced price) :=
    rfl
  unfold exitExposure
  rw [coord_eq]
  dsimp only
  rw [bind_eq hask, bind_eq hraise, Option.getD_some, if_neg (not_le.mpr hpos), bind_eq hstop]
  simp only [Bool.false_eq_true, if_false]
  rw [coord_eq, World.priced_coord]
  by_cases hforbids : stopForbidsExit w.coord.reason = true
  · rw [if_pos hforbids, if_pos hforbids]
    rfl
  · rw [if_neg hforbids, if_neg hforbids]
    rfl

/-- What `ensureAnchoredExit` gives as the reason when it asks for no replacement. -/
def exitRefusals : List String :=
  ["exit_cancel_failed", "exit_cancel_ambiguous", "exit_revision_exhausted",
    "exit_exposure_changed_during_cancel", "exit_status_unconfirmed"]

/-- An active exit order has the required price and quantity. -/
def exitInPlace (S : Setup) (c : Coordinator) (price : ℚ) : Bool :=
  let exposure := exposureOf c.netQty
  match anchoredExitPrice exposure.exitSide (entryAverage c.totals exposure) price
      S.policy.adjustmentFraction S.policy.minEdgeFraction S.policy.priceDecimals,
    c.activeTicket exposure.exitSide with
  | .ok target, some (ticket, _) => exitAdequate c exposure.exitSide c.netQty target ticket
  | _, _ => false

/-- An exit order was requested between the two worlds. -/
def Requested (w w' : World) : Prop :=
  ∃ new, w'.log = new ++ w.log ∧
    ∃ x ∈ new, ∃ order answer, x.event = .placeLimit .anchoredExit order answer

/-- What the exposure came to: an exit order is in place, one was requested, it was refused with a
reason, or the exposure is gone. -/
inductive Answered (S : Setup) (price : ℚ) (w w' : World) : Bool → Prop
  | inPlace : exitInPlace S w'.coord price = true → Answered S price w w' true
  | requested (kept : Bool) : Requested w w' → Answered S price w w' kept
  | refused {text : String} : text ∈ exitRefusals → w'.coord.reason = some text →
      Answered S price w w' false
  | closed : w'.coord.phase = .complete → Answered S price w w' true

section Exit

variable {price : ℚ}

/-- The log goes on from `w`. -/
def Grown (w w' : World) : Prop := ∃ new, w'.log = new ++ w.log

theorem Grown.refl (w : World) : Grown w w := ⟨[], rfl⟩

theorem Grown.called {w w' : World} (h : Grown w w') (x : Call) :
    Grown w { w' with log := x :: w'.log } := by
  obtain ⟨new, hlog⟩ := h
  exact ⟨x :: new, by rw [hlog]; rfl⟩

theorem Grown.touched {w w' w'' : World} (h : Grown w w') (ht : Touches w' w'') : Grown w w'' := by
  obtain ⟨new, hlog⟩ := h
  obtain ⟨newer, hlog', -⟩ := ht.log
  exact ⟨newer ++ new, by rw [hlog', hlog, List.append_assoc]⟩

/-- A refusal with a reason of the list. -/
theorem refuse_answered {text : String} (h : text ∈ exitRefusals) (P : World → Prop) :
    Triple P (do setReason text; pure false) (fun kept w' => Answered S price w w' kept)
      (fun _ _ => True) := by
  refine Triple.bind (Q := fun _ w' => w'.coord.reason = some text) ?_ (fun _ => ?_)
  · exact Triple.update (fun _ _ => rfl)
  · exact Triple.pure (fun _ hw => .refused h hw)

theorem placeExit_answered (side : Side) (target qty : ℚ) (permit : Option String) :
    Triple (Grown w) (placeExit S side target qty permit)
      (fun kept w' => Answered S price w w' kept) (fun _ _ => True) := by
  refine Triple.coord (fun c => ?_)
  refine Triple.bind (Q := fun _ => Requested w) (Triple.ask (fun w' answer hw => ?_))
    (fun answer => ?_)
  · obtain ⟨new, hlog⟩ := hw.1
    exact ⟨_ :: new, by rw [hlog]; rfl, _, List.mem_cons_self, _, _, rfl⟩
  · refine Triple.bind (Q := fun _ => Requested w) (Triple.orRaise (fun _ _ _ hw => hw)
      (fun _ _ _ _ => trivial)) (fun replacement => ?_)
    split
    · exact Triple.bind (Q := fun _ => Requested w) (Triple.update (fun _ hw => hw))
        (fun _ => Triple.pure (fun _ hw => .requested false hw))
    · exact Triple.bind (Q := fun _ => Requested w) (Triple.update (fun _ hw => hw))
        (fun _ => Triple.pure (fun _ hw => .requested true hw))

theorem grown_touches {α : Type} {x : PairM α} (hx : Moves Touches x) :
    Triple (Grown w) x (fun _ => Grown w) (fun _ _ => True) :=
  (hx.triple (P := Grown w) (Q := Grown w) (fun _ _ hw ht => hw.touched ht)).conseq
    (fun _ h => h) (fun _ _ h => h) (fun _ _ _ => trivial)

theorem replaceExit_answered (side : Side) (netQty target : ℚ) (ticket : OrderTicket) (i : Nat) :
    Triple (Grown w) (replaceExit S side netQty target ticket i)
      (fun kept w' => Answered S price w w' kept) (fun _ _ => True) := by
  refine Triple.bind (Q := fun _ => Grown w) (Triple.ask (fun _ _ hw => hw.called _))
    (fun answer => ?_)
  refine Triple.bind (Q := fun _ => Grown w) (Triple.orRaise (fun _ _ _ hw => hw)
    (fun _ _ _ _ => trivial)) (fun permit => ?_)
  refine Triple.bind (grown_touches (cancelAndReconcile_touches S i _)) (fun failure => ?_)
  split
  · exact refuse_answered (by decide) _
  · exact refuse_answered (by decide) _
  · refine Triple.coord (fun c => Triple.ite (fun _ => ?_) (fun _ => ?_))
    · refine Triple.bind (Q := fun _ w' => w'.coord.phase = .complete) ?_
        (fun _ => Triple.pure (fun _ hw => .closed hw))
      exact Triple.bind (Q := fun _ _ => True) (Triple.mark (fun _ _ => trivial))
        (fun _ => Triple.update (fun _ _ => rfl))
    · split
      · exact refuse_answered (by decide) _
      · refine Triple.bind (Q := fun _ => Grown w) (Triple.update (fun _ hw => hw.1))
          (fun _ => Triple.ite (fun _ => refuse_answered (by decide) _) (fun _ => ?_))
        exact placeExit_answered _ _ _ _

theorem renewExit_answered (side : Side) (netQty target : ℚ) :
    Triple (Grown w) (renewExit S side netQty target)
      (fun kept w' => Answered S price w w' kept) (fun _ _ => True) := by
  refine Triple.coord (fun c => ?_)
  split
  · exact (placeExit_answered _ _ _ _).strengthen (fun _ hw => hw.1)
  · refine Triple.ite (fun _ => ?_) (fun _ => refuse_answered (by decide) _)
    split
    · exact Triple.bind (Q := fun _ _ => True) (Triple.update (fun _ _ => trivial))
        (fun _ => refuse_answered (by decide) _)
    · exact Triple.bind (Q := fun _ => Grown w) (Triple.update (fun _ hw => hw.1))
        (fun _ => placeExit_answered _ _ _ _)

/-- Whenever the anchored exit returns, the exposure has its answer. -/
theorem anchoredExit_answered (w : World) :
    Triple (· = w) (anchoredExit S price) (fun kept w' => Answered S price w w' kept)
      (fun _ _ => True) := by
  refine Triple.coord (fun c => ?_)
  refine Triple.bind (Q := fun target w' => anchoredExitPrice (exposureOf c.netQty).exitSide
      (entryAverage c.totals (exposureOf c.netQty)) price S.policy.adjustmentFraction
      S.policy.minEdgeFraction S.policy.priceDecimals = .ok target ∧ w' = w ∧ w'.coord = c) ?_
    (fun target => ?_)
  · exact Triple.orRaise (fun _ _ hok hw => ⟨hok, hw⟩) (fun _ _ _ _ => trivial)
  · refine Triple.coord (fun c' => ?_)
    split
    · rename_i ticket i hactive
      refine Triple.ite (fun hadequate => Triple.pure (fun w' hw => ?_)) (fun _ => ?_)
      · obtain ⟨⟨htarget, -, hc⟩, hc'⟩ := hw
        rw [← hc', hc] at hactive hadequate
        refine .inPlace ?_
        rw [hc]
        unfold exitInPlace
        dsimp only
        rw [htarget, hactive]
        exact hadequate
      · refine (replaceExit_answered _ _ _ _ _).strengthen (fun w' hw => ?_)
        rw [hw.1.2.1]
        exact Grown.refl w
    · refine (renewExit_answered _ _ _).strengthen (fun w' hw => ?_)
      rw [hw.1.2.1]
      exact Grown.refl w

/-- An exit order in place is kept, and nothing is called. -/
theorem anchoredExit_inPlace (h : exitInPlace S w.coord price = true) :
    anchoredExit S price w = .ok true w := by
  unfold exitInPlace at h
  dsimp only at h
  split at h
  · rename_i target ticket i htarget hactive
    unfold anchoredExit ensureAnchoredExit
    rw [coord_eq, htarget, bind_eq (show orRaise (.ok target) w = .ok target w from rfl), coord_eq,
      hactive]
    exact congrFun (if_pos h) w
  · cases h

end Exit

/-! ## Another reason -/

/-- The same coordinator with another reason. -/
def Reworded (c c' : Coordinator) : Prop := ∃ reason, c' = { c with reason := reason }

theorem blind_reworded : Blind Reworded where
  shape := by
    rintro c c' ⟨reason, rfl⟩
    exact ⟨c.startedAt, c.firstFillAt, reason, rfl⟩
  holding := by
    rintro c c' ⟨reason, rfl⟩ tickets snapshots limitRevisions
    exact ⟨reason, rfl⟩
  phase := by
    rintro c c' ⟨reason, rfl⟩ phase
    exact ⟨reason, rfl⟩
  reason := by
    rintro c c' ⟨old, rfl⟩ reason
    exact ⟨reason, rfl⟩

theorem withdrawEntry_alike :
    Coupled (Alike Reworded) (withdrawEntry S) (withdrawEntry S) := by
  have B := blind_reworded
  refine Coupled.bind (alike_update (fun _ _ hc => B.phase hc .exposed)) (fun _ => ?_)
  refine alike_blind B (fun _ _ _ _ => rfl) (fun c => ?_)
  refine Coupled.bind (cancelEach_alike S B _ _) (fun failure => ?_)
  split
  · exact Coupled.pure _
  · refine Coupled.bind (refresh_alike S B) (fun _ => alike_blind B (fun _ _ _ _ => rfl) (fun c => ?_))
    refine alike_ite ?_ (Coupled.pure _)
    exact Coupled.bind (alike_update (fun _ _ hc => B.phase hc .closing))
      (fun _ => Coupled.bind (closeBalanced_alike S B) (fun _ => Coupled.pure _))

theorem recordFirstFill_reworded (c : Coordinator) (reason : Option String) (policy : PairPolicy)
    (now buyQty sellQty : ℚ) :
    { c with reason := reason }.recordFirstFill policy now buyQty sellQty =
      { c.recordFirstFill policy now buyQty sellQty with reason := reason } := by
  by_cases h : c.firstFillAt.isSome ∨ (buyQty ≤ 0 ∧ sellQty ≤ 0)
  · rw [show c.recordFirstFill policy now buyQty sellQty = _ from if_pos h]
    exact if_pos h
  · rw [show c.recordFirstFill policy now buyQty sellQty = _ from if_neg h]
    exact if_neg h

theorem approach_alike : Coupled (Alike Reworded) (approach S now) (approach S now) := by
  have B := blind_reworded
  refine Coupled.bind (refresh_alike S B) (fun _ => ?_)
  refine Coupled.bind (alike_update ?_) (fun _ => alike_blind B (fun _ _ _ _ => rfl) (fun c => ?_))
  · rintro c c' ⟨reason, rfl⟩
    exact ⟨reason, recordFirstFill_reworded c reason S.policy now _ _⟩
  · refine alike_ite (alike_ite ?_ withdrawEntry_alike) (Coupled.pure _)
    exact Coupled.bind (closeBalanced_alike S B)
      (fun _ => alike_ite (Coupled.pure _) withdrawEntry_alike)

theorem anchoredExit_alike (price : ℚ) :
    Coupled (Alike Reworded) (anchoredExit S price) (anchoredExit S price) :=
  alike_blind blind_reworded (fun _ _ _ _ => rfl)
    (fun _ => ensureAnchoredExit_alike S blind_reworded _ _ _ _)

/-- What one run returns, the other one returns in an alike world. -/
theorem coupled_returned {α : Type} {R : World → World → Prop} {x y : PairM α}
    (hxy : Coupled R x y) {v w' : World} (hwv : R w v) {a : α} (hx : x w = .ok a w') :
    ∃ v', y v = .ok a v' ∧ R w' v' := by
  have hend := hxy w v hwv
  rw [hx] at hend
  generalize hy : y v = r at hend
  cases hend with
  | ok _ h => exact ⟨_, rfl, h⟩

theorem sameEnd_final {α : Type} {R : World → World → Prop} {x y : EStateM.Result String World α}
    (h : SameEnd R x y) : R (finalWorld x) (finalWorld y) := by
  cases h with
  | ok _ h => exact h
  | error _ h => exact h

/-! ## Which exposed rounds are managed -/

/-- The step ends as the anchored exit does, with an answer for the exposure when it returns. -/
def Managed (S : Setup) (now : ℚ) (fuel : Nat) (price : ℚ) (w : World) : Prop :=
  ∃ w₃, approach S now w = .ok true w₃ ∧
    match anchoredExit S price (w₃.priced price) with
    | .ok kept w' => step S now fuel w = .ok w'.coord.outcome w' ∧
        Answered S price (w₃.priced price) w' kept
    | .error e w' => step S now fuel w = .error e w'

/-- The calls that were made. -/
def callsOf {α : Type} (r : EStateM.Result String World α) : List Event :=
  (finalWorld r).log.map Call.event

/-- `w` with another reason. -/
def World.reworded (w : World) (reason : Option String) : World :=
  { w with coord := { w.coord with reason := reason } }

section Managing

variable {price : ℚ} {fuel : Nat}

theorem step_eq (hphase : w.coord.phase.quotes = true) (happroach : approach S now w = .ok true w₃)
    (hpos : 0 < price) (hprice : S.venue.currentPrice w₃.log.length = .ok (some price))
    (hquiet : stopDue S w₃.coord price = false) :
    step S now (fuel + 1) w =
      if stopForbidsExit w.coord.reason then .ok w₃.coord.outcome (w₃.priced price)
      else (anchoredExit S price >>= fun _ => coord >>= fun c => pure c.outcome)
        (w₃.priced price) := by
  have hbody := (stepBody_eq hphase happroach fuel).trans (exitExposure_eq hpos hprice hquiet)
  rw [(approach_open happroach).1] at hbody
  unfold step
  by_cases hforbids : stopForbidsExit w.coord.reason = true
  · rw [if_pos hforbids] at hbody ⊢
    rw [bind_eq hbody]
    rfl
  · rw [if_neg hforbids] at hbody ⊢
    cases hexit : anchoredExit S price (w₃.priced price) with
    | ok kept w' =>
        rw [bind_eq hexit] at hbody ⊢
        exact bind_eq hbody _
    | error e w' =>
        rw [bind_raised hexit] at hbody ⊢
        exact bind_raised hbody _

/-- The world a step leaves: nothing is asked for the outcome. -/
theorem step_final {v v₄ : World} {forbids : Bool}
    (h : step S now (fuel + 1) v = if forbids then .ok v₄.coord.outcome v₄
      else (anchoredExit S price >>= fun _ => coord >>= fun c => pure c.outcome) v₄) :
    finalWorld (step S now (fuel + 1) v) =
      if forbids then v₄ else finalWorld (anchoredExit S price v₄) := by
  rw [h]
  cases forbids with
  | true => rfl
  | false =>
      rw [if_neg (by decide), if_neg (by decide)]
      cases hexit : anchoredExit S price v₄ with
      | ok kept w' =>
          rw [bind_eq hexit]
          rfl
      | error e w' =>
          rw [bind_raised hexit]
          rfl

/-- One step is managed when its reason does not forbid the exit, or the exit is in place. -/
theorem managed_iff (hphase : w.coord.phase.quotes = true)
    (happroach : approach S now w = .ok true w₃) (hpos : 0 < price)
    (hprice : S.venue.currentPrice w₃.log.length = .ok (some price))
    (hquiet : stopDue S w₃.coord price = false) :
    Managed S now (fuel + 1) price w ↔
      exitInPlace S w₃.coord price = true ∨ stopForbidsExit w.coord.reason = false := by
  have hstep : step S now (fuel + 1) w = _ := step_eq hphase happroach hpos hprice hquiet
  constructor
  · rintro ⟨w₃', happroach', hmanaged⟩
    rw [happroach] at happroach'
    cases happroach'
    by_contra hneither
    rw [not_or, Bool.not_eq_false] at hneither
    rw [if_pos hneither.2] at hstep
    rw [hstep] at hmanaged
    -- the step made no call and gave no reason, so the exit has no answer
    split at hmanaged
    · obtain ⟨hend, hanswered⟩ := hmanaged
      injection hend with _ hsame
      rw [← hsame] at hanswered
      cases hanswered with
      | inPlace h => exact hneither.1 h
      | requested _ h =>
          obtain ⟨new, hlog, x, hx, -⟩ := h
          have hlen := congrArg List.length hlog
          rw [List.length_append] at hlen
          have hpos := List.length_pos_of_mem hx
          omega
      | refused hmem hreason =>
          have hold := (approach_open happroach).1
          rw [World.priced_coord] at hreason
          rw [← hold, hreason] at hneither
          revert hmem
          have hforbids := hneither.2
          unfold stopForbidsExit at hforbids
          simp only [Option.some.injEq, Bool.or_eq_true, decide_eq_true_eq] at hforbids
          rcases hforbids with (rfl | rfl) | rfl <;> decide
      | closed h =>
          have hlive := (approach_open happroach).2
          rw [World.priced_coord] at h
          rw [h] at hlive
          cases hlive
    · cases hmanaged
  · intro h
    refine ⟨w₃, happroach, ?_⟩
    by_cases hforbids : stopForbidsExit w.coord.reason = true
    · have hplace : exitInPlace S w₃.coord price = true := by
        rcases h with h | h
        · exact h
        · rw [hforbids] at h
          cases h
      rw [anchoredExit_inPlace (w := w₃.priced price) hplace]
      rw [if_pos hforbids] at hstep
      exact ⟨hstep, .inPlace hplace⟩
    · rw [if_neg hforbids] at hstep
      have hanswered := @anchoredExit_answered S price (w₃.priced price) _ rfl
      cases hexit : anchoredExit S price (w₃.priced price) with
      | ok kept w' =>
          rw [hexit] at hanswered
          rw [bind_eq hexit] at hstep
          exact ⟨hstep, hanswered⟩
      | error e w' =>
          rw [bind_raised hexit] at hstep
          exact hstep

/-- **When an exposed round is managed.** For every round in a quoting phase whose step confirms
the cancels of the entry side and reads a positive price below the threshold of the hard stop, and
for every other reason: both steps end as the anchored exit does and make the same calls, if and
only if neither reason is one of the three the hard stop leaves behind, or the exit order is in
place already. -/
theorem exposed_round_managed_iff (reason : Option String)
    (hphase : w.coord.phase.quotes = true) (happroach : approach S now w = .ok true w₃)
    (hpos : 0 < price) (hprice : S.venue.currentPrice w₃.log.length = .ok (some price))
    (hquiet : stopDue S w₃.coord price = false) :
    (Managed S now (fuel + 1) price w ∧ Managed S now (fuel + 1) price (w.reworded reason) ∧
      callsOf (step S now (fuel + 1) (w.reworded reason)) = callsOf (step S now (fuel + 1) w)) ↔
    (exitInPlace S w₃.coord price = true ∨
      (stopForbidsExit w.coord.reason = false ∧ stopForbidsExit reason = false)) := by
  -- the two steps stay alike up to the price: nothing before it looks at the reason
  obtain ⟨v₃, happroach', halike⟩ := coupled_returned (@approach_alike S now)
    (show Alike Reworded w (w.reworded reason) from ⟨⟨reason, rfl⟩, rfl⟩) happroach
  obtain ⟨reason₃, hcoord⟩ := halike.coord
  have hprice' : S.venue.currentPrice v₃.log.length = .ok (some price) := by
    rw [halike.length, hprice]
  have hquiet' : stopDue S v₃.coord price = false := by
    rw [hcoord]
    exact hquiet
  have hplace : exitInPlace S v₃.coord price = exitInPlace S w₃.coord price := by
    rw [hcoord]
    rfl
  have hpriced : Alike Reworded (w₃.priced price) (v₃.priced price) := by
    refine ⟨halike.coord, ?_⟩
    show Event.currentPrice _ :: v₃.log.map Call.event = Event.currentPrice _ :: w₃.log.map Call.event
    rw [halike.calls]
  have hmanaged : Managed S now (fuel + 1) price w ↔ _ :=
    managed_iff hphase happroach hpos hprice hquiet
  have hmanaged' : Managed S now (fuel + 1) price (w.reworded reason) ↔ _ :=
    managed_iff hphase happroach' hpos hprice' hquiet'
  rw [hplace] at hmanaged'
  have hstep : step S now (fuel + 1) w = _ := step_eq hphase happroach hpos hprice hquiet
  have hstep' : step S now (fuel + 1) (w.reworded reason) = _ :=
    step_eq hphase happroach' hpos hprice' hquiet'
  constructor
  · rintro ⟨hfirst, hsecond, -⟩
    rcases hmanaged.mp hfirst with h | h
    · exact Or.inl h
    · rcases hmanaged'.mp hsecond with h' | h'
      · exact Or.inl h'
      · exact Or.inr ⟨h, h'⟩
  · intro h
    refine ⟨hmanaged.mpr (h.imp_right And.left), hmanaged'.mpr (h.imp_right And.right), ?_⟩
    unfold callsOf
    rw [step_final hstep, step_final hstep']
    rcases h with h | ⟨hfree, hfree'⟩
    · -- with the exit in place no run makes a call after the price
      rw [anchoredExit_inPlace (w := w₃.priced price) h,
        anchoredExit_inPlace (w := v₃.priced price) (hplace.trans h)]
      simp only [finalWorld, ite_self]
      exact hpriced.calls
    · rw [hfree, show stopForbidsExit (w.reworded reason).coord.reason = false from hfree']
      simp only [Bool.false_eq_true, if_false]
      exact (sameEnd_final (anchoredExit_alike price _ _ hpriced)).calls

end Managing

/-- The buy order is filled at 100. The read of the sell order after its cancel, the eleventh call,
times out; until then the price is 90, and 100 afterwards. -/
def ambiguousStopVenue : Venue :=
  { sampleVenue with
    currentPrice := fun n => .ok (some (if n < 11 then 90 else 100))
    orderStatus := fun n orderId =>
      if n = 11 then .error "timed out"
      else if orderId = "BUY-0" then .ok (sampleRead .closed 10 1000 filledRead.filledQty_nonneg) else .ok OrderSnapshot.unread }

/-- The same without a fall of the price. -/
def quietVenue : Venue := { ambiguousStopVenue with currentPrice := fun _ => .ok (some 100) }

/-- The round once it is started. -/
def startedRound (venue : Venue) : World :=
  sampleStart.run ⟨venue, samplePolicy⟩ [.start (some 100) "pair-1" 0]

/-- What a step comes to before the price, as far as it matters here. -/
def approachedAt (S : Setup) (now : ℚ) (w : World) (price : ℚ) : Bool :=
  match approach S now w with
  | .ok true w₃ => S.venue.currentPrice w₃.log.length = .ok (some price) && !stopDue S w₃.coord price
      && !exitInPlace S w₃.coord price
  | _ => false

theorem approachedAt_spec {S : Setup} {now price : ℚ} {w : World}
    (h : approachedAt S now w price = true) :
    ∃ w₃, approach S now w = .ok true w₃ ∧
      S.venue.currentPrice w₃.log.length = .ok (some price) ∧
      stopDue S w₃.coord price = false ∧ exitInPlace S w₃.coord price = false := by
  unfold approachedAt at h
  split at h
  · rename_i w₃ happroach
    simp only [Bool.and_eq_true, decide_eq_true_eq, Bool.not_eq_true'] at h
    exact ⟨w₃, happroach, h.1.1, h.1.2, h.2⟩
  · cases h

theorem filled_leg_managed :
    Managed ⟨quietVenue, samplePolicy⟩ 1 1000 100 (startedRound quietVenue) ∧
      Managed ⟨quietVenue, samplePolicy⟩ 1 1000 100
        ((startedRound quietVenue).reworded (some "exit_place_failed")) := by
  obtain ⟨w₃, happroach, hprice, hquiet, -⟩ := approachedAt_spec
    (show approachedAt ⟨quietVenue, samplePolicy⟩ 1 (startedRound quietVenue) 100 = true by
      decide +kernel)
  have hmanaged := (@exposed_round_managed_iff _ _ _ _ _ 999 (some "exit_place_failed")
    (by decide +kernel) happroach (by decide +kernel) hprice hquiet).mpr
    (Or.inr ⟨by decide +kernel, by decide +kernel⟩)
  exact ⟨hmanaged.1, hmanaged.2.1⟩

/-- After the ambiguous cancel of one tick, the price of the next tick is below the threshold again,
and no exit order is asked for. -/
theorem ambiguous_stop_leaves_exposure :
    ¬ ∀ (S : Setup) (now price : ℚ) (fuel : Nat) (w w₃ : World), w.Reachable S →
      w.coord.phase.quotes = true → approach S now w = .ok true w₃ → 0 < price →
      S.venue.currentPrice w₃.log.length = .ok (some price) → stopDue S w₃.coord price = false →
      Managed S now (fuel + 1) price w := by
  intro h
  have hreach : ((startedRound ambiguousStopVenue).run ⟨ambiguousStopVenue, samplePolicy⟩
      [.step 1 1000]).Reachable ⟨ambiguousStopVenue, samplePolicy⟩ :=
    run_reachable _ (run_reachable _ (.start sampleStart_initial))
  obtain ⟨w₃, happroach, hprice, hquiet, hplace⟩ := approachedAt_spec
    (show approachedAt ⟨ambiguousStopVenue, samplePolicy⟩ 2
      ((startedRound ambiguousStopVenue).run ⟨ambiguousStopVenue, samplePolicy⟩ [.step 1 1000])
      100 = true by decide +kernel)
  have hphase : ((startedRound ambiguousStopVenue).run ⟨ambiguousStopVenue, samplePolicy⟩
      [.step 1 1000]).coord.phase.quotes = true := by decide +kernel
  have hmanaged := h _ 2 100 999 _ w₃ hreach hphase happroach (by decide +kernel) hprice hquiet
  rcases (managed_iff hphase happroach (by decide +kernel) hprice hquiet).mp hmanaged with h | h
  · rw [hplace] at h
    cases h
  · revert h
    decide +kernel

end TradingFleet.Pair
