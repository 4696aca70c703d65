import TradingFleet.SpotDca.Moves

set_option autoImplicit false

/-! # Every run is a walk

The exits, the status reports and the tick are walks of the moves of `Moves`, and so is every
action (`act_walks`). An invariant of all runs is then checked once per kind of move
(`Reachable.invariant`).
-/

namespace TradingFleet.SpotDca

open TradingFleet.Hoare TradingFleet.Lifecycle TradingFleet.Keyed
open TradingFleet.Text hiding orElse

/-! ## Exits and reports -/

section Decisions

variable {S : Setup} {w₀ : World} {f : State → Prop}

/-- A program that keeps `f` may be followed by one that does not. -/
theorem loose {α : Type} {x : DcaM α} (h : Keeps (At S w₀ f) x) :
    Triple (At S w₀ f) x (fun _ => At S w₀ f) (fun _ => Free S w₀) :=
  h.conseq (fun _ hw => hw) (fun _ _ hw => hw) (fun _ _ hw => At.free hw)

/-- The last program of a sequence, from any state. -/
theorem free {α : Type} {x : DcaM α} (h : Keeps (Free S w₀) x) :
    Triple (At S w₀ f) x (fun _ => Free S w₀) (fun _ => Free S w₀) :=
  h.strengthen (fun _ hw => At.free hw)

theorem done {α : Type} (a : α) {E : Stop → World → Prop} :
    Triple (At S w₀ f) (pure a : DcaM α) (fun _ => Free S w₀) E :=
  Triple.pure (fun _ hw => At.free hw)

theorem orderFree_exits (x : Option PendingExit) : OrderFree (Exits x) := fun _ _ h => h

theorem place_exits {i : Instruction} {x : Option PendingExit}
    (hf : ∀ s, f s → Placing S s i ∧ s.pendingExit = x) :
    Triple (At S w₀ f) (place S i) (fun _ => At S w₀ (Exits x)) (fun _ => Free S w₀) :=
  (place_at (x := x)).conseq (fun _ hw => ⟨hw.1, hf _ hw.2⟩) (fun _ _ hw => hw)
    (fun _ _ hw => At.free hw)

theorem exitHoldings_at (exit : PendingExit) (price : ℚ) :
    Triple (At S w₀ (fun s => s.pendingExit = some exit ∧ s.orders = []))
      (exitHoldings S exit price) (fun _ => Free S w₀) (fun _ => Free S w₀) := by
  unfold exitHoldings
  refine state_at' (fun s hs => ?_)
  by_cases hflat : s.qty ≤ flatQty
  · simp only [if_pos hflat]
    cases exit.fillPrice with
    | none => exact done false
    | some fillPrice =>
        refine Triple.bind (free (finalizeCycleIfFlat_at exit.kind fillPrice)) (fun _ => ?_)
        exact done false
  · simp only [if_neg hflat]
    split
    · exact done false
    · refine (place_exits (x := some exit) ?_).weaken (fun _ _ hw => At.free hw)
      intro s' hs'
      rw [hs']
      exact ⟨.exit exit price hs.1 hs.2, hs.1⟩

theorem continueMarketExit_at (price : ℚ) : Keeps (Free S w₀) (continueMarketExit S price) := by
  unfold continueMarketExit
  refine state_at' (fun s _ => ?_)
  cases hexit : s.pendingExit with
  | none => exact done false
  | some exit =>
      refine Triple.strengthen (P := At S w₀ (Exits (some exit))) ?_ ?_
      · dsimp only
        split
        · exact done false
        refine Triple.bind (loose save_at) (fun _ => ?_)
        intro w hw
        show Post _ _ ((if w.writeFailed then pure false else _ : DcaM Bool) w)
        split
        · exact At.free hw
        · refine Triple.bind (loose (cancelOrders_at (orderFree_exits _) none false))
            (fun cancelled => ?_) w hw
          refine state_at' (fun s hs => ?_)
          split
          · exact done false
          · rename_i hgo
            have horders : s.orders = [] := by
              by_contra h
              exact hgo (by simp [h])
            refine (exitHoldings_at exit price).strengthen (fun w hw => ⟨hw.1, ?_⟩)
            rw [hw.2]
            exact ⟨hs, horders⟩
      · intro w hw
        refine ⟨hw.1, ?_⟩
        show w.s.pendingExit = some exit
        rw [hw.2]
        exact hexit

theorem requestMarketExit_at (price : ℚ) (kind : Kind) (softFloor : Bool) :
    Keeps (Free S w₀) (requestMarketExit S price kind softFloor) := by
  unfold requestMarketExit
  refine Keeps.bind ?_ (fun _ => continueMarketExit_at price)
  refine update_at (fun w _ => ?_) (fun s _ => trivial)
  by_cases h : w.s.pendingExit.all (fun exit => kind = .stop && exit.kind ≠ .stop) = true
  · simp only [h, if_true]
    exact .exitMarked _ h
  · simp only [h, Bool.false_eq_true, if_false]
    exact .note rfl

theorem markExit_at : Keeps (Free S w₀) (markExit S) := by
  unfold markExit
  refine state_at' (fun s _ => ?_)
  cases hexit : s.pendingExit with
  | some exit => exact done ()
  | none =>
      dsimp only
      cases s.orders.find? (fun o => o.side = .sell && o.market) with
      | none => exact done ()
      | some o =>
          refine Triple.bind (Q := fun _ => Free S w₀) ?_ (fun _ => save_at)
          refine update_at (fun w hw => .exitMarked _ ?_) (fun _ _ => trivial)
          rw [hw, hexit]
          rfl

theorem afterFill_at (fill : Fill) (final : Bool) : Keeps (Free S w₀) (afterFill S fill final) := by
  unfold afterFill
  cases fill.side with
  | buy =>
      refine state_at' (fun s _ => ?_)
      split
      · exact raise_at _ (fun _ _ => trivial)
      · refine Triple.bind (free (cancelOrders_at orderFree_true (some .sell) true)) (fun _ => ?_)
        exact done ()
  | sell =>
      dsimp only
      split
      · exact finalizeCycleIfFlat_at fill.kind fill.price
      · exact done ()

theorem conclude_at (o : Order) (r : Report) (price : ℚ) :
    Keeps (Free S w₀) (conclude S o r price) := by
  unfold conclude
  split
  · cases o.side with
    | sell => exact finalizeCycleIfFlat_at o.kind (r.price o)
    | buy => exact done ()
  · unfold expireBuy
    refine Keeps.bind ask_none_at (fun t => ?_)
    split
    · exact Keeps.bind (cancelOrder_at orderFree_true _) (fun _ => done ())
    · exact done ()

theorem settle_at (hlive : S.dryRun = false) (o : Order) (status : OrderStatus) (price : ℚ) :
    Triple (At S w₀ (fun s => o ∈ s.orders)) (settle S o (o.report status) price)
      (fun _ => Free S w₀) (fun _ => Free S w₀) := by
  unfold settle
  by_cases hbehind : o.regressed (o.report status) = true
  · rw [if_pos hbehind]
    intro w hw
    exact ⟨hw.1.tail (.ignored hw.2 hlive hbehind), trivial⟩
  · rw [if_neg hbehind]
    refine Triple.bind (Q := fun _ => Free S w₀) ?_ (fun _ => ?_)
    · intro w hw
      exact ⟨hw.1.tail (.booked hw.2 hlive (by simpa using hbehind)), trivial⟩
    · split
      · exact Keeps.bind (afterFill_at _ _) (fun _ => conclude_at o _ price)
      · exact conclude_at o _ price

theorem reconcileOne_at (price : ℚ) (o : Order) : Keeps (Free S w₀) (reconcileOne S price o) := by
  unfold reconcileOne
  refine state_at' (fun s _ => ?_)
  by_cases ho : o ∈ s.orders
  · rw [if_pos ho]
    refine Triple.strengthen (P := At S w₀ (fun s => o ∈ s.orders)) ?_
      (fun w hw => ⟨hw.1, by rw [hw.2]; exact ho⟩)
    by_cases hdry : S.dryRun = true
    · simp only [hdry, if_true]
      unfold reconcilePaper
      cases o.paperPrice price with
      | none => exact done ()
      | some fillPrice =>
          refine Triple.bind (Q := fun _ => Free S w₀) ?_ (fun _ => afterFill_at _ true)
          intro w hw
          exact ⟨hw.1.tail (.paperFilled hw.2 hdry), trivial⟩
    · simp only [hdry, Bool.false_eq_true, if_false]
      unfold reconcileLive
      refine Triple.bind (loose (ask_some_at (fun _ => rfl))) (fun answer => ?_)
      cases answer with
      | error e =>
          dsimp only
          split
          · exact done ()
          · exact raise_at e (fun _ _ => trivial)
      | ok status => exact settle_at (by simpa using hdry) o status price
  · rw [if_neg ho]
    exact done ()

theorem reconcileSide_at (price : ℚ) (side : Side) :
    Keeps (Free S w₀) (reconcileSide S price side) := by
  unfold reconcileSide
  refine state_at (fun s => ?_)
  refine Triple.strengthen (Keeps.foldlM (fun _ o => ?_) () _) (fun w hw => hw.1)
  exact reconcileOne_at price o

theorem reconcileOrders_at (price : ℚ) :
    Triple (At S w₀ Genuine) (reconcileOrders S price) (fun _ => Free S w₀)
      (fun _ => Free S w₀) := by
  unfold reconcileOrders
  refine Triple.bind (Q := fun _ => Free S w₀) ?_ (fun _ => ?_)
  · intro w hw
    have hstart : At S w₀ (fun s => Genuine s ∧ Exits w.s.pendingExit s) w := ⟨hw.1, hw.2, rfl⟩
    have hpost : Triple (At S w₀ (fun s => Genuine s ∧ Exits w.s.pendingExit s))
        (reconcilePendingSubmit S) (fun _ => Free S w₀) (fun _ => Free S w₀) :=
      (reconcilePendingSubmit_at w.s.pendingExit).conseq (fun _ h => h) (fun _ _ h => At.free h)
        (fun _ _ h => At.free h)
    exact hpost w hstart
  · refine Keeps.bind markExit_at (fun _ => ?_)
    exact Keeps.bind (reconcileSide_at price .buy) (fun _ => reconcileSide_at price .sell)

/-! ## The tick -/

theorem placeDca_at (amount : ℚ) (scale : Option ℚ) (hamount : amount = effectiveDcaAmount S scale)
    (entryPx : ℚ) :
    Triple (At S w₀ (fun s => s.pendingExit = none ∧ s.hasOpen .buy = false ∧
        (s.dcaBuys : Int) < S.params.maxDcaBuys ∧ s.spent < S.params.effectiveMaxBudget))
      (placeDca S amount entryPx) (fun _ => Free S w₀) (fun _ => Free S w₀) := by
  unfold placeDca
  refine Triple.bind (loose ask_none_at) (fun answer => ?_)
  match answer with
  | .error e => exact done ()
  | .ok none => exact done ()
  | .ok (some freeQuote) =>
      refine state_at' (fun s hs => ?_)
      by_cases hnegative : freeQuote < 0
      · simp only [if_pos hnegative]
        exact done ()
      · simp only [if_neg hnegative]
        split
        · exact done ()
        · refine Triple.bind (place_exits (x := none) ?_) (fun _ => done ())
          intro s' hs'
          rw [hs']
          exact ⟨.dca _ _ _ freeQuote scale hs.1 hs.2.1 hs.2.2.1 hs.2.2.2 (not_lt.mp hnegative)
            (by rw [hamount]), hs.1⟩

theorem stepDca_at (price entryPx : ℚ) (regime : Option RegimeDecision) (sig : Signals) :
    Triple (At S w₀ (Exits none)) (stepDca S price entryPx regime sig) (fun _ => Free S w₀)
      (fun _ => Free S w₀) := by
  unfold stepDca
  refine Triple.bind (Q := fun _ => At S w₀ (Exits none)) ?_ (fun scale => ?_)
  · cases sig.dcaScale with
    | ok scale => exact Triple.pure (fun _ hw => hw)
    | error e => exact raise_at e (fun _ _ => trivial)
  · refine state_at' (fun s hs => ?_)
    by_cases hdue : dcaDue S s price regime = true
    · rw [if_pos hdue]
      unfold dcaDue at hdue
      simp only [Bool.and_eq_true, Bool.not_eq_true', decide_eq_true_eq] at hdue
      obtain ⟨⟨⟨⟨hcount, -⟩, hspent⟩, -⟩, hopen⟩ := hdue
      refine (placeDca_at _ scale rfl entryPx).strengthen (fun w hw => ⟨hw.1, ?_⟩)
      rw [hw.2]
      exact ⟨hs, hopen, hcount, hspent⟩
    · rw [if_neg hdue]
      exact done ()

theorem placeSells_at (desired : List (ℚ × ℚ)) :
    Triple (At S w₀ (Exits none)) (placeSells S desired) (fun _ => At S w₀ (Exits none))
      (fun _ => Free S w₀) := by
  unfold placeSells
  refine Triple.foldlM (I := fun _ _ => At S w₀ (Exits none)) ?_ ()
  intro _ d _ _ _
  refine Triple.bind (place_exits (x := none) ?_) (fun _ => Triple.pure (fun _ hw => hw))
  exact fun s hs => ⟨.tp d.2 d.1 hs, hs⟩

theorem classicTakeProfit_at (avg held : ℚ) :
    Triple (At S w₀ (Exits none)) (classicTakeProfit S avg held) (fun _ => At S w₀ (Exits none))
      (fun _ => Free S w₀) := by
  unfold classicTakeProfit
  refine Triple.bind (note_at (g := Exits none) (by intro s; rfl) (by intro s hs; exact hs)) (fun _ => ?_)
  refine state_at (fun s => ?_)
  refine Triple.strengthen (P := At S w₀ (Exits none)) ?_ (fun w hw => hw.1)
  split
  · exact Triple.pure (fun _ hw => hw)
  · refine Triple.bind (loose (cancelOrders_at (orderFree_exits none) _ _)) (fun _ => ?_)
    refine state_at (fun s' => ?_)
    refine Triple.strengthen (P := At S w₀ (Exits none)) ?_ (fun w hw => hw.1)
    split
    · exact Triple.pure (fun _ hw => hw)
    · exact placeSells_at _

/-- The take-profit part leaves no exit behind unless the tick is over. -/
theorem takeProfit_at (price avg held : ℚ) (regime : Option RegimeDecision) (sig : Signals) :
    Triple (At S w₀ (Exits none)) (takeProfit S price avg held regime sig)
      (fun ended w => Free S w₀ w ∧ (ended = false → At S w₀ (Exits none) w))
      (fun _ => Free S w₀) := by
  have hgoOn : ∀ w, At S w₀ (Exits none) w →
      Free S w₀ w ∧ (false = false → At S w₀ (Exits none) w) :=
    fun w hw => ⟨At.free hw, fun _ => hw⟩
  have hover : ∀ w, Free S w₀ w → Free S w₀ w ∧ (true = false → At S w₀ (Exits none) w) :=
    fun w hw => ⟨hw, fun h => by cases h⟩
  unfold takeProfit
  refine state_at (fun s => ?_)
  refine Triple.strengthen (P := At S w₀ (Exits none)) ?_ (fun w hw => hw.1)
  dsimp only
  split
  · exact Triple.pure hgoOn
  split
  · split
    · refine Triple.bind (note_at (g := Exits none) (by intro s; rfl) (by intro s hs; exact hs)) (fun _ => ?_)
      refine state_at (fun s' => ?_)
      refine Triple.strengthen (P := At S w₀ (Exits none)) ?_ (fun w hw => hw.1)
      cases trailAction S s' avg price with
      | blocked => exact Triple.pure (fun w hw => hover w (At.free hw))
      | exit =>
          refine Triple.bind (free (requestMarketExit_at price .tp true)) (fun _ => ?_)
          exact Triple.pure hover
      | ride =>
          refine Triple.bind (loose (cancelOrders_at (orderFree_exits none) _ _)) (fun _ => ?_)
          exact Triple.pure hgoOn
    · refine Triple.bind (note_at (g := Exits none) (by intro s; rfl) (by intro s hs; exact hs)) (fun _ => ?_)
      refine Triple.bind (loose (cancelOrders_at (orderFree_exits none) _ _)) (fun _ => ?_)
      exact Triple.pure hgoOn
  · refine Triple.bind (classicTakeProfit_at avg held) (fun _ => ?_)
    exact Triple.pure hgoOn

theorem stepHeld_at (price held entryPx : ℚ) (regime : Option RegimeDecision) (sig : Signals) :
    Triple (At S w₀ (Exits none)) (stepHeld S price held entryPx regime sig) (fun _ => Free S w₀)
      (fun _ => Free S w₀) := by
  unfold stepHeld
  refine state_at (fun s => ?_)
  refine Triple.strengthen (P := At S w₀ (Exits none)) ?_ (fun w hw => hw.1)
  refine Triple.bind (takeProfit_at price _ held regime sig) (fun ended => ?_)
  cases ended with
  | true => exact Triple.pure (fun _ hw => hw.1)
  | false => exact (stepDca_at price entryPx regime sig).strengthen (fun _ hw => hw.2 rfl)

theorem stepFlat_at (price entryPx : ℚ) (sig : Signals) :
    Triple (At S w₀ (Exits none)) (stepFlat S price entryPx sig) (fun _ => Free S w₀)
      (fun _ => Free S w₀) := by
  unfold stepFlat
  refine state_at' (fun s hs => ?_)
  by_cases hopen : s.hasOpen .buy = true
  · rw [if_pos hopen]
    exact done ()
  · rw [if_neg hopen]
    -- the low that reentry follows is not a field that the entry depends on
    refine Triple.bind (Q := fun _ => At S w₀ (fun s' => s'.pendingExit = none ∧
      s'.hasOpen .buy = false ∧ s'.spent = s.spent)) ?_ (fun _ => ?_)
    · refine note_at (by intro s; rfl) (fun s' hs' => ?_)
      rw [Bool.not_eq_true] at hopen
      rw [hs']
      exact ⟨hs, hopen, rfl⟩
    · split
      · exact done ()
      split
      · exact done ()
      · rename_i hbudget
        refine Triple.bind (place_exits (x := none) ?_) (fun _ => done ())
        intro s' hs'
        refine ⟨.entry _ _ hs'.1 hs'.2.1 ?_, hs'.1⟩
        rw [hs'.2.2]
        exact not_lt.mp hbudget

theorem overlayHold_at (price : ℚ) (closes : List ℚ) :
    Keeps (Free S w₀) (overlayHold S price closes) := by
  unfold overlayHold
  refine Keeps.bind (note_at (by intro s; rfl) (by intro s hs; exact hs)) (fun _ => ?_)
  refine state_at' (fun s _ => ?_)
  dsimp only
  split
  · exact raise_at _ (fun _ _ => trivial)
  split
  · exact Triple.bind (free (requestMarketExit_at price .tp false)) (fun _ => done ())
  · exact Triple.bind (free (cancelOrders_at orderFree_true _ _)) (fun _ => done ())

theorem overlayEnter_at (price : ℚ) :
    Triple (At S w₀ (fun s => s.pendingExit = none ∧
        s.spent + S.params.trendTopup ≤ S.params.effectiveMaxBudget))
      (overlayEnter S price) (fun _ => Free S w₀) (fun _ => Free S w₀) := by
  unfold overlayEnter
  have hfree : OrderFree (fun s => s.pendingExit = none ∧
      s.spent + S.params.trendTopup ≤ S.params.effectiveMaxBudget) := fun _ _ h => h
  refine Triple.bind (loose (cancelOrders_at hfree _ _)) (fun _ => ?_)
  refine Triple.bind (loose (cancelOrders_at hfree _ _)) (fun _ => ?_)
  refine state_at' (fun s hs => ?_)
  by_cases horders : s.orders ≠ []
  · rw [if_pos horders]
    exact done ()
  · rw [if_neg horders]
    refine Triple.bind (place_exits (x := none) ?_) (fun _ => done ())
    intro s' hs'
    rw [hs']
    exact ⟨.trendEntry _ _ hs.1 (not_not.mp horders) hs.2, hs.1⟩

/-- The overlay leaves no exit behind unless it handled the tick. -/
theorem overlayStep_at (price : ℚ) (regime : RegimeDecision) (closes : List ℚ) :
    Triple (At S w₀ (Exits none)) (overlayStep S price regime closes)
      (fun handled w => Free S w₀ w ∧ (handled = false → At S w₀ (Exits none) w))
      (fun _ => Free S w₀) := by
  have hgoOn : ∀ w, At S w₀ (Exits none) w →
      Free S w₀ w ∧ (false = false → At S w₀ (Exits none) w) :=
    fun w hw => ⟨At.free hw, fun _ => hw⟩
  have hover : ∀ w, Free S w₀ w → Free S w₀ w ∧ (true = false → At S w₀ (Exits none) w) :=
    fun w hw => ⟨hw, fun h => by cases h⟩
  unfold overlayStep
  refine state_at' (fun s hs => ?_)
  have hexits : ∀ w, At S w₀ (fun s' => s' = s) w → At S w₀ (Exits none) w := by
    intro w hw
    refine ⟨hw.1, ?_⟩
    rw [hw.2]
    exact hs
  dsimp only
  split
  · exact Triple.bind (free (overlayHold_at price closes)) (fun _ => Triple.pure hover)
  split
  · split
    · exact Triple.pure (fun w hw => hover w (At.free hw))
    · refine Triple.strengthen ?_ hexits
      exact Triple.bind (loose (cancelOpen_at (orderFree_exits none) .buy))
        (fun _ => Triple.pure hgoOn)
  split
  · rename_i hup
    simp only [Bool.and_eq_true, decide_eq_true_eq] at hup
    refine Triple.bind ((overlayEnter_at price).strengthen (fun w hw => ⟨hw.1, ?_⟩))
      (fun _ => Triple.pure hover)
    rw [hw.2]
    exact ⟨hs, hup.2⟩
  · exact Triple.pure (fun w hw => hgoOn w (hexits w hw))

theorem stepDecide_at (price held : ℚ) (sig : Signals) :
    Triple (At S w₀ (Exits none)) (stepDecide S price held sig) (fun _ => Free S w₀)
      (fun _ => Free S w₀) := by
  unfold stepDecide
  refine Triple.bind (Q := fun handled w =>
    Free S w₀ w ∧ (handled = false → At S w₀ (Exits none) w)) ?_ (fun handled => ?_)
  · unfold overlayHandled
    split
    · exact overlayStep_at price sig.regime sig.closes
    · exact Triple.pure (fun w hw => ⟨At.free hw, fun _ => hw⟩)
  · cases handled with
    | true => exact Triple.pure (fun _ hw => hw.1)
    | false =>
        refine Triple.strengthen (P := At S w₀ (Exits none)) ?_ (fun _ hw => hw.2 rfl)
        simp only [Bool.false_eq_true, if_false]
        split
        · exact stepFlat_at price _ sig
        · exact stepHeld_at price held _ _ sig

theorem stepExits_at (price held : ℚ) (sig : Signals) :
    Keeps (Free S w₀) (stepExits S price held sig) := by
  unfold stepExits
  refine Keeps.bind ?_ (fun stopped => ?_)
  · unfold stopTaken checkStopLoss
    split
    · refine state_at' (fun s _ => ?_)
      dsimp only
      split
      · exact done false
      split
      · split
        · exact done true
        · exact Triple.bind (free (requestMarketExit_at price .stop false)) (fun _ => done true)
      · exact done false
    · exact done false
  · split
    · exact done ()
    · refine state_at' (fun s _ => ?_)
      split
      · exact done ()
      split
      · exact Triple.bind (free (continueMarketExit_at price)) (fun _ => done ())
      · rename_i hexit
        refine (stepDecide_at price held sig).strengthen (fun w hw => ⟨hw.1, ?_⟩)
        show w.s.pendingExit = none
        rw [hw.2]
        simpa using hexit

theorem maybeAdopt_at : Keeps (Free S w₀) (maybeAdopt S) := by
  unfold maybeAdopt
  refine state_at' (fun s _ => ?_)
  by_cases hoff : S.params.adoptCost ≤ 0 ∨ s.adopted = true
  · rw [if_pos hoff]
    exact done ()
  · rw [if_neg hoff]
    -- only a state in which nothing was bought yet may adopt
    by_cases hused : flatQty < s.qty ∨ s.orders ≠ [] ∨ s.cycle ≠ 1 ∨ 0 < s.spent
    · rw [if_pos hused]
      exact done ()
    · rw [if_neg hused]
      push Not at hoff hused
      refine Triple.bind (Q := fun found w => At S w₀ (fun s' => s' = s) w ∧
        ∀ qty, found = some qty → 0 < qty) ?_ (fun found => ?_)
      · unfold adoptableQty
        by_cases hqty : 0 < S.params.adoptQty
        · rw [if_pos hqty]
          refine Triple.pure (fun w hw => ⟨hw, fun qty h => ?_⟩)
          split at h
          · cases h
          · cases h
            exact hqty
        · rw [if_neg hqty]
          refine Triple.bind (loose ask_none_at) (fun answer => ?_)
          cases answer with
          | error e =>
              dsimp only
              split
              · exact Triple.pure (fun w hw => ⟨hw, fun qty h => by cases h⟩)
              · exact raise_at e (fun _ _ => trivial)
          | ok raw =>
              refine Triple.pure (fun w hw => ⟨hw, fun qty h => ?_⟩)
              split at h
              · cases h
              split at h
              · cases h
              · rename_i hpos
                cases h
                exact not_le.mp hpos
      · cases found with
        | none => exact Triple.pure (fun w hw => At.free hw.1)
        | some qty =>
            refine Triple.bind (Q := fun _ => Free S w₀) ?_ (fun _ => save_at)
            intro w hw
            have hs : w.s = s := hw.1.2
            refine ⟨hw.1.1.tail (.positionAdopted qty (hw.2 qty rfl) ?_ ?_ ?_ hoff.1), trivial⟩
            · rw [hs]
              exact hused.2.1
            · rw [hs]
              exact hused.1
            · rw [hs]
              exact hused.2.2.2

theorem ledgerGate_at : Keeps (Free S w₀) (ledgerGate S) := by
  unfold ledgerGate
  refine state_at' (fun s _ => ?_)
  dsimp only
  split
  · refine Triple.bind (free ask_none_at) (fun answer => ?_)
    match answer with
    | .error e =>
        dsimp only
        split
        · exact done false
        · exact raise_at e (fun _ _ => trivial)
    | .ok none => exact done false
    | .ok (some ledgerQty) =>
        dsimp only
        split
        · exact done false
        · refine Keeps.bind (note_at (by intro s; rfl) (by intro s hs; exact hs)) (fun _ => ?_)
          exact Keeps.bind save_at (fun _ => done true)
  · exact done true

theorem step_at (price : ℚ) (sig : Signals) : Keeps (Free S w₀) (step S price sig) := by
  unfold step
  refine state_at' (fun s _ => ?_)
  split
  · exact done ()
  refine Triple.bind (free ledgerGate_at) (fun go => ?_)
  split
  · unfold stepAdopt
    refine state_at' (fun s _ => ?_)
    split
    · refine Triple.bind (free maybeAdopt_at) (fun _ => ?_)
      refine state_at' (fun s _ => ?_)
      split
      · exact free (stepExits_at price s.qty sig)
      · exact done ()
    · exact free (stepExits_at price s.qty sig)
  · exact done ()

end Decisions

/-! ## Runs -/

section Runs

variable {S : Setup}

/-- Every action is a walk, when the payloads it may read are the lifecycle's own. -/
theorem act_walks {w : World} (hw : Genuine w.s) (a : Action) : Walks S w (w.act S a) := by
  have hstart : At S w Genuine w := ⟨.refl, hw⟩
  have hpost : Post (fun _ => Free S w) (fun _ => Free S w) (a.program S w) := by
    cases a with
    | reconcile price => exact reconcileOrders_at price w hstart
    | step price sig => exact step_at price sig w (At.free hstart)
    | save => exact save_at w (At.free hstart)
    | adopt => exact maybeAdopt_at w (At.free hstart)
    | restart => exact At.free hstart
  unfold World.act World.after
  cases hresult : a.program S w with
  | ok _ w' =>
      rw [hresult] at hpost
      exact hpost.1
  | error stop w' =>
      rw [hresult] at hpost
      cases stop with
      | raised e => exact hpost.1
      | crash => exact hpost.1.tail .restarted

/-- The payloads in memory and on disk are the lifecycle's own. -/
def World.Genuine (w : World) : Prop :=
  TradingFleet.SpotDca.Genuine w.s ∧ TradingFleet.SpotDca.Genuine w.saved

theorem genuine_none {s : State} (h : s.pendingIntent = none) : Genuine s := by
  intro p t hp
  rw [h] at hp
  cases hp

theorem genuine_same {s s' : State} (hs : Genuine s) (h : s'.pendingIntent = s.pendingIntent) :
    Genuine s' := by
  intro p t hp
  rw [h] at hp
  exact hs p t hp

theorem State.accounted_pendingIntent (s : State) (o : Order) (r : Report) :
    (s.accounted o r).pendingIntent = s.pendingIntent := by
  unfold State.accounted State.filled
  split
  · cases (o.fill r).side <;> rfl
  split
  · rfl
  · rfl

theorem State.reported_pendingIntent (s : State) (o : Order) (r : Report) :
    (s.reported o r).pendingIntent = s.pendingIntent := by
  unfold State.reported
  rw [State.accounted_pendingIntent]
  split
  · rfl
  · rfl

theorem State.filled_pendingIntent (s : State) (f : Fill) :
    (s.filled f).pendingIntent = s.pendingIntent := by
  unfold State.filled
  cases f.side <;> rfl

theorem State.flattened_pendingIntent (s : State) (P : PairPrecision) :
    (s.flattened P).pendingIntent = s.pendingIntent := by
  unfold State.flattened
  split
  · rfl
  · rfl

theorem SameCore.pendingIntent {s s' : State} (h : SameCore s s') :
    s'.pendingIntent = s.pendingIntent := by
  rw [h]

theorem Move.genuine {w w' : World} (h : Move S w w') (hw : w.Genuine) : w'.Genuine := by
  cases h with
  | note h => exact ⟨genuine_same hw.1 h.pendingIntent, hw.2⟩
  | called n failed events h => exact hw
  | saved => exact ⟨hw.1, hw.1⟩
  | intended hfree h => exact hw
  | pend hp hfree h =>
      refine ⟨fun q t hq ht => ?_, hw.2⟩
      obtain ⟨_, rfl⟩ := hp
      cases hq
      cases ht
  | submit answer hp hpending h => exact hw
  | rewrite hp h =>
      refine ⟨fun q t hq ht => ?_, hw.2⟩
      cases hq
      rcases h.terminal with hsame | ⟨-, t', ht', hnew⟩
      · rw [hsame] at ht
        exact hw.1 _ t hp ht
      · rw [hnew] at ht
        cases ht
        exact ht'
  | release hp h => exact ⟨genuine_none rfl, hw.2⟩
  | track hp h => exact ⟨genuine_none rfl, hw.2⟩
  | cancelled h => exact hw
  | dropped h => exact hw
  | paperPlaced t hpaper hsize h => exact hw
  | ignored ho hlive h => exact hw
  | booked ho hlive h => exact ⟨genuine_same hw.1 (State.reported_pendingIntent _ _ _), hw.2⟩
  | paperFilled ho hpaper => exact ⟨genuine_same hw.1 (State.filled_pendingIntent _ _), hw.2⟩
  | flattened => exact ⟨genuine_same hw.1 (State.flattened_pendingIntent _ _), hw.2⟩
  | held kind price hflat => exact hw
  | closed kind price hflat horders hpending => exact ⟨genuine_none rfl, hw.2⟩
  | exitMarked e h => exact hw
  | positionAdopted qty hqty horders hflat hspent hcost => exact hw
  | restarted => exact ⟨hw.2, hw.2⟩

/-- Every run is a walk. -/
theorem run_walks {w : World} (hw : w.Genuine) (actions : List Action) :
    Walks S w (w.run S actions) := by
  induction actions generalizing w with
  | nil => exact .refl
  | cons a rest ih =>
      have hwalk : Walks S w (w.act S a) := act_walks hw.1 a
      have hnext : (w.act S a).Genuine := hwalk.invariant (fun _ _ => Move.genuine) hw
      exact hwalk.trans (ih hnext)

theorem genuine_initial : World.initial.Genuine := ⟨genuine_none rfl, genuine_none rfl⟩

/-- What holds at first and is kept by every move holds in every reachable world. -/
theorem Reachable.invariant {I : World → Prop} (h₀ : I World.initial)
    (hI : ∀ w w', Move S w w' → I w → I w') {w : World} (h : Reachable S w) : I w := by
  obtain ⟨actions, rfl⟩ := h
  exact (run_walks genuine_initial actions).invariant hI h₀

end Runs

end TradingFleet.SpotDca
