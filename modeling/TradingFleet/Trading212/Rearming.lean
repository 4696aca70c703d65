import TradingFleet.Basic.Runs
import TradingFleet.Trading212.Marks

set_option autoImplicit false

/-! # Trading 212: a protective exit arms the re-entry

The new cycle after a protective exit waits for a bounce to buy back, if the close finds the mark
`slPending`. The exit checks set it, and only `_check_stop_loss` takes it away, when something is
held and the loss is below the threshold (`State.clears`). In a run without such a tick the mark
survives failed writes and restarts, once the tick of the sale is on disk.
-/

namespace TradingFleet.Trading212

open TradingFleet.Lifecycle TradingFleet.Hoare TradingFleet.Runs
open TradingFleet.Rounding (roundTo)

variable {S : Setup} {free keep quiet : Bool} {w w' : World} {α β : Type}

/-! ## Exits -/

theorem protectiveExit_carrying (kind : Kind) (price : ℚ) :
    Carrying S false keep quiet (protectiveExit S kind price) := by
  refine carrying_state (fun s => ?_)
  extract_lets again
  refine carrying_ite ?_ (carrying_pure _)
  refine carrying_bind cancelAllOrders_carrying (fun _ => carrying_ite ?_ (carrying_pure _))
  refine carrying_state (fun s => ?_)
  refine carrying_bind (placeSell_carrying _ _ _ _ (fun h => by cases h)) (fun _ => ?_)
  refine carrying_ite ?_ (carrying_pure _)
  exact fun w => Carries.changed (fun _ _ => rfl) (fun h => by cases h)

/-- The trailing exit is not armed yet, nor by this price. -/
def State.warmingUp (P : StratParams) (s : State) (price : ℚ) : Bool :=
  !s.trArmed && 0 < P.trailMinProfitPct &&
    (match nonzero s.avgCost with
    | none => true
    | some avg => price < avg * (1 + P.trailMinProfitPct / 100))

/-- The highest price since the arming. -/
def State.peakAt (s : State) (price : ℚ) : ℚ :=
  if s.trArmed then (if s.posPeak < price then price else s.posPeak) else price

/-- `_check_trailing` sells. -/
def State.trails (P : StratParams) (s : State) (price : ℚ) : Bool :=
  0 < P.trailPct && flatQty < s.qty && !s.warmingUp P price && 0 < s.peakAt price &&
    P.trailPct ≤ (s.peakAt price - price) / s.peakAt price * 100

/-- The loss is below the threshold of `_check_stop_loss`. -/
def State.recovered (P : StratParams) (s : State) (price : ℚ) : Bool :=
  0 < P.stopLossPct &&
    (match nonzero s.avgCost with
    | none => false
    | some avg => (avg - price) / avg * 100 < P.stopLossPct)

/-- `step` takes the mark away: something is held, the trailing exit does not sell, and the loss is
below the threshold. -/
def State.clears (P : StratParams) (s : State) (price : ℚ) : Bool :=
  flatQty < s.qty && !s.trails P price && s.recovered P price

/-- The state of `s` apart from the peak and the arming. -/
def PeakOnly (s s' : State) : Prop :=
  s' = { s with posPeak := s'.posPeak, trArmed := s'.trArmed }

theorem PeakOnly.recovered {s s' : State} (h : PeakOnly s s') (P : StratParams) (price : ℚ) :
    s'.recovered P price = s.recovered P price := by
  rw [h]
  rfl

theorem carrying_triple {x : StratM α} (h : Carrying S free keep quiet x) :
    Triple (Carries S free keep quiet w) x (fun _ => Carries S free keep quiet w)
      (fun _ => Carries S free keep quiet w) :=
  h.triple (fun _ _ hw hmove => hw.trans hmove)

theorem state_triple {f : State → StratM β} {P : World → Prop} {Q : β → World → Prop}
    {E : Stop → World → Prop} (h : ∀ s, Triple (fun w => P w ∧ w.s = s) (f s) Q E) :
    Triple P (state >>= f) Q E :=
  fun w hw => h w.s w ⟨hw, rfl⟩

/-- Without a sale only the peak and the arming have changed, and no exit was due. -/
theorem checkTrailing_idle (s : State) (hheld : flatQty < s.qty) (price : ℚ) :
    Triple (fun w => w.s = s) (checkTrailing S price)
      (fun sold w => sold = false → PeakOnly s w.s ∧ s.trails S.params price = false)
      (fun _ _ => True) := by
  have hsame : PeakOnly s s := by
    unfold PeakOnly
    rfl
  refine state_triple (fun s' => ?_)
  refine Triple.strengthen (P := fun w => s' = s ∧ w.s = s) ?_
    (fun w hw => ⟨hw.2.symm.trans hw.1, hw.1⟩)
  refine Triple.of_fact (fun heq => ?_)
  subst heq
  by_cases hoff : S.params.trailPct ≤ 0 ∨ s'.qty ≤ flatQty
  · rw [if_pos hoff]
    have hpct : ¬ 0 < S.params.trailPct := not_lt.mpr (hoff.resolve_right (not_le.mpr hheld))
    refine Triple.bind (Q := fun _ w => PeakOnly s' w.s) (fun w hw => ?_) (fun _ => ?_)
    · show PeakOnly s' { w.s with posPeak := 0, trArmed := false }
      rw [hw]
      unfold PeakOnly
      rfl
    · refine Triple.pure (fun w hw _ => ⟨hw, ?_⟩)
      unfold State.trails
      simp [hpct]
  · rw [if_neg hoff]
    have hpct : 0 < S.params.trailPct := not_le.mp (fun h => hoff (Or.inl h))
    change Triple _ (if s'.warmingUp S.params price = true then pure false else _) _ _
    by_cases hwarm : s'.warmingUp S.params price = true
    · rw [if_pos hwarm]
      refine Triple.pure (fun w hw => fun _ => ⟨hw ▸ hsame, ?_⟩)
      unfold State.trails
      simp [hwarm]
    · rw [if_neg hwarm]
      -- the peak of this tick
      refine Triple.bind (Q := fun _ w => w.s = if s'.trArmed then s'
        else { s' with trArmed := true, posPeak := price }) (fun w hw => ?_) (fun _ => ?_)
      · show (if w.s.trArmed then w.s else { w.s with trArmed := true, posPeak := price }) = _
        rw [hw]
      refine Triple.bind (Q := fun _ w => w.s =
        { s' with trArmed := true, posPeak := s'.peakAt price }) (fun w hw => ?_) (fun _ => ?_)
      · show (if w.s.posPeak < price then { w.s with posPeak := price } else w.s) = _
        rw [hw]
        unfold State.peakAt
        by_cases harmed : s'.trArmed = true
        · by_cases hpeak : s'.posPeak < price
          · simp [harmed, hpeak]
          · simp only [harmed, hpeak, if_true, if_false]
            rw [← harmed]
        · simp [harmed]
      refine state_triple (fun s₂ => ?_)
      refine Triple.strengthen (P := fun w => s₂ = { s' with
        trArmed := true, posPeak := s'.peakAt price } ∧ w.s = s₂) ?_
        (fun w hw => ⟨hw.2.symm.trans hw.1, hw.2⟩)
      refine Triple.of_fact (fun heq => ?_)
      have hpeakOnly : PeakOnly s' s₂ := by
        rw [heq]
        rfl
      have hpeak : s₂.posPeak = s'.peakAt price := by rw [heq]
      rw [hpeak]
      have hidle : s'.trails S.params price = false → Triple (fun w => w.s = s₂)
          (pure false : StratM Bool)
          (fun sold w => sold = false → PeakOnly s' w.s ∧ s'.trails S.params price = false)
          (fun _ _ => True) :=
        fun h => Triple.pure (fun w hw => fun _ => ⟨hw ▸ hpeakOnly, h⟩)
      by_cases hpositive : s'.peakAt price ≤ 0
      · rw [if_pos hpositive]
        refine hidle ?_
        unfold State.trails
        simp [not_lt.mpr hpositive]
      · rw [if_neg hpositive]
        by_cases hdrop : (s'.peakAt price - price) / s'.peakAt price * 100 < S.params.trailPct
        · rw [if_pos hdrop]
          refine hidle ?_
          unfold State.trails
          simp [hdrop]
        · rw [if_neg hdrop]
          refine Triple.bind (Q := fun _ _ => True) (fun w hw => ?_) (fun _ => ?_)
          · cases protectiveExit S .tr price w with
            | ok _ _ => exact trivial
            | error _ _ => exact trivial
          · exact Triple.pure (fun w hw => fun h => by cases h)

theorem checkTrailing_carrying (price : ℚ) :
    Carrying S false keep quiet (checkTrailing S price) := by
  refine carrying_state (fun s => carrying_ite ?_ (carrying_ite (carrying_pure _) ?_))
  · exact carrying_bind (carrying_update (fun _ => rfl) (fun _ => rfl)) (fun _ => carrying_pure _)
  · refine carrying_bind (carrying_update (fun s => ?_) (fun s => ?_)) (fun _ => ?_)
    · split <;> rfl
    · split <;> rfl
    refine carrying_bind (carrying_update (fun s => ?_) (fun s => ?_)) (fun _ => ?_)
    · split <;> rfl
    · split <;> rfl
    refine carrying_state (fun s => carrying_ite (carrying_pure _) ?_)
    refine carrying_ite (carrying_pure _) ?_
    exact carrying_bind (protectiveExit_carrying _ _) (fun _ => carrying_pure _)

/-- The mark is kept while the loss is not below the threshold. -/
theorem checkStopLoss_carrying (price : ℚ) :
    Triple (fun v => Carries S false keep quiet w v ∧ v.s.recovered S.params price = false)
      (checkStopLoss S price) (fun _ => Carries S false keep quiet w)
      (fun _ => Carries S false keep quiet w) := by
  refine state_triple (fun s => ?_)
  refine Triple.strengthen
    (P := fun v => s.recovered S.params price = false ∧ Carries S false keep quiet w v)
    ?_ (fun v hv => ⟨hv.2 ▸ hv.1.2, hv.1.1⟩)
  refine Triple.of_fact (fun hloss => ?_)
  by_cases hoff : S.params.stopLossPct ≤ 0
  · rw [if_pos hoff]
    exact Triple.pure (fun _ hv => hv)
  · rw [if_neg hoff]
    have hon : 0 < S.params.stopLossPct := not_le.mp hoff
    unfold State.recovered at hloss
    cases havg : nonzero s.avgCost with
    | none => exact Triple.pure (fun _ hv => hv)
    | some avg =>
        have hdeep : ¬ (avg - price) / avg * 100 < S.params.stopLossPct := by
          simpa [hon, havg] using hloss
        show Triple _ (if (avg - price) / avg * 100 < S.params.stopLossPct then _ else _) _ _
        rw [if_neg hdeep]
        exact Triple.bind (carrying_triple (protectiveExit_carrying _ _))
          (fun _ => Triple.pure (fun _ hv => hv))

/-- What `step` does when no exit was due. -/
theorem takeProfit_carrying (held price : ℚ) (inBackoff : Bool) :
    Carrying S free keep quiet (do
      let s ← state
      match nonzero s.avgCost with
      | some avg =>
          if S.params.enableTakeprofit then
            if S.params.tpLadder.isEmpty then manageTp S held avg else manageTpLadder S held avg
          else pure ()
      | none => pure ()
      considerDca S price inBackoff) := by
  refine carrying_state (fun s => ?_)
  cases nonzero s.avgCost with
  | none => exact considerDca_carrying price inBackoff
  | some avg =>
      refine carrying_ite (carrying_ite ?_ ?_) (considerDca_carrying price inBackoff)
      · exact carrying_bind (manageTp_carrying held avg) (fun _ => considerDca_carrying _ _)
      · exact carrying_bind (manageTpLadder_carrying held avg) (fun _ => considerDca_carrying _ _)

/-- `step` keeps the mark of a state that it does not clear. -/
theorem step_carrying {v : World} {price : ℚ} (h : v.s.clears S.params price = false) :
    Triple (· = v) (step S price) (fun _ => Carries S false keep quiet v)
      (fun _ => Carries S false keep quiet v) := by
  refine state_triple (fun s => ?_)
  refine Triple.strengthen (P := fun u => s = v.s ∧ Carries S false keep quiet v u ∧ u.s = s) ?_
    (fun u hu => ⟨hu.1 ▸ hu.2.symm, hu.1 ▸ Carries.refl, hu.2⟩)
  refine Triple.of_fact (fun hs => ?_)
  subst hs
  extract_lets held
  have hask : Triple (fun u => Carries S false keep quiet v u ∧ u.s = v.s) (ask S.venue.time)
      (fun _ u => Carries S false keep quiet v u ∧ u.s = v.s)
      (fun _ => Carries S false keep quiet v) := by
    intro u hu
    have hcalled : Carries S false keep quiet v { u with calls := u.calls + 1 } :=
      hu.1.trans (Carries.outside rfl rfl (Or.inl rfl))
    unfold ask
    cases S.venue.time u.calls with
    | ok t => exact ⟨hcalled, hu.2⟩
    | error e => exact hcalled
  refine Triple.bind hask (fun t => ?_)
  extract_lets inBackoff
  by_cases hflat : held ≤ flatQty
  · rw [if_pos hflat]
    exact (carrying_triple (enter_carrying _ _)).strengthen (fun u hu => hu.1)
  · rw [if_neg hflat]
    have hheld : flatQty < v.s.qty := not_le.mp hflat
    have hcarrying : Carrying S false keep quiet (checkTrailing S price) :=
      checkTrailing_carrying price
    have htrailing := (carrying_triple (w := v) hcarrying).and (checkTrailing_idle v.s hheld price)
    refine Triple.bind (htrailing.conseq (fun _ hu => hu) (fun _ _ hu => hu) (fun _ _ hu => hu.1))
      (fun sold => ?_)
    cases sold with
    | true => exact Triple.pure (fun u hu => hu.1)
    | false =>
        -- no exit was due, so the loss is not below the threshold
        refine Triple.strengthen (P := fun u => Carries S false keep quiet v u ∧
          u.s.recovered S.params price = false) ?_ (fun u hu => ⟨hu.1, ?_⟩)
        · refine Triple.bind (checkStopLoss_carrying price) (fun sold => ?_)
          refine Triple.ite (Triple.pure (fun _ hu => hu)) ?_
          exact carrying_triple (takeProfit_carrying held price inBackoff)
        · obtain ⟨hpeak, hidle⟩ := hu.2 rfl
          rw [hpeak.recovered]
          unfold State.clears at h
          simpa [hheld, hidle] using h

/-! ## The tick of a sale -/

theorem carrying_returns {x : StratM α} (h : Carrying S free keep quiet x) :
    Triple (Carries S free keep quiet w) x (fun _ => Carries S free keep quiet w)
      (fun _ _ => True) :=
  (carrying_triple h).conseq (fun _ hv => hv) (fun _ _ hv => hv) (fun _ _ _ => trivial)

/-- The same under a condition. -/
theorem carrying_provided {c : Prop} {x : StratM α} (h : Carrying S free keep quiet x) :
    Triple (fun v => c → Carries S free keep quiet w v) x
      (fun _ v => c → Carries S free keep quiet w v) (fun _ _ => True) := by
  by_cases hc : c
  · exact (carrying_returns h).conseq (fun _ hv => hv hc) (fun _ _ hv _ => hv) (fun _ _ _ => trivial)
  · intro v _
    cases x v with
    | ok a v' => exact fun h => absurd h hc
    | error e v' => exact trivial

/-- Since `w` no exit was placed, or the mark is set. -/
def Marked (S : Setup) (w v : World) : Prop :=
  Carries S true false false w v ∨ v.s.slPending = true

theorem submitPendingOrder_unplaced (hlive : S.dryRun = false) (p : Pending) :
    Triple (Carries S true false false w) (submitPendingOrder S p)
      (fun outcome v => placed outcome = false → Carries S true false false w v)
      (fun _ _ => True) := by
  refine Triple.bind (carrying_returns (persistPendingSubmit_carrying _)) (fun _ => ?_)
  refine Triple.bind (carrying_returns (carrying_ask _)) (fun answer => ?_)
  extract_lets outcome
  refine Triple.bind (Q := fun _ v => placed outcome = false → Carries S true false false w v)
    (fun v hv hunplaced => ?_) (fun _ => ?_)
  · have hexit : (Event.submit p outcome).placesExit = false := by
      show (p.kind.protective && placed outcome) = false
      rw [hunplaced, Bool.and_false]
    have hmark : Carrying S true false false (mark (.submit p outcome)) :=
      carrying_mark (fun _ => hexit) rfl
    exact hv.trans (hmark v)
  · cases outcome.state with
    | accepted =>
        exact Triple.bind (carrying_provided (adoptPendingSubmit_carrying hlive _))
          (fun _ => Triple.pure (fun _ hv => hv))
    | refused =>
        exact Triple.bind (carrying_provided (persistPendingSubmit_carrying _))
          (fun _ => Triple.pure (fun _ hv => hv))
    | unknown =>
        exact Triple.bind (carrying_provided (persistPendingSubmit_carrying _))
          (fun _ => Triple.pure (fun _ hv => hv))

/-- `_place_sell` returns `False` only if it placed nothing. -/
theorem placeSell_unplaced (qty limit : ℚ) (level : Option ℚ) (kind : Kind) (market : Bool) :
    Triple (Carries S true false false w) (placeSell S qty limit level kind market)
      (fun done v => done = false → Carries S true false false w v) (fun _ _ => True) := by
  unfold placeSell
  extract_lets qty
  have hnothing : Triple (Carries S true false false w) (pure false : StratM Bool)
      (fun done v => done = false → Carries S true false false w v) (fun _ _ => True) :=
    Triple.pure (fun _ hv _ => hv)
  refine state_triple (fun s => Triple.strengthen (P := Carries S true false false w) ?_
    (fun _ hv => hv.1))
  refine Triple.ite hnothing ?_
  by_cases hdry : S.dryRun = true
  · rw [if_pos hdry]
    refine Triple.bind (Q := fun _ _ => True) (fun v _ => ?_) (fun _ => ?_)
    · cases placePaper S _ v with
      | ok _ _ => exact trivial
      | error _ _ => exact trivial
    · exact Triple.pure (fun _ _ h => by cases h)
  · rw [if_neg hdry]
    refine Triple.ite hnothing ?_
    refine Triple.bind (Q := fun _ => Carries S true false false w) ?_ (fun p => ?_)
    · have hnew : Carrying S true false false
          (newPendingSubmit S .sell qty limit none kind level market >>= pure) :=
        newPendingSubmit_carrying (fun p _ => carrying_pure p)
      rw [bind_pure] at hnew
      exact carrying_returns hnew
    · refine Triple.bind (submitPendingOrder_unplaced (by simpa using hdry) p) (fun outcome => ?_)
      by_cases haccepted : outcome.state = .accepted
      · rw [if_pos haccepted]
        exact Triple.pure (fun _ _ h => by cases h)
      · rw [if_neg haccepted]
        by_cases hmentions : mentions outcome.reason "selling-equity-not-owned" = true
        · have hunplaced : placed outcome = false := by
            unfold placed
            simp [haccepted, hmentions]
          have hcarrying : Carrying S true false false (sellNotAccepted S outcome) :=
            sellNotAccepted_carrying outcome
          have hrest := carrying_returns (w := w) hcarrying
          exact hrest.conseq (fun _ hv => hv hunplaced) (fun _ _ hv _ => hv) (fun _ _ _ => trivial)
        · unfold sellNotAccepted
          rw [if_neg hmentions]
          refine Triple.pure (fun v hv h => hv ?_)
          have hrefused : outcome.state = .refused := by simpa using h
          unfold placed
          simp [hrefused]

theorem protectiveExit_marks (kind : Kind) (price : ℚ) :
    Triple (Carries S true false false w) (protectiveExit S kind price) (fun _ => Marked S w)
      (fun _ _ => True) := by
  have hnothing : Triple (Carries S true false false w) (pure () : StratM Unit)
      (fun _ => Marked S w) (fun _ _ => True) := Triple.pure (fun _ hv => Or.inl hv)
  refine state_triple (fun s => Triple.strengthen (P := Carries S true false false w) ?_
    (fun _ hv => hv.1))
  extract_lets again
  refine Triple.ite ?_ hnothing
  refine Triple.bind (carrying_returns cancelAllOrders_carrying) (fun _ => Triple.ite ?_ hnothing)
  refine state_triple (fun s => Triple.strengthen (P := Carries S true false false w) ?_
    (fun _ hv => hv.1))
  refine Triple.bind (placeSell_unplaced _ _ _ _ _) (fun done => ?_)
  cases done with
  | true => exact fun v _ => Or.inr rfl
  | false => exact Triple.pure (fun v hv => Or.inl (hv rfl))

/-- A check that sells may have set the mark; one that does not has placed nothing. -/
def Checked (S : Setup) (w : World) (sold : Bool) (v : World) : Prop :=
  if sold then Marked S w v else Carries S true false false w v

theorem checkTrailing_marks (price : ℚ) :
    Triple (Carries S true false false w) (checkTrailing S price) (Checked S w)
      (fun _ _ => True) := by
  have hidle : Triple (Carries S true false false w) (pure false : StratM Bool) (Checked S w)
      (fun _ _ => True) := Triple.pure (fun _ hv => hv)
  refine state_triple (fun s => Triple.strengthen (P := Carries S true false false w) ?_
    (fun _ hv => hv.1))
  refine Triple.ite ?_ (Triple.ite hidle ?_)
  · exact Triple.bind (carrying_returns (carrying_update (fun _ => rfl) (fun _ => rfl)))
      (fun _ => hidle)
  · refine Triple.bind (carrying_returns (carrying_update (fun s => ?_) (fun s => ?_))) (fun _ => ?_)
    · split <;> rfl
    · split <;> rfl
    refine Triple.bind (carrying_returns (carrying_update (fun s => ?_) (fun s => ?_))) (fun _ => ?_)
    · split <;> rfl
    · split <;> rfl
    refine state_triple (fun s => Triple.strengthen (P := Carries S true false false w) ?_
      (fun _ hv => hv.1))
    refine Triple.ite hidle (Triple.ite hidle ?_)
    exact Triple.bind (protectiveExit_marks _ _) (fun _ => Triple.pure (fun _ hv => hv))

theorem checkStopLoss_marks (price : ℚ) :
    Triple (Carries S true false false w) (checkStopLoss S price) (Checked S w)
      (fun _ _ => True) := by
  have hidle : Triple (Carries S true false false w) (pure false : StratM Bool) (Checked S w)
      (fun _ _ => True) := Triple.pure (fun _ hv => hv)
  refine state_triple (fun s => Triple.strengthen (P := Carries S true false false w) ?_
    (fun _ hv => hv.1))
  refine Triple.ite hidle ?_
  split
  · exact hidle
  · refine Triple.ite (Triple.bind (fun v hv => ?_) (fun _ => hidle)) ?_
    · -- the mark goes, and nothing was placed
      exact hv.trans (Carries.changed (fun h => by cases h) (fun _ _ _ _ => le_refl _))
    · exact Triple.bind (protectiveExit_marks _ _) (fun _ => Triple.pure (fun _ hv => hv))

theorem step_marks (price : ℚ) :
    Triple (Carries S true false false w) (step S price) (fun _ => Marked S w)
      (fun _ _ => True) := by
  have hplain : ∀ {x : StratM Unit}, Carrying S true false false x →
      Triple (Carries S true false false w) x (fun _ => Marked S w) (fun _ _ => True) :=
    fun hx => (carrying_returns hx).weaken (fun _ _ hv => Or.inl hv)
  refine state_triple (fun s => Triple.strengthen (P := Carries S true false false w) ?_
    (fun _ hv => hv.1))
  extract_lets held
  refine Triple.bind (carrying_returns (carrying_ask _)) (fun t => ?_)
  extract_lets inBackoff
  refine Triple.ite (hplain (enter_carrying _ _)) ?_
  refine Triple.bind (checkTrailing_marks price) (fun sold => ?_)
  cases sold with
  | true => exact Triple.pure (fun _ hv => hv)
  | false =>
      refine Triple.bind (checkStopLoss_marks price) (fun sold => ?_)
      cases sold with
      | true => exact Triple.pure (fun _ hv => hv)
      | false => exact hplain (takeProfit_carrying held price inBackoff)

/-! ## Ticks -/

/-- A tick up to its decisions. -/
def approach (S : Setup) (price : ℚ) : StratM Unit := do
  let w ← get
  mark (.tick w.saved)
  if w.writeFailed then save S else pure ()
  reconcile S price

theorem tick_eq (S : Setup) (price : ℚ) :
    tick S price = (do approach S price; step S price; save S) := by
  unfold tick approach
  simp only [bind_assoc]
  refine bind_congr (fun v => bind_congr (fun _ => ?_))
  by_cases hfailed : v.writeFailed = true
  · simp only [hfailed, if_true, bind_assoc]
  · simp only [hfailed, if_false, Bool.false_eq_true]

theorem approach_carrying (price : ℚ) : Carrying S free keep false (approach S price) := by
  refine carrying_get (fun v => carrying_bind (carrying_mark (fun _ => rfl) rfl) (fun _ => ?_))
  exact carrying_ite (carrying_bind carrying_save (fun _ => reconcile_carrying price))
    (reconcile_carrying price)

/-- The action runs `step` on a state that it clears. -/
def World.clears (S : Setup) (w : World) : Action → Bool
  | .tick price =>
      match approach S price w with
      | .ok _ w' => w'.s.clears S.params price
      | .error _ _ => false
  | .restart => false

/-- The world after a tick that returns. -/
def World.ticked (S : Setup) (w : World) (price : ℚ) : Option World :=
  match tick S price w with
  | .ok _ w' => some w'
  | .error _ _ => none

theorem save_returns {v v' : World} (h : save S v = .ok () v') :
    v'.s = v.s ∧ (v'.writeFailed = false → v'.saved = v.s) := by
  unfold save at h
  cases hanswer : S.venue.save v.calls with
  | stored =>
      rw [hanswer] at h
      cases h
      exact ⟨rfl, fun _ => rfl⟩
  | failed =>
      rw [hanswer] at h
      by_cases hdry : S.dryRun = true
      · simp only [hdry, if_true] at h
        cases h
        exact ⟨rfl, fun h => by cases h⟩
      · simp only [hdry] at h
        cases h
  | crashed replaced =>
      rw [hanswer] at h
      cases h

/-- A tick that returns and is written has the mark on disk, if it placed an exit. -/
theorem tick_marks (price : ℚ) :
    Triple (· = w) (tick S price)
      (fun _ v => v.writeFailed = false → Carries S true false false w v ∨
        v.s.slPending = true ∧ v.saved.slPending = true) (fun _ _ => True) := by
  rw [tick_eq]
  refine Triple.strengthen (P := Carries S true false false w) ?_ (fun v hv => hv ▸ Carries.refl)
  refine Triple.bind (carrying_returns (approach_carrying price)) (fun _ => ?_)
  refine Triple.bind (step_marks price) (fun _ => ?_)
  intro v hv
  cases hsave : save S v with
  | error e v' => exact trivial
  | ok a v' =>
      obtain ⟨hs, hsaved⟩ := save_returns hsave
      intro hwritten
      rcases hv with hplain | hmark
      · have hcarrying : Carrying S true false false (save S) := carrying_save
        have hnext := hcarrying v
        rw [hsave] at hnext
        exact Or.inl (hplain.trans hnext)
      · rw [hs, hsaved hwritten]
        exact Or.inr ⟨hmark, hmark⟩

/-- A tick that does not clear keeps the mark. -/
theorem tick_carrying {price : ℚ} (h : w.clears S (.tick price) = false) :
    Triple (· = w) (tick S price) (fun _ => Carries S false true false w)
      (fun _ => Carries S false true false w) := by
  rw [tick_eq]
  refine Triple.bind
    (Q := fun _ v => Carries S false true false w v ∧ v.s.clears S.params price = false)
    ?_ (fun _ => ?_)
  · rintro v rfl
    have hcarrying : Carrying S false true false (approach S price) := approach_carrying price
    have hnext := hcarrying v
    cases happroach : approach S price v with
    | ok a v' =>
        rw [happroach] at hnext
        simp only [World.clears, happroach] at h
        exact ⟨hnext, h⟩
    | error e v' =>
        rw [happroach] at hnext
        exact hnext
  · rintro v ⟨hv, hkeeps⟩
    refine Triple.bind (P := (· = v)) (Q := fun _ => Carries S false true false w) ?_
      (fun _ => carrying_triple carrying_save) v rfl
    exact (step_carrying hkeeps).conseq (fun _ hu => hu) (fun _ _ hu => hv.trans hu)
      (fun _ _ hu => hv.trans hu)

/-! ## Runs -/

/-- What was logged since `w`. -/
def entriesSince (w w' : World) : List Entry := w'.log.take (w'.log.length - w.log.length)

theorem entriesSince_eq {new : List Entry} (h : w'.log = new ++ w.log) :
    entriesSince w w' = new := by
  unfold entriesSince
  rw [h, List.length_append, Nat.add_sub_cancel, List.take_left]

/-- Between the two worlds an exit was placed. -/
def ExitPlaced (S : Setup) (w w' : World) : Prop :=
  (∃ e ∈ entriesSince w w', e.event.placesExit = true) ∨
    S.dryRun = true ∧ ∃ o, o.kind.protective = true ∧ w.s.orders.count o < w'.s.orders.count o

/-- The first close since `w`. -/
def firstClose (w w' : World) : Option Entry :=
  (entriesSince w w').reverse.find? (fun e => e.event.closes)

/-- The mark is set since `w`, in memory and in the file, or the first close has found it. -/
def Holds (w v : World) : Prop :=
  ∃ new, v.log = new ++ w.log ∧
    ((∀ e ∈ new, e.event.closes = false) ∧ v.s.slPending = true ∧ v.saved.slPending = true ∨
      FirstClose new true)

theorem Holds.carries {v v' : World} (h : Holds w v) (hv : Carries S false true false v v') :
    Holds w v' := by
  obtain ⟨old, hold, hstate⟩ := h
  obtain ⟨new, hnew, -, hkept⟩ := hv.log
  refine ⟨new ++ old, by rw [hnew, hold, List.append_assoc], ?_⟩
  rcases hstate with ⟨hquiet, hmark, hsaved⟩ | hclose
  · rcases hkept.1 rfl with ⟨hquiet', hmark', hsaved'⟩ | hclose
    · refine Or.inl ⟨fun e he => ?_, hmark' hmark, hsaved' hmark hsaved⟩
      rcases List.mem_append.mp he with he | he
      · exact hquiet' e he
      · exact hquiet e he
    · exact Or.inr (hclose.before hquiet (fun _ => hmark))
  · exact Or.inr hclose.after

/-- A restart goes on with the mark of the file. -/
theorem Holds.restarted {v : World} (h : Holds w v) : Holds w v.restarted := by
  obtain ⟨new, hnew, hstate⟩ := h
  refine ⟨⟨v.s, .restarted⟩ :: new, by rw [List.cons_append, ← hnew]; rfl, ?_⟩
  rcases hstate with ⟨hquiet, -, hsaved⟩ | hclose
  · refine Or.inl ⟨fun e he => ?_, hsaved, hsaved⟩
    rcases List.mem_cons.mp he with rfl | he
    · rfl
    · exact hquiet e he
  · exact Or.inr (@FirstClose.after [⟨v.s, .restarted⟩] _ _ hclose)

/-- One action. -/
theorem Holds.act {v : World} (h : Holds w v) {a : Action} (hkeeps : v.clears S a = false) :
    Holds w (v.act S a) := by
  cases a with
  | restart => exact h.restarted
  | tick price =>
      have hpost := tick_carrying hkeeps v rfl
      show Holds w (World.after (tick S price v))
      cases htick : tick S price v with
      | ok a v' =>
          rw [htick] at hpost
          exact h.carries hpost
      | error e v' =>
          rw [htick] at hpost
          cases e with
          | raised e => exact h.carries hpost
          | crash => exact (h.carries hpost).restarted

theorem Holds.run {v : World} (h : Holds w v) {actions : List Action}
    (hkeeps : Along (World.act S) (fun v a => v.clears S a = false) v actions) :
    Holds w (v.run S actions) := by
  induction actions generalizing v with
  | nil => exact h
  | cons a rest ih => exact ih (h.act hkeeps.1) hkeeps.2

theorem find_first {newer older : List Entry} {e : Entry} (he : e.event.closes = true)
    (holder : ∀ a ∈ older, a.event.closes = false) :
    (newer ++ e :: older).reverse.find? (fun a => a.event.closes) = some e := by
  have hnone : older.reverse.find? (fun a => a.event.closes) = none := by
    rw [List.find?_eq_none]
    intro a ha
    rw [holder a (List.mem_reverse.mp ha)]
    exact Bool.false_ne_true
  rw [List.reverse_append, List.reverse_cons, List.append_assoc, List.find?_append, hnone]
  simp [he]

theorem Holds.firstClose {v : World} (h : Holds w v) {e : Entry} (he : firstClose w v = some e) :
    e.before.slPending = true := by
  obtain ⟨new, hnew, hstate⟩ := h
  unfold Trading212.firstClose at he
  rw [entriesSince_eq hnew] at he
  rcases hstate with ⟨hquiet, -⟩ | ⟨newer, e', older, hsplit, hcloses, hfirst, hmark⟩
  · have hnone := hquiet e (List.mem_reverse.mp (List.mem_of_find?_eq_some he))
    have hclosed := List.find?_some (p := fun a : Entry => a.event.closes) he
    rw [hclosed] at hnone
    cases hnone
  · rw [hsplit, find_first hcloses hfirst] at he
    cases he
    exact hmark rfl

/-- The tick of the sale sets the mark. -/
theorem holds_after_exit {price : ℚ} {w' : World} (htick : w.ticked S price = some w')
    (hwritten : w'.writeFailed = false) (hexit : ExitPlaced S w w') : Holds w' w' := by
  have hmarks := tick_marks (S := S) price w rfl
  unfold World.ticked at htick
  cases hrun : tick S price w with
  | error e v =>
      rw [hrun] at htick
      cases htick
  | ok a v =>
      rw [hrun] at hmarks htick
      cases htick
      rcases hmarks hwritten with hplain | ⟨hmark, hsaved⟩
      · exfalso
        rcases hexit with ⟨e, he, hplaces⟩ | ⟨hdry, o, ho, hmore⟩
        · obtain ⟨new, hnew, hfree, -⟩ := hplain.log
          rw [entriesSince_eq hnew] at he
          rw [hfree rfl e he] at hplaces
          cases hplaces
        · exact absurd (hplain.paper rfl hdry o ho) (not_le.mpr hmore)
      · exact ⟨[], rfl, Or.inl ⟨fun e he => (by cases he), hmark, hsaved⟩⟩

/-! ## Closes -/

/-- The re-entry waits for a bounce from the price of the last sale. -/
def State.Armed (s : State) : Prop := ∃ price, s.lastSellPrice = some price ∧
  s.slRebuy = some ⟨price, price⟩

/-- Since `w` only the last entry closes a cycle, and the state is the one of the new cycle. -/
def JustClosed (S : Setup) (w v : World) : Prop :=
  ∃ e older price, v.log = e :: older ++ w.log ∧ e.event.closes = true ∧
    (∀ a ∈ older, a.event.closes = false) ∧ v.s = e.before.nextCycle S.params price

/-- No close since `w`, or just now. -/
def Closing (S : Setup) (w v : World) : Prop := Carries S false false true w v ∨ JustClosed S w v

theorem close_closing (price : State → ℚ) :
    Triple (Carries S false false true w)
      (do mark .closed; update (fun s => s.nextCycle S.params (price s)))
      (fun _ => Closing S w) (fun _ => Carries S false false true w) := by
  intro v hv
  obtain ⟨new, hnew, -, -, hquiet⟩ := hv.log
  refine Or.inr ⟨⟨v.s, .closed⟩, new, price v.s, ?_, rfl, hquiet rfl, rfl⟩
  show _ :: v.log = _
  rw [hnew, List.cons_append]

/-- A program that closes nothing. -/
theorem closing_quiet {x : StratM α} (h : Carrying S false false true x) :
    Triple (Carries S false false true w) x (fun _ => Closing S w)
      (fun _ => Carries S false false true w) :=
  (carrying_triple h).weaken (fun _ _ hv => Or.inl hv)

/-- The same, with a program that follows. -/
theorem closing_bind {x : StratM α} {f : α → StratM β} (hx : Carrying S false false true x)
    (hf : ∀ a, Triple (Carries S false false true w) (f a) (fun _ => Closing S w)
      (fun _ => Carries S false false true w)) :
    Triple (Carries S false false true w) (x >>= f) (fun _ => Closing S w)
      (fun _ => Carries S false false true w) :=
  Triple.bind (carrying_triple hx) hf

theorem closing_state {f : State → StratM β}
    (hf : ∀ s, Triple (Carries S false false true w) (f s) (fun _ => Closing S w)
      (fun _ => Carries S false false true w)) :
    Triple (Carries S false false true w) (state >>= f) (fun _ => Closing S w)
      (fun _ => Carries S false false true w) :=
  state_triple (fun s => (hf s).strengthen (fun _ hv => hv.1))

theorem closeCycle_closing (x : Snapshot) (price : ℚ) :
    Triple (Carries S false false true w) (closeCycle S x price) (fun _ => Closing S w)
      (fun _ => Carries S false false true w) :=
  Triple.ite (close_closing (fun s => (nonzero s.lastSellPrice).getD price))
    (closing_quiet (carrying_pure _))

theorem reconcileReal_closing (hlive : S.dryRun = false) (price : ℚ) :
    Triple (Carries S false false true w) (reconcileReal S price) (fun _ => Closing S w)
      (fun _ => Carries S false false true w) := by
  refine closing_bind (carrying_bind (carrying_ask _) (fun _ => carrying_pure _)) (fun position => ?_)
  split
  · exact closing_quiet (carrying_bind (carrying_ask _) (fun _ => carrying_pure _))
  · refine closing_bind (carrying_ask _) (fun active => ?_)
    refine closing_bind (recoverPendingSubmit_carrying hlive _ _) (fun outcome => ?_)
    refine closing_state (fun s => ?_)
    refine closing_bind (staleSnapshot_carrying _) (fun stale => ?_)
    refine Triple.ite (closing_quiet (carrying_pure _)) ?_
    refine closing_bind (takePosition_carrying hlive _ _) (fun cache => closing_state (fun s => ?_))
    refine closing_bind ?_ (fun _ => closeCycle_closing _ _)
    exact carrying_foldlM (fun cache o => sweepOrder_carrying hlive _ _ cache o) _ _

theorem applyFill_closing (o : Order) (qty price : ℚ) :
    Triple (Carries S false false true w) (applyFill S o qty price) (fun _ => Closing S w)
      (fun _ => Carries S false false true w) := by
  unfold applyFill
  split
  · refine closing_quiet (carrying_bind (carrying_update (fun _ => rfl) (fun _ => rfl)) (fun _ => ?_))
    exact carrying_bind (cancelOpen_carrying _) (fun _ => carrying_pure _)
  · refine closing_bind (carrying_update (fun _ => rfl) (fun _ => rfl)) (fun _ => ?_)
    refine closing_state (fun s => Triple.ite ?_ (closing_quiet (carrying_pure _)))
    exact close_closing (fun _ => price)

/-- After a close no order is left for the rest of the pass. -/
theorem reconcilePaper_closing (price : ℚ) :
    Triple (Closing S w) (reconcilePaper S price) (fun _ => Closing S w)
      (fun _ => Carries S false false true w) := by
  refine Triple.forM (I := fun _ => Closing S w) (fun _ side _ _ => ?_)
  refine state_triple (fun s => Triple.strengthen (P := Closing S w) ?_ (fun _ hv => hv.1))
  refine Triple.forM (I := fun _ => Closing S w) (fun _ o _ _ => ?_)
  refine state_triple (fun s => ?_)
  by_cases ho : o ∉ s.orders
  · rw [if_pos ho]
    exact Triple.pure (fun _ hv => hv.1)
  · rw [if_neg ho]
    refine Triple.strengthen (P := Carries S false false true w) ?_ (fun v hv => ?_)
    · cases side with
      | buy => exact closing_bind (removeOrder_carrying o) (fun _ => applyFill_closing _ _ _)
      | sell =>
          refine Triple.ite (closing_bind (removeOrder_carrying o) (fun _ => ?_))
            (closing_quiet (carrying_pure _))
          exact closing_bind (carrying_update (fun _ => rfl) (fun _ => rfl))
            (fun _ => applyFill_closing _ _ _)
    · obtain ⟨hquiet | ⟨e, older, closePrice, -, -, -, hnext⟩, hs⟩ := hv
      · exact hquiet
      · rw [← hs, hnext] at ho
        exact absurd (fun h => (by cases h)) ho

theorem approach_closing (price : ℚ) :
    Triple (· = w) (approach S price) (fun _ => Closing S w)
      (fun _ => Carries S false false true w) := by
  have hreconcile : Triple (Carries S false false true w) (reconcile S price)
      (fun _ => Closing S w) (fun _ => Carries S false false true w) := by
    unfold reconcile
    by_cases hdry : S.dryRun = true
    · rw [if_pos hdry]
      exact (reconcilePaper_closing price).strengthen (fun _ hv => Or.inl hv)
    · rw [if_neg hdry]
      exact reconcileReal_closing (by simpa using hdry) price
  refine Triple.strengthen (P := Carries S false false true w) ?_ (fun v hv => hv ▸ Carries.refl)
  refine Triple.get (fun v hv => Triple.strengthen (P := Carries S false false true w) ?_
    (fun u hu => hu ▸ hv))
  refine closing_bind (carrying_mark (fun _ => rfl) rfl) (fun _ => ?_)
  exact Triple.ite (closing_bind carrying_save (fun _ => hreconcile)) hreconcile

theorem checkStopLoss_quiet (price : ℚ) : Carrying S false false true (checkStopLoss S price) := by
  refine carrying_state (fun s => carrying_ite (carrying_pure _) ?_)
  cases nonzero s.avgCost with
  | none => exact carrying_pure _
  | some avg =>
      refine carrying_ite (carrying_bind ?_ (fun _ => carrying_pure _)) ?_
      · exact fun v => Carries.changed (fun h => by cases h) (fun h => by cases h)
      · exact carrying_bind (protectiveExit_carrying _ _) (fun _ => carrying_pure _)

/-- `step` closes no cycle. -/
theorem step_quiet (price : ℚ) : Carrying S false false true (step S price) := by
  refine carrying_state (fun s => ?_)
  extract_lets held
  refine carrying_bind (carrying_ask _) (fun t => ?_)
  extract_lets inBackoff
  refine carrying_ite (enter_carrying _ _) ?_
  refine carrying_bind (checkTrailing_carrying price) (fun sold => ?_)
  refine carrying_ite (carrying_pure _) (carrying_bind (checkStopLoss_quiet price) (fun sold => ?_))
  exact carrying_ite (carrying_pure _) (takeProfit_carrying held price inBackoff)

theorem log_suffix {v : World} (h : Carries S free keep quiet w v) : w.log <:+ v.log := by
  obtain ⟨new, hnew, -⟩ := h.log
  exact ⟨new, hnew.symm⟩

/-- Nothing closed since `w`, in a log that goes on from there. -/
def Open (w v : World) : Prop :=
  ∃ new, v.log = new ++ w.log ∧ ∀ e ∈ new, e.event.closes = false

theorem Open.carries {u v : World} (h : Open w u) (hv : Carries S free keep true u v) :
    Open w v := by
  obtain ⟨old, hold, hopen⟩ := h
  obtain ⟨new, hnew, -, -, hquiet⟩ := hv.log
  refine ⟨new ++ old, by rw [hnew, hold, List.append_assoc], fun e he => ?_⟩
  rcases List.mem_append.mp he with he | he
  · exact hquiet rfl e he
  · exact hopen e he

theorem Open.restarted {v : World} (h : Open w v) : Open w v.restarted := by
  obtain ⟨old, hold, hopen⟩ := h
  refine ⟨⟨v.s, .restarted⟩ :: old, by rw [List.cons_append, ← hold]; rfl, fun e he => ?_⟩
  rcases List.mem_cons.mp he with rfl | he
  · rfl
  · exact hopen e he

theorem Open.firstClose {v : World} (h : Open w v) : firstClose w v = none := by
  obtain ⟨new, hnew, hopen⟩ := h
  unfold Trading212.firstClose
  rw [entriesSince_eq hnew, List.find?_eq_none]
  intro e he
  rw [hopen e (List.mem_reverse.mp he)]
  exact Bool.false_ne_true

/-- A log that goes on keeps the first close. -/
theorem firstClose_mono {u v : World} {e : Entry} (hu : w.log <:+ u.log) (hv : u.log <:+ v.log)
    (he : firstClose w u = some e) : firstClose w v = some e := by
  obtain ⟨old, hold⟩ := hu
  obtain ⟨new, hnew⟩ := hv
  unfold Trading212.firstClose at he ⊢
  rw [entriesSince_eq hold.symm] at he
  have hboth : v.log = (new ++ old) ++ w.log := by rw [← hnew, ← hold, List.append_assoc]
  rw [entriesSince_eq hboth, List.reverse_append, List.find?_append, he]
  rfl

/-- The state after the reconciliation of a tick. -/
def World.approached (S : Setup) (w : World) (price : ℚ) : Option World :=
  match approach S price w with
  | .ok _ w' => some w'
  | .error _ _ => none

/-- The world after a result, which the crash of the process restarts. -/
def Result (u v : World) : Prop := v = u ∨ v = u.restarted

theorem result_suffix {u v : World} (h : Result u v) : u.log <:+ v.log := by
  rcases h with rfl | rfl
  · exact List.suffix_rfl
  · exact List.suffix_cons _ _

theorem result_after (r : EStateM.Result Stop World α) {P : World → Prop}
    (h : Post (fun _ => P) (fun _ => P) r) : ∃ u, P u ∧ Result u (World.after r) := by
  cases r with
  | ok a u => exact ⟨u, h, Or.inl rfl⟩
  | error e u =>
      cases e with
      | raised e => exact ⟨u, h, Or.inl rfl⟩
      | crash => exact ⟨u, h, Or.inr rfl⟩

/-- A tick closes nothing, or its reconciliation has just closed the cycle. -/
theorem tick_closes (v : World) (price : ℚ) :
    (∃ u, Carries S false false true v u ∧ Result u (v.act S (.tick price))) ∨
      ∃ closed, v.approached S price = some closed ∧ JustClosed S v closed ∧
        closed.log <:+ (v.act S (.tick price)).log := by
  have happroach := approach_closing (S := S) price v rfl
  have hrest : Carrying S false false true (do step S price; save S) :=
    carrying_bind (step_quiet price) (fun _ => carrying_save)
  have hact : v.act S (.tick price) =
      World.after ((do approach S price; step S price; save S) v) := by
    rw [← tick_eq]
    rfl
  have hbind : (do approach S price; step S price; save S) v =
      EStateM.bind (approach S price) (fun _ => do step S price; save S) v := rfl
  rw [hact, hbind]
  unfold EStateM.bind World.approached
  cases hrun : approach S price v with
  | error e u =>
      rw [hrun] at happroach
      obtain ⟨u', hu', hresult⟩ := result_after (α := Unit) (.error e u) happroach
      exact Or.inl ⟨u', hu', hresult⟩
  | ok a u =>
      rw [hrun] at happroach
      obtain ⟨u', hu', hresult⟩ := result_after _ (hrest u)
      rcases happroach with hquiet | hjust
      · exact Or.inl ⟨u', hquiet.trans hu', hresult⟩
      · exact Or.inr ⟨u, rfl, hjust, (log_suffix hu').trans (result_suffix hresult)⟩

theorem act_suffix (v : World) (a : Action) : v.log <:+ (v.act S a).log := by
  cases a with
  | restart => exact List.suffix_cons _ _
  | tick price =>
      rcases tick_closes (S := S) v price with ⟨u, hu, hresult⟩ | ⟨closed, -, hjust, hsuffix⟩
      · exact (log_suffix hu).trans (result_suffix hresult)
      · obtain ⟨e, older, -, hlog, -⟩ := hjust
        exact List.IsSuffix.trans ⟨e :: older, hlog.symm⟩ hsuffix

theorem run_suffix (v : World) (actions : List Action) : v.log <:+ (v.run S actions).log := by
  induction actions generalizing v with
  | nil => exact List.suffix_rfl
  | cons a rest ih => exact (act_suffix v a).trans (ih (v.act S a))

theorem JustClosed.firstClose {v closed : World} (h : JustClosed S v closed) (hopen : Open w v) :
    ∃ e price, firstClose w closed = some e ∧ closed.s = e.before.nextCycle S.params price := by
  obtain ⟨e, older, price, hlog, hcloses, holder, hnext⟩ := h
  obtain ⟨new, hnew, hquiet⟩ := hopen
  refine ⟨e, price, ?_, hnext⟩
  unfold Trading212.firstClose
  have hentries : closed.log = ([] ++ e :: (older ++ new)) ++ w.log := by
    rw [hlog, hnew]
    simp
  rw [entriesSince_eq hentries]
  refine find_first hcloses (fun a ha => ?_)
  rcases List.mem_append.mp ha with ha | ha
  · exact holder a ha
  · exact hquiet a ha

/-- The first close of a run is the one of a reconciliation. -/
theorem run_closes {v : World} (hopen : Open w v) {actions : List Action} {e : Entry}
    (hclose : firstClose w (v.run S actions) = some e) :
    ∃ before price rest closed closePrice, actions = before ++ .tick price :: rest ∧
      Open w (v.run S before) ∧ (v.run S before).approached S price = some closed ∧
      firstClose w closed = some e ∧ closed.s = e.before.nextCycle S.params closePrice := by
  induction actions generalizing v with
  | nil =>
      rw [show v.run S [] = v from rfl, hopen.firstClose] at hclose
      cases hclose
  | cons a rest ih =>
      have hlater : Open w (v.act S a) → ∃ before price rest' closed closePrice,
          a :: rest = before ++ .tick price :: rest' ∧ Open w (v.run S before) ∧
          (v.run S before).approached S price = some closed ∧
          firstClose w closed = some e ∧ closed.s = e.before.nextCycle S.params closePrice := by
        intro hact
        obtain ⟨before, price, rest', closed, closePrice, hsplit, hrest⟩ := ih hact hclose
        exact ⟨a :: before, price, rest', closed, closePrice, by rw [hsplit, List.cons_append],
          hrest⟩
      cases a with
      | restart => exact hlater hopen.restarted
      | tick price =>
          rcases tick_closes (S := S) v price with ⟨u, hu, hresult⟩ | ⟨closed, hrun, hjust, hsuffix⟩
          · refine hlater ?_
            rcases hresult with heq | heq
            · rw [heq]
              exact hopen.carries hu
            · rw [heq]
              exact (hopen.carries hu).restarted
          · obtain ⟨e', closePrice, hfirst, hnext⟩ := hjust.firstClose hopen
            have hopened : w.log <:+ closed.log := by
              obtain ⟨new, hnew, -⟩ := hopen
              obtain ⟨e, older, -, hlog, -⟩ := hjust
              exact ⟨e :: older ++ new, by rw [hlog, hnew, List.append_assoc]⟩
            have hlast := firstClose_mono hopened
              (hsuffix.trans (run_suffix (S := S) (v.act S (.tick price)) rest)) hfirst
            have heq : some e' = some e := hlast.symm.trans hclose
            cases heq
            exact ⟨[], price, rest, closed, closePrice, rfl, hopen, hrun, hfirst, hnext⟩

/-- One share is bought at 100 and sold by the stop-loss at 79; the SELL stays active for a tick. -/
def exiting : Setup where
  params := { entryAmount := 100, dcaAmount := 100, dcaDropPct := 50, takeprofitPct := 2,
              maxBudget := 1000, maxDcaBuys := 3, enableTakeprofit := false, orderTtlMin := 60,
              stopLossPct := 20, slRebuyEnabled := true }
  ticker := "ACME"
  fxToUsd := 1
  dryRun := false
  venue :=
    { save := fun _ => .stored
      submit := fun n => .ok (.ok (.outcome
        { state := .accepted, orderId := some ("O-" ++ toString n) }))
      orderStatus := fun _ => .ok (.ok boughtOne)
      cancelOrder := fun _ => .ok (.ok ())
      portfolio := fun n => .ok (some (if 8 ≤ n ∧ n < 25 then [⟨"ACME", 1, 100⟩] else []))
      activeOrders := fun n => .ok (some
        (if 20 ≤ n ∧ n < 25 then [⟨some "O-19", "ACME", some .sell, some 1, none⟩] else []))
      trendSlope := fun _ => .ok none
      time := fun _ => .ok 0
      uuid := fun n => "intent-" ++ toString n }

/-- The world before the tick of the sale. -/
def holdingOne : World := World.initial.run exiting [.tick 100, .tick 100]

theorem stays_low : ∃ w', holdingOne.ticked exiting 79 = some w' ∧ w'.writeFailed = false ∧
    (∃ e ∈ entriesSince holdingOne w', e.event.placesExit = true) ∧
    Along (World.act exiting) (fun v a => v.clears exiting a = false) w' [.tick 79, .tick 79] ∧
    (firstClose w' (w'.run exiting [.tick 79, .tick 79])).isSome := by
  decide +kernel

end TradingFleet.Trading212
