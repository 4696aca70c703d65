import TradingFleet.SpotDca.Offers

set_option autoImplicit false

/-! # The take-profit plan of a position without orders

At most the position should be offered for sale, and once all of the planned orders stand the
next tick should leave them alone (`PlanSettles`). The source says why it keeps dust back: more
than the rounded ledger of the venue is refused. Whether it does is decided by the plan alone
(`plan_settles_iff`).
-/

namespace TradingFleet.SpotDca

open TradingFleet.Hoare TradingFleet.Lifecycle
open TradingFleet.Rounding (roundTo)

/-! ## What is expected of the plan -/

/-- The planned orders that passed the checks stand as they were placed, and nothing is filled. -/
structure AllStand (S : Setup) (s s₁ : State) : Prop where
  qty : s₁.qty = s.qty
  cost : s₁.cost = s.cost
  sells : (s₁.orders.filter (fun o => o.side = .sell)).map (fun o => (o.price, o.vol)) =
    takenOrders S s (desiredSells S (s.avg.getD 0) s.qty)
  standing : ∀ o ∈ s₁.orders, o.side = .sell → o.cancelRequested = false

/-- **The plan of a position settles**, live and in paper mode, whatever the venue answers. -/
structure PlanSettles (params : StratParams) (precision : PairPrecision) (s : State) : Prop where
  /-- What is placed is held. -/
  covered : ∀ (S : Setup) (t : ℚ), S.params = params → S.precision = precision →
    Triple (fun w => w.s = s ∧ w.offered = t) (classicTakeProfit S (s.avg.getD 0) s.qty)
      (fun _ w => w.offered ≤ t + s.qty) (fun _ w => w.offered ≤ t + s.qty)
  /-- With all of it accepted, the next tick requests no cancel and no sale. -/
  stable : ∀ (S : Setup) (w w₁ : World), S.params = params → S.precision = precision → w.s = s →
    classicTakeProfit S (s.avg.getD 0) s.qty w = .ok () w₁ → AllStand S s w₁.s →
    ∃ w₂, classicTakeProfit S (w₁.s.avg.getD 0) w₁.s.qty w₁ = .ok () w₂ ∧
      w₂.log = w₁.log ∧ w₂.s.orders = w₁.s.orders

/-- Nothing is placed at all, or everything is: then the volumes at one price are planned from
the smallest on, and what roundings and negative shares add is kept back. -/
def PlanOrderly (S : Setup) (s : State) : Prop :=
  (∀ d ∈ desiredSells S (s.avg.getD 0) s.qty, passes S s d = false) ∨
    (∀ d ∈ desiredSells S (s.avg.getD 0) s.qty, passes S s d = true) ∧
      SmallestFirst S (desiredSells S (s.avg.getD 0) s.qty) ∧ Covered S s.qty

/-! ## The branch of the tick -/

/-- The tick of a held position takes the classic branch. -/
structure ClassicTick (S : Setup) (s : State) (avg : ℚ) (regime : Option RegimeDecision) : Prop where
  enabled : S.params.enableTakeprofit = true
  priced : avg ≠ 0
  notHeld : S.params.tpTrendHold = true → s.trailPeak = none ∧ S.params.tpRegimeGate = true ∧
    regimeMatches regime .bull S.params.tpTrendMinPct S.params.regimeMinSamples = false

theorem takeProfit_classic {S : Setup} {w : World} {avg : ℚ} {regime : Option RegimeDecision}
    (h : ClassicTick S w.s avg regime) (price held : ℚ) (sig : Signals) :
    takeProfit S price avg held regime sig w =
      (do
        classicTakeProfit S avg held
        pure false : DcaM Bool) w := by
  have hold : (S.params.tpTrendHold && (w.s.trailPeak.isSome || !S.params.tpRegimeGate ||
      regimeMatches regime .bull S.params.tpTrendMinPct S.params.regimeMinSamples)) = false := by
    by_cases hh : S.params.tpTrendHold = true
    · obtain ⟨hpeak, hgate, hregime⟩ := h.notHeld hh
      rw [hpeak, hgate, hregime]
      simp
    · simp [hh]
  show (if !S.params.enableTakeprofit || avg = 0 then (pure false : DcaM Bool)
    else if (S.params.tpTrendHold && (w.s.trailPeak.isSome || !S.params.tpRegimeGate ||
      regimeMatches regime .bull S.params.tpTrendMinPct S.params.regimeMinSamples)) then _
    else _) w = _
  rw [if_neg (by simp [h.enabled, h.priced]), hold]
  rfl

/-! ## Paper mode -/

section Paper

variable {S : Setup} {t : ℚ} {s : State}

/-- Paper mode at a fixed time. -/
structure PaperAt (S : Setup) (t : ℚ) : Prop where
  dry : S.dryRun = true
  time : ∀ n, S.venue.time n = .ok t

/-- No refusal of take-profit orders is cooling down. -/
def NotCooling (t : ℚ) (s : State) : Prop :=
  ((placementBackoff s .sell .tp).map Backoff.until_).getD 0 ≤ t

/-- **In paper mode a planned order that passes the checks is placed.** -/
theorem place_paper (hS : PaperAt S t) {w : World} {d : ℚ × ℚ} (havg : w.s.avg = s.avg)
    (hcool : NotCooling t w.s) (hd : roundTo d.1 S.precision.priceDecimals = d.1)
    (h : passes S s d = true) :
    place S (sellOf d) w = .ok true
      (World.paperPlaced { w with calls := w.calls + 2 } ((sellOf d).rounded S) t) := by
  rw [passes_eq havg hd, Bool.and_eq_true, Bool.not_eq_true', Bool.not_eq_true'] at h
  have hwait : ¬ 0 < ((placementBackoff w.s .sell .tp).map Backoff.until_).getD 0 - t := by
    unfold NotCooling at hcool
    linarith
  have hpaper : ∀ w : World, placeRounded S ((sellOf d).rounded S) w = .ok true
      (World.paperPlaced { w with calls := w.calls + 1 } ((sellOf d).rounded S) t) := by
    intro w
    show (if S.dryRun then placePaper S ((sellOf d).rounded S) else _ : DcaM Bool) w = _
    rw [if_pos hS.dry]
    unfold placePaper ask
    simp only [bind, EStateM.bind, hS.time]
    rfl
  show (if tooSmall S ((sellOf d).rounded S).vol then (pure false : DcaM Bool)
    else if belowCost w.s ((sellOf d).rounded S) then pure false
    else if ((sellOf d).rounded S).market then placeRounded S ((sellOf d).rounded S)
    else do
      let waiting ← inBackoff S .sell .tp
      if waiting then pure false else placeRounded S ((sellOf d).rounded S)) w = _
  rw [if_neg (by simp [h.1]), if_neg (by simp [h.2]), if_neg (by simp [sellOf, Instruction.rounded])]
  have hback : inBackoff S .sell .tp w = .ok false { w with calls := w.calls + 1 } := by
    unfold inBackoff ask
    simp only [bind, EStateM.bind, hS.time]
    show EStateM.Result.ok (decide _) _ = _
    rw [decide_eq_false hwait]
    rfl
  simp only [bind, EStateM.bind, hback]
  exact hpaper _

theorem takenOrders_cons (d : ℚ × ℚ) (rest : List (ℚ × ℚ)) :
    takenOrders S s (d :: rest) =
      (if passes S s d then [(d.1, placedVol S d.2)] else []) ++ takenOrders S s rest := by
  unfold takenOrders placedOrders
  cases h : passes S s d with
  | false =>
      rw [List.filter_cons_of_neg (by simp [h])]
      rfl
  | true =>
      rw [List.filter_cons_of_pos h]
      rfl

theorem placeSells_cons (d : ℚ × ℚ) (rest : List (ℚ × ℚ)) {w w' : World} {done : Bool}
    (h : place S (sellOf d) w = .ok done w') :
    placeSells S (d :: rest) w = placeSells S rest w' := by
  have hplace : place S { side := .sell, vol := d.2, price := d.1, kind := .tp } w = .ok done w' := h
  unfold placeSells
  rw [List.foldlM_cons]
  simp only [bind, EStateM.bind, hplace]
  rfl

/-- The orders a paper placement leaves, and what it offers. -/
structure PaperPlaced (S : Setup) (s : State) (desired : List (ℚ × ℚ)) (w w' : World)
    (new : List Order) : Prop where
  state : w'.s = { w.s with orders := w.s.orders ++ new }
  orders : new.map (fun o => (o.price, o.vol)) = takenOrders S s desired
  sells : ∀ o ∈ new, o.side = .sell ∧ o.cancelRequested = false
  offered : w'.offered = w.offered + takenVol S s desired

/-- **In paper mode exactly the planned orders that pass the checks are placed.** -/
theorem placeSells_paper (hS : PaperAt S t) (desired : List (ℚ × ℚ)) {w : World}
    (havg : w.s.avg = s.avg) (hcool : NotCooling t w.s)
    (hprices : ∀ d ∈ desired, roundTo d.1 S.precision.priceDecimals = d.1) :
    ∃ w' new, placeSells S desired w = .ok () w' ∧ PaperPlaced S s desired w w' new := by
  induction desired generalizing w with
  | nil =>
      refine ⟨w, [], rfl, ?_, rfl, by simp, ?_⟩
      · simp
      · have hnil : takenVol S s [] = 0 := rfl
        rw [hnil, add_zero]
  | cons d rest ih =>
      have hd := hprices d List.mem_cons_self
      have hrest : ∀ d' ∈ rest, roundTo d'.1 S.precision.priceDecimals = d'.1 :=
        fun d' hd' => hprices d' (List.mem_cons_of_mem _ hd')
      cases hpass : passes S s d with
      | false =>
          obtain ⟨w', new, hrun, hplaced⟩ := ih havg hcool hrest
          have hsame : takenOrders S s (d :: rest) = takenOrders S s rest := by
            rw [takenOrders_cons, hpass]
            rfl
          refine ⟨w', new, ?_, hplaced.state, ?_, hplaced.sells, ?_⟩
          · have hrefused : place S (sellOf d) w = .ok false w := place_refused havg hd hpass
            rw [placeSells_cons d rest hrefused]
            exact hrun
          · rw [hsame]
            exact hplaced.orders
          · unfold takenVol
            rw [hsame]
            exact hplaced.offered
      | true =>
          -- the order is taken, and the rest starts from the book with it
          have hfirst := place_paper hS havg hcool hd hpass
          set i := (sellOf d).rounded S
          set w₁ := World.paperPlaced { w with calls := w.calls + 2 } i t with hw₁
          obtain ⟨w', new, hrun, hplaced⟩ := @ih w₁ havg hcool hrest
          have hcons : takenOrders S s (d :: rest) =
              (d.1, placedVol S d.2) :: takenOrders S s rest := by
            rw [takenOrders_cons, hpass]
            rfl
          have hoffered : w₁.offered = placedVol S d.2 + w.offered := by
            have hlog : w₁.log =
                ⟨w.s, w.saved, .placed (paperOrder i (w.paperSeq + 1) t)⟩ :: w.log := rfl
            exact offered_cons hlog
          refine ⟨w', paperOrder i (w.paperSeq + 1) t :: new, ?_, ?_, ?_, ?_, ?_⟩
          · rw [placeSells_cons d rest hfirst]
            exact hrun
          · rw [hplaced.state, hw₁]
            simp [World.paperPlaced]
          · rw [List.map_cons, hplaced.orders, hcons]
            have hprice : i.price = d.1 := hd
            show (i.price, i.vol) :: _ = _
            rw [hprice]
            rfl
          · intro o ho
            rcases List.mem_cons.mp ho with rfl | ho
            · exact ⟨rfl, rfl⟩
            · exact hplaced.sells o ho
          · have hsum : takenVol S s (d :: rest) = placedVol S d.2 + takenVol S s rest := by
              unfold takenVol
              rw [hcons, List.map_cons, List.sum_cons]
            rw [hplaced.offered, hoffered, hsum]
            ring

/-- Paper orders are gone as soon as they are cancelled. -/
theorem cancelOrders_paper (hdry : S.dryRun = true) {w : World}
    (hsells : ∀ o ∈ w.s.orders, o.side = .sell) :
    ∃ done, cancelOrders S (some .sell) false w =
      .ok done { w with s := { w.s with orders := [] } } := by
  have hloop : ∀ (l : List Order) (w : World) (ok : Bool), ∃ done,
      (l.foldlM (fun ok o => do
        let done ← cancelOrder S o
        pure (done && ok)) ok : DcaM Bool) w =
        .ok done { w with s := { w.s with orders := w.s.orders.diff l } } := by
    intro l
    induction l with
    | nil => exact fun w ok => ⟨ok, rfl⟩
    | cons o rest ih =>
        intro w ok
        obtain ⟨done, hdone⟩ := ih { w with s := w.s.remove o } (true && ok)
        refine ⟨done, ?_⟩
        have hone : cancelOrder S o w = .ok true { w with s := w.s.remove o } := by
          unfold cancelOrder
          rw [if_pos (by simp [hdry])]
          rfl
        rw [List.foldlM_cons]
        simp only [bind, EStateM.bind, hone]
        refine hdone.trans ?_
        rw [List.diff_cons]
        rfl
  have hfilter : w.s.orders.filter (fun o => decide (o.side = .sell) && !(false && o.market)) =
      w.s.orders := by
    refine List.filter_eq_self.mpr (fun o ho => ?_)
    simp [hsells o ho]
  obtain ⟨done, hdone⟩ := hloop w.s.orders w true
  refine ⟨done, ?_⟩
  have hself : ∀ l : List Order, l.diff l = [] := by
    intro l
    induction l with
    | nil => rfl
    | cons o rest ih => rw [List.diff_cons, List.erase_cons_head, ih]
  rw [hself] at hdone
  unfold cancelOrders
  show (List.foldlM _ true (w.s.orders.filter (fun o =>
    decide (o.side = .sell) && !(false && o.market))) : DcaM Bool) w = _
  rw [hfilter]
  exact hdone

end Paper

/-! ## Two ticks -/

section Ticks

variable {S : Setup} {t : ℚ} {s : State} {w : World}

/-- The state a take-profit tick starts with: the trail is off. -/
def State.trailOff (s : State) : State := { s with trailPeak := none, trailStop := none }

/-- Without SELL orders there is nothing to cancel. -/
theorem cancelOrders_none (h : ∀ o ∈ w.s.orders, o.side ≠ .sell) :
    cancelOrders S (some .sell) false w = .ok true w := by
  have hfilter : w.s.orders.filter (fun o => decide (o.side = .sell) && !(false && o.market)) =
      [] := by
    refine List.filter_eq_nil_iff.mpr (fun o ho => ?_)
    simp [h o ho]
  unfold cancelOrders
  show (List.foldlM _ true (w.s.orders.filter (fun o =>
    decide (o.side = .sell) && !(false && o.market))) : DcaM Bool) w = _
  rw [hfilter]
  rfl

theorem hasOpen_sell_false (h : ∀ o ∈ w.s.orders, o.side ≠ .sell) : w.s.hasOpen .sell = false := by
  unfold State.hasOpen
  rw [List.any_eq_false]
  intro o ho
  simp [h o ho]

/-- The tick leaves matching orders alone. -/
theorem classicTakeProfit_matching {avg held : ℚ}
    (h : sellsMatch (w.s.orders.filter (fun o => o.side = .sell)) (desiredSells S avg held) = true) :
    classicTakeProfit S avg held w = .ok () { w with s := w.s.trailOff } := by
  show (if sellsMatch (w.s.orders.filter (fun o => o.side = .sell)) (desiredSells S avg held)
    then pure () else _ : DcaM Unit) { w with s := w.s.trailOff } = _
  rw [if_pos h]
  rfl

/-- Without SELL orders the tick places the planned ones. -/
theorem classicTakeProfit_placing {avg held : ℚ} (h : ∀ o ∈ w.s.orders, o.side ≠ .sell)
    (hmatch : sellsMatch (w.s.orders.filter (fun o => o.side = .sell)) (desiredSells S avg held) =
      false) :
    classicTakeProfit S avg held w =
      placeSells S (desiredSells S avg held) { w with s := w.s.trailOff } := by
  show (if sellsMatch (w.s.orders.filter (fun o => o.side = .sell)) (desiredSells S avg held)
    then pure () else do
      let _ ← cancelOrders S (some .sell) false
      let s ← state
      if s.hasOpen .sell then pure () else placeSells S (desiredSells S avg held) : DcaM Unit)
    { w with s := w.s.trailOff } = _
  have hcancel := cancelOrders_none (S := S) (w := { w with s := w.s.trailOff }) h
  have hopen := hasOpen_sell_false (w := { w with s := w.s.trailOff }) h
  rw [if_neg (by simp [hmatch])]
  simp only [bind, EStateM.bind, hcancel]
  show (if ({ w with s := w.s.trailOff } : World).s.hasOpen .sell then pure () else _ : DcaM Unit) _ = _
  rw [if_neg (by simp [hopen])]

/-- Planned orders that are all refused leave no trace. -/
theorem placeSells_refused {desired : List (ℚ × ℚ)} (havg : w.s.avg = s.avg)
    (hprices : ∀ d ∈ desired, roundTo d.1 S.precision.priceDecimals = d.1)
    (h : ∀ d ∈ desired, passes S s d = false) : placeSells S desired w = .ok () w := by
  induction desired with
  | nil => rfl
  | cons d rest ih =>
      have hrefused : place S (sellOf d) w = .ok false w :=
        place_refused havg (hprices d List.mem_cons_self) (h d List.mem_cons_self)
      rw [placeSells_cons d rest hrefused]
      exact ih (fun d' hd' => hprices d' (List.mem_cons_of_mem _ hd'))
        (fun d' hd' => h d' (List.mem_cons_of_mem _ hd'))

/-- **In paper mode the first tick places what the checks take, and all of it stands.** -/
theorem classicTakeProfit_paper (hS : PaperAt S t) (hcool : NotCooling t w.s)
    (hnone : w.s.orders = []) :
    ∃ w₁, classicTakeProfit S (w.s.avg.getD 0) w.s.qty w = .ok () w₁ ∧ AllStand S w.s w₁.s ∧
      NotCooling t w₁.s ∧ (∀ o ∈ w₁.s.orders, o.side = .sell) ∧
      w₁.offered = w.offered + takenVol S w.s (desiredSells S (w.s.avg.getD 0) w.s.qty) := by
  set desired := desiredSells S (w.s.avg.getD 0) w.s.qty with hdesired
  have hno : ∀ o ∈ w.s.orders, o.side ≠ .sell := by
    rw [hnone]
    simp
  cases hmatch : sellsMatch (w.s.orders.filter (fun o => o.side = .sell)) desired with
  | true =>
      -- nothing is planned
      have hnil : desired = [] := by
        rw [hnone] at hmatch
        unfold sellsMatch at hmatch
        simp only [List.filter_nil, Bool.and_eq_true] at hmatch
        have hlength : [].length = desired.length := of_decide_eq_true hmatch.1.1
        exact List.eq_nil_of_length_eq_zero hlength.symm
      have hempty : takenOrders S w.s desired = [] := by
        rw [hnil]
        rfl
      refine ⟨_, classicTakeProfit_matching hmatch, ⟨rfl, rfl, ?_, ?_⟩, hcool, ?_, ?_⟩
      · show (w.s.orders.filter _).map _ = takenOrders S w.s desired
        rw [hnone, hempty]
        rfl
      · intro o ho
        have ho' : o ∈ w.s.orders := ho
        rw [hnone] at ho'
        cases ho'
      · intro o ho
        have ho' : o ∈ w.s.orders := ho
        rw [hnone] at ho'
        cases ho'
      · unfold takenVol
        rw [hempty]
        exact (add_zero _).symm
  | false =>
      obtain ⟨w₁, new, hrun, hplaced⟩ := @placeSells_paper S t w.s hS desired
        { w with s := w.s.trailOff } rfl hcool (fun d hd => desiredSells_price hd)
      have horders : w₁.s.orders = new := by
        rw [hplaced.state]
        show w.s.orders ++ new = new
        rw [hnone]
        rfl
      have hsells : ∀ o ∈ w₁.s.orders, o.side = .sell := by
        rw [horders]
        exact fun o ho => (hplaced.sells o ho).1
      refine ⟨w₁, ?_, ⟨?_, ?_, ?_, ?_⟩, ?_, hsells, hplaced.offered⟩
      · rw [classicTakeProfit_placing hno hmatch]
        exact hrun
      · rw [hplaced.state]
        rfl
      · rw [hplaced.state]
        rfl
      · rw [List.filter_eq_self.mpr (fun o ho => by simp [hsells o ho]), horders]
        exact hplaced.orders
      · rw [horders]
        exact fun o ho _ => (hplaced.sells o ho).2
      · rw [hplaced.state]
        exact hcool

theorem AllStand.avg {s₁ : State} (h : AllStand S s s₁) : s₁.avg = s.avg := by
  unfold State.avg
  rw [h.qty, h.cost]

theorem AllStand.matches {s₁ : State} (h : AllStand S s s₁) :
    sellsMatch (s₁.orders.filter (fun o => o.side = .sell))
        (desiredSells S (s₁.avg.getD 0) s₁.qty) = true ↔
      (∀ d ∈ desiredSells S (s.avg.getD 0) s.qty, passes S s d = true) ∧
        SmallestFirst S (desiredSells S (s.avg.getD 0) s.qty) := by
  rw [h.avg, h.qty]
  refine sellsMatch_iff h.sells (fun o ho => ?_)
  obtain ⟨ho, hside⟩ := List.mem_filter.mp ho
  exact h.standing o ho (of_decide_eq_true hside)

/-- **An orderly plan is left alone.** -/
theorem classicTakeProfit_quiet (h : AllStand S s w.s) (ho : PlanOrderly S s) :
    classicTakeProfit S (w.s.avg.getD 0) w.s.qty w = .ok () { w with s := w.s.trailOff } := by
  cases hmatch : sellsMatch (w.s.orders.filter (fun o => o.side = .sell))
      (desiredSells S (w.s.avg.getD 0) w.s.qty) with
  | true => exact classicTakeProfit_matching hmatch
  | false =>
      have hrefused : ∀ d ∈ desiredSells S (s.avg.getD 0) s.qty, passes S s d = false := by
        rcases ho with hnone | ⟨hall, hfirst, -⟩
        · exact hnone
        · rw [h.matches.mpr ⟨hall, hfirst⟩] at hmatch
          cases hmatch
      have hno : ∀ o ∈ w.s.orders, o.side ≠ .sell := by
        have hsells := h.sells
        rw [takenOrders_eq_nil.mpr hrefused, List.map_eq_nil_iff, List.filter_eq_nil_iff] at hsells
        intro o ho hside
        exact hsells o ho (decide_eq_true hside)
      rw [classicTakeProfit_placing hno hmatch, h.avg, h.qty]
      exact placeSells_refused h.avg (fun d hd => desiredSells_price hd) hrefused

/-- **A plan that is not recognised is cancelled and placed again**, in paper mode. -/
theorem classicTakeProfit_again (hS : PaperAt S t) (h : AllStand S s w.s) (hcool : NotCooling t w.s)
    (hsells : ∀ o ∈ w.s.orders, o.side = .sell)
    (hmatch : sellsMatch (w.s.orders.filter (fun o => o.side = .sell))
      (desiredSells S (w.s.avg.getD 0) w.s.qty) = false) :
    ∃ w₂, classicTakeProfit S (w.s.avg.getD 0) w.s.qty w = .ok () w₂ ∧
      w₂.offered = w.offered + takenVol S s (desiredSells S (s.avg.getD 0) s.qty) := by
  obtain ⟨done, hcancel⟩ := cancelOrders_paper (w := { w with s := w.s.trailOff }) hS.dry hsells
  obtain ⟨w₂, new, hrun, hplaced⟩ := @placeSells_paper S t s hS (desiredSells S (s.avg.getD 0) s.qty)
    { w with s := { w.s.trailOff with orders := [] } } h.avg hcool
    (fun d hd => desiredSells_price hd)
  refine ⟨w₂, ?_, hplaced.offered⟩
  rw [← hrun, ← h.avg, ← h.qty]
  show (if sellsMatch (w.s.orders.filter (fun o => o.side = .sell))
      (desiredSells S (w.s.avg.getD 0) w.s.qty) then pure () else do
      let _ ← cancelOrders S (some .sell) false
      let s ← state
      if s.hasOpen .sell then pure ()
      else placeSells S (desiredSells S (w.s.avg.getD 0) w.s.qty) : DcaM Unit)
    { w with s := w.s.trailOff } = _
  rw [if_neg (by simp [hmatch])]
  simp only [bind, EStateM.bind, hcancel]
  rfl

end Ticks

/-! ## The exact condition -/

section Settling

variable {S : Setup} {s : State}

section Congruence

variable {S' : Setup} (hparams : S'.params = S.params) (hprecision : S'.precision = S.precision)

include hprecision

theorem placedVol_congr : placedVol S' = placedVol S := by
  funext x
  unfold placedVol
  rw [hprecision]

theorem partQty_congr : partQty S' = partQty S := by
  funext held share
  unfold partQty
  rw [placedVol_congr hprecision]

theorem leftQty_congr : leftQty S' = leftQty S := by
  funext held share rem
  unfold leftQty
  rw [placedVol_congr hprecision, partQty_congr hprecision]

theorem trancheQtys_congr (held : ℚ) (ts : List (ℚ × ℚ)) (rem : ℚ) :
    trancheQtys S' held ts rem = trancheQtys S held ts rem := by
  induction ts generalizing rem with
  | nil => rfl
  | cons t rest ih =>
      cases rest with
      | nil =>
          show [(t.1, S'.precision.dustSafeQty rem)] = [(t.1, S.precision.dustSafeQty rem)]
          rw [hprecision]
      | cons t' rest =>
          show (t.1, min rem (partQty S' held t.2)) :: trancheQtys S' held (t' :: rest)
              (leftQty S' held t.2 rem) =
            (t.1, min rem (partQty S held t.2)) :: trancheQtys S held (t' :: rest)
              (leftQty S held t.2 rem)
          rw [partQty_congr hprecision, leftQty_congr hprecision, ih]

theorem lastLeft_congr (held : ℚ) (ts : List (ℚ × ℚ)) (rem : ℚ) :
    lastLeft S' held ts rem = lastLeft S held ts rem := by
  induction ts generalizing rem with
  | nil => rfl
  | cons t rest ih =>
      cases rest with
      | nil => rfl
      | cons t' rest =>
          show lastLeft S' held (t' :: rest) (leftQty S' held t.2 rem) =
            lastLeft S held (t' :: rest) (leftQty S held t.2 rem)
          rw [leftQty_congr hprecision, ih]

theorem added_congr (held : ℚ) (ts : List (ℚ × ℚ)) (rem : ℚ) :
    added S' held ts rem = added S held ts rem := by
  have hgain : roundingGain S' = roundingGain S := by
    funext held share rem
    unfold roundingGain
    rw [placedVol_congr hprecision, partQty_congr hprecision, leftQty_congr hprecision]
  have hback : givenBack S' = givenBack S := by
    funext held share rem
    unfold givenBack
    rw [placedVol_congr hprecision, partQty_congr hprecision]
  induction ts generalizing rem with
  | nil => rfl
  | cons t rest ih =>
      cases rest with
      | nil => rfl
      | cons t' rest =>
          show roundingGain S' held t.2 rem + givenBack S' held t.2 rem +
              added S' held (t' :: rest) (leftQty S' held t.2 rem) =
            roundingGain S held t.2 rem + givenBack S held t.2 rem +
              added S held (t' :: rest) (leftQty S held t.2 rem)
          rw [hgain, hback, leftQty_congr hprecision, ih]

include hparams

/-- The plan depends on the parameters and the precision only. -/
theorem desiredSells_congr (avg held : ℚ) : desiredSells S' avg held = desiredSells S avg held := by
  unfold desiredSells
  simp only [trancheQtys_congr hprecision, hparams, hprecision]

theorem covered_congr (held : ℚ) : Covered S' held ↔ Covered S held := by
  have htranches : tranches S' = tranches S := by
    unfold tranches
    rw [hparams]
  unfold Covered wholeAtOnce
  rw [htranches, trancheQtys_congr hprecision, lastLeft_congr hprecision,
    added_congr hprecision, placedVol_congr hprecision, hprecision]

theorem planOrderly_congr : PlanOrderly S' s ↔ PlanOrderly S s := by
  have hplan := desiredSells_congr hparams hprecision (s.avg.getD 0) s.qty
  have hpasses : passes S' s = passes S s := by
    funext d
    unfold passes tooSmall
    rw [placedVol_congr hprecision, hprecision]
  unfold PlanOrderly SmallestFirst placedOrders
  rw [hplan, hpasses, covered_congr hparams hprecision, placedVol_congr hprecision]

end Congruence

/-- What is taken of an orderly plan is at most the position. -/
theorem PlanOrderly.takenVol_le (h : PlanOrderly S s) (hheld : 0 ≤ s.qty) :
    takenVol S s (desiredSells S (s.avg.getD 0) s.qty) ≤ s.qty := by
  unfold takenVol
  rcases h with hnone | ⟨hall, -, hcovered⟩
  · rw [takenOrders_eq_nil.mpr hnone]
    exact hheld
  · rw [takenOrders_eq hall]
    exact (covered_iff (s.avg.getD 0) s.qty).mpr hcovered

/-- An orderly plan settles. -/
theorem PlanOrderly.settles (h : PlanOrderly S s) (hheld : 0 ≤ s.qty) :
    PlanSettles S.params S.precision s where
  covered := by
    intro S' t hparams hprecision
    have horderly : PlanOrderly S' s := (planOrderly_congr hparams hprecision).mpr h
    have hle := horderly.takenVol_le hheld
    refine (classicTakeProfit_offers (S := S') (s := s) (t := t) _ _).conseq ?_ ?_ ?_
    · rintro w ⟨rfl, rfl⟩
      exact ⟨rfl, rfl, le_refl _⟩
    · exact fun _ w hw => hw.offered.trans (by linarith)
    · exact fun _ w hw => hw.offered.trans (by linarith)
  stable := by
    intro S' w w₁ hparams hprecision hw hrun hstand
    have horderly : PlanOrderly S' s := (planOrderly_congr hparams hprecision).mpr h
    exact ⟨_, classicTakeProfit_quiet hstand horderly, rfl, rfl⟩

/-- A plan that settles in paper mode is orderly. -/
theorem PlanSettles.orderly_paper (h : PlanSettles S.params S.precision s)
    (hnone : s.orders = []) {t : ℚ} (hS : PaperAt S t) (hcool₀ : NotCooling t s) :
    PlanOrderly S s := by
  obtain ⟨w₁, hrun, hstand, hcool, hsells, hoffered⟩ :=
    classicTakeProfit_paper (w := { s := s }) hS hcool₀ hnone
  obtain ⟨w₂, hagain, hlog, -⟩ := h.stable S { s := s } w₁ rfl rfl rfl hrun hstand
  have hcovered := h.covered S _ rfl rfl { s := s } ⟨rfl, rfl⟩
  rw [hrun] at hcovered
  have hle : takenVol S s (desiredSells S (s.avg.getD 0) s.qty) ≤ s.qty := by
    have hsum : w₁.offered ≤ ({ s := s } : World).offered + s.qty := hcovered
    rw [hoffered] at hsum
    exact le_of_add_le_add_left hsum
  by_cases hnothing : ∀ d ∈ desiredSells S (s.avg.getD 0) s.qty, passes S s d = false
  · exact Or.inl hnothing
  · refine Or.inr ?_
    have htaken : 0 < takenVol S s (desiredSells S (s.avg.getD 0) s.qty) :=
      takenVol_pos (fun hnil => hnothing (takenOrders_eq_nil.mp hnil))
    cases hmatch : sellsMatch (w₁.s.orders.filter (fun o => o.side = .sell))
        (desiredSells S (w₁.s.avg.getD 0) w₁.s.qty) with
    | false =>
        -- everything is offered a second time
        obtain ⟨w₂', hrun', hoffered'⟩ := classicTakeProfit_again hS hstand hcool hsells hmatch
        rw [hagain] at hrun'
        cases hrun'
        have hsame : w₂.offered = w₁.offered := by
          unfold World.offered
          rw [hlog]
        rw [hsame] at hoffered'
        have hzero : takenVol S s (desiredSells S (s.avg.getD 0) s.qty) = 0 :=
          left_eq_add.mp hoffered'
        exact absurd hzero htaken.ne'
    | true =>
        obtain ⟨hall, hfirst⟩ := hstand.matches.mp hmatch
        refine ⟨hall, hfirst, ?_⟩
        unfold takenVol at hle
        rw [takenOrders_eq hall] at hle
        exact (covered_iff (s.avg.getD 0) s.qty).mp hle

/-- Paper mode, after every backoff of the state. -/
def paperSetup (S : Setup) (s : State) : Setup :=
  { S with
    dryRun := true
    venue := { S.venue with
      time := fun _ => .ok (((placementBackoff s .sell .tp).map Backoff.until_).getD 0) } }

/-- A plan that settles is orderly. -/
theorem PlanSettles.orderly (h : PlanSettles S.params S.precision s) (hnone : s.orders = []) :
    PlanOrderly S s := by
  have hparams : (paperSetup S s).params = S.params := rfl
  have hprecision : (paperSetup S s).precision = S.precision := rfl
  have hpaper : PlanSettles (paperSetup S s).params (paperSetup S s).precision s := h
  refine (planOrderly_congr hparams hprecision).mp
    (hpaper.orderly_paper hnone ⟨rfl, fun _ => rfl⟩ ?_)
  exact le_refl (((placementBackoff s .sell .tp).map Backoff.until_).getD 0)

end Settling

/-! ## Four positions -/

/-- These tranches, at two volume decimals. -/
def tranchedSetup (priceDecimals : Nat) (orderMin : ℚ) (horder : 0 ≤ orderMin)
    (ts : List (ℚ × ℚ)) : Setup :=
  { sampleSetup sampleVenue with
    params := { sampleParams with tpTranches := ts }
    precision := ⟨priceDecimals, 2, orderMin, horder⟩ }

/-- A position without orders. -/
def heldAt (qty cost : ℚ) : State := { newState with qty := qty, cost := cost }

/-- In doubles 1% above 0.5 is more than 0.505 and rounds up to 0.51, the price at 2%. -/
example : ¬ PlanOrderly (tranchedSetup 2 0 (le_refl 0) [(1, 60), (2, 40)]) (heldAt 100 50) := by
  unfold PlanOrderly SmallestFirst
  decide +kernel

/-- The whole position as one order is rounded: of 5.658 with a minimum order of 5, 5.66 is
offered. -/
example : ¬ PlanOrderly (tranchedSetup 2 5 (by norm_num) [(3, 50), (6, 50)])
    (heldAt (5658 / 1000) 566) := by
  unfold PlanOrderly SmallestFirst
  decide +kernel

end TradingFleet.SpotDca
