import TradingFleet.Monitor.Types

set_option autoImplicit false

/-! # One evaluation of the monitor

The rules of `monitor_price_and_trade`, in the order of the source: the hard take-profit, the sale
at a gain or a loss, and the BUY after a sale. After an accepted hard take-profit the call
returns, since its balance is stale. The other two rules know nothing of each other: each reads
the trend anew, and when it turns upwards between the two readings, the call sells and buys
(`trades_once_iff`).
-/

namespace TradingFleet.Monitor

open Pair (Side)
open Rounding (roundTo)
open TradingFleet.SpotDca (areClose)

/-! ## The orders of the rules -/

namespace Evaluation

variable (E : Evaluation) (f : Facts)

/-- A relative change that reached its threshold, or is close to it. -/
def beyond (change threshold : ℚ) : Bool :=
  threshold < change || areClose change threshold E.settings.areCloseTolerancePct

def priceIncrease (buyPrice : ℚ) : ℚ := (f.currentPrice - buyPrice) / buyPrice

def priceDecrease (buyPrice : ℚ) : ℚ := (buyPrice - f.currentPrice) / buyPrice

def priceDecreaseVersusSell (sellPrice : ℚ) : ℚ := (sellPrice - f.currentPrice) / sellPrice

def hardTpHit (increase : ℚ) : Bool :=
  E.hardTpPct ≤ increase || areClose increase E.hardTpPct E.settings.areCloseTolerancePct

def hardTpConfigValid : Bool :=
  0 < E.hardTpFrac && E.hardTpFrac ≤ 1 && 0 < E.hardTpPct && 0 ≤ E.hardTpCd

def cooledDown : Bool :=
  E.hardTpCd ≤ ((f.currentTimeS - (E.hardTpLast E.symbol).getD 0 : ℤ) : ℚ)

def hardOrder : Placement where
  side := .sell
  price := f.currentPrice
  qty := roundTo (f.sellableQty * E.hardTpFrac) 4
  safebackSeconds := E.sbs
  hours := E.settings.sellSafebackHours
  force := true

/-- The sale of everything, at a gain or at a loss. -/
def saleOrder (atLoss : Bool) : Placement where
  side := .sell
  price := f.currentPrice
  qty := f.sellableQty
  safebackSeconds := E.sbs
  hours := E.settings.sellSafebackHours
  bypassProfitGuard := atLoss

def buyQty : ℚ :=
  roundTo
    (if orNumber E.params.buyBudget 0 = 0 then orNumber E.params.buyQty 1
      else orNumber E.params.buyBudget 0 / f.currentPrice) 6

def buyOrder : Placement where
  side := .buy
  price := f.currentPrice + E.settings.buyPriceOffset
  qty := E.buyQty f
  safebackSeconds := E.sbs
  hours := E.settings.buySafebackHours

/-- The cap on the exposure after the BUY. -/
def overBudget : Bool :=
  let cap := orNumber E.params.maxBudget 0
  cap ≠ 0 && cap < f.availQty * f.currentPrice + E.buyQty f * f.currentPrice

/-- What `_place_guarded` lets through. -/
def admitted (p : Placement) : Bool :=
  0 < p.qty && 0 < p.price && (E.minQty = 0 || E.minQty ≤ p.qty)

end Evaluation

/-! ## The rules -/

/-- What a call did so far. -/
structure Trace where
  trendReads : ℕ := 0
  placed : List Placement := []
  hardTpLast : String → Option ℤ

/-- `inst.place` may raise. -/
abbrev EvalM := EStateM Unit Trace

namespace Evaluation

variable (E : Evaluation) (f : Facts)

def readTrend : EvalM Bool := fun t =>
  .ok (isTrendUp (E.trend t.trendReads)) { t with trendReads := t.trendReads + 1 }

/-- `inst.place`: whether it returned a payload. -/
def submit (p : Placement) : EvalM Bool := fun t =>
  match E.place t.placed.length p with
  | .payload => .ok true { t with placed := t.placed ++ [p] }
  | .nothing => .ok false { t with placed := t.placed ++ [p] }
  | .raised => .error () { t with placed := t.placed ++ [p] }

/-- `_place_guarded`: whether an order was submitted. -/
def placeGuarded (p : Placement) : EvalM Bool :=
  if E.admitted p then E.submit p else pure false

/-- 3.0, the hard take-profit: whether the call returns after it. -/
def hardTakeProfit (buyPrice : ℚ) : EvalM Bool :=
  if E.settings.hardTpEnabled && E.hardTpHit (priceIncrease f buyPrice) && 0 < f.sellableQty &&
      E.hardTpConfigValid then
    if E.cooledDown f then do
      let submitted ← E.placeGuarded (E.hardOrder f)
      if submitted then
        modify (fun t =>
          { t with hardTpLast := Function.update t.hardTpLast E.symbol (some f.currentTimeS) })
        pure true
      else pure false
    else pure false
  else pure false

/-- A sale at a gain or at a loss, unless the trend is up. -/
def sellUnlessUp (atLoss : Bool) : EvalM Unit := do
  let up ← E.readTrend
  if !up && f.canSell && 0 < f.sellableQty then discard (E.placeGuarded (E.saleOrder f atLoss))
  else pure ()

/-- 3.1, the sale. -/
def profitOrLoss (buyPrice : ℚ) : EvalM Unit :=
  if E.beyond (priceIncrease f buyPrice) E.gainThreshold then E.sellUnlessUp f false
  else if E.beyond (priceDecrease f buyPrice) E.lostThreshold then E.sellUnlessUp f true
  else pure ()

/-- 3, the BUY history: whether the call returns after it. -/
def buyHistory : EvalM Bool :=
  if f.hasBuys then
    match f.buyPrice with
    | none => pure true
    | some buyPrice =>
        if buyPrice = 0 then pure true
        else do
          let sold ← E.hardTakeProfit f buyPrice
          if sold then pure true
          else do
            E.profitOrLoss f buyPrice
            pure false
  else pure false

/-- 4, the SELL history. -/
def sellHistory : EvalM Unit :=
  if f.hasSells then
    match f.sellPrice with
    | none => pure ()
    | some sellPrice =>
        if sellPrice = 0 then pure ()
        else if E.beyond (priceDecreaseVersusSell f sellPrice) E.gainThreshold then do
          let up ← E.readTrend
          if up && f.canBuy && !E.overBudget f then discard (E.placeGuarded (E.buyOrder f))
          else pure ()
        else pure ()
  else pure ()

/-- `monitor_price_and_trade`. -/
def monitorPriceAndTrade : EvalM Unit :=
  match E.facts with
  | none => pure ()
  | some f => do
      let returned ← E.buyHistory f
      if returned then pure ()
      else E.sellHistory f

/-- The orders that were placed when the call ended, in whichever way. -/
def placed : List Placement :=
  match E.monitorPriceAndTrade { hardTpLast := E.hardTpLast } with
  | .ok _ t => t.placed
  | .error _ t => t.placed

/-- At most one order is placed, on one side, and what is sold is free and was bought. -/
structure TradesOnce : Prop where
  once : E.placed.length ≤ 1
  oneSide : ¬ ((∃ p ∈ E.placed, p.side = .sell) ∧ ∃ p ∈ E.placed, p.side = .buy)
  covered : ∀ p ∈ E.placed, p.side = .sell → ∃ availQty, E.free = some (.finite availQty) ∧
    0 < p.qty ∧ p.qty ≤ E.sellableQty availQty ∧
      (E.isolation = "own_ledger" → p.qty ≤ availQty ∧ p.qty ≤ E.netQty)

/-! ## When a rule places an order -/

/-- The reference of the BUY history, where it has one. -/
def buyBase : Option ℚ := if f.hasBuys then f.buyPrice.filter (· ≠ 0) else none

def sellBase : Option ℚ := if f.hasSells then f.sellPrice.filter (· ≠ 0) else none

def hardDue : Bool :=
  (buyBase f).any (fun buyPrice =>
    E.settings.hardTpEnabled && E.hardTpHit (priceIncrease f buyPrice) && 0 < f.sellableQty &&
      E.hardTpConfigValid && E.cooledDown f && E.admitted (E.hardOrder f))

/-- The gain is reached. -/
def gained : Bool := (buyBase f).any (fun b => E.beyond (priceIncrease f b) E.gainThreshold)

/-- The gain or the loss is reached, so the sale reads the trend. -/
def saleWatched : Bool :=
  (buyBase f).any (fun b => E.beyond (priceIncrease f b) E.gainThreshold ||
    E.beyond (priceDecrease f b) E.lostThreshold)

def theSale : Placement := E.saleOrder f (!E.gained f)

def saleDue : Bool :=
  E.saleWatched f && !isTrendUp (E.trend 0) && f.canSell && 0 < f.sellableQty &&
    E.admitted (E.theSale f)

/-- The SELL history is evaluated, when nothing ended the call before. -/
def reached : Bool := !f.hasBuys || (buyBase f).isSome

/-- The BUY reads the trend after the sale, if that one read it. -/
def rebuyDue : Bool :=
  reached f && (sellBase f).any (fun sellPrice =>
    E.beyond (priceDecreaseVersusSell f sellPrice) E.gainThreshold) &&
    isTrendUp (E.trend (if E.saleWatched f then 1 else 0)) && f.canBuy && !E.overBudget f &&
    E.admitted (E.buyOrder f)

/-! ## What a call places -/

/-- The orders of the BUY after a sale. -/
def rebuys : List Placement := if E.rebuyDue f then [E.buyOrder f] else []

/-- The orders of the sale and the BUY, after `k` placements. -/
def later (k : ℕ) : List Placement :=
  if E.saleDue f then
    E.theSale f :: (if E.place k (E.theSale f) = .raised then [] else E.rebuys f)
  else E.rebuys f

/-! ### One placement -/

/-- The state a call ends in. -/
def endOf {α : Type} : EStateM.Result Unit Trace α → Trace
  | .ok _ t => t
  | .error _ t => t

/-- Place `p` under a condition, and go on unless that raises. -/
def attempt (due : Bool) (p : Placement) : EvalM Unit := fun t =>
  if due then
    if E.place t.placed.length p = .raised then .error () { t with placed := t.placed ++ [p] }
    else .ok () { t with placed := t.placed ++ [p] }
  else .ok () t

variable {E f}

theorem discard_placeGuarded (p : Placement) :
    discard (E.placeGuarded p) = E.attempt (E.admitted p) p := by
  funext t
  unfold placeGuarded attempt
  by_cases hadmitted : E.admitted p
  · rw [if_pos hadmitted, if_pos hadmitted]
    show EStateM.map _ (E.submit p) t = _
    unfold EStateM.map submit
    cases E.place t.placed.length p with
    | payload => rfl
    | nothing => rfl
    | raised => rfl
  · rw [if_neg hadmitted, if_neg hadmitted]
    rfl

theorem attempt_and (c : Bool) (p : Placement) :
    (if c = true then discard (E.placeGuarded p) else pure ()) =
      E.attempt (c && E.admitted p) p := by
  cases c with
  | false => rfl
  | true => rw [if_pos rfl, discard_placeGuarded, Bool.true_and]

/-! ### The sale -/

theorem sellUnlessUp_eq (atLoss : Bool) (t : Trace) :
    E.sellUnlessUp f atLoss t =
      E.attempt (!isTrendUp (E.trend t.trendReads) && f.canSell && 0 < f.sellableQty &&
        E.admitted (E.saleOrder f atLoss)) (E.saleOrder f atLoss)
        { t with trendReads := t.trendReads + 1 } := by
  rw [← attempt_and]
  rfl

/-- The sale, with its reading of the trend. -/
theorem profitOrLoss_eq {b : ℚ} (hb : buyBase f = some b) {t : Trace} (ht : t.trendReads = 0) :
    E.profitOrLoss f b t =
      E.attempt (E.saleDue f) (E.theSale f)
        { t with trendReads := if E.saleWatched f then 1 else 0 } := by
  unfold profitOrLoss saleDue theSale gained saleWatched
  rw [hb]
  simp only [Option.any_some]
  by_cases hgain : E.beyond (priceIncrease f b) E.gainThreshold
  · rw [if_pos hgain, sellUnlessUp_eq, ht]
    simp [hgain]
  · rw [if_neg hgain]
    by_cases hloss : E.beyond (priceDecrease f b) E.lostThreshold
    · rw [if_pos hloss, sellUnlessUp_eq, ht]
      simp [hgain, hloss]
    · rw [if_neg hloss]
      simp only [hgain, hloss, Bool.or_self, Bool.false_and, attempt]
      rw [if_neg Bool.false_ne_true, if_neg Bool.false_ne_true, ← ht]
      rfl

/-! ### The BUY -/

theorem attempt_placed (due : Bool) (p : Placement) (t : Trace) :
    (endOf (E.attempt due p t)).placed = t.placed ++ if due then [p] else [] := by
  unfold attempt
  cases due with
  | false => exact (List.append_nil _).symm
  | true =>
      rw [if_pos rfl, if_pos rfl]
      split
      · rfl
      · rfl

theorem sellHistory_placed (hreached : reached f = true) {t : Trace}
    (ht : t.trendReads = if E.saleWatched f then 1 else 0) :
    (endOf (E.sellHistory f t)).placed = t.placed ++ E.rebuys f := by
  have hnone : sellBase f = none → E.rebuys f = [] := by
    intro hbase
    simp [rebuys, rebuyDue, hbase]
  unfold sellHistory
  by_cases hsells : f.hasSells
  · rw [if_pos hsells]
    cases hprice : f.sellPrice with
    | none =>
        rw [hnone (by simp [sellBase, hprice])]
        exact (List.append_nil _).symm
    | some s =>
        dsimp only
        by_cases hzero : s = 0
        · rw [if_pos hzero, hnone (by simp [sellBase, hprice, hzero])]
          exact (List.append_nil _).symm
        · have hbase : sellBase f = some s := by
            simp [sellBase, hsells, hprice, hzero]
          rw [if_neg hzero]
          by_cases hdrop : E.beyond (priceDecreaseVersusSell f s) E.gainThreshold
          · have hrun : (do
                  let up ← E.readTrend
                  if up && f.canBuy && !E.overBudget f then
                    discard (E.placeGuarded (E.buyOrder f))
                  else pure () : EvalM Unit) t =
                E.attempt (E.rebuyDue f) (E.buyOrder f)
                  { t with trendReads := t.trendReads + 1 } := by
              have hdue : E.rebuyDue f = (isTrendUp (E.trend t.trendReads) && f.canBuy &&
                  !E.overBudget f && E.admitted (E.buyOrder f)) := by
                unfold rebuyDue
                rw [hreached, hbase, ht]
                simp [hdrop]
              rw [hdue, ← attempt_and]
              rfl
            rw [if_pos hdrop, hrun, attempt_placed]
            rfl
          · rw [if_neg hdrop]
            have hidle : E.rebuys f = [] := by
              simp [rebuys, rebuyDue, hbase, hdrop]
            rw [hidle]
            exact (List.append_nil _).symm
  · rw [if_neg hsells, hnone (by simp [sellBase, hsells])]
    exact (List.append_nil _).symm

/-! ### The hard take-profit -/

theorem hardTakeProfit_due {b : ℚ} (hb : buyBase f = some b) (hdue : E.hardDue f = true)
    (t : Trace) :
    E.hardTakeProfit f b t =
      match E.place t.placed.length (E.hardOrder f) with
      | .payload => .ok true {
          t with
          placed := t.placed ++ [E.hardOrder f]
          hardTpLast := Function.update t.hardTpLast E.symbol (some f.currentTimeS) }
      | .nothing => .ok false { t with placed := t.placed ++ [E.hardOrder f] }
      | .raised => .error () { t with placed := t.placed ++ [E.hardOrder f] } := by
  unfold hardDue at hdue
  rw [hb] at hdue
  simp only [Option.any_some, Bool.and_eq_true] at hdue
  obtain ⟨⟨⟨⟨⟨henabled, hhit⟩, hsellable⟩, hconfig⟩, hcooled⟩, hadmitted⟩ := hdue
  unfold hardTakeProfit placeGuarded
  rw [if_pos (by simp only [henabled, hhit, hsellable, hconfig, Bool.and_self]), if_pos hcooled,
    if_pos hadmitted]
  show EStateM.bind (E.submit (E.hardOrder f)) _ t = _
  unfold EStateM.bind submit
  cases E.place t.placed.length (E.hardOrder f) with
  | payload => rfl
  | nothing => rfl
  | raised => rfl

theorem hardTakeProfit_idle {b : ℚ} (hb : buyBase f = some b) (hdue : E.hardDue f = false)
    (t : Trace) : E.hardTakeProfit f b t = .ok false t := by
  unfold hardDue at hdue
  rw [hb] at hdue
  simp only [Option.any_some] at hdue
  unfold hardTakeProfit
  split
  · rename_i hhit
    rw [hhit, Bool.true_and] at hdue
    split
    · rename_i hcooled
      rw [hcooled, Bool.true_and] at hdue
      unfold placeGuarded
      rw [if_neg (by rw [hdue]; exact Bool.false_ne_true)]
      rfl
    · rfl
  · rfl

/-! ### The whole call -/

/-- The sale and then the BUY. -/
theorem later_placed {b : ℚ} (hb : buyBase f = some b) {t : Trace} (ht : t.trendReads = 0) :
    (endOf ((do
      E.profitOrLoss f b
      E.sellHistory f : EvalM Unit) t)).placed = t.placed ++ E.later f t.placed.length := by
  have hreached : reached f = true := by
    simp [reached, hb]
  have hrun : (do
      E.profitOrLoss f b
      E.sellHistory f : EvalM Unit) t =
      EStateM.bind (E.profitOrLoss f b) (fun _ => E.sellHistory f) t := rfl
  rw [hrun]
  unfold EStateM.bind later
  rw [profitOrLoss_eq hb ht]
  unfold attempt
  by_cases hsale : E.saleDue f
  · rw [if_pos hsale, if_pos hsale]
    by_cases hraised : E.place t.placed.length (E.theSale f) = .raised
    · rw [if_pos hraised, if_pos hraised]
      rfl
    · rw [if_neg hraised, if_neg hraised]
      dsimp only
      rw [sellHistory_placed hreached rfl, List.append_assoc]
      rfl
  · rw [if_neg hsale, if_neg hsale]
    dsimp only
    rw [sellHistory_placed hreached rfl]

/-- With a reference, the take-profit decides whether the other two rules run. -/
theorem buyHistory_eq {b : ℚ} (hb : buyBase f = some b) (t : Trace) :
    (do
      let returned ← E.buyHistory f
      if returned then pure () else E.sellHistory f : EvalM Unit) t =
    match E.hardTakeProfit f b t with
    | .ok true t' => .ok () t'
    | .ok false t' => (do
        E.profitOrLoss f b
        E.sellHistory f : EvalM Unit) t'
    | .error e t' => .error e t' := by
  obtain ⟨hbuys, hprice, hzero⟩ : f.hasBuys = true ∧ f.buyPrice = some b ∧ b ≠ 0 := by
    unfold buyBase at hb
    split at hb
    · rename_i hbuys
      have hfilter := Option.filter_eq_some_iff.mp hb
      exact ⟨hbuys, hfilter.1, by simpa using hfilter.2⟩
    · cases hb
  have hhistory : E.buyHistory f = EStateM.bind (E.hardTakeProfit f b) (fun sold =>
      if sold then pure true
      else EStateM.bind (E.profitOrLoss f b) (fun _ => pure false)) := by
    unfold buyHistory
    rw [if_pos hbuys, hprice]
    dsimp only
    rw [if_neg hzero]
    rfl
  show EStateM.bind (E.buyHistory f) _ t = _
  rw [hhistory]
  unfold EStateM.bind
  cases E.hardTakeProfit f b t with
  | error e t' => rfl
  | ok sold t' =>
      cases sold with
      | true => rfl
      | false =>
          show EStateM.bind (EStateM.bind (E.profitOrLoss f b) (fun _ => (pure false : EvalM Bool)))
              (fun returned => if returned then pure () else E.sellHistory f) t' =
            EStateM.bind (E.profitOrLoss f b) (fun _ => E.sellHistory f) t'
          unfold EStateM.bind
          cases E.profitOrLoss f b t' with
          | error e t'' => rfl
          | ok u t'' => rfl

/-- **What a call places.** -/
theorem placed_eq (hfacts : E.facts = some f) :
    E.placed =
      if E.hardDue f then
        E.hardOrder f :: (if E.place 0 (E.hardOrder f) = .nothing then E.later f 1 else [])
      else if reached f then E.later f 0 else [] := by
  -- the call ends where it is after the two histories, however it ends
  have hplaced : E.placed = (endOf ((do
      let returned ← E.buyHistory f
      if returned then pure () else E.sellHistory f : EvalM Unit)
        { hardTpLast := E.hardTpLast })).placed := by
    unfold placed monitorPriceAndTrade
    rw [hfacts]
    dsimp only
    split
    · rename_i h
      rw [h]
      rfl
    · rename_i h
      rw [h]
      rfl
  rw [hplaced]
  cases hb : buyBase f with
  | none =>
      -- without a reference price there is no hard take profit and no sale
      have hhard : E.hardDue f = false := by simp [hardDue, hb]
      have hwatched : E.saleWatched f = false := by simp [saleWatched, hb]
      have hsale : E.saleDue f = false := by simp [saleDue, hwatched]
      rw [hhard, if_neg Bool.false_ne_true]
      by_cases hbuys : f.hasBuys
      · -- the BUY history has no reference, so the call returns
        have hreached : reached f = false := by simp [reached, hbuys, hb]
        have hreturn : E.buyHistory f = pure true := by
          unfold buyHistory
          unfold buyBase at hb
          rw [if_pos hbuys] at hb ⊢
          cases hprice : f.buyPrice with
          | none => rfl
          | some b =>
              rw [hprice] at hb
              have hzero : b = 0 := by simpa using hb
              dsimp only
              rw [if_pos hzero]
        rw [hreturn, hreached, if_neg Bool.false_ne_true]
        rfl
      · have hreached : reached f = true := by simp [reached, hbuys]
        have hskip : E.buyHistory f = pure false := by
          unfold buyHistory
          rw [if_neg hbuys]
        rw [hskip, hreached, if_pos rfl, later, hsale, if_neg Bool.false_ne_true]
        show (endOf (E.sellHistory f { hardTpLast := E.hardTpLast })).placed = _
        rw [sellHistory_placed hreached (by rw [hwatched]; rfl)]
        rfl
  | some b =>
      have hreached : reached f = true := by simp [reached, hb]
      rw [buyHistory_eq hb, hreached, if_pos rfl]
      by_cases hhard : E.hardDue f
      · rw [hardTakeProfit_due hb hhard, if_pos hhard]
        cases hplace : E.place 0 (E.hardOrder f) with
        | payload => rfl
        | nothing =>
            dsimp only
            rw [later_placed hb rfl]
            rfl
        | raised => rfl
      · rw [hardTakeProfit_idle hb (by simpa using hhard), if_neg hhard]
        dsimp only
        rw [later_placed hb rfl]
        rfl

theorem placed_of_no_facts (hfacts : E.facts = none) : E.placed = [] := by
  unfold placed monitorPriceAndTrade
  rw [hfacts]
  rfl

/-! ## One trade -/

/-- What has to hold of the inputs. A hard take-profit that is due is not rounded above what can
be sold, and where `inst.place` answers it with `None`, neither of the other rules is due. Where
it is not due, a sale and a BUY are not both due, unless the placement of the sale raises. -/
def OneRule (E : Evaluation) : Prop :=
  ∀ f, E.facts = some f →
    (E.hardDue f = true → (E.hardOrder f).qty ≤ f.sellableQty ∧
      (E.place 0 (E.hardOrder f) = .nothing → E.saleDue f = false ∧ E.rebuyDue f = false)) ∧
    (E.hardDue f = false → E.saleDue f = true → E.rebuyDue f = true →
      E.place 0 (E.theSale f) = .raised)

theorem rebuys_eq_nil_iff : E.rebuys f = [] ↔ E.rebuyDue f = false := by
  unfold rebuys
  split
  · rename_i h
    simp [h]
  · rename_i h
    simpa using h

theorem later_eq_nil_iff (k : ℕ) :
    E.later f k = [] ↔ E.saleDue f = false ∧ E.rebuyDue f = false := by
  unfold later
  by_cases hsale : E.saleDue f
  · rw [if_pos hsale, hsale]
    simp
  · rw [if_neg hsale, rebuys_eq_nil_iff, Bool.eq_false_iff.mpr hsale]
    simp

theorem reached_of_rebuyDue (h : E.rebuyDue f = true) : reached f = true := by
  unfold rebuyDue at h
  simp only [Bool.and_eq_true] at h
  exact h.1.1.1.1.1

theorem saleDue_reached (h : E.saleDue f = true) : reached f = true := by
  unfold saleDue saleWatched at h
  unfold reached
  cases hb : buyBase f with
  | none => simp [hb] at h
  | some b => simp

/-- Where the SELL history is not reached, no rule is due. -/
theorem later_of_not_reached (h : reached f = false) (k : ℕ) : E.later f k = [] := by
  rw [later_eq_nil_iff]
  constructor
  · rw [Bool.eq_false_iff]
    intro hsale
    rw [saleDue_reached hsale] at h
    cases h
  · rw [Bool.eq_false_iff]
    intro hrebuy
    rw [reached_of_rebuyDue hrebuy] at h
    cases h

/-- The orders of a call, without the question whether the last rule is reached. -/
theorem placed_cases (hfacts : E.facts = some f) :
    E.placed =
      if E.hardDue f then
        E.hardOrder f :: (if E.place 0 (E.hardOrder f) = .nothing then E.later f 1 else [])
      else E.later f 0 := by
  rw [placed_eq hfacts]
  by_cases hreached : reached f
  · rw [if_pos hreached]
  · have hnot : reached f = false := by simpa using hreached
    rw [if_neg hreached, later_of_not_reached hnot 0]

/-- A SELL that a rule sends is covered when it is at most what can be sold. -/
theorem covered_of_le (hfacts : E.facts = some f) {p : Placement} (hpos : 0 < p.qty)
    (hle : p.qty ≤ f.sellableQty) :
    ∃ availQty, E.free = some (.finite availQty) ∧ 0 < p.qty ∧ p.qty ≤ E.sellableQty availQty ∧
      (E.isolation = "own_ledger" → p.qty ≤ availQty ∧ p.qty ≤ E.netQty) := by
  obtain ⟨-, hfree, hsellable⟩ := E.facts_some hfacts
  rw [hsellable] at hle
  refine ⟨f.availQty, hfree, hpos, hle, ?_⟩
  intro hown
  have hboth := E.sellableQty_own hown (lt_of_lt_of_le hpos hle)
  exact ⟨le_trans hle hboth.1, le_trans hle hboth.2⟩

/-- A call that places nothing, or one covered order, trades once. -/
theorem tradesOnce_of_le_one (hfacts : E.facts = some f) (hone : E.placed.length ≤ 1)
    (hcovered : ∀ p ∈ E.placed, p.side = .sell → 0 < p.qty ∧ p.qty ≤ f.sellableQty) :
    E.TradesOnce := by
  refine ⟨hone, ?_, fun p hp hside => ?_⟩
  · rintro ⟨⟨p, hp, hsell⟩, q, hq, hbuy⟩
    obtain ⟨x, hx⟩ : ∃ x, E.placed = [x] :=
      List.length_eq_one_iff.mp (le_antisymm hone (List.length_pos_of_mem hp))
    rw [hx, List.mem_singleton] at hp hq
    rw [hp, ← hq, hbuy] at hsell
    cases hsell
  · exact covered_of_le hfacts (hcovered p hp hside).1 (hcovered p hp hside).2

theorem theSale_covered (h : E.saleDue f = true) :
    0 < (E.theSale f).qty ∧ (E.theSale f).qty ≤ f.sellableQty := by
  unfold saleDue at h
  simp only [Bool.and_eq_true, decide_eq_true_eq] at h
  exact ⟨h.1.2, le_refl _⟩

theorem hardOrder_pos (h : E.hardDue f = true) : 0 < (E.hardOrder f).qty := by
  unfold hardDue at h
  cases hb : buyBase f with
  | none => simp [hb] at h
  | some b =>
      rw [hb] at h
      simp only [Option.any_some, Bool.and_eq_true, admitted, decide_eq_true_eq] at h
      exact h.2.1.1

theorem oneRule_of_tradesOnce (h : E.TradesOnce) : E.OneRule := by
  intro f hfacts
  have hplaced := placed_cases hfacts
  have hone := h.once
  constructor
  · intro hhard
    rw [if_pos hhard] at hplaced
    constructor
    · obtain ⟨availQty, hfree, -, hle, -⟩ :=
        h.covered (E.hardOrder f) (by rw [hplaced]; exact List.mem_cons_self) rfl
      obtain ⟨-, hfree', hsellable⟩ := E.facts_some hfacts
      rw [hfree, Option.some.injEq, Reading.finite.injEq] at hfree'
      rw [hsellable, ← hfree']
      exact hle
    · intro hnothing
      rw [if_pos hnothing] at hplaced
      rw [hplaced, List.length_cons] at hone
      have hnil : E.later f 1 = [] := List.eq_nil_of_length_eq_zero (by omega)
      exact (later_eq_nil_iff 1).mp hnil
  · intro hhard hsale hrebuy
    rw [if_neg (by rw [hhard]; exact Bool.false_ne_true), later, if_pos hsale] at hplaced
    by_contra hplace
    rw [if_neg hplace, rebuys, if_pos hrebuy] at hplaced
    rw [hplaced] at hone
    simp at hone

theorem tradesOnce_of_oneRule (h : E.OneRule) : E.TradesOnce := by
  cases hfacts : E.facts with
  | none =>
      -- without readings nothing is placed
      have hnil := placed_of_no_facts hfacts
      refine ⟨?_, ?_, ?_⟩
      · rw [hnil]
        exact Nat.zero_le _
      · rw [hnil]
        simp
      · rw [hnil]
        simp
  | some f =>
      obtain ⟨hfirst, hsecond⟩ := h f hfacts
      have hplaced := placed_cases hfacts
      by_cases hhard : E.hardDue f
      · -- the take-profit alone
        obtain ⟨hle, hnothing⟩ := hfirst hhard
        have hone : E.placed = [E.hardOrder f] := by
          rw [hplaced, if_pos hhard]
          by_cases hplace : E.place 0 (E.hardOrder f) = .nothing
          · rw [if_pos hplace, (later_eq_nil_iff 1).mpr (hnothing hplace)]
          · rw [if_neg hplace]
        apply tradesOnce_of_le_one hfacts
        · rw [hone, List.length_singleton]
        · intro p hp _
          rw [hone, List.mem_singleton] at hp
          rw [hp]
          exact ⟨hardOrder_pos hhard, hle⟩
      · rw [if_neg hhard] at hplaced
        by_cases hsale : E.saleDue f
        · -- the sale alone
          have hone : E.placed = [E.theSale f] := by
            rw [hplaced, later, if_pos hsale]
            by_cases hrebuy : E.rebuyDue f
            · rw [if_pos (hsecond (by simpa using hhard) hsale hrebuy)]
            · rw [rebuys_eq_nil_iff.mpr (by simpa using hrebuy), ite_self]
          apply tradesOnce_of_le_one hfacts
          · rw [hone, List.length_singleton]
          · intro p hp _
            rw [hone, List.mem_singleton] at hp
            rw [hp]
            exact theSale_covered hsale
        · -- at most the BUY
          have hrebuys : E.placed = E.rebuys f := by
            rw [hplaced, later, if_neg hsale]
          apply tradesOnce_of_le_one hfacts
          · rw [hrebuys, rebuys]
            split
            · exact le_refl _
            · exact Nat.zero_le _
          · intro p hp hside
            rw [hrebuys, rebuys] at hp
            split at hp
            · rw [List.mem_singleton.mp hp] at hside
              cases hside
            · simp at hp

end Evaluation

/-- **One evaluation trades once**, and sells only what it may, exactly when at most one rule is
due on what the call reads. -/
theorem trades_once_iff (E : Evaluation) : E.TradesOnce ↔ E.OneRule :=
  ⟨Evaluation.oneRule_of_tradesOnce, Evaluation.tradesOnce_of_oneRule⟩

/-- Two units were bought at 100, one was sold at 110; at 90 the loss and the drop after the sale
are both reached, and the trend turns upwards after its first reading. -/
def turningEvaluation : Evaluation where
  symbol := "TAOUSDC"
  sbs := 0
  orders side _ :=
    match side with
    | .buy => [⟨100, 2, 0⟩]
    | .sell => [⟨110, 1, 0⟩]
  price := some (.finite 90)
  free := some (.finite 1)
  now := 1000000
  nowFor _ := 1000000
  trend k := if k = 0 then .missing else .snapshot { gradientRecent := some (some 1) }
  place _ _ := .payload

/-- The call sells one unit and buys one. -/
theorem turning_trend_sells_and_buys :
    turningEvaluation.placed.map (fun p => (p.side, p.qty)) = [(.sell, 1), (.buy, 1)] ∧
      ¬ turningEvaluation.TradesOnce := by
  have hplaced :
      turningEvaluation.placed.map (fun p => (p.side, p.qty)) = [(.sell, 1), (.buy, 1)] := by
    decide +kernel
  refine ⟨hplaced, fun h => ?_⟩
  have hone := h.once
  rw [← List.length_map (fun p : Placement => (p.side, p.qty)), hplaced] at hone
  simp at hone

end TradingFleet.Monitor
