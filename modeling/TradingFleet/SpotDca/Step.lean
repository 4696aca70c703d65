import TradingFleet.SpotDca.Engine

set_option autoImplicit false

/-! # One decision of the strategy

`step` of `strategies/spot_dca.py` with the stop-loss, the trend overlay, reentry, take-profit
and DCA. What the strategy reads from market history (the regime of the common classifier, the
closes and the volatilities) comes in as `Signals`; every rule over these values is here.
-/

namespace TradingFleet.SpotDca

open TradingFleet.Lifecycle
open TradingFleet.Rounding (roundTo double sub mul div)

/-! ## Signals -/

inductive Regime where
  | bull
  | bear
  | range
deriving DecidableEq, Repr

/-- `MarketRegimeDecision`, as far as the strategy reads it. -/
structure RegimeDecision where
  fresh : Bool := false
  regime : Regime := .range
  nSamples : Nat := 0
  fittedMovePct : Option ℚ := none

/-- What market history says at one tick. A volatility is missing during warm-up and when its
data cannot be read; the scale of the DCA size is `(vol_ref / vol) ** k` before it is clamped, and
reading its data may raise. -/
structure Signals where
  regime : RegimeDecision := {}
  closes : List ℚ := []
  trailVol : Option ℚ := none
  reentryVol : Option ℚ := none
  reentryK : ℚ := 2
  dcaScale : Except Exc (Option ℚ) := .ok none

def regimeMatches (decision : Option RegimeDecision) (expected : Regime) (minMovePct : ℚ)
    (minSamples : Nat) : Bool :=
  match decision with
  | none => false
  | some d =>
      d.fresh && d.regime = expected && minSamples ≤ d.nSamples &&
        (minMovePct ≤ 0 || d.fittedMovePct.any (fun move => minMovePct ≤ |move|))

variable (S : Setup)

def effectiveTrailPct (sig : Signals) : ℚ :=
  if S.params.tpTrailAdaptive then
    match sig.trailVol with
    | none => S.params.tpTrailPct
    | some vol => max S.params.tpTrailMin (min S.params.tpTrailMax (S.params.tpTrailK * vol))
  else S.params.tpTrailPct

def effectiveReentryDropPct (sig : Signals) : ℚ :=
  if S.params.reentryAdaptive then
    match sig.reentryVol with
    | none => S.params.reentryDropPct
    | some vol => sig.reentryK * vol
  else S.params.reentryDropPct

def effectiveDcaAmount (scale : Option ℚ) : ℚ :=
  match scale with
  | none => S.params.effectiveDcaAmountBase
  | some x => S.params.effectiveDcaAmountBase * max (3 / 10) (min 3 x)

/-! ## DCA -/

/-- Volume and price of a DCA of this size. Where funds or the budget bind, it rounds down. -/
def dcaOrder (amount available entryPx : ℚ) : ℚ × ℚ :=
  let spend := min amount available
  let qty := S.precision.qtyFor spend entryPx
  let rounded := roundTo entryPx S.precision.priceDecimals
  if spend < amount ∨ available < qty * rounded then
    (if 0 < rounded then
        ⌊spend / rounded * 10 ^ S.precision.volumeDecimals⌋ / 10 ^ S.precision.volumeDecimals
      else 0, rounded)
  else (qty, entryPx)

def placeDca (amount entryPx : ℚ) : DcaM Unit := do
  let answer ← ask S.venue.freeBalance (fun _ => none)
  match answer with
  | .error _ => pure ()
  | .ok none => pure ()
  | .ok (some freeQuote) => do
      let s ← state
      if freeQuote < 0 then pure ()
      else do
        let available := min freeQuote (S.params.effectiveMaxBudget - s.spent)
        let order := dcaOrder S amount available entryPx
        if order.1 ≤ 0 ∨ order.1 < S.precision.orderMin then pure ()
        else do
          let _ ← place S
            { side := .buy, vol := order.1, price := order.2, kind := .dca,
              amount := min amount available }
          pure ()

/-- A DCA is due. -/
def dcaDue (s : State) (price : ℚ) (regime : Option RegimeDecision) : Bool :=
  (s.dcaBuys : Int) < S.params.maxDcaBuys &&
    s.lastBuyPrice.any (fun lastBuy => dcaPriceHit price lastBuy
      (progressiveDcaDropPct S.params.dcaDropPct S.params.dcaSpacingGrowthPct s.dcaBuys)
      S.params.reentryTolerancePct) &&
    s.spent < S.params.effectiveMaxBudget &&
    !(S.params.dcaTrendBrake && regimeMatches regime .bear S.params.dcaBrakeMinPct
      S.params.regimeMinSamples) &&
    !s.hasOpen .buy

def stepDca (price entryPx : ℚ) (regime : Option RegimeDecision) (sig : Signals) : DcaM Unit := do
  let scale ← orRaise sig.dcaScale
  let s ← state
  if dcaDue S s price regime then placeDca S (effectiveDcaAmount S scale) entryPx else pure ()

/-! ## Take-profit -/

/-- The quantities of the tranches, largest remainder last. Shares and differences are doubles before
they are rounded to venue precision. -/
def trancheQtys (held : ℚ) : List (ℚ × ℚ) → ℚ → List (ℚ × ℚ)
  | [], _ => []
  | [(pct, _)], rem => [(pct, S.precision.dustSafeQty rem)]
  | (pct, share) :: rest, rem =>
      let q := min rem (roundTo (div (mul held share) 100) S.precision.volumeDecimals)
      (pct, q) :: trancheQtys held rest (roundTo (sub rem q) S.precision.volumeDecimals)

/-- The take-profit orders wanted for a position, as prices and volumes. -/
def desiredSells (avg held : ℚ) : List (ℚ × ℚ) :=
  let tranches := if S.params.tpTranches = [] then [(S.params.takeprofitPct, 100)]
    else S.params.tpTranches
  let desired := ((trancheQtys S held tranches held).filter (fun t => 0 < t.2)).map
    (fun t => (roundTo (tpPrice avg t.1) S.precision.priceDecimals, t.2))
  if S.precision.orderMin ≠ 0 ∧ desired.any (fun d => d.2 < S.precision.orderMin) then
    [(roundTo (tpPrice avg ((tranches.head?.map Prod.fst).getD 0)) S.precision.priceDecimals, held)]
  else desired

/-- Two volumes within the tolerance. -/
def sameVol (vol wanted : ℚ) : Bool := |sub vol wanted| ≤ double (1 / 10 ^ 9)

/-- The tracked SELL orders are the wanted ones. -/
def sellsMatch (sells : List Order) (desired : List (ℚ × ℚ)) : Bool :=
  let byPrice := sells.insertionSort (fun a b => a.price ≤ b.price)
  let wanted := desired.insertionSort (fun a b => a.1 < b.1 ∨ (a.1 = b.1 ∧ a.2 ≤ b.2))
  sells.length = desired.length && sells.all (fun o => !o.cancelRequested) &&
    (byPrice.zip wanted).all (fun x =>
      div |sub x.1.price x.2.1| x.2.1 ≤ double (1 / 1000) && sameVol x.1.vol x.2.2)

def placeSells (desired : List (ℚ × ℚ)) : DcaM Unit :=
  desired.foldlM (fun _ d => do
    let _ ← place S { side := .sell, vol := d.2, price := d.1, kind := .tp }
    pure ()) ()

/-- Replace the take-profit orders when they are not the wanted ones. -/
def classicTakeProfit (avg held : ℚ) : DcaM Unit := do
  update (fun s => { s with trailPeak := none, trailStop := none })
  let s ← state
  if sellsMatch (s.orders.filter (fun o => o.side = .sell)) (desiredSells S avg held) then pure ()
  else do
    let _ ← cancelOrders S (some .sell) false
    let s ← state
    if s.hasOpen .sell then pure () else placeSells S (desiredSells S avg held)

/-- What `_trail` decides at one tick: wait below the floor, exit, or ride on. -/
inductive TrailAction where
  | blocked
  | exit
  | ride
deriving DecidableEq

/-- The trailing stop ratchets upward. -/
def trailed (s : State) (price trailPct : ℚ) : State :=
  let peak := max (orElse s.trailPeak price) price
  let candidate := peak * (1 - trailPct / 100)
  { s with trailPeak := some peak, trailStop := some (max candidate (orElse s.trailStop candidate)) }

def trailAction (s : State) (avg price : ℚ) : TrailAction :=
  if price ≤ s.trailStop.getD 0 then
    if (trailProfitFloorPrice S avg).any (fun floor => exitReference S .tp price < floor) then
      .blocked
    else .exit
  else .ride

/-- The take-profit part of a tick. `true` means that the tick is over. -/
def takeProfit (price avg held : ℚ) (regime : Option RegimeDecision) (sig : Signals) :
    DcaM Bool := do
  let s ← state
  let armed := s.trailPeak.isSome
  let hold := S.params.tpTrendHold && (armed || !S.params.tpRegimeGate ||
    regimeMatches regime .bull S.params.tpTrendMinPct S.params.regimeMinSamples)
  if !S.params.enableTakeprofit || avg = 0 then pure false
  else if hold then
    if armed || tpPrice avg S.params.takeprofitPct ≤ price then do
      update (fun s => trailed s price (effectiveTrailPct S sig))
      let s ← state
      match trailAction S s avg price with
      | .blocked => pure true
      | .exit => do
          let _ ← requestMarketExit S price .tp true
          pure true
      | .ride => do
          let _ ← cancelOrders S (some .sell) true
          pure false
    else do
      update (fun s => { s with trailPeak := none, trailStop := none })
      let _ ← cancelOrders S (some .sell) true
      pure false
  else do
    classicTakeProfit S avg held
    pure false

/-- The part of a tick for a position that is held. -/
def stepHeld (price held entryPx : ℚ) (regime : Option RegimeDecision) (sig : Signals) :
    DcaM Unit := do
  let s ← state
  let ended ← takeProfit S price (s.avg.getD 0) held regime sig
  if ended then pure () else stepDca S price entryPx regime sig

/-! ## Entry -/

/-- The reentry rule after the last sale, and the low it follows after a stop. -/
def reentryBlocked (s : State) (price : ℚ) (sig : Signals) : Bool × Option ℚ :=
  let lastSell := s.lastSellPrice.getD 0
  if s.lastExitKind = some .stop ∧ 0 < S.params.reentrySlBouncePct ∧ lastSell ≠ 0 then
    let low := min (orElse s.slLow price) price
    (reentryStopBlocked price low S.params.reentrySlBouncePct S.params.reentryTolerancePct,
      some low)
  else
    (reentryDropBlocked price lastSell (effectiveReentryDropPct S sig)
      S.params.reentryTolerancePct, s.slLow)

def stepFlat (price entryPx : ℚ) (sig : Signals) : DcaM Unit := do
  let s ← state
  if s.hasOpen .buy then pure ()
  else do
    update (fun s => { s with slLow := (reentryBlocked S s price sig).2 })
    if (reentryBlocked S s price sig).1 then pure ()
    else if S.params.effectiveMaxBudget < s.spent + S.params.effectiveEntryAmount then pure ()
    else do
      let _ ← place S
        { side := .buy, vol := S.precision.qtyFor S.params.effectiveEntryAmount entryPx,
          price := entryPx, kind := .entry, amount := S.params.effectiveEntryAmount }
      pure ()

/-! ## The trend overlay -/

/-- The mean of the last closes, when there are enough. -/
def sma (closes : List ℚ) (n : Nat) : Option ℚ :=
  if n ≤ closes.length ∧ n ≠ 0 then some ((closes.drop (closes.length - n)).sum / n) else none

/-- Hold a trend position with a trailing stop. A mean over no closes divides by zero. -/
def overlayHold (price : ℚ) (closes : List ℚ) : DcaM Unit := do
  update (fun s => { s with trendPeak := some (max (orElse s.trendPeak price) price) })
  let s ← state
  let trailStop := s.trendPeak.getD price * (1 - S.params.trendTrailPct / 100)
  let broke := S.params.trendExitBreak && (sma closes S.params.trendSmaN).any (fun m => price < m)
  if S.params.trendSmaN = 0 then raise ⟨.other, "ZeroDivisionError", "division by zero"⟩
  else if (price ≤ trailStop || broke) && flatQty < s.qty then do
    let _ ← requestMarketExit S price .tp false
    pure ()
  else do
    let _ ← cancelOrders S (some .sell) true
    pure ()

/-- Buy the top-up once nothing is open. -/
def overlayEnter (price : ℚ) : DcaM Unit := do
  let _ ← cancelOrders S (some .buy) false
  let _ ← cancelOrders S (some .sell) false
  let s ← state
  if s.orders ≠ [] then pure ()
  else do
    let _ ← place S
      { side := .buy, vol := S.precision.qtyFor S.params.trendTopup price, price := price,
        kind := .trendEntry, amount := S.params.trendTopup }
    pure ()

/-- `_overlay_step`: whether it handled the tick. -/
def overlayStep (price : ℚ) (regime : RegimeDecision) (closes : List ℚ) : DcaM Bool := do
  let s ← state
  let up := regimeMatches (some regime) .bull 0 S.params.regimeMinSamples
  if s.trendMode then do
    overlayHold S price closes
    pure true
  else if s.orders.any (fun o => o.side = .buy && o.kind = .trendEntry) then
    if up then pure true
    else do
      let _ ← cancelOpen S .buy
      pure false
  else if up && s.spent + S.params.trendTopup ≤ S.params.effectiveMaxBudget then do
    overlayEnter S price
    pure true
  else pure false

/-! ## The tick -/

/-- `_check_stop_loss`: whether it took the tick. -/
def checkStopLoss (price : ℚ) : DcaM Bool := do
  let s ← state
  let avg := s.avg.getD 0
  if S.params.stopLossPct ≤ 0 ∨ avg = 0 then pure false
  else if hitStop avg price S.params.stopLossPct then
    if s.hasPendingMarketExit then pure true
    else do
      let _ ← requestMarketExit S price .stop false
      pure true
  else pure false

/-- The balance an adoption takes over, if there is one. -/
def adoptableQty : DcaM (Option ℚ) :=
  if 0 < S.params.adoptQty then
    pure (if S.params.adoptQty ≤ flatQty then none else some S.params.adoptQty)
  else do
    let answer ← ask S.venue.freeBalance (fun _ => none)
    match answer with
    | .error e => if isProviderError e.kind then pure none else raise e
    | .ok raw =>
        pure (if raw.getD 0 ≤ flatQty then none
          else if S.precision.dustSafeQty (raw.getD 0) ≤ 0 then none
          else some (S.precision.dustSafeQty (raw.getD 0)))

/-- `_maybe_adopt`: take over an existing position, on fresh state only. -/
def maybeAdopt : DcaM Unit := do
  let s ← state
  if S.params.adoptCost ≤ 0 ∨ s.adopted = true then pure ()
  else if flatQty < s.qty ∨ s.orders ≠ [] ∨ s.cycle ≠ 1 ∨ 0 < s.spent then pure ()
  else do
    let found ← adoptableQty S
    match found with
    | none => pure ()
    | some qty => do
        update (fun s => { s with
          qty := qty
          cost := qty * S.params.adoptCost
          entryPrice := some S.params.adoptCost
          lastBuyPrice := some S.params.adoptCost
          adopted := true })
        save S

/-- After a balance refusal the position is checked against the venue once: whether to go on. -/
def ledgerGate : DcaM Bool := do
  let s ← state
  if !S.dryRun && s.ledgerReconcileRequired && flatQty < s.qty && s.orders = [] then do
    let answer ← ask S.venue.freeBalance (fun _ => none)
    match answer with
    | .error e => if isProviderError e.kind || e.kind = .value then pure false else raise e
    | .ok none => pure false
    | .ok (some ledgerQty) =>
        let tolerance := max (2 / 10 ^ max S.precision.volumeDecimals 1) flatQty
        if ledgerQty + tolerance < s.qty then pure false
        else do
          update (fun s => { s with ledgerReconcileRequired := false })
          save S
          pure true
  else pure true

/-- The regime is only read when a policy needs it. -/
def regimeNeeded (held : ℚ) : Bool :=
  S.params.trendOverlay || (flatQty < held &&
    (S.params.dcaTrendBrake || (S.params.tpTrendHold && S.params.tpRegimeGate)))

def overlayHandled (price : ℚ) (sig : Signals) : DcaM Bool :=
  if S.params.trendOverlay then overlayStep S price sig.regime sig.closes else pure false

/-- Everything below the exits. -/
def stepDecide (price held : ℚ) (sig : Signals) : DcaM Unit := do
  let regime := if regimeNeeded S held then some sig.regime else none
  let handled ← overlayHandled S price sig
  let entryPx := entryPriceOf price S.params.entryDiscountPct
  if handled then pure ()
  else if held ≤ flatQty then stepFlat S price entryPx sig
  else stepHeld S price held entryPx regime sig

def stopTaken (price held : ℚ) : DcaM Bool :=
  if flatQty < held then checkStopLoss S price else pure false

/-- Stop-loss first, then an exit that is pending, then the rest. -/
def stepExits (price held : ℚ) (sig : Signals) : DcaM Unit := do
  let stopped ← stopTaken S price held
  if stopped then pure ()
  else do
    let s ← state
    if s.hasPendingMarketExit then pure ()
    else if s.pendingExit.isSome then do
      let _ ← continueMarketExit S price
      pure ()
    else stepDecide S price held sig

/-- While an adoption is pending nothing is bought. -/
def stepAdopt (price : ℚ) (sig : Signals) : DcaM Unit := do
  let s ← state
  if 0 < S.params.adoptCost ∧ s.adopted = false ∧ s.qty ≤ flatQty then do
    maybeAdopt S
    let s ← state
    if s.adopted then stepExits S price s.qty sig else pure ()
  else stepExits S price s.qty sig

def step (price : ℚ) (sig : Signals) : DcaM Unit := do
  let s ← state
  if s.pendingIntent.isSome then pure ()
  else do
    let go ← ledgerGate S
    if go then stepAdopt S price sig else pure ()

/-! ## Runs -/

/-- What may happen next: the calls of the main loop in any order, or the end of the process. -/
inductive Action where
  | reconcile (price : ℚ)
  | step (price : ℚ) (sig : Signals)
  | save
  | adopt
  | restart

def Action.program : Action → DcaM Unit
  | .reconcile price => reconcileOrders S price
  | .step price sig => TradingFleet.SpotDca.step S price sig
  | .save => TradingFleet.SpotDca.save S
  | .adopt => maybeAdopt S
  | .restart => throw .crash

/-- A new process starts from the saved state. -/
def World.restarted (w : World) : World :=
  { w with
    s := w.saved
    postings := w.savedPostings
    writeFailed := false
    paperSeq := 0
    log := ⟨w.s, w.saved, .restarted⟩ :: w.log }

/-- The main loop logs an exception and goes on; a crash is followed by a restart. -/
def World.after {α : Type} : EStateM.Result Stop World α → World
  | .ok _ w => w
  | .error (.raised _) w => w
  | .error .crash w => w.restarted

def World.act (w : World) (a : Action) : World := World.after (a.program S w)

def World.run (w : World) (actions : List Action) : World := actions.foldl (World.act S) w

/-- The strategy before its first tick, with nothing on disk. -/
def World.initial : World := {}

def Reachable (w : World) : Prop := ∃ actions, w = World.initial.run S actions

/-! ## A small configuration -/

/-- 100 per entry and per DCA, take-profit at 10%, stop-loss at 20%. -/
def sampleParams : StratParams where
  entryAmount := 100
  dcaAmount := 100
  dcaDropPct := 10
  takeprofitPct := 10
  maxBudget := 1000
  maxDcaBuys := 3
  orderTtlMin := 60
  stopLossPct := 20
  trendTopup_pos := by norm_num
  entryDiscount_range := by norm_num
  dcaDrop_pos := by norm_num
  takeprofit_range := by norm_num
  stopLoss_nonneg := by norm_num
  sizing := by norm_num

/-- A report without a fee. -/
def sampleStatus (status : Status) (filledQty cost : ℚ) (hqty : 0 ≤ filledQty) (hcost : 0 ≤ cost) :
    OrderStatus where
  status := status
  filledQty := filledQty
  cost := cost
  fee := 0
  filledQty_nonneg := hqty
  cost_nonneg := hcost
  venueStatus_upper := Text.upper_empty

/-- Nothing is filled. -/
def openReport : OrderStatus :=
  sampleStatus .opened 0 0 OrderStatus.nothing_nonneg OrderStatus.nothing_nonneg

/-- One unit is bought at 100. -/
def boughtReport : OrderStatus := sampleStatus .closed 1 100 (by norm_num) (by norm_num)

theorem halfUnit_nonneg : (0 : ℚ) ≤ 1 / 2 := by norm_num

/-- A venue that accepts everything and fills nothing. The order ID is the number of the call. -/
def sampleVenue : Venue where
  save _ := .stored
  preflight _ := .ok (.ok ())
  submit n := .ok (.ok (.native (.value (.text ("O-" ++ toString n)))))
  orderByClientId _ := .ok (.ok .missing)
  orderStatus _ := .ok (.ok openReport)
  cancelOrder _ := .ok (.ok ())
  freeBalance _ := .ok (.ok (some 1000))
  time _ := .ok 1000

/-- The live strategy on a venue, with a digest that is its own input after a letter. -/
def sampleSetup (venue : Venue) : Setup where
  params := sampleParams
  precision := { priceDecimals := 2, volumeDecimals := 2, orderMin_nonneg := PairPrecision.noMinimum }
  pair := "ABCUSD"
  venueLabel := "Kraken"
  dryRun := false
  digest := fun raw => "d" ++ raw
  venue := venue

end TradingFleet.SpotDca
