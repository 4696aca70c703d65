import TradingFleet.Trading212.Engine

set_option autoImplicit false

/-! # Trading 212: reconciliation, decisions and the main loop

`reconcile` takes the portfolio as the truth about the position; `step` decides on entries, exits,
the take-profit and DCAs; `run` calls both and saves. An exception ends the tick and nothing else;
after a crash the process starts again from what is on disk.
-/

namespace TradingFleet.Trading212

open TradingFleet.Text hiding orElse
open TradingFleet.Lifecycle
open TradingFleet.Rounding (roundTo)
open TradingFleet.SpotDca (areClose)

variable (S : Setup)

/-! ## Paper fills -/

def State.bought (s : State) (o : Order) (qty price : ℚ) : State :=
  { s with
    qty := s.qty + qty
    costUsd := s.costUsd + qty * price
    lastBuyPrice := some price
    entryPrice := some (s.entryPrice.getD price)
    spentCash := s.spentCash + o.amount.getD 0
    dcaBuys := if o.kind = .dca then s.dcaBuys + 1 else s.dcaBuys }

def State.sold (s : State) (P : StratParams) (qty price : ℚ) : State :=
  let avg := (nonzero s.avgCost).getD price
  let pnl := sellPnl avg price qty P.fxFeePct
  { s with
    realizedPnlUsd := s.realizedPnlUsd + pnl.1
    realizedNetUsd := s.realizedNetUsd + pnl.2.2
    feesUsd := s.feesUsd + pnl.2.1
    qty := s.qty - qty
    costUsd := max 0 (s.costUsd - avg * qty) }

/-- `_apply_fill`. -/
def applyFill (o : Order) (qty price : ℚ) : StratM Unit :=
  match o.side with
  | .buy => do
      update (fun s => s.bought o qty price)
      let _ ← cancelOpen S .sell
      pure ()
  | .sell => do
      update (fun s => s.sold S.params (min qty s.qty) price)
      let s ← state
      if s.qty ≤ flatQty then do
        mark .closed
        update (fun s => s.nextCycle S.params price)
      else pure ()

/-- `_reconcile_paper`. -/
def reconcilePaper (price : ℚ) : StratM Unit :=
  [Side.buy, Side.sell].forM (fun side => do
    let s ← state
    (s.orders.filter (fun o => o.side = side)).forM (fun o => do
      let s ← state
      if o ∉ s.orders then pure ()
      else match side with
        | .buy => do
            update (fun s => s.removeOrder o)
            applyFill S o o.qty o.limit
        | .sell =>
            if o.market ∨ o.limit ≤ price then do
              update (fun s => s.removeOrder o)
              update (fun s => { s with tpSoldLevels := s.tpSoldLevels ++ o.level.toList })
              applyFill S o o.qty (if o.market then price else o.limit)
            else pure ()))

/-! ## The portfolio -/

/-- `_portfolio_position`: quantity and average price, zero without a holding. -/
def portfolioPosition : StratM (Option (ℚ × ℚ)) := do
  let portfolio ← ask S.venue.portfolio
  pure (portfolio.map (fun positions =>
    match positions.find? (fun p => p.ticker = S.ticker) with
    | some p => (p.quantity, p.averagePrice)
    | none => (0, 0)))

/-- `_active_order_ids`, or the tracked orders when the list cannot be read. -/
def activeIds (s : State) (active : Option (List Active)) : List String :=
  match active with
  | some orders =>
      (orders.filter (fun a => a.ticker = S.ticker)).map (fun a => a.id.getD "None")
  | none => s.orders.map Order.id

/-- What the tick found before it looks at the position. -/
structure Snapshot where
  realQty : ℚ
  realAvg : ℚ
  prevQty : ℚ
  prevAvg : ℚ
  /-- the pending submit whose fill the portfolio shows -/
  pendingForFill : Option Pending
  active : List String

/-- The position of the portfolio, at its average. -/
def State.synced (s : State) (x : Snapshot) : State :=
  { s with qty := x.realQty, costUsd := x.realQty * x.realAvg }

def spent (x : Snapshot) : ℚ := roundTo (x.realQty * x.realAvg / S.fxToUsd) 2

/-- The BUY a growing position is put down to. -/
inductive Source where
  | order (o : Order)
  | pending (p : Pending)
  | none

def Source.kind : Source → Option Kind
  | .order o => some o.kind
  | .pending p => some p.kind
  | .none => Option.none

def Source.counted : Source → Bool
  | .order o => o.dcaCounted
  | _ => false

/-- The first tracked BUY, or the pending one whose fill the portfolio shows. -/
def growthSource (s : State) (x : Snapshot) : Source :=
  match s.orders.find? (fun o => o.side = .buy), x.pendingForFill with
  | some o, _ => .order o
  | none, some p => if p.side = .buy then .pending p else .none
  | none, none => .none

def Source.isDca (source : Source) : Bool := source.kind = some .dca && !source.counted

/-- A DCA order counts once, however many fills it has. -/
def countDca : Source → StratM Unit
  | .order o =>
      if (Source.order o).isDca then update (fun s => s.replaceOrder o { o with dcaCounted := true })
      else pure ()
  | _ => pure ()

/-- The test of the source compares two optional values by identity, so it also holds when there is
neither an order nor a pending submit. -/
def settleGrowth (source : Source) (x : Snapshot) : StratM Unit :=
  match source, x.pendingForFill with
  | .pending p, _ => do
      mark (.filled p)
      persistPendingSubmit S none
  | .none, none => do
      mark .unexplained
      persistPendingSubmit S none
  | _, _ => pure ()

/-- The position grew. -/
def positionGrew (x : Snapshot) (cache : Cache) : StratM Cache := do
  let fq := x.realQty - x.prevQty
  let (exact, cache) ← exactExecutionPrice S .buy fq cache
  let fp := (nonzero exact).getD ((x.realAvg * x.realQty - x.prevAvg * x.prevQty) / fq)
  let s ← state
  let source := growthSource s x
  countDca source
  update (fun s => { s.synced x with
    lastBuyPrice := some fp
    entryPrice := some (s.entryPrice.getD fp)
    dcaBuys := if source.isDca then s.dcaBuys + 1 else s.dcaBuys
    spentCash := spent S x })
  settleGrowth S source x
  let _ ← cancelOpen S .sell
  pure cache

/-- The position shrank. -/
def positionShrank (x : Snapshot) (price : ℚ) (cache : Cache) : StratM Cache := do
  let sold := x.prevQty - x.realQty
  let (exact, cache) ← exactExecutionPrice S .sell sold cache
  let sellPrice := (nonzero exact).getD price
  let pnl := sellPnl x.prevAvg sellPrice sold S.params.fxFeePct
  update (fun s => { s.synced x with
    realizedPnlUsd := s.realizedPnlUsd + pnl.1
    realizedNetUsd := s.realizedNetUsd + pnl.2.2
    feesUsd := s.feesUsd + pnl.2.1
    spentCash := spent S x
    lastSellPrice := some sellPrice })
  match x.pendingForFill with
  | some p =>
      if p.side = .sell then do
        mark (.filled p)
        persistPendingSubmit S none
      else pure ()
  | none => pure ()
  pure cache

/-- A SELL that filled takes its level off the ladder. -/
def noteSold (o : Order) (status : OrderStatus) : StratM Unit :=
  if o.side = .sell ∧ flatQty < status.filledQty then
    update (fun s => { s with tpSoldLevels := s.tpSoldLevels ++ o.level.toList })
  else pure ()

/-- An order that is not active leaves with a terminal status; an old BUY is cancelled. -/
def sweepOrder (x : Snapshot) (price : ℚ) (cache : Cache) (o : Order) : StratM Cache :=
  if startsWith o.id "PAPER" then pure cache
  else if o.id ∉ x.active then do
    let (status, cache) ← trackedOrderStatus S o cache
    match status with
    | none => pure cache
    | some status =>
        if status.status.terminal then do
          noteSold o status
          update (fun s => s.removeOrder o)
          pure cache
        else pure cache
  else if o.side = .buy then do
    let t ← ask S.venue.time
    if S.params.orderTtlMin < (t - o.ts) / 60 ∧ o.limit * (1003 / 1000) < price then do
      let _ ← cancelSpecific S o
      pure cache
    else pure cache
  else pure cache

/-- A growth within five minutes of "nothing is owned" is an old snapshot. -/
def staleSnapshot (x : Snapshot) : StratM Bool := do
  let s ← state
  if x.prevQty + qtyStep < x.realQty then do
    let t ← ask S.venue.time
    pure (t < s.lockedZeroUntil)
  else pure false

/-- The position becomes the one of the portfolio. -/
def takePosition (x : Snapshot) (price : ℚ) : StratM Cache :=
  if x.prevQty + qtyStep < x.realQty then positionGrew S x []
  else if x.realQty < x.prevQty - qtyStep then positionShrank S x price []
  else do
    update (fun s => { s.synced x with
      spentCash := if flatQty < x.realQty then spent S x else s.spentCash })
    pure []

/-- The last share was sold. -/
def closeCycle (x : Snapshot) (price : ℚ) : StratM Unit :=
  if x.realQty ≤ flatQty ∧ flatQty < x.prevQty then do
    mark .closed
    update (fun s => s.nextCycle S.params ((nonzero s.lastSellPrice).getD price))
  else pure ()

/-- `_reconcile_real` after the position was read. -/
def reconcilePosition (x : Snapshot) (price : ℚ) : StratM Unit := do
  if ← staleSnapshot S x then pure ()
  else do
    let cache ← takePosition S x price
    let s ← state
    let _ ← s.orders.foldlM (sweepOrder S x price) cache
    closeCycle S x price

/-- `_reconcile_real`. -/
def reconcileReal (price : ℚ) : StratM Unit := do
  match ← portfolioPosition S with
  | none => do
      let _ ← ask S.venue.time
      pure ()
  | some (realQty, realAvg) => do
      let active ← ask S.venue.activeOrders
      let outcome ← recoverPendingSubmit S realQty active
      let s ← state
      reconcilePosition S
        { realQty := realQty
          realAvg := realAvg
          prevQty := s.qty
          prevAvg := (nonzero s.avgCost).getD realAvg
          pendingForFill := if outcome = .filled then s.pendingSubmit else none
          active := activeIds S s active } price

def reconcile (price : ℚ) : StratM Unit :=
  if S.dryRun then reconcilePaper S price else reconcileReal S price

/-! ## Exits -/

/-- A protective exit sells everything at the market, once. -/
def protectiveExit (kind : Kind) (price : ℚ) : StratM Unit := do
  let s ← state
  let again := match s.orders.find? (fun o => o.kind = kind) with
    | none => true
    | some o => !o.market && price < o.limit
  if again then do
    if ← cancelAllOrders S then do
      let s ← state
      if ← placeSell S s.qty (roundTo price 2) none kind true then
        update (fun s => { s with slPending := true })
      else pure ()
    else pure ()
  else pure ()

/-- `_check_trailing`. -/
def checkTrailing (price : ℚ) : StratM Bool := do
  let s ← state
  if S.params.trailPct ≤ 0 ∨ s.qty ≤ flatQty then do
    update (fun s => { s with posPeak := 0, trArmed := false })
    pure false
  else if !s.trArmed && 0 < S.params.trailMinProfitPct &&
      (match nonzero s.avgCost with
      | none => true
      | some avg => price < avg * (1 + S.params.trailMinProfitPct / 100)) then pure false
  else do
    update (fun s => if s.trArmed then s else { s with trArmed := true, posPeak := price })
    update (fun s => if s.posPeak < price then { s with posPeak := price } else s)
    let s ← state
    if s.posPeak ≤ 0 then pure false
    else if (s.posPeak - price) / s.posPeak * 100 < S.params.trailPct then pure false
    else do
      protectiveExit S .tr price
      pure true

/-- `_check_stop_loss`. -/
def checkStopLoss (price : ℚ) : StratM Bool := do
  let s ← state
  if S.params.stopLossPct ≤ 0 then pure false
  else match nonzero s.avgCost with
    | none => pure false
    | some avg =>
        if (avg - price) / avg * 100 < S.params.stopLossPct then do
          update (fun s => { s with slPending := false })
          pure false
        else do
          protectiveExit S .sl price
          pure true

/-! ## The take-profit -/

/-- `abs(x - target) / target`. -/
def relativeGap (x target : ℚ) : StratM ℚ :=
  if target = 0 then raise ⟨.other, "ZeroDivisionError", "float division by zero"⟩
  else pure (|x - target| / target)

/-- The tracked order no longer is what `limit` and `qty` ask for. -/
def outdated (o : Order) (qty limit : ℚ) : StratM Bool := do
  let gap ← relativeGap o.limit limit
  pure (decide (1 / 1000 < gap ∨ 1 / 10 ^ 6 < |o.qty - qty|))

/-- Also after a cancel was requested, which is written into the order. -/
def State.stillTracks (s : State) (o : Order) : Bool :=
  o ∈ s.orders || { o with cancelRequested := true } ∈ s.orders

/-- Levels of which a SELL is tracked; one that leaves at once is taken off. -/
def staleLevels (desired : List (ℚ × ℚ × ℚ)) (levels : List ℚ) (level : ℚ) :
    StratM (List ℚ) := do
  let s ← state
  match s.orders.reverse.find? (fun o => o.side = .sell ∧ o.level = some level) with
  | none => pure levels
  | some o => do
      let stale ← match desired.find? (fun d => d.1 = level) with
        | none => pure true
        | some (_, qty, limit) => outdated o qty limit
      if stale then do
        let cancelled ← cancelSpecific S o
        let s ← state
        pure (if cancelled && !s.stillTracks o then levels.erase level else levels)
      else pure levels

/-- A level without a SELL, unless its last placement failed within the last half hour. -/
def placeLevel (levels : List ℚ) (now : ℚ) (d : ℚ × ℚ × ℚ) : StratM Unit := do
  let s ← state
  if d.1 ∈ levels then pure ()
  else if now < ((s.tpFailUntil.find? (fun f => f.1 = d.1)).map Prod.snd).getD 0 then pure ()
  else do
    if ← placeSell S d.2.1 d.2.2 (some d.1) .tp false then pure ()
    else update (fun s => { s with
      tpFailUntil := (d.1, now + 1800) :: s.tpFailUntil.filter (fun f => f.1 ≠ d.1) })

/-- SELLs without a level are cancelled first; `false` while one of them is still tracked. -/
def clearPlainSells : List Order → StratM Bool
  | [] => pure true
  | o :: rest => do
      if ← cancelSpecific S o then do
        let s ← state
        if s.stillTracks o then pure false else clearPlainSells rest
      else pure false

/-- `_manage_tp_ladder`. -/
def manageTpLadder (held avg : ℚ) : StratM Unit := do
  let s ← state
  if ← clearPlainSells S (s.orders.filter (fun o => o.side = .sell ∧ o.level = none)) then do
    let s ← state
    let desired := ladderDesired S.params s held avg
    if ((unsoldLevels S.params s).map Prod.snd).sum ≤ 0 ∨ held ≤ flatQty then pure ()
    else do
      let levels := ((s.orders.filter (fun o => o.side = .sell)).filterMap Order.level).eraseDups
      let levels ← levels.foldlM (staleLevels S desired) levels
      let now ← ask S.venue.time
      desired.forM (placeLevel S levels now)
  else pure ()

/-- One SELL of everything at the target. -/
def manageTp (held avg : ℚ) : StratM Unit := do
  let target := avg * (1 + S.params.takeprofitPct / 100)
  let s ← state
  match s.findOpen .sell with
  | none => do
      let _ ← placeSell S held target none .tp false
      pure ()
  | some o => do
      if ← outdated o held target then do
        if ← cancelOpen S .sell then do
          let s ← state
          if s.stillTracks o then pure ()
          else do
            let _ ← placeSell S held target none .tp false
            pure ()
        else pure ()
      else pure ()

/-! ## Buying -/

/-- `_handle_sl_rebuy`. -/
def handleSlRebuy (price : ℚ) (rebuy : SlRebuy) : StratM Unit := do
  let low := min rebuy.low price
  update (fun s => { s with slRebuy := some { rebuy with low := low } })
  if price < low * (1 + S.params.slRebuyBouncePct / 100) then pure ()
  else do
    update (fun s => { s with slRebuy := none })
    let s ← state
    if S.params.maxBudget < s.spentCash + S.params.entryAmount then pure ()
    else placeBuy S S.params.entryAmount (price * (1 - S.params.entryDiscountPct / 100)) .entry

/-- Not above the previous sale. -/
def reentryBlocked (s : State) (price : ℚ) : Bool :=
  match nonzero s.lastSellPrice with
  | none => false
  | some last =>
      let threshold := last * (1 - S.params.reentryDropPct / 100)
      0 < S.params.reentryDropPct && threshold < price &&
        !areClose price threshold S.params.reentryTolerancePct

/-- Nothing is held. -/
def enter (price : ℚ) (inBackoff : Bool) : StratM Unit := do
  let s ← state
  if inBackoff ∨ s.hasOpen .buy then pure ()
  else match s.slRebuy with
    | some rebuy => handleSlRebuy S price rebuy
    | none =>
        if reentryBlocked S s price ∨ S.params.maxBudget < s.spentCash + S.params.entryAmount then
          pure ()
        else placeBuy S S.params.entryAmount (price * (1 - S.params.entryDiscountPct / 100)) .entry

/-- The price is a DCA step below the last BUY. -/
def dcaDue (s : State) (price : ℚ) : Bool :=
  match nonzero (s.lastBuyPrice.map (fun last => last * (1 - S.params.dcaDropPct / 100))) with
  | none => false
  | some threshold =>
      price ≤ threshold || areClose price threshold S.params.reentryTolerancePct

/-- `false` while a downtrend blocks DCAs. -/
def trendAllows : StratM Bool :=
  if S.params.dcaTrendGatePct ≤ 0 then pure true
  else do
    let t ← ask S.venue.time
    let w ← get
    if t < w.dcaGateUntil then pure false
    else do
      let slope ← ask S.venue.trendSlope
      if slope.any (fun x => x < -S.params.dcaTrendGatePct) then do
        let t ← ask S.venue.time
        modify (fun w => { w with dcaGateUntil := t + 300 })
        pure false
      else pure true

def considerDca (price : ℚ) (inBackoff : Bool) : StratM Unit := do
  let s ← state
  if !inBackoff && (s.dcaBuys : Int) < S.params.maxDcaBuys && dcaDue S s price &&
      s.spentCash + S.params.dcaAmount ≤ S.params.maxBudget && !s.hasOpen .buy then do
    if ← trendAllows S then
      placeBuy S S.params.dcaAmount (price * (1 - S.params.entryDiscountPct / 100)) .dca
    else pure ()
  else pure ()

/-! ## The main loop -/

/-- `step`. -/
def step (price : ℚ) : StratM Unit := do
  let s ← state
  let held := s.qty
  let t ← ask S.venue.time
  let inBackoff := decide (t < s.buyBackoffUntil)
  if held ≤ flatQty then enter S price inBackoff
  else if ← checkTrailing S price then pure ()
  else if ← checkStopLoss S price then pure ()
  else do
    let s ← state
    match nonzero s.avgCost with
    | some avg =>
        if S.params.enableTakeprofit then
          if S.params.tpLadder.isEmpty then manageTp S held avg else manageTpLadder S held avg
        else pure ()
    | none => pure ()
    considerDca S price inBackoff

/-- One turn of `run`. After a failed write nothing is decided before a write succeeds. -/
def tick (price : ℚ) : StratM Unit := do
  let w ← get
  mark (.tick w.saved)
  if w.writeFailed then save S else pure ()
  reconcile S price
  step S price
  save S

/-- A new process. -/
def World.restarted (w : World) : World :=
  { w with
    s := w.saved
    writeFailed := false
    paperSeq := 0
    dcaGateUntil := 0
    log := ⟨w.s, .restarted⟩ :: w.log }

inductive Action where
  | tick (price : ℚ)
  | restart

/-- An exception ends the tick; a crash is followed by a restart. -/
def World.after {α : Type} : EStateM.Result Stop World α → World
  | .ok _ w => w
  | .error (.raised _) w => w
  | .error .crash w => w.restarted

def World.act (w : World) : Action → World
  | .tick price => World.after (tick S price w)
  | .restart => w.restarted

def World.run (w : World) (actions : List Action) : World := actions.foldl (World.act S) w

/-- The strategy before its first tick, with nothing on disk. -/
def World.initial : World := {}

def Reachable (w : World) : Prop := ∃ actions, w = World.initial.run S actions

/-- A report of one share at 100. -/
def boughtOne : OrderStatus := ⟨.closed, 1, 100, 0, "", by decide, by decide, upper_empty⟩

end TradingFleet.Trading212
