import TradingFleet.Basic.Hoare
import TradingFleet.Hyperliquid.Types

set_option autoImplicit false

/-! # The delta-neutral strategy: one tick

`tick` of `delta_neutral.py` with everything it calls, and one pass of the loop of `run` around
it. The client's answers are numbered by the orders of the tick. The loop catches every
exception, and what a tick wrote before one stays.
-/

namespace TradingFleet.Hyperliquid

/-- What a tick is told from outside. -/
structure Venue where
  /-- the clock at an adoption, at the beginning of the decision and at a change of status -/
  adoptedAt : ℚ
  now : ℚ
  changedAt : ℚ
  answer : Nat → Answer
  /-- `position_full(coin)["liquidationPx"]`, or `none` without a position -/
  liquidationPx : Option ℚ
  /-- `spot_balance("USDC")` -/
  freeUsdc : ℚ

/-- The state, and the orders of this tick. -/
structure Machine where
  bot : State
  orders : List Order := []

abbrev DnM := EStateM String Machine

def zeroDivision : String := "float division by zero"

def change (f : State → State) : DnM Unit := modify (fun m => { m with bot := f m.bot })

/-- An `if` without an `else`. -/
def onlyIf (c : Prop) [Decidable c] (x : DnM Unit) : DnM Unit := if c then x else pure ()

section Tick

variable (D : DeltaNeutral) (V : Venue)

/-! ## Execution -/

/-- `_record`. -/
def record (ok : Bool) (sz px : ℚ) : DnM Unit :=
  change (fun s =>
    if ok then { s with orderFails := 0, feesPaid := s.feesPaid + D.p.feePct / 100 * sz * px }
    else { s with orderFails := s.orderFails + 1 })

/-- What a filled order is on paper. -/
def State.book (s : State) (o : Order) : State :=
  match o.leg with
  | .spot => { s with spotQty := s.spotQty + o.change }
  | .perp => { s with perpSzi := s.perpSzi + o.change }

/-- The common body of the four order helpers. A size that rounds to nothing and a dust order
are not sent. -/
def submit (cause : Cause) (leg : Leg) (buys reduceOnly : Bool) (sz px : ℚ) : DnM Unit := do
  let sz := D.round sz
  if sz ≤ 0 ∨ sz * px < minOrderUsd then pure ()
  else
    let m ← get
    let o : Order := ⟨cause, leg, buys, sz, px * (if buys then 1001 / 1000 else 999 / 1000),
      reduceOnly⟩
    set { m with orders := m.orders ++ [o] }
    if D.dryRun then
      change (fun s => s.book o)
      record D true sz px
    else
      match V.answer m.orders.length with
      | .raised e => throw e
      | .answered ok => record D ok sz px

/-- `_buy_spot`. -/
def buySpot (cause : Cause) (sz px : ℚ) : DnM Unit := submit D V cause .spot true false sz px

/-- `_sell_spot`. -/
def sellSpot (cause : Cause) (sz px : ℚ) : DnM Unit := submit D V cause .spot false false sz px

/-- `_short_perp`. -/
def shortPerp (cause : Cause) (sz px : ℚ) : DnM Unit := submit D V cause .perp false false sz px

/-- `_cover_perp`. -/
def coverPerp (cause : Cause) (sz px : ℚ) : DnM Unit := submit D V cause .perp true true sz px

/-! ## Actions -/

variable (L : Reading)

/-- `_open`. -/
def openLegs : DnM Unit := do
  if L.perpPx = 0 then throw zeroDivision
  else
    let sz := D.round (D.p.notional / L.perpPx)
    buySpot D V .opening sz L.spotPx
    shortPerp D V .opening sz L.perpPx
    change (fun s => { s with status := .opened, targetSz := sz, openedTs := some V.changedAt })

/-- `_close`. -/
def closeLegs : DnM Unit := do
  let szSpot := D.round L.spotQty
  let szPerp := D.round |L.perpSzi|
  onlyIf (0 < szSpot) (sellSpot D V .closing szSpot L.spotPx)
  onlyIf (0 < szPerp) (coverPerp D V .closing szPerp L.perpPx)
  change (fun s => s.restarted)

/-- `_go_flat`. -/
def goFlat (cooldownS : ℚ) : DnM Unit :=
  change (fun s => s.restarted (V.changedAt + cooldownS))

/-- The first half of `_rebalance`: a large drift is confirmed by a second tick. -/
def driftConfirmed : DnM Bool := do
  let m ← get
  if largeDrift m.bot.targetSz L then
    change (fun s => { s with driftCount := s.driftCount + 1 })
    pure (decide (2 ≤ m.bot.driftCount + 1))
  else
    change (fun s => { s with driftCount := 0 })
    pure true

/-- The second half: each leg outside the tolerance moves to the target. -/
def correctLegs (target : ℚ) : DnM Unit := do
  let dSpot := driftSpot target L
  let dPerp := driftPerp target L
  onlyIf (D.tolerance target < |dSpot|)
    (if 0 < dSpot then buySpot D V .rebalancing |dSpot| L.spotPx
      else sellSpot D V .rebalancing |dSpot| L.spotPx)
  onlyIf (D.tolerance target < |dPerp|)
    (if 0 < dPerp then shortPerp D V .rebalancing |dPerp| L.perpPx
      else coverPerp D V .rebalancing |dPerp| L.perpPx)
  change (fun s => { s with driftCount := 0 })

/-- `_rebalance`. -/
def rebalance : DnM Unit := do
  let m ← get
  let confirmed ← driftConfirmed L
  onlyIf (confirmed = true) (correctLegs D V L m.bot.targetSz)

/-- What an unprotected remainder is closed with. -/
def closeRemainder : DnM Unit := do
  let m ← get
  onlyIf (pattern m.bot.targetSz L = .perpGone ∧ 0 < L.spotQty)
    (sellSpot D V .orphan L.spotQty L.spotPx)
  onlyIf (pattern m.bot.targetSz L = .spotGone ∧ 0 < |L.perpSzi|)
    (coverPerp D V .orphan |L.perpSzi| L.perpPx)
  goFlat V 3600

/-- `_check_legs_integrity`. Leftover orders are cancelled as far as possible, which changes
nothing here. -/
def checkLegsIntegrity : DnM Bool := do
  let m ← get
  if m.bot.targetSz ≤ 0 then
    goFlat V 0
    pure true
  else
    match pattern m.bot.targetSz L with
    | .bothGone =>
        change (fun s => { s with goneCount := s.goneCount + 1 })
        onlyIf (2 ≤ m.bot.goneCount + 1) (goFlat V 3600)
        pure true
    | .whole =>
        change (fun s => { s with orphanCount := 0, goneCount := 0 })
        pure false
    | _ =>
        change (fun s => { s with orphanCount := s.orphanCount + 1 })
        onlyIf (2 ≤ m.bot.orphanCount + 1 ∧ D.p.autoProtect) (closeRemainder D V L)
        pure true

/-! ## Liquidation -/

/-- `dist_pct`: the liquidation of a short lies above the price. -/
def liqDistance (liq : ℚ) : ℚ := (liq - L.perpPx) / L.perpPx * 100

def nearLiquidation : Bool :=
  match V.liquidationPx with
  | none => false
  | some liq => 0 < liq && 0 < liqDistance L liq && liqDistance L liq ≤ D.p.liqAlertPct

/-- `cut`. -/
def protectiveCut : ℚ := D.round (|L.perpSzi| * D.p.reducePct / 100)

/-- Whether both legs are about to be reduced. -/
def reduces : Bool := nearLiquidation D V L && D.p.autoProtect && 0 < protectiveCut D L

/-- `_check_liq`. -/
def checkLiq : DnM Bool := do
  let liq := V.liquidationPx.getD 0
  if liq ≤ 0 then pure false
  else if L.perpPx = 0 then throw zeroDivision
  else
    change (fun s =>
      if nearLiquidation D V L then { s with liqAlerted := true }
      else if D.p.liqAlertPct * (3 / 2) < liqDistance L liq then { s with liqAlerted := false }
      else s)
    if reduces D V L then
      let cut := protectiveCut D L
      coverPerp D V .protection cut L.perpPx
      sellSpot D V .protection cut L.spotPx
      change (fun s => { s with targetSz := max 0 (s.targetSz - cut) })
      pure true
    else pure false

/-! ## Scaling up -/

/-- The target that `_maybe_scale_up` leaves. -/
def scaledTarget (target : ℚ) : ℚ :=
  if !D.p.allowScaleUp then target
  else if D.p.notional * (95 / 100) ≤ target * L.perpPx then target
  else
    let want := D.round (D.p.notional / L.perpPx)
    let add := D.round (want - target)
    if add ≤ 0 then target
    else if D.dryRun then want
    else if V.freeUsdc < add * L.spotPx then
      let aff := D.round (V.freeUsdc * (95 / 100) / L.spotPx)
      if aff ≤ 0 then target else D.round (target + aff)
    else want

/-- `_maybe_scale_up`. -/
def maybeScaleUp : DnM Unit := do
  let m ← get
  if D.p.allowScaleUp ∧ m.bot.targetSz * L.perpPx < D.p.notional * (95 / 100) ∧ L.perpPx = 0 then
    throw zeroDivision
  else change (fun s => { s with targetSz := scaledTarget D V L s.targetSz })

/-! ## The decision -/

/-- The funding rates of the window, with this tick's. -/
def recentFunding (hist : List (ℚ × ℚ)) : List (ℚ × ℚ) :=
  (hist ++ [(V.now, L.funding)]).filter (fun x => V.now - x.1 ≤ D.p.fundingWindowH * 3600)

/-- `avg_f`. -/
def averageFunding (hist : List (ℚ × ℚ)) : ℚ :=
  ((recentFunding D V L hist).map Prod.snd).sum / (recentFunding D V L hist).length

/-- `held_h`. A zero timestamp counts as absent. -/
def heldHours (openedTs : Option ℚ) : ℚ :=
  (V.now - if openedTs.getD 0 = 0 then V.now else openedTs.getD 0) / 3600

/-- Close only below the average threshold after the minimum hold period. -/
def closes (s : State) : Bool :=
  averageFunding D V L s.fundingHist < D.p.exitFundingHr && D.p.minHoldH ≤ heldHours V s.openedTs

/-- Both legs are in the account. -/
def twoLegged : Bool := 1 / 1000000 < |L.spotQty| && 1 / 1000000 < |L.perpSzi|

/-- An existing position of the account is adopted rather than opened again. -/
def adopted (s : State) : State :=
  if !D.dryRun ∧ s.status = .flat ∧ twoLegged L then
    { s with
      status := .opened
      targetSz := Rounding.roundTo ((|L.spotQty| + |L.perpSzi|) / 2) 6
      openedTs := if s.openedTs.getD 0 = 0 then some V.adoptedAt else s.openedTs }
  else s

/-- A tick that starts flat. -/
def tickFlat (average : ℚ) : DnM Unit := do
  let m ← get
  if V.now < m.bot.cooldownUntil then pure ()
  else if D.p.entryFundingHr ≤ average then openLegs D V L
  else pure ()

/-- A tick with a position. Without a close, both remaining branches rebalance. -/
def tickOpen (close : Bool) : DnM Unit := do
  let handled ← checkLegsIntegrity D V L
  onlyIf (handled = false) (do
    change (fun s => { s with
      fundingAccrued := s.fundingAccrued +
        L.funding * |L.perpSzi| * L.perpPx * (D.p.checkMinutes / 60) })
    let reduced ← checkLiq D V L
    onlyIf (reduced = false) (maybeScaleUp D V L)
    if close then closeLegs D V L
    else onlyIf (reduced = false) (rebalance D V L))

/-- `tick`. -/
def tick : DnM Unit := do
  change (adopted D V L)
  if L.spotPx = 0 then throw zeroDivision
  else
    let m ← get
    change (fun s => { s with fundingHist := recentFunding D V L s.fundingHist })
    if recentFunding D V L m.bot.fundingHist = [] then throw zeroDivision
    else if m.bot.status = .flat then tickFlat D V L (averageFunding D V L m.bot.fundingHist)
    else tickOpen D V L (closes D V L m.bot)

end Tick

/-! ## The loop -/

/-- What `legs` is told; the strict reads of the account may raise. -/
structure Quotes where
  spotPx : Option ℚ
  perpPx : Option ℚ
  funding : Option ℚ
  account : Option (ℚ × ℚ)

/-- `legs`. -/
def legs (D : DeltaNeutral) (q : Quotes) (s : State) : Option Reading × State :=
  match q.spotPx, q.perpPx, q.funding with
  | some spotPx, some perpPx, some funding =>
      if D.dryRun then (some ⟨spotPx, perpPx, funding, s.spotQty, s.perpSzi⟩, s)
      else
        match q.account with
        | none => (none, s)
        | some (spotQty, perpSzi) =>
            (some ⟨spotPx, perpPx, funding, spotQty, perpSzi⟩,
              { s with spotQty := spotQty, perpSzi := perpSzi })
  | _, _, _ => (none, s)

def ended {α : Type} : EStateM.Result String Machine α → Machine
  | .ok _ m => m
  | .error _ m => m

/-- What one pass of the loop is told. -/
structure Input where
  quotes : Quotes
  venue : Venue

/-- One pass of the loop. -/
def pass (D : DeltaNeutral) (s : State) (i : Input) : Machine :=
  match legs D i.quotes s with
  | (none, s') => ⟨s', []⟩
  | (some L, s') => ended (tick D i.venue L ⟨s', []⟩)

end TradingFleet.Hyperliquid
