import TradingFleet.Replay.Execution
import TradingFleet.SpotDca.Step

set_option autoImplicit false

/-! # The strategy under the replay

`kraken/replay.py` runs the strategy in paper mode and puts its own functions in two places: the
balance of the client, and `_place`, where it refuses a BUY that the account cannot pay. A tick
with these two open is `stepWith`; with the functions of the strategy itself it is the tick of
`SpotDca` (`stepWith_own`). Only what leads to a BUY or to a balance is written again here.
-/

namespace TradingFleet.Replay

open TradingFleet.SpotDca
open TradingFleet.Lifecycle hiding orRaise
open TradingFleet.Rounding (roundTo)

/-! ## A tick with open ends -/

/-- What the replay puts in place of `self._place` for a BUY, and of `client.free_balance`. -/
structure Hooks where
  buy : Instruction → DcaM Bool
  freeBalance : DcaM (Except Exc Raw)

variable (S : Setup) (H : Hooks)

def placeDcaWith (amount entryPx : ℚ) : DcaM Unit := do
  let answer ← H.freeBalance
  match answer with
  | .error _ => pure ()
  | .ok none => pure ()
  | .ok (some freeQuote) => do
      let s ← state
      if freeQuote < 0 then pure ()
      else do
        let available := min freeQuote (S.params.effectiveMaxBudget - s.spent)
        let order := dcaOrder S amount available entryPx
        if order.1 ≤ 0 ∨ order.1 < S.precision.orderMin then pure ()
        else do
          let _ ← H.buy
            { side := .buy, vol := order.1, price := order.2, kind := .dca,
              amount := min amount available }
          pure ()

def stepDcaWith (price entryPx : ℚ) (regime : Option RegimeDecision) (sig : Signals) :
    DcaM Unit := do
  let scale ← orRaise sig.dcaScale
  let s ← state
  if dcaDue S s price regime then placeDcaWith S H (effectiveDcaAmount S scale) entryPx
  else pure ()

def stepHeldWith (price held entryPx : ℚ) (regime : Option RegimeDecision) (sig : Signals) :
    DcaM Unit := do
  let s ← state
  let ended ← takeProfit S price (s.avg.getD 0) held regime sig
  if ended then pure () else stepDcaWith S H price entryPx regime sig

def stepFlatWith (price entryPx : ℚ) (sig : Signals) : DcaM Unit := do
  let s ← state
  if s.hasOpen .buy then pure ()
  else do
    update (fun s => { s with slLow := (reentryBlocked S s price sig).2 })
    if (reentryBlocked S s price sig).1 then pure ()
    else if S.params.effectiveMaxBudget < s.spent + S.params.effectiveEntryAmount then pure ()
    else do
      let _ ← H.buy
        { side := .buy, vol := S.precision.qtyFor S.params.effectiveEntryAmount entryPx,
          price := entryPx, kind := .entry, amount := S.params.effectiveEntryAmount }
      pure ()

def overlayEnterWith (price : ℚ) : DcaM Unit := do
  let _ ← cancelOrders S (some .buy) false
  let _ ← cancelOrders S (some .sell) false
  let s ← state
  if s.orders ≠ [] then pure ()
  else do
    let _ ← H.buy
      { side := .buy, vol := S.precision.qtyFor S.params.trendTopup price, price := price,
        kind := .trendEntry, amount := S.params.trendTopup }
    pure ()

def overlayStepWith (price : ℚ) (regime : RegimeDecision) (closes : List ℚ) : DcaM Bool := do
  let s ← state
  let up := regimeMatches (some regime) .bull 0 S.params.regimeMinSamples
  if s.trendMode then do
    overlayHold S price closes
    pure true
  else if s.orders.any (fun o => o.side = .buy && o.kind = .trendEntry) then
    if up then pure true
    else do
      let _ ← cancelOpen S .buy
      pure false
  else if up && s.spent + S.params.trendTopup ≤ S.params.effectiveMaxBudget then do
    overlayEnterWith S H price
    pure true
  else pure false

def adoptableQtyWith : DcaM (Option ℚ) :=
  if 0 < S.params.adoptQty then
    pure (if S.params.adoptQty ≤ flatQty then none else some S.params.adoptQty)
  else do
    let answer ← H.freeBalance
    match answer with
    | .error e => if isProviderError e.kind then pure none else raise e
    | .ok raw =>
        pure (if raw.getD 0 ≤ flatQty then none
          else if S.precision.dustSafeQty (raw.getD 0) ≤ 0 then none
          else some (S.precision.dustSafeQty (raw.getD 0)))

def maybeAdoptWith : DcaM Unit := do
  let s ← state
  if S.params.adoptCost ≤ 0 ∨ s.adopted = true then pure ()
  else if flatQty < s.qty ∨ s.orders ≠ [] ∨ s.cycle ≠ 1 ∨ 0 < s.spent then pure ()
  else do
    let found ← adoptableQtyWith S H
    match found with
    | none => pure ()
    | some qty => do
        update (fun s => { s with
          qty := qty
          cost := qty * S.params.adoptCost
          entryPrice := some S.params.adoptCost
          lastBuyPrice := some S.params.adoptCost
          adopted := true })
        save S

def overlayHandledWith (price : ℚ) (sig : Signals) : DcaM Bool :=
  if S.params.trendOverlay then overlayStepWith S H price sig.regime sig.closes else pure false

def stepDecideWith (price held : ℚ) (sig : Signals) : DcaM Unit := do
  let regime := if regimeNeeded S held then some sig.regime else none
  let handled ← overlayHandledWith S H price sig
  let entryPx := entryPriceOf price S.params.entryDiscountPct
  if handled then pure ()
  else if held ≤ flatQty then stepFlatWith S H price entryPx sig
  else stepHeldWith S H price held entryPx regime sig

def stepExitsWith (price held : ℚ) (sig : Signals) : DcaM Unit := do
  let stopped ← stopTaken S price held
  if stopped then pure ()
  else do
    let s ← state
    if s.hasPendingMarketExit then pure ()
    else if s.pendingExit.isSome then do
      let _ ← continueMarketExit S price
      pure ()
    else stepDecideWith S H price held sig

def stepAdoptWith (price : ℚ) (sig : Signals) : DcaM Unit := do
  let s ← state
  if 0 < S.params.adoptCost ∧ s.adopted = false ∧ s.qty ≤ flatQty then do
    maybeAdoptWith S H
    let s ← state
    if s.adopted then stepExitsWith S H price s.qty sig else pure ()
  else stepExitsWith S H price s.qty sig

/-- `step`. In paper mode the check of the ledger against the venue always passes. -/
def stepWith (price : ℚ) (sig : Signals) : DcaM Unit := do
  let s ← state
  if s.pendingIntent.isSome then pure ()
  else do
    let go ← ledgerGate S
    if go then stepAdoptWith S H price sig else pure ()

/-- The functions of the strategy itself. -/
def ownHooks : Hooks where
  buy := place S
  freeBalance := ask S.venue.freeBalance (fun _ => none)

/-- **With its own functions it is the tick of the strategy.** -/
theorem stepWith_own (price : ℚ) (sig : Signals) :
    stepWith S (ownHooks S) price sig = step S price sig := rfl

end TradingFleet.Replay
