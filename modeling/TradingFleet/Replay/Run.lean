import TradingFleet.Replay.Tick

set_option autoImplicit false

/-! # One replay with a cash account

`_run_once` of `kraken/replay.py` with an initial cash. The harness fills the orders of the
strategy from the bars and settles them in cash; what it reads from the strategy is its state.
Cash and profit are in exact arithmetic.

Two sums stand beside the account, and nothing reads them: the cost basis that left the ledger
with a quantity below the dust threshold, and the one that came with an adopted position.
-/

namespace TradingFleet.Replay

open TradingFleet.SpotDca
open TradingFleet.Lifecycle hiding orRaise
open TradingFleet.Rounding (roundTo)

/-! ## The arguments -/

/-- A bar, with what the strategy reads from history at its close. -/
structure Bar where
  open_ : ℚ
  high : ℚ
  low : ℚ
  close : ℚ
  sig : Signals := {}

structure RunArgs where
  params : StratParams
  fees : FeeModel
  execution : ExecutionModel
  initialCash : ℚ
  /-- the readings of the clock, which label paper orders -/
  time : Nat → ℚ := fun _ => 0
  cash_pos : 0 < initialCash

/-- The precision that the replay declares. -/
def replayPrecision : PairPrecision where
  priceDecimals := 5
  volumeDecimals := 8
  orderMin := 0
  orderMin_nonneg := PairPrecision.noMinimum

/-- Saving is silent, and there is no venue. -/
def replayVenue (time : Nat → ℚ) : Venue where
  save _ := .stored
  preflight _ := .ok (.error (providerError "replay"))
  submit _ := .ok (.error (providerError "replay"))
  orderByClientId _ := .ok (.error (providerError "replay"))
  orderStatus _ := .ok (.error (providerError "replay"))
  cancelOrder _ := .ok (.error (providerError "replay"))
  freeBalance _ := .ok (.error (providerError "replay"))
  time n := .ok (time n)

/-- The strategy in paper mode. -/
def RunArgs.setup (R : RunArgs) : Setup where
  params := R.params
  precision := replayPrecision
  pair := "REPLAY"
  venueLabel := "Kraken"
  dryRun := true
  digest := id
  venue := replayVenue R.time

variable (R : RunArgs)

/-! ## Funding -/

/-- What an open BUY may still cost. -/
def reservation (F : FeeModel) (o : Order) : ℚ :=
  o.vol * o.price * (1 + F.ratePct o.market / 100)

def reserved (F : FeeModel) (orders : List Order) : ℚ :=
  ((orders.filter (fun o => o.side = .buy)).map (reservation F)).sum

/-- `free_quote`. -/
def freeQuote (cash : ℚ) (s : State) : ℚ := max 0 (cash - reserved R.fees s.orders)

/-- What a BUY requires. -/
def required (i : Instruction) : ℚ :=
  roundTo i.vol replayPrecision.volumeDecimals * roundTo i.price replayPrecision.priceDecimals *
    (1 + R.fees.ratePct i.market / 100)

/-- The tolerance of the check. -/
def tolerance : ℚ := 1 / 10 ^ 9

/-- `traced_place`, for a BUY. A SELL goes to `_place` at once. -/
def tracedPlace (cash : ℚ) (i : Instruction) : DcaM Bool := do
  let s ← state
  if freeQuote R cash s + tolerance < required R i then pure false else place R.setup i

/-- The cash does not change during a tick. -/
def replayHooks (cash : ℚ) : Hooks where
  buy := tracedPlace R cash
  freeBalance := do
    let s ← state
    pure (.ok (some (freeQuote R cash s)))

/-! ## The account -/

structure Book where
  world : World
  cash : ℚ
  minCash : ℚ
  /-- the orders that had a fill, with their original quantity -/
  marks : List (String × ℚ) := []
  discarded : ℚ := 0
  adoptedCost : ℚ := 0

inductive ReplayStop where
  /-- the account is overdrawn -/
  | overdrawn
  /-- an order has nothing left -/
  | nothingLeft
  | strategy (e : Stop)

instance (e : ReplayStop) : Decidable (e = .overdrawn) :=
  match e with
  | .overdrawn => .isTrue rfl
  | .nothingLeft => .isFalse (fun h => by cases h)
  | .strategy _ => .isFalse (fun h => by cases h)

abbrev ReplayM := EStateM ReplayStop Book

/-- What a part of the strategy did to the position, without a fill. -/
def Book.noted (b : Book) (w : World) : Book :=
  { b with
    world := w
    discarded := b.discarded +
      if w.s.qty = 0 ∧ b.world.s.qty < replayPrecision.dust then b.world.s.cost else 0
    adoptedCost := b.adoptedCost +
      if b.world.s.qty ≤ flatQty ∧ flatQty < w.s.qty then w.s.cost - b.world.s.cost else 0 }

/-- Run a part of the strategy. -/
def act {α : Type} (x : DcaM α) : ReplayM α := fun b =>
  match x b.world with
  | .ok a w => .ok a (b.noted w)
  | .error e w => .error (.strategy e) (b.noted w)

def Book.markOf (b : Book) (txid : String) : Option ℚ :=
  (b.marks.find? (fun m => m.1 = txid)).map Prod.snd

def Book.withState (b : Book) (s : State) : Book := { b with world := { b.world with s := s } }

/-! ## Fills -/

/-- An order as the execution model reads it. -/
def Book.dictOf (b : Book) (o : Order) : OrderDict where
  side := o.side
  kind := o.kind.text
  quantity := o.vol
  amount := o.amount
  original := b.markOf o.txid
  hadFill := (b.markOf o.txid).isSome

/-- What a tranche leaves of an order. -/
def restOf (o : Order) (f : Split) : Order :=
  { o with vol := f.rest.quantity, amount := f.rest.amount }

/-- A tranche leaves the order. -/
def Book.tranched (b : Book) (o : Order) (f : Split) : Book :=
  { b.withState (if f.complete then b.world.s.remove o else b.world.s.replace o (restOf o f)) with
    marks := if (b.markOf o.txid).isSome then b.marks
      else (o.txid, f.rest.original.getD o.vol) :: b.marks }

/-- A fill is settled in cash. -/
def Book.paid (b : Book) (f : Fill) : Book :=
  let cash := b.cash + (match f.side with | .buy => -1 | .sell => 1) * f.vol * f.price - f.fee
  { b with cash := cash, minCash := min b.minCash cash }

/-- A fill enters the ledger of the strategy. -/
def Book.booked (b : Book) (f : Fill) : Book :=
  { b with world := { b.world with
    s := b.world.s.filled f
    postings := .fill f :: b.world.postings } }

/-- The account pays, then the strategy accounts for the fill. -/
def settleFill (f : Fill) (final : Bool) : ReplayM Unit := do
  modify (fun b => b.paid f)
  let b ← get
  if b.cash < -(1 / 10 ^ 8) then throw .overdrawn
  else do
    modify (fun b => b.booked f)
    act (afterFill R.setup f final)

def fillPrice (bar : Bar) (o : Order) : ℚ :=
  if o.market then R.execution.marketPrice o.side bar.open_ else o.price

/-- The fill of a tranche at this volume. -/
def trancheFill (bar : Bar) (o : Order) (f : Split) (volume : ℚ) : Fill where
  txid := o.txid
  side := o.side
  kind := (Kind.ofText f.fill.kind).getD o.kind
  amount := f.fill.amount
  vol := volume
  price := fillPrice R bar o
  fee := R.fees.ratePct o.market / 100 * volume * fillPrice R bar o

/-- A SELL fills at most what is held; with nothing held the order is dropped. -/
def fillTranche (bar : Bar) (o : Order) (f : Split) : ReplayM Unit := do
  modify (fun b => b.tranched o f)
  let b ← get
  match o.side with
  | .buy => settleFill R (trancheFill R bar o f f.chunk) f.complete
  | .sell =>
      if min f.chunk b.world.s.qty ≤ flatQty then
        modify (fun b => b.withState (b.world.s.remove (restOf o f)))
      else settleFill R (trancheFill R bar o f (min f.chunk b.world.s.qty)) f.complete

def fillOrder (bar : Bar) (o : Order) : ReplayM Unit := do
  let b ← get
  match splitOrderFill (b.dictOf o) (o.side = .buy) R.execution.partialFillRatio o.market with
  | none => throw .nothingLeft
  | some f => fillTranche R bar o f

/-- Market orders fill at once, limits when the bar touches them. -/
def eligible (bar : Bar) (o : Order) : Bool :=
  o.market || R.execution.limitTouched o.side bar.high bar.low o.price

/-- An order of the snapshot is filled if it is still there. -/
def fillListed (bar : Bar) (side : Side) (txid : String) : ReplayM Unit := do
  let b ← get
  match b.world.s.orders.find? (fun o => o.txid = txid) with
  | none => pure ()
  | some o => if o.side = side ∧ eligible R bar o then fillOrder R bar o else pure ()

def fillSide (bar : Bar) (side : Side) : ReplayM Unit := do
  let b ← get
  (b.world.s.orders.map Order.txid).foldlM (fun _ txid => fillListed R bar side txid) ()

/-! ## Bars -/

/-- The fills of a bar, then a tick at its close. -/
def runBar (bar : Bar) : ReplayM Unit := do
  R.execution.sideOrder.foldlM (fun _ side => fillSide R bar side) ()
  let b ← get
  act (stepWith R.setup (replayHooks R b.cash) bar.close bar.sig)

def run (bars : List Bar) : ReplayM Unit := bars.foldlM (fun _ bar => runBar R bar) ()

def Book.initial : Book where
  world := World.initial
  cash := R.initialCash
  minCash := R.initialCash

/-! ## What the two books say -/

def unrealized (s : State) (close : ℚ) : ℚ :=
  if flatQty < s.qty then (close - s.cost / s.qty) * s.qty else 0

/-- A point of the equity curve. -/
def equity (b : Book) (close : ℚ) : ℚ :=
  R.initialCash + b.world.s.realizedNet + unrealized b.world.s close

/-- The BUY orders placed so far that required no more than the tolerance. -/
def smallBuys (F : FeeModel) (log : List Entry) : Nat :=
  log.countP (fun e =>
    match e.event with
    | .placed o => o.side = .buy && reservation F o ≤ tolerance
    | _ => false)

end TradingFleet.Replay
