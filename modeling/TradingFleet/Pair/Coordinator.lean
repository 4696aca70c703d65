import TradingFleet.Pair.Types

set_option autoImplicit false

/-! # The state of a coordinator

`PairCoordinator` owns both orders of one round. This module has its state, what it computes
from the state alone, and the checkpoint it writes and reads back. The policy and the venue
are the same before and after a restart and are not part of the state. Times are doubles: an elapsed
time is the difference of two of them, rounded.

A round is over in the phases `complete`, `expired`, `failed` and `hard_stop`.
-/

namespace TradingFleet.Pair

open TradingFleet.Rounding (add sub mul)
open TradingFleet.Text

inductive Phase where
  | idle
  | startupRecovery
  | quoting
  | exposed
  | closing
  | stopping
  | hardStopRecovery
  | complete
  | expired
  | failed
  | hardStop
deriving DecidableEq, Repr

def Phase.terminal : Phase → Bool
  | .complete => true
  | .expired => true
  | .failed => true
  | .hardStop => true
  | _ => false

inductive FillSide where
  | buy
  | sell
  | both
deriving DecidableEq

/-- `stopTicket` is the order ID of `self.stop_ticket`; which of the held tickets is that
object, if any, is their mark `isStop`. -/
structure Coordinator where
  qty : ℚ
  startSide : Side
  qty_pos : 0 < qty
  pairId : String := ""
  startedAt : ℚ := 0
  firstFillAt : Option ℚ := none
  firstFillSide : Option FillSide := none
  shock : Bool := false
  phase : Phase := .idle
  reason : Option String := none
  tickets : List OrderTicket := []
  snapshots : String → Option OrderSnapshot := fun _ => none
  stopTicket : Option String := none
  limitRevisions : Side → Revision := fun _ => Revision.zero
  hardStopRevision : Nat := 0
  hardStopReason : Option String := none

namespace Coordinator

/-- `self.snapshots.get(order_id, OrderSnapshot())`. -/
def snapshot (c : Coordinator) (orderId : String) : OrderSnapshot :=
  (c.snapshots orderId).getD .unread

/-! ## Totals -/

/-- One component of `_side_totals`. -/
def sideTotal (c : Coordinator) (side : Side) (value : OrderSnapshot → ℚ) : ℚ :=
  ((c.tickets.filter (fun t => t.side = side)).map
    (fun t => max 0 (value (c.snapshot t.orderId)))).sum

/-- Quantities and costs of the two sides. -/
structure Totals where
  buyQty : ℚ
  buyCost : ℚ
  sellQty : ℚ
  sellCost : ℚ

def totals (c : Coordinator) : Totals where
  buyQty := c.sideTotal .buy OrderSnapshot.filledQty
  buyCost := c.sideTotal .buy OrderSnapshot.cost
  sellQty := c.sideTotal .sell OrderSnapshot.filledQty
  sellCost := c.sideTotal .sell OrderSnapshot.cost

def Totals.net (t : Totals) : ℚ := t.buyQty - t.sellQty

def netQty (c : Coordinator) : ℚ := c.totals.net

structure Outcome where
  phase : Phase
  pairId : String
  terminal : Bool
  shock : Bool
  firstFillSide : Option FillSide
  fillLatencySec : Option ℚ
  netQty : ℚ
  buyQty : ℚ
  sellQty : ℚ
  buyAvg : Option ℚ
  sellAvg : Option ℚ
  grossPnl : ℚ
  fees : ℚ
  reason : Option String
deriving DecidableEq

def outcome (c : Coordinator) : Outcome where
  phase := c.phase
  pairId := c.pairId
  terminal := c.phase.terminal
  shock := c.shock
  firstFillSide := c.firstFillSide
  fillLatencySec := c.firstFillAt.map (fun t => sub t c.startedAt)
  netQty := c.netQty
  buyQty := c.totals.buyQty
  sellQty := c.totals.sellQty
  buyAvg := if 0 < c.totals.buyQty then some (c.totals.buyCost / c.totals.buyQty) else none
  sellAvg := if 0 < c.totals.sellQty then some (c.totals.sellCost / c.totals.sellQty) else none
  grossPnl := c.totals.sellCost - c.totals.buyCost
  fees := c.sideTotal .buy OrderSnapshot.fee + c.sideTotal .sell OrderSnapshot.fee
  reason := c.reason

/-! ## Tickets -/

/-- The last ticket with a property, and its position. -/
def latestWhere (c : Coordinator) (p : OrderTicket → Bool) : Option (OrderTicket × Nat) :=
  c.tickets.zipIdx.reverse.find? (fun x => p x.1)

def activeTicket (c : Coordinator) (side : Side) : Option (OrderTicket × Nat) :=
  c.latestWhere (fun t => t.side = side && t.active)

/-- The last ticket of a side that is not the stop. -/
def latestLimit (c : Coordinator) (side : Side) : Option (OrderTicket × Nat) :=
  c.latestWhere (fun t => t.side = side && !t.isStop)

def hasActiveTickets (c : Coordinator) : Bool := c.tickets.any OrderTicket.active

def knows (c : Coordinator) (orderId : String) : Bool :=
  c.tickets.any (fun t => t.orderId = orderId)

/-- `ticket.active = active` for the ticket at a position. -/
def setActive (c : Coordinator) (i : Nat) (active : Bool) : Coordinator :=
  { c with tickets := c.tickets.modify i (fun t => { t with active := active }) }

/-- `self.snapshots[order_id] = snapshot`. -/
def setSnapshot (c : Coordinator) (orderId : String) (snap : OrderSnapshot) : Coordinator :=
  { c with snapshots := Function.update c.snapshots orderId (some snap) }

def append (c : Coordinator) (t : OrderTicket) : Coordinator :=
  { c with tickets := c.tickets ++ [{ t with isStop := false }] }

/-- `self.stop_ticket = ticket` for a ticket that is not held. -/
def setForeignStop (c : Coordinator) (orderId : String) : Coordinator :=
  { c with
    stopTicket := some orderId
    tickets := c.tickets.map (fun t => { t with isStop := false }) }

/-- `self.stop_ticket = ticket` for the held ticket at a position. -/
def setStop (c : Coordinator) (orderId : String) (i : Nat) : Coordinator :=
  { c with
    stopTicket := some orderId
    tickets := (c.tickets.map (fun t => { t with isStop := false })).modify i
      (fun t => { t with isStop := true }) }

def setRevision (c : Coordinator) (side : Side) (r : Revision) : Coordinator :=
  { c with limitRevisions := Function.update c.limitRevisions side r }

/-! ## Zero-fill history -/

def hasFillHistory (c : Coordinator) : Bool :=
  c.tickets.any (fun t => 0 < (c.snapshot t.orderId).filledQty)

/-- What `_compact_zero_fill_history` keeps: active and filled orders, the stop, the latest
limit order of each side once there is a fill, and everything during startup recovery. -/
def keeps (c : Coordinator) (x : OrderTicket × Nat) : Bool :=
  x.1.active || 0 < (c.snapshot x.1.orderId).filledQty || x.1.isStop ||
    (c.hasFillHistory && (c.latestLimit x.1.side).map Prod.snd = some x.2) ||
    c.phase = .startupRecovery

/-- Drop terminal orders that contributed nothing. A dropped ticket has no fill, so whether an
earlier drop took the snapshot of the same order ID makes no difference. -/
def compact (c : Coordinator) : Coordinator :=
  { c with
    tickets := (c.tickets.zipIdx.filter c.keeps).map Prod.fst
    snapshots := fun id =>
      if (c.tickets.zipIdx.filter (fun x => !c.keeps x)).any (fun x => x.1.orderId = id) then none
      else c.snapshots id }

/-! ## The first fill -/

def recordFirstFill (c : Coordinator) (policy : PairPolicy) (now buyQty sellQty : ℚ) :
    Coordinator :=
  if c.firstFillAt.isSome ∨ (buyQty ≤ 0 ∧ sellQty ≤ 0) then c
  else
    { c with
      firstFillAt := some now
      firstFillSide := some
        (if 0 < buyQty ∧ sellQty ≤ 0 then .buy
          else if 0 < sellQty ∧ buyQty ≤ 0 then .sell else .both)
      shock := max 0 (sub now c.startedAt) ≤ mul policy.quoteTtlSec policy.fastFillRatio }

end Coordinator

/-! ## Checkpoints -/

/-- `vars(ticket)`. -/
structure TicketRecord where
  orderId : String
  side : Side
  price : ℚ
  qty : ℚ
  active : Bool
  pairId : Option String
  revision : Int

def OrderTicket.record (t : OrderTicket) : TicketRecord where
  orderId := t.orderId
  side := t.side
  price := t.price
  qty := t.qty
  active := t.active
  pairId := t.pairId
  revision := t.revision.val

/-- `OrderTicket(**ticket)`. -/
def TicketRecord.ticket (r : TicketRecord) : Except String OrderTicket :=
  if h : 0 < r.price ∧ 0 < r.qty ∧ 0 ≤ r.revision ∧ r.revision ≤ maxLimitRevision then
    .ok
      { orderId := r.orderId, side := r.side, price := r.price, qty := r.qty, active := r.active,
        pairId := r.pairId, revision := ⟨r.revision.toNat, by omega⟩, isStop := false,
        price_pos := h.1, qty_pos := h.2.1 }
  else .error "ticket rtrade invalid"

/-- The JSON-safe checkpoint. -/
structure Checkpoint where
  pairId : String
  qty : ℚ
  startSide : Side
  phase : Phase
  reason : Option String
  shock : Bool
  elapsedSec : ℚ
  firstFillElapsedSec : Option ℚ
  firstFillSide : Option FillSide
  stopOrderId : Option String
  limitRevisions : Side → Int
  hardStopRevision : Int
  hardStopReason : Option String
  tickets : List TicketRecord
  snapshots : String → Option OrderSnapshot

def exportState (c : Coordinator) (clock : ℚ) : Checkpoint where
  pairId := c.pairId
  qty := c.qty
  startSide := c.startSide
  phase := c.phase
  reason := c.reason
  shock := c.shock
  elapsedSec := max 0 (sub clock c.startedAt)
  firstFillElapsedSec := c.firstFillAt.map (fun t => max 0 (sub t c.startedAt))
  firstFillSide := c.firstFillSide
  stopOrderId := c.stopTicket
  limitRevisions := fun side => (c.limitRevisions side).val
  hardStopRevision := c.hardStopRevision
  hardStopReason := c.hardStopReason
  tickets := c.tickets.map OrderTicket.record
  snapshots := c.snapshots

/-- The position of the stop among the restored tickets: the first of the stored ID, where a
missing ID reads as the text `None`; in phase `stopping` the last ticket stands in. -/
def restoredStop (phase : Phase) (stopOrderId : Option String) (tickets : List OrderTicket) :
    Option Nat :=
  match tickets.findIdx? (fun t => t.orderId = stopOrderId.getD "None") with
  | some i => some i
  | none => if phase = .stopping ∧ tickets ≠ [] then some (tickets.length - 1) else none

def restoredRevision (side : Side) (revision : Int) : Except String Revision :=
  if h : 0 ≤ revision ∧ revision ≤ maxLimitRevision then .ok ⟨revision.toNat, by omega⟩
  else .error ("invalid " ++ side.text ++ " limit revision: " ++ toString revision)

/-- Mark the ticket at a position as the stop. -/
def markStop (stop : Option Nat) (tickets : List OrderTicket) : List OrderTicket :=
  match stop with
  | none => tickets
  | some i => tickets.modify i (fun t => { t with isStop := true })

def fromState (s : Checkpoint) (clock : ℚ) : Except String Coordinator :=
  if h : 0 < s.qty then do
    let tickets ← s.tickets.mapM TicketRecord.ticket
    let buy ← restoredRevision .buy (s.limitRevisions .buy)
    let sell ← restoredRevision .sell (s.limitRevisions .sell)
    let stop := restoredStop s.phase s.stopOrderId tickets
    let startedAt := sub clock (max 0 s.elapsedSec)
    .ok
      { qty := s.qty, startSide := s.startSide, qty_pos := h, pairId := s.pairId,
        startedAt := startedAt,
        firstFillAt := s.firstFillElapsedSec.map (fun t => add startedAt (max 0 t)),
        firstFillSide := s.firstFillSide, shock := s.shock, phase := s.phase, reason := s.reason,
        tickets := markStop stop tickets, snapshots := s.snapshots,
        stopTicket := stop.bind (fun i => (tickets[i]?).map OrderTicket.orderId),
        limitRevisions := fun side =>
          match side with
          | .buy => buy
          | .sell => sell,
        hardStopRevision := (max 0 s.hardStopRevision).toNat,
        hardStopReason := s.hardStopReason }
  else .error "rtrade qty must be finite and positive"

end TradingFleet.Pair
