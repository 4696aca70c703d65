import TradingFleet.Pair.Moves
import TradingFleet.Pair.Restart
import TradingFleet.Pair.Terminal

set_option autoImplicit false

/-! # Revisions of limit orders

The client ID of a limit order is made from its side and its revision. A revision whose order
was seen in a terminal status is not asked for again, and a placement that failed is repeated
under its own revision (`terminal_revision_not_asked_again`). What carries the result is that
every revision below the current one was seen terminal, and that the latest limit order of a
side shows whether its current revision is in use (`Tracked`).

The latest limit order can be lost: without a fill, `_compact_zero_fill_history` drops a leg
that was cancelled while the other one is still open, and when the other one fills later, its
revision looks unused. The result is about runs in which this does not happen
(`Call.HistoryKept`), at a venue that keeps its orders apart (`Call.Orderly`).
-/

namespace TradingFleet.Pair

open TradingFleet.Hoare TradingFleet.Runs

/-! ## The log -/

/-- `P` of every call and the calls before it. -/
def Throughout (P : Call → List Call → Prop) : List Call → Prop
  | [] => True
  | x :: log => P x log ∧ Throughout P log

theorem Throughout.tail {P : Call → List Call → Prop} {n log : List Call}
    (h : Throughout P (n ++ log)) : Throughout P log := by
  induction n with
  | nil => exact h
  | cons x n ih => exact ih h.2

/-- A side and a revision: what a client ID is made of. -/
abbrev Slot := Side × Revision

/-- The orders a call returned, with the slot they were asked for in. -/
def Event.issues : Event → List (String × Slot)
  | .placeLimit _ order (.ok (some t)) => [(t.orderId, order.side, order.revision)]
  | .recoverPairIntents (.ok items) =>
      items.filterMap (fun r =>
        (intentRevision r.kind "limit").map (fun revision => (r.ticket.orderId, r.ticket.side, revision)))
  | _ => []

/-- The limit orders the coordinator knows of. -/
def issued (log : List Call) : List (String × Slot) := log.flatMap (fun x => x.event.issues)

/-- The slot a call asks for. -/
def Event.asksFor : Event → Option Slot
  | .placeLimit _ order _ => some (order.side, order.revision)
  | _ => none

/-- The slot a call asked for without an order in return. -/
def Event.failsFor : Event → Option Slot
  | .placeLimit _ order (.ok none) => some (order.side, order.revision)
  | .placeLimit _ order (.error _) => some (order.side, order.revision)
  | _ => none

def Event.asksStop : Event → Bool
  | .placeMarketExit _ _ _ => true
  | _ => false

/-- A read of the order was terminal. -/
def seenTerminal (log : List Call) (orderId : String) : Bool :=
  log.any (fun x => x.event.reads.any (fun r => r.1 = orderId && r.2.status.terminal))

/-- An order of the slot was seen terminal. -/
def observed (log : List Call) (slot : Slot) : Bool :=
  (issued log).any (fun e => e.2 = slot && seenTerminal log e.1)

/-- A placement asks for no slot that was seen terminal, and for the slot of an earlier
placement of its side that failed, unless that slot was seen terminal. -/
structure Call.Fresh (x : Call) (older : List Call) : Prop where
  unseen : ∀ slot ∈ x.event.asksFor, observed older slot = false
  retried : ∀ slot ∈ x.event.asksFor, ∀ y ∈ older, ∀ failed ∈ y.event.failsFor,
    failed.1 = slot.1 → slot = failed ∨ observed older failed = true

/-! ## What is asked of a run -/

def Event.placed : Event → Option (Slot × OrderTicket)
  | .placeLimit _ order (.ok (some t)) => some ((order.side, order.revision), t)
  | _ => none

def Event.recovers : Event → List Recovered
  | .recoverPairIntents (.ok items) => items
  | _ => []

/-- The intent of a recovered order was made by this coordinator. -/
def Recovered.wasAsked (r : Recovered) (older : List Call) : Bool :=
  (intentRevision r.kind "limit").any (fun revision =>
      older.any (fun y => y.event.asksFor = some (r.ticket.side, revision))) ||
    ((intentRevision r.kind "hard_stop").isSome && older.any (fun y => y.event.asksStop))

/-- The venue keeps its orders apart: a ticket is of the slot that was asked for, an order ID
belongs to one slot and a slot to one order ID, only intents of this coordinator are recovered,
and a terminal status is final. -/
structure Call.Orderly (x : Call) (older : List Call) : Prop where
  ticket : ∀ p ∈ x.event.placed, (p.2.side, p.2.revision) = p.1
  unique : ∀ a ∈ x.event.issues, ∀ b ∈ issued (x :: older), a.1 = b.1 ↔ a.2 = b.2
  recovered : ∀ r ∈ x.event.recovers, r.wasAsked older = true
  distinct : (x.event.recovers.map (fun r => r.ticket.orderId)).Nodup
  final : ∀ r ∈ x.event.reads, seenTerminal older r.1 = true → r.2.status.terminal = true
  named : ∀ id ∈ x.event.orderIds, id ≠ "None"

/-- Outside startup recovery, zero-fill history is dropped without a fill only when no order is
left open. -/
def Call.HistoryKept (x : Call) : Prop :=
  x.event.compacts = true → x.before.phase ≠ .startupRecovery → x.before.hasFillHistory = false →
    (∀ t ∈ x.before.tickets, t.active = true) ∨ ∀ t ∈ x.before.tickets, t.active = false

/-- A run that meets both. -/
structure Kept (log : List Call) : Prop where
  orderly : Throughout Call.Orderly log
  history : ∀ x ∈ log, x.HistoryKept

theorem Kept.tail {x : Call} {log : List Call} (h : Kept (x :: log)) : Kept log :=
  ⟨h.orderly.2, fun y hy => h.history y (List.mem_cons_of_mem _ hy)⟩

/-! ## Facts about logs -/

theorem issued_cons (x : Call) (log : List Call) : issued (x :: log) = x.event.issues ++ issued log :=
  rfl

/-- One order ID for a slot, and one slot for an order ID. -/
theorem Kept.unique {log : List Call} (h : Kept log) {a b : String × Slot} (ha : a ∈ issued log)
    (hb : b ∈ issued log) : a.1 = b.1 ↔ a.2 = b.2 := by
  induction log with
  | nil => cases ha
  | cons x log ih =>
      rw [issued_cons, List.mem_append] at ha
      rcases ha with ha | ha
      · exact h.orderly.1.unique a ha b hb
      · rw [issued_cons, List.mem_append] at hb
        rcases hb with hb | hb
        · have hswap := h.orderly.1.unique b hb a (List.mem_append_right _ ha)
          exact ⟨fun heq => (hswap.mp heq.symm).symm, fun heq => (hswap.mpr heq.symm).symm⟩
        · exact ih h.tail ha hb

/-- Orders have names. -/
theorem Kept.named {log : List Call} (h : Kept log) {e : String × Slot} (he : e ∈ issued log) :
    e.1 ≠ "None" := by
  induction log with
  | nil => cases he
  | cons x log ih =>
      rw [issued_cons, List.mem_append] at he
      rcases he with he | he
      · refine h.orderly.1.named e.1 ?_
        revert he
        unfold Event.issues Event.orderIds
        cases x.event with
        | placeLimit site order answer =>
            rcases answer with err | _ | t
            · exact fun he => by cases he
            · exact fun he => by cases he
            · intro he
              rw [List.mem_singleton.mp he]
              exact List.mem_cons_self
        | recoverPairIntents answer =>
            rcases answer with err | items
            · exact fun he => by cases he
            · intro he
              obtain ⟨r, hr, hsome⟩ := List.mem_filterMap.mp he
              obtain ⟨revision, -, rfl⟩ := Option.map_eq_some_iff.mp hsome
              exact List.mem_map.mpr ⟨r, hr, rfl⟩
        | _ => exact fun he => by cases he
      · exact ih h.tail he

/-! ## Latest revisions -/

namespace Coordinator

/-- The revisions of the limit orders of a side, oldest first. -/
def sideRevisions (c : Coordinator) (side : Side) : List Revision :=
  (c.tickets.filter (fun t => t.side = side && !t.isStop)).map OrderTicket.revision

theorem latestWhere_ticket (c : Coordinator) (p : OrderTicket → Bool) :
    (c.latestWhere p).map Prod.fst = (c.tickets.filter p).getLast? := by
  have hfst : ∀ (l : List OrderTicket) (n : Nat),
      ((l.zipIdx n).filter (fun x => p x.1)).map Prod.fst = l.filter p := by
    intro l
    induction l with
    | nil => intro n; rfl
    | cons t l ih =>
        intro n
        rw [List.zipIdx_cons, List.filter_cons, List.filter_cons]
        by_cases hp : p t = true
        · simp only [hp, if_true, List.map_cons, ih]
        · rw [if_neg hp, if_neg hp]
          exact ih (n + 1)
  unfold latestWhere
  rw [← hfst c.tickets 0, List.getLast?_map, ← List.head?_filter, List.filter_reverse,
    List.head?_reverse]

theorem latestLimit_revision (c : Coordinator) (side : Side) :
    (c.latestLimit side).map (fun x => x.1.revision) = (c.sideRevisions side).getLast? := by
  unfold latestLimit sideRevisions
  rw [List.getLast?_map, ← latestWhere_ticket, Option.map_map]
  rfl

end Coordinator

end TradingFleet.Pair
