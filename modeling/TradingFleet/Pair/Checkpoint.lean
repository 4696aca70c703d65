import TradingFleet.Pair.Coordinator

set_option autoImplicit false

/-! # What a checkpoint restores

A checkpoint a coordinator writes is never refused when it is read back, and every field comes
back as it was except for three: the times are clamped at the start of the round and rounded, and
the stop is found again by its order ID.
-/

namespace TradingFleet.Pair

open TradingFleet.Rounding (add sub)

namespace OrderTicket

/-- The ticket as an object that is not the stop. -/
def unmark (t : OrderTicket) : OrderTicket := { t with isStop := false }

theorem record_ticket (t : OrderTicket) : t.record.ticket = .ok t.unmark := by
  have hrange : (0 : Int) ≤ t.revision.val ∧ (t.revision.val : Int) ≤ maxLimitRevision := by
    have := t.revision.isLt
    omega
  unfold TicketRecord.ticket
  rw [dif_pos ⟨t.price_pos, t.qty_pos, hrange⟩]
  rfl

end OrderTicket

theorem mapM_record_ticket (tickets : List OrderTicket) :
    (tickets.map OrderTicket.record).mapM TicketRecord.ticket =
      .ok (tickets.map OrderTicket.unmark) := by
  induction tickets with
  | nil => rfl
  | cons t rest ih =>
      rw [List.map_cons, List.mapM_cons, t.record_ticket, ih]
      rfl

theorem restoredRevision_val (side : Side) (r : Revision) :
    restoredRevision side r.val = .ok r := by
  have hrange : (0 : Int) ≤ r.val ∧ (r.val : Int) ≤ maxLimitRevision := by
    have := r.isLt
    omega
  unfold restoredRevision
  rw [dif_pos hrange]
  rfl

namespace Coordinator

/-- The position of the stop that is found again. -/
def foundStop (c : Coordinator) : Option Nat :=
  restoredStop c.phase c.stopTicket (c.tickets.map OrderTicket.unmark)

/-- The coordinator that a checkpoint written at `clock` gives back at `clock'`. -/
def restored (c : Coordinator) (clock clock' : ℚ) : Coordinator :=
  { c with
    startedAt := sub clock' (max 0 (max 0 (sub clock c.startedAt)))
    firstFillAt := c.firstFillAt.map (fun t =>
      add (sub clock' (max 0 (max 0 (sub clock c.startedAt)))) (max 0 (max 0 (sub t c.startedAt))))
    tickets := markStop c.foundStop (c.tickets.map OrderTicket.unmark)
    stopTicket := c.foundStop.bind (fun i =>
      ((c.tickets.map OrderTicket.unmark)[i]?).map OrderTicket.orderId) }

end Coordinator

/-- Reading back what was written. -/
theorem fromState_exportState (c : Coordinator) (clock clock' : ℚ) :
    fromState (exportState c clock) clock' = .ok (c.restored clock clock') := by
  have hrevisions : ∀ side, (exportState c clock).limitRevisions side = (c.limitRevisions side).val :=
    fun _ => rfl
  have hstop : (max 0 (c.hardStopRevision : Int)).toNat = c.hardStopRevision := by omega
  unfold fromState
  rw [dif_pos (show 0 < (exportState c clock).qty from c.qty_pos)]
  rw [show (exportState c clock).tickets = c.tickets.map OrderTicket.record from rfl,
    mapM_record_ticket, hrevisions, hrevisions, restoredRevision_val, restoredRevision_val]
  simp only [bind, Except.bind, Except.ok.injEq, Coordinator.restored, Coordinator.foundStop,
    exportState, hstop, Option.map_map, Function.comp_def]
  -- what is left are the revisions, side by side
  congr 1
  funext side
  cases side with
  | buy => rfl
  | sell => rfl

end TradingFleet.Pair
