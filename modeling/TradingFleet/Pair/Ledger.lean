import TradingFleet.Basic.Keyed
import TradingFleet.Pair.Moves
import TradingFleet.Pair.Terminal

set_option autoImplicit false

/-! # The ledger of a round

What a round bought and sold can be computed without the coordinator: from the venue's answers,
as the sum over every order that was accepted or recovered, of its last read. The results of
this module say when `outcome` reports the same.

Tickets leave through `_compact_zero_fill_history`, so the two sides are linked by what the
coordinator may forget (`Booked`): a ticket that is not held was last read blank, and a snapshot
that is held is the last read.
-/

namespace TradingFleet.Pair

open TradingFleet.Hoare TradingFleet.Runs TradingFleet.Keyed

/-! ## What the venue said -/

/-- The orders an answer accepts or recovers. -/
def Event.accepted : Event → List OrderTicket
  | .placeLimit _ _ (.ok (some t)) => [t]
  | .placeMarketExit _ _ (.ok (some t)) => [t]
  | .recoverPairIntents (.ok items) => items.map Recovered.ticket
  | _ => []

/-- The first entry order of a round: nothing is held yet. -/
def Call.opens (x : Call) : Bool :=
  match x.event with
  | .placeLimit .entry _ _ => x.before.tickets.isEmpty
  | _ => false

/-- The calls of the last round, newest first. -/
def roundLog : List Call → List Call
  | [] => []
  | x :: log => if x.opens then [x] else x :: roundLog log

abbrev Orders := List (String × Side)

def Orders.add (orders : Orders) (t : OrderTicket) : Orders :=
  if orders.any (fun o => o.1 = t.orderId) then orders else orders ++ [(t.orderId, t.side)]

/-- Every order accepted or recovered, once, under the side it was first returned with. -/
def acceptedOrders : List Call → Orders
  | [] => []
  | x :: log => x.event.accepted.foldl Orders.add (acceptedOrders log)

/-- One amount of one side, over some orders. -/
def ledgerSum (orders : Orders) (last : Reads) (side : Side) (value : OrderSnapshot → ℚ) : ℚ :=
  ((orders.filter (fun o => o.2 = side)).map (fun o => value ((last o.1).getD .unread))).sum

/-- One amount of one side of the round. -/
def ledgerTotal (log : List Call) (side : Side) (value : OrderSnapshot → ℚ) : ℚ :=
  ledgerSum (acceptedOrders (roundLog log)) (lastRead (roundLog log)) side value

/-- Fills never decrease and what is over stays over, from an earlier read to a later one. -/
def Steady (log : List Call) : Prop :=
  log.Pairwise (fun later earlier => ∀ r ∈ later.event.reads, ∀ s ∈ earlier.event.reads,
    r.1 = s.1 → s.2.filledQty ≤ r.2.filledQty ∧
      (s.2.status.terminal = true → r.2.status = s.2.status))

instance : DecidablePred Steady := fun log => inferInstanceAs (Decidable (List.Pairwise _ log))

/-! ## The amounts -/

/-- An amount of a snapshot: never negative, and nothing for a blank snapshot. -/
structure Amount (value : OrderSnapshot → ℚ) : Prop where
  nonneg : ∀ s, 0 ≤ value s
  unread : value .unread = 0
  blank : ∀ s : OrderSnapshot, s.filledQty = 0 → s.cost = 0 → s.fee = 0 → value s = 0

theorem Amount.filledQty : Amount OrderSnapshot.filledQty :=
  ⟨OrderSnapshot.filledQty_nonneg, rfl, fun _ h _ _ => h⟩

theorem Amount.cost : Amount OrderSnapshot.cost :=
  ⟨OrderSnapshot.cost_nonneg, rfl, fun _ _ h _ => h⟩

theorem Amount.fee : Amount OrderSnapshot.fee :=
  ⟨OrderSnapshot.fee_nonneg, rfl, fun _ _ _ h => h⟩

/-- The last read of an order, if there is one, says that nothing happened. -/
def Blank (last : Reads) (orderId : String) : Prop :=
  ∀ s, last orderId = some s → s.filledQty = 0 ∧ s.cost = 0 ∧ s.fee = 0

theorem Blank.value {last : Reads} {orderId : String} (h : Blank last orderId)
    {value : OrderSnapshot → ℚ} (hv : Amount value) : value ((last orderId).getD .unread) = 0 := by
  cases hl : last orderId with
  | none => exact hv.unread
  | some s =>
      obtain ⟨hq, hc, hf⟩ := h s hl
      exact hv.blank s hq hc hf

theorem Blank.apply {last : Reads} {orderId : String} (h : Blank last orderId)
    {r : String × OrderSnapshot} (hne : orderId ≠ r.1) : Blank (last.apply r) orderId := by
  intro s hs
  unfold Reads.apply at hs
  rw [Function.update_of_ne hne] at hs
  exact h s hs

/-! ## The orders of a ledger -/

theorem Orders.mem_add_of_mem {orders : Orders} {o : String × Side} (h : o ∈ orders)
    (t : OrderTicket) : o ∈ orders.add t := by
  unfold Orders.add
  split
  · exact h
  · exact List.mem_append_left _ h

theorem Orders.mem_foldl_add {orders : Orders} {o : String × Side} (h : o ∈ orders)
    (tickets : List OrderTicket) : o ∈ tickets.foldl Orders.add orders := by
  induction tickets generalizing orders with
  | nil => exact h
  | cons t rest ih => exact ih (Orders.mem_add_of_mem h t)

/-- An order that is there already is there under its own side. -/
theorem Orders.mem_add {orders : Orders} {t : OrderTicket}
    (h : ∀ side, (t.orderId, side) ∈ orders → side = t.side) :
    (t.orderId, t.side) ∈ orders.add t := by
  unfold Orders.add
  split
  · rename_i hany
    obtain ⟨⟨id, side⟩, ho, hid⟩ := List.any_eq_true.mp hany
    have hid' : id = t.orderId := by simpa using hid
    subst hid'
    rw [← h side ho]
    exact ho
  · exact List.mem_append_right _ List.mem_cons_self

theorem Orders.of_mem_add {orders : Orders} {t : OrderTicket} {o : String × Side}
    (h : o ∈ orders.add t) : o ∈ orders ∨ o.1 = t.orderId := by
  unfold Orders.add at h
  split at h
  · exact Or.inl h
  · rcases List.mem_append.mp h with h | h
    · exact Or.inl h
    · exact Or.inr (by rw [List.mem_singleton.mp h])

theorem Orders.nodup_foldl_add {orders : Orders} (h : (orders.map Prod.fst).Nodup)
    (tickets : List OrderTicket) : ((tickets.foldl Orders.add orders).map Prod.fst).Nodup := by
  induction tickets generalizing orders with
  | nil => exact h
  | cons t rest ih =>
      refine ih ?_
      unfold Orders.add
      split
      · exact h
      · rename_i hany
        rw [List.map_append]
        refine List.nodup_append.mpr ⟨h, List.nodup_singleton _, ?_⟩
        rintro id hid id' hid' rfl
        obtain ⟨o, ho, heq⟩ := List.mem_map.mp hid
        have hidt : id = t.orderId := by simpa using hid'
        exact hany (List.any_eq_true.mpr ⟨o, ho, by simp [heq, hidt]⟩)

/-- No order is in a ledger twice. -/
theorem acceptedOrders_nodup (log : List Call) : ((acceptedOrders log).map Prod.fst).Nodup := by
  induction log with
  | nil => exact List.nodup_nil
  | cons x log ih => exact Orders.nodup_foldl_add ih _

theorem roundLog_of_opens {x : Call} (h : x.opens = true) (log : List Call) :
    roundLog (x :: log) = [x] := if_pos h

theorem roundLog_cons {x : Call} (h : x.opens = false) (log : List Call) :
    roundLog (x :: log) = x :: roundLog log := if_neg (by rw [h]; exact Bool.false_ne_true)

theorem opens_of_site {c : Coordinator} {e : Event} (h : e.limitSite ≠ some .entry) :
    Call.opens ⟨c, e⟩ = false := by
  unfold Call.opens
  split
  · rename_i he
    simp only at he
    rw [he] at h
    exact absurd rfl h
  · rfl

theorem reads_of_plain {e : Event} (h : e.plain = true) : e.reads = [] := by
  unfold Event.reads
  split
  · cases h
  · cases h
  · rfl

/-! ## What the coordinator holds -/

namespace Coordinator

/-- The orders of the tickets. -/
def held (c : Coordinator) : Orders := c.tickets.map (fun t => (t.orderId, t.side))

theorem held_ids (c : Coordinator) : c.held.map Prod.fst = c.tickets.map OrderTicket.orderId := by
  rw [held, List.map_map]
  rfl

theorem knows_iff {c : Coordinator} {orderId : String} :
    c.knows orderId = true ↔ ∃ side, (orderId, side) ∈ c.held := by
  constructor
  · intro h
    obtain ⟨t, ht, hid⟩ := List.any_eq_true.mp h
    have hid' : t.orderId = orderId := by simpa using hid
    exact ⟨t.side, List.mem_map.mpr ⟨t, ht, by rw [hid']⟩⟩
  · rintro ⟨side, h⟩
    obtain ⟨t, ht, heq⟩ := List.mem_map.mp h
    rw [Prod.mk.injEq] at heq
    exact List.any_eq_true.mpr ⟨t, ht, by simp [heq.1]⟩

theorem knows_congr {c c' : Coordinator} (h : c'.held = c.held) (orderId : String) :
    c'.knows orderId = c.knows orderId := by
  rw [Bool.eq_iff_iff, knows_iff, knows_iff, h]

/-- Changes of tickets that touch neither order IDs nor sides. -/
theorem held_modify (f : OrderTicket → OrderTicket)
    (hf : ∀ t, (f t).orderId = t.orderId ∧ (f t).side = t.side) (tickets : List OrderTicket)
    (i : Nat) :
    (tickets.modify i f).map (fun t => (t.orderId, t.side)) =
      tickets.map (fun t => (t.orderId, t.side)) := by
  refine List.ext_getElem? (fun j => ?_)
  by_cases hij : i = j
  · subst hij
    simp [Function.comp_def, hf]
  · simp [List.getElem?_modify_ne _ _ hij]

theorem held_setActive (c : Coordinator) (i : Nat) (active : Bool) :
    (c.setActive i active).held = c.held :=
  held_modify (fun t => { t with active := active }) (fun _ => ⟨rfl, rfl⟩) c.tickets i

theorem held_setTicketRevision (c : Coordinator) (i : Nat) (r : Revision) :
    (c.setTicketRevision i r).held = c.held :=
  held_modify (fun t => { t with revision := r }) (fun _ => ⟨rfl, rfl⟩) c.tickets i

theorem held_setForeignStop (c : Coordinator) (orderId : String) :
    (c.setForeignStop orderId).held = c.held := by
  simp [held, setForeignStop, Function.comp_def]

theorem held_setStop (c : Coordinator) (orderId : String) (i : Nat) :
    (c.setStop orderId i).held = c.held :=
  (held_modify (fun t => { t with isStop := true }) (fun _ => ⟨rfl, rfl⟩) _ i).trans
    (c.held_setForeignStop orderId)

theorem held_append (c : Coordinator) (t : OrderTicket) :
    (c.append t).held = c.held ++ [(t.orderId, t.side)] := by
  simp [held, append]

theorem snapshots_setSnapshot (c : Coordinator) (orderId : String) (snap : OrderSnapshot) :
    (c.setSnapshot orderId snap).snapshots = Function.update c.snapshots orderId (some snap) := rfl

theorem held_restored (c : Coordinator) (clock clock' : ℚ) :
    (c.restored clock clock').held = c.held := by
  have hunmark : (c.tickets.map OrderTicket.unmark).map (fun t => (t.orderId, t.side)) = c.held := by
    rw [List.map_map]
    rfl
  unfold held restored
  simp only
  unfold markStop
  split
  · exact hunmark
  · exact (held_modify (fun t => { t with isStop := true }) (fun _ => ⟨rfl, rfl⟩) _ _).trans hunmark

theorem held_recordFirstFill (c : Coordinator) (policy : PairPolicy) (now buyQty sellQty : ℚ) :
    (c.recordFirstFill policy now buyQty sellQty).held = c.held ∧
      (c.recordFirstFill policy now buyQty sellQty).snapshots = c.snapshots := by
  unfold recordFirstFill
  split
  · exact ⟨rfl, rfl⟩
  · exact ⟨rfl, rfl⟩

end Coordinator

/-- What a coordinator holds of a ledger. -/
structure Booked (c : Coordinator) (orders : Orders) (last : Reads) : Prop where
  once : (c.held.map Prod.fst).Nodup
  owned : ∀ o ∈ c.held, o ∈ orders
  seen : ∀ id snap, c.snapshots id = some snap → last id = some snap
  unseen : ∀ o ∈ c.held, c.snapshots o.1 = none → Blank last o.1
  gone : ∀ id, c.knows id = false → Blank last id

section Booking

variable {c c' : Coordinator} {orders orders' : Orders} {last : Reads}

theorem Booked.congr (h : Booked c orders last) (hheld : c'.held = c.held)
    (hsnap : c'.snapshots = c.snapshots) : Booked c' orders last := by
  refine ⟨?_, ?_, ?_, ?_, ?_⟩
  · rw [hheld]
    exact h.once
  · rw [hheld]
    exact h.owned
  · rw [hsnap]
    exact h.seen
  · rw [hheld, hsnap]
    exact h.unseen
  · intro id hid
    rw [Coordinator.knows_congr hheld] at hid
    exact h.gone id hid

theorem Booked.mono (h : Booked c orders last) (hsub : ∀ o ∈ orders, o ∈ orders') :
    Booked c orders' last :=
  ⟨h.once, fun o ho => hsub o (h.owned o ho), h.seen, h.unseen, h.gone⟩

/-- A read of an order that is held. -/
theorem Booked.read (h : Booked c orders last) {orderId : String}
    (hheld : c.knows orderId = true) (snap : OrderSnapshot) :
    Booked (c.setSnapshot orderId snap) orders (last.apply (orderId, snap)) := by
  refine ⟨h.once, h.owned, ?_, ?_, ?_⟩
  · intro id s hs
    by_cases hid : id = orderId
    · subst hid
      rw [Coordinator.snapshots_setSnapshot, Function.update_self] at hs
      exact (Function.update_self _ _ _).trans hs
    · rw [Coordinator.snapshots_setSnapshot, Function.update_of_ne hid] at hs
      exact (Function.update_of_ne hid _ _).trans (h.seen id s hs)
  · intro o ho hnone
    by_cases hid : o.1 = orderId
    · rw [Coordinator.snapshots_setSnapshot, hid, Function.update_self] at hnone
      cases hnone
    · rw [Coordinator.snapshots_setSnapshot, Function.update_of_ne hid] at hnone
      exact (h.unseen o ho hnone).apply hid
  · intro id hid
    have hne : id ≠ orderId := by
      rintro rfl
      rw [show (c.setSnapshot id snap).knows id = c.knows id from rfl, hheld] at hid
      cases hid
    exact (h.gone id hid).apply hne

/-- An order of the ledger that was not held, under its own side. -/
theorem Booked.append (h : Booked c orders last) {t : OrderTicket}
    (hnew : c.knows t.orderId = false) (hown : (t.orderId, t.side) ∈ orders) :
    Booked (c.append t) orders last := by
  refine ⟨?_, ?_, h.seen, ?_, ?_⟩
  · rw [Coordinator.held_append, List.map_append]
    refine List.nodup_append.mpr ⟨h.once, List.nodup_singleton _, ?_⟩
    rintro id hid id' hid' rfl
    obtain ⟨o, ho, rfl⟩ := List.mem_map.mp hid
    have hknown : c.knows o.1 = true := Coordinator.knows_iff.mpr ⟨o.2, ho⟩
    rw [List.mem_singleton.mp hid'] at hknown
    rw [hnew] at hknown
    cases hknown
  · intro o ho
    rw [Coordinator.held_append] at ho
    rcases List.mem_append.mp ho with ho | ho
    · exact h.owned o ho
    · rw [List.mem_singleton.mp ho]
      exact hown
  · intro o ho hnone
    rw [Coordinator.held_append] at ho
    rcases List.mem_append.mp ho with ho | ho
    · exact h.unseen o ho hnone
    · rw [List.mem_singleton.mp ho]
      exact h.gone t.orderId hnew
  · intro id hid
    refine h.gone id (Bool.eq_false_iff.mpr (fun hknown => ?_))
    obtain ⟨side, ho⟩ := Coordinator.knows_iff.mp hknown
    have hafter : (c.append t).knows id = true := by
      refine Coordinator.knows_iff.mpr ⟨side, ?_⟩
      rw [Coordinator.held_append]
      exact List.mem_append_left _ ho
    rw [hid] at hafter
    cases hafter

/-- A coordinator that holds nothing. -/
theorem Booked.empty (hheld : c.held = []) (hsnap : c.snapshots = fun _ => none)
    (orders : Orders) : Booked c orders (fun _ => none) := by
  refine ⟨?_, ?_, ?_, ?_, ?_⟩
  · rw [hheld]
    exact List.nodup_nil
  · rw [hheld]
    exact fun o ho => absurd ho List.not_mem_nil
  · intro id s hs
    rw [hsnap] at hs
    cases hs
  · rw [hheld]
    exact fun o ho => absurd ho List.not_mem_nil
  · intro id _ s hs
    cases hs

/-- What is reported of one side is the sum over the ledger. -/
theorem Booked.total (h : Booked c orders last) (hn : (orders.map Prod.fst).Nodup)
    {value : OrderSnapshot → ℚ} (hv : Amount value) (side : Side) :
    c.sideTotal side value = ledgerSum orders last side value := by
  have hreported : c.sideTotal side value = ((c.held.filter (fun o => o.2 = side)).map
      (fun o => value (c.snapshot o.1))).sum := by
    unfold Coordinator.sideTotal Coordinator.held
    rw [List.filter_map, List.map_map]
    congr 1
    refine List.map_congr_left (fun t _ => ?_)
    exact max_eq_right (hv.nonneg _)
  have hread : ∀ o ∈ c.held, value (c.snapshot o.1) = value ((last o.1).getD .unread) := by
    intro o ho
    cases hs : c.snapshots o.1 with
    | none =>
        rw [(h.unseen o ho hs).value hv, Coordinator.snapshot, hs]
        exact hv.unread
    | some s => rw [Coordinator.snapshot, hs, h.seen _ _ hs]
  rw [hreported, List.map_congr_left (fun o ho => hread o (List.mem_filter.mp ho).1)]
  refine sum_eq_of_subset _ (h.once.of_map.filter _) (hn.of_map.filter _) ?_ ?_
  · intro o ho
    obtain ⟨hmem, hside⟩ := List.mem_filter.mp ho
    exact List.mem_filter.mpr ⟨h.owned o hmem, hside⟩
  · intro o ho hout
    obtain ⟨hmem, hside⟩ := List.mem_filter.mp ho
    refine (h.gone o.1 (Bool.eq_false_iff.mpr (fun hknown => ?_))).value hv
    -- a ticket of the same ID is this order: the ledger has each ID once
    obtain ⟨side', ho'⟩ := Coordinator.knows_iff.mp hknown
    have heq : (o.1, side') = o := eq_of_key_eq hn (h.owned _ ho') hmem rfl
    rw [heq] at ho'
    exact hout (List.mem_filter.mpr ⟨ho', hside⟩)

end Booking

end TradingFleet.Pair
