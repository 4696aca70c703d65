import TradingFleet.Pair.Clocks

set_option autoImplicit false

/-! # Restarts

A process that restarts reads its coordinator back from the checkpoint, on a clock with another
origin. What it reads back is the coordinator on that clock (`Faithful.restored`), as long as the
stop can be found by its order ID and no time lies before the start of the round. With the
coupling of the two clocks, the restart is not visible (`restart_invisible`).

The stop is lost when the venue returns a market exit under an order ID that is already held:
`stop_ticket` is then an object that is not among the tickets. An order whose ID is the text
`None` is taken for a stop.
-/

namespace TradingFleet.Pair

open TradingFleet.Hoare TradingFleet.Runs

/-! ## Where the stop is -/

/-- Order IDs and stop marks. -/
def Coordinator.stopViews (c : Coordinator) : List (String × Bool) :=
  c.tickets.map (fun t => (t.orderId, t.isStop))

/-- The stop is the first ticket with its ID, and no other ticket is marked. -/
def StopMarked (views : List (String × Bool)) : Option String → Prop
  | none => ∀ v ∈ views, v.2 = false
  | some id => ∃ before after, views = before ++ (id, true) :: after ∧
      (∀ v ∈ before, v.2 = false ∧ v.1 ≠ id) ∧ ∀ v ∈ after, v.2 = false

/-- A coordinator that a checkpoint can give back. -/
structure Faithful (c : Coordinator) : Prop where
  marked : StopMarked c.stopViews c.stopTicket
  stopping : c.phase = .stopping → c.stopTicket ≠ none
  named : ∀ v ∈ c.stopViews, v.1 ≠ "None"
  firstFill : ∀ t, c.firstFillAt = some t → c.startedAt ≤ t

theorem modify_middle {α : Type} (f : α → α) (l : List α) (a : α) (r : List α) :
    (l ++ a :: r).modify l.length f = l ++ f a :: r := by
  induction l with
  | nil => rfl
  | cons b l ih =>
      show b :: (l ++ a :: r).modify l.length f = b :: (l ++ f a :: r)
      rw [ih]

theorem unmark_of_unmarked {tickets : List OrderTicket} (h : ∀ t ∈ tickets, t.isStop = false) :
    tickets.map OrderTicket.unmark = tickets := by
  have hsame : ∀ t ∈ tickets, t.unmark = t := by
    intro t ht
    unfold OrderTicket.unmark
    rw [← h t ht]
  rw [List.map_congr_left hsame, List.map_id']

/-- The tickets before the stop, the stop, and the tickets after it. -/
theorem StopMarked.split {c : Coordinator} {id : String}
    (h : StopMarked c.stopViews (some id)) :
    ∃ before stop after, c.tickets = before ++ stop :: after ∧ stop.orderId = id ∧
      stop.isStop = true ∧ (∀ t ∈ before, t.isStop = false ∧ t.orderId ≠ id) ∧
      ∀ t ∈ after, t.isStop = false := by
  obtain ⟨vs, us, hviews, hbefore, hafter⟩ := h
  obtain ⟨before, rest, htickets, rfl, hrest⟩ := List.map_eq_append_iff.mp hviews
  obtain ⟨stop, after, rfl, hstop, rfl⟩ := List.map_eq_cons_iff.mp hrest
  rw [Prod.mk.injEq] at hstop
  refine ⟨before, stop, after, htickets, hstop.1, hstop.2, ?_, ?_⟩
  · intro t ht
    exact hbefore _ (List.mem_map_of_mem ht)
  · intro t ht
    exact hafter _ (List.mem_map_of_mem ht)

theorem Faithful.tickets {c : Coordinator} (h : Faithful c) :
    markStop c.foundStop (c.tickets.map OrderTicket.unmark) = c.tickets ∧
      c.foundStop.bind (fun i => ((c.tickets.map OrderTicket.unmark)[i]?).map OrderTicket.orderId) =
        c.stopTicket := by
  cases hstop : c.stopTicket with
  | none =>
      have hunmarked : ∀ t ∈ c.tickets, t.isStop = false := by
        intro t ht
        have := h.marked
        rw [hstop] at this
        exact this _ (List.mem_map_of_mem ht)
      have hfound : c.foundStop = none := by
        -- no order is called `None`, and the phase is not `stopping`
        have hnone : (c.tickets.map OrderTicket.unmark).findIdx?
            (fun t => t.orderId = (none : Option String).getD "None") = none := by
          rw [List.findIdx?_eq_none_iff]
          intro t ht
          obtain ⟨t', ht', rfl⟩ := List.mem_map.mp ht
          exact decide_eq_false (h.named _ (List.mem_map_of_mem ht'))
        have hphase : c.phase ≠ .stopping := fun hp => h.stopping hp hstop
        unfold Coordinator.foundStop restoredStop
        rw [hstop, hnone]
        simp [hphase]
      rw [hfound]
      exact ⟨unmark_of_unmarked hunmarked, rfl⟩
  | some id =>
      have hmarked := h.marked
      rw [hstop] at hmarked
      obtain ⟨before, stop, after, htickets, rfl, hmark, hbefore, hafter⟩ := hmarked.split
      have hunmark : c.tickets.map OrderTicket.unmark = before ++ stop.unmark :: after := by
        rw [htickets, List.map_append, List.map_cons,
          unmark_of_unmarked (fun t ht => (hbefore t ht).1), unmark_of_unmarked hafter]
      have hfound : c.foundStop = some before.length := by
        have hidx : (before ++ stop.unmark :: after).findIdx?
            (fun t => t.orderId = (some stop.orderId).getD "None") = some before.length := by
          have hno : before.findIdx? (fun t => t.orderId = (some stop.orderId).getD "None") = none := by
            rw [List.findIdx?_eq_none_iff]
            exact fun t ht => decide_eq_false (hbefore t ht).2
          rw [List.findIdx?_append, hno, List.findIdx?_cons]
          simp [OrderTicket.unmark]
        unfold Coordinator.foundStop restoredStop
        rw [hstop, hunmark, hidx]
      rw [hfound, hunmark]
      refine ⟨?_, ?_⟩
      · show (before ++ stop.unmark :: after).modify before.length _ = c.tickets
        rw [modify_middle, htickets]
        congr 2
        unfold OrderTicket.unmark
        rw [← hmark]
      · show ((before ++ stop.unmark :: after)[before.length]?).map OrderTicket.orderId = _
        simp [OrderTicket.unmark]

/-- What is read back is the coordinator itself. -/
theorem Faithful.regained {c : Coordinator} (h : Faithful c) : c.regained = c := by
  obtain ⟨htickets, hstop⟩ := h.tickets
  have hfill : c.firstFillAt.map (fun t => max t c.startedAt) = c.firstFillAt := by
    cases hfirst : c.firstFillAt with
    | none => rfl
    | some t => exact congrArg some (max_eq_left (h.firstFill t hfirst))
  unfold Coordinator.regained
  rw [hfill, htickets, hstop]

/-! ## What keeps the stop in its place -/

namespace Coordinator

/-- A change of one ticket that touches neither its ID nor its mark. -/
theorem stopViews_modify (f : OrderTicket → OrderTicket)
    (hf : ∀ t, (f t).orderId = t.orderId ∧ (f t).isStop = t.isStop) (tickets : List OrderTicket)
    (i : Nat) :
    (tickets.modify i f).map (fun t => (t.orderId, t.isStop)) =
      tickets.map (fun t => (t.orderId, t.isStop)) := by
  refine List.ext_getElem? (fun j => ?_)
  by_cases hij : i = j
  · subst hij
    simp [Function.comp_def, hf]
  · simp [List.getElem?_modify_ne _ _ hij]

theorem stopViews_setActive (c : Coordinator) (i : Nat) (active : Bool) :
    (c.setActive i active).stopViews = c.stopViews :=
  stopViews_modify (fun t => { t with active := active }) (fun _ => ⟨rfl, rfl⟩) c.tickets i

theorem stopViews_setTicketRevision (c : Coordinator) (i : Nat) (r : Revision) :
    (c.setTicketRevision i r).stopViews = c.stopViews :=
  stopViews_modify (fun t => { t with revision := r }) (fun _ => ⟨rfl, rfl⟩) c.tickets i

theorem stopViews_append (c : Coordinator) (t : OrderTicket) :
    (c.append t).stopViews = c.stopViews ++ [(t.orderId, false)] := by
  simp [stopViews, append]

/-- The mark moves to the ticket at a position. -/
theorem stopViews_setStop (c : Coordinator) (orderId : String) {before after : List (String × Bool)}
    {v : String × Bool} (h : c.stopViews = before ++ v :: after) :
    (c.setStop orderId before.length).stopViews =
      before.map (fun v => (v.1, false)) ++ (v.1, true) :: after.map (fun v => (v.1, false)) := by
  obtain ⟨ts, rest, htickets, rfl, hrest⟩ := List.map_eq_append_iff.mp h
  obtain ⟨t, us, rfl, rfl, rfl⟩ := List.map_eq_cons_iff.mp hrest
  have hlen : (ts.map (fun t : OrderTicket => (t.orderId, t.isStop))).length =
      (ts.map (fun t : OrderTicket => { t with isStop := false })).length := by
    rw [List.length_map, List.length_map]
  unfold stopViews setStop
  rw [htickets]
  show (((ts ++ t :: us).map _).modify _ _).map _ = _
  rw [List.map_append, List.map_cons, hlen, modify_middle]
  simp [Function.comp_def]

end Coordinator

theorem StopMarked.append {views : List (String × Bool)} {stop : Option String}
    (h : StopMarked views stop) (id : String) : StopMarked (views ++ [(id, false)]) stop := by
  cases stop with
  | none =>
      intro v hv
      rcases List.mem_append.mp hv with hv | hv
      · exact h v hv
      · rw [List.mem_singleton.mp hv]
  | some stopId =>
      obtain ⟨before, after, rfl, hbefore, hafter⟩ := h
      refine ⟨before, after ++ [(id, false)], ?_, hbefore, ?_⟩
      · rw [List.append_assoc, List.cons_append]
      · intro v hv
        rcases List.mem_append.mp hv with hv | hv
        · exact hafter v hv
        · rw [List.mem_singleton.mp hv]

/-- Dropping tickets that are not the stop. -/
theorem StopMarked.compact {c : Coordinator} (h : StopMarked c.stopViews c.stopTicket) :
    StopMarked c.compact.stopViews c.stopTicket := by
  cases hstop : c.stopTicket with
  | none =>
      rw [hstop] at h
      intro v hv
      obtain ⟨t, ht, rfl⟩ := List.mem_map.mp hv
      obtain ⟨x, hx, rfl⟩ := List.mem_map.mp ht
      exact h _ (List.mem_map_of_mem (List.fst_mem_of_mem_zipIdx (List.mem_filter.mp hx).1))
  | some id =>
      rw [hstop] at h
      obtain ⟨before, stop, after, htickets, rfl, hmark, hbefore, hafter⟩ := h.split
      have hkept : c.keeps (stop, before.length) = true := by simp [Coordinator.keeps, hmark]
      have hcompact : c.compact.tickets =
          ((before.zipIdx.filter c.keeps).map Prod.fst) ++ stop ::
            (((after.zipIdx (before.length + 1)).filter c.keeps).map Prod.fst) := by
        unfold Coordinator.compact
        show ((c.tickets.zipIdx.filter c.keeps).map Prod.fst) = _
        rw [htickets, List.zipIdx_append, List.zipIdx_cons, List.filter_append,
          List.filter_cons_of_pos (by simpa using hkept), List.map_append, List.map_cons]
        simp only [Nat.zero_add]
      have hsub : ∀ {l : List OrderTicket} {n : Nat} {t : OrderTicket},
          t ∈ ((l.zipIdx n).filter c.keeps).map Prod.fst → t ∈ l := by
        intro l n t ht
        obtain ⟨x, hx, rfl⟩ := List.mem_map.mp ht
        exact List.fst_mem_of_mem_zipIdx (List.mem_filter.mp hx).1
      refine ⟨((before.zipIdx.filter c.keeps).map Prod.fst).map (fun t => (t.orderId, t.isStop)),
        (((after.zipIdx (before.length + 1)).filter c.keeps).map Prod.fst).map
          (fun t => (t.orderId, t.isStop)), ?_, ?_, ?_⟩
      · unfold Coordinator.stopViews
        rw [hcompact, List.map_append, List.map_cons, hmark]
      · intro v hv
        obtain ⟨t, ht, rfl⟩ := List.mem_map.mp hv
        exact hbefore t (hsub ht)
      · intro v hv
        obtain ⟨t, ht, rfl⟩ := List.mem_map.mp hv
        exact hafter t (hsub ht)

/-- A new stop at the first ticket with its ID. -/
theorem StopMarked.setStop {c : Coordinator} {id : String} {before after : List (String × Bool)}
    {marked : Bool} (hviews : c.stopViews = before ++ (id, marked) :: after)
    (hfirst : ∀ v ∈ before, v.1 ≠ id) :
    StopMarked (c.setStop id before.length).stopViews (some id) := by
  rw [c.stopViews_setStop id hviews]
  refine ⟨_, _, rfl, ?_, ?_⟩
  · intro v hv
    obtain ⟨u, hu, rfl⟩ := List.mem_map.mp hv
    exact ⟨rfl, hfirst u hu⟩
  · intro v hv
    obtain ⟨u, -, rfl⟩ := List.mem_map.mp hv
    rfl

/-- A round without orders. -/
theorem Faithful.fresh {c : Coordinator} (htickets : c.tickets = []) (hstop : c.stopTicket = none)
    (hfill : c.firstFillAt = none) (hphase : c.phase ≠ .stopping) : Faithful c := by
  have hviews : c.stopViews = [] := by rw [Coordinator.stopViews, htickets, List.map_nil]
  refine ⟨?_, fun hp => absurd hp hphase, ?_, ?_⟩
  · rw [hstop, hviews]
    exact fun v hv => absurd hv List.not_mem_nil
  · rw [hviews]
    exact fun v hv => absurd hv List.not_mem_nil
  · intro t ht
    rw [hfill] at ht
    cases ht

/-- Fields that do not matter here. -/
theorem Faithful.of_same {c c' : Coordinator} (h : Faithful c) (hviews : c'.stopViews = c.stopViews)
    (hstop : c'.stopTicket = c.stopTicket) (hphase : c'.phase = .stopping → c'.stopTicket ≠ none)
    (hstarted : c'.startedAt = c.startedAt) (hfill : c'.firstFillAt = c.firstFillAt) :
    Faithful c' where
  marked := by
    rw [hviews, hstop]
    exact h.marked
  stopping := hphase
  named := by
    rw [hviews]
    exact h.named
  firstFill := by
    rw [hstarted, hfill]
    exact h.firstFill

theorem Faithful.append {c : Coordinator} (h : Faithful c) {t : OrderTicket}
    (hname : t.orderId ≠ "None") : Faithful (c.append t) where
  marked := by
    rw [c.stopViews_append]
    exact h.marked.append t.orderId
  stopping := h.stopping
  named := by
    intro v hv
    rw [c.stopViews_append] at hv
    rcases List.mem_append.mp hv with hv | hv
    · exact h.named v hv
    · rw [List.mem_singleton.mp hv]
      exact hname
  firstFill := h.firstFill

theorem Faithful.compact {c : Coordinator} (h : Faithful c) : Faithful c.compact where
  marked := h.marked.compact
  stopping := h.stopping
  named := by
    intro v hv
    obtain ⟨t, ht, rfl⟩ := List.mem_map.mp hv
    obtain ⟨x, hx, rfl⟩ := List.mem_map.mp ht
    exact h.named _ (List.mem_map_of_mem (List.fst_mem_of_mem_zipIdx (List.mem_filter.mp hx).1))
  firstFill := h.firstFill

/-- The mark set at a position with the right ID, in phase `stopping`. -/
theorem Faithful.setStop {c c' : Coordinator} (h : Faithful c) {id : String}
    {before after : List (String × Bool)} {marked : Bool}
    (hviews : c.stopViews = before ++ (id, marked) :: after) (hfirst : ∀ v ∈ before, v.1 ≠ id)
    (hc : c'.stopViews = (c.setStop id before.length).stopViews ∧ c'.stopTicket = some id)
    (hstarted : c'.startedAt = c.startedAt) (hfill : c'.firstFillAt = c.firstFillAt) :
    Faithful c' where
  marked := by
    rw [hc.1, hc.2]
    exact StopMarked.setStop hviews hfirst
  stopping := by
    intro _
    rw [hc.2]
    nofun
  named := by
    intro v hv
    rw [hc.1, c.stopViews_setStop id hviews] at hv
    have hold : ∃ u ∈ c.stopViews, u.1 = v.1 := by
      rw [hviews]
      rcases List.mem_append.mp hv with hv | hv
      · obtain ⟨u, hu, rfl⟩ := List.mem_map.mp hv
        exact ⟨u, List.mem_append_left _ hu, rfl⟩
      · rcases List.mem_cons.mp hv with rfl | hv
        · exact ⟨(id, marked), List.mem_append_right _ List.mem_cons_self, rfl⟩
        · obtain ⟨u, hu, rfl⟩ := List.mem_map.mp hv
          exact ⟨u, List.mem_append_right _ (List.mem_cons_of_mem _ hu), rfl⟩
    obtain ⟨u, hu, hsame⟩ := hold
    rw [← hsame]
    exact h.named u hu
  firstFill := by
    rw [hstarted, hfill]
    exact h.firstFill

/-- A market exit under a new ID. -/
theorem Faithful.takeStop {c : Coordinator} (h : Faithful c) {t : OrderTicket}
    (hname : t.orderId ≠ "None") (hnew : c.knows t.orderId = false) :
    Faithful { c.takeStop t with phase := .stopping } := by
  have hlen : c.stopViews.length = c.tickets.length := by
    unfold Coordinator.stopViews
    rw [List.length_map]
  have hfirst : ∀ v ∈ c.stopViews, v.1 ≠ t.orderId := by
    intro v hv hid
    obtain ⟨t', ht', rfl⟩ := List.mem_map.mp hv
    have : c.knows t.orderId = true :=
      List.any_eq_true.mpr ⟨t', ht', decide_eq_true hid⟩
    rw [hnew] at this
    cases this
  refine (h.append hname).setStop (c.stopViews_append t) hfirst ?_ ?_ ?_
  · unfold Coordinator.takeStop
    rw [hnew, hlen]
    exact ⟨rfl, rfl⟩
  · unfold Coordinator.takeStop
    rw [hnew]
    rfl
  · unfold Coordinator.takeStop
    rw [hnew]
    rfl

/-- A recovered order is at the position that was found for it. -/
theorem adopted_views (c : Coordinator) (t : OrderTicket) :
    ∃ before marked after, (c.adopted t).1.stopViews = before ++ (t.orderId, marked) :: after ∧
      before.length = (c.adopted t).2 ∧ ∀ v ∈ before, v.1 ≠ t.orderId := by
  unfold Coordinator.adopted
  split
  · rename_i i hi
    obtain ⟨hlt, hmatch, hbefore⟩ := List.findIdx?_eq_some_iff_getElem.mp hi
    have hid : c.tickets[i].orderId = t.orderId := by simpa using hmatch
    refine ⟨(c.tickets.take i).map (fun t => (t.orderId, t.isStop)), c.tickets[i].isStop,
      (c.tickets.drop (i + 1)).map (fun t => (t.orderId, t.isStop)), ?_, ?_, ?_⟩
    · have hsplit : c.tickets = c.tickets.take i ++ c.tickets[i] :: c.tickets.drop (i + 1) := by
        rw [List.getElem_cons_drop, List.take_append_drop]
      show c.tickets.map _ = _
      conv_lhs => rw [hsplit]
      rw [List.map_append, List.map_cons, hid]
    · rw [List.length_map, List.length_take]
      exact min_eq_left (le_of_lt hlt)
    · intro v hv
      obtain ⟨t', ht', rfl⟩ := List.mem_map.mp hv
      obtain ⟨j, hj, rfl⟩ := List.mem_take_iff_getElem.mp ht'
      have hno := hbefore j (by omega)
      simpa using hno
  · rename_i hnone
    refine ⟨c.stopViews, false, [], c.stopViews_append _, ?_, ?_⟩
    · unfold Coordinator.stopViews
      rw [List.length_map]
    · intro v hv
      obtain ⟨t', ht', rfl⟩ := List.mem_map.mp hv
      have hno := List.findIdx?_eq_none_iff.mp hnone t' ht'
      simpa using hno

theorem Faithful.adopt {c : Coordinator} (h : Faithful c) {r : Recovered}
    (hname : r.ticket.orderId ≠ "None") : Faithful (c.adopt r) := by
  obtain ⟨before, marked, after, hviews, hlen, hfirst⟩ := adopted_views c r.ticket
  have hadopted : Faithful (c.adopted r.ticket).1 := by
    unfold Coordinator.adopted
    split
    · exact h
    · exact h.append hname
  unfold Coordinator.adopt
  generalize c.adopted r.ticket = p at hviews hlen hadopted
  obtain ⟨c', i⟩ := p
  -- reading the order and its revision changes no ID and no mark
  have hread : ∀ side, Faithful (((c'.setActive i (r.snapshot.status = .opened)).setSnapshot
        r.ticket.orderId r.snapshot).adoptLimit i side r.kind) ∧
      (((c'.setActive i (r.snapshot.status = .opened)).setSnapshot r.ticket.orderId
        r.snapshot).adoptLimit i side r.kind).stopViews = c'.stopViews := by
    intro side
    have hsame : (((c'.setActive i (r.snapshot.status = .opened)).setSnapshot r.ticket.orderId
        r.snapshot).adoptLimit i side r.kind).stopViews = c'.stopViews := by
      unfold Coordinator.adoptLimit
      split
      · exact c'.stopViews_setActive i _
      · exact (Coordinator.stopViews_setTicketRevision _ i _).trans (c'.stopViews_setActive i _)
    refine ⟨hadopted.of_same hsame ?_ ?_ ?_ ?_, hsame⟩
    all_goals
      unfold Coordinator.adoptLimit
      split
    · rfl
    · rfl
    · exact hadopted.stopping
    · exact hadopted.stopping
    · rfl
    · rfl
    · rfl
    · rfl
  simp only
  obtain ⟨hlimit, hsame⟩ := hread
    (((((c'.setActive i (r.snapshot.status = .opened)).setSnapshot r.ticket.orderId
      r.snapshot).tickets[i]?).map OrderTicket.side).getD r.ticket.side)
  unfold Coordinator.adoptStop
  split
  · exact hlimit
  · rename_i revision hrevision
    have hviews' := (Coordinator.stopViews_setTicketRevision (Coordinator.adoptLimit
      ((c'.setActive i (r.snapshot.status = .opened)).setSnapshot r.ticket.orderId r.snapshot) i
      (((((c'.setActive i (r.snapshot.status = .opened)).setSnapshot r.ticket.orderId
        r.snapshot).tickets[i]?).map OrderTicket.side).getD r.ticket.side) r.kind) i revision).trans
      (hsame.trans hviews)
    refine Faithful.setStop (hlimit.of_same (Coordinator.stopViews_setTicketRevision _ i revision)
      rfl hlimit.stopping rfl rfl) hviews' hfirst ⟨?_, rfl⟩ rfl rfl
    rw [hlen]
    rfl

theorem Faithful.adoptAll {items : List Recovered} {c : Coordinator} (h : Faithful c)
    (hnames : ∀ r ∈ items, r.ticket.orderId ≠ "None") : Faithful (items.foldl Coordinator.adopt c) := by
  induction items generalizing c with
  | nil => exact h
  | cons r rest ih =>
      exact ih (h.adopt (hnames r List.mem_cons_self))
        (fun x hx => hnames x (List.mem_cons_of_mem _ hx))

/-! ## Runs -/

/-- The IDs of the orders a call returned. -/
def Event.orderIds : Event → List String
  | .placeLimit _ _ (.ok (some t)) => [t.orderId]
  | .placeMarketExit _ _ (.ok (some t)) => [t.orderId]
  | .recoverPairIntents (.ok items) => items.map (fun r => r.ticket.orderId)
  | _ => []

/-- The ID of the market exit a call returned. -/
def Event.stopId : Event → Option String
  | .placeMarketExit _ _ (.ok (some t)) => some t.orderId
  | _ => none

/-- No order is called `None`, and a market exit has an ID that is not held. -/
structure Call.Named (x : Call) : Prop where
  names : ∀ id ∈ x.event.orderIds, id ≠ "None"
  stopNew : ∀ id ∈ x.event.stopId, x.before.knows id = false

/-- The steps of a run whose orders are named and whose times are in order, on the readings `T`. -/
def World.NextNamed (S : Setup) (T : Set ℚ) (w : World) (a : Action) (w' : World) : Prop :=
  w' = w.after S a ∧ w.InTime T a ∧ ∀ x ∈ w'.log, x.Named

/-- If all calls are named, the coordinator can be given back. -/
def Restorable (w : World) : Prop := (∀ x ∈ w.log, x.Named) → Faithful w.coord

theorem Restorable.called {w : World} (h : Restorable w) (e : Event) :
    Restorable { w with log := ⟨w.coord, e⟩ :: w.log } :=
  fun hnamed => h (fun x hx => hnamed x (List.mem_cons_of_mem _ hx))

theorem Restorable.of_coord {w : World} (h : Restorable w) {c : Coordinator}
    (hc : Faithful w.coord → Faithful c) : Restorable { w with coord := c } :=
  fun hnamed => hc (h hnamed)

/-- Every move of a step keeps the coordinator restorable. -/
theorem Move.restorable {policy : PairPolicy} {now : ℚ} {allowed : Event → Prop} {w w' : World}
    (hmove : Move policy now allowed w w') (h : w.coord.startedAt ≤ now ∧ Restorable w) :
    w'.coord.startedAt ≤ now ∧ Restorable w' := by
  obtain ⟨htime, h⟩ := h
  cases hmove with
  | call _ _ => exact ⟨htime, h.called _⟩
  | flag i active =>
      exact ⟨htime, h.of_coord (fun hf => hf.of_same (w.coord.stopViews_setActive i active) rfl
        hf.stopping rfl rfl)⟩
  | read _ _ =>
      exact ⟨htime, (h.called _).of_coord (fun hf => hf.of_same rfl rfl hf.stopping rfl rfl)⟩
  | compact _ _ => exact ⟨htime, (h.called _).of_coord (fun hf => hf.compact)⟩
  | firstFill buyQty sellQty =>
      unfold Coordinator.recordFirstFill
      split
      · exact ⟨htime, h⟩
      · refine ⟨htime, h.of_coord (fun hf => ⟨hf.marked, hf.stopping, hf.named, ?_⟩)⟩
        intro t ht
        cases ht
        exact htime
  | reason reason =>
      exact ⟨htime, h.of_coord (fun hf => hf.of_same rfl rfl hf.stopping rfl rfl)⟩
  | phase hphase =>
      exact ⟨htime, h.of_coord (fun hf => hf.of_same rfl rfl
        (fun hp => absurd hp hphase.1) rfl rfl)⟩
  | resume hstop =>
      exact ⟨htime, h.of_coord (fun hf => hf.of_same rfl rfl (fun _ => hstop) rfl rfl)⟩
  | revision side r =>
      exact ⟨htime, h.of_coord (fun hf => hf.of_same rfl rfl hf.stopping rfl rfl)⟩
  | stopFields revision reason =>
      exact ⟨htime, h.of_coord (fun hf => hf.of_same rfl rfl hf.stopping rfl rfl)⟩
  | @append x rest order t hlog hx hbefore hnew =>
      refine ⟨htime, fun hnamed => (h hnamed).append ?_⟩
      -- the ID of an accepted order is one that the venue named
      have hname := (hnamed x (by rw [hlog]; exact List.mem_cons_self)).names
      rw [hx] at hname
      exact hname _ List.mem_cons_self
  | @stop x rest site order t hlog hx hbefore =>
      have hstarted := (takeStop_times w.coord t).1
      refine ⟨hstarted.trans_le htime, fun hnamed => ?_⟩
      have hx' := hnamed x (by rw [hlog]; exact List.mem_cons_self)
      have hname := hx'.names
      have hnew := hx'.stopNew
      rw [hx] at hname hnew
      refine (h hnamed).takeStop (hname _ List.mem_cons_self) ?_
      have hknows := hnew t.orderId rfl
      unfold Coordinator.knows at hknows ⊢
      rwa [hbefore] at hknows
  | @adopt items hallowed =>
      have hstarted := (adoptAll_times items w.coord).1
      refine ⟨hstarted.trans_le htime, fun hnamed => (h.called _ hnamed).adoptAll ?_⟩
      intro r hr
      exact (hnamed _ List.mem_cons_self).names _ (List.mem_map_of_mem hr)

section Running

variable (S : Setup)

theorem step_restorable (now : ℚ) (fuel : Nat) :
    Triple (fun w => w.coord.startedAt ≤ now ∧ Restorable w) (step S now fuel)
      (fun _ => Restorable) (fun _ => Restorable) := by
  have hwalks : Moves (Walks S.policy now (fun _ => True)) (step S now fuel) :=
    step_walks (fun _ _ => trivial) (fun _ _ => trivial) fuel
  exact hwalks.triple (fun _ _ h hw => (hw.invariant (fun _ _ hm hi => hm.restorable hi) h).2)

/-! ## Starting -/

/-- Calls that change no order ID and no mark. -/
theorem restorable_touches {α : Type} {x : PairM α} (hx : Moves Touches x)
    (hviews : Moves (fun w w' => w'.coord.stopViews = w.coord.stopViews) x) : Keeps Restorable x := by
  intro w hw
  have ht := hx w
  have hv := hviews w
  have hkeep : ∀ w', Touches w w' → w'.coord.stopViews = w.coord.stopViews → Restorable w' := by
    intro w' htouch hsame hnamed
    obtain ⟨new, hlog, -⟩ := htouch.log
    have hf := hw (fun x hx => hnamed x (by rw [hlog]; exact List.mem_append_right _ hx))
    refine hf.of_same hsame ?_ ?_ ?_ ?_
    · rw [htouch.fields]
    · rw [htouch.phase, htouch.fields]
      exact hf.stopping
    · rw [htouch.fields]
    · rw [htouch.fields]
  cases hres : x w with
  | ok a w' =>
      rw [hres] at ht hv
      exact hkeep w' ht hv
  | error e w' =>
      rw [hres] at ht hv
      exact hkeep w' ht hv

theorem restorable_asks {α : Type} {x : PairM α} (hx : Moves Asks x) : Keeps Restorable x := by
  refine hx.triple (fun w w' h ha hnamed => ?_)
  obtain ⟨new, hlog, -⟩ := ha.log
  rw [ha.coord]
  exact h (fun x hx => hnamed x (by rw [hlog]; exact List.mem_append_right _ hx))

theorem setPhase_restorable {phase : Phase} (hphase : phase ≠ .stopping) (reason : Option String) :
    Keeps Restorable (setPhase phase reason) :=
  Triple.update (fun _ h => h.of_coord (fun hf => hf.of_same rfl rfl
    (fun hp => absurd hp hphase) rfl rfl))

theorem cancelAndReconcile_stopViews (i : Nat) (orderId : String) :
    Moves (fun w w' => w'.coord.stopViews = w.coord.stopViews) (cancelAndReconcile S i orderId) := by
  have htrans : ∀ w w' w'' : World, w'.coord.stopViews = w.coord.stopViews →
      w''.coord.stopViews = w'.coord.stopViews → w''.coord.stopViews = w.coord.stopViews :=
    fun _ _ _ h h' => h'.trans h
  have hpure : ∀ a : Option CancelFailure, Moves (fun w w' : World =>
      w'.coord.stopViews = w.coord.stopViews) (pure a : PairM _) := fun _ _ => rfl
  refine Moves.bind htrans (Moves.ask (fun _ _ => rfl)) (fun answer => ?_)
  split
  · refine Moves.bind htrans (Moves.ask (fun _ _ => rfl)) (fun status => ?_)
    split
    · exact Moves.bind htrans (Moves.update (fun w => w.coord.stopViews_setActive i true))
        (fun _ => hpure _)
    · refine Moves.bind htrans (Moves.update (fun w =>
        Coordinator.stopViews_setActive (w.coord.setSnapshot orderId _) i _)) (fun _ => ?_)
      split
      · exact hpure _
      · exact hpure _
  · exact hpure _

theorem firstLegFailed_restorable (side : Side) (raised : Bool) :
    Keeps Restorable (firstLegFailed S side raised) := by
  refine Keeps.bind (restorable_asks (placeFailureReason_asks S side)) (fun reason => ?_)
  refine Keeps.bind (restorable_asks (legRecoveryPending_asks S raised reason)) (fun pending => ?_)
  exact Triple.ite (fun _ => setPhase_restorable (by decide) _) (fun _ => setPhase_restorable (by decide) _)

theorem secondLegFailed_restorable (side : Side) (raised : Bool) (firstId : String) :
    Keeps Restorable (secondLegFailed S side raised firstId) := by
  refine Keeps.bind (restorable_asks (placeFailureReason_asks S side)) (fun reason => ?_)
  refine Keeps.bind (restorable_touches (cancelAndReconcile_touches S 0 firstId)
    (cancelAndReconcile_stopViews S 0 firstId)) (fun failure => ?_)
  refine Keeps.bind (restorable_asks (legRecoveryPending_asks S raised reason)) (fun pending => ?_)
  split
  · exact Keeps.bind (Triple.mark (fun _ h => h.called _)) (fun _ => setPhase_restorable (by decide) _)
  · refine Triple.ite (fun _ => setPhase_restorable (by decide) _) (fun _ => Triple.coord (fun c => ?_))
    exact (Triple.ite (fun _ => setPhase_restorable (by decide) _)
      (fun _ => setPhase_restorable (by decide) _)).strengthen (fun _ h => h.1)

/-- A leg is added under the ID the venue has just given it. -/
theorem placeEntry_restorable (side : Side) (price : ℚ) :
    Triple Restorable (placeEntry S side price)
      (fun answer w => Restorable w ∧ ∀ t, answer = .ok (some t) →
        (∀ x ∈ w.log, x.Named) → t.orderId ≠ "None") (fun _ => Restorable) := by
  refine Triple.coord (fun c => Triple.ask (fun w answer h => ⟨h.1.called _, ?_⟩))
  rintro t rfl hnamed
  exact (hnamed _ List.mem_cons_self).names t.orderId List.mem_cons_self

theorem addLeg_restorable (t : OrderTicket) :
    Triple (fun w => Restorable w ∧ ((∀ x ∈ w.log, x.Named) → t.orderId ≠ "None"))
      (update (fun c => c.append t)) (fun _ => Restorable) (fun _ => Restorable) :=
  Triple.update (fun _ h hnamed => (h.1 hnamed).append (h.2 hnamed))

theorem placeLegs_restorable (prices : ℚ × ℚ) : Keeps Restorable (placeLegs S prices) := by
  refine Triple.coord (fun c => Triple.strengthen (P := Restorable) ?_ (fun w h => h.1))
  refine Triple.bind (placeEntry_restorable S _ _) (fun first => ?_)
  split
  · refine Triple.bind ((addLeg_restorable _).strengthen (fun w h => ⟨h.1, h.2 _ rfl⟩)) (fun _ => ?_)
    refine Triple.bind (placeEntry_restorable S _ _) (fun second => ?_)
    split
    · refine Triple.bind ((addLeg_restorable _).strengthen (fun w h => ⟨h.1, h.2 _ rfl⟩)) (fun _ => ?_)
      exact Triple.update (fun _ h => h.of_coord (fun hf => hf.of_same rfl rfl nofun rfl rfl))
    · exact (secondLegFailed_restorable S _ _ _).strengthen (fun w h => h.1)
    · exact (secondLegFailed_restorable S _ _ _).strengthen (fun w h => h.1)
  · exact (firstLegFailed_restorable S _ _).strengthen (fun w h => h.1)
  · exact (firstLegFailed_restorable S _ _).strengthen (fun w h => h.1)

theorem start_restorable (mid : Option ℚ) (pairId : String) (clock : ℚ) :
    Keeps Restorable (start S mid pairId clock) := by
  refine Triple.coord (fun c => Triple.ite (fun _ => Triple.throw (fun _ h => h.1)) (fun hphase => ?_))
  have hstopping : c.phase ≠ .stopping := by
    intro hp
    exact hphase (by rw [hp]; exact ⟨nofun, rfl⟩)
  have hasks : ∀ {α : Type} {x : PairM α}, Moves Asks x →
      Triple (fun w => Restorable w ∧ w.coord = c) x (fun _ w => Restorable w ∧ w.coord = c)
        (fun _ => Restorable) := by
    intro α x hx
    refine ((restorable_asks hx).and (hx.triple (P := fun w => w.coord = c)
      (Q := fun w => w.coord = c) (fun w w' h ha => ha.coord.trans h))).conseq (fun _ h => h)
      (fun _ _ h => h) (fun _ _ h => h.1)
  refine Triple.bind (hasks (startMid_asks S mid)) (fun mid => ?_)
  refine Triple.bind (hasks (asks_orRaise _)) (fun prices => ?_)
  refine Triple.bind (Q := fun _ => Restorable) (Triple.update ?_) (fun _ => ?_)
  · -- the round begins without tickets and without a stop
    rintro w ⟨-, rfl⟩ -
    exact Faithful.fresh rfl rfl rfl hstopping
  · refine Keeps.bind (placeLegs_restorable S prices) (fun _ => ?_)
    exact Triple.coord (fun _ => Triple.pure (fun _ h => h.1))

end Running

/-! ## The main result -/

/-- The coordinator of such a run can be given back, and its times are readings. -/
theorem named_reachable {S : Setup} {T : Set ℚ} {d : ℚ} (hexact : ExactClock T d) {w : World}
    (h : Reach World.Initial (World.NextNamed S T) w) : Faithful w.coord ∧ w.coord.Within T := by
  have hall : Restorable w ∧ (∀ x ∈ w.log, x.Named) ∧ w.coord.Within T := by
    refine Reach.invariant
      (P := fun w => Restorable w ∧ (∀ x ∈ w.log, x.Named) ∧ w.coord.Within T) ?_ ?_ h
    · rintro w ⟨hlog, qty, side, hqty, hcoord⟩
      refine ⟨fun _ => ?_, ?_, ?_⟩
      · rw [hcoord]
        exact Faithful.fresh rfl rfl rfl (show Phase.idle ≠ .stopping by decide)
      · rw [hlog]
        exact fun x hx => absurd hx List.not_mem_nil
      · rw [hcoord]
        exact ⟨hexact.zero, nofun⟩
    · rintro w a w' ⟨hw, hold, hwithin⟩ ⟨rfl, htime, hnamed⟩
      have hshifted : Shifted T d w { w with coord := w.coord.shift d } := ⟨rfl, hwithin, rfl⟩
      refine ⟨?_, hnamed, (after_coupled S hexact hshifted htime).2.within⟩
      cases a with
      | start mid pairId clock => exact final_of_triple (start_restorable S mid pairId clock) hw
      | step now fuel => exact final_of_triple (step_restorable S now fuel) ⟨htime.2, hw⟩
      | restart clock =>
          -- a checkpoint read back on the same clock is the coordinator itself
          have hsame : w.coord.restored clock clock = w.coord :=
            (restored_home hexact hwithin htime.1 htime.2).trans (hw hold).regained
          show Restorable (w.restarted clock)
          rw [w.restarted_eq, hsame]
          exact hw
  exact ⟨hall.1 hall.2.1, hall.2.2⟩

/-- A restart at `clock`, on a clock that is ahead by `d` afterwards: the checkpoint is
accepted, and whatever is done next is reported and answered by calls as without the restart. -/
def RestartInvisible (S : Setup) (T : Set ℚ) (w : World) (clock d : ℚ) : Prop :=
  ∃ c, fromState (exportState w.coord clock) (clock + d) = .ok c ∧
    ∀ later : List Action, Along (World.after S) (World.InTime T) w later →
      World.reports S { w with coord := c } (later.map (Action.shift d)) = w.reports S later ∧
      (World.run S { w with coord := c } (later.map (Action.shift d))).log.map Call.event =
        (w.run S later).log.map Call.event

/-- **A restart is not visible.** In every run in which no market exit comes back under an ID
that is held, no order is called `None`, no time lies before the start of the round, and no
difference of two readings of the clock is rounded. -/
theorem restart_invisible {S : Setup} {T : Set ℚ} {d : ℚ} (hexact : ExactClock T d) {w : World}
    (h : Reach World.Initial (World.NextNamed S T) w) {clock : ℚ} (hclock : clock ∈ T)
    (hle : w.coord.startedAt ≤ clock) : RestartInvisible S T w clock d := by
  obtain ⟨hfaithful, hwithin⟩ := named_reachable hexact h
  refine ⟨w.coord.shift d, ?_, fun later htimes => ?_⟩
  · rw [fromState_exportState, restored_ahead hexact hwithin hclock hle, hfaithful.regained]
  · obtain ⟨hreports, hend⟩ := run_coupled S hexact later
      (show Shifted T d w { w with coord := w.coord.shift d } from ⟨rfl, hwithin, rfl⟩) htimes
    exact ⟨hreports, hend.calls⟩

/-! ## A market exit that comes back -/

instance (x : Call) : Decidable x.Named :=
  decidable_of_iff ((∀ id ∈ x.event.orderIds, id ≠ "None") ∧
    ∀ id ∈ x.event.stopId, x.before.knows id = false)
    ⟨fun h => ⟨h.1, h.2⟩, fun h => ⟨h.names, h.stopNew⟩⟩

theorem reachable_of_along {S : Setup} {T : Set ℚ} (actions : List Action) {w : World}
    (h : Reach World.Initial (World.NextNamed S T) w)
    (htimes : Along (World.after S) (World.InTime T) w actions)
    (hnamed : Along (World.after S) (fun w a => ∀ x ∈ (w.after S a).log, x.Named) w actions) :
    Reach World.Initial (World.NextNamed S T) (w.run S actions) := by
  induction actions generalizing w with
  | nil => exact h
  | cons a rest ih =>
      exact ih (Reach.step (i := a) h ⟨rfl, htimes.1, hnamed.1⟩) htimes.2 hnamed.2

/-- The whole seconds of a clock. -/
def wholeSeconds : Set ℚ := { t | ∃ n : ℕ, n < 2 ^ 50 ∧ t = n }

/-- Whole seconds are exact, also a hundred seconds later. -/
theorem wholeSeconds_exact : ExactClock wholeSeconds 100 where
  zero := ⟨0, by norm_num, by norm_num⟩
  reading := by
    rintro a ⟨n, hn, rfl⟩
    exact_mod_cast Rounding.double_intCast (n := n) (by rw [abs_of_nonneg (by omega)]; omega)
  ahead := by
    rintro a ⟨n, hn, rfl⟩
    have hsum := Rounding.double_intCast (n := n + 100) (by rw [abs_of_nonneg (by omega)]; omega)
    push_cast at hsum
    exact hsum
  difference := by
    rintro a ⟨n, hn, rfl⟩ b ⟨m, hm, rfl⟩
    have hdifference := Rounding.double_intCast (n := n - m) (by rw [abs_lt]; omega)
    push_cast at hdifference
    exact hdifference

theorem mem_wholeSeconds (n : ℕ) (hn : n < 2 ^ 50) : (n : ℚ) ∈ wholeSeconds := ⟨n, hn, rfl⟩

theorem stopPart_qty : (0 : ℚ) ≤ 4 := by norm_num

theorem stopPart_cost : (0 : ℚ) ≤ 320 := by norm_num

/-- The BUY leg fills and the price falls. The market exit fills 4 of 10, and the one for the
rest comes back as the order `second`. -/
def partialStopVenue (second : String) : Venue :=
  { sampleVenue with
    currentPrice := fun _ => .ok (some 80)
    placeMarketExit := fun _ order =>
      .ok (some (sampleTicket (if order.revision = 0 then "STOP-0" else second) order.side
        Revision.zero))
    orderStatus := fun n orderId =>
      if orderId = "BUY-0" then .ok filledRead
      else if orderId = "STOP-0" then .ok (sampleRead .closed 4 320 stopPart_qty stopPart_cost)
      else if n < 11 then .ok OrderSnapshot.unread
      else .ok withdrawnRead }

def partialStop (second : String) : Setup := ⟨partialStopVenue second, samplePolicy⟩

def partialStopRun : List Action := [.start (some 100) "pair-1" 0, .step 1 1000, .step 2 1000]

theorem partialStop_restart_invisible :
    (sampleStart.run (partialStop "STOP-1") partialStopRun).coord.stopTicket = some "STOP-1" ∧
      RestartInvisible (partialStop "STOP-1") wholeSeconds
        (sampleStart.run (partialStop "STOP-1") partialStopRun) 2 100 := by
  refine ⟨by decide +kernel, ?_⟩
  have hreach : Reach World.Initial (World.NextNamed (partialStop "STOP-1") wholeSeconds)
      (sampleStart.run (partialStop "STOP-1") partialStopRun) := by
    refine reachable_of_along _ (Reach.start sampleStart_initial)
      ⟨mem_wholeSeconds 0 (by norm_num), ⟨mem_wholeSeconds 1 (by norm_num), ?_⟩,
        ⟨mem_wholeSeconds 2 (by norm_num), ?_⟩, trivial⟩ (by decide +kernel)
    · decide +kernel
    · decide +kernel
  exact restart_invisible wholeSeconds_exact hreach (mem_wholeSeconds 2 (by norm_num))
    (by decide +kernel)

/-- The second market exit comes back under the ID of the first. After a restart that ticket is
the stop, so the SELL leg is the latest limit order and is read on. -/
theorem repeatedStop_restart_visible :
    World.Reachable (partialStop "STOP-0")
        (sampleStart.run (partialStop "STOP-0") partialStopRun) ∧
      ¬ RestartInvisible (partialStop "STOP-0") Set.univ
        (sampleStart.run (partialStop "STOP-0") partialStopRun) 2 0 := by
  refine ⟨run_reachable _ (Reach.start sampleStart_initial), ?_⟩
  rintro ⟨c, hc, hlater⟩
  rw [fromState_exportState, Except.ok.injEq] at hc
  have htimes : Along (World.after (partialStop "STOP-0")) (World.InTime Set.univ)
      (sampleStart.run (partialStop "STOP-0") partialStopRun) [.step 3 1000, .step 4 1000] := by
    refine ⟨⟨trivial, ?_⟩, ⟨trivial, ?_⟩, trivial⟩
    · decide +kernel
    · decide +kernel
  have hcalls := congrArg List.length (hlater [.step 3 1000, .step 4 1000] htimes).2
  rw [← hc, List.length_map, List.length_map] at hcalls
  exact absurd hcalls (by decide +kernel)

end TradingFleet.Pair
