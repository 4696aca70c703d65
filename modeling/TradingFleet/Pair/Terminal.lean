import Mathlib.Algebra.Order.BigOperators.Group.List
import TradingFleet.Pair.Answers

set_option autoImplicit false

/-! # What a finished round owns

When a round is over, none of its orders may still be open and the position has to be flat.
Terminal phases are entered from ten places. Six of them look at `_has_active_tickets` or have
just withdrawn every ticket; the other four only look at the net quantity. What is active there
is what the venue's answers leave active, so the results are about runs in which they leave no
order open (`Withdrawn`).

An order is open or not according to its last read (`lastRead`). The link between reads and
the `active` flags (`Linked`) is made by `_refresh` at the beginning of each step and kept by
everything that cancels, reads or recovers after it.
-/

namespace TradingFleet.Pair

open TradingFleet.Hoare TradingFleet.Runs

/-! ## Reads -/

theorem lastRead_of_silent {new log : List Call} (h : ∀ x ∈ new, x.event.silent = true) :
    lastRead (new ++ log) = lastRead log := by
  induction new with
  | nil => rfl
  | cons x new ih =>
      show x.event.reads.foldl Reads.apply (lastRead (new ++ log)) = lastRead log
      rw [reads_of_silent (h x List.mem_cons_self), ih (fun y hy => h y (List.mem_cons_of_mem _ hy))]
      rfl

/-! ## Flags and reads -/

/-- At the positions of `D`: an order has an active ticket, or its last read is not open. -/
def Linked (D : Nat → Prop) (views : List (String × Bool)) (last : Reads) : Prop :=
  ∀ j v, D j → views[j]? = some v →
    (∃ j' v', D j' ∧ views[j']? = some v' ∧ v'.1 = v.1 ∧ v'.2 = true) ∨
      ∃ s, last v.1 = some s ∧ s.status ≠ .opened

/-- A read at one position, with the flag that goes with it. -/
theorem Linked.read {D : Nat → Prop} {views : List (String × Bool)} {last : Reads}
    (h : Linked D views last) {i : Nat} {v : String × Bool} (hi : views[i]? = some v)
    (snap : OrderSnapshot) :
    Linked (fun j => D j ∨ j = i)
      (views.modify i (fun v => (v.1, decide (snap.status = .opened)))) (last.apply (v.1, snap)) := by
  have hnew : (views.modify i (fun v => (v.1, decide (snap.status = .opened))))[i]? =
      some (v.1, decide (snap.status = .opened)) := by
    rw [List.getElem?_modify_eq, hi]
    rfl
  intro j u hD hu
  by_cases hid : u.1 = v.1
  · by_cases hopen : snap.status = .opened
    · exact Or.inl ⟨i, _, Or.inr rfl, hnew, hid.symm, by simpa using hopen⟩
    · refine Or.inr ⟨snap, ?_, hopen⟩
      rw [hid]
      exact Function.update_self _ _ _
  · -- another order: neither its flags nor its last read changed
    have hne : i ≠ j := by
      intro heq
      subst heq
      rw [hnew, Option.some.injEq] at hu
      exact hid (by rw [← hu])
    have hu' : views[j]? = some u := by
      rwa [List.getElem?_modify_ne _ _ hne] at hu
    have hDj : D j := hD.resolve_right (fun heq => hne heq.symm)
    rcases h j u hDj hu' with ⟨j', v', hD', hv', hsame, hact⟩ | ⟨s, hs, hclosed⟩
    · refine Or.inl ⟨j', v', Or.inl hD', ?_, hsame, hact⟩
      have hne' : i ≠ j' := by
        intro heq
        subst heq
        rw [hi, Option.some.injEq] at hv'
        exact hid (by rw [← hsame, ← hv'])
      rwa [List.getElem?_modify_ne _ _ hne']
    · refine Or.inr ⟨s, ?_, hclosed⟩
      unfold Reads.apply
      rwa [Function.update_of_ne hid]

/-- A flag that is set. -/
theorem Linked.activate {D : Nat → Prop} {views : List (String × Bool)} {last : Reads}
    (h : Linked D views last) (i : Nat) :
    Linked D (views.modify i (fun v => (v.1, true))) last := by
  intro j u hD hu
  obtain ⟨u₀, hu₀, hid⟩ : ∃ u₀, views[j]? = some u₀ ∧ u₀.1 = u.1 := by
    by_cases hij : i = j
    · subst hij
      rw [List.getElem?_modify_eq] at hu
      obtain ⟨u₀, hu₀, rfl⟩ := Option.map_eq_some_iff.mp hu
      exact ⟨u₀, hu₀, rfl⟩
    · rw [List.getElem?_modify_ne _ _ hij] at hu
      exact ⟨u, hu, rfl⟩
  rcases h j u₀ hD hu₀ with ⟨j', v', hD', hv', hsame, hact⟩ | hclosed
  · by_cases hij : i = j'
    · subst hij
      refine Or.inl ⟨i, (v'.1, true), hD', ?_, hsame.trans hid, rfl⟩
      rw [List.getElem?_modify_eq, hv']
      rfl
    · refine Or.inl ⟨j', v', hD', ?_, hsame.trans hid, hact⟩
      rwa [List.getElem?_modify_ne _ _ hij]
  · exact Or.inr (hid ▸ hclosed)

theorem Linked.mono {D D' : Nat → Prop} {views : List (String × Bool)} {last : Reads}
    (h : Linked D views last) (hto : ∀ j v, views[j]? = some v → D' j → D j)
    (hfrom : ∀ j v, views[j]? = some v → D j → D' j) : Linked D' views last := by
  intro j v hD hv
  rcases h j v (hto j v hv hD) hv with ⟨j', v', hD', hv', hrest⟩ | hclosed
  · exact Or.inl ⟨j', v', hfrom j' v' hv' hD', hv', hrest⟩
  · exact Or.inr hclosed

/-- Nothing is active, so every last read is not open. -/
theorem Linked.closed {views : List (String × Bool)} {last : Reads}
    (h : Linked (fun _ => True) views last) (hinactive : ∀ v ∈ views, v.2 = false)
    {v : String × Bool} (hv : v ∈ views) : ∃ s, last v.1 = some s ∧ s.status ≠ .opened := by
  obtain ⟨j, hj⟩ := List.mem_iff_getElem?.mp hv
  rcases h j v trivial hj with ⟨j', v', -, hv', -, hact⟩ | hclosed
  · rw [hinactive v' (List.mem_of_getElem? hv')] at hact
    cases hact
  · exact hclosed

/-- Rows that are dropped carry no active flag. -/
theorem Linked.sublist {views views' : List (String × Bool)} {last : Reads}
    (h : Linked (fun _ => True) views last) (hsub : ∀ v ∈ views', v ∈ views)
    (hkeep : ∀ v ∈ views, v.2 = true → v ∈ views') : Linked (fun _ => True) views' last := by
  intro j v _ hv
  obtain ⟨j₀, hj₀⟩ := List.mem_iff_getElem?.mp (hsub v (List.mem_of_getElem? hv))
  rcases h j₀ v trivial hj₀ with ⟨j', v', -, hv', hsame, hact⟩ | hclosed
  · obtain ⟨j'', hj''⟩ := List.mem_iff_getElem?.mp (hkeep v' (List.mem_of_getElem? hv') hact)
    exact Or.inl ⟨j'', v', trivial, hj'', hsame, hact⟩
  · exact Or.inr hclosed

theorem Linked.compact {c : Coordinator} {last : Reads} (h : Linked (fun _ => True) c.views last) :
    Linked (fun _ => True) c.compact.views last := by
  refine h.sublist ?_ ?_
  · intro v hv
    obtain ⟨t, ht, rfl⟩ := List.mem_map.mp hv
    exact List.mem_map_of_mem (Coordinator.mem_compact ht)
  · intro v hv hact
    obtain ⟨t, ht, rfl⟩ := List.mem_map.mp hv
    exact List.mem_map.mpr ⟨t, Coordinator.active_mem_compact ht hact, rfl⟩

/-- Adopting a recovered order is a read of it. -/
theorem Linked.adopt {c : Coordinator} {last : Reads} (h : Linked (fun _ => True) c.views last)
    (r : Recovered) :
    Linked (fun _ => True) (c.adopt r).views (last.apply (r.ticket.orderId, r.snapshot)) := by
  obtain ⟨D, v, hlinked, hv, hid, hall⟩ : ∃ (D : Nat → Prop) (v : String × Bool),
      Linked D (c.adopted r.ticket).1.views last ∧
      (c.adopted r.ticket).1.views[(c.adopted r.ticket).2]? = some v ∧ v.1 = r.ticket.orderId ∧
      ∀ j u, (c.adopted r.ticket).1.views[j]? = some u → D j ∨ j = (c.adopted r.ticket).2 := by
    unfold Coordinator.adopted
    split
    · rename_i i hi
      obtain ⟨hlt, hmatch, -⟩ := List.findIdx?_eq_some_iff_getElem.mp hi
      refine ⟨fun _ => True, (c.tickets[i].orderId, c.tickets[i].active), h, ?_, ?_,
        fun _ _ _ => Or.inl trivial⟩
      · simp [Coordinator.views, List.getElem?_eq_getElem hlt]
      · simpa using hmatch
    · -- a new ticket: the old positions are linked among themselves
      refine ⟨fun j => j < c.views.length, (r.ticket.orderId, r.ticket.active), ?_, ?_, rfl, ?_⟩
      · rw [Coordinator.views_append]
        intro j u hj hu
        rw [List.getElem?_append_left hj] at hu
        rcases h j u trivial hu with ⟨j', v', -, hv', hsame, hact⟩ | hclosed
        · have hlt : j' < c.views.length := (List.getElem?_eq_some_iff.mp hv').1
          exact Or.inl ⟨j', v', hlt, by rwa [List.getElem?_append_left hlt], hsame, hact⟩
        · exact Or.inr hclosed
      · rw [Coordinator.views_append]
        simp [Coordinator.views]
      · intro j u hu
        have hlt := (List.getElem?_eq_some_iff.mp hu).1
        rw [Coordinator.views_append, List.length_append, List.length_singleton] at hlt
        rcases Nat.lt_succ_iff_lt_or_eq.mp hlt with hj | hj
        · exact Or.inl hj
        · exact Or.inr (by rw [hj, Coordinator.views, List.length_map])
  have hread := hlinked.read hv r.snapshot
  rw [hid] at hread
  rw [Coordinator.views_adopt]
  refine hread.mono (fun j u hu _ => ?_) (fun _ _ _ _ => trivial)
  by_cases hj : j = (c.adopted r.ticket).2
  · exact Or.inr hj
  · rw [List.getElem?_modify_ne _ _ (Ne.symm hj)] at hu
    exact hall j u hu

/-! ## Verdicts -/

def World.Live (w : World) : Prop := w.coord.phase.terminal = false

/-- Flags and reads agree everywhere, and the round is not over. -/
structure World.Settled (w : World) : Prop where
  linked : Linked (fun _ => True) w.coord.views (lastRead w.log)
  live : w.Live

/-- No ticket is active, the last read of each order is not open, and the position is flat. -/
structure OwnsNothing (w : World) : Prop where
  inactive : ∀ t ∈ w.coord.tickets, t.active = false
  closed : ∀ t ∈ w.coord.tickets, ∃ s, lastRead w.log t.orderId = some s ∧ s.status ≠ .opened
  flat : |w.coord.netQty| ≤ flatTolerance

def Event.flatUnchecked : Event → Bool
  | .point .flatUnchecked => true
  | _ => false

/-- Where the round ends because it is flat, without a look at the tickets, the venue's answers
leave no order open. -/
def Withdrawn : List Call → Prop
  | [] => True
  | x :: log =>
      (x.event.flatUnchecked = true → NoneLeftOpen (fullRead log) (readSince log)) ∧ Withdrawn log

/-- A round that is over owns nothing. -/
def Verdict (w : World) : Prop :=
  Withdrawn w.log → w.coord.phase.terminal = true → OwnsNothing w

theorem World.Live.verdict {w : World} (h : w.Live) : Verdict w := by
  intro _ hterm
  rw [World.Live, hterm] at h
  cases h

theorem ownsNothing_of_settled {w : World}
    (h : Linked (fun _ => True) w.coord.views (lastRead w.log))
    (hno : w.coord.hasActiveTickets = false) (hflat : |w.coord.netQty| ≤ flatTolerance) :
    OwnsNothing w := by
  have hinactive : ∀ t ∈ w.coord.tickets, t.active = false := by
    simpa [Coordinator.hasActiveTickets] using hno
  refine ⟨hinactive, fun t ht => ?_, hflat⟩
  refine h.closed ?_ (List.mem_map_of_mem ht)
  intro v hv
  obtain ⟨t', ht', rfl⟩ := List.mem_map.mp hv
  exact hinactive t' ht'

theorem World.Settled.asked {w w' : World} (h : w.Settled) (ha : Asks w w') : w'.Settled := by
  obtain ⟨new, hlog, hsilent⟩ := ha.log
  refine ⟨?_, ?_⟩
  · rw [hlog, lastRead_of_silent hsilent, ha.coord]
    exact h.linked
  · show w'.coord.phase.terminal = false
    rw [ha.coord]
    exact h.live

/-- Settled, and every active flag comes from an answer of the venue. -/
structure World.Answered (w : World) : Prop extends World.Settled w where
  shown : w.Shown

theorem World.Answered.asked {w w' : World} (h : w.Answered) (ha : Asks w w') : w'.Answered :=
  ⟨h.toSettled.asked ha, h.shown.asked ha⟩

/-- Noting the first fill changes neither tickets nor phase. -/
theorem World.Answered.firstFill {w : World} (h : w.Answered) (policy : PairPolicy)
    (now buyQty sellQty : ℚ) :
    World.Answered { w with coord := w.coord.recordFirstFill policy now buyQty sellQty } := by
  unfold Coordinator.recordFirstFill
  split
  · exact h
  · exact ⟨⟨h.linked, h.live⟩, h.shown⟩

/-- Answers that leave no order open leave no ticket active. -/
theorem World.Shown.inactive {w : World} (h : w.Shown)
    (hnone : NoneLeftOpen (fullRead w.log) (readSince w.log)) :
    w.coord.hasActiveTickets = false := by
  simp only [Coordinator.hasActiveTickets, List.any_eq_false]
  intro t ht hact
  exact hnone.not_lingers t.orderId (h.lingers _ (List.mem_map_of_mem ht) hact)

section Verdicts

variable (S : Setup)

theorem settled_asks {α : Type} {x : PairM α} (hx : Moves Asks x) :
    Triple World.Settled x (fun _ => World.Settled) (fun _ => World.Live) :=
  (hx.triple (Q := World.Settled) (fun _ _ h ha => h.asked ha)).conseq (fun _ h => h)
    (fun _ _ h => h) (fun _ _ h => h.live)

theorem live_touches {α : Type} {x : PairM α} (hx : Moves Touches x) : Keeps World.Live x := by
  refine hx.triple (fun w w' h ht => ?_)
  show w'.coord.phase.terminal = false
  rw [ht.phase]
  exact h

theorem live_setReason (reason : String) : Keeps World.Live (setReason reason) :=
  Triple.update (fun _ h => h)

/-! ## Reading -/

/-- Only the flag at one position changed. -/
def Elsewhere (i : Nat) (w w' : World) : Prop :=
  w'.coord.views.length = w.coord.views.length ∧
    ∀ j, j ≠ i → w'.coord.views[j]? = w.coord.views[j]?

theorem Elsewhere.refl (i : Nat) (w : World) : Elsewhere i w w := ⟨rfl, fun _ _ => rfl⟩

theorem Elsewhere.trans (i : Nat) (w w' w'' : World) (h : Elsewhere i w w')
    (h' : Elsewhere i w' w'') : Elsewhere i w w'' :=
  ⟨h'.1.trans h.1, fun j hj => (h'.2 j hj).trans (h.2 j hj)⟩

theorem elsewhere_setActive (i : Nat) (active : Bool) (c : Coordinator) (w : World)
    (hc : c.views = w.coord.views) :
    Elsewhere i w { w with coord := c.setActive i active } := by
  refine ⟨?_, fun j hj => ?_⟩
  · show (c.setActive i active).views.length = _
    rw [Coordinator.views_setActive, List.length_modify, hc]
  · show (c.setActive i active).views[j]? = _
    rw [Coordinator.views_setActive, List.getElem?_modify_ne _ _ (Ne.symm hj), hc]

theorem refreshOne_elsewhere (i : Nat) : Moves (Elsewhere i) (refreshOne S i) := by
  refine Moves.coord (fun c => ?_)
  split
  · exact Moves.pure (Elsewhere.refl i) ()
  · refine Moves.bind (Elsewhere.trans i) (Moves.ask (fun w _ => Elsewhere.refl i w))
      (fun answer => ?_)
    refine Moves.bind (Elsewhere.trans i) (Moves.orRaise (Elsewhere.refl i) answer) (fun snap => ?_)
    exact Moves.update (fun w => elsewhere_setActive i _ _ w rfl)

theorem cancelAndReconcile_elsewhere (i : Nat) (orderId : String) :
    Moves (Elsewhere i) (cancelAndReconcile S i orderId) := by
  refine Moves.bind (Elsewhere.trans i) (Moves.ask (fun w _ => Elsewhere.refl i w))
    (fun answer => ?_)
  split
  · refine Moves.bind (Elsewhere.trans i) (Moves.ask (fun w _ => Elsewhere.refl i w))
      (fun status => ?_)
    split
    · exact Moves.bind (Elsewhere.trans i)
        (Moves.update (fun w => elsewhere_setActive i _ _ w rfl))
        (fun _ => Moves.pure (Elsewhere.refl i) _)
    · refine Moves.bind (Elsewhere.trans i)
        (Moves.update (fun w => elsewhere_setActive i _ _ w rfl)) (fun _ => ?_)
      split
      · exact Moves.pure (Elsewhere.refl i) _
      · exact Moves.pure (Elsewhere.refl i) _
  · exact Moves.pure (Elsewhere.refl i) _

theorem refreshOne_linked (i : Nat) :
    Triple (fun w => Linked (fun j => j < i) w.coord.views (lastRead w.log) ∧ w.Live)
      (refreshOne S i)
      (fun _ w => Linked (fun j => j < i + 1) w.coord.views (lastRead w.log) ∧ w.Live)
      (fun _ => World.Live) := by
  refine Triple.coord (fun c => ?_)
  split
  · rename_i hnone
    refine Triple.pure ?_
    rintro w ⟨⟨h, hlive⟩, rfl⟩
    refine ⟨h.mono (fun j v hv hj => ?_) (fun j _ _ hj => Nat.lt_succ_of_lt hj), hlive⟩
    have hlen : w.coord.tickets.length ≤ i := List.getElem?_eq_none_iff.mp hnone
    have hlt := (List.getElem?_eq_some_iff.mp hv).1
    rw [Coordinator.views, List.length_map] at hlt
    omega
  · rename_i t ht
    refine Triple.bind (Q := fun answer w => w.coord = c ∧ w.Live ∧
      ∃ log, w.log = ⟨c, .orderStatus t.orderId answer⟩ :: log ∧
        Linked (fun j => j < i) c.views (lastRead log)) (Triple.ask ?_) (fun answer => ?_)
    · rintro w a ⟨⟨h, hlive⟩, rfl⟩
      exact ⟨rfl, hlive, w.log, rfl, h⟩
    · refine Triple.bind (Q := fun snap w => w.coord = c ∧ w.Live ∧
        ∃ log, w.log = ⟨c, .orderStatus t.orderId (.ok snap)⟩ :: log ∧
          Linked (fun j => j < i) c.views (lastRead log)) (Triple.orRaise ?_ ?_) (fun snap => ?_)
      · rintro snap w rfl h
        exact h
      · rintro e w rfl h
        exact h.2.1
      · refine Triple.update ?_
        rintro w ⟨rfl, hlive, log, hlog, h⟩
        have hv : w.coord.views[i]? = some (t.orderId, t.active) := by
          simp [Coordinator.views, ht]
        refine ⟨?_, hlive⟩
        have hread := h.read hv snap
        rw [hlog, Coordinator.views_setActive]
        refine hread.mono (fun j _ _ hj => ?_) (fun j _ _ hj => ?_)
        · omega
        · omega

/-- `_refresh` makes flags and reads agree, whatever they were. -/
theorem refresh_settled :
    Triple World.Live (refresh S) (fun _ => World.Settled) (fun _ => World.Live) := by
  refine Triple.coord (fun c => ?_)
  refine Triple.bind (Q := fun _ => World.Settled) ?_ (fun _ => ?_)
  · refine (Triple.rangeM (I := fun i _ w =>
      (Linked (fun j => j < i) w.coord.views (lastRead w.log) ∧ w.Live) ∧
        w.coord.views.length = c.tickets.length) c.tickets.length (fun i _ _ => ?_) ()).conseq
      ?_ ?_ (fun _ _ h => h)
    · refine ((refreshOne_linked S i).and ((refreshOne_elsewhere S i).triple (P := fun w =>
        w.coord.views.length = c.tickets.length) (Q := fun w =>
        w.coord.views.length = c.tickets.length) (fun _ _ h h' => h'.1.trans h))).conseq
        (fun _ h => h) (fun _ _ h => h) (fun _ _ h => h.1)
    · rintro w ⟨hlive, rfl⟩
      exact ⟨⟨fun j _ hj => absurd hj (Nat.not_lt_zero j), hlive⟩,
        by rw [Coordinator.views, List.length_map]⟩
    · rintro _ w ⟨⟨h, hlive⟩, hl⟩
      refine ⟨h.mono (fun j v hv _ => ?_) (fun _ _ _ _ => trivial), hlive⟩
      have hlt := (List.getElem?_eq_some_iff.mp hv).1
      rwa [hl] at hlt
  · exact Triple.bind (Q := fun _ => World.Settled)
      (Triple.mark (fun w h => ⟨h.linked, h.live⟩))
      (fun _ => Triple.update (fun w h => ⟨h.linked.compact, h.live⟩))

theorem refresh_answered :
    Triple World.Live (refresh S) (fun _ => World.Answered) (fun _ => World.Live) :=
  ((refresh_settled S).and (refresh_shown S)).conseq (fun _ h => ⟨h, trivial⟩)
    (fun _ _ h => ⟨h.1, h.2⟩) (fun _ _ h => h.1)

/-! ## Cancelling -/

/-- After a confirmed cancel the order is read, and its ticket not active. -/
theorem cancelAndReconcile_linked (D : Nat → Prop) (i : Nat) (orderId : String) :
    Triple (fun w => Linked D w.coord.views (lastRead w.log) ∧
        ∃ active, w.coord.views[i]? = some (orderId, active))
      (cancelAndReconcile S i orderId)
      (fun failure w => (Linked D w.coord.views (lastRead w.log) ∨
          Linked (fun j => D j ∨ j = i) w.coord.views (lastRead w.log)) ∧
        (failure = none → Linked (fun j => D j ∨ j = i) w.coord.views (lastRead w.log) ∧
          w.coord.views[i]? = some (orderId, false)))
      (fun _ _ => True) := by
  refine Triple.bind (Q := fun _ w => Linked D w.coord.views (lastRead w.log) ∧
    ∃ active, w.coord.views[i]? = some (orderId, active)) (Triple.ask (fun _ _ h => h))
    (fun answer => ?_)
  split
  · refine Triple.bind (Q := fun status w =>
      (∃ active, w.coord.views[i]? = some (orderId, active)) ∧
      ∃ log, lastRead w.log = (Event.orderStatus orderId status).reads.foldl Reads.apply
        (lastRead log) ∧ Linked D w.coord.views (lastRead log)) (Triple.ask ?_) (fun status => ?_)
    · rintro w a ⟨h, hv⟩
      exact ⟨hv, w.log, rfl, h⟩
    · split
      · refine Triple.bind (Q := fun _ w => Linked D w.coord.views (lastRead w.log))
          (Triple.update ?_) (fun _ => Triple.pure (fun _ h => ⟨Or.inl h, fun hn => by cases hn⟩))
        rintro w ⟨-, log, hlog, h⟩
        rw [hlog, Coordinator.views_setActive]
        exact h.activate i
      · rename_i snap
        refine Triple.bind (Q := fun _ w =>
          Linked (fun j => D j ∨ j = i) w.coord.views (lastRead w.log) ∧
          w.coord.views[i]? = some (orderId, decide (snap.status = .opened))) (Triple.update ?_)
          (fun _ => ?_)
        · rintro w ⟨⟨active, hv⟩, log, hlog, h⟩
          refine ⟨?_, ?_⟩
          · rw [hlog, Coordinator.views_setActive]
            exact h.read hv snap
          · show ((w.coord.setSnapshot orderId snap).setActive i _).views[i]? = _
            rw [Coordinator.views_setActive, List.getElem?_modify_eq]
            show Option.map _ w.coord.views[i]? = _
            rw [hv]
            rfl
        · refine Triple.ite (fun hterm => ?_) (fun _ => ?_)
          · refine Triple.pure (fun w h => ⟨Or.inr h.1, fun _ => ⟨h.1, ?_⟩⟩)
            -- a terminal order is not open
            have hne : snap.status ≠ .opened := by
              intro heq
              rw [heq] at hterm
              cases hterm
            simpa [hne] using h.2
          · exact Triple.pure (fun w h => ⟨Or.inr h.1, fun hn => by cases hn⟩)
  · exact Triple.pure (fun w h => ⟨Or.inl h.1, fun hn => by cases hn⟩)

/-- The same for a settled world: flags and reads still agree everywhere. -/
theorem cancelAndReconcile_settled (i : Nat) (orderId : String) :
    Triple (fun w => w.Settled ∧ ∃ active, w.coord.views[i]? = some (orderId, active))
      (cancelAndReconcile S i orderId)
      (fun failure w => w.Settled ∧ (failure = none → w.coord.views[i]? = some (orderId, false)))
      (fun _ => World.Live) := by
  refine ((cancelAndReconcile_linked S (fun _ => True) i orderId).and
    (live_touches (cancelAndReconcile_touches S i orderId))).conseq ?_ ?_ (fun _ _ h => h.2)
  · rintro w ⟨h, hv⟩
    exact ⟨⟨h.linked, hv⟩, h.live⟩
  · rintro failure w ⟨⟨hlinked, hconfirmed⟩, hlive⟩
    refine ⟨⟨?_, hlive⟩, fun hnone => (hconfirmed hnone).2⟩
    rcases hlinked with hl | hl
    · exact hl
    · exact hl.mono (fun _ _ _ _ => Or.inl trivial) (fun _ _ _ _ => trivial)

/-- No cancel failed and every active ticket was to be cancelled: then none of the first `i` is
active. -/
def InactiveTo (p : OrderTicket → Bool) (i : Nat) (failure : Option CancelFailure) (w : World) :
    Prop :=
  (∀ t : OrderTicket, t.active = true → p t = true) → failure = none →
    ∀ j, j < i → ∀ v, w.coord.views[j]? = some v → v.2 = false

theorem InactiveTo.succ {p : OrderTicket → Bool} {i : Nat} {failure : Option CancelFailure}
    {w : World} (h : InactiveTo p i failure w) {result : Option CancelFailure}
    (hlast : (∀ t : OrderTicket, t.active = true → p t = true) → result = none →
      ∀ v, w.coord.views[i]? = some v → v.2 = false) :
    InactiveTo p (i + 1) (failure.or result) w := by
  intro hall hnone j hj v hv
  rw [Option.or_eq_none_iff] at hnone
  rcases Nat.lt_succ_iff_lt_or_eq.mp hj with hlt | rfl
  · exact h hall hnone.1 j hlt v hv
  · exact hlast hall hnone.2 v hv

/-- The cancel of one ticket changes none before it. -/
theorem cancelOne_inactive (p : OrderTicket → Bool) (n i : Nat) (failure : Option CancelFailure)
    (orderId : String) :
    Triple (fun w => ((w.Settled ∧ w.coord.views.length = n) ∧ InactiveTo p i failure w) ∧
        ∃ active, w.coord.views[i]? = some (orderId, active))
      (cancelAndReconcile S i orderId)
      (fun result w => (w.Settled ∧ w.coord.views.length = n) ∧
        InactiveTo p (i + 1) (failure.or result) w)
      (fun _ => World.Live) := by
  have hbefore : Triple (fun w => w.coord.views.length = n ∧ InactiveTo p i failure w)
      (cancelAndReconcile S i orderId)
      (fun _ w => w.coord.views.length = n ∧ InactiveTo p i failure w)
      (fun _ w => w.coord.views.length = n ∧ InactiveTo p i failure w) := by
    refine (cancelAndReconcile_elsewhere S i orderId).triple ?_
    rintro w w' ⟨hlen, hinact⟩ ⟨hlen', hsame⟩
    refine ⟨hlen'.trans hlen, fun hp hnone j hj v hv => ?_⟩
    rw [hsame j (by omega)] at hv
    exact hinact hp hnone j hj v hv
  refine ((cancelAndReconcile_settled S i orderId).and hbefore).conseq ?_ ?_ (fun _ _ h => h.1)
  · rintro w ⟨⟨⟨hset, hlen⟩, hinact⟩, hview⟩
    exact ⟨⟨hset, hview⟩, hlen, hinact⟩
  · rintro result w ⟨⟨hset, hconfirmed⟩, hlen, hinact⟩
    refine ⟨⟨hset, hlen⟩, hinact.succ (fun _ hres v hv => ?_)⟩
    rw [hconfirmed hres, Option.some.injEq] at hv
    rw [← hv]

/-- Cancelling keeps flags and reads in agreement; when every active ticket was to be cancelled
and nothing failed, none is active. -/
theorem cancelEach_settled (stops : Bool) (p : OrderTicket → Bool) :
    Triple World.Settled (cancelEach S stops p)
      (fun failure w => w.Settled ∧ ((∀ t : OrderTicket, t.active = true → p t = true) →
        failure = none → w.coord.hasActiveTickets = false))
      (fun _ => World.Live) := by
  refine Triple.coord (fun c => ?_)
  refine (Triple.rangeM (I := fun i failure w => (w.Settled ∧
    w.coord.views.length = c.tickets.length) ∧ InactiveTo p i failure w)
    c.tickets.length ?_ none).conseq ?_ ?_ (fun _ _ h => h)
  · intro i hi failure
    refine Triple.ite (fun hstop => ?_) (fun _ => ?_)
    · refine Triple.pure (fun w h => ⟨h.1, fun _ hnone => ?_⟩)
      rw [hnone] at hstop
      simp at hstop
    · refine Triple.coord (fun c' => ?_)
      split
      · rename_i hnone
        refine Triple.pure ?_
        rintro w ⟨⟨⟨hset, hlen⟩, hinact⟩, rfl⟩
        have hle := List.getElem?_eq_none_iff.mp hnone
        rw [Coordinator.views, List.length_map] at hlen
        omega
      · rename_i t ht
        refine Triple.ite (fun _ => ?_) (fun hp => ?_)
        · refine Triple.bind ((cancelOne_inactive S p c.tickets.length i failure
            t.orderId).strengthen ?_) (fun result => Triple.pure (fun _ h => h))
          rintro w ⟨h, rfl⟩
          exact ⟨h, t.active, by simp [Coordinator.views, ht]⟩
        · refine Triple.pure ?_
          rintro w ⟨⟨hset, hinact⟩, rfl⟩
          have hsucc : InactiveTo p (i + 1) (failure.or none) w := by
            refine hinact.succ (fun hall _ v hv => ?_)
            -- a ticket that is passed over is not active
            have hv' : v = (t.orderId, t.active) := by
              simpa [Coordinator.views, ht] using hv.symm
            rw [hv']
            exact Bool.eq_false_iff.mpr (fun hact => hp (hall t hact))
          rw [Option.or_none] at hsucc
          exact ⟨hset, hsucc⟩
  · rintro w ⟨hset, rfl⟩
    exact ⟨⟨hset, by rw [Coordinator.views, List.length_map]⟩,
      fun _ _ j hj => absurd hj (Nat.not_lt_zero j)⟩
  · rintro failure w ⟨⟨hset, hlen⟩, hinact⟩
    refine ⟨hset, fun hp hnone => ?_⟩
    simp only [Coordinator.hasActiveTickets, List.any_eq_false]
    intro t ht hact
    obtain ⟨j, hj⟩ := List.mem_iff_getElem?.mp ht
    have hlt := (List.getElem?_eq_some_iff.mp hj).1
    have hv : w.coord.views[j]? = some (t.orderId, t.active) := by simp [Coordinator.views, hj]
    rw [Coordinator.views, List.length_map] at hlen
    rw [hlen] at hlt
    have hfalse := hinact hp hnone j hlt _ hv
    rw [show t.active = false from hfalse] at hact
    cases hact

/-! ## Recovering -/

theorem adopt_phase (c : Coordinator) (r : Recovered) :
    (c.adopt r).phase = c.phase ∨ (c.adopt r).phase = .stopping := by
  have hadopted : (c.adopted r.ticket).1.phase = c.phase := by
    unfold Coordinator.adopted
    split <;> rfl
  unfold Coordinator.adopt Coordinator.adoptStop
  simp only
  split
  · left
    unfold Coordinator.adoptLimit
    split
    · exact hadopted
    · exact hadopted
  · exact Or.inr rfl

theorem adoptAll_settled (items : List Recovered) (c : Coordinator) (last : Reads)
    (hlinked : Linked (fun _ => True) c.views last) (hlive : c.phase.terminal = false) :
    Linked (fun _ => True) (items.foldl Coordinator.adopt c).views
        ((items.map (fun r => (r.ticket.orderId, r.snapshot))).foldl Reads.apply last) ∧
      (items.foldl Coordinator.adopt c).phase.terminal = false := by
  induction items generalizing c last with
  | nil => exact ⟨hlinked, hlive⟩
  | cons r rest ih =>
      refine ih (c.adopt r) (last.apply (r.ticket.orderId, r.snapshot)) (hlinked.adopt r) ?_
      rcases adopt_phase c r with hp | hp
      · rw [hp]
        exact hlive
      · rw [hp]
        rfl

theorem recoveryReturns_settled (ok : Bool) :
    Triple World.Settled (recoveryReturns ok) (fun _ => World.Settled) (fun _ => World.Live) :=
  Triple.bind (Q := fun _ => World.Settled) (Triple.mark (fun _ h => ⟨h.linked, h.live⟩))
    (fun _ => Triple.pure (fun _ h => h))

theorem recoverPersistedIntents_settled :
    Triple World.Settled (recoverPersistedIntents S) (fun _ => World.Settled)
      (fun _ => World.Live) := by
  unfold recoverPersistedIntents
  split
  · exact recoveryReturns_settled false
  · refine Triple.coord (fun c => ?_)
    refine Triple.bind (Q := fun answer w => w.Live ∧ ∃ log, lastRead w.log =
        (Event.recoverPairIntents answer).reads.foldl Reads.apply (lastRead log) ∧
      Linked (fun _ => True) w.coord.views (lastRead log)) (Triple.ask ?_) (fun answer => ?_)
    · rintro w a ⟨h, -⟩
      exact ⟨h.live, w.log, rfl, h.linked⟩
    · split
      · refine (recoveryReturns_settled false).strengthen ?_
        rintro w ⟨hlive, log, hlog, hlinked⟩
        exact ⟨by rw [hlog]; exact hlinked, hlive⟩
      · rename_i items
        refine Triple.bind (Q := fun _ => World.Settled) (Triple.update ?_) (fun _ => ?_)
        · rintro w ⟨hlive, log, hlog, hlinked⟩
          have hall := adoptAll_settled items w.coord (lastRead log) hlinked hlive
          refine ⟨?_, hall.2⟩
          show Linked _ _ (lastRead w.log)
          rw [hlog]
          exact hall.1
        · split
          · refine Triple.bind (settled_asks (asks_ask (fun _ => rfl))) (fun answer => ?_)
            exact Triple.bind (settled_asks (asks_orRaise answer))
              (fun _ => recoveryReturns_settled _)
          · exact Triple.bind (settled_asks (asks_ask (fun _ => rfl)))
              (fun _ => recoveryReturns_settled _)

theorem recoverPersistedIntents_answered :
    Triple World.Answered (recoverPersistedIntents S) (fun _ => World.Answered)
      (fun _ => World.Live) :=
  ((recoverPersistedIntents_settled S).and (recoverPersistedIntents_shown S)).conseq
    (fun _ h => ⟨h.toSettled, h.shown⟩) (fun _ _ h => ⟨h.1, h.2⟩) (fun _ _ h => h.1)

/-! ## Concluding -/

/-- A conclusion after a look at the flags. -/
theorem conclude_checked {w : World}
    (h : Linked (fun _ => True) w.coord.views (lastRead w.log))
    (hno : w.coord.hasActiveTickets = false)
    (hflat : |w.coord.netQty| ≤ flatTolerance) {c : Coordinator}
    (hc : c.tickets = w.coord.tickets ∧ c.snapshots = w.coord.snapshots) :
    Verdict { w with coord := c } := by
  have hviews : c.views = w.coord.views := by rw [Coordinator.views, hc.1]; rfl
  have hnet : c.netQty = w.coord.netQty := by
    simp only [Coordinator.netQty, Coordinator.totals, Coordinator.sideTotal, Coordinator.snapshot,
      hc.1, hc.2]
  refine fun _ _ => ownsNothing_of_settled ?_ ?_ ?_
  · show Linked _ c.views _
    rw [hviews]
    exact h
  · show c.hasActiveTickets = false
    rw [Coordinator.hasActiveTickets, hc.1]
    exact hno
  · show |c.netQty| ≤ flatTolerance
    rw [hnet]
    exact hflat

/-- A conclusion without one. -/
theorem conclude_unchecked (phase : Phase) (reason : Option String) :
    Triple (fun w => w.Answered ∧ |w.coord.netQty| ≤ flatTolerance)
      (concludeFlat phase reason) (fun _ => Verdict) (fun _ => Verdict) := by
  refine Triple.bind (Q := fun _ w => w.Settled ∧ |w.coord.netQty| ≤ flatTolerance ∧
    (Withdrawn w.log → w.coord.hasActiveTickets = false)) (Triple.mark ?_) (fun _ => ?_)
  · rintro w ⟨h, hflat⟩
    exact ⟨⟨h.linked, h.live⟩, hflat, fun hwithdrawn => h.shown.inactive (hwithdrawn.1 rfl)⟩
  · refine Triple.update ?_
    rintro w ⟨h, hflat, hno⟩ hlog
    exact conclude_checked h.linked (hno hlog) hflat ⟨rfl, rfl⟩ hlog

/-! ## Placing -/

theorem placeExit_live (side : Side) (target qty : ℚ) (permit : Option String) :
    Keeps World.Live (placeExit S side target qty permit) := by
  refine Triple.coord (fun c => ?_)
  refine Triple.strengthen (P := World.Live) ?_ (fun w h => h.1)
  refine Keeps.bind (Triple.ask (fun _ _ h => h)) (fun answer => ?_)
  refine Keeps.bind (Triple.orRaise (fun _ _ _ h => h) (fun _ _ _ h => h)) (fun replacement => ?_)
  split
  · exact Keeps.bind (Triple.update (fun _ h => h)) (fun _ => Keeps.pure _)
  · refine Keeps.bind (Triple.update (fun w h => ?_)) (fun _ => Keeps.pure _)
    show (if w.coord.knows _ then _ else _ : Coordinator).phase.terminal = false
    split
    · exact h
    · exact h

/-- Questions, then a verdict. -/
theorem verdict_of_live {α : Type} {P : World → Prop} {x : PairM α}
    (h : Triple P x (fun _ => World.Live) (fun _ => World.Live)) :
    Triple P x (fun _ => Verdict) (fun _ => Verdict) :=
  h.conseq (fun _ hp => hp) (fun _ _ hl => hl.verdict) (fun _ _ hl => hl.verdict)

theorem bind_verdict {α β : Type} {P : World → Prop} {Q : α → World → Prop}
    {R : β → World → Prop} {x : PairM α} {f : α → PairM β} (hx : Triple P x Q (fun _ => World.Live))
    (hf : ∀ a, Triple (Q a) (f a) R (fun _ => Verdict)) :
    Triple P (x >>= f) R (fun _ => Verdict) :=
  Triple.bind (hx.conseq (fun _ hp => hp) (fun _ _ hq => hq) (fun _ _ hl => hl.verdict)) hf

theorem answered_asks {α : Type} {x : PairM α} (hx : Moves Asks x) :
    Triple World.Answered x (fun _ => World.Answered) (fun _ => World.Live) :=
  (hx.triple (Q := World.Answered) (fun _ _ h ha => h.asked ha)).conseq (fun _ h => h)
    (fun _ _ h => h) (fun _ _ h => h.live)

/-- Questions while the coordinator is known. -/
theorem answered_asks_at {α : Type} {x : PairM α} (hx : Moves Asks x) (c : Coordinator) :
    Triple (fun w => w.Answered ∧ w.coord = c) x (fun _ w => w.Answered ∧ w.coord = c)
      (fun _ => World.Live) := by
  refine (hx.triple (Q := fun w => w.Answered ∧ w.coord = c) ?_).conseq (fun _ h => h)
    (fun _ _ h => h) (fun _ _ h => h.1.live)
  rintro w w' ⟨h, hc⟩ ha
  exact ⟨h.asked ha, ha.coord.trans hc⟩

/-- The cancel of a ticket that is held. -/
theorem cancelAt_answered {ticket : OrderTicket} {i : Nat} {c : Coordinator}
    (hi : c.tickets[i]? = some ticket) :
    Triple (fun w => w.Answered ∧ w.coord = c) (cancelAndReconcile S i ticket.orderId)
      (fun failure w => w.Settled ∧ (failure ≠ some .statusUnavailable → w.Shown))
      (fun _ => World.Live) := by
  refine ((cancelAndReconcile_settled S i ticket.orderId).and
    (cancelAndReconcile_shown S i ticket.orderId)).conseq ?_ (fun _ _ h => ⟨h.1.1, h.2⟩)
    (fun _ _ h => h.1)
  rintro w ⟨h, rfl⟩
  have hview : ∃ active, w.coord.views[i]? = some (ticket.orderId, active) :=
    ⟨ticket.active, by simp [Coordinator.views, hi]⟩
  exact ⟨⟨h.toSettled, hview⟩, h.shown, hview⟩

theorem replaceExit_verdict (side : Side) (netQty target : ℚ) {ticket : OrderTicket} {i : Nat}
    {c : Coordinator} (hi : c.tickets[i]? = some ticket) :
    Triple (fun w => w.Answered ∧ w.coord = c) (replaceExit S side netQty target ticket i)
      (fun _ => Verdict) (fun _ => Verdict) := by
  refine bind_verdict (answered_asks_at (asks_ask (fun _ => rfl)) c) (fun answer => ?_)
  refine bind_verdict (answered_asks_at (asks_orRaise answer) c) (fun permit => ?_)
  refine bind_verdict (cancelAt_answered S hi) (fun failure => ?_)
  have hlive : ∀ {x : PairM Bool}, Keeps World.Live x →
      Triple World.Settled x (fun _ => Verdict) (fun _ => Verdict) :=
    fun hx => (verdict_of_live hx).strengthen (fun _ h => h.live)
  split
  · refine (hlive ?_).strengthen (fun _ h => h.1)
    exact Keeps.bind (live_setReason _) (fun _ => Keeps.pure _)
  · refine (hlive ?_).strengthen (fun _ h => h.1)
    exact Keeps.bind (live_setReason _) (fun _ => Keeps.pure _)
  · refine Triple.strengthen (P := World.Answered) ?_ (fun w h => ⟨h.1, h.2 nofun⟩)
    refine Triple.coord (fun c' => ?_)
    refine Triple.ite (fun hflat => ?_) (fun _ => ?_)
    · refine Triple.bind (Q := fun _ => Verdict) ((conclude_unchecked _ _).strengthen ?_)
        (fun _ => Triple.pure (fun _ h => h))
      rintro w ⟨h, rfl⟩
      exact ⟨h, hflat⟩
    · refine Triple.strengthen (P := World.Settled) ?_ (fun w h => h.1.toSettled)
      split
      · exact hlive (Keeps.bind (live_setReason _) (fun _ => Keeps.pure _))
      · refine hlive (Keeps.bind (Triple.update (fun _ h => h)) (fun _ => ?_))
        exact Triple.ite (fun _ => Keeps.bind (live_setReason _) (fun _ => Keeps.pure _))
          (fun _ => placeExit_live S _ _ _ _)

theorem Coordinator.latestWhere_getElem {c : Coordinator} {p : OrderTicket → Bool}
    {t : OrderTicket} {i : Nat} (h : c.latestWhere p = some (t, i)) : c.tickets[i]? = some t := by
  have hmem := List.mem_of_find?_eq_some h
  rw [List.mem_reverse] at hmem
  exact List.mem_zipIdx_iff_getElem?.mp hmem

theorem renewExit_live (side : Side) (netQty target : ℚ) :
    Keeps World.Live (renewExit S side netQty target) := by
  refine Triple.coord (fun c => ?_)
  refine Triple.strengthen (P := World.Live) ?_ (fun w h => h.1)
  split
  · exact placeExit_live S _ _ _ _
  · refine Triple.ite (fun _ => ?_) (fun _ => Keeps.bind (live_setReason _) (fun _ => Keeps.pure _))
    split
    · exact Keeps.bind (Triple.update (fun _ h => h))
        (fun _ => Keeps.bind (live_setReason _) (fun _ => Keeps.pure _))
    · exact Keeps.bind (Triple.update (fun _ h => h)) (fun _ => placeExit_live S _ _ _ _)

theorem ensureAnchoredExit_verdict (exposure : Exposure) (netQty entryAvg current : ℚ) :
    Triple World.Answered (ensureAnchoredExit S exposure netQty entryAvg current)
      (fun _ => Verdict) (fun _ => Verdict) := by
  refine bind_verdict (answered_asks (asks_orRaise _)) (fun target => ?_)
  refine Triple.coord (fun c => ?_)
  split
  · rename_i ticket i hactive
    refine Triple.ite (fun _ => Triple.pure (fun w h => h.1.live.verdict)) (fun _ => ?_)
    exact replaceExit_verdict S _ netQty target (Coordinator.latestWhere_getElem hactive)
  · exact (verdict_of_live (renewExit_live S _ netQty target)).strengthen (fun _ h => h.1.live)

/-! ## Stopping -/

/-- A round that is over owns nothing; of one that goes on, `P` holds. -/
def Concluded (P : World → Prop) : Bool → World → Prop
  | true, w => Verdict w
  | false, w => P w

/-- Settled, and as the venue answered unless the reason forbids an exit order. -/
structure World.Unstopped (w : World) : Prop extends World.Settled w where
  shown : stopForbidsExit w.coord.reason = false → w.Shown

theorem World.Answered.unstopped {w : World} (h : w.Answered) : w.Unstopped :=
  ⟨h.toSettled, fun _ => h.shown⟩

/-- The stop is put off for this reason. -/
theorem putOff_unstopped (reason : String) :
    Triple (fun w => w.Settled ∧ (stopForbidsExit (some reason) = false → w.Shown))
      (setReason reason) (fun _ => World.Unstopped) (fun _ => World.Live) := by
  refine Triple.update ?_
  rintro w ⟨h, hshown⟩
  exact ⟨⟨h.linked, h.live⟩, fun hallowed => (hshown hallowed).coord rfl⟩

theorem placeStop_concluded (side : Side) (netQty exitQty : ℚ) (reason : String)
    (permit : Option String) :
    Triple World.Answered (placeStop S side netQty exitQty reason permit)
      (Concluded World.Unstopped) (fun _ => Verdict) := by
  refine Triple.coord (fun c => ?_)
  refine Triple.strengthen (P := World.Answered) ?_ (fun w h => h.1)
  -- the market exit is no read
  refine bind_verdict (Q := fun _ => World.Answered)
    (Triple.ask (fun w _ h => ⟨⟨h.linked, h.live⟩, h.shown.call _ rfl rfl⟩)) (fun answer => ?_)
  refine bind_verdict (answered_asks (asks_orRaise answer)) (fun market => ?_)
  split
  · refine bind_verdict (answered_asks (marketExitRefused_asks S side)) (fun pending => ?_)
    refine Triple.ite (fun _ => ?_) (fun _ => ?_)
    · exact Triple.bind (Q := fun _ => World.Unstopped)
        (Triple.update (fun w h => ⟨⟨h.linked, rfl⟩, fun _ => h.shown.coord rfl⟩))
        (fun _ => Triple.pure (fun _ h => h))
    · refine Triple.bind (Q := fun _ => World.Answered)
        (Triple.mark (fun w h => ⟨⟨h.linked, h.live⟩, h.shown.call _ rfl rfl⟩)) (fun _ => ?_)
      refine bind_verdict ((putOff_unstopped _).strengthen ?_) (fun _ => Triple.pure (fun _ h => h))
      exact fun w h => ⟨h.toSettled, fun _ => h.shown⟩
  · exact Triple.bind (Q := fun _ => World.Live) (Triple.update (fun _ _ => rfl))
      (fun _ => Triple.pure (fun _ h => h.verdict))

theorem replaceByStop_concluded (side : Side) (netQty : ℚ) (reason : String)
    {ticket : OrderTicket} {i : Nat} {c : Coordinator} (hi : c.tickets[i]? = some ticket) :
    Triple (fun w => w.Answered ∧ w.coord = c) (replaceByStop S side netQty reason ticket i)
      (Concluded World.Unstopped) (fun _ => Verdict) := by
  refine Triple.coord (fun c' => ?_)
  refine Triple.strengthen (P := fun w => w.Answered ∧ w.coord = c) ?_ (fun w h => h.1)
  refine bind_verdict (answered_asks_at (asks_ask (fun _ => rfl)) c) (fun answer => ?_)
  refine bind_verdict (answered_asks_at (asks_orRaise answer) c) (fun permit => ?_)
  refine bind_verdict (cancelAt_answered S hi) (fun failure => ?_)
  split
  · refine bind_verdict ((putOff_unstopped _).strengthen ?_) (fun _ => Triple.pure (fun _ h => h))
    exact fun w h => ⟨h.1, fun _ => h.2 nofun⟩
  · -- the order may be open without an answer that says so, but this reason forbids an exit order
    refine bind_verdict ((putOff_unstopped _).strengthen ?_) (fun _ => Triple.pure (fun _ h => h))
    exact fun w h => ⟨h.1, nofun⟩
  · refine Triple.strengthen (P := World.Answered) ?_ (fun w h => ⟨h.1, h.2 nofun⟩)
    refine Triple.coord (fun c'' => ?_)
    refine Triple.ite (fun hflat => ?_) (fun _ => ?_)
    · refine Triple.bind (Q := fun _ => Verdict) ((conclude_unchecked _ _).strengthen ?_)
        (fun _ => Triple.pure (fun _ h => h))
      rintro w ⟨h, rfl⟩
      exact ⟨h, hflat⟩
    · refine Triple.strengthen (P := World.Answered) ?_ (fun w h => h.1)
      refine Triple.ite (fun _ => ?_) (fun _ => placeStop_concluded S _ _ _ _ _)
      refine bind_verdict ((putOff_unstopped _).strengthen ?_) (fun _ => Triple.pure (fun _ h => h))
      exact fun w h => ⟨h.toSettled, fun _ => h.shown⟩

theorem submitHardStop_concluded (exposure : Exposure) (netQty entryAvg current : ℚ) :
    Triple World.Answered (submitHardStop S exposure netQty entryAvg current)
      (Concluded World.Unstopped) (fun _ => Verdict) := by
  refine Triple.coord (fun c => ?_)
  refine Triple.ite (fun _ => Triple.pure (fun w h => h.1.unstopped)) (fun _ => ?_)
  refine bind_verdict (answered_asks_at (asks_orRaise _) c) (fun loss => ?_)
  refine bind_verdict (answered_asks_at (marketExitPermitted_asks S exposure loss _) c)
    (fun permitted => ?_)
  refine Triple.ite (fun _ => ?_) (fun _ => ?_)
  · split
    · exact (placeStop_concluded S _ _ _ _ _).strengthen (fun _ h => h.1)
    · rename_i ticket i hactive
      exact replaceByStop_concluded S _ netQty _ (Coordinator.latestWhere_getElem hactive)
  · refine bind_verdict ((putOff_unstopped _).strengthen ?_) (fun _ => Triple.pure (fun _ h => h))
    exact fun w h => ⟨h.1.toSettled, fun _ => h.1.shown⟩

/-- A retry is never the end. -/
theorem retryTerminalHardStop_live (netQty : ℚ) :
    Keeps World.Live (retryTerminalHardStop S netQty) := by
  refine Triple.coord (fun c => ?_)
  refine Triple.strengthen (P := World.Live) ?_ (fun w h => h.1)
  refine Triple.ite (fun _ => Keeps.pure _) (fun _ => ?_)
  refine Triple.ite (fun _ => Triple.update (fun _ _ => rfl)) (fun _ => ?_)
  refine Keeps.bind ?_ (fun market => ?_)
  · refine Keeps.bind (Triple.ask (fun _ _ h => h)) (fun answer => ?_)
    split
    · exact Keeps.pure _
    · refine Keeps.bind (Triple.ask (fun _ _ h => h)) (fun market => ?_)
      split
      · exact Keeps.pure _
      · exact Keeps.pure _
  · split
    · refine Keeps.bind (Triple.update (fun _ _ => rfl)) (fun _ => ?_)
      exact Keeps.bind (live_touches (touches_of_asks (marketExitRefused_asks S _)))
        (fun _ => live_setReason _)
    · exact Triple.update (fun _ _ => rfl)

/-! ## Steps -/

theorem stepStopping_verdict (net : ℚ) {c : Coordinator} (hnet : c.netQty = net) :
    Triple (fun w => w.Answered ∧ w.coord = c) (stepStopping S net) (fun _ => Verdict)
      (fun _ => Verdict) := by
  refine Triple.coord (fun c' => ?_)
  refine Triple.strengthen (P := fun w => w.Answered ∧ w.coord = c) ?_ (fun w h => h.1)
  refine Triple.ite (fun hflat => ?_) (fun _ => ?_)
  · refine (conclude_unchecked _ _).strengthen ?_
    rintro w ⟨h, rfl⟩
    exact ⟨h, by rw [hnet]; exact hflat⟩
  · refine (verdict_of_live (P := World.Live) ?_).strengthen (fun w h => h.1.live)
    split
    · exact Triple.ite (fun _ => retryTerminalHardStop_live S net) (fun _ => Keeps.pure _)
    · exact Keeps.pure _

theorem stepHardStopRecovery_verdict (net : ℚ) :
    Triple World.Answered (stepHardStopRecovery S net) (fun _ => Verdict) (fun _ => Verdict) := by
  refine Triple.coord (fun c => ?_)
  refine Triple.strengthen (P := World.Answered) ?_ (fun w h => h.1)
  refine Triple.ite (fun _ => ?_) (fun _ => ?_)
  · exact (verdict_of_live (retryTerminalHardStop_live S net)).strengthen (fun w h => h.live)
  refine Triple.ite (fun _ => ?_) (fun _ => Triple.pure (fun w h => h.live.verdict))
  refine bind_verdict (recoverPersistedIntents_answered S) (fun recovered => ?_)
  refine Triple.ite (fun _ => ?_) (fun _ => Triple.pure (fun w h => h.live.verdict))
  refine Triple.coord (fun c' => ?_)
  refine Triple.ite (fun hflat => ?_) (fun _ => Triple.ite (fun _ => ?_) (fun _ => ?_))
  · refine (conclude_unchecked _ _).strengthen ?_
    rintro w ⟨h, rfl⟩
    exact ⟨h, hflat⟩
  · exact (verdict_of_live (live_setReason _)).strengthen (fun w h => h.1.live)
  · refine Triple.bind (Q := fun _ w => w.Answered ∧ w.coord = { c' with phase := .stopping })
      (Triple.update ?_)
      (fun _ => stepStopping_verdict (c := { c' with phase := .stopping }) S c'.netQty rfl)
    rintro w ⟨h, rfl⟩
    exact ⟨⟨⟨h.linked, rfl⟩, h.shown.coord rfl⟩, rfl⟩

/-- A round that is not recovered is withdrawn before it counts as failed. -/
theorem stepStartupRecovery_concluded :
    Triple World.Settled (stepStartupRecovery S)
      (fun goesOn => Concluded World.Settled (!goesOn)) (fun _ => Verdict) := by
  refine bind_verdict (Q := fun _ => World.Settled) ?_ (fun recovered => ?_)
  · refine Triple.coord (fun c => ?_)
    refine Triple.strengthen (P := World.Settled) ?_ (fun w h => h.1)
    exact Triple.ite (fun _ => recoverPersistedIntents_settled S)
      (fun _ => Triple.pure (fun _ h => h))
  refine Triple.ite (fun _ => ?_) (fun _ => Triple.pure (fun w h => h.live.verdict))
  refine bind_verdict (cancelEach_settled S true OrderTicket.active) (fun failure => ?_)
  split
  · exact Triple.pure (fun w h => h.1.live.verdict)
  · refine Triple.coord (fun c => ?_)
    refine Triple.ite (fun hflat => ?_) (fun _ => ?_)
    · refine Triple.bind (Q := fun _ => Verdict) (Triple.update ?_)
        (fun _ => Triple.pure (fun _ h => h))
      rintro w ⟨⟨h, hnone⟩, rfl⟩
      exact conclude_checked h.linked (hnone (fun _ hact => hact) rfl) hflat ⟨rfl, rfl⟩
    · exact Triple.bind (Q := fun _ => World.Settled)
        (Triple.update (fun w h => ⟨h.1.1.linked, rfl⟩)) (fun _ => Triple.pure (fun _ h => h))

theorem closeBalanced_concluded :
    Triple World.Settled (closeBalanced S) (Concluded World.Answered) (fun _ => Verdict) := by
  refine bind_verdict (cancelEach_settled S false OrderTicket.active) (fun failure => ?_)
  refine bind_verdict ((refresh_answered S).strengthen (fun w h => h.1.live)) (fun _ => ?_)
  refine Triple.coord (fun c => ?_)
  refine Triple.ite (fun hflat => ?_) (fun _ => Triple.pure (fun w h => h.1))
  refine Triple.ite (fun _ => ?_) (fun hno => ?_)
  · exact Triple.bind (Q := fun _ => World.Live) (Triple.update (fun _ _ => rfl))
      (fun _ => Triple.pure (fun w h => h.verdict))
  · refine Triple.bind (Q := fun _ => Verdict) (Triple.update ?_)
      (fun _ => Triple.pure (fun _ h => h))
    rintro w ⟨h, rfl⟩
    simp only [Bool.or_eq_true, not_or, Bool.not_eq_true] at hno
    exact conclude_checked h.linked hno.2 hflat ⟨rfl, rfl⟩

theorem exitExposure_verdict :
    Triple World.Answered (exitExposure S) (fun _ => Verdict) (fun _ => Verdict) := by
  refine Triple.coord (fun c => ?_)
  refine Triple.strengthen (P := World.Answered) ?_ (fun w h => h.1)
  refine bind_verdict (answered_asks (asks_ask (fun _ => rfl))) (fun answer => ?_)
  refine bind_verdict (answered_asks (asks_orRaise answer)) (fun price => ?_)
  refine Triple.ite (fun _ => ?_) (fun _ => ?_)
  · exact (verdict_of_live (live_setReason _)).strengthen (fun w h => h.live)
  refine Triple.bind (submitHardStop_concluded S _ c.netQty _ _) (fun stopped => ?_)
  refine Triple.ite (fun hstopped => ?_) (fun hstopped => ?_)
  · exact Triple.pure (fun w h => by rwa [hstopped] at h)
  refine Triple.coord (fun c' => ?_)
  refine Triple.strengthen (P := fun w => w.Unstopped ∧ w.coord = c') ?_ ?_
  · refine Triple.ite (fun _ => Triple.pure (fun w h => h.1.live.verdict)) (fun hallowed => ?_)
    refine Triple.bind ((ensureAnchoredExit_verdict S _ _ _ _).strengthen ?_)
      (fun _ => Triple.pure (fun _ h => h))
    rintro w ⟨h, rfl⟩
    exact ⟨h.toSettled, h.shown (Bool.eq_false_iff.mpr hallowed)⟩
  · rintro w ⟨h, hc⟩
    rw [Bool.eq_false_iff.mpr hstopped] at h
    exact ⟨h, hc⟩

/-- After `closeBalanced`, the round is over or `x` goes on from a settled state. -/
theorem goOn_verdict {x : PairM Unit}
    (hx : Triple World.Answered x (fun _ => Verdict) (fun _ => Verdict)) (ended : Bool) :
    Triple (Concluded World.Answered ended) (if ended then pure () else x) (fun _ => Verdict)
      (fun _ => Verdict) := by
  cases ended with
  | true => exact Triple.pure (fun _ h => h)
  | false => exact hx

theorem manageExposure_verdict :
    Triple World.Settled (manageExposure S) (fun _ => Verdict) (fun _ => Verdict) := by
  refine Triple.bind (Q := fun _ => World.Settled) (Triple.update (fun w h => ⟨h.linked, rfl⟩))
    (fun _ => ?_)
  refine Triple.coord (fun c => ?_)
  refine Triple.strengthen (P := World.Settled) ?_ (fun w h => h.1)
  refine bind_verdict (cancelEach_settled S _ _) (fun failure => ?_)
  split
  · exact (verdict_of_live (live_setReason _)).strengthen (fun w h => h.1.live)
  · exact (verdict_of_live (live_setReason _)).strengthen (fun w h => h.1.live)
  · refine bind_verdict ((refresh_answered S).strengthen (fun w h => h.1.live)) (fun _ => ?_)
    refine Triple.coord (fun c' => ?_)
    refine Triple.strengthen (P := World.Answered) ?_ (fun w h => h.1)
    refine Triple.ite (fun _ => ?_) (fun _ => exitExposure_verdict S)
    refine Triple.bind (Q := fun _ => World.Settled) (Triple.update (fun w h => ⟨h.linked, rfl⟩))
      (fun _ => ?_)
    exact Triple.bind (closeBalanced_concluded S) (goOn_verdict (exitExposure_verdict S))

theorem stepFilled_verdict :
    Triple World.Settled (stepFilled S) (fun _ => Verdict) (fun _ => Verdict) := by
  refine Triple.coord (fun c => ?_)
  refine Triple.strengthen (P := World.Settled) ?_ (fun w h => h.1)
  refine Triple.ite (fun _ => ?_) (fun _ => manageExposure_verdict S)
  refine Triple.bind (closeBalanced_concluded S) (goOn_verdict ?_)
  exact (manageExposure_verdict S).strengthen (fun _ h => h.toSettled)

/-- No side has a fill. -/
theorem netQty_of_unfilled {c : Coordinator} (h : ¬ (0 < c.totals.buyQty ∨ 0 < c.totals.sellQty)) :
    c.netQty = 0 := by
  have hnonneg : ∀ side, 0 ≤ c.sideTotal side OrderSnapshot.filledQty := by
    intro side
    refine List.sum_nonneg (fun x hx => ?_)
    obtain ⟨t, -, rfl⟩ := List.mem_map.mp hx
    exact le_max_left _ _
  have hbuy : c.totals.buyQty = 0 := le_antisymm (not_lt.mp (not_or.mp h).1) (hnonneg .buy)
  have hsell : c.totals.sellQty = 0 := le_antisymm (not_lt.mp (not_or.mp h).2) (hnonneg .sell)
  rw [Coordinator.netQty, Coordinator.Totals.net, hbuy, hsell, sub_self]

theorem stepUnfilled_verdict {again : PairM Unit}
    (hagain : Triple World.Live again (fun _ => Verdict) (fun _ => Verdict)) (now : ℚ) :
    Triple World.Settled (stepUnfilled S again now) (fun _ => Verdict) (fun _ => Verdict) := by
  refine Triple.coord (fun c => ?_)
  refine Triple.strengthen (P := World.Live) ?_ (fun w h => h.1.live)
  refine Triple.ite (fun _ => ?_) (fun _ => Triple.pure (fun w h => h.verdict))
  refine bind_verdict (live_touches (Moves.foldlM Touches.refl Touches.trans
    (fun _ i => cancelOptimistic_touches S i) () _)) (fun _ => ?_)
  -- the flags `_cancel` cleared are set again by the read of an open order
  refine bind_verdict (refresh_settled S) (fun _ => ?_)
  refine Triple.coord (fun c' => ?_)
  refine Triple.ite (fun _ => hagain.strengthen (fun w h => h.1.live)) (fun hunfilled => ?_)
  refine Triple.ite (fun _ => ?_) (fun hno => ?_)
  · exact (verdict_of_live (live_setReason _)).strengthen (fun w h => h.1.live)
  · refine Triple.update ?_
    rintro w ⟨h, rfl⟩
    refine conclude_checked h.linked (Bool.eq_false_iff.mpr hno) ?_ ⟨rfl, rfl⟩
    rw [netQty_of_unfilled hunfilled, abs_zero]
    decide +kernel

theorem stepQuotes_verdict {again : PairM Unit}
    (hagain : Triple World.Live again (fun _ => Verdict) (fun _ => Verdict)) (now : ℚ) :
    Triple World.Settled (stepQuotes S again now) (fun _ => Verdict) (fun _ => Verdict) := by
  refine Triple.coord (fun c => ?_)
  refine Triple.strengthen (P := World.Settled) ?_ (fun w h => h.1)
  exact Triple.ite (fun _ => stepFilled_verdict S) (fun _ => stepUnfilled_verdict S hagain now)

/-- A step of a live round. -/
theorem stepBody_verdict (now : ℚ) (fuel : Nat) :
    Triple World.Live (stepBody S now fuel) (fun _ => Verdict) (fun _ => Verdict) := by
  induction fuel with
  | zero => exact Triple.throw (fun w h => h.verdict)
  | succ fuel ih =>
      refine Triple.coord (fun c => ?_)
      refine Triple.strengthen (P := World.Live) ?_ (fun w h => h.1)
      refine Triple.ite (fun _ => Triple.pure (fun w h => h.verdict)) (fun _ => ?_)
      refine Triple.ite (fun _ => Triple.throw (fun w h => h.verdict)) (fun _ => ?_)
      refine bind_verdict (refresh_answered S) (fun _ => ?_)
      refine Triple.bind (Q := fun _ => World.Answered)
        (Triple.update (fun w h => h.firstFill _ _ _ _)) (fun _ => ?_)
      refine Triple.coord (fun c' => ?_)
      split
      · refine Triple.strengthen (P := World.Settled) ?_ (fun w h => h.1.toSettled)
        refine Triple.bind (stepStartupRecovery_concluded S) (fun goesOn => ?_)
        cases goesOn with
        | true => exact stepQuotes_verdict S ih now
        | false => exact Triple.pure (fun _ h => h)
      · exact (stepHardStopRecovery_verdict S c'.netQty).strengthen (fun w h => h.1)
      · exact stepStopping_verdict S c'.netQty rfl
      · exact (stepQuotes_verdict S ih now).strengthen (fun w h => h.1.toSettled)

theorem step_verdict (now : ℚ) (fuel : Nat) :
    Triple World.Live (step S now fuel) (fun _ => Verdict) (fun _ => Verdict) := by
  refine Triple.bind (stepBody_verdict S now fuel) (fun _ => ?_)
  exact Triple.coord (fun c => Triple.pure (fun _ h => h.1))

/-! ## Starting -/

/-- Questions that cannot hurt `P`. -/
theorem asks_keeping {α : Type} {x : PairM α} {P : World → Prop} (hx : Moves Asks x)
    (hP : ∀ w w', P w → Asks w w' → P w') : Triple P x (fun _ => P) (fun _ _ => True) :=
  (hx.triple hP).conseq (fun _ h => h) (fun _ _ h => h) (fun _ _ _ => trivial)

/-- Nothing was placed. -/
theorem firstLegFailed_verdict (side : Side) (raised : Bool) :
    Triple (fun w => w.coord.tickets = []) (firstLegFailed S side raised) (fun _ => Verdict)
      (fun _ _ => True) := by
  have hkeep : ∀ w w', w.coord.tickets = [] → Asks w w' → w'.coord.tickets = [] := by
    intro w w' h ha
    rw [ha.coord]
    exact h
  refine Triple.bind (asks_keeping (placeFailureReason_asks S side) hkeep) (fun reason => ?_)
  refine Triple.bind (asks_keeping (legRecoveryPending_asks S raised reason) hkeep)
    (fun pending => ?_)
  refine Triple.ite (fun _ => Triple.update (fun _ _ => World.Live.verdict rfl)) (fun _ => ?_)
  refine Triple.update (fun w h => ?_)
  intro _ _
  refine ⟨?_, ?_, ?_⟩
  · simp [h]
  · simp [h]
  · have hnet : w.coord.netQty = 0 := by
      simp [Coordinator.netQty, Coordinator.Totals.net, Coordinator.totals, Coordinator.sideTotal, h]
    show |w.coord.netQty| ≤ flatTolerance
    rw [hnet, abs_zero]
    decide +kernel

theorem secondLegFailed_verdict (side : Side) (raised : Bool) (firstId : String) :
    Triple (fun w => ∃ active, w.coord.views = [(firstId, active)])
      (secondLegFailed S side raised firstId) (fun _ => Verdict) (fun _ _ => True) := by
  refine Triple.bind (asks_keeping (placeFailureReason_asks S side) ?_) (fun reason => ?_)
  · rintro w w' h ha
    rw [ha.coord]
    exact h
  refine Triple.bind (Q := fun failure w => failure = none →
    Linked (fun _ => True) w.coord.views (lastRead w.log) ∧ w.coord.hasActiveTickets = false) ?_
    (fun failure => ?_)
  · -- one ticket, and the cancel has read it
    refine ((cancelAndReconcile_linked S (fun _ => False) 0 firstId).and
      ((cancelAndReconcile_elsewhere S 0 firstId).triple (P := fun w => w.coord.views.length = 1)
        (Q := fun w => w.coord.views.length = 1) (fun _ _ h h' => h'.1.trans h))).conseq ?_ ?_
      (fun _ _ _ => trivial)
    · rintro w ⟨active, hviews⟩
      refine ⟨⟨fun _ _ hD => hD.elim, active, ?_⟩, ?_⟩
      · rw [hviews]
        rfl
      · rw [hviews]
        rfl
    · rintro failure w ⟨⟨-, hconfirmed⟩, hlen⟩ hnone
      obtain ⟨hlinked, hfirst⟩ := hconfirmed hnone
      have hzero : ∀ j v, w.coord.views[j]? = some v → j = 0 := by
        intro j v hv
        have hlt := (List.getElem?_eq_some_iff.mp hv).1
        omega
      refine ⟨hlinked.mono (fun j v hv _ => Or.inr (hzero j v hv)) (fun _ _ _ _ => trivial), ?_⟩
      simp only [Coordinator.hasActiveTickets, List.any_eq_false]
      intro t ht
      obtain ⟨j, hj⟩ := List.mem_iff_getElem?.mp ht
      have hv : w.coord.views[j]? = some (t.orderId, t.active) := by simp [Coordinator.views, hj]
      rw [hzero j _ hv, hfirst, Option.some.injEq, Prod.mk.injEq] at hv
      simp [← hv.2]
  refine Triple.bind (asks_keeping (legRecoveryPending_asks S raised reason) ?_) (fun pending => ?_)
  · rintro w w' h ha hnone
    obtain ⟨new, hlog, hsilent⟩ := ha.log
    rw [hlog, lastRead_of_silent hsilent, ha.coord]
    exact h hnone
  split
  · exact Triple.bind (Q := fun _ _ => True) (Triple.mark (fun _ _ => trivial))
      (fun _ => Triple.update (fun _ _ => World.Live.verdict rfl))
  · refine Triple.ite (fun _ => Triple.update (fun _ _ => World.Live.verdict rfl)) (fun _ => ?_)
    refine Triple.coord (fun c => ?_)
    refine Triple.ite (fun _ => Triple.update (fun _ _ => World.Live.verdict rfl)) (fun hflat => ?_)
    refine Triple.update ?_
    rintro w ⟨h, rfl⟩
    -- the round ends here: the cancel was confirmed and the net quantity is within the tolerance
    exact conclude_checked (h rfl).1 (h rfl).2 (not_lt.mp hflat) ⟨rfl, rfl⟩

theorem placeLegs_verdict (prices : ℚ × ℚ) :
    Triple (fun w => w.coord.tickets = []) (placeLegs S prices) (fun _ => Verdict)
      (fun _ _ => True) := by
  refine Triple.coord (fun c => ?_)
  refine Triple.bind (Q := fun _ w => w.coord.tickets = []) ?_ (fun first => ?_)
  · exact Triple.coord (fun c' => Triple.ask (fun _ _ h => h.1.1))
  split
  · rename_i ticket
    refine Triple.bind (Q := fun _ w => ∃ active, w.coord.views = [(ticket.orderId, active)])
      (Triple.update ?_) (fun _ => ?_)
    · intro w h
      refine ⟨ticket.active, ?_⟩
      show (w.coord.append ticket).views = _
      rw [Coordinator.views_append, Coordinator.views, h]
      rfl
    · refine Triple.bind (Q := fun _ w => ∃ active, w.coord.views = [(ticket.orderId, active)])
        (Triple.coord (fun c' => Triple.ask (fun _ _ h => h.1))) (fun second => ?_)
      split
      · exact Triple.bind (Q := fun _ _ => True) (Triple.update (fun _ _ => trivial))
          (fun _ => Triple.update (fun _ _ => World.Live.verdict rfl))
      · exact secondLegFailed_verdict S _ _ _
      · exact secondLegFailed_verdict S _ _ _
  · exact firstLegFailed_verdict S _ _
  · exact firstLegFailed_verdict S _ _

theorem start_verdict (mid : Option ℚ) (pairId : String) (clock : ℚ) :
    Triple (fun _ => True) (start S mid pairId clock) (fun _ => Verdict) (fun _ _ => True) := by
  refine Triple.coord (fun c => ?_)
  refine Triple.strengthen (P := fun _ => True) ?_ (fun _ _ => trivial)
  refine Triple.ite (fun _ => Triple.throw (fun _ _ => trivial)) (fun _ => ?_)
  refine Triple.bind (asks_keeping (startMid_asks S mid) (fun _ _ _ _ => trivial)) (fun mid => ?_)
  refine Triple.bind (asks_keeping (asks_orRaise _) (fun _ _ _ _ => trivial)) (fun prices => ?_)
  refine Triple.bind (Q := fun _ w => w.coord.tickets = []) (Triple.update (fun _ _ => rfl))
    (fun _ => ?_)
  refine Triple.bind (placeLegs_verdict S prices) (fun _ => ?_)
  exact Triple.coord (fun c => Triple.pure (fun _ h => h.1))

/-! A start that raises has not set the phase yet. -/

theorem phase_touches {α : Type} {x : PairM α} (hx : Moves Touches x) (phase : Phase) :
    Keeps (fun w => w.coord.phase = phase) x :=
  hx.triple (fun _ _ h ht => ht.phase.trans h)

theorem setPhase_returns {P : World → Prop} {E : String → World → Prop} (phase : Phase)
    (reason : Option String) : Triple P (setPhase phase reason) (fun _ _ => True) E :=
  Triple.update (fun _ _ => trivial)

theorem firstLegFailed_raises (side : Side) (raised : Bool) (phase : Phase) :
    Triple (fun w => w.coord.phase = phase) (firstLegFailed S side raised) (fun _ _ => True)
      (fun _ w => w.coord.phase = phase) := by
  refine Triple.bind (phase_touches (touches_of_asks (placeFailureReason_asks S side)) phase)
    (fun reason => ?_)
  refine Triple.bind (phase_touches (touches_of_asks (legRecoveryPending_asks S raised reason)) phase)
    (fun pending => ?_)
  exact Triple.ite (fun _ => setPhase_returns _ _) (fun _ => setPhase_returns _ _)

theorem secondLegFailed_raises (side : Side) (raised : Bool) (firstId : String) (phase : Phase) :
    Triple (fun w => w.coord.phase = phase) (secondLegFailed S side raised firstId)
      (fun _ _ => True) (fun _ w => w.coord.phase = phase) := by
  refine Triple.bind (phase_touches (touches_of_asks (placeFailureReason_asks S side)) phase)
    (fun reason => ?_)
  refine Triple.bind (phase_touches (cancelAndReconcile_touches S 0 firstId) phase)
    (fun failure => ?_)
  refine Triple.bind (phase_touches (touches_of_asks (legRecoveryPending_asks S raised reason)) phase)
    (fun pending => ?_)
  split
  · exact Triple.bind (Q := fun _ _ => True) (Triple.mark (fun _ _ => trivial))
      (fun _ => setPhase_returns _ _)
  · refine Triple.ite (fun _ => setPhase_returns _ _) (fun _ => Triple.coord (fun c => ?_))
    exact Triple.ite (fun _ => setPhase_returns _ _) (fun _ => setPhase_returns _ _)

theorem start_raises (mid : Option ℚ) (pairId : String) (clock : ℚ) (phase : Phase) :
    Triple (fun w => w.coord.phase = phase) (start S mid pairId clock) (fun _ _ => True)
      (fun _ w => w.coord.phase = phase) := by
  have hplace : ∀ side price, Keeps (fun w => w.coord.phase = phase) (placeEntry S side price) :=
    fun side price => Triple.coord (fun c => Triple.ask (fun _ _ h => h.1))
  refine Triple.coord (fun c => ?_)
  refine Triple.strengthen (P := fun w => w.coord.phase = phase) ?_ (fun w h => h.1)
  refine Triple.ite (fun _ => Triple.throw (fun _ h => h)) (fun _ => ?_)
  refine Triple.bind (phase_touches (touches_of_asks (startMid_asks S mid)) phase) (fun mid => ?_)
  refine Triple.bind (phase_touches (touches_orRaise _) phase) (fun prices => ?_)
  refine Triple.bind (Q := fun _ w => w.coord.phase = phase) (Triple.update (fun _ h => h))
    (fun _ => ?_)
  refine Triple.bind (Q := fun _ _ => True) ?_
    (fun _ => Triple.coord (fun c => Triple.pure (fun _ _ => trivial)))
  refine Triple.coord (fun c' => ?_)
  refine Triple.strengthen (P := fun w => w.coord.phase = phase) ?_ (fun w h => h.1)
  refine Triple.bind (hplace _ _) (fun first => ?_)
  split
  · refine Triple.bind (Q := fun _ w => w.coord.phase = phase) (Triple.update (fun _ h => h))
      (fun _ => ?_)
    refine Triple.bind (hplace _ _) (fun second => ?_)
    split
    · exact Triple.bind (Q := fun _ _ => True) (Triple.update (fun _ _ => trivial))
        (fun _ => Triple.update (fun _ _ => trivial))
    · exact secondLegFailed_raises S _ _ _ phase
    · exact secondLegFailed_raises S _ _ _ phase
  · exact firstLegFailed_raises S _ _ phase
  · exact firstLegFailed_raises S _ _ phase

end Verdicts

/-! ## The main result -/

/-- The phase becomes terminal: the round was not over before the action, or the action is a
start that returns. -/
def BecomesTerminal (S : Setup) (w : World) (a : Action) : Prop :=
  (w.after S a).coord.phase.terminal = true ∧
    (w.Live ∨ ∃ mid pairId clock outcome w',
      a = .start mid pairId clock ∧ start S mid pairId clock w = .ok outcome w')

/-- Only a start that returns or a step of a live round ends it. -/
theorem BecomesTerminal.cases {S : Setup} {w : World} {a : Action} (h : BecomesTerminal S w a) :
    (∃ mid pairId clock outcome w', a = .start mid pairId clock ∧
      start S mid pairId clock w = .ok outcome w' ∧ w'.coord.phase.terminal = true) ∨
    ∃ now fuel, a = .step now fuel ∧ w.Live ∧
      (finalWorld (step S now fuel w)).coord.phase.terminal = true := by
  obtain ⟨hover, hwhy⟩ := h
  cases a with
  | start mid pairId clock =>
      have hphase := start_raises S mid pairId clock w.coord.phase w rfl
      simp only [World.after] at hover
      cases hres : start S mid pairId clock w with
      | ok outcome w' =>
          rw [hres] at hover
          exact Or.inl ⟨mid, pairId, clock, outcome, w', rfl, hres, hover⟩
      | error e w' =>
          -- the phase is the one before, which was not terminal
          rw [hres] at hphase hover
          rcases hwhy with hlive | ⟨mid', pairId', clock', outcome, w'', ha, hok⟩
          · have hsame : w'.coord.phase = w.coord.phase := hphase
            rw [World.Live, ← hsame] at hlive
            exact absurd hover (by simp [finalWorld, hlive])
          · cases ha
            rw [hok] at hres
            cases hres
  | step now fuel =>
      rcases hwhy with hlive | ⟨_, _, _, _, _, ha, -⟩
      · exact Or.inr ⟨now, fuel, rfl, hlive, hover⟩
      · cases ha
  | restart clock =>
      rcases hwhy with hlive | ⟨_, _, _, _, _, ha, -⟩
      · have hsame : (w.restarted clock).coord.phase = w.coord.phase := by
          rw [w.restarted_eq clock]
          rfl
        rw [World.Live, ← hsame] at hlive
        exact absurd hover (by simp [World.after, hlive])
      · cases ha

theorem after_ownsNothing (S : Setup) (w : World) (a : Action)
    (hwithdrawn : Withdrawn (w.after S a).log) (hterm : BecomesTerminal S w a) :
    OwnsNothing (w.after S a) := by
  rcases hterm.cases with ⟨mid, pairId, clock, outcome, w', rfl, hok, hover⟩ |
    ⟨now, fuel, rfl, hlive, hover⟩
  · have hverdict := start_verdict S mid pairId clock w trivial
    simp only [World.after, hok] at hverdict hwithdrawn ⊢
    exact hverdict hwithdrawn hover
  · exact final_of_triple (step_verdict S now fuel) hlive hwithdrawn hover

/-- **A finished round owns nothing.** In every run in which, wherever the round ends on its net
quantity alone, the venue's answers leave no order open: when an action ends the round, no ticket
is active, the last read of every order is not open, and the position is flat. -/
theorem finished_round_owns_nothing (S : Setup) (w : World) (actions : List Action)
    (hwithdrawn : Along (World.after S) (fun w a => Withdrawn (w.after S a).log) w actions) :
    Along (World.after S) (fun w a => BecomesTerminal S w a → OwnsNothing (w.after S a)) w
      actions :=
  Along.of_invariant (I := fun _ => True)
    (fun w a _ h => ⟨after_ownsNothing S w a h, trivial⟩) trivial hwithdrawn

/-! ## A stop that is recovered with an exit order -/

instance instDecidableWithdrawn : (log : List Call) → Decidable (Withdrawn log)
  | [] => inferInstanceAs (Decidable True)
  | _ :: log =>
      have := instDecidableWithdrawn log
      inferInstanceAs (Decidable (_ ∧ _))

/-- The BUY leg fills, the placement of the exit order is not answered, the price falls and the
market exit is not answered either. The recovery confirms both, the exit order with `exitRead`. -/
def recoveringVenue (exitRead : OrderSnapshot) : Venue :=
  { sampleVenue with
    currentPrice := fun n => .ok (some (if n < 15 then 100 else 80))
    placeLimit := fun n order =>
      if order.revision = Revision.zero then sampleVenue.placeLimit n order else .error "timeout"
    placeMarketExit := fun _ _ => .ok none
    recoveryBlocked := fun n => n < 22
    orderStatus := fun n orderId =>
      if orderId = "BUY-0" then .ok filledRead
      else if n < 10 then .ok OrderSnapshot.unread
      else .ok withdrawnRead
    recoverPairIntents := some (fun _ _ =>
      .ok [⟨sampleTicket "SELL-1" .sell 1, exitRead, "limit_1"⟩,
        ⟨sampleTicket "STOP-0" .sell Revision.zero,
          sampleRead .closed 10 800 filledRead.filledQty_nonneg, "hard_stop"⟩]) }

def recoveredStop (exitRead : OrderSnapshot) : Setup := ⟨recoveringVenue exitRead, samplePolicy⟩

/-- Start, and the two steps whose placements are not answered. -/
def recoveredStopRun : List Action := [.start (some 100) "pair-1" 0, .step 1 1000, .step 2 1000]

theorem recoveredStop_owns_nothing_when_withdrawn :
    BecomesTerminal (recoveredStop (sampleRead .canceled 0 0))
        (sampleStart.run (recoveredStop (sampleRead .canceled 0 0)) recoveredStopRun)
        (.step 3 1000) ∧
      Along (World.after (recoveredStop (sampleRead .canceled 0 0)))
        (fun w a => BecomesTerminal (recoveredStop (sampleRead .canceled 0 0)) w a →
          OwnsNothing (w.after (recoveredStop (sampleRead .canceled 0 0)) a))
        sampleStart (recoveredStopRun ++ [.step 3 1000]) := by
  refine ⟨⟨by decide +kernel, Or.inl ?_⟩, ?_⟩
  · show Phase.terminal _ = false
    decide +kernel
  · exact finished_round_owns_nothing _ sampleStart _ (by decide +kernel)

/-- The round ends as `hard_stop` while the recovered exit order is open. -/
theorem recoveredStop_owns_an_open_exit :
    World.Reachable (recoveredStop OrderSnapshot.unread)
        (sampleStart.run (recoveredStop OrderSnapshot.unread) recoveredStopRun) ∧
      BecomesTerminal (recoveredStop OrderSnapshot.unread)
        (sampleStart.run (recoveredStop OrderSnapshot.unread) recoveredStopRun) (.step 3 1000) ∧
      ¬ OwnsNothing ((sampleStart.run (recoveredStop OrderSnapshot.unread) recoveredStopRun).after
        (recoveredStop OrderSnapshot.unread) (.step 3 1000)) := by
  refine ⟨run_reachable _ (Reach.start sampleStart_initial), ⟨by decide +kernel, Or.inl ?_⟩, ?_⟩
  · show Phase.terminal _ = false
    decide +kernel
  · intro h
    have hopen : ((sampleStart.run (recoveredStop OrderSnapshot.unread) recoveredStopRun).after
        (recoveredStop OrderSnapshot.unread) (.step 3 1000)).coord.hasActiveTickets = true := by
      decide +kernel
    obtain ⟨t, ht, hact⟩ := List.any_eq_true.mp hopen
    rw [h.inactive t ht] at hact
    cases hact

end TradingFleet.Pair
