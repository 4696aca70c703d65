import Mathlib.Data.List.NodupEquivFin
import TradingFleet.Pair.Exits

set_option autoImplicit false

/-! # What the venue answered about the orders of a round

`_refresh` asks for every order; afterwards the venue answers again about single orders, when
one is withdrawn or recovered. The `active` flags are what these answers leave (`Shown`), so
whether an order is left open can be said of the answers alone (`NoneLeftOpen`).
-/

namespace TradingFleet.Pair

open TradingFleet.Hoare

/-! ## Reads -/

/-- The order reads a call returned, oldest first. -/
def Event.reads : Event → List (String × OrderSnapshot)
  | .orderStatus orderId (.ok snap) => [(orderId, snap)]
  | .recoverPairIntents (.ok items) => items.map (fun r => (r.ticket.orderId, r.snapshot))
  | _ => []

abbrev Reads := String → Option OrderSnapshot

def Reads.apply (last : Reads) (r : String × OrderSnapshot) : Reads :=
  Function.update last r.1 (some r.2)

/-- The last read of each order. -/
def lastRead : List Call → Reads
  | [] => fun _ => none
  | x :: log => x.event.reads.foldl Reads.apply (lastRead log)

/-- The last of some answers about each order. -/
def lastAnswer (answers : List (String × OrderSnapshot)) : Reads :=
  answers.foldl Reads.apply (fun _ => none)

theorem Reads.foldl_apply (answers : List (String × OrderSnapshot)) (last : Reads)
    (orderId : String) :
    answers.foldl Reads.apply last orderId = (lastAnswer answers orderId).or (last orderId) := by
  unfold lastAnswer
  induction answers generalizing last with
  | nil => rfl
  | cons r answers ih =>
      rw [List.foldl_cons, List.foldl_cons, ih, ih (Reads.apply (fun _ => none) r), Option.or_assoc]
      by_cases hid : orderId = r.1
      · rw [hid, Reads.apply, Reads.apply, Function.update_self, Function.update_self,
          Option.some_or]
      · rw [Reads.apply, Reads.apply, Function.update_of_ne hid, Function.update_of_ne hid,
          Option.none_or]

theorem lastAnswer_append (answers later : List (String × OrderSnapshot)) (orderId : String) :
    lastAnswer (answers ++ later) orderId =
      (lastAnswer later orderId).or (lastAnswer answers orderId) := by
  rw [lastAnswer, List.foldl_append, Reads.foldl_apply]
  rfl

theorem lastAnswer_concat_self (answers : List (String × OrderSnapshot)) (orderId : String)
    (snap : OrderSnapshot) : lastAnswer (answers ++ [(orderId, snap)]) orderId = some snap := by
  rw [lastAnswer_append]
  simp [lastAnswer, Reads.apply]

theorem lastAnswer_concat_ne {orderId other : String} (h : orderId ≠ other)
    (answers : List (String × OrderSnapshot)) (snap : OrderSnapshot) :
    lastAnswer (answers ++ [(other, snap)]) orderId = lastAnswer answers orderId := by
  rw [lastAnswer_append]
  simp [lastAnswer, Reads.apply, Function.update_of_ne h]

theorem lastAnswer_eq_none {answers : List (String × OrderSnapshot)} {orderId : String} :
    lastAnswer answers orderId = none ↔ ∀ r ∈ answers, r.1 ≠ orderId := by
  induction answers using List.reverseRecOn with
  | nil => simp [lastAnswer]
  | append_singleton answers r ih =>
      by_cases hid : orderId = r.1
      · rw [hid, lastAnswer_concat_self]
        exact iff_of_false nofun (fun h => h r (by simp) rfl)
      · rw [show r = (r.1, r.2) from rfl, lastAnswer_concat_ne hid, ih]
        simp only [List.mem_append, List.mem_singleton]
        constructor
        · rintro h x (hx | rfl)
          · exact h x hx
          · exact Ne.symm hid
        · exact fun h x hx => h x (Or.inl hx)

/-! ## Since the last full read -/

/-- The answers of the latest calls, oldest first. -/
def latest (n : Nat) (log : List Call) : List (String × OrderSnapshot) :=
  (log.take n).reverse.flatMap (fun x => x.event.reads)

def Event.compacts : Event → Bool
  | .point .compacting => true
  | _ => false

/-- What the last full read answered, oldest first: one call for each ticket, then the history is
compacted. -/
def fullRead : List Call → List (String × OrderSnapshot)
  | [] => []
  | x :: log => if x.event.compacts then latest x.before.tickets.length log else fullRead log

/-- What was answered after it, oldest first. -/
def readSince : List Call → List (String × OrderSnapshot)
  | [] => []
  | x :: log => if x.event.compacts then [] else readSince log ++ x.event.reads

/-- No order is left open by what the venue answered: in the full read, and since. -/
structure NoneLeftOpen (read since : List (String × OrderSnapshot)) : Prop where
  /-- an order that was asked for twice, because two tickets have its ID, is not open -/
  once : ∀ r ∈ read ++ since, r.2.status = .opened → ¬ List.Duplicate r.1 (read.map Prod.fst)
  /-- an order that was open is answered again: it was withdrawn, or recovered -/
  again : ∀ r ∈ read, r.2.status = .opened → ∃ r' ∈ since, r'.1 = r.1
  /-- an order that was withdrawn or recovered is not open -/
  closed : ∀ r ∈ since, ∀ snap ∈ lastAnswer since r.1, snap.status ≠ .opened

instance (read since : List (String × OrderSnapshot)) : Decidable (NoneLeftOpen read since) :=
  decidable_of_iff
    ((∀ r ∈ read ++ since, r.2.status = .opened → ¬ List.Duplicate r.1 (read.map Prod.fst)) ∧
      (∀ r ∈ read, r.2.status = .opened → ∃ r' ∈ since, r'.1 = r.1) ∧
      ∀ r ∈ since, ∀ snap ∈ lastAnswer since r.1, snap.status ≠ .opened)
    ⟨fun h => ⟨h.1, h.2.1, h.2.2⟩, fun h => ⟨h.once, h.again, h.closed⟩⟩

/-! ## What the flags say -/

/-- Order IDs and `active` flags. -/
def Coordinator.views (c : Coordinator) : List (String × Bool) :=
  c.tickets.map (fun t => (t.orderId, t.active))

/-- What `_refresh` makes of an answer. -/
def viewOf (r : String × OrderSnapshot) : String × Bool := (r.1, decide (r.2.status = .opened))

/-- The answers leave a ticket of this order active. -/
structure Lingers (read since : List (String × OrderSnapshot)) (orderId : String) : Prop where
  opened : ∃ r ∈ read ++ since, r.1 = orderId ∧ r.2.status = .opened
  last : List.Duplicate orderId (read.map Prod.fst) ∨
    ∃ snap, lastAnswer (read ++ since) orderId = some snap ∧ snap.status = .opened

theorem NoneLeftOpen.not_lingers {read since : List (String × OrderSnapshot)}
    (h : NoneLeftOpen read since) (orderId : String) : ¬ Lingers read since orderId := by
  rintro ⟨⟨r, hr, rfl, hopen⟩, hlast⟩
  obtain ⟨snap, hsnap, hsnapOpen⟩ := hlast.resolve_left (h.once r hr hopen)
  -- an order that was open in the full read was answered again
  have hlater : ∃ r' ∈ since, r'.1 = r.1 := by
    rcases List.mem_append.mp hr with hread | hsince
    · exact h.again r hread hopen
    · exact ⟨r, hsince, rfl⟩
  obtain ⟨r', hr', hid⟩ := hlater
  cases hend : lastAnswer since r.1 with
  | none => exact lastAnswer_eq_none.mp hend r' hr' hid
  | some snap' =>
      rw [lastAnswer_append, hend, Option.some_or, Option.some.injEq] at hsnap
      rw [← hid] at hend
      exact h.closed r' hr' snap' hend (hsnap ▸ hsnapOpen)

theorem Lingers.concat_ne {read since : List (String × OrderSnapshot)} {orderId other : String}
    (h : Lingers read since orderId) (hne : orderId ≠ other) (snap : OrderSnapshot) :
    Lingers read (since ++ [(other, snap)]) orderId := by
  obtain ⟨⟨r, hr, hid, hopen⟩, hlast⟩ := h
  refine ⟨⟨r, ?_, hid, hopen⟩, hlast.imp_right ?_⟩
  · rw [← List.append_assoc]
    exact List.mem_append_left _ hr
  · rw [← List.append_assoc, lastAnswer_concat_ne hne]
    exact id

theorem Lingers.concat_duplicate {read since : List (String × OrderSnapshot)} {orderId : String}
    (h : Lingers read since orderId) (hdup : List.Duplicate orderId (read.map Prod.fst))
    (r : String × OrderSnapshot) : Lingers read (since ++ [r]) orderId := by
  obtain ⟨⟨r', hr', hid, hopen⟩, -⟩ := h
  refine ⟨⟨r', ?_, hid, hopen⟩, Or.inl hdup⟩
  rw [← List.append_assoc]
  exact List.mem_append_left _ hr'

theorem Lingers.of_opened (read since : List (String × OrderSnapshot)) (orderId : String)
    {snap : OrderSnapshot} (hopen : snap.status = .opened) :
    Lingers read (since ++ [(orderId, snap)]) orderId := by
  refine ⟨⟨(orderId, snap), by simp, rfl, hopen⟩, Or.inr ⟨snap, ?_, hopen⟩⟩
  rw [← List.append_assoc]
  exact lastAnswer_concat_self _ _ _

/-- Every active flag comes from an answer, and only an order that was asked for twice has two
tickets. -/
structure Shown (read since : List (String × OrderSnapshot)) (views : List (String × Bool)) :
    Prop where
  lingers : ∀ v ∈ views, v.2 = true → Lingers read since v.1
  twice : ∀ orderId, List.Duplicate orderId (views.map Prod.fst) →
    List.Duplicate orderId (read.map Prod.fst)

/-- Two positions with the same order. -/
theorem duplicate_of_positions {views : List (String × Bool)} {i j : Nat} {u v : String × Bool}
    (hi : views[i]? = some u) (hj : views[j]? = some v) (hij : i ≠ j) (hid : u.1 = v.1) :
    List.Duplicate u.1 (views.map Prod.fst) := by
  obtain ⟨hlti, rfl⟩ := List.getElem?_eq_some_iff.mp hi
  obtain ⟨hltj, rfl⟩ := List.getElem?_eq_some_iff.mp hj
  have hlen : (views.map Prod.fst).length = views.length := List.length_map _
  rw [List.duplicate_iff_exists_distinct_get]
  rcases Nat.lt_or_gt_of_ne hij with hlt | hgt
  · exact ⟨⟨i, hlen ▸ hlti⟩, ⟨j, hlen ▸ hltj⟩, hlt, by simp, by simp [hid]⟩
  · exact ⟨⟨j, hlen ▸ hltj⟩, ⟨i, hlen ▸ hlti⟩, hgt, by simp [hid], by simp⟩

/-- A full read leaves every flag as it was answered. -/
theorem Shown.of_read {read : List (String × OrderSnapshot)} {views : List (String × Bool)}
    (h : views = read.map viewOf) : Shown read [] views := by
  subst h
  refine ⟨?_, fun orderId hdup => ?_⟩
  · intro v hv hact
    obtain ⟨r, hr, rfl⟩ := List.mem_map.mp hv
    have hopen : r.2.status = .opened := by simpa [viewOf] using hact
    refine ⟨⟨r, by simpa using hr, rfl, hopen⟩, ?_⟩
    obtain ⟨before, after, rfl⟩ := List.append_of_mem hr
    cases hend : lastAnswer after r.1 with
    | none =>
        -- the order's last answer is this one
        refine Or.inr ⟨r.2, ?_, hopen⟩
        rw [List.append_nil, List.append_cons, lastAnswer_append, viewOf, hend, Option.none_or]
        exact lastAnswer_concat_self before r.1 r.2
    | some snap =>
        -- a later ticket has the same order
        left
        obtain ⟨r', hr', hid⟩ : ∃ r' ∈ after, r'.1 = r.1 := by
          by_contra hno
          push Not at hno
          rw [lastAnswer_eq_none.mpr hno] at hend
          cases hend
        have hdup : List.Duplicate r.1 (r.1 :: after.map Prod.fst) :=
          List.Mem.duplicate_cons_self (hid ▸ List.mem_map_of_mem hr')
        refine hdup.mono_sublist ?_
        rw [List.map_append, List.map_cons]
        exact List.sublist_append_right _ _
  · rwa [List.map_map, show Prod.fst ∘ viewOf = Prod.fst from rfl] at hdup

theorem Shown.sublist {read since : List (String × OrderSnapshot)}
    {views views' : List (String × Bool)} (h : Shown read since views)
    (hsub : List.Sublist views' views) : Shown read since views' :=
  ⟨fun v hv => h.lingers v (hsub.subset hv),
    fun orderId hdup => h.twice orderId (hdup.mono_sublist (hsub.map _))⟩

/-- One order is read again, and its ticket has the flag that goes with the answer. -/
theorem Shown.reread {read since : List (String × OrderSnapshot)} {views : List (String × Bool)}
    (h : Shown read since views) {i : Nat} {v : String × Bool} (hi : views[i]? = some v)
    (snap : OrderSnapshot) :
    Shown read (since ++ [(v.1, snap)]) (views.modify i (fun u => viewOf (u.1, snap))) := by
  have hids : (views.modify i (fun u => viewOf (u.1, snap))).map Prod.fst = views.map Prod.fst := by
    refine List.ext_getElem? (fun j => ?_)
    by_cases hij : i = j
    · subst hij
      simp [viewOf, Function.comp_def]
    · simp [List.getElem?_modify_ne _ _ hij]
  refine ⟨fun u hu hact => ?_, fun orderId hdup => h.twice orderId (hids ▸ hdup)⟩
  obtain ⟨j, hj⟩ := List.mem_iff_getElem?.mp hu
  by_cases hij : i = j
  · subst hij
    rw [List.getElem?_modify_eq, hi] at hj
    obtain rfl : viewOf (v.1, snap) = u := Option.some.inj hj
    exact Lingers.of_opened read since v.1 (by simpa [viewOf] using hact)
  · -- another ticket keeps its flag; it has the same order only if that was asked for twice
    rw [List.getElem?_modify_ne _ _ hij] at hj
    have hbefore := h.lingers u (List.mem_of_getElem? hj) hact
    by_cases hid : u.1 = v.1
    · exact hbefore.concat_duplicate (h.twice _ (duplicate_of_positions hj hi (Ne.symm hij) hid)) _
    · exact hbefore.concat_ne hid snap

/-- An order that was not held is read. -/
theorem Shown.append {read since : List (String × OrderSnapshot)} {views : List (String × Bool)}
    (h : Shown read since views) {orderId : String} (hnew : orderId ∉ views.map Prod.fst)
    (snap : OrderSnapshot) :
    Shown read (since ++ [(orderId, snap)]) (views ++ [viewOf (orderId, snap)]) := by
  refine ⟨fun u hu hact => ?_, fun other hdup => ?_⟩
  · rcases List.mem_append.mp hu with hold | hnewView
    · have hne : u.1 ≠ orderId := fun heq => hnew (heq ▸ List.mem_map_of_mem hold)
      exact (h.lingers u hold hact).concat_ne hne snap
    · obtain rfl := List.mem_singleton.mp hnewView
      exact Lingers.of_opened read since orderId (by simpa [viewOf] using hact)
  · refine h.twice other ?_
    rw [List.duplicate_iff_two_le_count] at hdup ⊢
    rw [List.map_append, List.count_append] at hdup
    by_cases hid : other = orderId
    · subst hid
      rw [List.count_eq_zero_of_not_mem hnew] at hdup
      simp [viewOf] at hdup
    · simpa [viewOf, List.count_singleton, Ne.symm hid] using hdup

/-! ## The coordinator's flags -/

namespace Coordinator

theorem views_setActive (c : Coordinator) (i : Nat) (active : Bool) :
    (c.setActive i active).views = c.views.modify i (fun v => (v.1, active)) := by
  refine List.ext_getElem? (fun j => ?_)
  by_cases hij : i = j
  · subst hij
    simp [views, setActive, Function.comp_def]
  · simp [views, setActive, List.getElem?_modify_ne _ _ hij]

/-- Changes of tickets that touch neither order IDs nor flags. -/
theorem views_modify (f : OrderTicket → OrderTicket)
    (hf : ∀ t, (f t).orderId = t.orderId ∧ (f t).active = t.active) (tickets : List OrderTicket)
    (i : Nat) :
    (tickets.modify i f).map (fun t => (t.orderId, t.active)) =
      tickets.map (fun t => (t.orderId, t.active)) := by
  refine List.ext_getElem? (fun j => ?_)
  by_cases hij : i = j
  · subst hij
    simp [Function.comp_def, hf]
  · simp [List.getElem?_modify_ne _ _ hij]

theorem views_setTicketRevision (c : Coordinator) (i : Nat) (r : Revision) :
    (c.setTicketRevision i r).views = c.views :=
  views_modify (fun t => { t with revision := r }) (fun _ => ⟨rfl, rfl⟩) c.tickets i

theorem views_setStop (c : Coordinator) (orderId : String) (i : Nat) :
    (c.setStop orderId i).views = c.views := by
  have hmark := views_modify (fun t => { t with isStop := true }) (fun _ => ⟨rfl, rfl⟩)
    (c.tickets.map (fun t => { t with isStop := false })) i
  rw [List.map_map] at hmark
  exact hmark

theorem views_adoptLimit (c : Coordinator) (i : Nat) (side : Side) (kind : String) :
    (c.adoptLimit i side kind).views = c.views := by
  unfold adoptLimit
  split
  · rfl
  · exact views_setTicketRevision c i _

theorem views_adoptStop (c : Coordinator) (i : Nat) (orderId kind : String) :
    (c.adoptStop i orderId kind).views = c.views := by
  unfold adoptStop
  split
  · rfl
  · exact (views_setStop _ orderId i).trans (views_setTicketRevision c i _)

theorem views_adopt (c : Coordinator) (r : Recovered) :
    (c.adopt r).views = (c.adopted r.ticket).1.views.modify (c.adopted r.ticket).2
      (fun v => (v.1, decide (r.snapshot.status = .opened))) := by
  unfold adopt
  rw [views_adoptStop, views_adoptLimit]
  exact views_setActive _ _ _

theorem views_append (c : Coordinator) (t : OrderTicket) :
    (c.append t).views = c.views ++ [(t.orderId, t.active)] := by
  simp [views, append]

theorem views_compact (c : Coordinator) : List.Sublist c.compact.views c.views := by
  unfold views compact
  have hsub := (List.filter_sublist (p := c.keeps) (l := c.tickets.zipIdx)).map
    (fun x : OrderTicket × Nat => (x.1.orderId, x.1.active))
  rwa [show (fun x : OrderTicket × Nat => (x.1.orderId, x.1.active)) =
    (fun t : OrderTicket => (t.orderId, t.active)) ∘ Prod.fst from rfl, ← List.map_map,
    ← List.map_map, List.zipIdx_map_fst] at hsub

theorem mem_compact {c : Coordinator} {t : OrderTicket} (h : t ∈ c.compact.tickets) :
    t ∈ c.tickets := by
  obtain ⟨x, hx, rfl⟩ := List.mem_map.mp h
  exact List.fst_mem_of_mem_zipIdx (List.mem_filter.mp hx).1

theorem active_mem_compact {c : Coordinator} {t : OrderTicket} (h : t ∈ c.tickets)
    (hact : t.active = true) : t ∈ c.compact.tickets := by
  obtain ⟨i, hi⟩ := List.mem_iff_getElem?.mp h
  have hkept : c.keeps (t, i) = true := by simp [keeps, hact]
  exact List.mem_map.mpr
    ⟨(t, i), List.mem_filter.mpr ⟨List.mem_zipIdx_iff_getElem?.mpr hi, hkept⟩, rfl⟩

end Coordinator

/-! ## Runs -/

def World.Shown (w : World) : Prop :=
  Pair.Shown (fullRead w.log) (readSince w.log) w.coord.views

theorem reads_of_silent {e : Event} (h : e.silent = true) : e.reads = [] := by
  unfold Event.reads
  split
  · cases h
  · cases h
  · rfl

theorem compacts_of_silent {e : Event} (h : e.silent = true) : e.compacts = false := by
  unfold Event.compacts
  split
  · cases h
  · rfl

/-- A call that answers about no order. -/
theorem World.Shown.call {w : World} (h : w.Shown) (c : Coordinator) {e : Event}
    (hcompacts : e.compacts = false) (hreads : e.reads = []) :
    World.Shown { w with log := ⟨c, e⟩ :: w.log } := by
  have hbefore : Pair.Shown (fullRead w.log) (readSince w.log) w.coord.views := h
  unfold World.Shown fullRead readSince
  simpa [hcompacts, hreads] using hbefore

theorem shown_of_silent {new log : List Call} {views : List (String × Bool)}
    (h : ∀ x ∈ new, x.event.silent = true) (hshown : Shown (fullRead log) (readSince log) views) :
    Shown (fullRead (new ++ log)) (readSince (new ++ log)) views := by
  induction new with
  | nil => exact hshown
  | cons x new ih =>
      have hx := h x List.mem_cons_self
      have hrest := ih (fun y hy => h y (List.mem_cons_of_mem _ hy))
      simpa [fullRead, readSince, compacts_of_silent hx, reads_of_silent hx] using hrest

theorem World.Shown.asked {w w' : World} (h : w.Shown) (ha : Asks w w') : w'.Shown := by
  obtain ⟨new, hlog, hsilent⟩ := ha.log
  unfold World.Shown
  rw [hlog, ha.coord]
  exact shown_of_silent hsilent h

theorem World.Shown.coord {w : World} (h : w.Shown) {c : Coordinator}
    (hc : c.tickets = w.coord.tickets) : World.Shown { w with coord := c } := by
  unfold World.Shown Coordinator.views
  rw [hc]
  exact h

section Reading

variable (S : Setup)

/-- The flags of the first `i` tickets are what the latest `i` calls answered. -/
def ReadTo (n i : Nat) (w : World) : Prop :=
  (latest i w.log).map viewOf = w.coord.views.take i ∧ w.coord.views.length = n

theorem refreshOne_readTo (n i : Nat) (hi : i < n) :
    Triple (ReadTo n i) (refreshOne S i) (fun _ => ReadTo n (i + 1)) (fun _ _ => True) := by
  refine Triple.coord (fun c => ?_)
  split
  · rename_i hnone
    refine Triple.pure ?_
    rintro w ⟨⟨-, hlen⟩, rfl⟩
    -- the tickets are as many as at the start, so there is one
    have hle : w.coord.tickets.length ≤ i := List.getElem?_eq_none_iff.mp hnone
    rw [Coordinator.views, List.length_map] at hlen
    omega
  · rename_i t ht
    refine Triple.bind (Q := fun answer w => ∃ log,
      w.log = ⟨c, .orderStatus t.orderId answer⟩ :: log ∧ w.coord = c ∧
        (latest i log).map viewOf = c.views.take i ∧ c.views.length = n)
      (Triple.ask ?_) (fun answer => ?_)
    · rintro w answer ⟨⟨hread, hlen⟩, rfl⟩
      exact ⟨w.log, rfl, rfl, hread, hlen⟩
    · refine Triple.bind (Q := fun snap w => ∃ log,
        w.log = ⟨c, .orderStatus t.orderId (.ok snap)⟩ :: log ∧ w.coord = c ∧
          (latest i log).map viewOf = c.views.take i ∧ c.views.length = n)
        (Triple.orRaise (fun snap w heq h => ?_) (fun _ _ _ _ => trivial)) (fun snap => ?_)
      · subst heq
        exact h
      · refine Triple.update ?_
        rintro w ⟨log, hlog, rfl, hread, hlen⟩
        have hview : w.coord.views[i]? = some (t.orderId, t.active) := by
          simp [Coordinator.views, ht]
        refine ⟨?_, ?_⟩
        · rw [hlog, Coordinator.views_setActive, List.take_add_one, List.getElem?_modify_eq]
          show _ = List.take i (w.coord.views.modify i _) ++ (Option.map _ w.coord.views[i]?).toList
          rw [hview, List.take_modify, List.modify_eq_self (by simp), ← hread]
          simp [latest, Event.reads, viewOf]
        · rw [Coordinator.views_setActive, List.length_modify]
          exact hlen

/-- After `_refresh` every flag is as the venue answered. -/
theorem refresh_shown :
    Triple (fun _ => True) (refresh S) (fun _ => World.Shown) (fun _ _ => True) := by
  refine Triple.coord (fun c => ?_)
  refine Triple.bind (Q := fun _ => ReadTo c.tickets.length c.tickets.length) ?_ (fun _ => ?_)
  · refine (Triple.rangeM (I := fun i _ => ReadTo c.tickets.length i) c.tickets.length
      (fun i hi _ => refreshOne_readTo S _ i hi) ()).strengthen ?_
    rintro w ⟨-, rfl⟩
    exact ⟨by simp [latest], by simp [Coordinator.views]⟩
  · refine Triple.bind (Q := fun _ => World.Shown) (Triple.mark ?_) (fun _ => Triple.update ?_)
    · rintro w ⟨hread, hlen⟩
      -- the full read is what the latest calls answered, one for each ticket
      have hcount : w.coord.tickets.length = c.tickets.length := by
        rwa [Coordinator.views, List.length_map] at hlen
      rw [← hlen, List.take_length] at hread
      unfold World.Shown fullRead readSince
      simp only [Event.compacts, if_true, hcount]
      rw [← hlen]
      exact Shown.of_read hread.symm
    · exact fun w h => Shown.sublist h (Coordinator.views_compact w.coord)

/-- A cancel whose read does not fail answers about the order; one that is refused changes
nothing. -/
theorem cancelAndReconcile_shown (i : Nat) (orderId : String) :
    Triple (fun w => w.Shown ∧ ∃ active, w.coord.views[i]? = some (orderId, active))
      (cancelAndReconcile S i orderId)
      (fun failure w => failure ≠ some .statusUnavailable → w.Shown) (fun _ _ => True) := by
  refine Triple.bind (Q := fun _ w => w.Shown ∧
    ∃ active, w.coord.views[i]? = some (orderId, active))
    (Triple.ask (fun w _ h => ⟨h.1.call _ rfl rfl, h.2⟩)) (fun answer => ?_)
  split
  · refine Triple.bind (Q := fun status w => ∃ log,
      w.log = ⟨w.coord, .orderStatus orderId status⟩ :: log ∧
        Shown (fullRead log) (readSince log) w.coord.views ∧
        ∃ active, w.coord.views[i]? = some (orderId, active)) (Triple.ask ?_) (fun status => ?_)
    · rintro w a ⟨h, hv⟩
      exact ⟨w.log, rfl, h, hv⟩
    · split
      · exact Triple.bind (Q := fun _ _ => True) (Triple.update (fun _ _ => trivial))
          (fun _ => Triple.pure (fun _ _ hne => absurd rfl hne))
      · rename_i snap
        refine Triple.bind (Q := fun _ => World.Shown) (Triple.update ?_) (fun _ => ?_)
        · rintro w ⟨log, hlog, h, active, hv⟩
          unfold World.Shown
          rw [hlog, Coordinator.views_setActive]
          exact h.reread hv snap
        · exact Triple.ite (fun _ => Triple.pure (fun _ h _ => h))
            (fun _ => Triple.pure (fun _ h _ => h))
  · exact Triple.pure (fun _ h _ => h.1)

theorem modify_concat {α : Type} (f : α → α) (l : List α) (x : α) :
    (l ++ [x]).modify l.length f = l ++ [f x] := by
  induction l with
  | nil => rfl
  | cons y l ih => simp [ih]

/-- Adopting a recovered order is an answer about it. -/
theorem Shown.adopt {read since : List (String × OrderSnapshot)} {c : Coordinator}
    (h : Shown read since c.views) (r : Recovered) :
    Shown read (since ++ [(r.ticket.orderId, r.snapshot)]) (c.adopt r).views := by
  rw [Coordinator.views_adopt]
  unfold Coordinator.adopted
  split
  · rename_i i hi
    obtain ⟨hlt, hmatch, -⟩ := List.findIdx?_eq_some_iff_getElem.mp hi
    have hid : c.tickets[i].orderId = r.ticket.orderId := by simpa using hmatch
    have hview : c.views[i]? = some (r.ticket.orderId, c.tickets[i].active) := by
      simp [Coordinator.views, List.getElem?_eq_getElem hlt, hid]
    exact h.reread hview r.snapshot
  · rename_i hnone
    -- an order that is not held is appended, and then marked
    have hnew : r.ticket.orderId ∉ c.views.map Prod.fst := by
      rw [List.findIdx?_eq_none_iff] at hnone
      simp only [Coordinator.views, List.map_map, List.mem_map, Function.comp_apply, not_exists,
        not_and]
      intro t ht heq
      simpa [heq] using hnone t ht
    have happend := h.append hnew r.snapshot
    have hlen : c.tickets.length = c.views.length := (List.length_map _).symm
    rw [Coordinator.views_append]
    show Shown _ _ ((c.views ++ [(r.ticket.orderId, r.ticket.active)]).modify c.tickets.length _)
    rw [hlen, modify_concat]
    exact happend

theorem Shown.adoptAll {read since : List (String × OrderSnapshot)} {c : Coordinator}
    (items : List Recovered) (h : Shown read since c.views) :
    Shown read (since ++ items.map (fun r => (r.ticket.orderId, r.snapshot)))
      (items.foldl Coordinator.adopt c).views := by
  induction items generalizing since c with
  | nil => simpa using h
  | cons r items ih => simpa using ih (h.adopt r)

theorem recoveryReturns_shown (ok : Bool) :
    Triple World.Shown (recoveryReturns ok) (fun _ => World.Shown) (fun _ _ => True) :=
  Triple.bind (Q := fun _ => World.Shown) (Triple.mark (fun _ h => h.call _ rfl rfl))
    (fun _ => Triple.pure (fun _ h => h))

theorem recoverPersistedIntents_shown :
    Triple World.Shown (recoverPersistedIntents S) (fun _ => World.Shown) (fun _ _ => True) := by
  have hasks : ∀ {α : Type} {x : PairM α}, Moves Asks x →
      Triple World.Shown x (fun _ => World.Shown) (fun _ _ => True) := fun hx =>
    (hx.triple (fun _ _ h ha => World.Shown.asked h ha)).conseq (fun _ h => h) (fun _ _ h => h)
      (fun _ _ _ => trivial)
  unfold recoverPersistedIntents
  split
  · exact recoveryReturns_shown false
  · refine Triple.coord (fun c => ?_)
    refine Triple.bind (Q := fun answer w => ∃ log,
      w.log = ⟨w.coord, .recoverPairIntents answer⟩ :: log ∧
        Shown (fullRead log) (readSince log) w.coord.views) (Triple.ask ?_) (fun answer => ?_)
    · rintro w a ⟨h, -⟩
      exact ⟨w.log, rfl, h⟩
    · split
      · refine (recoveryReturns_shown false).strengthen ?_
        rintro w ⟨log, hlog, h⟩
        unfold World.Shown
        rw [hlog]
        simpa [fullRead, readSince, Event.compacts, Event.reads] using h
      · rename_i items
        refine Triple.bind (Q := fun _ => World.Shown) (Triple.update ?_) (fun _ => ?_)
        · rintro w ⟨log, hlog, h⟩
          unfold World.Shown
          rw [hlog]
          exact h.adoptAll items
        · split
          · refine Triple.bind (hasks (asks_ask (fun _ => rfl))) (fun answer => ?_)
            exact Triple.bind (hasks (asks_orRaise answer)) (fun _ => recoveryReturns_shown _)
          · exact Triple.bind (hasks (asks_ask (fun _ => rfl))) (fun _ => recoveryReturns_shown _)

end Reading

end TradingFleet.Pair
