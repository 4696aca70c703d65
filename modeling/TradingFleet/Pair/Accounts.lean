import TradingFleet.Pair.Ledger

set_option autoImplicit false

/-! # The outcome is the ledger

Along a run, what `outcome` reports is the sum over the ledger of the round, provided that the
answers are proper (`Proper`): the second entry order is not the first one, an order that was
dropped does not come back on the other side, and an order that is dropped for having no fill
has no cost and no fee either. The first of these is what the exits, the stops and a recovery
look at themselves (`knows`) and `start` does not.
-/

namespace TradingFleet.Pair

open TradingFleet.Hoare TradingFleet.Runs

/-! ## Proper answers -/

/-- An entry order the venue returned. -/
def Event.leg : Event → Option OrderTicket
  | .placeLimit .entry _ (.ok ticket) => ticket
  | _ => none

def Event.compacting : Event → Bool
  | .point .compacting => true
  | _ => false

/-- What is asked of a call, given the calls before it. -/
structure Call.Proper (x : Call) (older : List Call) : Prop where
  leg : ∀ t ∈ x.event.leg, x.before.knows t.orderId = false
  side : x.opens = false → ∀ t ∈ x.event.accepted, x.before.knows t.orderId = false →
    ∀ o ∈ acceptedOrders (roundLog older), o.1 = t.orderId → o.2 = t.side
  free : x.event.compacting = true → ∀ y ∈ x.before.tickets.zipIdx, x.before.keeps y = false →
    (x.before.snapshot y.1.orderId).cost = 0 ∧ (x.before.snapshot y.1.orderId).fee = 0

def Proper : List Call → Prop
  | [] => True
  | x :: log => x.Proper log ∧ Proper log

instance Call.Proper.decidable (x : Call) (older : List Call) : Decidable (x.Proper older) :=
  decidable_of_iff ((∀ t ∈ x.event.leg, x.before.knows t.orderId = false) ∧
      (x.opens = false → ∀ t ∈ x.event.accepted, x.before.knows t.orderId = false →
        ∀ o ∈ acceptedOrders (roundLog older), o.1 = t.orderId → o.2 = t.side) ∧
      (x.event.compacting = true → ∀ y ∈ x.before.tickets.zipIdx, x.before.keeps y = false →
        (x.before.snapshot y.1.orderId).cost = 0 ∧ (x.before.snapshot y.1.orderId).fee = 0))
    ⟨fun h => ⟨h.1, h.2.1, h.2.2⟩, fun h => ⟨h.leg, h.side, h.free⟩⟩

instance Proper.decidable : (log : List Call) → Decidable (Proper log)
  | [] => isTrue trivial
  | x :: log => @instDecidableAnd (x.Proper log) (Proper log) _ (Proper.decidable log)

/-! ## Compaction -/

/-- A compaction that changes no total, and drops only what was last read as over and empty. -/
structure CompactsSafely (c : Coordinator) (last : Reads) : Prop where
  quantities : ∀ side, c.compact.sideTotal side OrderSnapshot.filledQty =
    c.sideTotal side OrderSnapshot.filledQty
  costs : ∀ side, c.compact.sideTotal side OrderSnapshot.cost = c.sideTotal side OrderSnapshot.cost
  fees : ∀ side, c.compact.sideTotal side OrderSnapshot.fee = c.sideTotal side OrderSnapshot.fee
  dropped : ∀ y ∈ c.tickets.zipIdx, c.keeps y = false → ∃ snap, last y.1.orderId = some snap ∧
    snap.status.terminal = true ∧ snap.filledQty = 0

/-- Every compaction of a run. -/
def Compacted (log : List Call) : Prop :=
  ∀ x older, x :: older <:+ log → x.event.compacting = true →
    CompactsSafely x.before (lastRead (roundLog older))

theorem Compacted.nil : Compacted [] := by
  intro x older hsuffix
  cases List.suffix_nil.mp hsuffix

theorem Compacted.cons {log : List Call} (h : Compacted log) {x : Call}
    (hx : x.event.compacting = true → CompactsSafely x.before (lastRead (roundLog log))) :
    Compacted (x :: log) := by
  intro y older hsuffix hcompacts
  rcases List.suffix_cons_iff.mp hsuffix with heq | hsuffix
  · obtain ⟨rfl, rfl⟩ := List.cons.inj heq
    exact hx hcompacts
  · exact h y older hsuffix hcompacts

theorem compacting_of_plain {e : Event} (h : e.plain = true) : e.compacting = false := by
  unfold Event.compacting
  split
  · cases h
  · rfl

section Compacting

variable {c : Coordinator} {orders : Orders} {last : Reads}

theorem filledQty_of_dropped {y : OrderTicket × Nat} (h : c.keeps y = false) :
    (c.snapshot y.1.orderId).filledQty = 0 := by
  unfold Coordinator.keeps at h
  simp only [Bool.or_eq_false_iff, decide_eq_false_iff_not, not_lt] at h
  exact le_antisymm h.1.1.1.2 (OrderSnapshot.filledQty_nonneg _)

/-- A dropped ticket without cost and fee was last read blank. -/
theorem Booked.blank_of_dropped (h : Booked c orders last) {y : OrderTicket × Nat}
    (hy : y ∈ c.tickets.zipIdx) (hdrop : c.keeps y = false)
    (hfree : (c.snapshot y.1.orderId).cost = 0 ∧ (c.snapshot y.1.orderId).fee = 0) :
    Blank last y.1.orderId := by
  cases hs : c.snapshots y.1.orderId with
  | none =>
      exact h.unseen (y.1.orderId, y.1.side)
        (List.mem_map.mpr ⟨y.1, List.fst_mem_of_mem_zipIdx hy, rfl⟩) hs
  | some s =>
      have hsnap : c.snapshot y.1.orderId = s := by rw [Coordinator.snapshot, hs]; rfl
      have hqty := filledQty_of_dropped hdrop
      rw [hsnap] at hqty hfree
      intro s' hs'
      rw [h.seen _ _ hs, Option.some.injEq] at hs'
      rw [← hs']
      exact ⟨hqty, hfree⟩

theorem held_compact_sublist (c : Coordinator) : c.compact.held.Sublist c.held := by
  have hsub := (List.filter_sublist (p := c.keeps) (l := c.tickets.zipIdx)).map Prod.fst
  rw [List.zipIdx_map_fst] at hsub
  exact hsub.map _

theorem Booked.compact (h : Booked c orders last)
    (hfree : ∀ y ∈ c.tickets.zipIdx, c.keeps y = false →
      (c.snapshot y.1.orderId).cost = 0 ∧ (c.snapshot y.1.orderId).fee = 0) :
    Booked c.compact orders last := by
  have hsub := held_compact_sublist c
  refine ⟨h.once.sublist (hsub.map _), fun o ho => h.owned o (hsub.subset ho), ?_, ?_, ?_⟩
  · intro id s hs
    unfold Coordinator.compact at hs
    simp only at hs
    split at hs
    · cases hs
    · exact h.seen id s hs
  · intro o ho hnone
    unfold Coordinator.compact at hnone
    simp only at hnone
    split at hnone
    · rename_i hany
      obtain ⟨y, hy, hid⟩ := List.any_eq_true.mp hany
      obtain ⟨hmem, hdrop⟩ := List.mem_filter.mp hy
      have hdrop' : c.keeps y = false := by simpa using hdrop
      have hid' : y.1.orderId = o.1 := by simpa using hid
      rw [← hid']
      exact h.blank_of_dropped hmem hdrop' (hfree y hmem hdrop')
    · exact h.unseen o (hsub.subset ho) hnone
  · intro id hid
    by_cases hknown : c.knows id = true
    · -- the tickets of this order are gone: each of them was dropped
      obtain ⟨t, ht, heq⟩ := List.any_eq_true.mp hknown
      have heq' : t.orderId = id := by simpa using heq
      obtain ⟨i, hi⟩ := List.mem_iff_getElem?.mp ht
      have hmem : (t, i) ∈ c.tickets.zipIdx := List.mem_zipIdx_iff_getElem?.mpr hi
      have hdrop : c.keeps (t, i) = false := by
        refine Bool.eq_false_iff.mpr (fun hkeep => ?_)
        have hafter : c.compact.knows id = true := List.any_eq_true.mpr ⟨t,
          List.mem_map.mpr ⟨(t, i), List.mem_filter.mpr ⟨hmem, hkeep⟩, rfl⟩, heq⟩
        rw [hid] at hafter
        cases hafter
      have hblank := h.blank_of_dropped hmem hdrop (hfree _ hmem hdrop)
      rwa [heq'] at hblank
    · exact h.gone id (Bool.eq_false_iff.mpr hknown)

/-- A compaction after `_refresh`. -/
theorem Booked.compactsSafely (h : Booked c orders last) (hn : (orders.map Prod.fst).Nodup)
    (hfresh : c.Fresh c.tickets.length)
    (hfree : ∀ y ∈ c.tickets.zipIdx, c.keeps y = false →
      (c.snapshot y.1.orderId).cost = 0 ∧ (c.snapshot y.1.orderId).fee = 0) :
    CompactsSafely c last := by
  have hsame : ∀ {value : OrderSnapshot → ℚ}, Amount value → ∀ side,
      c.compact.sideTotal side value = c.sideTotal side value := fun hv side =>
    ((h.compact hfree).total hn hv side).trans (h.total hn hv side).symm
  refine ⟨hsame Amount.filledQty, hsame Amount.cost, hsame Amount.fee, ?_⟩
  intro y hy hdrop
  have hget := List.mem_zipIdx_iff_getElem?.mp hy
  have honce := h.once
  rw [c.held_ids] at honce
  obtain ⟨s, hs, hflag⟩ := hfresh honce y.2 y.1 (List.getElem?_eq_some_iff.mp hget).1 hget
  have hsnap : c.snapshot y.1.orderId = s := by rw [Coordinator.snapshot, hs]; rfl
  have hqty := filledQty_of_dropped hdrop
  rw [hsnap] at hqty
  refine ⟨s, h.seen _ _ hs, ?_, hqty⟩
  -- a dropped ticket is not active, so its last read is not open
  have hinactive : y.1.active = false := by
    unfold Coordinator.keeps at hdrop
    simp only [Bool.or_eq_false_iff] at hdrop
    exact hdrop.1.1.1.1
  rw [hinactive] at hflag
  cases hstatus : s.status with
  | opened => simp [hstatus] at hflag
  | _ => rfl

end Compacting

/-! ## Adopting and stopping -/

section Adopting

variable {c : Coordinator} {orders : Orders} {last : Reads}

theorem held_adoptLimit (c : Coordinator) (i : Nat) (side : Side) (kind : String) :
    (c.adoptLimit i side kind).held = c.held ∧
      (c.adoptLimit i side kind).snapshots = c.snapshots := by
  unfold Coordinator.adoptLimit
  split
  · exact ⟨rfl, rfl⟩
  · exact ⟨c.held_setTicketRevision i _, rfl⟩

theorem held_adoptStop (c : Coordinator) (i : Nat) (orderId kind : String) :
    (c.adoptStop i orderId kind).held = c.held ∧
      (c.adoptStop i orderId kind).snapshots = c.snapshots := by
  unfold Coordinator.adoptStop
  split
  · exact ⟨rfl, rfl⟩
  · exact ⟨(Coordinator.held_setStop _ orderId i).trans (c.held_setTicketRevision i _), rfl⟩

/-- The order is held, whether it was added or not. -/
theorem Booked.adopted (h : Booked c orders last) {t : OrderTicket}
    (hown : c.knows t.orderId = false → (t.orderId, t.side) ∈ orders) :
    Booked (c.adopted t).1 orders last ∧ (c.adopted t).1.knows t.orderId = true := by
  unfold Coordinator.adopted
  split
  · rename_i i hi
    obtain ⟨hlt, hmatch, -⟩ := List.findIdx?_eq_some_iff_getElem.mp hi
    exact ⟨h, List.any_eq_true.mpr ⟨c.tickets[i], List.getElem_mem hlt, hmatch⟩⟩
  · rename_i hnone
    have hnew : c.knows t.orderId = false := by
      have hall := List.findIdx?_eq_none_iff.mp hnone
      exact List.any_eq_false.mpr (fun u hu => by simpa using hall u hu)
    exact ⟨h.append (t := { t with pairId := some c.pairId }) hnew (hown hnew),
      by simp [Coordinator.knows, Coordinator.append]⟩

/-- Adopting an order accepts it and reads it. -/
theorem Booked.adopt (h : Booked c orders last) {r : Recovered}
    (hside : c.knows r.ticket.orderId = false →
      ∀ o ∈ orders, o.1 = r.ticket.orderId → o.2 = r.ticket.side) :
    Booked (c.adopt r) (orders.add r.ticket) (last.apply (r.ticket.orderId, r.snapshot)) ∧
      (c.adopt r).knows r.ticket.orderId = true := by
  have hadded : Booked c (orders.add r.ticket) last :=
    h.mono (fun o ho => Orders.mem_add_of_mem ho r.ticket)
  obtain ⟨hbooked, hknown⟩ := hadded.adopted (t := r.ticket)
    (fun hnew => Orders.mem_add (fun side ho => hside hnew _ ho rfl))
  have hheld : (c.adopt r).held = (c.adopted r.ticket).1.held := by
    unfold Coordinator.adopt
    rw [(held_adoptStop _ _ _ _).1, (held_adoptLimit _ _ _ _).1]
    exact Coordinator.held_setActive _ _ _
  refine ⟨(hbooked.read hknown r.snapshot).congr hheld ?_, ?_⟩
  · unfold Coordinator.adopt
    rw [(held_adoptStop _ _ _ _).2, (held_adoptLimit _ _ _ _).2]
    rfl
  · rw [Coordinator.knows_congr hheld]
    exact hknown

theorem Booked.adoptAll (items : List Recovered) (h : Booked c orders last)
    (hside : ∀ r ∈ items, c.knows r.ticket.orderId = false →
      ∀ o ∈ orders, o.1 = r.ticket.orderId → o.2 = r.ticket.side) :
    Booked (items.foldl Coordinator.adopt c) ((items.map Recovered.ticket).foldl Orders.add orders)
      ((items.map (fun r => (r.ticket.orderId, r.snapshot))).foldl Reads.apply last) := by
  induction items generalizing c orders last with
  | nil => exact h
  | cons r rest ih =>
      obtain ⟨hbooked, hknown⟩ := h.adopt (hside r List.mem_cons_self)
      refine ih hbooked (fun r' hr' hnew o ho hid => ?_)
      have hother : o.1 ≠ r.ticket.orderId := by
        intro heq
        rw [← hid, heq, hknown] at hnew
        cases hnew
      have hbefore : c.knows r'.ticket.orderId = false := by
        refine Bool.eq_false_iff.mpr (fun hk => ?_)
        obtain ⟨side, hmem⟩ := Coordinator.knows_iff.mp hk
        have hkept : (r'.ticket.orderId, side) ∈ (c.adopt r).held := by
          unfold Coordinator.adopt
          rw [(held_adoptStop _ _ _ _).1, (held_adoptLimit _ _ _ _).1]
          refine (Coordinator.held_setActive _ _ _).symm ▸ ?_
          unfold Coordinator.adopted
          split
          · exact hmem
          · rw [Coordinator.held_append]
            exact List.mem_append_left _ hmem
        rw [Coordinator.knows_iff.mpr ⟨side, hkept⟩] at hnew
        cases hnew
      exact hside r' (List.mem_cons_of_mem _ hr') hbefore o
        ((Orders.of_mem_add ho).resolve_right hother) hid

theorem Booked.takeStop (h : Booked c orders last) {t : OrderTicket}
    (hown : c.knows t.orderId = false → (t.orderId, t.side) ∈ orders) :
    Booked (c.takeStop t) orders last := by
  unfold Coordinator.takeStop
  split
  · exact h.congr (c.held_setForeignStop _) rfl
  · rename_i hnew
    have hnew' := Bool.eq_false_iff.mpr hnew
    exact (h.append hnew' (hown hnew')).congr (Coordinator.held_setStop _ _ _) rfl

end Adopting

/-! ## Moves -/

/-- The coordinator holds the ledger of its round, if the answers were proper. -/
def World.Accounted (w : World) : Prop :=
  Proper w.log →
    Booked w.coord (acceptedOrders (roundLog w.log)) (lastRead (roundLog w.log)) ∧ Compacted w.log

section Accounting

variable {w : World}

theorem World.Accounted.congr (h : w.Accounted) {c : Coordinator} (hheld : c.held = w.coord.held)
    (hsnap : c.snapshots = w.coord.snapshots) : World.Accounted { w with coord := c } :=
  fun hproper => ⟨(h hproper).1.congr hheld hsnap, (h hproper).2⟩

/-- A call that reads nothing and opens no round. -/
theorem World.Accounted.called (h : w.Accounted) {e : Event} (hplain : e.plain = true)
    (hopens : Call.opens ⟨w.coord, e⟩ = false) :
    World.Accounted { w with log := ⟨w.coord, e⟩ :: w.log } := by
  intro hproper
  obtain ⟨hbooked, hcompacted⟩ := h hproper.2
  refine ⟨?_, hcompacted.cons (fun hx => ?_)⟩
  · have hlast : lastRead (roundLog (⟨w.coord, e⟩ :: w.log)) = lastRead (roundLog w.log) := by
      rw [roundLog_cons hopens]
      show e.reads.foldl Reads.apply _ = _
      rw [reads_of_plain hplain]
      rfl
    rw [hlast, roundLog_cons hopens]
    exact hbooked.mono (fun o ho => Orders.mem_foldl_add ho _)
  · rw [show (⟨w.coord, e⟩ : Call).event.compacting = e.compacting from rfl,
      compacting_of_plain hplain] at hx
    cases hx

/-- The order a call has just returned is in the ledger, under its side unless it is held. -/
theorem owned_of_returned {x : Call} {rest : List Call} (hproper : x.Proper rest)
    (hopens : x.opens = false) {t : OrderTicket} (hx : x.event.accepted = [t])
    (hnew : x.before.knows t.orderId = false) :
    (t.orderId, t.side) ∈ acceptedOrders (roundLog (x :: rest)) := by
  rw [roundLog_cons hopens]
  show (t.orderId, t.side) ∈ x.event.accepted.foldl Orders.add _
  rw [hx]
  refine Orders.mem_add (fun side ho => ?_)
  exact hproper.side hopens t (by rw [hx]; exact List.mem_cons_self) hnew _ ho rfl

/-- Every move of a step keeps the account. -/
theorem Move.accounted {policy : PairPolicy} {now : ℚ} {w' : World}
    (hmove : Move policy now (fun e => e.limitSite ≠ some .entry) w w') (h : w.Accounted) :
    w'.Accounted := by
  cases hmove with
  | call hallowed hplain => exact h.called hplain (opens_of_site hallowed)
  | flag i active => exact h.congr (w.coord.held_setActive i active) rfl
  | @read orderId snap hallowed hheld =>
      intro hproper
      obtain ⟨hbooked, hcompacted⟩ := h hproper.2
      rw [roundLog_cons (opens_of_site hallowed)]
      exact ⟨hbooked.read hheld snap, hcompacted.cons (fun hx => by cases hx)⟩
  | compact hallowed hfresh =>
      intro hproper
      obtain ⟨hbooked, hcompacted⟩ := h hproper.2
      have hfree := hproper.1.free rfl
      rw [roundLog_cons (opens_of_site hallowed)]
      exact ⟨hbooked.compact hfree, hcompacted.cons
        (fun _ => hbooked.compactsSafely (acceptedOrders_nodup _) hfresh hfree)⟩
  | firstFill buyQty sellQty =>
      obtain ⟨hheld, hsnap⟩ := w.coord.held_recordFirstFill policy now buyQty sellQty
      exact h.congr hheld hsnap
  | append hlog hx hbefore hnew =>
      intro hproper
      obtain ⟨hbooked, hcompacted⟩ := h hproper
      refine ⟨hbooked.append hnew ?_, hcompacted⟩
      rw [hlog] at hproper ⊢
      refine owned_of_returned hproper.1 ?_ (by rw [hx]; rfl) ?_
      · unfold Call.opens
        rw [hx]
      · unfold Coordinator.knows at hnew ⊢
        rwa [hbefore]
  | stop hlog hx hbefore =>
      intro hproper
      obtain ⟨hbooked, hcompacted⟩ := h hproper
      -- a ticket that is held already is booked already
      refine ⟨(hbooked.takeStop (fun hnew => ?_)).congr rfl rfl, hcompacted⟩
      rw [hlog] at hproper ⊢
      refine owned_of_returned hproper.1 ?_ (by rw [hx]; rfl) ?_
      · unfold Call.opens
        rw [hx]
      · unfold Coordinator.knows at hnew ⊢
        rwa [hbefore]
  | @adopt items hallowed =>
      intro hproper
      obtain ⟨hbooked, hcompacted⟩ := h hproper.2
      have hopens := opens_of_site (c := w.coord) hallowed
      refine ⟨?_, hcompacted.cons (fun hx => by cases hx)⟩
      rw [roundLog_cons hopens]
      exact hbooked.adoptAll items (fun r hr => hproper.1.side hopens _ (List.mem_map_of_mem hr))
  | _ => exact h.congr rfl rfl

end Accounting

/-! ## Starting -/

section Starting

variable {S : Setup}

theorem accounted_walks {α : Type} {x : PairM α} {t : ℚ}
    (hx : Moves (Walks S.policy t (fun e => e.limitSite ≠ some .entry)) x) :
    Keeps World.Accounted x :=
  hx.triple (fun _ _ h hw => hw.invariant (fun _ _ hmove hi => hmove.accounted hi) h)

theorem setPhase_accounted (phase : Phase) (reason : Option String) :
    Keeps World.Accounted (setPhase phase reason) :=
  Triple.update (fun _ h => h.congr rfl rfl)

variable (S)

theorem startMid_accounted (mid : Option ℚ) : Keeps World.Accounted (startMid S mid) := by
  refine accounted_walks (S := S) (t := 0) ?_
  unfold startMid
  split
  · exact walks_pure _
  · exact walks_bind (walks_ask (fun _ => step_allowed _ rfl) (fun _ => rfl)) (fun answer =>
      walks_bind (walks_orRaise answer) (fun _ => walks_pure _))

theorem legRecoveryPending_accounted (raised : Bool) (reason : String) :
    Keeps World.Accounted (legRecoveryPending S raised reason) := by
  refine accounted_walks (S := S) (t := 0) ?_
  unfold legRecoveryPending
  exact walks_ite (walks_pure _) (walks_ask (fun _ => step_allowed _ rfl) (fun _ => rfl))

theorem firstLegFailed_accounted (side : Side) (raised : Bool) :
    Keeps World.Accounted (firstLegFailed S side raised) := by
  refine Keeps.bind (accounted_walks (S := S) (t := 0)
    (placeFailureReason_walks step_allowed side)) (fun reason => ?_)
  refine Keeps.bind (legRecoveryPending_accounted S raised reason) (fun pending => ?_)
  exact Triple.ite (fun _ => setPhase_accounted _ _) (fun _ => setPhase_accounted _ _)

theorem secondLegFailed_accounted (side : Side) (raised : Bool) (firstId : String) :
    Triple (fun w => w.Accounted ∧ w.coord.knows firstId = true)
      (secondLegFailed S side raised firstId) (fun _ => World.Accounted)
      (fun _ => World.Accounted) := by
  refine Triple.bind (Q := fun _ w => w.Accounted ∧ w.coord.knows firstId = true) ?_
    (fun reason => ?_)
  · refine ((accounted_walks (S := S) (t := 0) (placeFailureReason_walks step_allowed side)).and
      ((placeFailureReason_asks S side).triple (P := fun w => w.coord.knows firstId = true)
        (Q := fun w => w.coord.knows firstId = true) ?_)).conseq (fun _ h => h) (fun _ _ h => h)
      (fun _ _ h => h.1)
    intro w w' hknown hasks
    rw [hasks.coord]
    exact hknown
  refine Triple.bind (Q := fun _ => World.Accounted) ?_ (fun failure => ?_)
  · intro w hw
    have hwalks : Moves (WalksFrom S.policy 0 _ w.coord) (cancelAndReconcile S 0 firstId) :=
      cancelAndReconcile_walks step_allowed 0 hw.2
    refine hwalks.triple (P := fun w' => w' = w) (Q := World.Accounted) ?_ w rfl
    rintro w₁ w' rfl hwalk
    exact (hwalk rfl).invariant (fun _ _ hmove hi => hmove.accounted hi) hw.1
  refine Keeps.bind (legRecoveryPending_accounted S raised reason) (fun pending => ?_)
  split
  · exact Keeps.bind (accounted_walks (S := S) (t := 0) (walks_mark (step_allowed _ rfl) rfl))
      (fun _ => setPhase_accounted _ _)
  · refine Triple.ite (fun _ => setPhase_accounted _ _) (fun _ => Triple.coord (fun c => ?_))
    refine Triple.strengthen (P := World.Accounted) ?_ (fun _ h => h.1)
    exact Triple.ite (fun _ => setPhase_accounted _ _) (fun _ => setPhase_accounted _ _)

/-- The second entry order: the first one is held. -/
theorem placeSecondLeg_accounted (side : Side) (price : ℚ) (firstId : String) :
    Triple (fun w => w.Accounted ∧ w.coord.knows firstId = true)
      (placeSecondLeg S side price firstId) (fun _ => World.Accounted)
      (fun _ => World.Accounted) := by
  refine Triple.bind (Q := fun answer w => (w.Accounted ∧ w.coord.knows firstId = true) ∧
    ∃ order rest, w.log = ⟨w.coord, .placeLimit .entry order answer⟩ :: rest ∧
      Call.opens ⟨w.coord, .placeLimit .entry order answer⟩ = false) ?_ (fun answer => ?_)
  · refine Triple.coord (fun c => Triple.ask ?_)
    rintro w answer ⟨⟨h, hknown⟩, -⟩
    have hopens : ∀ order, Call.opens ⟨w.coord, .placeLimit .entry order answer⟩ = false := by
      intro order
      obtain ⟨t, ht, -⟩ := List.any_eq_true.mp hknown
      exact List.isEmpty_eq_false_iff.mpr (List.ne_nil_of_mem ht)
    exact ⟨⟨h.called rfl (hopens _), hknown⟩, _, w.log, rfl, hopens _⟩
  · split
    · rename_i ticket
      refine Triple.bind (Q := fun _ => World.Accounted) (Triple.update ?_)
        (fun _ => Triple.update (fun _ h => h.congr rfl rfl))
      rintro w ⟨⟨h, -⟩, order, rest, hlog, hopens⟩ hproper
      obtain ⟨hbooked, hcompacted⟩ := h hproper
      have hhead : Call.Proper ⟨w.coord, .placeLimit .entry order (.ok (some ticket))⟩ rest := by
        rw [show World.log { w with coord := w.coord.append ticket } = w.log from rfl,
          hlog] at hproper
        exact hproper.1
      have hnew : w.coord.knows ticket.orderId = false := hhead.leg ticket rfl
      refine ⟨hbooked.append hnew ?_, hcompacted⟩
      rw [hlog]
      exact owned_of_returned hhead hopens rfl hnew
    · exact (secondLegFailed_accounted S side false firstId).strengthen (fun _ h => h.1)
    · exact (secondLegFailed_accounted S side true firstId).strengthen (fun _ h => h.1)

/-- A round that has no orders yet. -/
structure World.Opening (w : World) : Prop where
  tickets : w.coord.tickets = []
  snapshots : w.coord.snapshots = fun _ => none
  compacted : Proper w.log → Compacted w.log

/-- The ledger begins with the first entry order. -/
theorem World.Opening.entered {w : World} (h : w.Opening) (order : LimitOrder)
    (answer : Except String (Option OrderTicket)) {c : Coordinator} (hheld : c.held = [])
    (hsnap : c.snapshots = fun _ => none) :
    World.Accounted ⟨c, ⟨w.coord, .placeLimit .entry order answer⟩ :: w.log⟩ := by
  intro hproper
  have hopens : Call.opens ⟨w.coord, .placeLimit .entry order answer⟩ = true :=
    List.isEmpty_iff.mpr h.tickets
  refine ⟨?_, (h.compacted hproper.2).cons (fun hx => by cases hx)⟩
  rw [roundLog_of_opens hopens]
  exact Booked.empty hheld hsnap _

theorem placeLegs_accounted (prices : ℚ × ℚ) :
    Triple World.Opening (placeLegs S prices) (fun _ => World.Accounted)
      (fun _ => World.Accounted) := by
  refine Triple.coord (fun c => ?_)
  refine Triple.bind (Q := fun answer w => ∃ (order : LimitOrder) (w₀ : World), w₀.Opening ∧
    w = ⟨w₀.coord, ⟨w₀.coord, .placeLimit .entry order answer⟩ :: w₀.log⟩) ?_ (fun answer => ?_)
  · refine Triple.coord (fun c' => Triple.ask ?_)
    rintro w answer ⟨⟨h, -⟩, -⟩
    exact ⟨_, w, h, rfl⟩
  · have hheld : ∀ {w : World}, w.Opening → w.coord.held = [] := fun h => by
      rw [Coordinator.held, h.tickets]
      rfl
    split
    · rename_i ticket
      refine Triple.bind (Q := fun _ w => w.Accounted ∧ w.coord.knows ticket.orderId = true)
        (Triple.update ?_) (fun _ => placeSecondLeg_accounted S _ _ _)
      rintro w ⟨order, w₀, h, rfl⟩
      refine ⟨fun hproper => ?_, by simp [Coordinator.knows, Coordinator.append]⟩
      obtain ⟨hbooked, hcompacted⟩ :=
        h.entered order (.ok (some ticket)) (hheld h) h.snapshots hproper
      refine ⟨hbooked.append ?_ ?_, hcompacted⟩
      · show w₀.coord.knows ticket.orderId = false
        rw [Coordinator.knows, h.tickets]
        rfl
      · have hopens : Call.opens ⟨w₀.coord, .placeLimit .entry order (.ok (some ticket))⟩ = true :=
          List.isEmpty_iff.mpr h.tickets
        rw [roundLog_of_opens hopens]
        exact List.mem_cons_self
    · refine (firstLegFailed_accounted S _ false).strengthen ?_
      rintro w ⟨order, w₀, h, rfl⟩
      exact h.entered order _ (hheld h) h.snapshots
    · refine (firstLegFailed_accounted S _ true).strengthen ?_
      rintro w ⟨order, w₀, h, rfl⟩
      exact h.entered order _ (hheld h) h.snapshots

theorem start_accounted (mid : Option ℚ) (pairId : String) (clock : ℚ) :
    Keeps World.Accounted (start S mid pairId clock) := by
  refine Triple.coord (fun c => Triple.strengthen (P := World.Accounted) ?_ (fun _ h => h.1))
  refine Triple.ite (fun _ => Keeps.throw _) (fun _ => ?_)
  refine Keeps.bind (startMid_accounted S mid) (fun m => ?_)
  refine Keeps.bind (Triple.orRaise (fun _ _ _ h => h) (fun _ _ _ h => h)) (fun prices => ?_)
  refine Triple.bind (Q := fun _ => World.Opening)
    (Triple.update (fun w h => ⟨rfl, rfl, fun hproper => (h hproper).2⟩)) (fun _ => ?_)
  refine Triple.bind (placeLegs_accounted S prices) (fun _ => Triple.coord (fun c' => ?_))
  exact Triple.pure (fun _ h => h.1)

end Starting

/-! ## The theorem -/

/-- The outcome reports the ledger of the round: the quantities, costs and fees of the last
reads. No order is held twice, none under another side, and no compaction changed anything. -/
structure World.Exact (w : World) : Prop where
  buyQty : w.coord.outcome.buyQty = ledgerTotal w.log .buy OrderSnapshot.filledQty
  sellQty : w.coord.outcome.sellQty = ledgerTotal w.log .sell OrderSnapshot.filledQty
  buyAvg : w.coord.outcome.buyAvg =
    if 0 < ledgerTotal w.log .buy OrderSnapshot.filledQty then
      some (ledgerTotal w.log .buy OrderSnapshot.cost /
        ledgerTotal w.log .buy OrderSnapshot.filledQty)
    else none
  sellAvg : w.coord.outcome.sellAvg =
    if 0 < ledgerTotal w.log .sell OrderSnapshot.filledQty then
      some (ledgerTotal w.log .sell OrderSnapshot.cost /
        ledgerTotal w.log .sell OrderSnapshot.filledQty)
    else none
  grossPnl : w.coord.outcome.grossPnl =
    ledgerTotal w.log .sell OrderSnapshot.cost - ledgerTotal w.log .buy OrderSnapshot.cost
  fees : w.coord.outcome.fees =
    ledgerTotal w.log .buy OrderSnapshot.fee + ledgerTotal w.log .sell OrderSnapshot.fee
  once : (w.coord.tickets.map OrderTicket.orderId).Nodup
  owned : ∀ t ∈ w.coord.tickets, (t.orderId, t.side) ∈ acceptedOrders (roundLog w.log)
  compacted : Compacted w.log

theorem World.Accounted.exact {w : World} (h : w.Accounted) (hproper : Proper w.log) : w.Exact := by
  obtain ⟨hbooked, hcompacted⟩ := h hproper
  have htotal : ∀ {value : OrderSnapshot → ℚ}, Amount value → ∀ side,
      w.coord.sideTotal side value = ledgerTotal w.log side value := fun hv side =>
    hbooked.total (acceptedOrders_nodup _) hv side
  have hqty := htotal Amount.filledQty
  have hcost := htotal Amount.cost
  have hfee := htotal Amount.fee
  refine ⟨hqty .buy, hqty .sell, ?_, ?_, ?_, ?_, ?_, ?_, hcompacted⟩
  · rw [← hqty .buy, ← hcost .buy]
    rfl
  · rw [← hqty .sell, ← hcost .sell]
    rfl
  · rw [← hcost .buy, ← hcost .sell]
    rfl
  · rw [← hfee .buy, ← hfee .sell]
    rfl
  · rw [← w.coord.held_ids]
    exact hbooked.once
  · exact fun t ht => hbooked.owned _ (List.mem_map_of_mem ht)

/-- **The ledger of a round is exact** after any actions, when the answers so far were proper. -/
theorem round_ledger_exact {S : Setup} {w : World} (hreach : w.Reachable S)
    (hproper : Proper w.log) : w.Exact := by
  have haccounted : w.Accounted := by
    refine hreach.invariant ?_ (fun mid pairId clock => start_accounted S mid pairId clock) ?_ ?_
    · rintro w ⟨hlog, qty, side, hpos, hcoord⟩ -
      rw [hlog, hcoord]
      exact ⟨Booked.empty rfl rfl _, Compacted.nil⟩
    · exact fun now fuel => accounted_walks (t := now)
        (step_walks (S := S) step_allowed (fun _ _ => nofun) fuel)
    · intro w clock h
      rw [World.restarted_eq]
      exact h.congr (w.coord.held_restored clock clock) rfl
  exact haccounted.exact hproper

/-- The BUY leg fills at the first read and the SELL leg at the second, with a fee each. -/
def crossedVenue : Venue :=
  { sampleVenue with
    orderStatus := fun n id =>
      .ok
        { sampleRead (if id = "BUY-0" ∨ 5 < n then .closed else .opened)
            (if id = "BUY-0" ∨ 5 < n then 10 else 0) (if id = "BUY-0" ∨ 5 < n then 1000 else 0)
            (by split <;> decide) (by split <;> decide) with
          fee := 1
          fee_nonneg := zero_le_one } }

def crossedRun : List Action :=
  [.start (some 100) "pair-1" 0, .step 1 1000, .restart 2, .step 2 1000]

theorem crossed_round_ledger_exact :
    World.Exact (sampleStart.run ⟨crossedVenue, samplePolicy⟩ crossedRun) :=
  round_ledger_exact (run_reachable _ (Reach.start sampleStart_initial)) (by decide +kernel)

/-- Both entry orders are answered with the same ticket, of an order that is half filled. -/
def repeatingVenue : Venue :=
  { sampleVenue with
    placeLimit := fun _ _ => .ok (some (sampleTicket "BUY-0" .buy Revision.zero))
    orderStatus := fun _ _ => .ok (sampleRead .opened 5 500) }

def repeatingRun : List Action := [.start (some 100) "pair-1" 0, .step 1 1000]

/-- The order is held twice, and the round reports ten bought where five were. -/
theorem repeated_leg_counted_twice :
    World.Reachable ⟨repeatingVenue, samplePolicy⟩
        (sampleStart.run ⟨repeatingVenue, samplePolicy⟩ repeatingRun) ∧
      Steady (sampleStart.run ⟨repeatingVenue, samplePolicy⟩ repeatingRun).log ∧
      ledgerTotal (sampleStart.run ⟨repeatingVenue, samplePolicy⟩ repeatingRun).log .buy
        OrderSnapshot.filledQty = 5 ∧
      (sampleStart.run ⟨repeatingVenue, samplePolicy⟩ repeatingRun).coord.outcome.buyQty = 10 ∧
      ¬ World.Exact (sampleStart.run ⟨repeatingVenue, samplePolicy⟩ repeatingRun) := by
  have hledger : ledgerTotal (sampleStart.run ⟨repeatingVenue, samplePolicy⟩ repeatingRun).log .buy
      OrderSnapshot.filledQty = 5 := by decide +kernel
  have hreported : (sampleStart.run ⟨repeatingVenue, samplePolicy⟩
      repeatingRun).coord.outcome.buyQty = 10 := by decide +kernel
  refine ⟨run_reachable _ (Reach.start sampleStart_initial), by decide +kernel, hledger, hreported,
    fun h => ?_⟩
  have hsame := h.buyQty
  rw [hledger, hreported] at hsame
  revert hsame
  decide +kernel

end TradingFleet.Pair
