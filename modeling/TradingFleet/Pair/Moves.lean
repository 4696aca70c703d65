import Mathlib.Logic.Relation
import TradingFleet.Pair.Rules

set_option autoImplicit false

/-! # What a step can do

Everything `step` does to a coordinator and its log, one change at a time (`Move`). A step is a
walk of such moves (`step_walks`), so an invariant that does not depend on the order of events
is checked once per kind of move.
-/

namespace TradingFleet.Pair

open TradingFleet.Hoare

/-- Who placed a limit order with this call. -/
def Event.limitSite : Event → Option LimitSite
  | .placeLimit site _ _ => some site
  | _ => none

theorem step_allowed (e : Event) (h : e.limitSite = none) : e.limitSite ≠ some .entry := by
  rw [h]
  nofun

/-- The call reads no order, and no history is compacted after it. -/
def Event.plain : Event → Bool
  | .orderStatus _ (.ok _) => false
  | .recoverPairIntents (.ok _) => false
  | .point .compacting => false
  | _ => true

/-- The first `n` tickets were read, and their flags are those of the reads. With two tickets
of one order the second read would leave the first flag behind. -/
def Coordinator.Fresh (c : Coordinator) (n : Nat) : Prop :=
  (c.tickets.map OrderTicket.orderId).Nodup → ∀ j t, j < n → c.tickets[j]? = some t →
    ∃ snap, c.snapshots t.orderId = some snap ∧ t.active = decide (snap.status = .opened)

/-- One change of a step that began at `now`, in which `allowed` calls are made. -/
inductive Move (policy : PairPolicy) (now : ℚ) (allowed : Event → Prop) : World → World → Prop
  | call {w : World} {e : Event} (h : allowed e) (hplain : e.plain = true) :
      Move policy now allowed w { w with log := ⟨w.coord, e⟩ :: w.log }
  | flag {w : World} (i : Nat) (active : Bool) :
      Move policy now allowed w { w with coord := w.coord.setActive i active }
  /-- an order that is held is read -/
  | read {w : World} {orderId : String} {snap : OrderSnapshot}
      (h : allowed (.orderStatus orderId (.ok snap))) (hheld : w.coord.knows orderId = true) :
      Move policy now allowed w
        { coord := w.coord.setSnapshot orderId snap
          log := ⟨w.coord, .orderStatus orderId (.ok snap)⟩ :: w.log }
  /-- the end of `_refresh` -/
  | compact {w : World} (h : allowed (.point .compacting))
      (hfresh : w.coord.Fresh w.coord.tickets.length) :
      Move policy now allowed w
        { coord := w.coord.compact, log := ⟨w.coord, .point .compacting⟩ :: w.log }
  | firstFill {w : World} (buyQty sellQty : ℚ) :
      Move policy now allowed w
        { w with coord := w.coord.recordFirstFill policy now buyQty sellQty }
  | reason {w : World} (reason : Option String) :
      Move policy now allowed w { w with coord := { w.coord with reason := reason } }
  | phase {w : World} {phase : Phase} (h : phase ≠ .stopping ∧ phase ≠ .startupRecovery ∧
      phase ≠ .idle) :
      Move policy now allowed w { w with coord := { w.coord with phase := phase } }
  /-- back to `stopping`, with a stop order -/
  | resume {w : World} (h : w.coord.stopTicket ≠ none) :
      Move policy now allowed w { w with coord := { w.coord with phase := .stopping } }
  | revision {w : World} (side : Side) (r : Revision) :
      Move policy now allowed w { w with coord := w.coord.setRevision side r }
  | stopFields {w : World} (revision : Nat) (reason : Option String) :
      Move policy now allowed w
        { w with coord := { w.coord with hardStopRevision := revision, hardStopReason := reason } }
  /-- the exit order the venue has just returned -/
  | append {w : World} {x : Call} {rest : List Call} {order : LimitOrder} {t : OrderTicket}
      (hlog : w.log = x :: rest) (hx : x.event = .placeLimit .anchoredExit order (.ok (some t)))
      (hbefore : x.before.tickets = w.coord.tickets) (hnew : w.coord.knows t.orderId = false) :
      Move policy now allowed w { w with coord := w.coord.append t }
  /-- the market exit the venue has just returned -/
  | stop {w : World} {x : Call} {rest : List Call} {site : StopSite} {order : MarketOrder}
      {t : OrderTicket} (hlog : w.log = x :: rest)
      (hx : x.event = .placeMarketExit site order (.ok (some t)))
      (hbefore : x.before.tickets = w.coord.tickets) :
      Move policy now allowed w
        { w with coord := { w.coord.takeStop t with phase := .stopping } }
  /-- the orders the venue confirms -/
  | adopt {w : World} {items : List Recovered} (h : allowed (.recoverPairIntents (.ok items))) :
      Move policy now allowed w
        { coord := items.foldl Coordinator.adopt w.coord
          log := ⟨w.coord, .recoverPairIntents (.ok items)⟩ :: w.log }

/-- Any number of moves. -/
abbrev Walks (policy : PairPolicy) (now : ℚ) (allowed : Event → Prop) : World → World → Prop :=
  Relation.ReflTransGen (Move policy now allowed)

/-- What every move keeps, a walk keeps. -/
theorem Walks.invariant {policy : PairPolicy} {now : ℚ} {allowed : Event → Prop}
    {I : World → Prop} (hI : ∀ w w', Move policy now allowed w w' → I w → I w') {w w' : World}
    (h : Walks policy now allowed w w') (hw : I w) : I w' := by
  induction h with
  | refl => exact hw
  | tail _ hmove ih => exact hI _ _ hmove ih

section Walking

variable {policy : PairPolicy} {now : ℚ} {allowed : Event → Prop} {α β : Type}

theorem walks_pure (a : α) : Moves (Walks policy now allowed) (pure a : PairM α) :=
  Moves.pure (fun _ => Relation.ReflTransGen.refl) a

theorem walks_throw (e : String) : Moves (Walks policy now allowed) (throw e : PairM α) :=
  Moves.throw (fun _ => Relation.ReflTransGen.refl) e

theorem walks_bind {x : PairM α} {f : α → PairM β} (hx : Moves (Walks policy now allowed) x)
    (hf : ∀ a, Moves (Walks policy now allowed) (f a)) :
    Moves (Walks policy now allowed) (x >>= f) :=
  Moves.bind (fun _ _ _ h h' => h.trans h') hx hf

theorem walks_ask {call : Nat → α} {event : α → Event} (h : ∀ a, allowed (event a))
    (hplain : ∀ a, (event a).plain = true) :
    Moves (Walks policy now allowed) (ask call event) :=
  Moves.ask (fun _ a => Relation.ReflTransGen.single (.call (h a) (hplain a)))

theorem walks_mark {p : Point} (h : allowed (.point p)) (hplain : (Event.point p).plain = true) :
    Moves (Walks policy now allowed) (mark p) :=
  fun _ => Relation.ReflTransGen.single (.call h hplain)

theorem walks_orRaise (x : Except String α) : Moves (Walks policy now allowed) (orRaise x) :=
  Moves.orRaise (fun _ => Relation.ReflTransGen.refl) x

theorem walks_update {f : Coordinator → Coordinator}
    (h : ∀ w : World, Move policy now allowed w { w with coord := f w.coord }) :
    Moves (Walks policy now allowed) (update f) :=
  Moves.update (fun w => Relation.ReflTransGen.single (h w))

theorem walks_foldlM {f : α → β → PairM α} (h : ∀ acc b, Moves (Walks policy now allowed) (f acc b))
    (acc : α) (l : List β) : Moves (Walks policy now allowed) (l.foldlM f acc) :=
  Moves.foldlM (fun _ => Relation.ReflTransGen.refl) (fun _ _ _ h h' => h.trans h') h acc l

theorem walks_ite {p : Prop} [Decidable p] {x y : PairM α}
    (hx : Moves (Walks policy now allowed) x) (hy : Moves (Walks policy now allowed) y) :
    Moves (Walks policy now allowed) (if p then x else y) := by
  split
  · exact hx
  · exact hy

theorem walks_setReason (reason : String) : Moves (Walks policy now allowed) (setReason reason) :=
  walks_update (fun _ => .reason _)

theorem walks_setPhase {phase : Phase} (h : phase ≠ .stopping ∧ phase ≠ .startupRecovery ∧
    phase ≠ .idle) (reason : Option String) :
    Moves (Walks policy now allowed) (setPhase phase reason) := by
  intro w
  exact (Relation.ReflTransGen.single (.phase h)).tail (.reason reason)

/-- From a triple that remembers where it began. -/
theorem walks_of_triple {x : PairM α}
    (h : ∀ w₀, Triple (fun w => w = w₀) x (fun _ => Walks policy now allowed w₀)
      (fun _ => Walks policy now allowed w₀)) : Moves (Walks policy now allowed) x :=
  fun w => h w w rfl

/-! The same while the coordinator is known: what is cancelled by its ID is held. -/

/-- Any number of moves, when they begin at the coordinator `c`. -/
def WalksFrom (policy : PairPolicy) (now : ℚ) (allowed : Event → Prop) (c : Coordinator)
    (w w' : World) : Prop :=
  w.coord = c → Walks policy now allowed w w'

variable {c : Coordinator}

theorem walks_coord {f : Coordinator → PairM β}
    (h : ∀ c, Moves (WalksFrom policy now allowed c) (f c)) :
    Moves (Walks policy now allowed) (coord >>= f) :=
  walks_of_triple (fun w₀ => Triple.coord (fun c => (h c).triple (by
    rintro w w' ⟨rfl, rfl⟩ hwalk
    exact hwalk rfl)))

theorem walksFrom_of_walks {x : PairM α} (h : Moves (Walks policy now allowed) x) :
    Moves (WalksFrom policy now allowed c) x :=
  fun w => h.triple (P := fun w' => w' = w) (fun _ _ hw hwalk _ => hw ▸ hwalk) w rfl

theorem walksFrom_of_triple {x : PairM α}
    (h : ∀ w₀, w₀.coord = c → Triple (fun w => w = w₀) x (fun _ => Walks policy now allowed w₀)
      (fun _ => Walks policy now allowed w₀)) : Moves (WalksFrom policy now allowed c) x := by
  intro w
  by_cases hc : w.coord = c
  · exact (h w hc).conseq (fun _ hw => hw) (fun _ _ hw _ => hw) (fun _ _ hw _ => hw) w rfl
  · cases hx : x w with
    | ok a w' => exact fun h => absurd h hc
    | error e w' => exact fun h => absurd h hc

theorem walksFrom_bind {x : PairM α} {f : α → PairM β}
    (hx : Moves (WalksFrom policy now allowed c) x)
    (hf : ∀ a, Moves (Walks policy now allowed) (f a)) :
    Moves (WalksFrom policy now allowed c) (x >>= f) := by
  refine walksFrom_of_triple (fun w₀ hc => ?_)
  refine Triple.bind (Q := fun _ => Walks policy now allowed w₀) (hx.triple ?_)
    (fun a => (hf a).triple (fun _ _ h h' => h.trans h'))
  rintro w w' rfl hwalk
  exact hwalk hc

/-- Questions do not change what is known. -/
theorem walksFrom_asks {x : PairM α} {f : α → PairM β} (hx : Moves (Walks policy now allowed) x)
    (hasks : Moves Asks x) (hf : ∀ a, Moves (WalksFrom policy now allowed c) (f a)) :
    Moves (WalksFrom policy now allowed c) (x >>= f) := by
  refine walksFrom_of_triple (fun w₀ hc => ?_)
  refine Triple.bind (Q := fun _ w => Walks policy now allowed w₀ w ∧ w.coord = c) ?_
    (fun a => (hf a).triple (fun _ _ h h' => h.1.trans (h' h.2)))
  refine ((hx.triple (Q := Walks policy now allowed w₀) ?_).and
    (hasks.triple (Q := fun w => w.coord = c) ?_)).conseq
    (fun _ h => ⟨h, h⟩) (fun _ _ h => h) (fun _ _ h => h.1)
  · rintro w w' rfl hwalk
    exact hwalk
  · rintro w w' rfl ha
    exact ha.coord.trans hc

theorem walksFrom_ite {p : Prop} [Decidable p] {x y : PairM α}
    (hx : Moves (WalksFrom policy now allowed c) x)
    (hy : Moves (WalksFrom policy now allowed c) y) :
    Moves (WalksFrom policy now allowed c) (if p then x else y) := by
  split
  · exact hx
  · exact hy

end Walking

theorem Coordinator.knows_of_latest (c : Coordinator) {p : OrderTicket → Bool} {t : OrderTicket}
    {i : Nat} (h : c.latestWhere p = some (t, i)) : c.knows t.orderId = true := by
  have hmem := List.mem_reverse.mp (List.mem_of_find?_eq_some h)
  exact List.any_eq_true.mpr ⟨t, List.fst_mem_of_mem_zipIdx hmem, by simp⟩

/-! ## The parts of a step -/

section Parts

variable {S : Setup} {now : ℚ} {allowed : Event → Prop}
  (hallowed : ∀ e : Event, e.limitSite = none → allowed e)

include hallowed

/-- One read: a walk, and one more ticket is fresh. -/
theorem refreshOne_fresh (i : Nat) (w₀ : World) (n : Nat) :
    Triple (fun w => Walks S.policy now allowed w₀ w ∧ w.coord.Fresh i ∧
        w.coord.tickets.length = n)
      (refreshOne S i)
      (fun _ w => Walks S.policy now allowed w₀ w ∧ w.coord.Fresh (i + 1) ∧
        w.coord.tickets.length = n)
      (fun _ w => Walks S.policy now allowed w₀ w) := by
  refine Triple.coord (fun c => ?_)
  split
  · rename_i hnone
    refine Triple.pure ?_
    rintro w ⟨⟨hwalk, hfresh, hlen⟩, rfl⟩
    refine ⟨hwalk, fun hnodup j u hj hu => hfresh hnodup j u ?_ hu, hlen⟩
    -- past the last ticket nothing is read
    have hle := List.getElem?_eq_none_iff.mp hnone
    have hlt := (List.getElem?_eq_some_iff.mp hu).1
    omega
  · rename_i t ht
    refine Triple.bind (Q := fun answer w => ∃ rest,
      w = ⟨c, ⟨c, .orderStatus t.orderId answer⟩ :: rest⟩ ∧
      Walks S.policy now allowed w₀ ⟨c, rest⟩ ∧ c.Fresh i ∧ c.tickets.length = n)
      (Triple.ask ?_) (fun answer => ?_)
    · rintro w a ⟨h, rfl⟩
      exact ⟨w.log, rfl, h⟩
    · refine Triple.bind (Q := fun snap w => ∃ rest,
        w = ⟨c, ⟨c, .orderStatus t.orderId (.ok snap)⟩ :: rest⟩ ∧
        Walks S.policy now allowed w₀ ⟨c, rest⟩ ∧ c.Fresh i ∧ c.tickets.length = n)
        (Triple.orRaise ?_ ?_) (fun snap => ?_)
      · rintro snap w rfl h
        exact h
      · rintro e w rfl ⟨rest, rfl, hwalk, -⟩
        -- a read that raises still is a call
        exact hwalk.tail (.call (hallowed _ rfl) rfl)
      · refine Triple.update ?_
        rintro w ⟨rest, rfl, hwalk, hfresh, hlen⟩
        refine ⟨(hwalk.tail (.read (hallowed _ rfl) ?_)).tail (.flag i _), ?_, ?_⟩
        · exact List.any_eq_true.mpr ⟨t, List.mem_of_getElem? ht, by simp⟩
        · intro hnodup j u hj hu
          -- a read changes no order ID
          have hids : ((c.setSnapshot t.orderId snap).setActive i
              (decide (snap.status = .opened))).tickets.map OrderTicket.orderId =
              c.tickets.map OrderTicket.orderId :=
            List.ext_getElem? (fun k => by
              by_cases hk : i = k
              · subst hk
                simp [Coordinator.setActive, Coordinator.setSnapshot, Function.comp_def]
              · simp [Coordinator.setActive, Coordinator.setSnapshot,
                  List.getElem?_modify_ne _ _ hk])
          rw [hids] at hnodup
          by_cases hij : i = j
          · subst hij
            have hu' : u = { t with active := decide (snap.status = .opened) } := by
              simpa [Coordinator.setActive, Coordinator.setSnapshot, ht] using hu.symm
            subst hu'
            exact ⟨snap, Function.update_self _ _ _, rfl⟩
          · -- another order, whose read stands
            have hu' : c.tickets[j]? = some u := by
              simpa [Coordinator.setActive, Coordinator.setSnapshot,
                List.getElem?_modify_ne _ _ hij] using hu
            obtain ⟨s, hs, hactive⟩ := hfresh hnodup j u (by omega) hu'
            have hne : u.orderId ≠ t.orderId := by
              intro heq
              refine hij ((List.getElem?_inj ?_ hnodup).mp ?_)
              · rw [List.length_map]
                exact (List.getElem?_eq_some_iff.mp ht).1
              · rw [List.getElem?_map, List.getElem?_map, ht, hu']
                simp [heq]
            exact ⟨s, (Function.update_of_ne hne _ _).trans hs, hactive⟩
        · simpa [Coordinator.setActive, Coordinator.setSnapshot] using hlen

theorem refresh_walks : Moves (Walks S.policy now allowed) (refresh S) := by
  refine walks_of_triple (fun w₀ => Triple.coord (fun c => ?_))
  refine Triple.bind (Q := fun _ w => Walks S.policy now allowed w₀ w ∧
    w.coord.Fresh w.coord.tickets.length) ?_ (fun _ => ?_)
  · refine (Triple.rangeM (I := fun i _ w => Walks S.policy now allowed w₀ w ∧ w.coord.Fresh i ∧
      w.coord.tickets.length = c.tickets.length) c.tickets.length
      (fun i _ _ => refreshOne_fresh hallowed i w₀ _) ()).conseq ?_ ?_ (fun _ _ h => h)
    · rintro w ⟨rfl, rfl⟩
      exact ⟨Relation.ReflTransGen.refl, fun _ _ _ hj => absurd hj (Nat.not_lt_zero _), rfl⟩
    · rintro _ w ⟨hwalk, hfresh, hlen⟩
      exact ⟨hwalk, hlen ▸ hfresh⟩
  · refine Triple.bind (Q := fun _ w =>
      ∃ w', w = ⟨w'.coord, ⟨w'.coord, .point .compacting⟩ :: w'.log⟩ ∧
      Walks S.policy now allowed w₀ w' ∧ w'.coord.Fresh w'.coord.tickets.length)
      (Triple.mark (fun w h => ⟨w, rfl, h⟩)) (fun _ => Triple.update ?_)
    rintro w ⟨w', rfl, hwalk, hfresh⟩
    exact hwalk.tail (.compact (hallowed _ rfl) hfresh)

theorem cancelAndReconcile_walks {c : Coordinator} (i : Nat) {orderId : String}
    (hheld : c.knows orderId = true) :
    Moves (WalksFrom S.policy now allowed c) (cancelAndReconcile S i orderId) := by
  refine walksFrom_asks (walks_ask (fun _ => hallowed _ rfl) (fun _ => rfl))
    (asks_ask (fun _ => rfl)) (fun answer => ?_)
  split
  · refine walksFrom_of_triple (fun w₀ hc => ?_)
    refine Triple.bind (Q := fun status w => w = ⟨c, ⟨c, .orderStatus orderId status⟩ :: w₀.log⟩)
      (Triple.ask ?_) (fun status => ?_)
    · rintro w a rfl
      rw [hc]
    · split
      · refine Triple.bind (Q := fun _ => Walks S.policy now allowed w₀) (Triple.update ?_)
          (fun _ => Triple.pure (fun _ h => h))
        rintro w rfl
        rw [← hc]
        exact (Relation.ReflTransGen.single (.call (hallowed _ rfl) rfl)).tail (.flag i true)
      · rename_i snap
        refine Triple.bind (Q := fun _ => Walks S.policy now allowed w₀) (Triple.update ?_)
          (fun _ => ?_)
        · rintro w rfl
          rw [← hc] at hheld ⊢
          exact (Relation.ReflTransGen.single (.read (hallowed _ rfl) hheld)).tail (.flag i _)
        · exact Triple.ite (fun _ => Triple.pure (fun _ h => h))
            (fun _ => Triple.pure (fun _ h => h))
  · exact walksFrom_of_walks (walks_pure _)

theorem cancelEach_walks (stops : Bool) (p : OrderTicket → Bool) :
    Moves (Walks S.policy now allowed) (cancelEach S stops p) := by
  refine Moves.coord (fun c => walks_foldlM (fun failure i => ?_) _ _)
  refine walks_ite (walks_pure _) (walks_coord (fun c => ?_))
  split
  · exact walksFrom_of_walks (walks_pure _)
  · rename_i t ht
    have hheld : c.knows t.orderId = true :=
      List.any_eq_true.mpr ⟨t, List.mem_of_getElem? ht, by simp⟩
    exact walksFrom_ite
      (walksFrom_bind (cancelAndReconcile_walks hallowed i hheld) (fun _ => walks_pure _))
      (walksFrom_of_walks (walks_pure _))

theorem cancelOptimistic_walks (i : Nat) :
    Moves (Walks S.policy now allowed) (cancelOptimistic S i) := by
  refine Moves.coord (fun c => ?_)
  split
  · exact walks_pure _
  · refine walks_ite ?_ (walks_pure _)
    refine walks_bind (walks_ask (fun _ => hallowed _ rfl) (fun _ => rfl)) (fun answer => ?_)
    refine walks_bind (walks_orRaise answer) (fun ok => ?_)
    exact walks_ite (walks_update (fun _ => .flag i false)) (walks_pure _)

theorem recoveryReturns_walks (ok : Bool) :
    Moves (Walks S.policy now allowed) (recoveryReturns ok) :=
  walks_bind (walks_mark (hallowed _ rfl) rfl) (fun _ => walks_pure _)

theorem recoverPersistedIntents_walks :
    Moves (Walks S.policy now allowed) (recoverPersistedIntents S) := by
  unfold recoverPersistedIntents
  split
  · exact recoveryReturns_walks hallowed false
  · refine Moves.coord (fun c => walks_of_triple (fun w₀ => ?_))
    refine Triple.bind (Q := fun answer w =>
      w = ⟨w₀.coord, ⟨w₀.coord, .recoverPairIntents answer⟩ :: w₀.log⟩) (Triple.ask ?_)
      (fun answer => ?_)
    · rintro w answer rfl
      rfl
    · split
      · have hreturns : Moves (Walks S.policy now allowed) (recoveryReturns false) :=
          recoveryReturns_walks hallowed false
        refine hreturns.triple ?_
        rintro w w' rfl h'
        exact (Relation.ReflTransGen.single (.call (hallowed _ rfl) rfl)).trans h'
      · rename_i items
        refine Triple.bind (Q := fun _ => Walks S.policy now allowed w₀) (Triple.update ?_)
          (fun _ => ?_)
        · rintro w rfl
          exact Relation.ReflTransGen.single (.adopt (hallowed _ rfl))
        · refine Moves.triple (R := Walks S.policy now allowed) ?_ (fun _ _ h h' => h.trans h')
          split
          · refine walks_bind (walks_ask (fun _ => hallowed _ rfl) (fun _ => rfl))
              (fun answer => ?_)
            exact walks_bind (walks_orRaise answer) (fun _ => recoveryReturns_walks hallowed _)
          · exact walks_bind (walks_ask (fun _ => hallowed _ rfl) (fun _ => rfl))
              (fun _ => recoveryReturns_walks hallowed _)

theorem placeFailureReason_walks (side : Side) :
    Moves (Walks S.policy now allowed) (placeFailureReason S side) := by
  unfold placeFailureReason
  split
  · exact walks_pure _
  · refine walks_bind (walks_ask (fun _ => hallowed _ rfl) (fun _ => rfl)) (fun answer => ?_)
    exact walks_bind (walks_orRaise answer) (fun _ => walks_pure _)

theorem marketExitRefused_walks (side : Side) :
    Moves (Walks S.policy now allowed) (marketExitRefused S side) := by
  refine walks_bind (walks_ask (fun _ => hallowed _ rfl) (fun _ => rfl)) (fun blocked => ?_)
  exact walks_ite (walks_pure _)
    (walks_bind (placeFailureReason_walks hallowed side) (fun _ => walks_pure _))

theorem concludeFlat_walks {phase : Phase} (h : phase ≠ .stopping ∧ phase ≠ .startupRecovery ∧
    phase ≠ .idle) (reason : Option String) :
    Moves (Walks S.policy now allowed) (concludeFlat phase reason) :=
  walks_bind (walks_mark (hallowed _ rfl) rfl) (fun _ => walks_setPhase h reason)

/-! ## Stopping -/

theorem placeStop_walks (side : Side) (netQty exitQty : ℚ) (reason : String)
    (permit : Option String) :
    Moves (Walks S.policy now allowed) (placeStop S side netQty exitQty reason permit) := by
  refine Moves.coord (fun c => walks_of_triple (fun w₀ => ?_))
  refine Triple.bind (Q := fun answer w => Walks S.policy now allowed w₀ w ∧
    ∃ x rest order, w.log = x :: rest ∧ x.event = .placeMarketExit .submit order answer ∧
      x.before.tickets = w.coord.tickets) (Triple.ask ?_) (fun answer => ?_)
  · rintro w answer rfl
    exact ⟨Relation.ReflTransGen.single (.call (hallowed _ rfl) rfl), _, _, _, rfl, rfl, rfl⟩
  · refine Triple.bind (Q := fun market w => Walks S.policy now allowed w₀ w ∧
      ∃ x rest order, w.log = x :: rest ∧ x.event = .placeMarketExit .submit order (.ok market) ∧
        x.before.tickets = w.coord.tickets) (Triple.orRaise ?_ (fun _ _ _ h => h.1))
      (fun market => ?_)
    · rintro market w rfl h
      exact h
    · split
      · refine Moves.triple (R := Walks S.policy now allowed) ?_ (fun _ _ h h' => h.1.trans h')
        refine walks_bind (marketExitRefused_walks hallowed side) (fun pending => ?_)
        refine walks_ite ?_ ?_
        · exact walks_bind (walks_setPhase (by decide) _) (fun _ => walks_pure _)
        · exact walks_bind (walks_mark (hallowed _ rfl) rfl)
            (fun _ => walks_bind (walks_setReason _) (fun _ => walks_pure _))
      · rename_i ticket
        refine Triple.bind (Q := fun _ => Walks S.policy now allowed w₀) (Triple.update ?_)
          (fun _ => Triple.pure (fun _ h => h))
        rintro w ⟨h, x, rest, order, hlog, hx, hbefore⟩
        exact (h.tail (.stop hlog hx hbefore)).tail (.stopFields _ _)

theorem replaceByStop_walks {c : Coordinator} (side : Side) (netQty : ℚ) (reason : String)
    (ticket : OrderTicket) (i : Nat) (hheld : c.knows ticket.orderId = true) :
    Moves (WalksFrom S.policy now allowed c) (replaceByStop S side netQty reason ticket i) := by
  refine Moves.coord (fun c' => ?_)
  refine walksFrom_asks (walks_ask (fun _ => hallowed _ rfl) (fun _ => rfl))
    (asks_ask (fun _ => rfl)) (fun answer => ?_)
  refine walksFrom_asks (walks_orRaise answer) (asks_orRaise answer) (fun permit => ?_)
  refine walksFrom_bind (cancelAndReconcile_walks hallowed i hheld) (fun failure => ?_)
  split
  · exact walks_bind (walks_setReason _) (fun _ => walks_pure _)
  · exact walks_bind (walks_setReason _) (fun _ => walks_pure _)
  · refine Moves.coord (fun c' => walks_ite ?_ (walks_ite ?_ ?_))
    · exact walks_bind (concludeFlat_walks hallowed (by decide) _) (fun _ => walks_pure _)
    · exact walks_bind (walks_setReason _) (fun _ => walks_pure _)
    · exact placeStop_walks hallowed _ _ _ _ _

theorem submitHardStop_walks (exposure : Exposure) (netQty entryAvg current : ℚ) :
    Moves (Walks S.policy now allowed) (submitHardStop S exposure netQty entryAvg current) := by
  refine walks_coord (fun c => walksFrom_ite (walksFrom_of_walks (walks_pure _)) ?_)
  refine walksFrom_asks (walks_orRaise _) (asks_orRaise _) (fun loss => ?_)
  refine walksFrom_asks ?_ (marketExitPermitted_asks S _ _ _) (fun permitted => walksFrom_ite ?_ ?_)
  · unfold marketExitPermitted
    split
    · exact walks_pure _
    · exact walks_bind (walks_ask (fun _ => hallowed _ rfl) (fun _ => rfl))
        (fun answer => walks_orRaise answer)
  · split
    · exact walksFrom_of_walks (placeStop_walks hallowed _ _ _ _ _)
    · rename_i ticket i hactive
      exact replaceByStop_walks hallowed _ _ _ _ _ (c.knows_of_latest hactive)
  · exact walksFrom_of_walks (walks_bind (walks_setReason _) (fun _ => walks_pure _))

theorem retryTerminalHardStop_walks (netQty : ℚ) :
    Moves (Walks S.policy now allowed) (retryTerminalHardStop S netQty) := by
  refine Moves.coord (fun c => walks_ite (walks_pure _) (walks_ite ?_ ?_))
  · exact walks_setPhase (by decide) _
  refine walks_of_triple (fun w₀ => ?_)
  refine Triple.bind (Q := fun market w => Walks S.policy now allowed w₀ w ∧ ∀ t, market = some t →
    ∃ x rest order, w.log = x :: rest ∧ x.event = .placeMarketExit .retry order (.ok (some t)) ∧
      x.before.tickets = w.coord.tickets) ?_ (fun market => ?_)
  · refine Triple.bind (Q := fun _ => Walks S.policy now allowed w₀) (Triple.ask ?_)
      (fun answer => ?_)
    · rintro w answer rfl
      exact Relation.ReflTransGen.single (.call (hallowed _ rfl) rfl)
    · split
      · exact Triple.pure (fun _ h => ⟨h, nofun⟩)
      · refine Triple.bind (Q := fun market w => Walks S.policy now allowed w₀ w ∧
          ∃ x rest order, w.log = x :: rest ∧ x.event = .placeMarketExit .retry order market ∧
            x.before.tickets = w.coord.tickets) (Triple.ask ?_) (fun market => ?_)
        · intro w market h
          exact ⟨h.tail (.call (hallowed _ rfl) rfl), _, _, _, rfl, rfl, rfl⟩
        · split
          · exact Triple.pure (fun _ h => ⟨h.1, nofun⟩)
          · refine Triple.pure (fun w h => ⟨h.1, ?_⟩)
            rintro t rfl
            exact h.2
  · split
    · refine Moves.triple (R := Walks S.policy now allowed) ?_ (fun _ _ h h' => h.1.trans h')
      refine walks_bind (walks_update (fun _ => .phase (by decide))) (fun _ => ?_)
      exact walks_bind (marketExitRefused_walks hallowed _) (fun _ => walks_setReason _)
    · rename_i ticket
      refine Triple.update ?_
      rintro w ⟨h, hmarket⟩
      obtain ⟨x, rest, order, hlog, hx, hbefore⟩ := hmarket ticket rfl
      have hrevised := h.tail (.stopFields (c.hardStopRevision + 1) w.coord.hardStopReason)
      exact (hrevised.tail (.stop hlog hx hbefore)).tail (.reason _)

theorem stepStopping_walks (net : ℚ) : Moves (Walks S.policy now allowed) (stepStopping S net) := by
  refine Moves.coord (fun c => walks_ite (concludeFlat_walks hallowed (by decide) _) ?_)
  split
  · exact walks_ite (retryTerminalHardStop_walks hallowed net) (walks_pure _)
  · exact walks_pure _

theorem stepHardStopRecovery_walks (net : ℚ) :
    Moves (Walks S.policy now allowed) (stepHardStopRecovery S net) := by
  refine Moves.coord (fun c => walks_ite (retryTerminalHardStop_walks hallowed net)
    (walks_ite ?_ (walks_pure _)))
  refine walks_bind (recoverPersistedIntents_walks hallowed) (fun recovered => ?_)
  refine walks_ite ?_ (walks_pure _)
  refine walks_of_triple (fun w₀ => Triple.coord (fun c' => ?_))
  refine Triple.ite (fun _ => ?_) (fun _ => Triple.ite (fun _ => ?_) (fun hstop => ?_))
  · refine Moves.triple (R := Walks S.policy now allowed)
      (concludeFlat_walks (S := S) hallowed (by decide) _) ?_
    rintro w w' ⟨rfl, -⟩ h
    exact h
  · refine Moves.triple (R := Walks S.policy now allowed) (walks_setReason _) ?_
    rintro w w' ⟨rfl, -⟩ h
    exact h
  · refine Triple.bind (Q := fun _ => Walks S.policy now allowed w₀) (Triple.update ?_)
      (fun _ => (stepStopping_walks hallowed _).triple (fun _ _ h h' => h.trans h'))
    rintro w ⟨rfl, rfl⟩
    exact Relation.ReflTransGen.single (.resume hstop)

/-! ## Recovering and cancelling -/

theorem recoverIfPending_walks : Moves (Walks S.policy now allowed) (recoverIfPending S) := by
  unfold recoverIfPending
  refine Moves.coord (fun c => ?_)
  exact walks_ite (recoverPersistedIntents_walks hallowed) (walks_pure _)

theorem stepStartupRecovery_walks :
    Moves (Walks S.policy now allowed) (stepStartupRecovery S) := by
  refine walks_bind (recoverIfPending_walks hallowed) (fun recovered => walks_ite ?_ (walks_pure _))
  refine walks_bind (cancelEach_walks hallowed _ _) (fun failure => ?_)
  split
  · exact walks_pure _
  · refine Moves.coord (fun c => walks_ite ?_ ?_)
    · exact walks_bind (walks_update (fun _ => .phase (by decide))) (fun _ => walks_pure _)
    · exact walks_bind (walks_update (fun _ => .phase (by decide))) (fun _ => walks_pure _)

theorem closeBalanced_walks : Moves (Walks S.policy now allowed) (closeBalanced S) := by
  refine walks_bind (cancelEach_walks hallowed _ _) (fun failure => ?_)
  refine walks_bind (refresh_walks hallowed) (fun _ => ?_)
  refine Moves.coord (fun c => walks_ite (walks_ite ?_ ?_) (walks_pure _))
  · exact walks_bind (walks_setPhase (by decide) _) (fun _ => walks_pure _)
  · exact walks_bind (walks_setPhase (by decide) _) (fun _ => walks_pure _)

/-! ## Exits -/

variable (hexit : ∀ order answer, allowed (.placeLimit .anchoredExit order answer))

include hexit

omit hallowed in
theorem placeExit_walks (side : Side) (target qty : ℚ) (permit : Option String) :
    Moves (Walks S.policy now allowed) (placeExit S side target qty permit) := by
  refine Moves.coord (fun c => walks_of_triple (fun w₀ => ?_))
  refine Triple.bind (Q := fun answer w => Walks S.policy now allowed w₀ w ∧
    ∃ x rest order, w.log = x :: rest ∧ x.event = .placeLimit .anchoredExit order answer ∧
      x.before.tickets = w.coord.tickets) (Triple.ask ?_) (fun answer => ?_)
  · rintro w answer rfl
    exact ⟨Relation.ReflTransGen.single (.call (hexit _ _) rfl), _, _, _, rfl, rfl, rfl⟩
  · refine Triple.bind (Q := fun replacement w => Walks S.policy now allowed w₀ w ∧
      ∃ x rest order, w.log = x :: rest ∧
        x.event = .placeLimit .anchoredExit order (.ok replacement) ∧
        x.before.tickets = w.coord.tickets)
      (Triple.orRaise ?_ (fun _ _ _ h => h.1)) (fun replacement => ?_)
    · rintro replacement w rfl h
      exact h
    · split
      · exact Triple.bind (Q := fun _ => Walks S.policy now allowed w₀)
          (Triple.update (fun _ h => h.1.tail (.reason _))) (fun _ => Triple.pure (fun _ h => h))
      · rename_i ticket
        refine Triple.bind (Q := fun _ => Walks S.policy now allowed w₀) (Triple.update ?_)
          (fun _ => Triple.pure (fun _ h => h))
        rintro w ⟨h, x, rest, order, hlog, hx, hbefore⟩
        by_cases hknown : w.coord.knows ticket.orderId = true
        · rw [if_pos hknown]
          exact h
        · rw [if_neg hknown]
          exact h.tail (.append hlog hx hbefore (Bool.eq_false_iff.mpr hknown))

theorem replaceExit_walks {c : Coordinator} (side : Side) (netQty target : ℚ)
    (ticket : OrderTicket) (i : Nat) (hheld : c.knows ticket.orderId = true) :
    Moves (WalksFrom S.policy now allowed c) (replaceExit S side netQty target ticket i) := by
  refine walksFrom_asks (walks_ask (fun _ => hallowed _ rfl) (fun _ => rfl))
    (asks_ask (fun _ => rfl)) (fun answer => ?_)
  refine walksFrom_asks (walks_orRaise answer) (asks_orRaise answer) (fun permit => ?_)
  refine walksFrom_bind (cancelAndReconcile_walks hallowed i hheld) (fun failure => ?_)
  split
  · exact walks_bind (walks_setReason _) (fun _ => walks_pure _)
  · exact walks_bind (walks_setReason _) (fun _ => walks_pure _)
  · refine Moves.coord (fun c => walks_ite ?_ ?_)
    · exact walks_bind (concludeFlat_walks hallowed (by decide) _) (fun _ => walks_pure _)
    · split
      · exact walks_bind (walks_setReason _) (fun _ => walks_pure _)
      · refine walks_bind (walks_update (fun _ => .revision _ _)) (fun _ => walks_ite ?_ ?_)
        · exact walks_bind (walks_setReason _) (fun _ => walks_pure _)
        · exact placeExit_walks hexit _ _ _ _

omit hallowed in
theorem renewExit_walks (side : Side) (netQty target : ℚ) :
    Moves (Walks S.policy now allowed) (renewExit S side netQty target) := by
  refine Moves.coord (fun c => ?_)
  split
  · exact placeExit_walks hexit _ _ _ _
  · refine walks_ite ?_ (walks_bind (walks_setReason _) (fun _ => walks_pure _))
    split
    · refine walks_bind ?_ (fun _ => walks_bind (walks_setReason _) (fun _ => walks_pure _))
      exact walks_update (fun w => .revision _ _)
    · exact walks_bind (walks_update (fun _ => .revision _ _))
        (fun _ => placeExit_walks hexit _ _ _ _)

theorem exitExposure_walks : Moves (Walks S.policy now allowed) (exitExposure S) := by
  refine Moves.coord (fun c => walks_bind (walks_ask (fun _ => hallowed _ rfl) (fun _ => rfl))
    (fun answer => ?_))
  refine walks_bind (walks_orRaise answer) (fun price => walks_ite (walks_setReason _) ?_)
  refine walks_bind (submitHardStop_walks hallowed _ _ _ _) (fun stopped => ?_)
  refine walks_ite (walks_pure _) (Moves.coord (fun c' => walks_ite (walks_pure _) ?_))
  refine walks_bind ?_ (fun _ => walks_pure _)
  refine walks_bind (walks_orRaise _) (fun target => walks_coord (fun c'' => ?_))
  split
  · rename_i ticket i hactive
    exact walksFrom_ite (walksFrom_of_walks (walks_pure _))
      (replaceExit_walks hallowed hexit _ _ _ _ _ (c''.knows_of_latest hactive))
  · exact walksFrom_of_walks (renewExit_walks hexit _ _ _)

theorem manageExposure_walks : Moves (Walks S.policy now allowed) (manageExposure S) := by
  refine walks_bind (walks_update (fun _ => .phase (by decide)))
    (fun _ => Moves.coord (fun c => ?_))
  refine walks_bind (cancelEach_walks hallowed _ _) (fun failure => ?_)
  split
  · exact walks_setReason _
  · exact walks_setReason _
  · refine walks_bind (refresh_walks hallowed) (fun _ => Moves.coord (fun c' => walks_ite ?_ ?_))
    · refine walks_bind (walks_update (fun _ => .phase (by decide))) (fun _ => ?_)
      exact walks_bind (closeBalanced_walks hallowed)
        (fun _ => walks_ite (walks_pure _) (exitExposure_walks hallowed hexit))
    · exact exitExposure_walks hallowed hexit

theorem stepQuotes_walks {again : PairM Unit} (hagain : Moves (Walks S.policy now allowed) again) :
    Moves (Walks S.policy now allowed) (stepQuotes S again now) := by
  refine Moves.coord (fun c => walks_ite ?_ ?_)
  · refine Moves.coord (fun c' => walks_ite ?_ (manageExposure_walks hallowed hexit))
    exact walks_bind (closeBalanced_walks hallowed)
      (fun _ => walks_ite (walks_pure _) (manageExposure_walks hallowed hexit))
  · refine Moves.coord (fun c' => walks_ite ?_ (walks_pure _))
    refine walks_bind (walks_foldlM (fun _ i => cancelOptimistic_walks hallowed i) () _)
      (fun _ => ?_)
    refine walks_bind (refresh_walks hallowed) (fun _ => Moves.coord (fun c'' => ?_))
    exact walks_ite hagain (walks_ite (walks_setReason _) (walks_setPhase (by decide) _))

/-- A step is a walk. -/
theorem stepBody_walks (fuel : Nat) : Moves (Walks S.policy now allowed) (stepBody S now fuel) := by
  induction fuel with
  | zero => exact walks_throw _
  | succ fuel ih =>
      refine Moves.coord (fun c => walks_ite (walks_pure _) (walks_ite (walks_throw _) ?_))
      refine walks_bind (refresh_walks hallowed) (fun _ => ?_)
      refine walks_bind (walks_update (fun w => .firstFill _ _))
        (fun _ => Moves.coord (fun c' => ?_))
      split
      · refine walks_bind (stepStartupRecovery_walks hallowed) (fun goesOn => ?_)
        exact walks_ite (stepQuotes_walks hallowed hexit ih) (walks_pure _)
      · exact stepHardStopRecovery_walks hallowed _
      · exact stepStopping_walks hallowed _
      · exact stepQuotes_walks hallowed hexit ih

theorem step_walks (fuel : Nat) : Moves (Walks S.policy now allowed) (step S now fuel) :=
  walks_bind (stepBody_walks hallowed hexit fuel) (fun _ => Moves.coord (fun _ => walks_pure _))

end Parts

end TradingFleet.Pair
