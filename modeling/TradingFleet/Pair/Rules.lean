import TradingFleet.Basic.Runs
import TradingFleet.Pair.Checkpoint
import TradingFleet.Pair.Step

set_option autoImplicit false

/-! # Rules for coordinator programs

The primitives of the coordinator's programs as triples, the frame of everything that only
reads and cancels (`Touches`), and the runs the results are about: a coordinator that is
started, stepped, and restarted from its own checkpoint, in any order.
-/

namespace TradingFleet.Pair

open TradingFleet.Hoare TradingFleet.Runs

/-! ## Primitives -/

section Primitives

variable {α β : Type} {P : World → Prop} {Q : α → World → Prop} {R : β → World → Prop}
  {E : String → World → Prop}

theorem Triple.coord {f : Coordinator → PairM β}
    (h : ∀ c, Triple (fun w => P w ∧ w.coord = c) (f c) R E) : Triple P (coord >>= f) R E :=
  fun w hw => h w.coord w ⟨hw, rfl⟩

theorem Triple.update {f : Coordinator → Coordinator} {Q : Unit → World → Prop}
    (h : ∀ w, P w → Q () { w with coord := f w.coord }) : Triple P (update f) Q E :=
  fun w hw => h w hw

theorem Triple.ask {call : Nat → α} {event : α → Event}
    (h : ∀ w a, P w → Q a { w with log := ⟨w.coord, event a⟩ :: w.log }) :
    Triple P (ask call event) Q E :=
  fun w hw => h w _ hw

theorem Triple.mark {p : Point} {Q : Unit → World → Prop}
    (h : ∀ w, P w → Q () { w with log := ⟨w.coord, .point p⟩ :: w.log }) :
    Triple P (mark p) Q E :=
  fun w hw => h w hw

theorem Triple.orRaise {x : Except String α} (hok : ∀ a w, x = .ok a → P w → Q a w)
    (herr : ∀ e w, x = .error e → P w → E e w) : Triple P (orRaise x) Q E := by
  cases x with
  | ok a => exact fun w hw => hok a w rfl hw
  | error e => exact fun w hw => herr e w rfl hw

theorem Triple.ite {p : Prop} [Decidable p] {x y : PairM α} (hx : p → Triple P x Q E)
    (hy : ¬ p → Triple P y Q E) : Triple P (if p then x else y) Q E := by
  by_cases hp : p
  · rw [if_pos hp]
    exact hx hp
  · rw [if_neg hp]
    exact hy hp

/-! The same for frames. -/

variable {F : World → World → Prop}

theorem Moves.coord {f : Coordinator → PairM β} (h : ∀ c, Moves F (f c)) :
    Moves F (coord >>= f) :=
  fun w => h w.coord w

theorem Moves.update {f : Coordinator → Coordinator}
    (h : ∀ w : World, F w { w with coord := f w.coord }) : Moves F (update f) :=
  fun w => h w

theorem Moves.ask {call : Nat → α} {event : α → Event}
    (h : ∀ (w : World) a, F w { w with log := ⟨w.coord, event a⟩ :: w.log }) :
    Moves F (ask call event) :=
  fun w => h w _

theorem Moves.orRaise (hrefl : ∀ w, F w w) (x : Except String α) : Moves F (orRaise x) := by
  cases x with
  | ok a => exact Moves.pure hrefl a
  | error e => exact Moves.throw hrefl e

end Primitives

/-! ## What only reads and cancels -/

/-- The call neither places an order nor is one of the points of interest. -/
def Event.quiet : Event → Bool
  | .placeLimit _ _ _ => false
  | .placeMarketExit _ _ _ => false
  | .recoverPairIntents _ => false
  | .point .compacting => true
  | .point _ => false
  | _ => true

/-- Only tickets and snapshots changed, and only quiet calls were made. -/
structure Touches (w w' : World) : Prop where
  fields : w'.coord =
    { w.coord with tickets := w'.coord.tickets, snapshots := w'.coord.snapshots }
  log : ∃ new, w'.log = new ++ w.log ∧ ∀ x ∈ new, x.event.quiet = true

theorem Touches.refl (w : World) : Touches w w := ⟨rfl, [], rfl, by simp⟩

theorem Touches.trans (w w' w'' : World) (h : Touches w w') (h' : Touches w' w'') :
    Touches w w'' := by
  obtain ⟨new, hlog, hquiet⟩ := h.log
  obtain ⟨new', hlog', hquiet'⟩ := h'.log
  refine ⟨?_, new' ++ new, by rw [hlog', hlog, List.append_assoc], ?_⟩
  · rw [h'.fields, h.fields]
  · intro x hx
    rcases List.mem_append.mp hx with hx | hx
    · exact hquiet' x hx
    · exact hquiet x hx

theorem Touches.phase {w w' : World} (h : Touches w w') : w'.coord.phase = w.coord.phase := by
  rw [h.fields]

theorem Touches.reason {w w' : World} (h : Touches w w') : w'.coord.reason = w.coord.reason := by
  rw [h.fields]

section Touching

variable {α β : Type}

theorem touches_bind {x : PairM α} {f : α → PairM β} (hx : Moves Touches x)
    (hf : ∀ a, Moves Touches (f a)) : Moves Touches (x >>= f) :=
  Moves.bind Touches.trans hx hf

theorem touches_pure (a : α) : Moves Touches (pure a : PairM α) := Moves.pure Touches.refl a

theorem touches_ask {call : Nat → α} {event : α → Event} (h : ∀ a, (event a).quiet = true) :
    Moves Touches (ask call event) := by
  intro w
  refine ⟨rfl, [⟨w.coord, event (call w.log.length)⟩], rfl, ?_⟩
  intro x hx
  rw [List.mem_singleton.mp hx]
  exact h _

theorem touches_orRaise (x : Except String α) : Moves Touches (orRaise x) := by
  cases x with
  | ok a => exact touches_pure a
  | error e => exact Moves.throw Touches.refl e

theorem touches_coord {f : Coordinator → PairM β} (h : ∀ c, Moves Touches (f c)) :
    Moves Touches (coord >>= f) :=
  fun w => h w.coord w

/-- An update of tickets and snapshots. -/
theorem touches_update {f : Coordinator → Coordinator}
    (h : ∀ c, f c = { c with tickets := (f c).tickets, snapshots := (f c).snapshots }) :
    Moves Touches (update f) := by
  intro w
  exact ⟨h w.coord, [], rfl, by simp⟩

theorem touches_compacting : Moves Touches (mark .compacting) := by
  intro w
  refine ⟨rfl, [⟨w.coord, .point .compacting⟩], rfl, ?_⟩
  intro x hx
  rw [List.mem_singleton.mp hx]
  rfl

end Touching

section Frames

variable (S : Setup)

theorem refreshOne_touches (i : Nat) : Moves Touches (refreshOne S i) := by
  refine touches_coord (fun c => ?_)
  split
  · exact touches_pure ()
  · refine touches_bind (touches_ask (fun _ => rfl)) (fun answer => ?_)
    refine touches_bind (touches_orRaise answer) (fun snap => ?_)
    exact touches_update (fun _ => rfl)

theorem refresh_touches : Moves Touches (refresh S) := by
  refine touches_coord (fun c => ?_)
  refine touches_bind (Moves.foldlM Touches.refl Touches.trans
    (fun _ i => refreshOne_touches S i) () _) (fun _ => ?_)
  exact touches_bind touches_compacting (fun _ => touches_update (fun _ => rfl))

theorem cancelAndReconcile_touches (i : Nat) (orderId : String) :
    Moves Touches (cancelAndReconcile S i orderId) := by
  refine touches_bind (touches_ask (fun _ => rfl)) (fun answer => ?_)
  split
  · refine touches_bind (touches_ask (fun _ => rfl)) (fun status => ?_)
    split
    · exact touches_bind (touches_update (fun _ => rfl)) (fun _ => touches_pure _)
    · refine touches_bind (touches_update (fun _ => rfl)) (fun _ => ?_)
      split
      · exact touches_pure _
      · exact touches_pure _
  · exact touches_pure _

theorem cancelEach_touches (stops : Bool) (p : OrderTicket → Bool) :
    Moves Touches (cancelEach S stops p) := by
  refine touches_coord (fun c => ?_)
  refine Moves.foldlM Touches.refl Touches.trans (fun failure i => ?_) _ _
  split
  · exact touches_pure _
  · refine touches_coord (fun c => ?_)
    split
    · exact touches_pure _
    · split
      · exact touches_bind (cancelAndReconcile_touches S i _) (fun _ => touches_pure _)
      · exact touches_pure _

theorem cancelOptimistic_touches (i : Nat) : Moves Touches (cancelOptimistic S i) := by
  refine touches_coord (fun c => ?_)
  split
  · exact touches_pure _
  · split
    · refine touches_bind (touches_ask (fun _ => rfl)) (fun answer => ?_)
      refine touches_bind (touches_orRaise answer) (fun ok => ?_)
      split
      · exact touches_update (fun _ => rfl)
      · exact touches_pure _
    · exact touches_pure _

end Frames

/-! ## What only asks -/

/-- A quiet call of the venue that reads no order. -/
def Event.silent : Event → Bool
  | .orderStatus _ _ => false
  | .point _ => false
  | e => e.quiet

theorem quiet_of_silent {e : Event} (h : e.silent = true) : e.quiet = true := by
  unfold Event.silent at h
  split at h
  · cases h
  · cases h
  · exact h

/-- The coordinator is as it was, and only silent calls were made. -/
structure Asks (w w' : World) : Prop where
  coord : w'.coord = w.coord
  log : ∃ new, w'.log = new ++ w.log ∧ ∀ x ∈ new, x.event.silent = true

theorem Asks.touches {w w' : World} (h : Asks w w') : Touches w w' := by
  obtain ⟨new, hlog, hsilent⟩ := h.log
  exact ⟨by rw [h.coord], new, hlog, fun x hx => quiet_of_silent (hsilent x hx)⟩

theorem Asks.refl (w : World) : Asks w w := ⟨rfl, [], rfl, by simp⟩

theorem Asks.trans (w w' w'' : World) (h : Asks w w') (h' : Asks w' w'') : Asks w w'' := by
  obtain ⟨new, hlog, hsilent⟩ := h.log
  obtain ⟨new', hlog', hsilent'⟩ := h'.log
  refine ⟨h'.coord.trans h.coord, new' ++ new, by rw [hlog', hlog, List.append_assoc], ?_⟩
  intro x hx
  rcases List.mem_append.mp hx with hx | hx
  · exact hsilent' x hx
  · exact hsilent x hx

theorem touches_of_asks {α : Type} {x : PairM α} (h : Moves Asks x) : Moves Touches x := by
  intro w
  have hpost := h w
  cases hx : x w with
  | ok a w' =>
      rw [hx] at hpost
      exact hpost.touches
  | error e w' =>
      rw [hx] at hpost
      exact hpost.touches

section Asking

variable {α β : Type} (S : Setup)

theorem asks_pure (a : α) : Moves Asks (pure a : PairM α) := Moves.pure Asks.refl a

theorem asks_ask {call : Nat → α} {event : α → Event} (h : ∀ a, (event a).silent = true) :
    Moves Asks (ask call event) := by
  intro w
  refine ⟨rfl, [⟨w.coord, event (call w.log.length)⟩], rfl, ?_⟩
  intro x hx
  rw [List.mem_singleton.mp hx]
  exact h _

theorem asks_orRaise (x : Except String α) : Moves Asks (orRaise x) := by
  cases x with
  | ok a => exact asks_pure a
  | error e => exact Moves.throw Asks.refl e

theorem asks_bind {x : PairM α} {f : α → PairM β} (hx : Moves Asks x)
    (hf : ∀ a, Moves Asks (f a)) : Moves Asks (x >>= f) :=
  Moves.bind Asks.trans hx hf

theorem placeFailureReason_asks (side : Side) : Moves Asks (placeFailureReason S side) := by
  unfold placeFailureReason
  split
  · exact asks_pure _
  · refine asks_bind (asks_ask (fun _ => rfl)) (fun answer => ?_)
    exact asks_bind (asks_orRaise answer) (fun _ => asks_pure _)

theorem legRecoveryPending_asks (raised : Bool) (reason : String) :
    Moves Asks (legRecoveryPending S raised reason) := by
  unfold legRecoveryPending
  split
  · exact asks_pure _
  · exact asks_ask (fun _ => rfl)

theorem marketExitRefused_asks (side : Side) : Moves Asks (marketExitRefused S side) := by
  refine asks_bind (asks_ask (fun _ => rfl)) (fun blocked => ?_)
  split
  · exact asks_pure _
  · exact asks_bind (placeFailureReason_asks S side) (fun _ => asks_pure _)

theorem marketExitPermitted_asks (exposure : Exposure) (loss : ℚ) (reason : String) :
    Moves Asks (marketExitPermitted S exposure loss reason) := by
  unfold marketExitPermitted
  split
  · exact asks_pure _
  · exact asks_bind (asks_ask (fun _ => rfl)) (fun answer => asks_orRaise answer)

theorem startMid_asks (mid : Option ℚ) : Moves Asks (startMid S mid) := by
  unfold startMid
  split
  · exact asks_pure _
  · refine asks_bind (asks_ask (fun _ => rfl)) (fun answer => ?_)
    exact asks_bind (asks_orRaise answer) (fun _ => asks_pure _)

end Asking

/-- A cancel that failed changed nothing. -/
theorem cancelAndReconcile_failed (S : Setup) (c : Coordinator) (i : Nat) (orderId : String) :
    Triple (fun w => w.coord = c) (cancelAndReconcile S i orderId)
      (fun failure w => failure = some .cancelFailed → w.coord = c) (fun _ _ => True) := by
  refine Triple.bind (Q := fun _ w => w.coord = c) (Triple.ask (fun _ _ h => h)) (fun answer => ?_)
  split
  · refine Triple.bind (Q := fun _ _ => True) (Triple.ask (fun _ _ _ => trivial)) (fun status => ?_)
    split
    · exact Triple.bind (Q := fun _ _ => True) (Triple.update (fun _ _ => trivial))
        (fun _ => Triple.pure (fun _ _ h => by cases h))
    · refine Triple.bind (Q := fun _ _ => True) (Triple.update (fun _ _ => trivial)) (fun _ => ?_)
      refine Triple.ite (fun _ => ?_) (fun _ => ?_)
      · exact Triple.pure (fun _ _ h => by cases h)
      · exact Triple.pure (fun _ _ h => by cases h)
  · exact Triple.pure (fun _ h _ => h)

/-! ## Runs -/

/-- What happens to a coordinator: its owner starts it, steps it, or restarts it from the
checkpoint it writes at that moment. -/
inductive Action where
  | start (mid : Option ℚ) (pairId : String) (clock : ℚ)
  | step (now : ℚ) (fuel : Nat)
  | restart (clock : ℚ)

def finalWorld {α : Type} : EStateM.Result String World α → World
  | .ok _ w => w
  | .error _ w => w

/-- A checkpoint that is refused leaves the coordinator to its owner as it was. -/
def World.restarted (w : World) (clock : ℚ) : World :=
  match fromState (exportState w.coord clock) clock with
  | .ok c => { w with coord := c }
  | .error _ => w

theorem World.restarted_eq (w : World) (clock : ℚ) :
    w.restarted clock = { w with coord := w.coord.restored clock clock } := by
  unfold World.restarted
  rw [fromState_exportState]

def World.after (S : Setup) (w : World) : Action → World
  | .start mid pairId clock => finalWorld (start S mid pairId clock w)
  | .step now fuel => finalWorld (step S now fuel w)
  | .restart clock => w.restarted clock

/-- A coordinator as it is constructed, before any call. -/
def World.Initial (w : World) : Prop :=
  w.log = [] ∧ ∃ qty side, ∃ h : 0 < qty,
    w.coord = { qty := qty, startSide := side, qty_pos := h }

def World.Next (S : Setup) (w : World) (a : Action) (w' : World) : Prop := w' = w.after S a

abbrev World.Reachable (S : Setup) : World → Prop := Reach World.Initial (World.Next S)

theorem final_of_triple {α : Type} {P : World → Prop} {Q : World → Prop} {x : PairM α}
    (h : Triple P x (fun _ => Q) (fun _ => Q)) {w : World} (hw : P w) : Q (finalWorld (x w)) := by
  have hpost := h w hw
  cases hx : x w with
  | ok a w' =>
      rw [hx] at hpost
      exact hpost
  | error e w' =>
      rw [hx] at hpost
      exact hpost

/-- An invariant of both operations and of a restart holds in every reachable world. -/
theorem World.Reachable.invariant {S : Setup} {I : World → Prop} (h0 : ∀ w, World.Initial w → I w)
    (hstart : ∀ mid pairId clock, Keeps I (Pair.start S mid pairId clock))
    (hstep : ∀ now fuel, Keeps I (Pair.step S now fuel))
    (hrestart : ∀ w clock, I w → I (w.restarted clock)) {w : World} (h : w.Reachable S) : I w := by
  refine Reach.invariant h0 ?_ h
  intro w a w' hw hnext
  rw [show w' = w.after S a from hnext]
  cases a with
  | start mid pairId clock => exact final_of_triple (hstart mid pairId clock) hw
  | step now fuel => exact final_of_triple (hstep now fuel) hw
  | restart clock => exact hrestart w clock hw

/-! ## A sample venue -/

def samplePolicy : PairPolicy where
  adjustmentFraction := 1 / 100
  adjustment_range := by decide +kernel
  seconds_pos := by decide +kernel
  fastFill_range := by decide +kernel
  minEdge_range := by decide +kernel
  shock_range := by decide +kernel
  hardStop_range := by decide +kernel

def sampleTicket (orderId : String) (side : Side) (revision : Revision) : OrderTicket where
  orderId := orderId
  side := side
  price := 100
  qty := 10
  revision := revision
  price_pos := by decide +kernel
  qty_pos := by decide +kernel

/-- Quotes 100, accepts every order under an ID of its side and revision, reads every order as
open and cancels everything. The optional attributes are missing. -/
def sampleVenue : Venue where
  currentPrice := fun _ => .ok (some 100)
  preflightOrder := fun _ _ => .ok "permit"
  placeLimit := fun _ order =>
    .ok (some (sampleTicket (order.side.text ++ "-" ++ toString order.revision.val) order.side
      order.revision))
  placeMarketExit := fun _ order =>
    .ok (some (sampleTicket ("STOP-" ++ toString order.revision) order.side Revision.zero))
  marketExitAllowed := none
  orderStatus := fun _ _ => .ok OrderSnapshot.unread
  cancel := fun _ _ => .ok true
  recoverPairIntents := none
  pairRecoveryBlocked := none
  recoveryBlocked := fun _ => false
  lastPlaceFailureReason := none

/-- A read of an order. -/
def sampleRead (status : OrderStatus) (filled cost : ℚ) (hf : 0 ≤ filled := by decide)
    (hc : 0 ≤ cost := by decide) : OrderSnapshot where
  status := status
  filledQty := filled
  cost := cost
  filledQty_nonneg := hf
  cost_nonneg := hc
  fee_nonneg := OrderSnapshot.nothing_nonneg

/-- Ten are filled at 99. -/
def filledRead : OrderSnapshot := sampleRead .closed 10 990

/-- Cancelled without a fill. -/
def withdrawnRead : OrderSnapshot := sampleRead .canceled 0 0

def sampleStart : World where
  coord := { qty := 10, startSide := .buy, qty_pos := by decide +kernel }
  log := []

theorem sampleStart_initial : World.Initial sampleStart := ⟨rfl, 10, .buy, by decide +kernel, rfl⟩

/-- The world after some actions. -/
def World.run (S : Setup) (w : World) (actions : List Action) : World :=
  actions.foldl (World.after S) w

theorem run_reachable {S : Setup} (actions : List Action) {w : World} (h : w.Reachable S) :
    (w.run S actions).Reachable S := by
  induction actions generalizing w with
  | nil => exact h
  | cons a rest ih => exact ih (Reach.step (i := a) h rfl)

end TradingFleet.Pair
