import Mathlib.Logic.Relation
import TradingFleet.Lifecycle.Rules
import TradingFleet.SpotDca.Step

set_option autoImplicit false

/-! # What the strategy can do

Everything a run does to the state, the saved state and the two records beside them, one change
at a time, each with what the code has checked before it (`Move`). The programs that cancel, close,
recover and place are walks of such moves.
-/

namespace TradingFleet.SpotDca

open TradingFleet.Hoare TradingFleet.Lifecycle TradingFleet.Keyed
open TradingFleet.Text hiding orElse

/-! ## Moves -/

/-- Only fields that no order, ledger or exit depends on differ. -/
def SameCore (s s' : State) : Prop :=
  s' = { s with
    trailPeak := s'.trailPeak
    trailStop := s'.trailStop
    trendPeak := s'.trendPeak
    slLow := s'.slLow
    placementBackoffs := s'.placementBackoffs
    ledgerReconcileRequired := s'.ledgerReconcileRequired }

/-- Calls of the venue that neither submit nor say that an order is tracked. -/
def Event.quiet : Event → Bool
  | .orderByClientId _ _ => true
  | .orderStatus _ _ => true
  | .cancelOrder _ _ => true
  | _ => false

/-- What the decision logic has checked when it gives an instruction to `_place`. -/
inductive Placing (S : Setup) (s : State) : Instruction → Prop
  | entry (vol price : ℚ) (hexit : s.pendingExit = none) (hopen : s.hasOpen .buy = false)
      (hbudget : s.spent + S.params.effectiveEntryAmount ≤ S.params.effectiveMaxBudget) :
      Placing S s
        { side := .buy, vol := vol, price := price, kind := .entry,
          amount := S.params.effectiveEntryAmount }
  | dca (vol price amount free : ℚ) (scale : Option ℚ) (hexit : s.pendingExit = none)
      (hopen : s.hasOpen .buy = false) (hcount : (s.dcaBuys : Int) < S.params.maxDcaBuys)
      (hspent : s.spent < S.params.effectiveMaxBudget) (hfree : 0 ≤ free)
      (hamount : amount = min (effectiveDcaAmount S scale)
        (min free (S.params.effectiveMaxBudget - s.spent))) :
      Placing S s { side := .buy, vol := vol, price := price, kind := .dca, amount := amount }
  | trendEntry (vol price : ℚ) (hexit : s.pendingExit = none) (horders : s.orders = [])
      (hbudget : s.spent + S.params.trendTopup ≤ S.params.effectiveMaxBudget) :
      Placing S s
        { side := .buy, vol := vol, price := price, kind := .trendEntry,
          amount := S.params.trendTopup }
  | tp (vol price : ℚ) (hexit : s.pendingExit = none) :
      Placing S s { side := .sell, vol := vol, price := price, kind := .tp }
  | exit (e : PendingExit) (price : ℚ) (hexit : s.pendingExit = some e) (horders : s.orders = []) :
      Placing S s (exitInstruction S s e price)

/-- The checks look at five fields only. -/
theorem Placing.congr {S : Setup} {s s' : State} {i : Instruction} (h : Placing S s i)
    (hexit : s'.pendingExit = s.pendingExit) (horders : s'.orders = s.orders)
    (hspent : s'.spent = s.spent) (hcount : s'.dcaBuys = s.dcaBuys) (hqty : s'.qty = s.qty) :
    Placing S s' i := by
  have hopen : s'.hasOpen .buy = s.hasOpen .buy := by
    unfold State.hasOpen
    rw [horders]
  cases h with
  | entry vol price he ho hb =>
      exact .entry vol price (hexit.trans he) (hopen.trans ho) (by rwa [hspent])
  | dca vol price amount free scale he ho hc hs hf ha =>
      exact .dca vol price amount free scale (hexit.trans he) (hopen.trans ho) (by rwa [hcount])
        (by rwa [hspent]) hf (by rwa [hspent])
  | trendEntry vol price he ho hb =>
      exact .trendEntry vol price (hexit.trans he) (horders.trans ho) (by rwa [hspent])
  | tp vol price he => exact .tp vol price (hexit.trans he)
  | exit e price he ho =>
      have heq : exitInstruction S s e price = exitInstruction S s' e price := by
        unfold exitInstruction
        rw [hqty]
      rw [heq]
      exact .exit e price (hexit.trans he) (horders.trans ho)

/-- The intent `_place` makes of an instruction. -/
def Instruction.intent (S : Setup) (i : Instruction) (cycle : Nat) (clientOrderId : String)
    (t : ℚ) : Intent :=
  ((i.rounded S).newIntent S cycle clientOrderId).record t

theorem Instruction.intent_unknown (S : Setup) (i : Instruction) (cycle : Nat)
    (clientOrderId : String) (t : ℚ) : (i.intent S cycle clientOrderId t).orderKnown = false := rfl

/-- A volume `_place` lets through, with an ID for the intent. -/
structure Placed (S : Setup) (s : State) (i : Instruction) (clientOrderId : String) : Prop where
  live : S.dryRun = false
  placing : Placing S s i
  size : tooSmall S (i.rounded S).vol = false
  client : intentClientOrderId S.digest S.venueLabel
    (intentIdentity S s.cycle i.side i.kind (i.rounded S).vol (i.rounded S).price) =
      some clientOrderId

inductive Move (S : Setup) : World → World → Prop
  | note {w : World} {s' : State} (h : SameCore w.s s') : Move S w { w with s := s' }
  | called {w : World} (n : Nat) (failed : Bool) (events : List Event)
      (h : ∀ e ∈ events, e.quiet = true) :
      Move S w { w with
        calls := n
        writeFailed := failed
        log := events.map (fun e => ⟨w.s, w.saved, e⟩) ++ w.log }
  | saved {w : World} : Move S w { w with saved := w.s, savedPostings := w.postings }
  | intended {w : World} {i : Instruction} {clientOrderId : String}
      (hfree : w.s.pendingIntent = none) (h : Placed S w.s i clientOrderId) :
      Move S w { w with log :=
        ⟨w.s, w.saved, .intended ((i.rounded S).submission S w.s.cycle clientOrderId)⟩ :: w.log }
  | pend {w : World} {i : Instruction} {clientOrderId : String} {p : Intent}
      (hp : ∃ t, p = i.intent S w.s.cycle clientOrderId t)
      (hfree : w.s.pendingIntent = none) (h : Placed S w.s i clientOrderId) :
      Move S w { w with s := { w.s with pendingIntent := some p } }
  | submit {w : World} {i : Instruction} {clientOrderId : String} {p : Intent}
      (answer : Except Stop (Except Exc Response))
      (hp : ∃ t, p = i.intent S w.s.cycle clientOrderId t)
      (hpending : w.s.pendingIntent = some p) (h : Placed S w.s i clientOrderId) :
      Move S w { w with
        calls := w.calls + 1
        log := ⟨w.s, w.saved,
          .submit ((i.rounded S).submission S w.s.cycle clientOrderId) answer⟩ :: w.log }
  | rewrite {w : World} {p q : Intent} (hp : w.s.pendingIntent = some p) (h : p.Follows q) :
      Move S w { w with s := { w.s with pendingIntent := some q } }
  | release {w : World} {p : Intent} (hp : w.s.pendingIntent = some p)
      (h : p.orderKnown = false) :
      Move S w { w with s := { w.s with pendingIntent := none } }
  | track {w : World} {p : Intent} (hp : w.s.pendingIntent = some p) (h : p.orderKnown = true) :
      Move S w (w.adopted p)
  | cancelled {w : World} {o : Order} (h : S.dryRun = false) :
      Move S w { w with s := w.s.replace o { o with cancelRequested := true } }
  | dropped {w : World} {o : Order} (h : S.dryRun = true ∨ startsWith o.txid "PAPER" = true) :
      Move S w { w with s := w.s.remove o }
  | paperPlaced {w : World} {i : Instruction} (t : ℚ) (hpaper : S.dryRun = true)
      (hsize : tooSmall S (i.rounded S).vol = false) (h : Placing S w.s i) :
      Move S w (w.paperPlaced (i.rounded S) t)
  | ignored {w : World} {o : Order} {status : OrderStatus} (ho : o ∈ w.s.orders)
      (hlive : S.dryRun = false) (h : o.regressed (o.report status) = true) :
      Move S w { w with postings := .report o (o.report status) :: w.postings }
  | booked {w : World} {o : Order} {status : OrderStatus} (ho : o ∈ w.s.orders)
      (hlive : S.dryRun = false) (h : o.regressed (o.report status) = false) :
      Move S w (w.booked o (o.report status))
  | paperFilled {w : World} {o : Order} {price : ℚ} (ho : o ∈ w.s.orders)
      (hpaper : S.dryRun = true) :
      Move S w { w with
        s := (w.s.remove o).filled (o.paperFill price)
        postings := .fill (o.paperFill price) :: w.postings }
  | flattened {w : World} : Move S w { w with s := w.s.flattened S.precision }
  | held {w : World} (kind : Kind) (price : ℚ) (hflat : w.s.qty ≤ flatQty) :
      Move S w { w with s := w.s.heldExit kind price }
  | closed {w : World} (kind : Kind) (price : ℚ) (hflat : w.s.qty ≤ flatQty)
      (horders : w.s.orders = []) (hpending : w.s.pendingIntent = none) :
      Move S w { w with s := w.s.nextCycle kind price, postings := .closed :: w.postings }
  | exitMarked {w : World} (e : PendingExit)
      (h : w.s.pendingExit.all (fun old => e.kind = .stop && old.kind ≠ .stop) = true) :
      Move S w { w with s := { w.s with pendingExit := some e } }
  | positionAdopted {w : World} (qty : ℚ) (hqty : 0 < qty) (horders : w.s.orders = [])
      (hflat : w.s.qty ≤ flatQty) (hspent : w.s.spent ≤ 0) (hcost : 0 < S.params.adoptCost) :
      Move S w { w with s := { w.s with
        qty := qty
        cost := qty * S.params.adoptCost
        entryPrice := some S.params.adoptCost
        lastBuyPrice := some S.params.adoptCost
        adopted := true } }
  | restarted {w : World} : Move S w w.restarted

/-- Any number of moves. -/
abbrev Walks (S : Setup) : World → World → Prop := Relation.ReflTransGen (Move S)

/-- What every move keeps, a walk keeps. -/
theorem Walks.invariant {S : Setup} {I : World → Prop} (hI : ∀ w w', Move S w w' → I w → I w')
    {w w' : World} (h : Walks S w w') (hw : I w) : I w' := by
  induction h with
  | refl => exact hw
  | tail _ hmove ih => exact hI _ _ hmove ih

/-! ## Assertions -/

section Assertions

variable {S : Setup} {w₀ : World} {f : State → Prop}

/-- The world was walked to from `w₀`, and its state satisfies `f`. -/
def At (S : Setup) (w₀ : World) (f : State → Prop) (w : World) : Prop := Walks S w₀ w ∧ f w.s

theorem At.step {w w' : World} {g : State → Prop} (h : At S w₀ f w) (hmove : Move S w w')
    (hg : g w'.s) : At S w₀ g w' :=
  ⟨h.1.tail hmove, hg⟩

variable {α β : Type} {R : β → World → Prop} {E : Stop → World → Prop}

theorem state_at {k : State → DcaM β}
    (h : ∀ s, Triple (fun w => At S w₀ f w ∧ w.s = s) (k s) R E) :
    Triple (At S w₀ f) (state >>= k) R E :=
  fun w hw => h w.s w ⟨hw, rfl⟩

/-- A state that was just read satisfies `f`. -/
theorem state_at' {k : State → DcaM β}
    (h : ∀ s, f s → Triple (At S w₀ (fun s' => s' = s)) (k s) R E) :
    Triple (At S w₀ f) (state >>= k) R E :=
  fun w hw => h w.s hw.2 w ⟨hw.1, rfl⟩

theorem ask_at {answer : Nat → Except Stop α} {event : Except Stop α → Option Event}
    (hquiet : ∀ a e, event a = some e → e.quiet = true) : Keeps (At S w₀ f) (ask answer event) := by
  intro w hw
  have hmove : Move S w { w with
      calls := w.calls + 1
      log := ((event (answer w.calls)).map (fun e => ⟨w.s, w.saved, e⟩)).toList ++ w.log } := by
    have h := Move.called (S := S) (w := w) (w.calls + 1) w.writeFailed
      (event (answer w.calls)).toList (by
        intro e he
        exact hquiet _ e (Option.mem_toList.mp he))
    cases he : event (answer w.calls) <;> rw [he] at h <;> exact h
  unfold ask
  cases ha : answer w.calls with
  | ok x =>
      rw [ha] at hmove
      exact hw.step hmove hw.2
  | error e =>
      rw [ha] at hmove
      exact hw.step hmove hw.2

theorem ask_none_at {answer : Nat → Except Stop α} :
    Keeps (At S w₀ f) (ask answer (fun _ => none)) :=
  ask_at (fun _ _ h => by cases h)

theorem ask_some_at {answer : Nat → Except Stop α} {event : Except Stop α → Event}
    (hquiet : ∀ a, (event a).quiet = true) :
    Keeps (At S w₀ f) (ask answer (fun a => some (event a))) := by
  refine ask_at (fun a e h => ?_)
  cases h
  exact hquiet a

theorem save_at : Keeps (At S w₀ f) (save S) := by
  intro w hw
  have hcall : ∀ failed, Move S w { w with calls := w.calls + 1, writeFailed := failed } :=
    fun failed => .called (w.calls + 1) failed [] (by simp)
  unfold save
  cases S.venue.save w.calls with
  | stored =>
      have hsaved : Move S { w with calls := w.calls + 1, writeFailed := false }
          { w with
            saved := w.s, savedPostings := w.postings, writeFailed := false,
            calls := w.calls + 1 } := .saved
      exact ⟨(hw.1.tail (hcall false)).tail hsaved, hw.2⟩
  | failed =>
      by_cases hdry : S.dryRun = true
      · simp only [hdry, if_true]
        exact hw.step (hcall true) hw.2
      · simp only [hdry, Bool.false_eq_true, if_false]
        exact hw.step (hcall true) hw.2
  | crashed replaced =>
      cases replaced with
      | false => exact hw.step (hcall true) hw.2
      | true =>
          have hsaved : Move S { w with calls := w.calls + 1, writeFailed := true }
              { w with
                saved := w.s, savedPostings := w.postings, writeFailed := true,
                calls := w.calls + 1 } := .saved
          exact ⟨(hw.1.tail (hcall true)).tail hsaved, hw.2⟩

theorem update_at {g : State → Prop} {u : State → State}
    (hmove : ∀ w : World, f w.s → Move S w { w with s := u w.s }) (hg : ∀ s, f s → g (u s))
    {E : Stop → World → Prop} : Triple (At S w₀ f) (update u) (fun _ => At S w₀ g) E :=
  fun w hw => hw.step (hmove w hw.2) (hg w.s hw.2)

theorem note_at {g : State → Prop} {u : State → State} (hcore : ∀ s, SameCore s (u s))
    (hg : ∀ s, f s → g (u s)) {E : Stop → World → Prop} :
    Triple (At S w₀ f) (update u) (fun _ => At S w₀ g) E :=
  update_at (fun w _ => .note (hcore w.s)) hg

theorem raise_at (e : Exc) {g : State → Prop} (hg : ∀ s, f s → g s) {Q : α → World → Prop} :
    Triple (At S w₀ f) (raise e : DcaM α) Q (fun _ => At S w₀ g) :=
  fun w hw => ⟨hw.1, hg w.s hw.2⟩

theorem catching_at {x : DcaM α} {handler : Exc → DcaM α} {P : World → Prop} {Q : α → World → Prop}
    {E : Stop → World → Prop} (hx : Triple P x Q E)
    (hh : ∀ e, Triple (fun w => E (.raised e) w) (handler e) Q E) :
    Triple P (catching x handler) Q E := by
  intro w hw
  have h := hx w hw
  unfold catching
  cases hxw : x w with
  | ok a w' =>
      rw [hxw] at h
      exact h
  | error stop w' =>
      rw [hxw] at h
      cases stop with
      | crash => exact h
      | raised e =>
          by_cases hc : caught e.kind = true
          · simp only [hc, if_true]
            exact hh e w' h
          · simp only [hc, Bool.false_eq_true, if_false]
            exact h

end Assertions

/-! ## Cancelling and closing -/

section Cancelling

variable {S : Setup} {w₀ : World} {f : State → Prop}

/-- The orders do not matter for `f`. -/
def OrderFree (f : State → Prop) : Prop := ∀ s orders, f s → f { s with orders := orders }

theorem cancelOrder_at (hf : OrderFree f) (o : Order) : Keeps (At S w₀ f) (cancelOrder S o) := by
  unfold cancelOrder
  by_cases hpaper : (S.dryRun || startsWith o.txid "PAPER") = true
  · rw [if_pos hpaper]
    refine Keeps.bind ?_ (fun _ => Keeps.pure true)
    exact update_at (fun w _ => .dropped (by simpa using hpaper)) (fun s hs => hf s _ hs)
  · rw [if_neg hpaper]
    have hlive : S.dryRun = false := by
      rw [Bool.or_eq_true, not_or] at hpaper
      simpa using hpaper.1
    by_cases hrequested : o.cancelRequested = true
    · rw [if_pos hrequested]
      exact Keeps.pure true
    · rw [if_neg hrequested]
      refine Keeps.bind (ask_some_at (fun _ => rfl)) (fun answer => ?_)
      cases answer with
      | error e =>
          dsimp only
          split
          · exact Keeps.pure false
          · exact raise_at e (fun _ hs => hs)
      | ok _ =>
          refine Keeps.bind ?_ (fun _ => Keeps.bind save_at (fun _ => Keeps.pure true))
          exact update_at (fun w _ => .cancelled hlive) (fun s hs => hf s _ hs)

theorem cancelOrders_at (hf : OrderFree f) (side : Option Side) (excludeMarket : Bool) :
    Keeps (At S w₀ f) (cancelOrders S side excludeMarket) := by
  unfold cancelOrders
  refine state_at (fun s => ?_)
  refine Triple.strengthen (Keeps.foldlM (fun ok o => ?_) true _) (fun w hw => hw.1)
  exact Keeps.bind (cancelOrder_at hf o) (fun done => Keeps.pure (done && ok))

theorem cancelOpen_at (hf : OrderFree f) (side : Side) : Keeps (At S w₀ f) (cancelOpen S side) := by
  unfold cancelOpen
  refine state_at (fun s => ?_)
  refine Triple.strengthen ?_ (fun w hw => hw.1)
  cases s.findOpen side with
  | none => exact Keeps.pure true
  | some o => exact cancelOrder_at hf o

/-- Anything may hold of the state. -/
def Free (S : Setup) (w₀ : World) : World → Prop := At S w₀ (fun _ => True)

theorem At.free {w : World} (h : At S w₀ f w) : Free S w₀ w := ⟨h.1, trivial⟩

theorem orderFree_true : OrderFree (fun _ => True) := fun _ _ h => h

theorem finalizeCycleIfFlat_at (kind : Kind) (price : ℚ) :
    Keeps (Free S w₀) (finalizeCycleIfFlat S kind price) := by
  unfold finalizeCycleIfFlat
  refine Keeps.bind (update_at (fun w _ => .flattened) (fun s _ => trivial)) (fun _ => ?_)
  refine state_at (fun s => ?_)
  by_cases hqty : flatQty < s.qty
  · simp only [if_pos hqty]
    exact Triple.pure (fun w hw => hw.1)
  · simp only [if_neg hqty]
    rw [not_lt] at hqty
    by_cases hopen : s.orders ≠ [] ∨ s.pendingIntent ≠ none
    · simp only [if_pos hopen]
      refine Triple.bind (Q := fun _ => Free S w₀) ?_ (fun _ => save_at)
      intro w hw
      have hflat : w.s.qty ≤ flatQty := by
        rw [hw.2]
        exact hqty
      exact ⟨hw.1.1.tail (.held kind price hflat), trivial⟩
    · simp only [if_neg hopen]
      rw [not_or, not_not, not_not] at hopen
      intro w hw
      refine ⟨hw.1.1.tail (.closed kind price ?_ ?_ ?_), trivial⟩
      · rw [hw.2]
        exact hqty
      · rw [hw.2]
        exact hopen.1
      · rw [hw.2]
        exact hopen.2

end Cancelling

/-! ## Intents -/

section Intents

variable {S : Setup} {w₀ : World}

/-- The write of a pending intent, from what the code knows before it. -/
theorem persist_at {f g : State → Prop} (pending : Option Intent)
    (hmove : ∀ w : World, f w.s →
      Move S w { w with s := { w.s with pendingIntent := pending } })
    (hg : ∀ s, f s → g { s with pendingIntent := pending }) :
    Triple (At S w₀ f) (persistPendingIntent S pending) (fun _ => At S w₀ g)
      (fun _ => At S w₀ g) := by
  unfold persistPendingIntent
  refine Triple.bind (update_at hmove hg) (fun _ => ?_)
  refine Triple.bind save_at (fun _ => ?_)
  intro w hw
  show Post _ _ ((if w.writeFailed then raise _ else pure ()) w)
  split
  · exact hw
  · exact hw

/-- The slot holds `p`, and the exit is `x`. -/
def Pends (x : Option PendingExit) (p : Intent) (s : State) : Prop :=
  s.pendingIntent = some p ∧ s.pendingExit = x

def Vacant (x : Option PendingExit) (s : State) : Prop :=
  s.pendingIntent = none ∧ s.pendingExit = x

def Exits (x : Option PendingExit) (s : State) : Prop := s.pendingExit = x

theorem At.exits {x : Option PendingExit} {p : Intent} {w : World}
    (h : At S w₀ (Pends x p) w) : At S w₀ (Exits x) w := ⟨h.1, h.2.2⟩

/-- The strategy owns the intents of its lifecycle. -/
theorem lifecycle_owner (x : Option PendingExit) :
    Owner (lifecycle S) (fun _ p => At S w₀ (Pends x p)) (fun _ => At S w₀ (Vacant x))
      (fun _ => At S w₀ (Exits x)) where
  persist := by
    intro p q hpq _
    refine (persist_at (g := Pends x q) (some q) ?_ ?_).conseq (fun _ h => h) (fun _ _ h => h)
      (fun _ _ h => At.exits h)
    · exact fun w hw => .rewrite hw.1 hpq
    · exact fun s hs => ⟨rfl, hs.2⟩
  attempt := by
    intro p t _ htried _
    have hpq : p.Follows (p.cancelling t) :=
      { Pending.Follows.refl p with cancelled := fun h => by rw [htried] at h; cases h }
    refine (persist_at (g := Pends x (p.cancelling t)) _ ?_ ?_).conseq (fun _ h => h)
      (fun _ _ h => h) (fun _ _ h => At.exits h)
    · exact fun w hw => .rewrite hw.1 hpq
    · exact fun s hs => ⟨rfl, hs.2⟩
  release := by
    intro p hknown _
    refine (persist_at (g := Vacant x) none ?_ ?_).conseq (fun _ h => h) (fun _ _ h => h)
      (fun _ _ h => ⟨h.1, h.2.2⟩)
    · exact fun w hw => .release hw.1 hknown
    · exact fun s hs => ⟨rfl, hs.2⟩
  orderByClientId := fun p =>
    (ask_some_at (fun _ => rfl)).conseq (fun _ h => h) (fun _ _ h => h) (fun _ _ h => At.exits h)
  orderStatus := fun p orderId =>
    (ask_some_at (fun _ => rfl)).conseq (fun _ h => h) (fun _ _ h => h) (fun _ _ h => At.exits h)
  cancelOrder := fun p orderId =>
    (ask_some_at (fun _ => rfl)).conseq (fun _ h => h) (fun _ _ h => h) (fun _ _ h => At.exits h)
  clock := by
    intro p
    show Triple _ (ask S.venue.time (fun _ => none) >>= fun t => pure (some t)) _ _
    refine Triple.bind (Q := fun _ => At S w₀ (Pends x p)) ?_ (fun t => Triple.pure (fun _ h => h))
    exact ask_none_at.conseq (fun _ h => h) (fun _ _ h => h) (fun _ _ h => At.exits h)
  audit := fun b event p q => Triple.pure (fun _ h => h)
  auditGone := fun event p q => Triple.pure (fun _ h => h)
  raised := fun p e w h => At.exits h

theorem adoptPendingOrder_at (x : Option PendingExit) (p : Intent) :
    Triple (At S w₀ (Pends x p)) (adoptPendingOrder S p) (fun _ => At S w₀ (Exits x))
      (fun _ => At S w₀ (Exits x)) := by
  unfold adoptPendingOrder
  by_cases hknown : p.orderKnown = true
  · rw [if_pos hknown]
    refine Triple.bind (Q := fun _ => At S w₀ (Exits x)) ?_ (fun _ => save_at)
    intro w hw
    exact hw.step (.track hw.2.1 hknown) hw.2.2
  · rw [if_neg hknown]
    exact Triple.pure (fun w hw => At.exits hw)

/-- The payloads that matter are those the lifecycle writes. -/
def Genuine (s : State) : Prop :=
  ∀ p t, s.pendingIntent = some p → p.terminalStatus = some t → t.Real

theorem reconcilePendingSubmit_at (x : Option PendingExit) :
    Triple (At S w₀ (fun s => Genuine s ∧ Exits x s)) (reconcilePendingSubmit S)
      (fun _ => At S w₀ (Exits x)) (fun _ => At S w₀ (Exits x)) := by
  unfold reconcilePendingSubmit
  refine state_at (fun s => ?_)
  cases hp : s.pendingIntent with
  | none => exact Triple.pure (fun w hw => ⟨hw.1.1, hw.1.2.2⟩)
  | some p =>
      by_cases hdry : S.dryRun = true
      · simp only [hdry, if_true]
        exact Triple.pure (fun w hw => ⟨hw.1.1, hw.1.2.2⟩)
      · simp only [hdry, Bool.false_eq_true, if_false]
        -- what came back is still in the slot, or the slot is empty and no order is known
        let Found : Option (Tracked Metadata) → World → Prop := fun result w =>
          At S w₀ (Exits x) w ∧ ∀ r, result = some r → r.intent.orderKnown = true →
            At S w₀ (Pends x r.intent) w
        refine Triple.bind (Q := Found) ?_ (fun result => ?_)
        · refine catching_at ?_ (fun e => Triple.pure (fun w hw => ⟨hw, fun r hr => by cases hr⟩))
          intro w hw
          have hreal : ∀ t, p.terminalStatus = some t → t.Real := by
            intro t ht
            refine hw.1.2.1 p t ?_ ht
            rw [hw.2]
            exact hp
          have hstart : At S w₀ (Pends x p) w := ⟨hw.1.1, by rw [hw.2]; exact hp, hw.1.2.2⟩
          refine Triple.bind (reconcile_triple (lifecycle_owner x) lifecycleSettings p hreal)
            (fun r => Triple.pure (fun w' hr => ?_)) w hstart
          have hstored : r.intent.orderKnown = true → At S w₀ (Pends x r.intent) w' := by
            intro hk
            cases ho : r.outcome with
            | active => exact hr.stored (Or.inl ho)
            | terminal => exact hr.stored (Or.inr ho)
            | absent =>
                rw [(hr.released (Or.inl ho)).1] at hk
                cases hk
            | retryable =>
                rw [(hr.released (Or.inr ho)).1] at hk
                cases hk
            | refused => exact absurd ho hr.outcome
          refine ⟨?_, fun r' hr' hk => by cases hr'; exact hstored hk⟩
          cases ho : r.outcome with
          | active => exact At.exits (hr.stored (Or.inl ho))
          | terminal => exact At.exits (hr.stored (Or.inr ho))
          | absent => exact ⟨(hr.released (Or.inl ho)).2.1, (hr.released (Or.inl ho)).2.2.2⟩
          | retryable => exact ⟨(hr.released (Or.inr ho)).2.1, (hr.released (Or.inr ho)).2.2.2⟩
          | refused => exact absurd ho hr.outcome
        · cases result with
          | none => exact Triple.pure (fun w hw => hw.1)
          | some r =>
              by_cases hk : r.intent.orderKnown = true
              · exact (adoptPendingOrder_at x r.intent).strengthen (fun w hw => hw.2 r rfl hk)
              · show Triple _ (adoptPendingOrder S r.intent) _ _
                unfold adoptPendingOrder
                rw [if_neg hk]
                exact Triple.pure (fun w hw => hw.1)

end Intents

/-! ## Placement -/

section Placement

variable {S : Setup} {w₀ : World} {i : Instruction} {x : Option PendingExit}

/-- Neither funds refusals nor the ledger check matter for `f`. -/
theorem recordPlacementBackoff_at (side : Side) (kind : Kind) :
    Keeps (At S w₀ (Exits x)) (recordPlacementBackoff S side kind) := by
  unfold recordPlacementBackoff
  refine Keeps.bind ask_none_at (fun t => ?_)
  exact Keeps.bind (note_at (by intro s; rfl) (by intro s hs; exact hs)) (fun _ => save_at)

theorem clearPlacementBackoff_at {f : State → Prop}
    (hf : ∀ s b, f s → f { s with placementBackoffs := b }) (side : Side) (kind : Kind) :
    Keeps (At S w₀ f) (clearPlacementBackoff side kind) :=
  note_at (by intro s; rfl) (fun s hs => hf s _ hs)

theorem persist_none_at (p : Intent) (hknown : p.orderKnown = false) :
    Triple (At S w₀ (Pends x p)) (persistPendingIntent S none) (fun _ => At S w₀ (Exits x))
      (fun _ => At S w₀ (Exits x)) := by
  refine persist_at (g := Exits x) none ?_ ?_
  · exact fun w hw => .release hw.1 hknown
  · exact fun s hs => hs.2

theorem afterSubmit_at (r : Tracked Metadata) (intent : Intent) :
    Triple (Submitted (fun _ p => At S w₀ (Pends x p)) intent r) (afterSubmit S i r)
      (fun _ => At S w₀ (Exits x)) (fun _ => At S w₀ (Exits x)) := by
  unfold afterSubmit
  by_cases hknown : r.intent.orderKnown = true
  · rw [if_pos hknown]
    refine Triple.strengthen (P := At S w₀ (Pends x r.intent)) ?_ (fun w hr => hr.stored)
    refine Triple.bind (Q := fun _ => At S w₀ (Pends x r.intent)) ?_ (fun _ => ?_)
    · exact (clearPlacementBackoff_at (fun s b hs => hs) _ _).conseq (fun _ h => h)
        (fun _ _ h => h) (fun _ _ h => At.exits h)
    · refine Triple.bind (adoptPendingOrder_at x r.intent) (fun _ => ?_)
      exact Triple.pure (fun w hw => hw)
  · rw [if_neg hknown]
    have hunknown : r.intent.orderKnown = false := by simpa using hknown
    cases ho : r.outcome with
    | refused =>
        refine Triple.strengthen (P := At S w₀ (Pends x r.intent)) ?_ (fun w hr => hr.stored)
        refine Triple.bind (persist_none_at r.intent hunknown) (fun _ => ?_)
        split
        · exact Keeps.bind (note_at (by intro s; rfl) (by intro s hs; exact hs)) (fun _ =>
            Keeps.bind (recordPlacementBackoff_at _ _) (fun _ => Keeps.pure false))
        · exact Keeps.pure false
    | active | terminal | absent | retryable =>
        refine Triple.strengthen (P := At S w₀ (Exits x)) ?_ (fun w hr => At.exits hr.stored)
        dsimp only
        split
        · exact Keeps.bind (recordPlacementBackoff_at _ _) (fun _ => Keeps.pure false)
        · exact Keeps.pure false

/-- The slot is free and the checks on the instruction hold. -/
structure Ready (S : Setup) (i : Instruction) (x : Option PendingExit) (s : State) : Prop where
  free : s.pendingIntent = none
  placing : Placing S s i
  exits : s.pendingExit = x

theorem Ready.of_at {w : World} (h : At S w₀ (Ready S i x) w) : At S w₀ (Exits x) w :=
  ⟨h.1, h.2.exits⟩

theorem newIntent_at {f : State → Prop} (a : NewIntent Metadata) :
    Triple (At S w₀ f) (newIntent (lifecycle S) a)
      (fun p w => (∃ t, p = a.record t) ∧ At S w₀ f w) (fun _ => At S w₀ f) := by
  unfold newIntent now
  refine Triple.bind (Q := fun _ => At S w₀ f) ?_ (fun t => ?_)
  · refine Triple.bind (Q := fun _ => At S w₀ f) ?_ (fun raw => ?_)
    · show Triple _ (ask S.venue.time (fun _ => none) >>= fun t => pure (some t)) _ _
      exact Triple.bind ask_none_at (fun t => Triple.pure (fun _ h => h))
    · cases Raw.positive raw with
      | some t => exact Triple.pure (fun _ h => h)
      | none => exact Triple.throw (fun _ h => h)
  · refine Triple.bind (Q := fun _ => At S w₀ f) ?_ (fun _ => ?_)
    · exact orRaise_triple (fun _ w _ hw => hw) (fun e w _ hw => hw)
    · split
      · exact Triple.throw (fun _ h => h)
      · exact Triple.pure (fun w hw => ⟨⟨t, rfl⟩, hw⟩)

/-- The state is the one that was read until the intent is written. -/
def Here (S : Setup) (i : Instruction) (x : Option PendingExit) (s s' : State) : Prop :=
  s' = s ∧ Ready S i x s'

/-- The intent is written, and not submitted yet. -/
structure Running (S : Setup) (i : Instruction) (x : Option PendingExit) (cycle : Nat)
    (clientOrderId : String) (p : Intent) (s : State) : Prop where
  pending : s.pendingIntent = some p
  cycle : s.cycle = cycle
  placed : Placed S s i clientOrderId
  exits : s.pendingExit = x

section Submission

variable {s : State} {clientOrderId : String} {p : Intent}

theorem intended_at (hplaced : ∀ s', Here S i x s s' → Placed S s' i clientOrderId) :
    Triple (At S w₀ (Here S i x s))
      (mark (.intended ((i.rounded S).submission S s.cycle clientOrderId)))
      (fun _ => At S w₀ (Here S i x s)) (fun _ => At S w₀ (Exits x)) := by
  intro w hw
  have hmove := Move.intended hw.2.2.free (hplaced w.s hw.2)
  rw [show w.s.cycle = s.cycle from congrArg State.cycle hw.2.1] at hmove
  exact ⟨hw.1.tail hmove, hw.2⟩

theorem pend_at (hplaced : ∀ s', Here S i x s s' → Placed S s' i clientOrderId)
    (hp : ∃ t, p = i.intent S s.cycle clientOrderId t) :
    Triple (At S w₀ (Here S i x s)) (persistPendingIntent S (some p))
      (fun _ => At S w₀ (Running S i x s.cycle clientOrderId p)) (fun _ => At S w₀ (Exits x)) := by
  refine (persist_at (g := Running S i x s.cycle clientOrderId p) (some p) ?_ ?_).conseq
    (fun _ h => h) (fun _ _ h => h) (fun _ _ h => ⟨h.1, h.2.exits⟩)
  · intro w hw
    have hcycle : w.s.cycle = s.cycle := congrArg State.cycle hw.1
    rw [← hcycle] at hp
    exact Move.pend hp hw.2.free (hplaced w.s hw)
  · intro s' hs'
    have hplaced' := hplaced s' hs'
    have hcycle : s'.cycle = s.cycle := congrArg State.cycle hs'.1
    exact ⟨rfl, hcycle, ⟨hplaced'.live,
      hplaced'.placing.congr rfl rfl rfl rfl rfl, hplaced'.size, hplaced'.client⟩, hs'.2.exits⟩

theorem submitCall_at {cycle : Nat} (hp : ∃ t, p = i.intent S cycle clientOrderId t) :
    Triple (At S w₀ (Running S i x cycle clientOrderId p))
      (ask S.venue.submit
        (fun a => some (.submit ((i.rounded S).submission S cycle clientOrderId) a)))
      (fun _ => At S w₀ (Pends x p)) (fun _ => At S w₀ (Exits x)) := by
  intro w hw
  have hrun := hw.2
  have hmove : ∀ a, Move S w { w with
      calls := w.calls + 1
      log := ⟨w.s, w.saved, .submit ((i.rounded S).submission S cycle clientOrderId) a⟩ ::
        w.log } := by
    intro a
    have hp' : ∃ t, p = i.intent S w.s.cycle clientOrderId t := by rwa [hrun.cycle]
    have h := Move.submit a hp' hrun.pending hrun.placed
    rw [hrun.cycle] at h
    exact h
  unfold ask
  cases ha : S.venue.submit w.calls with
  | ok a => exact ⟨hw.1.tail (hmove _), hrun.pending, hrun.exits⟩
  | error e => exact ⟨hw.1.tail (hmove _), hrun.exits⟩

theorem submitIntent_at (hplaced : ∀ s', Here S i x s s' → Placed S s' i clientOrderId)
    (hp : ∃ t, p = i.intent S s.cycle clientOrderId t) :
    Triple (At S w₀ (Here S i x s)) (submitIntent S (i.rounded S) s.cycle clientOrderId p)
      (fun _ => At S w₀ (Exits x)) (fun _ => At S w₀ (Exits x)) := by
  have hunknown : p.orderKnown = false := by
    obtain ⟨t, ht⟩ := hp
    rw [ht]
    exact i.intent_unknown S s.cycle clientOrderId t
  unfold submitIntent
  refine Triple.bind (intended_at hplaced) (fun _ => ?_)
  have haudit : Triple (At S w₀ (Running S i x s.cycle clientOrderId p))
      ((lifecycle S).audit .submitRequested p)
      (fun _ => At S w₀ (Running S i x s.cycle clientOrderId p)) (fun _ => At S w₀ (Exits x)) :=
    Triple.pure (fun _ h => h)
  have hsubmit := submit_triple (lifecycle_owner x) hunknown (fun _ => pend_at hplaced hp) haudit
    (submitCall_at hp) (fun e w hw => ⟨hw.1, hw.2.2.exits⟩)
  exact Triple.bind hsubmit (fun r => afterSubmit_at r p)

end Submission

theorem placeLive_at (hlive : S.dryRun = false)
    (hsize : tooSmall S (i.rounded S).vol = false) :
    Triple (At S w₀ (Ready S i x)) (placeLive S (i.rounded S)) (fun _ => At S w₀ (Exits x))
      (fun _ => At S w₀ (Exits x)) := by
  unfold placeLive
  refine Triple.bind (Q := fun _ => At S w₀ (Ready S i x)) ?_ (fun answer => ?_)
  · exact ask_none_at.conseq (fun _ h => h) (fun _ _ h => h) (fun _ _ h => Ready.of_at h)
  refine Triple.bind (Q := fun _ => At S w₀ (Ready S i x)) ?_ (fun _ => ?_)
  · cases answer with
    | ok a => exact Triple.pure (fun _ h => h)
    | error e => exact raise_at e (fun s hs => hs.exits)
  refine state_at (fun s => ?_)
  cases hclient : intentClientOrderId S.digest S.venueLabel (intentIdentity S s.cycle
      (i.rounded S).side (i.rounded S).kind (i.rounded S).vol (i.rounded S).price) with
  | none =>
      refine Triple.strengthen (P := At S w₀ (Ready S i x)) ?_ (fun w hw => hw.1)
      exact raise_at _ (fun s hs => hs.exits)
  | some clientOrderId =>
      have hplaced : ∀ s', Here S i x s s' → Placed S s' i clientOrderId := by
        intro s' hs'
        refine ⟨hlive, hs'.2.placing, hsize, ?_⟩
        rw [hs'.1]
        exact hclient
      refine Triple.strengthen (P := At S w₀ (Here S i x s)) ?_
        (fun w hw => ⟨hw.1.1, hw.2, hw.1.2⟩)
      let a := (i.rounded S).newIntent S s.cycle clientOrderId
      have hnew : Triple (At S w₀ (Here S i x s)) (newIntent (lifecycle S) a)
          (fun p w => (∃ t, p = a.record t) ∧ At S w₀ (Here S i x s) w)
          (fun _ => At S w₀ (Here S i x s)) := newIntent_at a
      refine Triple.bind (hnew.conseq (fun _ h => h) (fun _ _ h => h)
        (fun _ _ h => ⟨h.1, h.2.2.exits⟩)) (fun intent => ?_)
      exact Triple.of_fact (fun hintent => submitIntent_at hplaced hintent)

theorem placeRounded_at (hsize : tooSmall S (i.rounded S).vol = false) :
    Triple (At S w₀ (fun s => Placing S s i ∧ Exits x s)) (placeRounded S (i.rounded S))
      (fun _ => At S w₀ (Exits x)) (fun _ => At S w₀ (Exits x)) := by
  unfold placeRounded
  refine state_at (fun s => ?_)
  by_cases hdry : S.dryRun = true
  · simp only [hdry, if_true]
    refine Triple.strengthen (P := At S w₀ (fun s => Placing S s i ∧ Exits x s)) ?_
      (fun w hw => hw.1)
    unfold placePaper
    refine Triple.bind (Q := fun _ => At S w₀ (fun s => Placing S s i ∧ Exits x s)) ?_
      (fun t => ?_)
    · exact ask_none_at.conseq (fun _ h => h) (fun _ _ h => h) (fun _ _ h => ⟨h.1, h.2.2⟩)
    · refine Triple.bind (Q := fun _ => At S w₀ (Exits x)) ?_ (fun _ => Keeps.pure true)
      intro w hw
      exact ⟨hw.1.tail (.paperPlaced t hdry hsize hw.2.1), hw.2.2⟩
  · simp only [hdry, Bool.false_eq_true, if_false]
    have hlive : S.dryRun = false := by simpa using hdry
    by_cases hpending : s.pendingIntent.isSome = true
    · simp only [hpending, if_true]
      exact Triple.pure (fun w hw => ⟨hw.1.1, hw.1.2.2⟩)
    · simp only [hpending, Bool.false_eq_true, if_false]
      refine Triple.strengthen (P := At S w₀ (Ready S i x)) ?_ ?_
      · refine catching_at (placeLive_at hlive hsize) (fun e => ?_)
        refine Triple.strengthen (P := At S w₀ (Exits x)) ?_ (fun w hw => hw)
        split
        · exact Keeps.bind (recordPlacementBackoff_at _ _) (fun _ => Keeps.pure false)
        · exact Keeps.pure false
      · intro w hw
        refine ⟨hw.1.1, ?_, hw.1.2.1, hw.1.2.2⟩
        rw [hw.2]
        simpa using hpending

/-- `_place`: with its checks made, an instruction becomes an intent, an order or nothing, and
the exit stays as it is. -/
theorem place_at : Triple (At S w₀ (fun s => Placing S s i ∧ Exits x s)) (place S i)
    (fun _ => At S w₀ (Exits x)) (fun _ => At S w₀ (Exits x)) := by
  unfold place
  refine state_at (fun s => ?_)
  refine Triple.strengthen (P := At S w₀ (fun s => Placing S s i ∧ Exits x s)) ?_ (fun w hw => hw.1)
  by_cases hsize : tooSmall S (i.rounded S).vol = true
  · simp only [hsize, if_true]
    exact Triple.pure (fun w hw => ⟨hw.1, hw.2.2⟩)
  · simp only [hsize, Bool.false_eq_true, if_false]
    have hsize' : tooSmall S (i.rounded S).vol = false := by simpa using hsize
    split
    · exact Triple.pure (fun w hw => ⟨hw.1, hw.2.2⟩)
    · split
      · exact placeRounded_at hsize'
      · unfold inBackoff
        refine Triple.bind (Q := fun _ => At S w₀ (fun s => Placing S s i ∧ Exits x s)) ?_
          (fun waiting => ?_)
        · refine Triple.bind (Q := fun _ => At S w₀ (fun s => Placing S s i ∧ Exits x s)) ?_
            (fun t => ?_)
          · exact ask_none_at.conseq (fun _ h => h) (fun _ _ h => h) (fun _ _ h => ⟨h.1, h.2.2⟩)
          · exact state_at (fun s => Triple.pure (fun w hw => hw.1))
        · split
          · exact Triple.pure (fun w hw => ⟨hw.1, hw.2.2⟩)
          · exact placeRounded_at hsize'

end Placement

end TradingFleet.SpotDca
