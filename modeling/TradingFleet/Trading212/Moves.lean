import Mathlib.Logic.Relation
import TradingFleet.Trading212.Step

set_option autoImplicit false

/-! # Trading 212: what a live tick does, move by move

A tick is a walk of elementary moves. Each constructor of `Move` says under which condition the
code makes the change; what every move keeps, every run keeps.
-/

namespace TradingFleet.Trading212

open TradingFleet.Text hiding orElse
open TradingFleet.Lifecycle TradingFleet.Hoare
open TradingFleet.Keyed (updateFirst)
open TradingFleet.Rounding (roundTo)

/-! ## Moves -/

/-- `o'` is `o` with other marks. -/
structure Order.Marked (o o' : Order) : Prop where
  id : o'.id = o.id
  side : o'.side = o.side
  qty : o'.qty = o.qty
  level : o'.level = o.level
  kind : o'.kind = o.kind
  intentId : o'.intentId = o.intentId
  applied : 0 ≤ o.appliedFillQty → 0 ≤ o'.appliedFillQty

/-- Which SELLs the decisions ask for. A rung of the ladder is computed from the position at the
beginning of the pass; when nothing is held any more, nothing is said about it. -/
inductive SellRule (S : Setup) (s : State) (p : Pending) : Prop
  | takeProfit (hkind : p.kind = .tp) (hlevel : p.level = none) (hqty : p.qty = roundTo s.qty 2)
      (hfree : ∀ o ∈ s.orders, o.side ≠ .sell)
  | rung (level : ℚ) (hkind : p.kind = .tp) (hlevel : p.level = some level)
      (hother : ∀ o ∈ s.orders, o.side = .sell → o.level ≠ some level)
      (hshare : flatQty < s.qty → ∃ avg limit, s.avgCost = some avg ∧
        (level, p.qty, limit) ∈ ladderDesired S.params s s.qty avg)
  | exit (hkind : p.kind = .tr ∨ p.kind = .sl) (hlevel : p.level = none)
      (hqty : p.qty = roundTo s.qty 2)

def Placing (S : Setup) (s : State) (p : Pending) : Prop := p.side = .sell → SellRule S s p

/-- The rules look at four fields only. -/
theorem SellRule.congr {S : Setup} {s s' : State} {p : Pending} (h : SellRule S s p)
    (horders : s'.orders = s.orders) (hqty : s'.qty = s.qty) (hcost : s'.costUsd = s.costUsd)
    (hsold : s'.tpSoldLevels = s.tpSoldLevels) : SellRule S s' p := by
  have havg : s'.avgCost = s.avgCost := by
    unfold State.avgCost
    rw [hqty, hcost]
  have hladder : ∀ held avg, ladderDesired S.params s' held avg =
      ladderDesired S.params s held avg := by
    intro held avg
    unfold ladderDesired unsoldLevels
    rw [hsold]
  cases h with
  | takeProfit hkind hlevel hq hfree =>
      exact .takeProfit hkind hlevel (by rw [hq, hqty]) (by rwa [horders])
  | rung level hkind hlevel hother hshare =>
      refine .rung level hkind hlevel (by rwa [horders]) (fun hheld => ?_)
      rw [hqty] at hheld
      obtain ⟨avg, limit, havg', hmem⟩ := hshare hheld
      exact ⟨avg, limit, havg.trans havg', by rwa [hladder, hqty]⟩
  | exit hkind hlevel hq => exact .exit hkind hlevel (by rw [hq, hqty])

/-- Nothing about tracking or re-entry changes. -/
def SameTracking (s s' : State) : Prop :=
  (s'.orders, s'.pendingSubmit, s'.slPending, s'.slRebuy) =
    (s.orders, s.pendingSubmit, s.slPending, s.slRebuy)

/-- Calls that decide nothing about tracking by themselves. -/
def Event.quiet : Event → Bool
  | .orderStatus _ _ => true
  | .cancelOrder _ _ => true
  | _ => false

/-- From these on an intent may be tracked that was not tracked before. -/
def Event.entering : Event → Bool
  | .tick _ => true
  | .submit _ _ => true
  | .adopted _ _ => true
  | _ => false

theorem Event.entering_of_quiet {e : Event} (h : e.quiet = true) : e.entering = false := by
  cases e with
  | orderStatus o answer => rfl
  | cancelOrder o answer => rfl
  | tick saved => cases h
  | submit p outcome => cases h
  | adopted p orderId => cases h
  | absent p => cases h
  | filled p => cases h
  | unexplained => cases h
  | closed => cases h
  | ownedZero => cases h
  | restarted => cases h

def Paper (id : String) : Prop := startsWith id "PAPER" = true

instance (id : String) : Decidable (Paper id) := inferInstanceAs (Decidable (_ = true))

/-- A terminal status for the order ID of `o` was reported while `o` was tracked. -/
def Entry.Settles (e : Entry) (o : Order) : Prop :=
  ∃ o' status, e.event = .orderStatus o' (.ok status) ∧ status.status.terminal = true ∧
    o'.id = o.id ∧ ∃ o'' ∈ e.before.orders, o''.id = o.id ∧ o''.intentId = o.intentId

/-- One elementary change. -/
inductive Move (S : Setup) : World → World → Prop
  | note {w : World} {s' : State} (h : SameTracking w.s s') : Move S w { w with s := s' }
  | called {w : World} (n : Nat) (gate : ℚ) :
      Move S w { w with calls := n, dcaGateUntil := gate }
  | began {w : World} : Move S w { w with log := ⟨w.s, .tick w.saved⟩ :: w.log }
  | saved {w : World} : Move S w { w with saved := w.s, writeFailed := false }
  | saveFailed {w : World} : Move S w { w with writeFailed := true }
  | logged {w : World} (e : Event) (h : e.quiet = true) :
      Move S w { w with log := ⟨w.s, e⟩ :: w.log }
  | pended {w : World} {p : Pending} (hfree : w.s.pendingSubmit = none) (h : Placing S w.s p) :
      Move S w { w with
        s := { w.s with pendingSubmit := some p }
        saved := { w.s with pendingSubmit := some p }
        writeFailed := false }
  | pendFailed {w : World} {p : Pending} (hfree : w.s.pendingSubmit = none)
      (h : Placing S w.s p) :
      Move S w { w with s := { w.s with pendingSubmit := some p }, writeFailed := true }
  | submitted {w : World} {p : Pending} {outcome : SubmissionOutcome}
      (hp : w.s.pendingSubmit = some p) (hsaved : w.writeFailed = false) (h : Placing S w.s p) :
      Move S w { w with log := ⟨w.s, .submit p outcome⟩ :: w.log }
  | refused {w : World} {p : Pending} {outcome : SubmissionOutcome}
      (hp : w.s.pendingSubmit = some p) (h : Placing S w.s p)
      (hrefused : outcome.state = .refused) :
      Move S w { w with
        s := { w.s with pendingSubmit := none }
        log := ⟨w.s, .submit p outcome⟩ :: w.log }
  | missed {w : World} {p : Pending} (n : Nat) (hp : w.s.pendingSubmit = some p) :
      Move S w { w with
        s := { w.s with pendingSubmit := some { p with lookupMisses := n } } }
  | adopted {w : World} {p : Pending} (orderId : String) (hp : w.s.pendingSubmit = some p)
      (hsaved : w.writeFailed = false) (hid : ¬ Paper orderId) :
      Move S w { w with
        s := { w.s with orders := w.s.orders ++ [p.order orderId], pendingSubmit := none }
        log := ⟨w.s, .adopted p orderId⟩ :: w.log }
  | absent {w : World} {p : Pending} (hp : w.s.pendingSubmit = some p) :
      Move S w { w with
        s := { w.s with pendingSubmit := none }, log := ⟨w.s, .absent p⟩ :: w.log }
  | filled {w : World} {p : Pending} (hp : w.s.pendingSubmit = some p) :
      Move S w { w with
        s := { w.s with pendingSubmit := none }, log := ⟨w.s, .filled p⟩ :: w.log }
  | unexplained {w : World} :
      Move S w { w with
        s := { w.s with pendingSubmit := none }, log := ⟨w.s, .unexplained⟩ :: w.log }
  | marked {w : World} {o o' : Order} (h : o.Marked o') :
      Move S w { w with s := w.s.replaceOrder o o' }
  | swept {w : World} {o : Order} {after older : List Entry} {e : Entry} (ho : o ∈ w.s.orders)
      (hlog : w.log = after ++ e :: older) (hafter : ∀ a ∈ after, a.event.entering = false)
      (h : e.Settles o) :
      Move S w { w with s := w.s.removeOrder o }
  | closed {w : World} (price : ℚ) :
      Move S w { w with
        s := w.s.nextCycle S.params price, log := ⟨w.s, .closed⟩ :: w.log }
  | ownedZero {w : World} (t : ℚ) :
      Move S w { w with s := w.s.ownedZero t, log := ⟨w.s, .ownedZero⟩ :: w.log }
  | protecting {w : World} : Move S w { w with s := { w.s with slPending := true } }
  | recovered {w : World} : Move S w { w with s := { w.s with slPending := false } }
  | rebuy {w : World} (r : Option SlRebuy) :
      Move S w { w with s := { w.s with slRebuy := r } }

/-- Any number of moves. -/
abbrev Walks (S : Setup) : World → World → Prop :=
  Relation.ReflTransGen (Move S)

theorem Walks.invariant {S : Setup} {I : World → Prop}
    (hI : ∀ w w', Move S w w' → I w → I w') {w w' : World} (h : Walks S w w')
    (hw : I w) : I w' := by
  induction h with
  | refl => exact hw
  | tail _ hmove ih => exact hI _ _ hmove ih

/-- The order IDs of the venue are its own. -/
structure VenueIds (S : Setup) : Prop where
  submit : ∀ n answer id, S.venue.submit n = .ok answer →
    (captureSubmission answer).orderId = some id → ¬ Paper id
  active : ∀ n orders, S.venue.activeOrders n = .ok (some orders) → ∀ a ∈ orders, ∀ id,
    a.id = some id → ¬ Paper id

/-- No order was placed on paper. -/
def World.Live (w : World) : Prop :=
  (∀ o ∈ w.s.orders, ¬ Paper o.id) ∧ ∀ o ∈ w.saved.orders, ¬ Paper o.id

end TradingFleet.Trading212
