import Mathlib.Algebra.Order.BigOperators.Group.List
import TradingFleet.SpotDca.Tranches
import TradingFleet.SpotDca.Moves

set_option autoImplicit false

/-! # What placing the take-profit orders offers for sale

Whatever the venue answers, one call of `_place` offers an instruction at most once, and not at
all when its own checks refuse it (`place_offers`). So the take-profit of a tick offers at most
the orders of the plan that pass these checks (`classicTakeProfit_offers`). In paper mode it
offers exactly these, and they are the orders that stand afterwards (`classicTakeProfit_paper`).
-/

namespace TradingFleet.SpotDca

open TradingFleet.Hoare TradingFleet.Lifecycle
open TradingFleet.Rounding (roundTo)

/-! ## The offered volume -/

/-- What an event offers for sale. -/
def Event.sellVol : Event → ℚ
  | .intended order => if order.side = .sell then order.vol else 0
  | .placed order => if order.side = .sell then order.vol else 0
  | _ => 0

/-- What was offered for sale so far. -/
def World.offered (w : World) : ℚ := (w.log.map (fun e => e.event.sellVol)).sum

/-- The position is still the one of `s`, and at most `t` was offered. -/
structure Offering (t : ℚ) (s : State) (w : World) : Prop where
  qty : w.s.qty = s.qty
  cost : w.s.cost = s.cost
  offered : w.offered ≤ t

theorem Offering.mono {t t' : ℚ} {s : State} {w : World} (h : Offering t s w) (ht : t ≤ t') :
    Offering t' s w :=
  ⟨h.qty, h.cost, h.offered.trans ht⟩

theorem Offering.avg {t : ℚ} {s : State} {w : World} (h : Offering t s w) : w.s.avg = s.avg := by
  unfold State.avg
  rw [h.qty, h.cost]

theorem offered_cons {w w' : World} {e : Entry} (h : w'.log = e :: w.log) :
    w'.offered = e.event.sellVol + w.offered := by
  unfold World.offered
  rw [h, List.map_cons, List.sum_cons]

section Calls

variable {S : Setup} {t : ℚ} {s : State}

theorem ask_offers {α : Type} {answer : Nat → Except Stop α}
    {event : Except Stop α → Option Event} (h : ∀ a, (event a).all (fun e => e.sellVol = 0)) :
    Keeps (Offering t s) (ask answer event) := by
  intro w hw
  have hsame : Offering t s { w with
      calls := w.calls + 1
      log := ((event (answer w.calls)).map (fun e => ⟨w.s, w.saved, e⟩)).toList ++ w.log } := by
    refine ⟨hw.qty, hw.cost, ?_⟩
    have hevent := h (answer w.calls)
    cases he : event (answer w.calls) with
    | none => exact hw.offered
    | some e =>
        rw [he] at hevent
        have hzero : e.sellVol = 0 := by simpa using hevent
        refine le_of_eq_of_le (offered_cons (w := w) rfl) ?_
        show e.sellVol + w.offered ≤ t
        rw [hzero, zero_add]
        exact hw.offered
  unfold ask
  cases ha : answer w.calls with
  | ok x =>
      rw [ha] at hsame
      exact hsame
  | error e =>
      rw [ha] at hsame
      exact hsame

theorem ask_none_offers {α : Type} {answer : Nat → Except Stop α} :
    Keeps (Offering t s) (ask answer (fun _ => none)) :=
  ask_offers (fun _ => rfl)

theorem state_offers : Keeps (Offering t s) state := fun _ hw => hw

theorem update_offers {f : State → State} (hqty : ∀ s, (f s).qty = s.qty)
    (hcost : ∀ s, (f s).cost = s.cost) : Keeps (Offering t s) (update f) :=
  fun w hw => ⟨(hqty w.s).trans hw.qty, (hcost w.s).trans hw.cost, hw.offered⟩

theorem save_offers : Keeps (Offering t s) (save S) := by
  intro w hw
  unfold save
  cases S.venue.save w.calls with
  | stored => exact ⟨hw.qty, hw.cost, hw.offered⟩
  | failed =>
      dsimp only
      split
      · exact ⟨hw.qty, hw.cost, hw.offered⟩
      · exact ⟨hw.qty, hw.cost, hw.offered⟩
  | crashed replaced =>
      cases replaced with
      | false => exact ⟨hw.qty, hw.cost, hw.offered⟩
      | true => exact ⟨hw.qty, hw.cost, hw.offered⟩

theorem persist_offers (p : Option Intent) : Keeps (Offering t s) (persistPendingIntent S p) := by
  unfold persistPendingIntent
  refine Keeps.bind (update_offers (fun _ => rfl) (fun _ => rfl)) (fun _ => ?_)
  refine Keeps.bind save_offers (fun _ => ?_)
  intro w hw
  show Post _ _ ((if w.writeFailed then raise _ else pure ()) w)
  split
  · exact hw
  · exact hw

theorem recordPlacementBackoff_offers (side : Side) (kind : Kind) :
    Keeps (Offering t s) (recordPlacementBackoff S side kind) := by
  unfold recordPlacementBackoff
  refine Keeps.bind ask_none_offers (fun _ => ?_)
  exact Keeps.bind (update_offers (fun _ => rfl) (fun _ => rfl)) (fun _ => save_offers)

theorem adoptPendingOrder_offers (p : Intent) : Keeps (Offering t s) (adoptPendingOrder S p) := by
  unfold adoptPendingOrder
  split
  · refine Keeps.bind ?_ (fun _ => save_offers)
    intro w hw
    refine ⟨hw.qty, hw.cost, le_of_eq_of_le (offered_cons (w := w) rfl) ?_⟩
    show 0 + w.offered ≤ t
    rw [zero_add]
    exact hw.offered
  · exact Keeps.pure ()

theorem afterSubmit_offers (i : Instruction) (r : Tracked Metadata) :
    Keeps (Offering t s) (afterSubmit S i r) := by
  have hrecord : ∀ c : Bool, Keeps (Offering t s) (if c then do
      recordPlacementBackoff S i.side i.kind
      pure false
    else pure false) := by
    intro c
    split
    · exact Keeps.bind (recordPlacementBackoff_offers _ _) (fun _ => Keeps.pure false)
    · exact Keeps.pure false
  unfold afterSubmit
  split
  · refine Keeps.bind (update_offers (fun _ => rfl) (fun _ => rfl)) (fun _ => ?_)
    exact Keeps.bind (adoptPendingOrder_offers _) (fun _ => Keeps.pure true)
  · cases r.outcome with
    | refused =>
        refine Keeps.bind (persist_offers none) (fun _ => ?_)
        split
        · exact Keeps.bind (update_offers (fun _ => rfl) (fun _ => rfl)) (fun _ =>
            Keeps.bind (recordPlacementBackoff_offers _ _) (fun _ => Keeps.pure false))
        · exact Keeps.pure false
    | active | terminal | absent | retryable => exact hrecord _

/-- A program after one that offered more. -/
theorem offered_bind {t' : ℚ} {α β : Type} {x : DcaM α} {f : α → DcaM β}
    (hx : Triple (Offering t s) x (fun _ => Offering t' s) (fun _ => Offering t' s))
    (hf : ∀ a, Keeps (Offering t' s) (f a)) :
    Triple (Offering t s) (x >>= f) (fun _ => Offering t' s) (fun _ => Offering t' s) :=
  Triple.bind hx hf

/-- A program before one that offers more. -/
theorem bind_offered {t' : ℚ} (ht : t ≤ t') {α β : Type} {x : DcaM α} {f : α → DcaM β}
    (hx : Keeps (Offering t s) x)
    (hf : ∀ a, Triple (Offering t s) (f a) (fun _ => Offering t' s) (fun _ => Offering t' s)) :
    Triple (Offering t s) (x >>= f) (fun _ => Offering t' s) (fun _ => Offering t' s) :=
  Triple.bind (hx.conseq (fun _ h => h) (fun _ _ h => h) (fun _ _ h => h.mono ht)) hf

end Calls

/-! ## One placement -/

/-- What an instruction offers for sale when it is placed. -/
def Instruction.sellVol (i : Instruction) : ℚ := if i.side = .sell then i.vol else 0

section Placement

variable {S : Setup} {t : ℚ} {s : State} {i : Instruction}

theorem submitIntent_offers (cycle : Nat) (clientOrderId : String) (intent : Intent) :
    Triple (Offering t s) (submitIntent S i cycle clientOrderId intent)
      (fun _ => Offering (t + i.sellVol) s) (fun _ => Offering (t + i.sellVol) s) := by
  unfold submitIntent
  refine offered_bind ?_ (fun _ => Keeps.bind ?_ (fun r => afterSubmit_offers i r))
  · intro w hw
    refine ⟨hw.qty, hw.cost, le_of_eq_of_le (offered_cons (w := w) rfl) ?_⟩
    have hle := hw.offered
    show i.sellVol + w.offered ≤ t + i.sellVol
    linarith
  · exact submit_keeps (fun p => persist_offers p) (fun _ _ => Keeps.pure ())
      (ask_offers (fun _ => by simp [Event.sellVol])) intent

variable (hi : 0 ≤ i.sellVol)

include hi

theorem placeLive_offers :
    Triple (Offering t s) (placeLive S i) (fun _ => Offering (t + i.sellVol) s)
      (fun _ => Offering (t + i.sellVol) s) := by
  have hle : t ≤ t + i.sellVol := le_add_of_nonneg_right hi
  unfold placeLive
  refine bind_offered hle ask_none_offers (fun answer => ?_)
  refine bind_offered hle ?_ (fun _ => ?_)
  · cases answer with
    | ok a => exact Keeps.pure a
    | error e => exact Keeps.throw _
  · refine bind_offered hle state_offers (fun s' => ?_)
    split
    · exact fun w hw => hw.mono hle
    · refine bind_offered hle (newIntent_keeps ?_ _) (fun intent => submitIntent_offers _ _ intent)
      exact Keeps.bind ask_none_offers (fun t => Keeps.pure _)

theorem placeRounded_offers :
    Triple (Offering t s) (placeRounded S i) (fun _ => Offering (t + i.sellVol) s)
      (fun _ => Offering (t + i.sellVol) s) := by
  have hle : t ≤ t + i.sellVol := le_add_of_nonneg_right hi
  unfold placeRounded
  refine bind_offered hle state_offers (fun s' => ?_)
  split
  · unfold placePaper
    refine bind_offered hle ask_none_offers (fun t' => offered_bind ?_ (fun _ => Keeps.pure true))
    intro w hw
    refine ⟨hw.qty, hw.cost, le_of_eq_of_le (offered_cons (w := w) rfl) ?_⟩
    have hoffered := hw.offered
    show i.sellVol + w.offered ≤ t + i.sellVol
    linarith
  · split
    · exact fun w hw => hw.mono hle
    · refine catching_at (placeLive_offers hi) (fun e => ?_)
      split
      · exact Keeps.bind (recordPlacementBackoff_offers _ _) (fun _ => Keeps.pure false)
      · exact Keeps.pure false

end Placement

/-- The instruction for a planned take-profit order. -/
def sellOf (d : ℚ × ℚ) : Instruction := { side := .sell, vol := d.2, price := d.1, kind := .tp }

section Checks

variable {S : Setup} {s s' : State} {d : ℚ × ℚ}

/-- The checks `_place` makes on a planned order. -/
theorem passes_eq (havg : s'.avg = s.avg) (hd : roundTo d.1 S.precision.priceDecimals = d.1) :
    passes S s d = (!tooSmall S ((sellOf d).rounded S).vol &&
      !belowCost s' ((sellOf d).rounded S)) := by
  have hcost : belowCost s' ((sellOf d).rounded S) =
      s.avg.any (fun a => Rounding.double d.1 < Rounding.double a) := by
    unfold belowCost Instruction.rounded sellOf
    rw [havg]
    simp [hd]
  rw [hcost]
  rfl

/-- What the checks refuse leaves no trace. -/
theorem place_refused {w : World} (havg : w.s.avg = s.avg)
    (hd : roundTo d.1 S.precision.priceDecimals = d.1) (h : passes S s d = false) :
    place S (sellOf d) w = .ok false w := by
  rw [passes_eq havg hd] at h
  show (if tooSmall S ((sellOf d).rounded S).vol then (pure false : DcaM Bool)
    else if belowCost w.s ((sellOf d).rounded S) then pure false else _) w = _
  by_cases hsize : tooSmall S ((sellOf d).rounded S).vol = true
  · rw [if_pos hsize]
    rfl
  · have hcost : belowCost w.s ((sellOf d).rounded S) = true := by
      rw [Bool.not_eq_true] at hsize
      rw [hsize] at h
      simpa using h
    rw [if_neg hsize, if_pos hcost]
    rfl

/-- **One placement offers a planned order at most once, and only when it passes the checks.** -/
theorem place_offers {t : ℚ} (hd : roundTo d.1 S.precision.priceDecimals = d.1) :
    Triple (Offering t s) (place S (sellOf d))
      (fun _ => Offering (t + if passes S s d then placedVol S d.2 else 0) s)
      (fun _ => Offering (t + if passes S s d then placedVol S d.2 else 0) s) := by
  intro w hw
  cases hpass : passes S s d with
  | false =>
      rw [place_refused hw.avg hd hpass]
      exact hw.mono (by simp)
  | true =>
      have hpos := taken_pos hpass
      have hvol : ((sellOf d).rounded S).sellVol = placedVol S d.2 := rfl
      have hrounded := placeRounded_offers (S := S) (t := t) (s := s) (i := (sellOf d).rounded S)
        (by rw [hvol]; exact hpos.le)
      have hle : t ≤ t + ((sellOf d).rounded S).sellVol := by
        rw [hvol]
        linarith
      show Post (fun _ => Offering (t + placedVol S d.2) s) (fun _ => Offering (t + placedVol S d.2) s)
        (place S (sellOf d) w)
      rw [← hvol]
      refine bind_offered hle state_offers (fun s' => ?_) w hw
      split
      · exact fun w hw => hw.mono hle
      · split
        · exact fun w hw => hw.mono hle
        · split
          · exact hrounded
          · unfold inBackoff
            refine bind_offered hle (Keeps.bind ask_none_offers (fun t' => ?_)) (fun waiting => ?_)
            · exact Keeps.bind state_offers (fun s' => Keeps.pure _)
            · split
              · exact fun w hw => hw.mono hle
              · exact hrounded

end Checks

/-! ## The take-profit of a tick -/

section TakeProfit

variable {S : Setup} {s : State} {desired : List (ℚ × ℚ)}

/-- The volume of the planned orders that pass the checks. -/
def takenVol (S : Setup) (s : State) (desired : List (ℚ × ℚ)) : ℚ :=
  ((takenOrders S s desired).map Prod.snd).sum

theorem takenVol_append (done : List (ℚ × ℚ)) (d : ℚ × ℚ) :
    takenVol S s (done ++ [d]) =
      takenVol S s done + if passes S s d then placedVol S d.2 else 0 := by
  unfold takenVol takenOrders placedOrders
  rw [List.filter_append, List.map_append, List.map_append, List.sum_append]
  congr 1
  cases h : passes S s d with
  | false =>
      rw [List.filter_cons_of_neg (by simp [h])]
      simp
  | true =>
      rw [List.filter_cons_of_pos h]
      simp

theorem takenVol_nonneg (desired : List (ℚ × ℚ)) : 0 ≤ takenVol S s desired := by
  induction desired using List.reverseRecOn with
  | nil => exact le_refl _
  | append_singleton done d ih =>
      rw [takenVol_append]
      split
      · next h =>
          have hpos := taken_pos h
          linarith
      · linarith

theorem takenVol_pos (h : takenOrders S s desired ≠ []) : 0 < takenVol S s desired := by
  obtain ⟨o, rest, hcons⟩ := List.exists_cons_of_ne_nil h
  have hvols : ∀ p ∈ (takenOrders S s desired).map Prod.snd, 0 < p := by
    intro p hp
    obtain ⟨o', ho', rfl⟩ := List.mem_map.mp hp
    obtain ⟨d, hd, rfl⟩ := List.mem_map.mp ho'
    exact taken_pos (List.mem_filter.mp hd).2
  unfold takenVol
  rw [hcons] at hvols ⊢
  rw [List.map_cons, List.sum_cons]
  have hrest : 0 ≤ (rest.map Prod.snd).sum :=
    List.sum_nonneg (fun p hp => (hvols p (by rw [List.map_cons]; exact List.mem_cons_of_mem _ hp)).le)
  have hfirst := hvols o.2 (by simp)
  linarith

theorem placeSells_offers {t : ℚ}
    (hprices : ∀ d ∈ desired, roundTo d.1 S.precision.priceDecimals = d.1) :
    Triple (Offering t s) (placeSells S desired)
      (fun _ => Offering (t + takenVol S s desired) s)
      (fun _ => Offering (t + takenVol S s desired) s) := by
  have hloop := Triple.foldlM (I := fun done (_ : Unit) => Offering (t + takenVol S s done) s)
    (E := fun _ => Offering (t + takenVol S s desired) s)
    (f := fun (_ : Unit) d => do
      let _ ← place S (sellOf d)
      pure ()) (l := desired) ?_ ()
  · refine hloop.strengthen (fun w hw => hw.mono ?_)
    have hnil : takenVol S s [] = 0 := rfl
    rw [hnil, add_zero]
  · intro done d rest _ hl
    have hd : d ∈ desired := by
      rw [hl]
      simp
    have hplace := place_offers (S := S) (s := s) (t := t + takenVol S s done) (hprices d hd)
    rw [add_assoc, ← takenVol_append] at hplace
    have hle : takenVol S s (done ++ [d]) ≤ takenVol S s desired := by
      have hsplit : takenVol S s desired = takenVol S s (done ++ [d]) + takenVol S s rest := by
        rw [hl]
        unfold takenVol takenOrders placedOrders
        rw [show done ++ d :: rest = (done ++ [d]) ++ rest by simp, List.filter_append,
          List.map_append, List.map_append, List.sum_append]
      have hrest := takenVol_nonneg (S := S) (s := s) rest
      linarith
    refine Triple.bind (hplace.conseq (fun _ h => h) (fun _ _ h => h) (fun _ _ h => h.mono ?_))
      (fun _ => Triple.pure (fun _ h => h))
    linarith

theorem cancelOrders_offers {t : ℚ} (side : Option Side) (excludeMarket : Bool) :
    Keeps (Offering t s) (cancelOrders S side excludeMarket) := by
  have hone : ∀ o, Keeps (Offering t s) (cancelOrder S o) := by
    intro o
    unfold cancelOrder
    split
    · exact Keeps.bind (update_offers (fun _ => rfl) (fun _ => rfl)) (fun _ => Keeps.pure true)
    · split
      · exact Keeps.pure true
      · refine Keeps.bind (ask_offers (fun _ => by simp [Event.sellVol])) (fun answer => ?_)
        cases answer with
        | error e =>
            dsimp only
            split
            · exact Keeps.pure false
            · exact Keeps.throw _
        | ok _ =>
            refine Keeps.bind (update_offers (fun _ => rfl) (fun _ => rfl)) (fun _ => ?_)
            exact Keeps.bind save_offers (fun _ => Keeps.pure true)
  unfold cancelOrders
  refine Keeps.bind state_offers (fun s' => Keeps.foldlM (fun ok o => ?_) true _)
  exact Keeps.bind (hone o) (fun done => Keeps.pure _)

/-- **Whatever the venue answers, the take-profit of a tick offers at most the orders of the plan
that pass the checks.** -/
theorem classicTakeProfit_offers {t : ℚ} (avg held : ℚ) :
    Triple (Offering t s) (classicTakeProfit S avg held)
      (fun _ => Offering (t + takenVol S s (desiredSells S avg held)) s)
      (fun _ => Offering (t + takenVol S s (desiredSells S avg held)) s) := by
  have hle : t ≤ t + takenVol S s (desiredSells S avg held) :=
    le_add_of_nonneg_right (takenVol_nonneg _)
  unfold classicTakeProfit
  refine bind_offered hle (update_offers (fun _ => rfl) (fun _ => rfl)) (fun _ => ?_)
  refine bind_offered hle state_offers (fun s' => ?_)
  split
  · exact fun w hw => hw.mono hle
  · refine bind_offered hle (cancelOrders_offers _ _) (fun _ => ?_)
    refine bind_offered hle state_offers (fun s'' => ?_)
    split
    · exact fun w hw => hw.mono hle
    · exact placeSells_offers (fun d hd => desiredSells_price hd)

end TakeProfit

end TradingFleet.SpotDca
