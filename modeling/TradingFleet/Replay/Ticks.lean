import Mathlib.Algebra.Order.BigOperators.Group.List
import TradingFleet.Basic.Funding
import TradingFleet.Basic.Hoare
import TradingFleet.Replay.Run
import TradingFleet.SpotDca.Dust

set_option autoImplicit false

/-! # What a tick does to the account

A tick moves no cash. It keeps the profit, and the position unless it is dust that is given up; it
places BUYs that the account can pay, and no limit SELL below zero, since `_place` refuses one
below the average cost (`Ticking`). Only at its start it may take over a position (`Ticked`).
-/

namespace TradingFleet.Replay

open TradingFleet.Funding TradingFleet.Hoare TradingFleet.Keyed
open TradingFleet.SpotDca
open TradingFleet.Lifecycle hiding orRaise
open TradingFleet.Rounding (roundTo roundTo_nonneg)

/-! ## Orders and reservations -/

/-- An order that can be settled. -/
structure OrderSound (o : Order) : Prop where
  vol : 0 < o.vol
  buy : o.side = .buy → o.market = false
  price : o.market = false → 0 ≤ o.price

/-- What an order reserves. -/
def held (F : FeeModel) (o : Order) : ℚ := if o.side = .buy then reservation F o else 0

theorem reserved_eq (F : FeeModel) (orders : List Order) :
    reserved F orders = (orders.map (held F)).sum := by
  unfold reserved
  induction orders with
  | nil => rfl
  | cons o rest ih =>
      rw [List.map_cons, List.sum_cons, List.filter_cons]
      unfold held
      by_cases hside : o.side = .buy
      · rw [if_pos (by simpa using hside), if_pos hside, List.map_cons, List.sum_cons, ih]
        rfl
      · rw [if_neg (by simpa using hside), if_neg hside, zero_add, ih]
        rfl

theorem rate_factor_pos (F : FeeModel) (market : Bool) : 0 < 1 + F.ratePct market / 100 := by
  have hrate := (F.rate_range market).1
  positivity

theorem OrderSound.held_nonneg {o : Order} (h : OrderSound o) (F : FeeModel) : 0 ≤ held F o := by
  unfold held
  split
  · rename_i hside
    exact mul_nonneg (mul_nonneg h.vol.le (h.price (h.buy hside))) (rate_factor_pos F _).le
  · exact le_refl 0

theorem reserved_nonneg (F : FeeModel) {orders : List Order} (h : ∀ o ∈ orders, OrderSound o) :
    0 ≤ reserved F orders := by
  rw [reserved_eq]
  refine List.sum_nonneg (fun x hx => ?_)
  obtain ⟨o, ho, rfl⟩ := List.mem_map.mp hx
  exact (h o ho).held_nonneg F

/-- An order that leaves releases its reservation. -/
theorem reserved_erase (F : FeeModel) {orders : List Order} {o : Order} (ho : o ∈ orders) :
    held F o + reserved F (orders.erase o) = reserved F orders := by
  rw [reserved_eq, reserved_eq]
  exact List.sum_map_erase (held F) ho

theorem reserved_erase_le (F : FeeModel) {orders : List Order}
    (h : ∀ o ∈ orders, OrderSound o) (o : Order) :
    reserved F (orders.erase o) ≤ reserved F orders := by
  by_cases ho : o ∈ orders
  · have herase := reserved_erase F ho
    have hheld := (h o ho).held_nonneg F
    linarith
  · rw [List.erase_of_not_mem ho]

theorem reserved_append (F : FeeModel) (orders : List Order) (o : Order) :
    reserved F (orders ++ [o]) = reserved F orders + held F o := by
  rw [reserved_eq, reserved_eq]
  simp

theorem tolerance_pos : 0 < tolerance := by
  unfold tolerance
  norm_num

/-! ## Between two fills -/

/-- A position has a cost, and nothing held has none. -/
structure Solid (s : State) : Prop where
  qty_nonneg : 0 ≤ s.qty
  cost_pos : 0 < s.qty → 0 < s.cost
  cost_zero : s.qty = 0 → s.cost = 0

/-- The profit and the position of `s₀`, or nothing if that was dust; the quantity held satisfies
`f`, and the cash covers the orders, with `n₀` small ones or more. -/
structure Ticking (R : RunArgs) (cash : ℚ) (n₀ : ℕ) (s₀ : State) (f : ℚ → Prop) (w : World) :
    Prop where
  net : w.s.realizedNet = s₀.realizedNet
  position : w.s.qty = s₀.qty ∧ w.s.cost = s₀.cost ∨
    w.s.qty = 0 ∧ w.s.cost = 0 ∧ s₀.qty < replayPrecision.dust
  holds : f w.s.qty
  sound : ∀ o ∈ w.s.orders, OrderSound o
  covered : Covered tolerance cash (reserved R.fees w.s.orders) (smallBuys R.fees w.log)
  logged : n₀ ≤ smallBuys R.fees w.log

/-- The same, whatever is held. -/
abbrev Steady (R : RunArgs) (cash : ℚ) (n₀ : ℕ) (s₀ : State) : World → Prop :=
  Ticking R cash n₀ s₀ (fun _ => True)

/-- No more than the ledger and the orders. -/
def SameBooks (s s' : State) : Prop :=
  s'.realizedNet = s.realizedNet ∧ s'.qty = s.qty ∧ s'.cost = s.cost ∧ s'.orders = s.orders

section Ticking

variable {R : RunArgs} {cash : ℚ} {n₀ : ℕ} {s₀ : State} {f : ℚ → Prop} {w w' : World}

theorem Ticking.same (h : Ticking R cash n₀ s₀ f w) (hs : SameBooks w.s w'.s)
    (hlog : w'.log = w.log) : Ticking R cash n₀ s₀ f w' := by
  obtain ⟨hnet, hqty, hcost, horders⟩ := hs
  refine ⟨hnet.trans h.net, ?_, ?_, ?_, ?_, ?_⟩
  · rw [hqty, hcost]
    exact h.position
  · rw [hqty]
    exact h.holds
  · rw [horders]
    exact h.sound
  · rw [horders, hlog]
    exact h.covered
  · rw [hlog]
    exact h.logged

theorem Ticking.any (h : Ticking R cash n₀ s₀ f w) : Steady R cash n₀ s₀ w :=
  ⟨h.net, h.position, trivial, h.sound, h.covered, h.logged⟩

theorem Ticking.solid (h : Ticking R cash n₀ s₀ f w) (hsolid : Solid s₀) : Solid w.s := by
  rcases h.position with ⟨hqty, hcost⟩ | ⟨hqty, hcost, -⟩
  · constructor
    · exact hqty ▸ hsolid.qty_nonneg
    · rw [hqty, hcost]
      exact hsolid.cost_pos
    · rw [hqty, hcost]
      exact hsolid.cost_zero
  · constructor
    · exact hqty.ge
    · intro hpos
      exact absurd hqty (ne_of_gt hpos)
    · exact fun _ => hcost

theorem update_ticking {u : State → State} (hu : ∀ s, SameBooks s (u s)) :
    Keeps (Ticking R cash n₀ s₀ f) (update u) :=
  fun _ hw => hw.same (hu _) rfl

theorem state_ticking {β : Type} {k : State → DcaM β} {Q : β → World → Prop}
    {E : Stop → World → Prop}
    (h : ∀ s, Triple (fun w => Ticking R cash n₀ s₀ f w ∧ w.s = s) (k s) Q E) :
    Triple (Ticking R cash n₀ s₀ f) (state >>= k) Q E :=
  fun w hw => h w.s w ⟨hw, rfl⟩

/-- A state that is read and only decides what is done. -/
theorem reading {β : Type} {k : State → DcaM β} {P : World → Prop} {Q : β → World → Prop}
    {E : Stop → World → Prop} (h : ∀ s, Triple P (k s) Q E) : Triple P (state >>= k) Q E :=
  fun w hw => h w.s w hw

theorem save_ticking : Keeps (Ticking R cash n₀ s₀ f) (save R.setup) :=
  fun _ hw => hw.same ⟨rfl, rfl, rfl, rfl⟩ rfl

theorem raise_ticking {β : Type} (e : Exc) : Keeps (Ticking R cash n₀ s₀ f) (raise e : DcaM β) :=
  fun _ hw => hw

/-! ### Cancelling -/

theorem Ticking.removed (h : Ticking R cash n₀ s₀ f w) (o : Order) :
    Ticking R cash n₀ s₀ f { w with s := w.s.remove o } where
  net := h.net
  position := h.position
  holds := h.holds
  sound := fun x hx => h.sound x (List.mem_of_mem_erase hx)
  covered := h.covered.release (reserved_erase_le R.fees h.sound o)
  logged := h.logged

theorem cancelOrder_ticking (o : Order) :
    Keeps (Ticking R cash n₀ s₀ f) (cancelOrder R.setup o) := by
  unfold cancelOrder
  rw [if_pos (show (R.setup.dryRun || Text.startsWith o.txid "PAPER") = true from rfl)]
  refine Keeps.bind ?_ (fun _ => Keeps.pure true)
  exact fun w hw => hw.removed o

theorem cancelOpen_ticking (side : Side) :
    Keeps (Ticking R cash n₀ s₀ f) (cancelOpen R.setup side) := by
  unfold cancelOpen
  refine reading (fun s => ?_)
  cases s.findOpen side with
  | none => exact Keeps.pure true
  | some o => exact cancelOrder_ticking o

theorem cancelOrders_ticking (side : Option Side) (excludeMarket : Bool) :
    Keeps (Ticking R cash n₀ s₀ f) (cancelOrders R.setup side excludeMarket) := by
  unfold cancelOrders
  refine reading (fun s => Keeps.foldlM (fun ok o => ?_) true _)
  exact Keeps.bind (cancelOrder_ticking o) (fun done => Keeps.pure (done && ok))

/-! ### Placing -/

theorem smallBuys_placed (F : FeeModel) (e : Entry) (log : List Entry) {o : Order}
    (he : e.event = .placed o) :
    smallBuys F (e :: log) =
      if o.side = .buy then counted tolerance (reservation F o) (smallBuys F log)
      else smallBuys F log := by
  unfold smallBuys counted
  rw [List.countP_cons, he]
  by_cases hside : o.side = .buy
  · by_cases hsmall : reservation F o ≤ tolerance
    · simp [hside, hsmall]
    · simp [hside, hsmall]
  · simp [hside]

/-- The order of a funded instruction is covered, like every order that reserves nothing. -/
theorem Ticking.placed (h : Ticking R cash n₀ s₀ f w) {i : Instruction} (hvol : 0 < i.vol)
    (hmarket : i.side = .buy → i.market = false) (hprice : i.market = false → 0 ≤ i.price)
    (hfunded : i.side = .buy → i.vol * i.price * (1 + R.fees.ratePct i.market / 100) ≤
      free cash (reserved R.fees w.s.orders) + tolerance) (t : ℚ) :
    Ticking R cash n₀ s₀ f (w.paperPlaced i t) where
  net := h.net
  position := h.position
  holds := h.holds
  sound := by
    intro o ho
    rcases List.mem_append.mp ho with ho | ho
    · exact h.sound o ho
    · rw [List.mem_singleton] at ho
      rw [ho]
      exact ⟨hvol, hmarket, hprice⟩
  covered := by
    let o := paperOrder i (w.paperSeq + 1) t
    show Covered tolerance cash (reserved R.fees (w.s.orders ++ [o]))
      (smallBuys R.fees (⟨w.s, w.saved, .placed o⟩ :: w.log))
    rw [reserved_append, smallBuys_placed R.fees _ _ rfl]
    unfold held
    by_cases hside : i.side = .buy
    · rw [if_pos (show o.side = .buy from hside), if_pos (show o.side = .buy from hside)]
      exact h.covered.reserve tolerance_pos.le (hfunded hside)
    · rw [if_neg (show ¬ o.side = .buy from hside), if_neg (show ¬ o.side = .buy from hside),
        add_zero]
      exact h.covered
  logged := by
    refine h.logged.trans ?_
    show smallBuys R.fees w.log ≤
      smallBuys R.fees (⟨w.s, w.saved, .placed (paperOrder i (w.paperSeq + 1) t)⟩ :: w.log)
    rw [smallBuys_placed R.fees _ _ rfl]
    split
    · exact le_counted _ _ _
    · exact le_refl _

/-- What `_place` asks of an instruction: a BUY is a funded limit order, and a limit price that is
not below the average cost is not negative. -/
structure Placeable (R : RunArgs) (cash : ℚ) (i : Instruction) (s : State) : Prop where
  market : i.side = .buy → i.market = false
  price : i.market = false → belowCost s (i.rounded R.setup) = false →
    0 ≤ (i.rounded R.setup).price
  funded : i.side = .buy → required R i ≤ free cash (reserved R.fees s.orders) + tolerance

theorem placeRounded_ticking {i : Instruction} {s : State}
    (hsize : tooSmall R.setup (i.rounded R.setup).vol = false)
    (hbelow : belowCost s (i.rounded R.setup) = false) (h : Placeable R cash i s) :
    Triple (fun w => Ticking R cash n₀ s₀ f w ∧ w.s = s) (placeRounded R.setup (i.rounded R.setup))
      (fun _ => Ticking R cash n₀ s₀ f) (fun _ => Ticking R cash n₀ s₀ f) := by
  intro w hw
  obtain ⟨hticking, rfl⟩ := hw
  let w' : World := { w with calls := w.calls + 1 }
  have hsame : Ticking R cash n₀ s₀ f w' := hticking.same ⟨rfl, rfl, rfl, rfl⟩ rfl
  show Ticking R cash n₀ s₀ f (w'.paperPlaced (i.rounded R.setup) (R.time w.calls))
  exact hsame.placed (tooSmall_pos hsize) h.market (fun hm => h.price hm hbelow) h.funded _

theorem inBackoff_ticking (side : Side) (kind : Kind) (s : State) :
    Triple (fun w => Ticking R cash n₀ s₀ f w ∧ w.s = s) (inBackoff R.setup side kind)
      (fun _ w => Ticking R cash n₀ s₀ f w ∧ w.s = s) (fun _ => Ticking R cash n₀ s₀ f) :=
  fun _ hw => ⟨hw.1.same ⟨rfl, rfl, rfl, rfl⟩ rfl, hw.2⟩

theorem place_ticking (i : Instruction) :
    Triple (fun w => Ticking R cash n₀ s₀ f w ∧ Placeable R cash i w.s) (place R.setup i)
      (fun _ => Ticking R cash n₀ s₀ f) (fun _ => Ticking R cash n₀ s₀ f) := by
  rintro w ⟨hw, hplaceable⟩
  have hread : Ticking R cash n₀ s₀ f w ∧ w.s = w.s := ⟨hw, rfl⟩
  show Post _ _ ((if tooSmall R.setup (i.rounded R.setup).vol then pure false
    else if belowCost w.s (i.rounded R.setup) then pure false
    else if (i.rounded R.setup).market then placeRounded R.setup (i.rounded R.setup)
    else do
      let waiting ← inBackoff R.setup (i.rounded R.setup).side (i.rounded R.setup).kind
      if waiting then pure false else placeRounded R.setup (i.rounded R.setup) : DcaM Bool) w)
  by_cases hsize : tooSmall R.setup (i.rounded R.setup).vol = true
  · rw [if_pos hsize]
    exact hw
  · rw [if_neg hsize]
    by_cases hbelow : belowCost w.s (i.rounded R.setup) = true
    · rw [if_pos hbelow]
      exact hw
    · rw [if_neg hbelow]
      have hplace : Triple (fun w' => Ticking R cash n₀ s₀ f w' ∧ w'.s = w.s)
          (placeRounded R.setup (i.rounded R.setup)) (fun _ => Ticking R cash n₀ s₀ f)
          (fun _ => Ticking R cash n₀ s₀ f) :=
        placeRounded_ticking (by simpa using hsize) (by simpa using hbelow) hplaceable
      by_cases hmarket : (i.rounded R.setup).market = true
      · rw [if_pos hmarket]
        exact hplace w hread
      · rw [if_neg hmarket]
        refine Triple.bind (inBackoff_ticking _ _ w.s) (fun waiting => ?_) w hread
        exact Triple.ite ((Keeps.pure false).strengthen (fun _ h => h.1)) hplace

/-- `traced_place`: a BUY that the account cannot pay is not placed. -/
theorem tracedPlace_ticking {i : Instruction} (hmarket : i.market = false) (hprice : 0 ≤ i.price) :
    Keeps (Ticking R cash n₀ s₀ f) (tracedPlace R cash i) := by
  refine state_ticking (fun s => ?_)
  by_cases hshort : freeQuote R cash s + tolerance < required R i
  · rw [if_pos hshort]
    exact (Keeps.pure false).strengthen (fun _ h => h.1)
  · rw [if_neg hshort]
    refine (place_ticking i).strengthen (fun w hw => ⟨hw.1, ?_⟩)
    rw [hw.2]
    exact ⟨fun _ => hmarket, fun _ _ => roundTo_nonneg hprice _, fun _ => not_lt.mp hshort⟩

/-! ### Ending a cycle -/

theorem flatQty_lt_dust : flatQty < replayPrecision.dust := by
  unfold flatQty PairPrecision.dust replayPrecision
  norm_num

theorem Ticking.dust (h : Ticking R cash n₀ s₀ f w) (hqty : w.s.qty < replayPrecision.dust) :
    s₀.qty < replayPrecision.dust := by
  rcases h.position with ⟨hsame, -⟩ | ⟨-, -, hdust⟩
  · rwa [← hsame]
  · exact hdust

theorem flattened_ticking :
    Keeps (Steady R cash n₀ s₀) (update (fun s => s.flattened R.setup.precision)) := by
  intro w hw
  show Steady R cash n₀ s₀ { w with s := w.s.flattened replayPrecision }
  rcases w.s.flattened_cases replayPrecision with ⟨hflat, hdust⟩ | hflat
  · rw [hflat]
    have hlt : w.s.qty < replayPrecision.dust := lt_of_le_of_lt (le_abs_self _) hdust
    exact ⟨hw.net, Or.inr ⟨rfl, rfl, hw.dust hlt⟩, trivial, hw.sound, hw.covered, hw.logged⟩
  · rw [hflat]
    exact hw

theorem Ticking.closed (h : Ticking R cash n₀ s₀ f w) (hflat : w.s.qty ≤ flatQty) (kind : Kind)
    (price : ℚ) :
    Steady R cash n₀ s₀ { w with
      s := w.s.nextCycle kind price, postings := .closed :: w.postings } where
  net := h.net
  position := Or.inr ⟨rfl, rfl, h.dust (lt_of_le_of_lt hflat flatQty_lt_dust)⟩
  holds := trivial
  sound := fun o ho => by cases ho
  covered := h.covered.release (reserved_nonneg R.fees h.sound)
  logged := h.logged

theorem finalizeCycleIfFlat_ticking (kind : Kind) (price : ℚ) :
    Keeps (Steady R cash n₀ s₀) (finalizeCycleIfFlat R.setup kind price) := by
  unfold finalizeCycleIfFlat
  refine Keeps.bind flattened_ticking (fun _ => state_ticking (fun s => ?_))
  by_cases hheld : flatQty < s.qty
  · rw [if_pos hheld]
    exact (Keeps.pure ()).strengthen (fun _ h => h.1)
  · rw [if_neg hheld]
    by_cases hopen : s.orders ≠ [] ∨ s.pendingIntent ≠ none
    · rw [if_pos hopen]
      refine Triple.strengthen (P := Steady R cash n₀ s₀) ?_ (fun _ h => h.1)
      exact Keeps.bind (update_ticking (fun _ => ⟨rfl, rfl, rfl, rfl⟩)) (fun _ => save_ticking)
    · rw [if_neg hopen]
      rintro w ⟨hw, rfl⟩
      exact hw.closed (not_lt.mp hheld) kind price

/-! ### Market exits -/

theorem exitInstruction_placeable (s : State) (exit : PendingExit) (price : ℚ) :
    Placeable R cash (exitInstruction R.setup s exit price) s where
  market := fun h => by cases h
  price := fun h => by cases h
  funded := fun h => by cases h

theorem exitHoldings_ticking (exit : PendingExit) (price : ℚ) :
    Keeps (Steady R cash n₀ s₀) (exitHoldings R.setup exit price) := by
  unfold exitHoldings
  refine state_ticking (fun s => ?_)
  have hfalse : Triple (fun w => Steady R cash n₀ s₀ w ∧ w.s = s)
      (pure false : DcaM Bool) (fun _ => Steady R cash n₀ s₀)
      (fun _ => Steady R cash n₀ s₀) :=
    (Keeps.pure false).strengthen (fun _ h => h.1)
  by_cases hflat : s.qty ≤ flatQty
  · rw [if_pos hflat]
    cases exit.fillPrice with
    | none => exact hfalse
    | some fillPrice =>
        refine Triple.strengthen (P := Steady R cash n₀ s₀) ?_ (fun _ h => h.1)
        exact Keeps.bind (finalizeCycleIfFlat_ticking _ _) (fun _ => Keeps.pure false)
  · rw [if_neg hflat]
    refine Triple.ite hfalse ?_
    refine (place_ticking _).strengthen (fun w hw => ⟨hw.1, ?_⟩)
    rw [hw.2]
    exact exitInstruction_placeable s exit price

theorem continueMarketExit_ticking (price : ℚ) :
    Keeps (Steady R cash n₀ s₀) (continueMarketExit R.setup price) := by
  unfold continueMarketExit
  refine reading (fun s => ?_)
  cases s.pendingExit with
  | none => exact Keeps.pure false
  | some exit =>
      refine Triple.ite (Keeps.pure false) (Keeps.bind save_ticking (fun _ => ?_))
      refine Triple.get (fun w hw => ?_)
      refine Triple.strengthen (P := Steady R cash n₀ s₀) ?_ (fun w' h => h ▸ hw)
      refine Triple.ite (Keeps.pure false) ?_
      refine Keeps.bind (cancelOrders_ticking none false) (fun done => reading (fun s => ?_))
      exact Triple.ite (Keeps.pure false) (exitHoldings_ticking exit price)

theorem requestMarketExit_ticking (price : ℚ) (kind : Kind) (softFloor : Bool) :
    Keeps (Steady R cash n₀ s₀) (requestMarketExit R.setup price kind softFloor) := by
  unfold requestMarketExit
  refine Keeps.bind (update_ticking (fun s => ?_)) (fun _ => continueMarketExit_ticking price)
  split
  · exact ⟨rfl, rfl, rfl, rfl⟩
  · exact ⟨rfl, rfl, rfl, rfl⟩

theorem stopTaken_ticking (price held : ℚ) :
    Keeps (Steady R cash n₀ s₀) (stopTaken R.setup price held) := by
  unfold stopTaken checkStopLoss
  refine Triple.ite (reading (fun s => ?_)) (Keeps.pure false)
  refine Triple.ite (Keeps.pure false) (Triple.ite ?_ (Keeps.pure false))
  refine Triple.ite (Keeps.pure true) ?_
  exact Keeps.bind (requestMarketExit_ticking price .stop false) (fun _ => Keeps.pure true)

/-! ### Take-profit -/

theorem tick_le_abs {price : ℚ} (hneg : roundTo price replayPrecision.priceDecimals < 0) :
    (2 : ℚ) ^ (-1074 : ℤ) ≤ |roundTo price replayPrecision.priceDecimals| := by
  have hpow : (0 : ℚ) < 10 ^ (replayPrecision.priceDecimals : ℤ) := zpow_pos (by norm_num) _
  have hround : Rounding.roundEven (price * 10 ^ (replayPrecision.priceDecimals : ℤ)) ≤ -1 := by
    have hcast : (Rounding.roundEven (price * 10 ^ (replayPrecision.priceDecimals : ℤ)) : ℚ) < 0 :=
      neg_of_div_neg_left hneg hpow.le
    have hlt : Rounding.roundEven (price * 10 ^ (replayPrecision.priceDecimals : ℤ)) < 0 := by
      exact_mod_cast hcast
    omega
  have hcast : (Rounding.roundEven (price * 10 ^ (replayPrecision.priceDecimals : ℤ)) : ℚ) ≤
      ((-1 : ℤ) : ℚ) := Int.cast_le.mpr hround
  have hone : (1 : ℚ) ≤
      |(Rounding.roundEven (price * 10 ^ (replayPrecision.priceDecimals : ℤ)) : ℚ)| := by
    push_cast at hcast
    rw [abs_of_neg (by linarith)]
    linarith
  have htick : (2 : ℚ) ^ (-1074 : ℤ) * 10 ^ (replayPrecision.priceDecimals : ℤ) ≤ 1 := by
    decide +kernel
  unfold Rounding.roundTo
  rw [abs_div, abs_of_pos hpow, le_div_iff₀ hpow]
  exact htick.trans hone

/-- A take-profit below the average cost is refused, so none has a negative price. -/
theorem sell_placeable {s : State} (hsolid : Solid s) (hheld : flatQty < s.qty) (vol price : ℚ) :
    Placeable R cash { side := .sell, vol := vol, price := price, kind := .tp } s where
  market := fun h => by cases h
  funded := fun h => by cases h
  price := by
    intro _ hbelow
    have hpos : 0 < s.qty := lt_trans flatQty_pos hheld
    have havg : s.avg = some (s.cost / s.qty) := if_pos hheld
    unfold belowCost at hbelow
    rw [havg] at hbelow
    have hge : Rounding.double (s.cost / s.qty) ≤
        Rounding.double (roundTo price replayPrecision.priceDecimals) :=
      not_lt.mp (of_decide_eq_false hbelow)
    have havgPos : 0 ≤ Rounding.double (s.cost / s.qty) :=
      Rounding.double_nonneg (div_pos (hsolid.cost_pos hpos) hpos).le
    -- a negative price is at least one tick below zero
    refine not_lt.mp (fun hneg => ?_)
    refine absurd (havgPos.trans hge) (not_le.mpr (Rounding.double_neg hneg ?_))
    exact tick_le_abs hneg

theorem placeSells_ticking (hsolid : Solid s₀) (desired : List (ℚ × ℚ)) :
    Keeps (Ticking R cash n₀ s₀ (fun q => flatQty < q)) (placeSells R.setup desired) := by
  unfold placeSells
  refine Keeps.foldlM (fun _ d => Keeps.bind ?_ (fun _ => Keeps.pure ())) () _
  exact (place_ticking _).strengthen
    (fun w hw => ⟨hw, sell_placeable (hw.solid hsolid) hw.holds d.2 d.1⟩)

theorem classicTakeProfit_ticking (hsolid : Solid s₀) (avg held : ℚ) :
    Keeps (Ticking R cash n₀ s₀ (fun q => flatQty < q)) (classicTakeProfit R.setup avg held) := by
  unfold classicTakeProfit
  refine Keeps.bind (update_ticking (fun _ => ⟨rfl, rfl, rfl, rfl⟩)) (fun _ => ?_)
  refine reading (fun s => Triple.ite (Keeps.pure ()) ?_)
  refine Keeps.bind (cancelOrders_ticking (some .sell) false) (fun _ => reading (fun s => ?_))
  exact Triple.ite (Keeps.pure ()) (placeSells_ticking hsolid _)

theorem takeProfit_ticking (hsolid : Solid s₀) (price avg held : ℚ)
    (regime : Option RegimeDecision) (sig : Signals) :
    Triple (fun w => Steady R cash n₀ s₀ w ∧ (avg ≠ 0 → flatQty < w.s.qty))
      (takeProfit R.setup price avg held regime sig)
      (fun _ => Steady R cash n₀ s₀) (fun _ => Steady R cash n₀ s₀) := by
  have hride : ∀ u : State → State, (∀ s, SameBooks s (u s)) →
      Keeps (Steady R cash n₀ s₀) (do
        update u
        let _ ← cancelOrders R.setup (some .sell) true
        pure false) :=
    fun u hu => Keeps.bind (update_ticking hu) (fun _ =>
      Keeps.bind (cancelOrders_ticking (some .sell) true) (fun _ => Keeps.pure false))
  unfold takeProfit
  refine reading (fun s => ?_)
  dsimp only
  by_cases hoff : (!R.setup.params.enableTakeprofit || decide (avg = 0)) = true
  · rw [if_pos hoff]
    exact (Keeps.pure false).strengthen (fun _ h => h.1)
  · rw [if_neg hoff]
    have hset : avg ≠ 0 := by
      intro hzero
      exact hoff (by simp [hzero])
    refine Triple.ite (Triple.strengthen (P := Steady R cash n₀ s₀) ?_
      (fun _ h => h.1)) ?_
    · refine Triple.ite ?_ (hride _ (fun _ => ⟨rfl, rfl, rfl, rfl⟩))
      refine Keeps.bind (update_ticking (fun _ => ⟨rfl, rfl, rfl, rfl⟩)) (fun _ => ?_)
      refine reading (fun s => ?_)
      cases trailAction R.setup s avg price with
      | blocked => exact Keeps.pure true
      | exit =>
          exact Keeps.bind (requestMarketExit_ticking price .tp true) (fun _ => Keeps.pure true)
      | ride =>
          exact Keeps.bind (cancelOrders_ticking (some .sell) true) (fun _ => Keeps.pure false)
    · -- a position with an average cost can be sold in tranches
      refine Triple.strengthen (P := Ticking R cash n₀ s₀ (fun q => flatQty < q)) ?_
        (fun w hw => ?_)
      · have hsells : Triple (Ticking R cash n₀ s₀ (fun q => flatQty < q))
            (classicTakeProfit R.setup avg held) (fun _ => Steady R cash n₀ s₀)
            (fun _ => Steady R cash n₀ s₀) :=
          (classicTakeProfit_ticking hsolid avg held).conseq (fun _ h => h)
            (fun _ _ h => h.any) (fun _ _ h => h.any)
        exact Triple.bind hsells (fun _ => Keeps.pure false)
      · obtain ⟨⟨hnet, hpos, -, hsound, hcovered, hlogged⟩, hqty⟩ := hw
        exact ⟨hnet, hpos, hqty hset, hsound, hcovered, hlogged⟩

/-! ### Buying -/

theorem freeBalance_ticking : Keeps (Ticking R cash n₀ s₀ f) (replayHooks R cash).freeBalance :=
  reading (fun s => Keeps.pure (Except.ok (some (freeQuote R cash s))))

theorem orRaise_ticking {α : Type} (x : Except Exc α) :
    Keeps (Ticking R cash n₀ s₀ f) (SpotDca.orRaise x) := by
  cases x with
  | ok a => exact Keeps.pure a
  | error e => exact raise_ticking e

theorem entryPriceOf_nonneg (P : StratParams) {close : ℚ} (hclose : 0 ≤ close) :
    0 ≤ entryPriceOf close P.entryDiscountPct := by
  have hdiscount : P.entryDiscountPct / 100 < 1 := by
    rw [div_lt_one (by norm_num)]
    exact P.entryDiscount_range.2
  exact mul_nonneg hclose (sub_nonneg.mpr hdiscount.le)

theorem dcaOrder_price_nonneg {S : Setup} {amount available entryPx : ℚ} (hentry : 0 ≤ entryPx) :
    0 ≤ (dcaOrder S amount available entryPx).2 := by
  unfold dcaOrder
  dsimp only
  split
  · exact roundTo_nonneg hentry _
  · exact hentry

/-- A BUY through `traced_place`, whether or not it is placed. -/
theorem buy_ticking {i : Instruction} (hmarket : i.market = false) (hprice : 0 ≤ i.price) :
    Keeps (Ticking R cash n₀ s₀ f) (do
      let _ ← (replayHooks R cash).buy i
      pure ()) :=
  Keeps.bind (tracedPlace_ticking hmarket hprice) (fun _ => Keeps.pure ())

theorem placeDcaWith_ticking {entryPx : ℚ} (hentry : 0 ≤ entryPx) (amount : ℚ) :
    Keeps (Ticking R cash n₀ s₀ f) (placeDcaWith R.setup (replayHooks R cash) amount entryPx) := by
  unfold placeDcaWith
  refine Keeps.bind freeBalance_ticking (fun answer => ?_)
  cases answer with
  | error e => exact Keeps.pure ()
  | ok raw =>
      cases raw with
      | none => exact Keeps.pure ()
      | some freeQuote =>
          refine reading (fun s => Triple.ite (Keeps.pure ()) (Triple.ite (Keeps.pure ()) ?_))
          exact buy_ticking rfl (dcaOrder_price_nonneg hentry)

theorem stepDcaWith_ticking {entryPx : ℚ} (hentry : 0 ≤ entryPx) (price : ℚ)
    (regime : Option RegimeDecision) (sig : Signals) :
    Keeps (Ticking R cash n₀ s₀ f)
      (stepDcaWith R.setup (replayHooks R cash) price entryPx regime sig) := by
  unfold stepDcaWith
  refine Keeps.bind (orRaise_ticking sig.dcaScale) (fun scale => reading (fun s => ?_))
  exact Triple.ite (placeDcaWith_ticking hentry _) (Keeps.pure ())

theorem stepHeldWith_ticking (hsolid : Solid s₀) {entryPx : ℚ} (hentry : 0 ≤ entryPx)
    (price held : ℚ) (regime : Option RegimeDecision) (sig : Signals) :
    Keeps (Steady R cash n₀ s₀)
      (stepHeldWith R.setup (replayHooks R cash) price held entryPx regime sig) := by
  unfold stepHeldWith
  refine state_ticking (fun s => ?_)
  refine Triple.bind ((takeProfit_ticking hsolid price (s.avg.getD 0) held regime sig).strengthen
    (fun w hw => ⟨hw.1, fun havg => ?_⟩)) (fun ended => ?_)
  · rw [hw.2]
    by_contra hflat
    have hnone : s.avg = none := if_neg hflat
    rw [hnone] at havg
    exact havg rfl
  · exact Triple.ite (Keeps.pure ()) (stepDcaWith_ticking hentry price regime sig)

theorem stepFlatWith_ticking {entryPx : ℚ} (hentry : 0 ≤ entryPx) (price : ℚ) (sig : Signals) :
    Keeps (Ticking R cash n₀ s₀ f)
      (stepFlatWith R.setup (replayHooks R cash) price entryPx sig) := by
  unfold stepFlatWith
  refine reading (fun s => Triple.ite (Keeps.pure ()) ?_)
  refine Keeps.bind (update_ticking (fun _ => ⟨rfl, rfl, rfl, rfl⟩)) (fun _ => ?_)
  refine Triple.ite (Keeps.pure ()) (Triple.ite (Keeps.pure ()) ?_)
  exact buy_ticking rfl hentry

/-! ### The trend overlay -/

theorem overlayHold_ticking (price : ℚ) (closes : List ℚ) :
    Keeps (Steady R cash n₀ s₀) (overlayHold R.setup price closes) := by
  unfold overlayHold
  refine Keeps.bind (update_ticking (fun _ => ⟨rfl, rfl, rfl, rfl⟩)) (fun _ => ?_)
  refine reading (fun s => Triple.ite (raise_ticking _) (Triple.ite ?_ ?_))
  · exact Keeps.bind (requestMarketExit_ticking price .tp false) (fun _ => Keeps.pure ())
  · exact Keeps.bind (cancelOrders_ticking (some .sell) true) (fun _ => Keeps.pure ())

theorem overlayEnterWith_ticking {price : ℚ} (hprice : 0 ≤ price) :
    Keeps (Ticking R cash n₀ s₀ f) (overlayEnterWith R.setup (replayHooks R cash) price) := by
  unfold overlayEnterWith
  refine Keeps.bind (cancelOrders_ticking (some .buy) false) (fun _ => ?_)
  refine Keeps.bind (cancelOrders_ticking (some .sell) false) (fun _ => ?_)
  exact reading (fun s => Triple.ite (Keeps.pure ()) (buy_ticking rfl hprice))

theorem overlayStepWith_ticking {price : ℚ} (hprice : 0 ≤ price) (regime : RegimeDecision)
    (closes : List ℚ) :
    Keeps (Steady R cash n₀ s₀)
      (overlayStepWith R.setup (replayHooks R cash) price regime closes) := by
  unfold overlayStepWith
  refine reading (fun s => Triple.ite ?_ (Triple.ite (Triple.ite (Keeps.pure true) ?_)
    (Triple.ite ?_ (Keeps.pure false))))
  · exact Keeps.bind (overlayHold_ticking price closes) (fun _ => Keeps.pure true)
  · exact Keeps.bind (cancelOpen_ticking .buy) (fun _ => Keeps.pure false)
  · exact Keeps.bind (overlayEnterWith_ticking hprice) (fun _ => Keeps.pure true)

theorem overlayHandledWith_ticking {price : ℚ} (hprice : 0 ≤ price) (sig : Signals) :
    Keeps (Steady R cash n₀ s₀)
      (overlayHandledWith R.setup (replayHooks R cash) price sig) :=
  Triple.ite (overlayStepWith_ticking hprice sig.regime sig.closes) (Keeps.pure false)

/-! ### The tick -/

theorem stepDecideWith_ticking (hsolid : Solid s₀) {price : ℚ} (hprice : 0 ≤ price) (held : ℚ)
    (sig : Signals) :
    Keeps (Steady R cash n₀ s₀)
      (stepDecideWith R.setup (replayHooks R cash) price held sig) := by
  have hentry := entryPriceOf_nonneg R.setup.params hprice
  unfold stepDecideWith
  refine Keeps.bind (overlayHandledWith_ticking hprice sig) (fun handled => ?_)
  refine Triple.ite (Keeps.pure ()) (Triple.ite ?_ ?_)
  · exact stepFlatWith_ticking hentry price sig
  · exact stepHeldWith_ticking hsolid hentry price held _ sig

theorem stepExitsWith_ticking (hsolid : Solid s₀) {price : ℚ} (hprice : 0 ≤ price) (held : ℚ)
    (sig : Signals) :
    Keeps (Steady R cash n₀ s₀)
      (stepExitsWith R.setup (replayHooks R cash) price held sig) := by
  unfold stepExitsWith
  refine Keeps.bind (stopTaken_ticking price held) (fun stopped => ?_)
  refine Triple.ite (Keeps.pure ()) (reading (fun s => ?_))
  refine Triple.ite (Keeps.pure ()) (Triple.ite ?_ (stepDecideWith_ticking hsolid hprice held sig))
  exact Keeps.bind (continueMarketExit_ticking price) (fun _ => Keeps.pure ())

/-- Paper mode never asks the venue. -/
theorem ledgerGate_ticking : Keeps (Ticking R cash n₀ s₀ f) (ledgerGate R.setup) := by
  unfold ledgerGate
  exact reading (fun s => by
    have hpaper : ¬ (!R.setup.dryRun && s.ledgerReconcileRequired && decide (flatQty < s.qty) &&
        decide (s.orders = [])) = true := by simp [RunArgs.setup]
    rw [if_neg hpaper]
    exact Keeps.pure true)

/-! ### After a fill -/

theorem afterFill_steady (fill : Fill) (final : Bool) :
    Keeps (Steady R cash n₀ s₀) (afterFill R.setup fill final) := by
  unfold afterFill
  cases fill.side with
  | buy =>
      refine reading (fun s => Triple.ite (raise_ticking _) ?_)
      exact Keeps.bind (cancelOrders_ticking (some .sell) true) (fun _ => Keeps.pure ())
  | sell => exact Triple.ite (finalizeCycleIfFlat_ticking fill.kind fill.price) (Keeps.pure ())

end Ticking

/-! ## Adoption -/

/-- A position that was not there. -/
structure TakenOver (s₀ s₁ : State) : Prop where
  flat : s₀.qty ≤ flatQty
  held : flatQty < s₁.qty
  cost : 0 < s₁.cost
  net : s₁.realizedNet = s₀.realizedNet

theorem TakenOver.solid {s₀ s₁ : State} (h : TakenOver s₀ s₁) : Solid s₁ where
  qty_nonneg := (flatQty_pos.trans h.held).le
  cost_pos := fun _ => h.cost
  cost_zero := fun hzero => absurd hzero (flatQty_pos.trans h.held).ne'

/-- **What a tick may do**: it goes on with the books of `s₀`, or with a position taken over. -/
def Ticked (R : RunArgs) (cash : ℚ) (n₀ : ℕ) (s₀ : State) (w : World) : Prop :=
  Steady R cash n₀ s₀ w ∨
    ∃ s₁, TakenOver s₀ s₁ ∧ Steady R cash n₀ s₁ w

section Adoption

variable {R : RunArgs} {cash : ℚ} {n₀ : ℕ} {s₀ : State}

/-- With eight decimals the least balance that is taken over is one tick. -/
theorem dustSafeQty_held {qty : ℚ} (hqty : ¬ replayPrecision.dustSafeQty qty ≤ 0) :
    flatQty < replayPrecision.dustSafeQty qty := by
  have heq : replayPrecision.dustSafeQty qty =
      replayPrecision.exitTicks qty * replayPrecision.dustStep :=
    dustSafeQty_of_decimals (by decide) qty
  have hstep := replayPrecision.dustStep_pos
  rw [heq] at hqty ⊢
  have hticks : (1 : ℚ) ≤ replayPrecision.exitTicks qty := by
    by_contra hnone
    have hzero : replayPrecision.exitTicks qty ≤ 0 := by
      have : replayPrecision.exitTicks qty < 1 := by exact_mod_cast not_le.mp hnone
      omega
    have hcast : (replayPrecision.exitTicks qty : ℚ) ≤ 0 := by exact_mod_cast hzero
    exact hqty (mul_nonpos_of_nonpos_of_nonneg hcast hstep.le)
  calc flatQty < replayPrecision.dustStep := by
        unfold flatQty PairPrecision.dustStep replayPrecision
        norm_num
    _ = 1 * replayPrecision.dustStep := (one_mul _).symm
    _ ≤ replayPrecision.exitTicks qty * replayPrecision.dustStep :=
        mul_le_mul_of_nonneg_right hticks hstep.le

theorem adoptableQtyWith_ticking {f : ℚ → Prop} :
    Triple (Ticking R cash n₀ s₀ f) (adoptableQtyWith R.setup (replayHooks R cash))
      (fun found w => Ticking R cash n₀ s₀ f w ∧ ∀ qty, found = some qty → flatQty < qty)
      (fun _ => Ticking R cash n₀ s₀ f) := by
  unfold adoptableQtyWith
  refine Triple.ite (Triple.pure (fun w hw => ⟨hw, fun qty hfound => ?_⟩)) ?_
  · by_cases hflat : R.setup.params.adoptQty ≤ flatQty
    · rw [if_pos hflat] at hfound
      cases hfound
    · rw [if_neg hflat] at hfound
      cases hfound
      exact not_le.mp hflat
  · refine Triple.bind freeBalance_ticking (fun answer => ?_)
    cases answer with
    | error e =>
        refine Triple.ite (Triple.pure (fun w hw => ⟨hw, fun qty h => by cases h⟩)) ?_
        exact fun w hw => hw
    | ok raw =>
        refine Triple.pure (fun w hw => ⟨hw, fun qty hfound => ?_⟩)
        by_cases hflat : raw.getD 0 ≤ flatQty
        · rw [if_pos hflat] at hfound
          cases hfound
        · rw [if_neg hflat] at hfound
          by_cases hnone : replayPrecision.dustSafeQty (raw.getD 0) ≤ 0
          · have : (if R.setup.precision.dustSafeQty (raw.getD 0) ≤ 0 then none
                else some (R.setup.precision.dustSafeQty (raw.getD 0))) = none := if_pos hnone
            rw [this] at hfound
            cases hfound
          · have : (if R.setup.precision.dustSafeQty (raw.getD 0) ≤ 0 then none
                else some (R.setup.precision.dustSafeQty (raw.getD 0))) =
                  some (replayPrecision.dustSafeQty (raw.getD 0)) := if_neg hnone
            rw [this] at hfound
            cases hfound
            exact dustSafeQty_held hnone

theorem maybeAdoptWith_ticked :
    Triple (Ticking R cash n₀ s₀ (fun q => q = s₀.qty))
      (maybeAdoptWith R.setup (replayHooks R cash))
      (fun _ => Ticked R cash n₀ s₀) (fun _ => Ticked R cash n₀ s₀) := by
  have hkept : ∀ w, Ticking R cash n₀ s₀ (fun q => q = s₀.qty) w → Ticked R cash n₀ s₀ w :=
    fun w hw => Or.inl hw.any
  unfold maybeAdoptWith
  refine state_ticking (fun s => ?_)
  by_cases hcost : R.setup.params.adoptCost ≤ 0 ∨ s.adopted = true
  · rw [if_pos hcost]
    exact Triple.pure (fun w hw => hkept w hw.1)
  · rw [if_neg hcost]
    by_cases hfresh : flatQty < s.qty ∨ s.orders ≠ [] ∨ s.cycle ≠ 1 ∨ 0 < s.spent
    · rw [if_pos hfresh]
      exact Triple.pure (fun w hw => hkept w hw.1)
    · rw [if_neg hfresh]
      -- the guard read the quantity of `s₀`
      refine Triple.strengthen (P := fun w => s₀.qty ≤ flatQty ∧
        Ticking R cash n₀ s₀ (fun q => q = s₀.qty) w) (Triple.of_fact (fun hflat => ?_))
        (fun w hw => ⟨?_, hw.1⟩)
      · refine Triple.bind (adoptableQtyWith_ticking.conseq (fun _ h => h) (fun _ _ h => h)
          (fun _ w hw => hkept w hw)) (fun found => ?_)
        cases found with
        | none => exact Triple.pure (fun w hw => hkept w hw.1)
        | some qty =>
            intro w hw
            obtain ⟨hw, hqty⟩ := hw
            have hheld := hqty qty rfl
            let s₁ : State := { w.s with
              qty := qty
              cost := qty * R.setup.params.adoptCost
              entryPrice := some R.setup.params.adoptCost
              lastBuyPrice := some R.setup.params.adoptCost
              adopted := true }
            refine Or.inr ⟨s₁, ⟨hflat, hheld, ?_, hw.net⟩, ?_⟩
            · exact mul_pos (flatQty_pos.trans hheld) (not_le.mp (fun h => hcost (Or.inl h)))
            · exact ⟨rfl, Or.inl ⟨rfl, rfl⟩, trivial, hw.sound, hw.covered, hw.logged⟩
      · rw [← hw.1.holds, hw.2]
        exact not_lt.mp (fun h => hfresh (Or.inl h))

theorem stepExitsWith_ticked (hsolid : Solid s₀) {price : ℚ} (hprice : 0 ≤ price) (held : ℚ)
    (sig : Signals) :
    Keeps (Ticked R cash n₀ s₀) (stepExitsWith R.setup (replayHooks R cash) price held sig) := by
  rintro w (hw | ⟨s₁, hs₁, hw⟩)
  · exact (stepExitsWith_ticking hsolid hprice held sig).conseq (fun _ h => h)
      (fun _ _ h => Or.inl h) (fun _ _ h => Or.inl h) w hw
  · exact (stepExitsWith_ticking hs₁.solid hprice held sig).conseq (fun _ h => h)
      (fun _ _ h => Or.inr ⟨s₁, hs₁, h⟩) (fun _ _ h => Or.inr ⟨s₁, hs₁, h⟩) w hw

theorem stepAdoptWith_ticked (hsolid : Solid s₀) {price : ℚ} (hprice : 0 ≤ price) (sig : Signals) :
    Triple (Ticking R cash n₀ s₀ (fun q => q = s₀.qty))
      (stepAdoptWith R.setup (replayHooks R cash) price sig)
      (fun _ => Ticked R cash n₀ s₀) (fun _ => Ticked R cash n₀ s₀) := by
  have hexits : ∀ held, Keeps (Ticked R cash n₀ s₀)
      (stepExitsWith R.setup (replayHooks R cash) price held sig) :=
    fun held => stepExitsWith_ticked hsolid hprice held sig
  unfold stepAdoptWith
  refine reading (fun s => Triple.ite ?_ ?_)
  · refine Triple.bind maybeAdoptWith_ticked (fun _ => reading (fun s => ?_))
    exact Triple.ite (hexits s.qty) (Keeps.pure ())
  · exact (hexits s.qty).strengthen (fun w hw => Or.inl hw.any)

/-- **A tick of the strategy goes on with the books it found, or takes a position over.** -/
theorem stepWith_ticked (hsolid : Solid s₀) {price : ℚ} (hprice : 0 ≤ price) (sig : Signals) :
    Triple (Ticking R cash n₀ s₀ (fun q => q = s₀.qty))
      (stepWith R.setup (replayHooks R cash) price sig)
      (fun _ => Ticked R cash n₀ s₀) (fun _ => Ticked R cash n₀ s₀) := by
  have hkept : ∀ w, Ticking R cash n₀ s₀ (fun q => q = s₀.qty) w → Ticked R cash n₀ s₀ w :=
    fun w hw => Or.inl hw.any
  unfold stepWith
  refine reading (fun s => Triple.ite (Triple.pure hkept) ?_)
  refine Triple.bind (ledgerGate_ticking.conseq (fun _ h => h) (fun _ _ h => h)
    (fun _ w hw => hkept w hw)) (fun go => ?_)
  exact Triple.ite (stepAdoptWith_ticked hsolid hprice sig) (Triple.pure hkept)

end Adoption

end TradingFleet.Replay
