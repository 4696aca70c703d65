import TradingFleet.Basic.Runs
import TradingFleet.Hyperliquid.Effects

set_option autoImplicit false

/-! # The delta-neutral strategy: a leg that a flat bot finds

A close resets the state before anything is known about its fills. What remains when one of its
two orders fails is a single leg, and a flat tick takes up a position only when both legs are
there. So no flat tick attends to a single leg, in any run (`leftover_attended_iff`): it waits,
or it opens a new position on top.
-/

namespace TradingFleet.Hyperliquid

open TradingFleet.Hoare TradingFleet.Runs

/-- One leg is worth more than the minimum order, the other is missing. -/
def oneLegged (L : Reading) : Bool :=
  (minOrderUsd < |L.spotQty| * L.spotPx && |L.perpSzi| ≤ 1 / 1000000) ||
    (minOrderUsd < |L.perpSzi| * L.perpPx && |L.spotQty| ≤ 1 / 1000000)

/-- Filled, the order makes its leg smaller. -/
def Order.Reduces (o : Order) (L : Reading) : Prop :=
  match o.leg with
  | .spot => o.change * L.spotQty < 0
  | .perp => o.change * L.perpSzi < 0

/-- Nothing is opened, and the leg is adopted or reduced. -/
structure Attended (D : DeltaNeutral) (L : Reading) (m : Machine) : Prop where
  notOpened : ∀ o ∈ m.orders, o.cause ≠ .opening
  taken : D.dryRun = false ∧ twoLegged L = true ∨ ∃ o ∈ m.orders, o.Reduces L

/-- A pass that starts flat with a single leg in the account. -/
def FindsLeftover (D : DeltaNeutral) (s : State) (i : Input) : Prop :=
  s.status = .flat ∧ ∃ L ∈ (legs D i.quotes s).1, oneLegged L = true

/-- What is asked of a pass. -/
def AttendsLeftover (D : DeltaNeutral) (s : State) (i : Input) : Prop :=
  s.status = .flat → ∀ L ∈ (legs D i.quotes s).1, oneLegged L = true →
    Attended D L (pass D s i)

def next (D : DeltaNeutral) (s : State) (i : Input) : State := (pass D s i).bot

/-! ## A flat tick with one leg -/

theorem oneLegged_not_twoLegged {L : Reading} (h : oneLegged L = true) : twoLegged L = false := by
  unfold oneLegged at h
  unfold twoLegged
  simp only [Bool.or_eq_true, Bool.and_eq_true, decide_eq_true_eq] at h
  rw [Bool.and_eq_false_iff, decide_eq_false_iff_not, decide_eq_false_iff_not, not_lt, not_lt]
  rcases h with ⟨-, hperp⟩ | ⟨-, hspot⟩
  · exact Or.inr hperp
  · exact Or.inl hspot

section Flat

variable {D : DeltaNeutral} {V : Venue} {L : Reading}

/-- Every order so far belongs to an opening. -/
def OnlyOpening (m : Machine) : Prop := ∀ o ∈ m.orders, o.cause = .opening

theorem change_keeps {f : State → State} : Keeps OnlyOpening (change f) :=
  fun _ hm => hm

theorem submit_onlyOpening (leg : Leg) (buys reduceOnly : Bool) (sz px : ℚ) :
    Keeps OnlyOpening (submit D V .opening leg buys reduceOnly sz px) :=
  submit_keeps (fun _ _ hm hbooked => hbooked.forall_orders hm rfl)

theorem openLegs_onlyOpening : Keeps OnlyOpening (openLegs D V L) := by
  unfold openLegs
  refine Triple.ite (Keeps.throw _) ?_
  refine Keeps.bind (submit_onlyOpening _ _ _ _ _) (fun _ => ?_)
  refine Keeps.bind (submit_onlyOpening _ _ _ _ _) (fun _ => ?_)
  exact change_keeps

theorem tickFlat_onlyOpening (average : ℚ) : Keeps OnlyOpening (tickFlat D V L average) := by
  unfold tickFlat
  refine Triple.get (fun m hm => ?_)
  refine (Triple.ite (Keeps.pure _) (Triple.ite openLegs_onlyOpening (Keeps.pure _))).strengthen ?_
  intro s hs
  rw [hs]
  exact hm

/-- Without two legs, a flat tick opens or does nothing. -/
theorem tick_onlyOpening (hlegs : twoLegged L = false) :
    Triple (fun m => m.bot.status = .flat ∧ OnlyOpening m) (tick D V L) (fun _ => OnlyOpening)
      (fun _ => OnlyOpening) := by
  have hadopt : Triple (fun m => m.bot.status = .flat ∧ OnlyOpening m) (change (adopted D V L))
      (fun _ m => m.bot.status = .flat ∧ OnlyOpening m) (fun _ => OnlyOpening) := by
    refine Triple.updates (fun m hm => ⟨?_, hm.2⟩)
    have hsame : adopted D V L m.bot = m.bot :=
      if_neg (fun h => absurd h.2.2 (by rw [hlegs]; exact Bool.false_ne_true))
    show (adopted D V L m.bot).status = .flat
    rw [hsame]
    exact hm.1
  unfold tick
  refine Triple.bind hadopt (fun _ => ?_)
  refine Triple.ite (Triple.throw (fun _ h => h.2)) ?_
  refine Triple.get (fun m hm => ?_)
  refine Triple.bind (Q := fun _ => OnlyOpening) ?_ (fun _ => ?_)
  · exact Triple.updates (fun s hs => hs ▸ hm.2)
  · refine Triple.ite (Keeps.throw _) ?_
    rw [if_pos hm.1]
    exact tickFlat_onlyOpening _

end Flat

/-! ## Runs -/

/-- A reading changes neither what decides branches nor the funding history. -/
theorem legs_control (D : DeltaNeutral) (q : Quotes) (s : State) :
    (legs D q s).2.control = s.control ∧ (legs D q s).2.fundingHist = s.fundingHist := by
  unfold legs
  split
  · split
    · exact ⟨rfl, rfl⟩
    · split <;> exact ⟨rfl, rfl⟩
  · exact ⟨rfl, rfl⟩

theorem pass_of_legs {D : DeltaNeutral} {s : State} {i : Input} {L : Reading}
    (h : L ∈ (legs D i.quotes s).1) :
    pass D s i = ended (tick D i.venue L ⟨(legs D i.quotes s).2, []⟩) := by
  unfold pass
  cases hlegs : legs D i.quotes s with
  | mk reading s' =>
      rw [hlegs] at h
      have hreading : reading = some L := h
      rw [hreading]

/-- No tick attends to a single leg that it finds. -/
theorem not_attended {D : DeltaNeutral} {s : State} {i : Input} {L : Reading}
    (hflat : s.status = .flat) (hlegs : L ∈ (legs D i.quotes s).1) (hone : oneLegged L = true) :
    ¬ Attended D L (pass D s i) := by
  intro hattended
  have htwo := oneLegged_not_twoLegged hone
  have honly : OnlyOpening (pass D s i) := by
    rw [pass_of_legs hlegs]
    have hpost := tick_onlyOpening (D := D) (V := i.venue) htwo ⟨(legs D i.quotes s).2, []⟩
      ⟨(congrArg Control.status (legs_control D i.quotes s).1).trans hflat, fun o ho => absurd ho List.not_mem_nil⟩
    cases hrun : tick D i.venue L ⟨(legs D i.quotes s).2, []⟩ with
    | ok a m =>
        rw [hrun] at hpost
        exact hpost
    | error e m =>
        rw [hrun] at hpost
        exact hpost
  rcases hattended.taken with ⟨-, hadopted⟩ | ⟨o, ho, -⟩
  · rw [htwo] at hadopted
    exact Bool.false_ne_true hadopted
  · exact hattended.notOpened o ho (honly o ho)

theorem attendsLeftover_iff {D : DeltaNeutral} {s : State} {i : Input} :
    AttendsLeftover D s i ↔ ¬ FindsLeftover D s i := by
  constructor
  · rintro hattends ⟨hflat, L, hlegs, hone⟩
    exact not_attended hflat hlegs hone (hattends hflat L hlegs hone)
  · intro hnone hflat L hlegs hone
    exact absurd ⟨hflat, L, hlegs, hone⟩ hnone

/-- **No flat tick attends to a single leg**: the ticks of a run all attend to what they find
exactly when none of them finds one. -/
theorem leftover_attended_iff (D : DeltaNeutral) (s : State) (inputs : List Input) :
    Along (next D) (AttendsLeftover D) s inputs ↔
      Along (next D) (fun s i => ¬ FindsLeftover D s i) s inputs :=
  ⟨Along.mono (fun _ _ => attendsLeftover_iff.mp), Along.mono (fun _ _ => attendsLeftover_iff.mpr)⟩

/-! ## A rejected cover -/

/-- A live bot for 100 USDC a leg. -/
def sampleBot : DeltaNeutral where
  p :=
    { notional := 100, entryFundingHr := 1 / 10000, exitFundingHr := 0, fundingWindowH := 1
      minHoldH := 0, rebalancePct := 5, checkMinutes := 1, szDecimals := 2, liqAlertPct := 15
      autoProtect := true, reducePct := 25, allowScaleUp := false, feePct := 1 / 20 }
  dryRun := false

/-- Price 10 for both legs, this funding and account; only the second order may be rejected. -/
def sampleInput (now funding spotQty perpSzi : ℚ) (secondOk : Bool := true) : Input where
  quotes := ⟨some 10, some 10, some funding, some (spotQty, perpSzi)⟩
  venue :=
    { adoptedAt := now, now := now, changedAt := now
      answer := fun n => .answered (n = 0 || secondOk)
      liquidationPx := none, freeUsdc := 0 }

/-- Ten coins a leg are opened; at a close the cover of the short is rejected; the short alone
stays through a tick of low funding; then funding is back. -/
def leftoverRun : List Input :=
  [sampleInput 10000 (1 / 1000) 0 0, sampleInput 20000 (-1 / 1000) 10 (-10) false,
    sampleInput 30000 0 0 (-10), sampleInput 40000 (1 / 1000) 0 (-10)]

/-- The orders of every pass. -/
def ordersOf (D : DeltaNeutral) : State → List Input → List (List (Cause × Leg × ℚ))
  | _, [] => []
  | s, i :: rest =>
      (pass D s i).orders.map (fun o => (o.cause, o.leg, o.change)) :: ordersOf D (next D s i) rest

/-- The third tick leaves the short alone, and the fourth opens another one on top of it. -/
theorem leftover_unattended :
    ordersOf sampleBot {} leftoverRun =
        [[(.opening, .spot, 10), (.opening, .perp, -10)],
          [(.closing, .spot, -10), (.closing, .perp, 10)], [],
          [(.opening, .spot, 10), (.opening, .perp, -10)]] ∧
      ¬ Along (next sampleBot) (AttendsLeftover sampleBot) {} leftoverRun := by
  have horders : ordersOf sampleBot {} leftoverRun =
      [[(.opening, .spot, 10), (.opening, .perp, -10)],
        [(.closing, .spot, -10), (.closing, .perp, 10)], [],
        [(.opening, .spot, 10), (.opening, .perp, -10)]] := by
    decide +kernel
  refine ⟨horders, fun hall => ?_⟩
  obtain ⟨-, -, hthird, -⟩ := hall
  have hflat : (next sampleBot (next sampleBot {} leftoverRun[0]) leftoverRun[1]).status = .flat := by
    decide +kernel
  have hattended := hthird hflat ⟨10, 10, 0, 0, -10⟩ rfl (by decide +kernel)
  exact not_attended hflat (i := leftoverRun[2]) rfl (by decide +kernel) hattended

end TradingFleet.Hyperliquid
