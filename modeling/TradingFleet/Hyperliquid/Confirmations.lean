import Mathlib.Tactic.Positivity
import TradingFleet.Hyperliquid.Leftover

set_option autoImplicit false

/-! # The delta-neutral strategy: confirmations

A missing leg and a large drift are acted on when a counter says that they were seen before. The
counters of the missing legs are only reset by a tick that sees both legs, one of them is shared
by the two legs, and the counter of the drift is only looked at by ticks that rebalance. So a
count of two need not stand for two ticks in a row. `Watch` records beside the state what each
tick saw; `run_confirmed` says for which runs every action is confirmed by the tick before it.
-/

namespace TradingFleet.Hyperliquid

open TradingFleet.Hoare TradingFleet.Runs

/-- The two patterns advance the same counter. -/
def Pattern.shares : Pattern → Pattern → Bool
  | .bothGone, .bothGone => true
  | .spotGone, .spotGone => true
  | .spotGone, .perpGone => true
  | .perpGone, .spotGone => true
  | .perpGone, .perpGone => true
  | _, _ => false

/-- What a tick sees of the legs. Without a position nothing is missing. -/
def seenPattern (D : DeltaNeutral) (V : Venue) (L : Reading) (s : State) : Pattern :=
  if (adopted D V L s).status = .flat ∨ (adopted D V L s).targetSz ≤ 0 then .whole
  else pattern (adopted D V L s).targetSz L

/-- The state, the patterns of the ticks so far with the newest first, and whether the last one
saw a large drift from the target it left. -/
structure Watch where
  bot : State := {}
  seen : List Pattern := []
  drifted : Bool := false

/-- The patterns since a tick last saw both legs. -/
def Watch.streak (w : Watch) : List Pattern := w.seen.takeWhile (fun p => p ≠ .whole)

/-- One pass; without a reading nothing is seen. -/
def watch (D : DeltaNeutral) (w : Watch) (i : Input) : Watch :=
  match (legs D i.quotes w.bot).1 with
  | none => { w with bot := next D w.bot i }
  | some L =>
      { bot := next D w.bot i
        seen := seenPattern D i.venue L w.bot :: w.seen
        drifted := largeDrift (next D w.bot i).targetSz L }

/-- Every action of the tick is confirmed by the tick before it. -/
structure Confirmed (D : DeltaNeutral) (V : Venue) (L : Reading) (w : Watch) (m : Machine) :
    Prop where
  missing : seenPattern D V L w.bot ≠ .whole → m.orders ≠ [] ∨ m.bot.status = .flat →
    w.seen.head? = some (seenPattern D V L w.bot)
  orphan : ∀ o ∈ m.orders, o.cause = .orphan → seenPattern D V L w.bot ≠ .whole
  drift : (∃ o ∈ m.orders, o.cause = .rebalancing) → largeDrift m.bot.targetSz L = true →
    w.drifted = true

/-- The legs do not go missing in alternation, and no pending drift is passed over. -/
structure Steady (D : DeltaNeutral) (V : Venue) (L : Reading) (w : Watch) : Prop where
  evaluated : L.spotPx ≠ 0 ∧ 0 ≤ D.p.fundingWindowH
  pattern : (∃ q ∈ w.streak, q.shares (seenPattern D V L w.bot) = true) →
    w.seen.head? = some (seenPattern D V L w.bot)
  pending : 0 < w.bot.driftCount →
    L.perpPx ≠ 0 ∧ reduces D V L = false ∧ ∀ n e, V.answer n ≠ .raised e

def ConfirmedStep (D : DeltaNeutral) (w : Watch) (i : Input) : Prop :=
  ∀ L ∈ (legs D i.quotes w.bot).1, Confirmed D i.venue L w (pass D w.bot i)

def SteadyStep (D : DeltaNeutral) (w : Watch) (i : Input) : Prop :=
  ∀ L ∈ (legs D i.quotes w.bot).1, Steady D i.venue L w

/-! ## What a tick can do -/

theorem shares_trans {p q r : Pattern} (hpq : p.shares q = true) (hqr : q.shares r = true) :
    p.shares r = true := by
  cases p with
  | whole => cases hpq
  | bothGone => cases q <;> cases hpq; exact hqr
  | spotGone => cases q <;> cases hpq <;> cases r <;> first | rfl | cases hqr
  | perpGone => cases q <;> cases hpq <;> cases r <;> first | rfl | cases hqr

/-- The control fields of `_new_state`. -/
def Control.fresh : Control := ({} : State).control

/-- How a tick ends that starts with these control fields after an adoption. -/
inductive Ends (c : Control) (L : Reading) (m : Machine) : Prop
  | flat (hstatus : c.status = .flat) (horders : ∀ o ∈ m.orders, o.cause = .opening)
      (hcounts : m.bot.orphanCount = c.orphanCount ∧ m.bot.goneCount = c.goneCount ∧
        m.bot.driftCount = c.driftCount)
  | retired (hstatus : c.status = .opened) (htarget : c.targetSz ≤ 0) (horders : m.orders = [])
      (hfresh : m.bot.control = Control.fresh)
  | gone (hstatus : c.status = .opened) (htarget : 0 < c.targetSz)
      (hpattern : pattern c.targetSz L = .bothGone) (horders : m.orders = [])
      (hcontrol : m.bot.control = { c with goneCount := c.goneCount + 1 } ∨
        0 < c.goneCount ∧ m.bot.control = Control.fresh)
  | orphan (hstatus : c.status = .opened) (htarget : 0 < c.targetSz)
      (hpattern : pattern c.targetSz L = .spotGone ∨ pattern c.targetSz L = .perpGone)
      (horders : ∀ o ∈ m.orders, o.cause = .orphan) (hacts : m.orders ≠ [] → 0 < c.orphanCount)
      (hcontrol : m.bot.control = { c with orphanCount := c.orphanCount + 1 } ∨
        0 < c.orphanCount ∧ m.bot.control = Control.fresh)
  | whole (hstatus : c.status = .opened) (htarget : 0 < c.targetSz)
      (hpattern : pattern c.targetSz L = .whole) (horders : ∀ o ∈ m.orders, o.cause ≠ .orphan)
      (hcounts : m.bot.orphanCount = 0 ∧ m.bot.goneCount = 0)
      (hflat : m.bot.status = .flat → m.bot.driftCount = 0)
      (hdrift : 0 < m.bot.driftCount → largeDrift m.bot.targetSz L = true)
      (hrebalances : (∃ o ∈ m.orders, o.cause = .rebalancing) →
        largeDrift m.bot.targetSz L = true → 0 < c.driftCount)

section Tick

variable {D : DeltaNeutral} {V : Venue} {L : Reading} {c : Control}

/-- The control fields, and orders of these causes only. -/
def Sends (c : Control) (allowed : Cause → Prop) (m : Machine) : Prop :=
  m.bot.control = c ∧ ∀ o ∈ m.orders, allowed o.cause

theorem submit_sends {allowed : Cause → Prop} {cause : Cause} (hcause : allowed cause)
    (leg : Leg) (buys reduceOnly : Bool) (sz px : ℚ) :
    Keeps (Sends c allowed) (submit D V cause leg buys reduceOnly sz px) :=
  submit_keeps (fun _ _ hm hbooked =>
    ⟨hbooked.control.trans hm.1, hbooked.forall_orders hm.2 hcause⟩)

theorem onlyIf_keeps {I : Machine → Prop} {p : Prop} [Decidable p] {x : DnM Unit}
    (h : p → Keeps I x) : Keeps I (onlyIf p x) := by
  unfold onlyIf
  by_cases hp : p
  · rw [if_pos hp]
    exact h hp
  · rw [if_neg hp]
    exact Keeps.pure _

theorem goFlat_sends {allowed : Cause → Prop} (cooldownS : ℚ) {E : String → Machine → Prop} :
    Triple (Sends c allowed) (goFlat V cooldownS) (fun _ => Sends Control.fresh allowed) E :=
  fun _ hm => ⟨rfl, hm.2⟩

theorem closeRemainder_sends {E : String → Machine → Prop} (hraise : ∀ e m,
      Sends c (· = .orphan) m → E e m) :
    Triple (Sends c (· = .orphan)) (closeRemainder D V L)
      (fun _ => Sends Control.fresh (· = .orphan)) E := by
  have hkeeps : ∀ {x : DnM Unit}, Keeps (Sends c (· = .orphan)) x →
      Triple (Sends c (· = .orphan)) x (fun _ => Sends c (· = .orphan)) E :=
    fun hx => hx.conseq (fun _ h => h) (fun _ _ h => h) hraise
  unfold closeRemainder
  refine Triple.get (fun m₀ hm₀ => Triple.strengthen (P := Sends c (· = .orphan)) ?_
    (fun m hm => hm ▸ hm₀))
  refine Triple.bind (hkeeps (onlyIf_keeps (fun _ => submit_sends (by rfl) _ _ _ _ _))) (fun _ => ?_)
  refine Triple.bind (hkeeps (onlyIf_keeps (fun _ => submit_sends (by rfl) _ _ _ _ _))) (fun _ => ?_)
  exact goFlat_sends _

/-- The check ends the tick, or both legs are there and nothing was sent. -/
def Looked (c : Control) (L : Reading) (handled : Bool) (m : Machine) : Prop :=
  (handled = true → Ends c L m) ∧ (handled = false →
    0 < c.targetSz ∧ pattern c.targetSz L = .whole ∧
      m.bot.control = { c with orphanCount := 0, goneCount := 0 } ∧ m.orders = [])

theorem checkLegsIntegrity_ends (hstatus : c.status = .opened) :
    Triple (fun m => m.bot.control = c ∧ m.orders = []) (checkLegsIntegrity D V L) (Looked c L)
      (fun _ => Ends c L) := by
  have hdone : ∀ {P : Machine → Prop}, (∀ m, P m → Ends c L m) →
      Triple P (Pure.pure true : DnM Bool) (Looked c L) (fun _ => Ends c L) :=
    fun hP => Triple.pure (fun m hm => ⟨fun _ => hP m hm, fun h => by cases h⟩)
  have hcounted : ∀ (c' : Control) {f : State → State}, (∀ s, s.control = c → (f s).control = c') →
      Triple (fun m => m.bot.control = c ∧ m.orders = []) (change f)
        (fun _ m => m.bot.control = c' ∧ m.orders = []) (fun _ => Ends c L) :=
    fun c' _ hf m hm => ⟨hf m.bot hm.1, hm.2⟩
  have hflat : ∀ {c' : Control} (cooldownS : ℚ),
      Triple (fun m => m.bot.control = c' ∧ m.orders = []) (goFlat V cooldownS)
        (fun _ m => m.bot.control = Control.fresh ∧ m.orders = []) (fun _ => Ends c L) :=
    fun cooldownS m hm => ⟨rfl, hm.2⟩
  unfold checkLegsIntegrity
  refine Triple.get (fun m₀ hm₀ => ?_)
  have htarget : m₀.bot.targetSz = c.targetSz := congrArg Control.targetSz hm₀.1
  have horphan : m₀.bot.orphanCount = c.orphanCount := congrArg Control.orphanCount hm₀.1
  have hgone : m₀.bot.goneCount = c.goneCount := congrArg Control.goneCount hm₀.1
  refine Triple.strengthen (P := fun m => m.bot.control = c ∧ m.orders = []) ?_
    (fun m hm => hm ▸ hm₀)
  rw [htarget]
  by_cases hzero : c.targetSz ≤ 0
  · rw [if_pos hzero]
    refine Triple.bind (hflat 0) (fun _ => hdone (fun m hm => ?_))
    exact .retired hstatus hzero hm.2 hm.1
  rw [if_neg hzero]
  have hpos : 0 < c.targetSz := not_le.mp hzero
  -- one leg is gone: the other is closed on the second sight of it
  have horphaned : pattern c.targetSz L = .spotGone ∨ pattern c.targetSz L = .perpGone →
      Triple (fun m => m.bot.control = { c with orphanCount := c.orphanCount + 1 } ∧ m.orders = [])
        (onlyIf (2 ≤ m₀.bot.orphanCount + 1 ∧ D.p.autoProtect = true) (closeRemainder D V L))
        (fun _ => Ends c L) (fun _ => Ends c L) := by
    intro hpattern
    unfold onlyIf
    by_cases hact : 2 ≤ m₀.bot.orphanCount + 1 ∧ D.p.autoProtect = true
    · have hconfirmed : 0 < c.orphanCount := by omega
      rw [if_pos hact]
      refine Triple.conseq (closeRemainder_sends (c := { c with orphanCount := c.orphanCount + 1 })
        (E := fun _ => Ends c L) ?_) ?_ ?_ (fun _ _ h => h)
      · exact fun _ m hm => .orphan hstatus hpos hpattern hm.2 (fun _ => hconfirmed) (Or.inl hm.1)
      · exact fun m hm => ⟨hm.1, fun o ho => by rw [hm.2] at ho; cases ho⟩
      · exact fun _ m hm => .orphan hstatus hpos hpattern hm.2 (fun _ => hconfirmed)
          (Or.inr ⟨hconfirmed, hm.1⟩)
    · rw [if_neg hact]
      refine Triple.pure (fun m hm => .orphan hstatus hpos hpattern ?_ ?_ (Or.inl hm.1))
      · exact fun o ho => by rw [hm.2] at ho; cases ho
      · exact fun h => absurd hm.2 h
  cases hpattern : pattern c.targetSz L with
  | bothGone =>
      refine Triple.bind (hcounted { c with goneCount := c.goneCount + 1 }
        (fun s hs => by rw [← hs]; rfl)) (fun _ => ?_)
      refine Triple.bind (Q := fun _ => Ends c L) ?_ (fun _ => hdone (fun _ hm => hm))
      unfold onlyIf
      -- both are gone: also only the second sight counts
      by_cases hact : 2 ≤ m₀.bot.goneCount + 1
      · have hconfirmed : 0 < c.goneCount := by omega
        rw [if_pos hact]
        refine (hflat 3600).weaken (fun _ m hm => ?_)
        exact .gone hstatus hpos hpattern hm.2 (Or.inr ⟨hconfirmed, hm.1⟩)
      · rw [if_neg hact]
        exact Triple.pure (fun m hm => .gone hstatus hpos hpattern hm.2 (Or.inl hm.1))
  | whole =>
      refine Triple.bind (hcounted { c with orphanCount := 0, goneCount := 0 }
        (fun s hs => by rw [← hs]; rfl)) (fun _ => ?_)
      exact Triple.pure (fun m hm =>
        ⟨fun h => (by cases h), fun _ => ⟨hpos, hpattern, hm.1, hm.2⟩⟩)
  | spotGone =>
      refine Triple.bind (hcounted { c with orphanCount := c.orphanCount + 1 }
        (fun s hs => by rw [← hs]; rfl)) (fun _ => ?_)
      exact Triple.bind (horphaned (Or.inl hpattern)) (fun _ => hdone (fun _ hm => hm))
  | perpGone =>
      refine Triple.bind (hcounted { c with orphanCount := c.orphanCount + 1 }
        (fun s hs => by rw [← hs]; rfl)) (fun _ => ?_)
      exact Triple.bind (horphaned (Or.inr hpattern)) (fun _ => hdone (fun _ hm => hm))

/-! ## A tick that sees both legs -/

/-- Nothing was sent for a missing leg or for a drift, and the drift counter is as it was. -/
structure Quiet (c : Control) (m : Machine) : Prop where
  status : m.bot.status = .opened
  counts : m.bot.orphanCount = 0 ∧ m.bot.goneCount = 0
  drift : m.bot.driftCount = c.driftCount
  orders : ∀ o ∈ m.orders, o.cause ≠ .orphan ∧ o.cause ≠ .rebalancing

/-- An exception leaves a drift counter of zero. -/
def Raised (c : Control) (_ : String) (m : Machine) : Prop := Quiet c m ∧ c.driftCount = 0

theorem Quiet.ends {m : Machine} (h : Quiet c m) (hstatus : c.status = .opened)
    (htarget : 0 < c.targetSz) (hpattern : pattern c.targetSz L = .whole)
    (hdrift : 0 < m.bot.driftCount → largeDrift m.bot.targetSz L = true) : Ends c L m := by
  refine .whole hstatus htarget hpattern (fun o ho => (h.orders o ho).1) h.counts ?_ hdrift ?_
  · intro hflat
    rw [h.status] at hflat
    cases hflat
  · rintro ⟨o, ho, hcause⟩
    exact absurd hcause (h.orders o ho).2

theorem change_quiet {f : State → State} {E : String → Machine → Prop}
    (hf : ∀ s, (f s).status = s.status ∧ (f s).orphanCount = s.orphanCount ∧
      (f s).goneCount = s.goneCount ∧ (f s).driftCount = s.driftCount) :
    Triple (Quiet c) (change f) (fun _ => Quiet c) E := by
  intro m h
  obtain ⟨hstatus, horphan, hgone, hdrift⟩ := hf m.bot
  exact ⟨hstatus.trans h.status, ⟨horphan.trans h.counts.1, hgone.trans h.counts.2⟩, hdrift.trans h.drift, h.orders⟩

variable (hpending : 0 < c.driftCount →
  L.perpPx ≠ 0 ∧ reduces D V L = false ∧ ∀ n e, V.answer n ≠ .raised e)
include hpending

theorem submit_quiet {cause : Cause} (hcause : cause ≠ .orphan ∧ cause ≠ .rebalancing)
    (leg : Leg) (buys reduceOnly : Bool) (sz px : ℚ) :
    Triple (Quiet c) (submit D V cause leg buys reduceOnly sz px) (fun _ => Quiet c) (Raised c) := by
  have hone : ∀ m m', Quiet c m →
      Booked D (orderFor D cause leg buys reduceOnly sz px) m m' → Quiet c m' := by
    intro m m' hm hbooked
    have horphan : m'.bot.orphanCount = m.bot.orphanCount :=
      congrArg Control.orphanCount hbooked.control
    have hgone : m'.bot.goneCount = m.bot.goneCount := congrArg Control.goneCount hbooked.control
    have hdrift : m'.bot.driftCount = m.bot.driftCount :=
      congrArg Control.driftCount hbooked.control
    have hstatus : m'.bot.status = m.bot.status := congrArg Control.status hbooked.control
    exact ⟨hstatus.trans hm.status, ⟨horphan.trans hm.counts.1, hgone.trans hm.counts.2⟩,
      hdrift.trans hm.drift, hbooked.forall_orders hm.orders hcause⟩
  refine submit_triple (fun _ _ hm => hm) (fun _ => hone) (fun e m m' hanswer hm hbooked => ?_)
  refine ⟨hone m m' hm hbooked, Nat.eq_zero_of_not_pos (fun hpos => ?_)⟩
  exact (hpending hpos).2.2 _ _ hanswer

theorem checkLiq_quiet :
    Triple (Quiet c) (checkLiq D V L)
      (fun reduced m => Quiet c m ∧ (reduced = true → c.driftCount = 0)) (Raised c) := by
  have hfalse : Triple (Quiet c) (Pure.pure false : DnM Bool)
      (fun reduced m => Quiet c m ∧ (reduced = true → c.driftCount = 0)) (Raised c) :=
    Triple.pure (fun m hm => ⟨hm, fun h => by cases h⟩)
  unfold checkLiq
  dsimp only
  refine Triple.ite hfalse ?_
  by_cases hpx : L.perpPx = 0
  · rw [if_pos hpx]
    refine Triple.throw (fun m hm => ⟨hm, Nat.eq_zero_of_not_pos (fun hpos => ?_)⟩)
    exact (hpending hpos).1 hpx
  rw [if_neg hpx]
  refine Triple.bind (change_quiet (fun s => ?_)) (fun _ => ?_)
  · split
    · exact ⟨rfl, rfl, rfl, rfl⟩
    · split <;> exact ⟨rfl, rfl, rfl, rfl⟩
  by_cases hreduces : reduces D V L = true
  · rw [if_pos hreduces]
    have hzero : c.driftCount = 0 := by
      refine Nat.eq_zero_of_not_pos (fun hpos => ?_)
      rw [(hpending hpos).2.1] at hreduces
      exact Bool.false_ne_true hreduces
    refine Triple.bind (submit_quiet hpending (by decide) _ _ _ _ _) (fun _ => ?_)
    refine Triple.bind (submit_quiet hpending (by decide) _ _ _ _ _) (fun _ => ?_)
    refine Triple.bind (change_quiet (fun s => by exact ⟨rfl, rfl, rfl, rfl⟩)) (fun _ => ?_)
    exact Triple.pure (fun m hm => ⟨hm, fun _ => hzero⟩)
  · rw [if_neg hreduces]
    exact hfalse

theorem maybeScaleUp_quiet :
    Triple (Quiet c) (maybeScaleUp D V L) (fun _ => Quiet c) (Raised c) := by
  unfold maybeScaleUp
  refine Triple.get (fun m₀ hm₀ => Triple.strengthen (P := Quiet c) ?_ (fun m hm => hm ▸ hm₀))
  by_cases hfails : D.p.allowScaleUp = true ∧
      m₀.bot.targetSz * L.perpPx < D.p.notional * (95 / 100) ∧ L.perpPx = 0
  · rw [if_pos hfails]
    refine Triple.throw (fun m hm => ⟨hm, Nat.eq_zero_of_not_pos (fun hpos => ?_)⟩)
    exact (hpending hpos).1 hfails.2.2
  · rw [if_neg hfails]
    exact change_quiet (fun s => by exact ⟨rfl, rfl, rfl, rfl⟩)

theorem closeLegs_ends (hstatus : c.status = .opened) (htarget : 0 < c.targetSz)
    (hpattern : pattern c.targetSz L = .whole) :
    Triple (Quiet c) (closeLegs D V L) (fun _ => Ends c L) (Raised c) := by
  have hleg : ∀ {p : Prop} [Decidable p] (leg : Leg) (buys reduceOnly : Bool) (sz px : ℚ),
      Triple (Quiet c) (onlyIf p (submit D V .closing leg buys reduceOnly sz px))
        (fun _ => Quiet c) (Raised c) := by
    intro p _ leg buys reduceOnly sz px
    unfold onlyIf
    exact Triple.ite (submit_quiet hpending (by decide) _ _ _ _ _) (Triple.pure (fun _ hm => hm))
  unfold closeLegs
  refine Triple.bind (hleg _ _ _ _ _) (fun _ => Triple.bind (hleg _ _ _ _ _) (fun _ => ?_))
  refine Triple.updates (fun m hm => ?_)
  refine .whole hstatus htarget hpattern (fun o ho => (hm.orders o ho).1) ⟨rfl, rfl⟩
    (fun _ => rfl) (fun h => absurd h (lt_irrefl 0)) ?_
  rintro ⟨o, ho, hcause⟩
  exact absurd hcause (hm.orders o ho).2

omit hpending in
/-- While the legs are corrected: the target and the drift counter stand. -/
structure Correcting (t : ℚ) (n : Nat) (m : Machine) : Prop where
  status : m.bot.status = .opened
  target : m.bot.targetSz = t
  drift : m.bot.driftCount = n
  counts : m.bot.orphanCount = 0 ∧ m.bot.goneCount = 0
  orders : ∀ o ∈ m.orders, o.cause ≠ .orphan

omit hpending in
theorem Correcting.booked {t : ℚ} {n : Nat} {o : Order} {m m' : Machine} (h : Correcting t n m)
    (hbooked : Booked D o m m') (ho : o.cause ≠ .orphan) : Correcting t n m' where
  status := (congrArg Control.status hbooked.control).trans h.status
  target := (congrArg Control.targetSz hbooked.control).trans h.target
  drift := (congrArg Control.driftCount hbooked.control).trans h.drift
  counts := ⟨(congrArg Control.orphanCount hbooked.control).trans h.counts.1,
    (congrArg Control.goneCount hbooked.control).trans h.counts.2⟩
  orders := hbooked.forall_orders h.orders ho

omit hpending in
/-- Corrections that a confirmed or a small drift asks for. -/
theorem correctLegs_ends (hstatus : c.status = .opened) (htarget : 0 < c.targetSz)
    (hpattern : pattern c.targetSz L = .whole) {t : ℚ} {n : Nat}
    (hcount : 0 < n → largeDrift t L = true) (hconfirmed : largeDrift t L = true → 0 < c.driftCount) :
    Triple (Correcting t n) (correctLegs D V L t) (fun _ => Ends c L) (fun _ => Ends c L) := by
  have hends : ∀ {m : Machine} {n : Nat}, (0 < n → largeDrift t L = true) → Correcting t n m →
      Ends c L m := by
    intro m n hn h
    refine .whole hstatus htarget hpattern h.orders h.counts ?_ ?_ ?_
    · intro hflat
      rw [h.status] at hflat
      cases hflat
    · intro hpos
      rw [h.target]
      exact hn (h.drift ▸ hpos)
    · intro _ hlarge
      rw [h.target] at hlarge
      exact hconfirmed hlarge
  have hsubmit : ∀ (leg : Leg) (buys reduceOnly : Bool) (sz px : ℚ),
      Triple (Correcting t n) (submit D V .rebalancing leg buys reduceOnly sz px)
        (fun _ => Correcting t n) (fun _ => Ends c L) := by
    intro leg buys reduceOnly sz px
    exact (submit_keeps (fun m m' hm hbooked => hm.booked hbooked nofun)).conseq
      (fun _ h => h) (fun _ _ h => h) (fun _ _ h => hends hcount h)
  have hleg : ∀ {p q : Prop} [Decidable p] [Decidable q] (leg : Leg) (buys ro buys' ro' : Bool)
      (sz px : ℚ),
      Triple (Correcting t n)
        (onlyIf p (if q then submit D V .rebalancing leg buys ro sz px
          else submit D V .rebalancing leg buys' ro' sz px))
        (fun _ => Correcting t n) (fun _ => Ends c L) := by
    intro p q _ _ leg buys ro buys' ro' sz px
    unfold onlyIf
    exact Triple.ite (Triple.ite (hsubmit _ _ _ _ _) (hsubmit _ _ _ _ _))
      (Triple.pure (fun _ hm => hm))
  unfold correctLegs
  refine Triple.bind (hleg .spot true false false false _ _) (fun _ => ?_)
  refine Triple.bind (hleg .perp false false true true _ _) (fun _ => ?_)
  refine Triple.updates (fun m hm => ?_)
  exact hends (fun h => absurd h (lt_irrefl 0)) ⟨hm.status, hm.target, rfl, hm.counts, hm.orders⟩

omit hpending in
theorem rebalance_ends (hstatus : c.status = .opened) (htarget : 0 < c.targetSz)
    (hpattern : pattern c.targetSz L = .whole) :
    Triple (Quiet c) (rebalance D V L) (fun _ => Ends c L) (fun _ => Ends c L) := by
  unfold rebalance
  refine Triple.get (fun m₀ hm₀ => ?_)
  refine Triple.bind (Q := fun confirmed m =>
    (confirmed = true → ∃ n, (0 < n → largeDrift m₀.bot.targetSz L = true) ∧
      (largeDrift m₀.bot.targetSz L = true → 0 < c.driftCount) ∧
      Correcting m₀.bot.targetSz n m) ∧
    (confirmed = false → Ends c L m)) ?_ (fun confirmed => ?_)
  · unfold driftConfirmed
    refine Triple.get (fun m hm => ?_)
    rw [hm]
    have horders : ∀ o ∈ m₀.orders, o.cause ≠ .orphan := fun o ho => (hm₀.orders o ho).1
    by_cases hlarge : largeDrift m₀.bot.targetSz L = true
    · rw [if_pos hlarge]
      refine Triple.bind (Q := fun _ m => m =
        { m₀ with bot := { m₀.bot with driftCount := m₀.bot.driftCount + 1 } }) ?_ (fun _ => ?_)
      · exact Triple.updates (fun m' hm' => by rw [hm'])
      · refine Triple.pure (fun m' hm' => ?_)
        rw [hm']
        constructor
        · intro hconfirmed
          -- confirmed is the second drift in a row
          have htwo := of_decide_eq_true hconfirmed
          rw [hm₀.drift] at htwo
          exact ⟨_, fun _ => hlarge, fun _ => (by omega),
            ⟨hm₀.status, rfl, rfl, hm₀.counts, horders⟩⟩
        · intro _
          refine .whole hstatus htarget hpattern horders hm₀.counts ?_ (fun _ => hlarge) ?_
          · intro hflat
            have hopened : m₀.bot.status = .flat := hflat
            rw [hm₀.status] at hopened
            cases hopened
          · rintro ⟨o, ho, hcause⟩
            exact absurd hcause (hm₀.orders o ho).2
    · rw [if_neg hlarge]
      refine Triple.bind (Q := fun _ m => m =
        { m₀ with bot := { m₀.bot with driftCount := 0 } }) ?_ (fun _ => ?_)
      · exact Triple.updates (fun m' hm' => by rw [hm'])
      · refine Triple.pure (fun m' hm' => ?_)
        rw [hm']
        constructor
        · intro _
          exact ⟨0, fun h => absurd h (lt_irrefl 0), fun h => absurd h hlarge,
            ⟨hm₀.status, rfl, rfl, hm₀.counts, horders⟩⟩
        · intro h
          cases h
  · unfold onlyIf
    cases confirmed with
    | true =>
        rw [if_pos rfl]
        intro m hm
        obtain ⟨n, hcount, hconfirmed, hready⟩ := hm.1 rfl
        exact correctLegs_ends hstatus htarget hpattern hcount hconfirmed m hready
    | false =>
        rw [if_neg Bool.false_ne_true]
        exact Triple.pure (fun m hm => hm.2 rfl)

/-! ## A whole tick -/

theorem tickOpen_ends (hstatus : c.status = .opened) (close : Bool) :
    Triple (fun m => m.bot.control = c ∧ m.orders = []) (tickOpen D V L close)
      (fun _ => Ends c L) (fun _ => Ends c L) := by
  unfold tickOpen
  refine Triple.bind (checkLegsIntegrity_ends hstatus) (fun handled => ?_)
  unfold onlyIf
  cases handled with
  | true =>
      rw [if_neg (by simp)]
      exact Triple.pure (fun m hm => hm.1 rfl)
  | false =>
      rw [if_pos rfl]
      intro m₀ hm₀
      obtain ⟨htarget, hwhole, hcontrol, horders⟩ := hm₀.2 rfl
      -- both legs are there and nothing was sent yet
      have hquiet : Quiet c m₀ := by
        refine ⟨(congrArg Control.status hcontrol).trans hstatus,
          ⟨congrArg Control.orphanCount hcontrol, congrArg Control.goneCount hcontrol⟩,
          congrArg Control.driftCount hcontrol, fun o ho => ?_⟩
        rw [horders] at ho
        cases ho
      have hraised : ∀ e m, Raised c e m → Ends c L m := by
        rintro e m ⟨hm, hzero⟩
        refine hm.ends hstatus htarget hwhole (fun h => ?_)
        rw [hm.drift, hzero] at h
        exact absurd h (lt_irrefl 0)
      refine (?_ : Triple (Quiet c) _ _ _) m₀ hquiet
      refine Triple.bind (change_quiet (fun s => by exact ⟨rfl, rfl, rfl, rfl⟩)) (fun _ => ?_)
      refine Triple.bind ((checkLiq_quiet hpending).conseq (fun _ h => h) (fun _ _ h => h) hraised)
        (fun reduced => ?_)
      refine Triple.bind (Q := fun _ m => Quiet c m ∧ (reduced = true → c.driftCount = 0)) ?_
        (fun _ => ?_)
      · by_cases hreduced : reduced = false
        · rw [if_pos hreduced]
          refine (((maybeScaleUp_quiet hpending).conseq (fun _ h => h) (fun _ _ h => h)
            hraised).weaken ?_).strengthen (fun m hm => hm.1)
          exact fun _ m hm => ⟨hm, fun h => by rw [hreduced] at h; cases h⟩
        · rw [if_neg hreduced]
          exact Triple.pure (fun m hm => hm)
      · refine Triple.ite ?_ ?_
        · exact ((closeLegs_ends hpending hstatus htarget hwhole).conseq (fun _ h => h)
            (fun _ _ h => h) hraised).strengthen (fun m hm => hm.1)
        · by_cases hreduced : reduced = false
          · rw [if_pos hreduced]
            exact (rebalance_ends hstatus htarget hwhole).strengthen (fun m hm => hm.1)
          · rw [if_neg hreduced]
            refine Triple.pure (fun m hm => hm.1.ends hstatus htarget hwhole (fun h => ?_))
            rw [hm.1.drift, hm.2 (Bool.eq_true_of_not_eq_false hreduced)] at h
            exact absurd h (lt_irrefl 0)

omit hpending in
/-- A flat tick leaves the counters. -/
theorem tickFlat_ends (hstatus : c.status = .flat) (average : ℚ) :
    Triple (fun m => m.bot.control = c ∧ m.orders = []) (tickFlat D V L average)
      (fun _ => Ends c L) (fun _ => Ends c L) := by
  have hcounts : Keeps (fun m => (m.bot.orphanCount = c.orphanCount ∧
      m.bot.goneCount = c.goneCount ∧ m.bot.driftCount = c.driftCount) ∧ OnlyOpening m)
      (tickFlat D V L average) := by
    have hsubmit : ∀ (leg : Leg) (buys reduceOnly : Bool) (sz px : ℚ),
        Keeps (fun m => (m.bot.orphanCount = c.orphanCount ∧ m.bot.goneCount = c.goneCount ∧
          m.bot.driftCount = c.driftCount) ∧ OnlyOpening m)
          (submit D V .opening leg buys reduceOnly sz px) := by
      intro leg buys reduceOnly sz px
      refine submit_keeps (fun m m' hm hbooked => ⟨?_, hbooked.forall_orders hm.2 rfl⟩)
      obtain ⟨⟨horphan, hgone, hdrift⟩, -⟩ := hm
      exact ⟨(congrArg Control.orphanCount hbooked.control).trans horphan,
        (congrArg Control.goneCount hbooked.control).trans hgone,
        (congrArg Control.driftCount hbooked.control).trans hdrift⟩
    unfold tickFlat
    refine Triple.get (fun m₀ hm₀ => Triple.strengthen (P := fun m =>
      (m.bot.orphanCount = c.orphanCount ∧ m.bot.goneCount = c.goneCount ∧
        m.bot.driftCount = c.driftCount) ∧ OnlyOpening m) ?_ (fun m hm => hm ▸ hm₀))
    refine Triple.ite (Keeps.pure _) (Triple.ite ?_ (Keeps.pure _))
    unfold openLegs
    refine Triple.ite (Keeps.throw _) ?_
    refine Keeps.bind (hsubmit _ _ _ _ _) (fun _ => Keeps.bind (hsubmit _ _ _ _ _) (fun _ => ?_))
    exact fun m hm => hm
  refine hcounts.conseq ?_ (fun _ m hm => .flat hstatus hm.2 hm.1) (fun _ m hm => .flat hstatus hm.2 hm.1)
  rintro m ⟨hcontrol, horders⟩
  refine ⟨⟨congrArg Control.orphanCount hcontrol, congrArg Control.goneCount hcontrol,
    congrArg Control.driftCount hcontrol⟩, fun o ho => ?_⟩
  rw [horders] at ho
  cases ho

omit hpending in
theorem recentFunding_ne_nil (hwindow : 0 ≤ D.p.fundingWindowH) (hist : List (ℚ × ℚ)) :
    recentFunding D V L hist ≠ [] := by
  refine List.ne_nil_of_mem (a := (V.now, L.funding)) ?_
  unfold recentFunding
  rw [List.mem_filter, decide_eq_true_eq, sub_self]
  exact ⟨List.mem_append_right _ (List.mem_singleton_self _), by positivity⟩

theorem tick_ends (hspotPx : L.spotPx ≠ 0) (hwindow : 0 ≤ D.p.fundingWindowH) {s : State}
    (hc : (adopted D V L s).control = c) :
    Triple (fun m => m.bot = s ∧ m.orders = []) (tick D V L) (fun _ => Ends c L)
      (fun _ => Ends c L) := by
  unfold tick
  refine Triple.bind (Q := fun _ m => m.bot.control = c ∧ m.orders = []) ?_ (fun _ => ?_)
  · rintro m ⟨rfl, horders⟩
    exact ⟨hc, horders⟩
  rw [if_neg hspotPx]
  refine Triple.get (fun m₀ hm₀ => ?_)
  refine Triple.bind (Q := fun _ m => m.bot.control = c ∧ m.orders = []) ?_ (fun _ => ?_)
  · rintro m rfl
    exact hm₀
  rw [if_neg (recentFunding_ne_nil hwindow _)]
  have hstatus : m₀.bot.status = c.status := congrArg Control.status hm₀.1
  rw [hstatus]
  cases hopen : c.status with
  | flat =>
      rw [if_pos rfl]
      exact tickFlat_ends hopen _
  | opened =>
      rw [if_neg nofun]
      exact tickOpen_ends hpending hopen _

end Tick

/-! ## Runs -/

/-- Every counter that is not zero stands for something seen: the counters of the missing legs
since both legs were last there, the drift counter on the last tick. -/
structure Counted (w : Watch) : Prop where
  flat : w.bot.status = .flat →
    w.bot.orphanCount = 0 ∧ w.bot.goneCount = 0 ∧ w.bot.driftCount = 0
  orphan : 0 < w.bot.orphanCount → ∃ q ∈ w.streak, q.shares .spotGone = true
  gone : 0 < w.bot.goneCount → .bothGone ∈ w.streak
  drift : 0 < w.bot.driftCount → w.drifted = true

theorem Counted.fresh {w : Watch} (h : w.bot.control = Control.fresh) : Counted w where
  flat _ := ⟨congrArg Control.orphanCount h, congrArg Control.goneCount h,
    congrArg Control.driftCount h⟩
  orphan hpos := absurd (hpos.trans_eq (congrArg Control.orphanCount h)) (lt_irrefl 0)
  gone hpos := absurd (hpos.trans_eq (congrArg Control.goneCount h)) (lt_irrefl 0)
  drift hpos := absurd (hpos.trans_eq (congrArg Control.driftCount h)) (lt_irrefl 0)

theorem adopted_control {D : DeltaNeutral} {V : Venue} {L : Reading} {s s' : State}
    (h : s'.control = s.control) :
    (adopted D V L s').control = (adopted D V L s).control := by
  have hstatus : s'.status = s.status := congrArg Control.status h
  have hopenedTs : s'.openedTs = s.openedTs := congrArg Control.openedTs h
  unfold adopted
  rw [hstatus]
  by_cases hadopts : (!D.dryRun) = true ∧ s.status = .flat ∧ twoLegged L = true
  · rw [if_pos hadopts, if_pos hadopts, hopenedTs]
    have horphan : s'.orphanCount = s.orphanCount := congrArg Control.orphanCount h
    have hgone : s'.goneCount = s.goneCount := congrArg Control.goneCount h
    have hdrift : s'.driftCount = s.driftCount := congrArg Control.driftCount h
    unfold State.control
    dsimp only
    rw [horphan, hgone, hdrift]
  · rw [if_neg hadopts, if_neg hadopts]
    exact h

/-- An adoption leaves the counters, and only opens. -/
theorem adopted_counts (D : DeltaNeutral) (V : Venue) (L : Reading) (s : State) :
    (adopted D V L s).orphanCount = s.orphanCount ∧ (adopted D V L s).goneCount = s.goneCount ∧
      (adopted D V L s).driftCount = s.driftCount ∧
      ((adopted D V L s).status = .flat → s.status = .flat) := by
  unfold adopted
  split
  · exact ⟨rfl, rfl, rfl, fun h => by cases h⟩
  · exact ⟨rfl, rfl, rfl, fun h => h⟩

/-- A missing leg is a large drift. -/
theorem largeDrift_of_missing {t : ℚ} {L : Reading} (ht : 0 < t) (h : pattern t L ≠ .whole) :
    largeDrift t L = true := by
  unfold largeDrift
  rw [Bool.and_eq_true, decide_eq_true_eq, decide_eq_true_eq]
  refine ⟨ht, ?_⟩
  unfold pattern at h
  by_cases hspot : L.spotQty < t * (1 / 10)
  · refine lt_of_lt_of_le ?_ (le_max_left _ _)
    refine lt_of_lt_of_le ?_ (le_abs_self _)
    unfold driftSpot
    linarith
  · rw [if_neg hspot] at h
    by_cases hperp : |L.perpSzi| < t * (1 / 10)
    · refine lt_of_lt_of_le ?_ (le_max_right _ _)
      refine lt_of_lt_of_le ?_ (le_abs_self _)
      unfold driftPerp
      linarith
    · rw [if_neg hperp] at h
      exact absurd rfl h

theorem streak_cons {w : Watch} {p : Pattern} (hp : p ≠ .whole) (s : State) (d : Bool) :
    (Watch.mk s (p :: w.seen) d).streak = p :: w.streak := by
  exact List.takeWhile_cons_of_pos (decide_eq_true hp)

section Step

variable {D : DeltaNeutral} {V : Venue} {L : Reading} {w : Watch} {m : Machine}

theorem seenPattern_opened (hstatus : (adopted D V L w.bot).status = .opened)
    (htarget : 0 < (adopted D V L w.bot).targetSz) :
    seenPattern D V L w.bot = pattern (adopted D V L w.bot).targetSz L := by
  refine if_neg ?_
  rw [hstatus]
  rintro (h | h)
  · cases h
  · exact absurd h (not_le.mpr htarget)

/-- One more tick with a missing leg, and a counter that it advances. -/
theorem Counted.advanced {p : Pattern} (h : Counted w) (hp : p ≠ .whole)
    (hopen : m.bot.status = .opened) (hlarge : largeDrift m.bot.targetSz L = true)
    (horphan : 0 < m.bot.orphanCount → 0 < w.bot.orphanCount ∨ p.shares .spotGone = true)
    (hgone : 0 < m.bot.goneCount → 0 < w.bot.goneCount ∨ p = .bothGone) :
    Counted ⟨m.bot, p :: w.seen, largeDrift m.bot.targetSz L⟩ where
  flat hflat := by
    have hopened : m.bot.status = .flat := hflat
    rw [hopen] at hopened
    cases hopened
  orphan hpos := by
    rw [streak_cons hp]
    rcases horphan hpos with hold | hnew
    · obtain ⟨q, hq, hshares⟩ := h.orphan hold
      exact ⟨q, List.mem_cons_of_mem _ hq, hshares⟩
    · exact ⟨p, List.mem_cons_self, hnew⟩
  gone hpos := by
    rw [streak_cons hp]
    rcases hgone hpos with hold | hnew
    · exact List.mem_cons_of_mem _ (h.gone hold)
    · rw [hnew]
      exact List.mem_cons_self
  drift _ := hlarge

/-- **One tick**: its actions are confirmed, and the counters keep standing for what was seen. -/
theorem ends_confirmed (hcounted : Counted w) (hsteady : Steady D V L w)
    (hends : Ends (adopted D V L w.bot).control L m) :
    Confirmed D V L w m ∧ Counted
      ⟨m.bot, seenPattern D V L w.bot :: w.seen, largeDrift m.bot.targetSz L⟩ := by
  obtain ⟨horphanCount, hgoneCount, hdriftCount, hstays⟩ := adopted_counts D V L w.bot
  cases hends with
  | flat hstatus horders hcounts =>
      -- a flat position shows nothing missing, and all counters are zero
      have hseen : seenPattern D V L w.bot = .whole := if_pos (Or.inl hstatus)
      obtain ⟨horphan, hgone, hdrift⟩ := hcounts
      obtain ⟨hzero₁, hzero₂, hzero₃⟩ := hcounted.flat (hstays hstatus)
      have hnone : m.bot.orphanCount = 0 ∧ m.bot.goneCount = 0 ∧ m.bot.driftCount = 0 :=
        ⟨horphan.trans (horphanCount.trans hzero₁), hgone.trans (hgoneCount.trans hzero₂),
          hdrift.trans (hdriftCount.trans hzero₃)⟩
      refine ⟨⟨fun h => absurd hseen h, fun o ho h => ?_, ?_⟩, ?_⟩
      · rw [horders o ho] at h
        cases h
      · rintro ⟨o, ho, h⟩
        rw [horders o ho] at h
        cases h
      · refine ⟨fun _ => hnone, fun h => ?_, fun h => ?_, fun h => ?_⟩
        · exact absurd (h.trans_eq hnone.1) (lt_irrefl 0)
        · exact absurd (h.trans_eq hnone.2.1) (lt_irrefl 0)
        · exact absurd (h.trans_eq hnone.2.2) (lt_irrefl 0)
  | retired hstatus htarget horders hfresh =>
      -- no target is left: the bot starts over
      have hseen : seenPattern D V L w.bot = .whole := if_pos (Or.inr htarget)
      refine ⟨⟨fun h => absurd hseen h, fun o ho => ?_, ?_⟩, Counted.fresh hfresh⟩
      · rw [horders] at ho
        cases ho
      · rintro ⟨o, ho, -⟩
        rw [horders] at ho
        cases ho
  | gone hstatus htarget hpattern horders hcontrol =>
      have hseen : seenPattern D V L w.bot = .bothGone := (seenPattern_opened hstatus htarget).trans hpattern
      have hmissing : pattern (adopted D V L w.bot).targetSz L ≠ .whole := by
        rw [show pattern (adopted D V L w.bot).targetSz L = .bothGone from hpattern]
        nofun
      have hnone : ∀ o ∈ m.orders, False := fun o ho => by
        rw [horders] at ho
        cases ho
      refine ⟨⟨fun _ hacts => ?_, fun o ho => (hnone o ho).elim, ?_⟩, ?_⟩
      · -- the second tick in a row with both legs missing
        rcases hacts with hsent | hflat
        · exact absurd horders hsent
        · rcases hcontrol with hcontrol | ⟨hconfirmed, -⟩
          · have hopened : m.bot.status = .opened :=
              (congrArg Control.status hcontrol).trans hstatus
            rw [hopened] at hflat
            cases hflat
          · refine hsteady.pattern ⟨.bothGone, hcounted.gone ?_, by rw [hseen]; rfl⟩
            rw [← hgoneCount]
            exact hconfirmed
      · rintro ⟨o, ho, -⟩
        exact (hnone o ho).elim
      · rcases hcontrol with hcontrol | ⟨-, hfresh⟩
        · have htargetSz : m.bot.targetSz = (adopted D V L w.bot).targetSz :=
            congrArg Control.targetSz hcontrol
          have horphan : m.bot.orphanCount = w.bot.orphanCount :=
            (congrArg Control.orphanCount hcontrol).trans horphanCount
          refine hcounted.advanced (by rw [hseen]; nofun)
            ((congrArg Control.status hcontrol).trans hstatus) ?_ ?_ (fun _ => Or.inr hseen)
          · rw [htargetSz]
            exact largeDrift_of_missing htarget hmissing
          · rw [horphan]
            exact Or.inl
        · exact Counted.fresh hfresh
  | orphan hstatus htarget hpattern horders hacts hcontrol =>
      -- one leg is missing: one counter stands for either leg
      have hpattern' := seenPattern_opened hstatus htarget
      have hshares : (seenPattern D V L w.bot).shares .spotGone = true ∧
          Pattern.shares .spotGone (seenPattern D V L w.bot) = true := by
        rw [hpattern']
        rcases hpattern with h | h
        · rw [show pattern (adopted D V L w.bot).targetSz L = .spotGone from h]
          exact ⟨rfl, rfl⟩
        · rw [show pattern (adopted D V L w.bot).targetSz L = .perpGone from h]
          exact ⟨rfl, rfl⟩
      have hmissing : seenPattern D V L w.bot ≠ .whole := by
        intro h
        rw [h] at hshares
        cases hshares.1
      refine ⟨⟨fun _ hact => ?_, fun _ _ _ => hmissing, ?_⟩, ?_⟩
      · have hconfirmed : 0 < (adopted D V L w.bot).orphanCount := by
          rcases hact with hsent | hflat
          · exact hacts hsent
          · rcases hcontrol with hcontrol | ⟨hconfirmed, -⟩
            · have hopened : m.bot.status = .opened :=
                (congrArg Control.status hcontrol).trans hstatus
              rw [hopened] at hflat
              cases hflat
            · exact hconfirmed
        rw [horphanCount] at hconfirmed
        obtain ⟨q, hq, hqshares⟩ := hcounted.orphan hconfirmed
        exact hsteady.pattern ⟨q, hq, shares_trans hqshares hshares.2⟩
      · rintro ⟨o, ho, hcause⟩
        rw [horders o ho] at hcause
        cases hcause
      · rcases hcontrol with hcontrol | ⟨-, hfresh⟩
        · have htargetSz : m.bot.targetSz = (adopted D V L w.bot).targetSz :=
            congrArg Control.targetSz hcontrol
          have hgone : m.bot.goneCount = w.bot.goneCount :=
            (congrArg Control.goneCount hcontrol).trans hgoneCount
          refine hcounted.advanced hmissing ((congrArg Control.status hcontrol).trans hstatus) ?_
            (fun _ => Or.inr hshares.1) ?_
          · rw [htargetSz]
            exact largeDrift_of_missing htarget (hpattern' ▸ hmissing)
          · rw [hgone]
            exact Or.inl
        · exact Counted.fresh hfresh
  | whole hstatus htarget hpattern horders hcounts hflat hdrift hrebalances =>
      have hseen : seenPattern D V L w.bot = .whole :=
        (seenPattern_opened hstatus htarget).trans hpattern
      refine ⟨⟨fun h => absurd hseen h, fun o ho h => absurd h (horders o ho), ?_⟩, ?_⟩
      · intro hsent hlarge
        -- a rebalance of a large drift is due only when the drift was counted before
        refine hcounted.drift ?_
        rw [← hdriftCount]
        exact hrebalances hsent hlarge
      · refine ⟨fun h => ⟨hcounts.1, hcounts.2, hflat h⟩, fun h => ?_, fun h => ?_, hdrift⟩
        · exact absurd (h.trans_eq hcounts.1) (lt_irrefl 0)
        · exact absurd (h.trans_eq hcounts.2) (lt_irrefl 0)

theorem step_confirmed {i : Input} (hcounted : Counted w) (hsteady : SteadyStep D w i) :
    ConfirmedStep D w i ∧ Counted (watch D w i) := by
  obtain ⟨hcontrol, -⟩ := legs_control D i.quotes w.bot
  unfold watch
  cases hlegs : (legs D i.quotes w.bot).1 with
  | none =>
      have hnext : (next D w.bot i).control = w.bot.control := by
        unfold next pass
        cases hread : legs D i.quotes w.bot with
        | mk reading s =>
            rw [hread] at hlegs hcontrol
            have hreading : reading = none := hlegs
            rw [hreading]
            exact hcontrol
      refine ⟨fun L hL => ?_, ?_⟩
      · rw [hlegs] at hL
        cases hL
      · have hfields := Control.mk.inj hnext
        obtain ⟨hstatus, -, -, horphan, hgone, hdrift⟩ := hfields
        refine ⟨fun h => ?_, fun h => ?_, fun h => ?_, fun h => ?_⟩
        · obtain ⟨h₁, h₂, h₃⟩ := hcounted.flat (hstatus ▸ h)
          exact ⟨horphan.trans h₁, hgone.trans h₂, hdrift.trans h₃⟩
        · exact hcounted.orphan (horphan ▸ h)
        · exact hcounted.gone (hgone ▸ h)
        · exact hcounted.drift (hdrift ▸ h)
  | some L =>
      have hL : L ∈ (legs D i.quotes w.bot).1 := hlegs
      have hsteadyL := hsteady L hL
      have hdrift := (adopted_counts D i.venue L w.bot).2.2.1
      have hends : Ends (adopted D i.venue L w.bot).control L (pass D w.bot i) := by
        rw [pass_of_legs hL]
        have hpost := tick_ends (c := (adopted D i.venue L w.bot).control)
          (fun hpos => hsteadyL.pending (hdrift ▸ hpos)) hsteadyL.evaluated.1 hsteadyL.evaluated.2
          (adopted_control hcontrol) ⟨(legs D i.quotes w.bot).2, []⟩ ⟨rfl, rfl⟩
        cases hrun : tick D i.venue L ⟨(legs D i.quotes w.bot).2, []⟩ with
        | ok a m =>
            rw [hrun] at hpost
            exact hpost
        | error e m =>
            rw [hrun] at hpost
            exact hpost
      obtain ⟨hconfirmed, hcounted'⟩ := ends_confirmed hcounted hsteadyL hends
      refine ⟨fun L' hL' => ?_, hcounted'⟩
      rw [hlegs] at hL'
      cases hL'
      exact hconfirmed

end Step

/-- **In a run without alternating gaps and without a drift that is passed over, one bad reading
never trades**: what is done about a missing leg is confirmed by the tick before, and so is a
correction of a large drift. -/
theorem run_confirmed (D : DeltaNeutral) {inputs : List Input}
    (h : Along (watch D) (SteadyStep D) {} inputs) :
    Along (watch D) (ConfirmedStep D) {} inputs :=
  Along.of_invariant (fun _ _ hcounted hsteady => step_confirmed hcounted hsteady)
    (Counted.fresh rfl) h

/-! ## Samples -/

/-- After an opening one reading misses the short, and the next one misses the spot leg. -/
def alternatingRun : List Input :=
  [sampleInput 10000 (1 / 1000) 0 0, sampleInput 10060 (1 / 1000) 10 0,
    sampleInput 10120 (1 / 1000) 0 (-10)]

/-- The third tick covers the short although the spot leg was there one tick before. -/
theorem alternation_unconfirmed :
    ordersOf sampleBot {} alternatingRun =
        [[(.opening, .spot, 10), (.opening, .perp, -10)], [], [(.orphan, .perp, 10)]] ∧
      ¬ Along (watch sampleBot) (ConfirmedStep sampleBot) {} alternatingRun := by
  have horders : ordersOf sampleBot {} alternatingRun =
      [[(.opening, .spot, 10), (.opening, .perp, -10)], [], [(.orphan, .perp, 10)]] := by
    decide +kernel
  refine ⟨horders, fun hall => ?_⟩
  obtain ⟨-, -, hthird, -⟩ := hall
  have hconfirmed := (hthird ⟨10, 10, 1 / 1000, 0, -10⟩ rfl).missing (by decide +kernel)
    (Or.inr (by decide +kernel))
  have hseen : (watch sampleBot (watch sampleBot {} alternatingRun[0])
      alternatingRun[1]).seen.head? = some .perpGone := by
    decide +kernel
  have hsees : seenPattern sampleBot alternatingRun[2].venue ⟨10, 10, 1 / 1000, 0, -10⟩
      (watch sampleBot (watch sampleBot {} alternatingRun[0]) alternatingRun[1]).bot = .spotGone := by
    decide +kernel
  have hsame := (hseen.symm.trans hconfirmed).trans (congrArg some hsees)
  cases hsame

/-- The short is missing on two ticks in a row. -/
def missingRun : List Input :=
  [sampleInput 10000 (1 / 1000) 0 0, sampleInput 10060 (1 / 1000) 10 0,
    sampleInput 10120 (1 / 1000) 10 0]

/-- The remaining leg is sold on the second of them. -/
theorem missing_confirmed :
    ordersOf sampleBot {} missingRun =
        [[(.opening, .spot, 10), (.opening, .perp, -10)], [], [(.orphan, .spot, -10)]] ∧
      Along (watch sampleBot) (ConfirmedStep sampleBot) {} missingRun := by
  refine ⟨by decide +kernel, run_confirmed sampleBot ⟨?_, ?_, ?_, trivial⟩⟩
  · intro L hL
    have hread : L = ⟨10, 10, 1 / 1000, 0, 0⟩ := (Option.some.inj hL).symm
    rw [hread]
    refine ⟨⟨by decide +kernel, by decide +kernel⟩, ?_, fun h => ?_⟩
    · rintro ⟨q, hq, -⟩
      cases hq
    · cases h
  · intro L hL
    have hread : L = ⟨10, 10, 1 / 1000, 10, 0⟩ := (Option.some.inj hL).symm
    have hstreak : (watch sampleBot {} missingRun[0]).streak = [] := by decide +kernel
    have hcount : (watch sampleBot {} missingRun[0]).bot.driftCount = 0 := by decide +kernel
    rw [hread]
    refine ⟨⟨by decide +kernel, by decide +kernel⟩, ?_, fun h => ?_⟩
    · rintro ⟨q, hq, -⟩
      change q ∈ (watch sampleBot {} missingRun[0]).streak at hq
      rw [hstreak] at hq
      cases hq
    · exact absurd (h.trans_eq hcount) (lt_irrefl 0)
  · intro L hL
    have hread : L = ⟨10, 10, 1 / 1000, 10, 0⟩ := (Option.some.inj hL).symm
    have hcount : (watch sampleBot (watch sampleBot {} missingRun[0])
        missingRun[1]).bot.driftCount = 0 := by decide +kernel
    rw [hread]
    refine ⟨⟨by decide +kernel, by decide +kernel⟩, fun _ => by decide +kernel, fun h => ?_⟩
    exact absurd (h.trans_eq hcount) (lt_irrefl 0)

end TradingFleet.Hyperliquid
