import TradingFleet.Replay.Ticks

set_option autoImplicit false

/-! # The cash account and the ledger of the strategy

`_run_once` settles every fill twice: in cash, and in the ledger of the strategy. After every bar
the two agree (`Sound`), since a fill changes both by the same amounts and a tick changes neither,
except for a position that it takes over or gives up as dust. An open BUY is covered when it is
placed, so it can be paid when it fills.
-/

namespace TradingFleet.Replay

open TradingFleet.Funding TradingFleet.Hoare TradingFleet.Keyed
open TradingFleet.SpotDca
open TradingFleet.Lifecycle hiding orRaise

/-- A bar with positive prices. -/
structure Bar.Positive (bar : Bar) : Prop where
  open_ : 0 < bar.open_
  high : 0 < bar.high
  low : 0 < bar.low
  close : 0 < bar.close

/-! ## The invariant -/

/-- The cash did not fall below the tolerances of the small BUYs. -/
def Floored (R : RunArgs) (b : Book) : Prop :=
  -((smallBuys R.fees b.world.log + 1) * tolerance) ≤ b.minCash

/-- The two books agree, and the cash covers the open orders. -/
structure Sound (R : RunArgs) (b : Book) : Prop where
  agrees : R.initialCash + b.adoptedCost + b.world.s.realizedNet =
    b.cash + b.world.s.cost + b.discarded
  solid : Solid b.world.s
  orders : ∀ o ∈ b.world.s.orders, OrderSound o
  marks : ∀ m ∈ b.marks, 0 < m.2
  covered : Covered tolerance b.cash (reserved R.fees b.world.s.orders)
    (smallBuys R.fees b.world.log)
  floored : Floored R b

/-- A run that stops: it is overdrawn only after ten small BUYs. -/
def Stopped (R : RunArgs) (e : ReplayStop) (b : Book) : Prop :=
  (e = .overdrawn → 10 ≤ smallBuys R.fees b.world.log) ∧ Floored R b

theorem sound_initial (R : RunArgs) : Sound R (Book.initial R) where
  agrees := by
    show R.initialCash + 0 + 0 = R.initialCash + 0 + 0
    ring
  solid := ⟨le_refl 0, fun h => absurd h (lt_irrefl 0), fun _ => rfl⟩
  orders := fun o ho => by cases ho
  marks := fun m hm => by cases hm
  covered := by
    show (0 : ℚ) ≤ R.initialCash + ((0 : ℕ) + 1) * tolerance
    have hcash := R.cash_pos
    have htol := tolerance_pos
    push_cast
    linarith
  floored := by
    show -(((0 : ℕ) + 1 : ℚ) * tolerance) ≤ R.initialCash
    have hcash := R.cash_pos
    have htol := tolerance_pos
    push_cast
    linarith

variable {R : RunArgs} {b : Book}

/-! ## The strategy acts -/

/-- The cost that a tick leaves, with what it discarded, is what it found, with what it took
over. -/
theorem Ticked.cost {cash : ℚ} {n₀ : ℕ} {s₀ : State} {w : World} (h : Ticked R cash n₀ s₀ w)
    (hsolid : Solid s₀) :
    w.s.cost + (if w.s.qty = 0 ∧ s₀.qty < replayPrecision.dust then s₀.cost else 0) =
      s₀.cost + (if s₀.qty ≤ flatQty ∧ flatQty < w.s.qty then w.s.cost - s₀.cost else 0) := by
  have hnone : ¬ flatQty < 0 := not_lt.mpr flatQty_pos.le
  rcases h with hw | ⟨s₁, hs₁, hw⟩
  · rcases hw.position with ⟨hqty, hcost⟩ | ⟨hqty, hcost, hdust⟩
    · rw [hqty, hcost, if_neg (show ¬ (s₀.qty ≤ flatQty ∧ flatQty < s₀.qty) from
        fun hboth => absurd hboth.2 (not_lt.mpr hboth.1))]
      split
      · rename_i hflat
        rw [hsolid.cost_zero hflat.1]
      · rfl
    · rw [hqty, hcost, if_pos ⟨rfl, hdust⟩, if_neg (fun hboth => hnone hboth.2)]
      ring
  · rcases hw.position with ⟨hqty, hcost⟩ | ⟨hqty, hcost, -⟩
    · have hheld : w.s.qty ≠ 0 := hqty ▸ (flatQty_pos.trans hs₁.held).ne'
      rw [if_neg (fun hboth => hheld hboth.1), if_pos ⟨hs₁.flat, hqty ▸ hs₁.held⟩]
      ring
    · have hdust : s₀.qty < replayPrecision.dust := lt_of_le_of_lt hs₁.flat flatQty_lt_dust
      rw [hqty, hcost, if_pos ⟨rfl, hdust⟩, if_neg (fun hboth => hnone hboth.2)]
      ring

/-- Whatever position a tick goes on with. -/
theorem Ticked.steady {cash : ℚ} {n₀ : ℕ} {s₀ : State} {w : World} (h : Ticked R cash n₀ s₀ w)
    (hsolid : Solid s₀) :
    ∃ s₁, Solid s₁ ∧ s₁.realizedNet = s₀.realizedNet ∧ Steady R cash n₀ s₁ w := by
  rcases h with hw | ⟨s₁, hs₁, hw⟩
  · exact ⟨s₀, hsolid, rfl, hw⟩
  · exact ⟨s₁, hs₁.solid, hs₁.net, hw⟩

theorem Floored.mono {b' : Book} (h : Floored R b)
    (hlog : smallBuys R.fees b.world.log ≤ smallBuys R.fees b'.world.log)
    (hmin : b'.minCash = b.minCash) : Floored R b' := by
  have hcast : (smallBuys R.fees b.world.log : ℚ) ≤ smallBuys R.fees b'.world.log := by
    exact_mod_cast hlog
  have hmul := mul_le_mul_of_nonneg_right hcast tolerance_pos.le
  unfold Floored at h ⊢
  rw [hmin]
  linarith

theorem Sound.ticking (h : Sound R b) :
    Ticking R b.cash (smallBuys R.fees b.world.log) b.world.s (fun q => q = b.world.s.qty)
      b.world :=
  ⟨rfl, Or.inl ⟨rfl, rfl⟩, rfl, h.orders, h.covered, le_refl _⟩

theorem Sound.noted (h : Sound R b) {w : World}
    (hw : Ticked R b.cash (smallBuys R.fees b.world.log) b.world.s w) : Sound R (b.noted w) := by
  have hcost := hw.cost h.solid
  have hagrees := h.agrees
  obtain ⟨s₁, hsolid, hnet, hsteady⟩ := hw.steady h.solid
  constructor
  · show R.initialCash + (b.adoptedCost +
        if b.world.s.qty ≤ flatQty ∧ flatQty < w.s.qty then w.s.cost - b.world.s.cost else 0) +
        w.s.realizedNet =
      b.cash + w.s.cost + (b.discarded +
        if w.s.qty = 0 ∧ b.world.s.qty < replayPrecision.dust then b.world.s.cost else 0)
    rw [hsteady.net, hnet]
    linarith
  · exact hsteady.solid hsolid
  · exact hsteady.sound
  · exact h.marks
  · exact hsteady.covered
  · exact h.floored.mono hsteady.logged rfl

/-- A part of the strategy that goes on with the books it finds keeps them in agreement. -/
theorem Sound.act (h : Sound R b) {x : DcaM Unit}
    (hx : Triple (Ticking R b.cash (smallBuys R.fees b.world.log) b.world.s
        (fun q => q = b.world.s.qty)) x
      (fun _ => Ticked R b.cash (smallBuys R.fees b.world.log) b.world.s)
      (fun _ => Ticked R b.cash (smallBuys R.fees b.world.log) b.world.s)) :
    Post (fun _ => Sound R) (Stopped R) (act x b) := by
  have hpost := hx b.world h.ticking
  unfold Replay.act
  cases hres : x b.world with
  | ok a w =>
      rw [hres] at hpost
      exact h.noted hpost
  | error e w =>
      rw [hres] at hpost
      exact ⟨fun he => (by cases he), (h.noted hpost).floored⟩

/-! ## A fill is settled -/

/-- A fill that the account can settle. -/
structure Settles (R : RunArgs) (b : Book) (f : Fill) : Prop where
  vol : 0 < f.vol
  buy : f.side = .buy → 0 < f.price
  sell : f.side = .sell → f.vol ≤ b.world.s.qty ∧ flatQty < b.world.s.qty
  covered : Covered tolerance (b.paid f).cash (reserved R.fees b.world.s.orders)
    (smallBuys R.fees b.world.log)

theorem Sound.paid_floored (h : Sound R b) {f : Fill} (hf : Settles R b f) :
    Floored R (b.paid f) := by
  have hcash := hf.covered.cash_ge (reserved_nonneg R.fees h.orders)
  exact le_min h.floored hcash

/-- The account is overdrawn only after ten small BUYs. -/
theorem Sound.overdrawn (h : Sound R b) {f : Fill} (hf : Settles R b f)
    (hcash : (b.paid f).cash < -(1 / 10 ^ 8)) : 10 ≤ smallBuys R.fees b.world.log := by
  have hfloor := hf.covered.cash_ge (reserved_nonneg R.fees h.orders)
  by_contra hfew
  have hnine : (smallBuys R.fees b.world.log : ℚ) ≤ 9 := by
    exact_mod_cast Nat.lt_succ_iff.mp (not_le.mp hfew)
  unfold tolerance at hfloor
  linarith

/-- A fill changes cash, cost and profit so that the books still agree. -/
theorem Sound.booked (h : Sound R b) {f : Fill} (hf : Settles R b f) :
    Sound R ((b.paid f).booked f) := by
  have hagrees := h.agrees
  have hfloored := h.paid_floored hf
  have hcovered := hf.covered
  cases hside : f.side with
  | buy =>
      have hcost : 0 < f.vol * f.price := mul_pos hf.vol (hf.buy hside)
      have hs : b.world.s.filled f = (b.world.s.charge f.fee).bought f := by
        unfold State.filled
        rw [hside]
      -- a BUY adds what it cost, and takes that and the fee from the cash
      have hcash : (b.paid f).cash = b.cash + -1 * f.vol * f.price - f.fee := by
        unfold Book.paid
        rw [hside]
      have hcost_nonneg : 0 ≤ b.world.s.cost := by
        rcases h.solid.qty_nonneg.eq_or_lt with hzero | hpos
        · exact (h.solid.cost_zero hzero.symm).ge
        · exact (h.solid.cost_pos hpos).le
      constructor
      · show R.initialCash + b.adoptedCost + (b.world.s.filled f).realizedNet =
          (b.paid f).cash + (b.world.s.filled f).cost + b.discarded
        rw [hs, hcash]
        show R.initialCash + b.adoptedCost + (b.world.s.realizedNet - f.fee) =
          b.cash + -1 * f.vol * f.price - f.fee + (b.world.s.cost + f.vol * f.price) + b.discarded
        linarith
      · show Solid (b.world.s.filled f)
        rw [hs]
        have hqty : 0 < b.world.s.qty + f.vol := add_pos_of_nonneg_of_pos h.solid.qty_nonneg hf.vol
        exact ⟨hqty.le, fun _ => add_pos_of_nonneg_of_pos hcost_nonneg hcost,
          fun hzero => absurd hzero hqty.ne'⟩
      · show ∀ o ∈ (b.world.s.filled f).orders, OrderSound o
        rw [hs]
        exact h.orders
      · exact h.marks
      · show Covered tolerance (b.paid f).cash (reserved R.fees (b.world.s.filled f).orders) _
        rw [hs]
        exact hcovered
      · exact hfloored
  | sell =>
      obtain ⟨hle, hheld⟩ := hf.sell hside
      have hpos : 0 < b.world.s.qty := lt_trans flatQty_pos hheld
      have hs : b.world.s.filled f = (b.world.s.charge f.fee).sold f := by
        unfold State.filled
        rw [hside]
      have hcash : (b.paid f).cash = b.cash + 1 * f.vol * f.price - f.fee := by
        unfold Book.paid
        rw [hside]
      -- a SELL takes its share of the cost, at the average price
      obtain ⟨havg, hcost, -⟩ :=
        sold_cost (s := b.world.s.charge f.fee) (f := f) hle hheld (h.solid.cost_pos hpos)
      change orElse (b.world.s.charge f.fee).avg f.price = b.world.s.cost / b.world.s.qty at havg
      change ((b.world.s.charge f.fee).sold f).cost =
        b.world.s.cost - b.world.s.cost / b.world.s.qty * f.vol at hcost
      constructor
      · show R.initialCash + b.adoptedCost + (b.world.s.filled f).realizedNet =
          (b.paid f).cash + (b.world.s.filled f).cost + b.discarded
        rw [hs, hcash, hcost]
        show R.initialCash + b.adoptedCost + (b.world.s.realizedNet - f.fee +
            (f.price - orElse (b.world.s.charge f.fee).avg f.price) * f.vol) = _
        rw [havg]
        linarith
      · show Solid (b.world.s.filled f)
        rw [hs]
        have havg_pos : 0 < b.world.s.cost / b.world.s.qty :=
          div_pos (h.solid.cost_pos hpos) hpos
        refine ⟨sub_nonneg.mpr hle, fun hleft => ?_, fun hnone => ?_⟩
        · have hless : f.vol < b.world.s.qty := sub_pos.mp hleft
          have hstrict := mul_lt_mul_of_pos_left hless havg_pos
          rw [div_mul_cancel₀ _ hpos.ne'] at hstrict
          rw [hcost]
          exact sub_pos.mpr hstrict
        · have hall : f.vol = b.world.s.qty := (sub_eq_zero.mp hnone).symm
          rw [hcost, hall, div_mul_cancel₀ _ hpos.ne', sub_self]
      · show ∀ o ∈ (b.world.s.filled f).orders, OrderSound o
        rw [hs]
        exact h.orders
      · exact h.marks
      · show Covered tolerance (b.paid f).cash (reserved R.fees (b.world.s.filled f).orders) _
        rw [hs]
        exact hcovered
      · exact hfloored

theorem Sound.settleFill (h : Sound R b) {f : Fill} (hf : Settles R b f) (final : Bool) :
    Post (fun _ => Sound R) (Stopped R) (settleFill R f final b) := by
  show Post (fun _ => Sound R) (Stopped R)
    ((if (b.paid f).cash < -(1 / 10 ^ 8) then throw .overdrawn
      else do
        modify (fun b => b.booked f)
        Replay.act (afterFill R.setup f final) : ReplayM Unit) (b.paid f))
  by_cases hcash : (b.paid f).cash < -(1 / 10 ^ 8)
  · rw [if_pos hcash]
    exact ⟨fun _ => h.overdrawn hf hcash, h.paid_floored hf⟩
  · rw [if_neg hcash]
    have hbooked := h.booked hf
    refine hbooked.act ?_
    exact (afterFill_steady f final).conseq (fun _ hw => hw.any) (fun _ _ hw => Or.inl hw)
      (fun _ _ hw => Or.inl hw)

/-! ## A tranche leaves an order -/

/-- A part of the orders, or one with less left. -/
theorem Sound.reordered (h : Sound R b) {s : State}
    (hs : s = { b.world.s with orders := s.orders }) (horders : ∀ o ∈ s.orders, OrderSound o)
    (hle : reserved R.fees s.orders ≤ reserved R.fees b.world.s.orders) :
    Sound R (b.withState s) where
  agrees := by
    have hagrees := h.agrees
    show R.initialCash + b.adoptedCost + s.realizedNet = b.cash + s.cost + b.discarded
    rw [hs]
    exact hagrees
  solid := by
    show Solid s
    rw [hs]
    exact ⟨h.solid.qty_nonneg, h.solid.cost_pos, h.solid.cost_zero⟩
  orders := horders
  marks := h.marks
  covered := h.covered.release hle
  floored := h.floored

theorem Sound.removed (h : Sound R b) (o : Order) : Sound R (b.withState (b.world.s.remove o)) :=
  h.reordered rfl (fun x hx => h.orders x (List.mem_of_mem_erase hx))
    (reserved_erase_le R.fees h.orders o)

theorem Sound.marked (h : Sound R b) {marks : List (String × ℚ)} (hmarks : ∀ m ∈ marks, 0 < m.2) :
    Sound R { b with marks := marks } :=
  ⟨h.agrees, h.solid, h.orders, hmarks, h.covered, h.floored⟩

theorem Sound.markOf_pos (h : Sound R b) {txid : String} {x : ℚ} (hx : b.markOf txid = some x) :
    0 < x := by
  unfold Book.markOf at hx
  obtain ⟨m, hm, rfl⟩ := Option.map_eq_some_iff.mp hx
  exact h.marks m (List.mem_of_find?_eq_some hm)

/-- What is reserved for an order is reserved for its parts. -/
theorem held_split (F : FeeModel) (o : Order) (vol amount : ℚ) :
    held F { o with vol := vol } + held F { o with vol := o.vol - vol, amount := amount } =
      held F o := by
  unfold held reservation
  dsimp only
  split
  · ring
  · ring

section Tranche

variable {o : Order} {f : Split}

theorem tranched_state (b : Book) (o : Order) (f : Split) :
    (b.tranched o f).world.s =
      if f.complete = true then b.world.s.remove o else b.world.s.replace o (restOf o f) := rfl

theorem tranched_ledger (b : Book) (o : Order) (f : Split) :
    (b.tranched o f).world.s =
      { b.world.s with orders := (b.tranched o f).world.s.orders } := by
  rw [tranched_state]
  split
  · rfl
  · rfl

theorem restOf_eq (hf : Splits (b.dictOf o) f) :
    restOf o f = { o with vol := o.vol - f.chunk, amount := f.rest.amount } := by
  unfold restOf
  rw [hf.rest]
  rfl

/-- A tranche releases its part of the reservation. -/
theorem reserved_tranched (F : FeeModel) (ho : o ∈ b.world.s.orders)
    (hf : Splits (b.dictOf o) f) :
    held F { o with vol := f.chunk } + reserved F (b.tranched o f).world.s.orders =
      reserved F b.world.s.orders := by
  rw [tranched_state]
  by_cases hcomplete : f.complete = true
  · have hall : f.chunk = o.vol := hf.complete hcomplete
    rw [if_pos hcomplete, hall]
    exact reserved_erase F ho
  · rw [if_neg hcomplete]
    have hsum := sum_map_updateFirst (f := fun _ => restOf o f) (find_self ho) (held F)
    have hsplit := held_split F o f.chunk f.rest.amount
    rw [restOf_eq hf] at hsum
    rw [reserved_eq, reserved_eq]
    show held F { o with vol := f.chunk } +
      ((updateFirst (fun x => x = o) (fun _ => restOf o f) b.world.s.orders).map (held F)).sum = _
    rw [restOf_eq hf]
    linarith

theorem Sound.tranched (h : Sound R b) (ho : o ∈ b.world.s.orders) (hf : Splits (b.dictOf o) f)
    (hmark : f.rest.original = some ((b.markOf o.txid).getD o.vol)) :
    Sound R (b.tranched o f) := by
  have hsound := h.orders o ho
  have hpart : OrderSound { o with vol := f.chunk } :=
    ⟨hf.chunk.1, hsound.buy, hsound.price⟩
  have hchunk := hpart.held_nonneg R.fees
  have hreserved := reserved_tranched R.fees ho hf
  have hreordered : Sound R (b.withState (b.tranched o f).world.s) := by
    refine h.reordered (tranched_ledger b o f) (fun x hx => ?_) (by linarith)
    rw [tranched_state] at hx
    by_cases hcomplete : f.complete = true
    · rw [if_pos hcomplete] at hx
      exact h.orders x (List.mem_of_mem_erase hx)
    · rw [if_neg hcomplete] at hx
      rcases mem_replaced hx with hx | ⟨rfl, -⟩
      · exact h.orders x hx
      · rw [restOf_eq hf]
        exact ⟨sub_pos.mpr (hf.partial_ (by simpa using hcomplete)), hsound.buy, hsound.price⟩
  refine hreordered.marked (fun m hm => ?_)
  by_cases hknown : (b.markOf o.txid).isSome = true
  · rw [if_pos hknown] at hm
    exact h.marks m hm
  · rw [if_neg hknown] at hm
    rcases List.mem_cons.mp hm with rfl | hm
    · rw [Option.not_isSome_iff_eq_none] at hknown
      rw [hmark, hknown]
      exact hsound.vol
    · exact h.marks m hm

/-! ## An order fills -/

/-- A BUY is a limit order that the bar touched. -/
theorem buy_price {bar : Bar} (hbar : bar.Positive) (ho : OrderSound o) (hside : o.side = .buy)
    (helig : eligible R bar o = true) : fillPrice R bar o = o.price ∧ 0 < o.price := by
  have hmarket := ho.buy hside
  unfold eligible at helig
  unfold fillPrice
  rw [hmarket] at helig ⊢
  rw [hside, Bool.false_or] at helig
  exact ⟨rfl, R.execution.touched_pos hbar.low helig⟩

theorem sell_price {bar : Bar} (hbar : bar.Positive) (ho : OrderSound o) (hside : o.side = .sell) :
    0 ≤ fillPrice R bar o := by
  unfold fillPrice
  by_cases hmarket : o.market = true
  · rw [if_pos hmarket, hside]
    exact (R.execution.marketPrice_pos hbar.open_).le
  · rw [if_neg hmarket]
    exact ho.price (by simpa using hmarket)

/-- A tranche of a BUY costs what it released. -/
theorem Sound.settles_buy (h : Sound R b) (ho : o ∈ b.world.s.orders)
    (hf : Splits (b.dictOf o) f) (hside : o.side = .buy) {bar : Bar} (hbar : bar.Positive)
    (helig : eligible R bar o = true) :
    Settles R (b.tranched o f) (trancheFill R bar o f f.chunk) := by
  obtain ⟨hprice, hpos⟩ := buy_price hbar (h.orders o ho) hside helig
  have hheld : held R.fees { o with vol := f.chunk } =
      f.chunk * o.price * (1 + R.fees.ratePct o.market / 100) := if_pos hside
  have hreserved := reserved_tranched R.fees ho hf
  have hcash : ((b.tranched o f).paid (trancheFill R bar o f f.chunk)).cash =
      b.cash - held R.fees { o with vol := f.chunk } := by
    rw [hheld]
    unfold Book.paid trancheFill
    rw [hside, hprice]
    show b.cash + -1 * f.chunk * o.price - R.fees.ratePct o.market / 100 * f.chunk * o.price = _
    ring
  constructor
  · exact hf.chunk.1
  · intro _
    show 0 < fillPrice R bar o
    rw [hprice]
    exact hpos
  · intro hsell
    exact absurd (hside.symm.trans hsell) (by decide)
  · rw [hcash, eq_sub_of_add_eq' hreserved]
    exact h.covered.pay _

/-- The proceeds of a SELL are not negative. -/
theorem Sound.settles_sell (h : Sound R b) (hsound : OrderSound o) (hside : o.side = .sell)
    {bar : Bar} (hbar : bar.Positive) {volume : ℚ} (hvol : flatQty < volume)
    (hle : volume ≤ b.world.s.qty) : Settles R b (trancheFill R bar o f volume) := by
  have hprice : 0 ≤ fillPrice R bar o := sell_price hbar hsound hside
  have hpos : 0 < volume := flatQty_pos.trans hvol
  have hrate : 0 ≤ 1 - R.fees.ratePct o.market / 100 := by
    have hrange := (R.fees.rate_range o.market).2
    rw [sub_nonneg, div_le_one (by norm_num)]
    exact hrange.le
  have hcash : (b.paid (trancheFill R bar o f volume)).cash =
      b.cash + volume * fillPrice R bar o * (1 - R.fees.ratePct o.market / 100) := by
    unfold Book.paid trancheFill
    rw [hside]
    show b.cash + 1 * volume * fillPrice R bar o -
      R.fees.ratePct o.market / 100 * volume * fillPrice R bar o = _
    ring
  constructor
  · exact hpos
  · intro hbuy
    exact absurd (hside.symm.trans hbuy) (by decide)
  · exact fun _ => ⟨hle, hvol.trans_le hle⟩
  · rw [hcash]
    exact h.covered.receive (mul_nonneg (mul_nonneg hpos.le hprice) hrate)

theorem Sound.fillTranche (h : Sound R b) (ho : o ∈ b.world.s.orders)
    (hf : Splits (b.dictOf o) f) (hmark : f.rest.original = some ((b.markOf o.txid).getD o.vol))
    {bar : Bar} (hbar : bar.Positive) (helig : eligible R bar o = true) :
    Post (fun _ => Sound R) (Stopped R) (fillTranche R bar o f b) := by
  have htranched := h.tranched ho hf hmark
  cases hside : o.side with
  | buy =>
      unfold Replay.fillTranche
      rw [hside]
      exact htranched.settleFill (h.settles_buy ho hf hside hbar helig) f.complete
  | sell =>
      unfold Replay.fillTranche
      rw [hside]
      set b' := b.tranched o f with hb'
      show Post (fun _ => Sound R) (Stopped R)
        ((if min f.chunk b'.world.s.qty ≤ flatQty then
            modify (fun b => b.withState (b.world.s.remove (restOf o f)))
          else Replay.settleFill R (trancheFill R bar o f (min f.chunk b'.world.s.qty)) f.complete :
            ReplayM Unit) b')
      by_cases hnone : min f.chunk b'.world.s.qty ≤ flatQty
      · rw [if_pos hnone]
        exact htranched.removed (restOf o f)
      · rw [if_neg hnone]
        exact htranched.settleFill (htranched.settles_sell (h.orders o ho) hside hbar
          (not_le.mp hnone) (min_le_right _ _)) f.complete

theorem Sound.stops (h : Sound R b) {e : ReplayStop} (he : e ≠ .overdrawn) : Stopped R e b :=
  ⟨fun heq => absurd heq he, h.floored⟩

theorem Sound.fillOrder (h : Sound R b) (ho : o ∈ b.world.s.orders) {bar : Bar}
    (hbar : bar.Positive) (helig : eligible R bar o = true) :
    Post (fun _ => Sound R) (Stopped R) (fillOrder R bar o b) := by
  have hmarks : (b.dictOf o).original.all (fun x => 0 < x) = true := by
    show (b.markOf o.txid).all (fun x => 0 < x) = true
    rw [Option.all_eq_true]
    intro x hx
    exact decide_eq_true (h.markOf_pos hx)
  unfold Replay.fillOrder
  refine Triple.get (P := (· = b)) (fun b₀ hb₀ => ?_) b rfl
  rw [hb₀]
  cases hsplit : splitOrderFill (b.dictOf o) (o.side = .buy) R.execution.partialFillRatio
      o.market with
  | none =>
      rintro _ rfl
      exact h.stops (fun he => by cases he)
  | some f =>
      rintro _ rfl
      have hspec := splitOrderFill_spec hmarks R.execution.ratio_range.1 hsplit
      exact h.fillTranche ho hspec (splitOrderFill_original hsplit) hbar helig

end Tranche

/-! ## Bars -/

section Bars

variable {bar : Bar}

theorem fillListed_sound (hbar : bar.Positive) (side : Side) (txid : String) :
    Triple (Sound R) (fillListed R bar side txid) (fun _ => Sound R) (Stopped R) := by
  unfold fillListed
  refine Triple.get (fun b hb => ?_)
  cases hfind : b.world.s.orders.find? (fun o => o.txid = txid) with
  | none => exact Triple.pure (fun _ h => h ▸ hb)
  | some o =>
      have ho : o ∈ b.world.s.orders := List.mem_of_find?_eq_some hfind
      by_cases hfills : o.side = side ∧ eligible R bar o = true
      · rintro _ rfl
        show Post _ _ ((if o.side = side ∧ eligible R bar o = true then fillOrder R bar o
          else pure () : ReplayM Unit) _)
        rw [if_pos hfills]
        exact hb.fillOrder ho hbar hfills.2
      · rintro _ rfl
        show Post _ _ ((if o.side = side ∧ eligible R bar o = true then fillOrder R bar o
          else pure () : ReplayM Unit) _)
        rw [if_neg hfills]
        exact hb

theorem fillSide_sound (hbar : bar.Positive) (side : Side) :
    Triple (Sound R) (fillSide R bar side) (fun _ => Sound R) (Stopped R) := by
  unfold fillSide
  refine Triple.get (fun b hb => ?_)
  refine Triple.strengthen (P := Sound R) ?_ (fun _ h => h ▸ hb)
  exact Triple.foldlM (I := fun _ _ => Sound R)
    (fun _ txid _ _ _ => fillListed_sound hbar side txid) ()

/-- **A bar keeps the two books in agreement.** -/
theorem runBar_sound (hbar : bar.Positive) :
    Triple (Sound R) (runBar R bar) (fun _ => Sound R) (Stopped R) := by
  unfold runBar
  refine Triple.bind (Q := fun _ => Sound R) ?_ (fun _ => Triple.get (fun b hb => ?_))
  · exact Triple.foldlM (I := fun _ _ => Sound R)
      (fun _ side _ _ _ => fillSide_sound hbar side) ()
  · rintro _ rfl
    exact hb.act (stepWith_ticked hb.solid hbar.close.le bar.sig)

theorem run_sound {bars : List Bar} (hbars : ∀ bar ∈ bars, bar.Positive) :
    Triple (Sound R) (run R bars) (fun _ => Sound R) (Stopped R) := by
  unfold run
  refine Triple.foldlM (I := fun _ _ => Sound R) (fun done bar rest _ hl => ?_) ()
  exact runBar_sound (hbars bar (by simp [hl]))

end Bars

/-! ## The equity curve -/

/-- What a position is worth: what is too little to have an average is counted at its cost. -/
def positionValue (s : State) (close : ℚ) : ℚ :=
  if flatQty < s.qty then s.qty * close else s.cost

/-- The equity, without what was taken over for nothing, is what is in the account. -/
theorem Sound.equity (h : Sound R b) (close : ℚ) :
    equity R b close + b.adoptedCost =
      b.cash + positionValue b.world.s close + b.discarded := by
  have hagrees := h.agrees
  unfold Replay.equity unrealized positionValue
  by_cases hheld : flatQty < b.world.s.qty
  · have hpos : b.world.s.qty ≠ 0 := (flatQty_pos.trans hheld).ne'
    rw [if_pos hheld, if_pos hheld, sub_mul, div_mul_cancel₀ _ hpos]
    linarith
  · rw [if_neg hheld, if_neg hheld]
    linarith

/-- **The cash account agrees with the ledger of the strategy.** After every bar, equity and
account differ only by the cost of a position that was taken over. The account is overdrawn only
after ten BUYs within the tolerance of the funding check, and cash falls below zero by no more than
a tolerance for each of them, and one. -/
theorem run_agrees (R : RunArgs) (bars : List Bar) (bar : Bar)
    (hbars : ∀ x ∈ bars ++ [bar], x.Positive) :
    Post (fun _ b =>
        equity R b bar.close + b.adoptedCost =
          b.cash + positionValue b.world.s bar.close + b.discarded ∧ Floored R b)
      (fun e b => (e = .overdrawn → 10 ≤ smallBuys R.fees b.world.log) ∧ Floored R b)
      (run R (bars ++ [bar]) (Book.initial R)) :=
  ((run_sound hbars).weaken (fun _ _ h => ⟨h.equity bar.close, h.floored⟩)) _ (sound_initial R)

/-! ## Runs where equity and account differ -/

theorem no_spread : (0 : ℚ) ≤ 0 ∧ (0 : ℚ) < 20000 := by norm_num

theorem no_slippage : (0 : ℚ) ≤ 0 := le_refl 0

theorem whole_fills : (0 : ℚ) < 1 ∧ (1 : ℚ) ≤ 1 := by norm_num

theorem half_fills : (0 : ℚ) < 1 / 2 ∧ (1 / 2 : ℚ) ≤ 1 := by norm_num

theorem nothing_adverse : (0 : ℚ) / 2 + 0 < 10000 := by norm_num

theorem part_fills : (0 : ℚ) < (1 - 5 / 10 ^ 13) / (14999999 / 10 ^ 7) ∧
    (1 - 5 / 10 ^ 13) / (14999999 / 10 ^ 7) ≤ (1 : ℚ) := by norm_num

theorem no_fee : (0 : ℚ) ≤ 0 ∧ (0 : ℚ) < 100 := by norm_num

theorem tenth_fee : (0 : ℚ) ≤ 1 / 10 ∧ (1 / 10 : ℚ) < 100 := by norm_num

theorem high_fee : (0 : ℚ) ≤ 90 ∧ (90 : ℚ) < 100 := by norm_num

theorem hundred_pos : (0 : ℚ) < 100 := by norm_num

theorem thousand_pos : (0 : ℚ) < 1000 := by norm_num

/-- A bar at one price. -/
def quietBar (price : ℚ) : Bar := { open_ := price, high := price, low := price, close := price }

/-- No spread and no slippage; every fill is a whole one. -/
def plainExecution : ExecutionModel where
  spread_range := no_spread
  slippage_nonneg := no_slippage
  ratio_range := whole_fills
  adverse_range := nothing_adverse

/-- A unit at 1 is adopted. -/
def adoptArgs : RunArgs where
  params := { sampleParams with adoptCost := 1, adoptQty := 1 }
  fees := ⟨0, 0, no_fee, no_fee⟩
  execution := plainExecution
  initialCash := 100
  cash_pos := hundred_pos

/-- Every entry costs less than the tolerance, and the fee takes nearly all of it. -/
def tinyArgs : RunArgs where
  params := { sampleParams with tpTranches := [(3, 100), (6, 0)], entryAmount := 5 / 10 ^ 10 }
  fees := ⟨90, 90, high_fee, high_fee⟩
  execution := plainExecution
  initialCash := 1 / 10 ^ 9
  cash_pos := tolerance_pos

/-- A share below zero, so that the take-profit is for more than is held. -/
def oversoldArgs : RunArgs where
  params := { sampleParams with tpTranches := [(3, -50), (6, 150)], entryAmount := 1 }
  fees := ⟨0, 0, no_fee, no_fee⟩
  execution := {
    partialFillRatio := (1 - 5 / 10 ^ 13) / (14999999 / 10 ^ 7)
    spread_range := no_spread
    slippage_nonneg := no_slippage
    ratio_range := part_fills
    adverse_range := nothing_adverse }
  initialCash := 100
  cash_pos := hundred_pos

theorem quietBar_positive {price : ℚ} (h : 0 < price) : (quietBar price).Positive := ⟨h, h, h, h⟩

/-- The entry fills in halves, and each bar half of each rung of the take-profit. -/
def trancheArgs : RunArgs where
  params := { sampleParams with tpTranches := [(3, 60), (6, 40)] }
  fees := ⟨1 / 10, 1 / 10, tenth_fee, tenth_fee⟩
  execution := {
    partialFillRatio := 1 / 2
    spread_range := no_spread
    slippage_nonneg := no_slippage
    ratio_range := half_fills
    adverse_range := nothing_adverse }
  initialCash := 1000
  cash_pos := thousand_pos

/-- The bars before the stop-loss fills. -/
def trancheBars : List Bar := [1, 1, 1, 53 / 50, 3 / 4].map quietBar

theorem trancheBars_positive : ∀ bar ∈ trancheBars ++ [quietBar (3 / 4)], bar.Positive := by
  intro bar hbar
  simp only [trancheBars, List.map_cons, List.map_nil, List.cons_append, List.nil_append,
    List.mem_cons, List.not_mem_nil, or_false] at hbar
  rcases hbar with rfl | rfl | rfl | rfl | rfl | rfl <;> exact quietBar_positive (by norm_num)

/-- Two fills of the entry, one of each rung, and the stop-loss close the first cycle. It leaves
dust, which the strategy gives up; the entry of the second cycle is open. -/
theorem trancheRun_agrees :
    Post (fun _ b => b.world.s.cycle = 2 ∧ b.world.s.orders.length = 1 ∧ b.marks.length = 4 ∧
        b.discarded = 3 / 20000000 ∧ b.cash + b.discarded = equity trancheArgs b (3 / 4))
      (fun _ _ => False) (run trancheArgs (trancheBars ++ [quietBar (3 / 4)])
        (Book.initial trancheArgs)) ∧
    Post (fun _ b => equity trancheArgs b (3 / 4) + b.adoptedCost =
          b.cash + positionValue b.world.s (3 / 4) + b.discarded ∧ Floored trancheArgs b)
      (fun e b => (e = .overdrawn → 10 ≤ smallBuys trancheArgs.fees b.world.log) ∧
        Floored trancheArgs b)
      (run trancheArgs (trancheBars ++ [quietBar (3 / 4)]) (Book.initial trancheArgs)) :=
  ⟨by decide +kernel, run_agrees trancheArgs trancheBars (quietBar (3 / 4)) trancheBars_positive⟩

/-- An adopted position is not in the account; tiny entries overdraw it; a position of 5e-13 is
counted at its cost. -/
theorem equity_and_account_differ :
    Post (fun _ b => equity adoptArgs b 1 ≠ b.cash + b.world.s.qty * 1 + b.discarded)
      (fun _ _ => False) (run adoptArgs [quietBar 1] (Book.initial adoptArgs)) ∧
    Post (fun _ _ => False) (fun e b => e = .overdrawn ∧ b.minCash < -(1 / 10 ^ 8))
      (run tinyArgs (List.replicate 26 { quietBar (1 / 20) with high := 6 / 100 })
        (Book.initial tinyArgs)) ∧
    Post (fun _ b => b.adoptedCost = 0 ∧ b.world.s.qty = 5 / 10 ^ 13 ∧
        equity oversoldArgs b (53 / 50) ≠ b.cash + b.world.s.qty * (53 / 50) + b.discarded)
      (fun _ _ => False)
      (run oversoldArgs [quietBar 1, quietBar 1, quietBar 1,
        { quietBar (53 / 50) with high := 107 / 100 }] (Book.initial oversoldArgs)) := by
  decide +kernel

end TradingFleet.Replay
