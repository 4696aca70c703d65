import TradingFleet.SpotDca.Walks

set_option autoImplicit false

/-! # The ledger balances

Fees leave the net result when they are seen, the cost basis leaves at the moving average. Next to
the state a book keeps the totals of the cycle: what was paid for BUYs, what SELLs brought in, and
the cost that `_finalize_cycle_if_flat` wrote off as dust.
-/

namespace TradingFleet.SpotDca

open TradingFleet.Lifecycle TradingFleet.Keyed TradingFleet.Hoare

/-! ## Bookings -/

/-- The end of `_finalize_cycle_if_flat`, without its save. -/
def State.finalized (s : State) (P : PairPrecision) (kind : Kind) (price : ℚ) : State :=
  let s := s.flattened P
  if flatQty < s.qty then s
  else if s.orders ≠ [] ∨ s.pendingIntent ≠ none then s.heldExit kind price
  else s.nextCycle kind price

/-- The three ways an exit can end. -/
theorem State.finalized_cases (s : State) (P : PairPrecision) (kind : Kind) (price : ℚ) :
    s.finalized P kind price = s.flattened P ∧ flatQty < (s.flattened P).qty ∨
      s.finalized P kind price = (s.flattened P).heldExit kind price ∧
        (s.flattened P).qty ≤ flatQty ∨
      s.finalized P kind price = (s.flattened P).nextCycle kind price ∧
        (s.flattened P).qty ≤ flatQty := by
  have hdef : s.finalized P kind price =
      if flatQty < (s.flattened P).qty then s.flattened P
      else if (s.flattened P).orders ≠ [] ∨ (s.flattened P).pendingIntent ≠ none then
        (s.flattened P).heldExit kind price
      else (s.flattened P).nextCycle kind price := rfl
  by_cases hheld : flatQty < (s.flattened P).qty
  · rw [if_pos hheld] at hdef
    exact Or.inl ⟨hdef, hheld⟩
  · have hflat : (s.flattened P).qty ≤ flatQty := not_lt.mp hheld
    rw [if_neg hheld] at hdef
    split at hdef
    · exact Or.inr (Or.inl ⟨hdef, hflat⟩)
    · exact Or.inr (Or.inr ⟨hdef, hflat⟩)

/-- Flattening touches the position only. -/
theorem State.flattened_cases (s : State) (P : PairPrecision) :
    s.flattened P = { s with qty := 0, cost := 0 } ∧ |s.qty| < P.dust ∨ s.flattened P = s := by
  unfold State.flattened
  split
  · rename_i hdust
    exact Or.inl ⟨rfl, hdust⟩
  · exact Or.inr rfl

theorem State.flattened_cycle (s : State) (P : PairPrecision) :
    (s.flattened P).cycle = s.cycle ∧ (s.flattened P).realizedGross = s.realizedGross := by
  rcases s.flattened_cases P with ⟨h, -⟩ | h
  · rw [h]
    exact ⟨rfl, rfl⟩
  · rw [h]
    exact ⟨rfl, rfl⟩

/-- What is entered: fills, fees that come late, terminal exits; orders come and go in between. -/
inductive Booking
  | fill (f : Fill)
  | lateFee (fee : ℚ)
  | finalize (kind : Kind) (price : ℚ)
  | orders (tracked : List Order) (pending : Option Intent)

def State.enter (P : PairPrecision) (s : State) : Booking → State
  | .fill f => s.filled f
  | .lateFee fee => s.charge fee
  | .finalize kind price => s.finalized P kind price
  | .orders tracked pending => { s with orders := tracked, pendingIntent := pending }

/-- A state with the totals of its cycle. -/
structure Book where
  s : State
  buyCost : ℚ := 0
  sellProceeds : ℚ := 0
  /-- `realized_gross` at the beginning of the cycle. -/
  grossBefore : ℚ := 0
  writtenOff : ℚ := 0
  /-- Every fill of the cycle was a proper one. -/
  proper : Bool := true

/-- BUYs have a quantity and a price; a SELL is made from a position, and from no more than it. -/
def Fill.proper (f : Fill) (s : State) : Bool :=
  match f.side with
  | .buy => 0 < f.vol && 0 < f.price
  | .sell => f.vol ≤ s.qty && flatQty < s.qty

/-- What a BUY cost. -/
def Fill.paid (f : Fill) : ℚ := if f.side = .buy then f.vol * f.price else 0

/-- What a SELL brought in. -/
def Fill.earned (f : Fill) : ℚ := if f.side = .sell then f.vol * f.price else 0

def Book.enter (P : PairPrecision) (b : Book) (e : Booking) : Book :=
  let s' := b.s.enter P e
  match e with
  | .fill f => { b with
      s := s'
      buyCost := b.buyCost + f.paid
      sellProceeds := b.sellProceeds + f.earned
      proper := b.proper && f.proper b.s }
  | .finalize _ _ =>
      if s'.cycle = b.s.cycle then
        { b with s := s', writtenOff := b.writtenOff + (b.s.cost - s'.cost) }
      else { s := s', grossBefore := s'.realizedGross }
  | _ => { b with s := s' }

def Book.post (P : PairPrecision) (b : Book) (entries : List Booking) : Book :=
  entries.foldl (Book.enter P) b

/-- The book of a new strategy. -/
def Book.opened : Book := { s := newState }

theorem Book.enter_s (P : PairPrecision) (b : Book) (e : Booking) :
    (b.enter P e).s = b.s.enter P e := by
  unfold Book.enter
  cases e with
  | fill f => rfl
  | lateFee fee => rfl
  | finalize kind price =>
      by_cases hsame : (b.s.enter P (.finalize kind price)).cycle = b.s.cycle
      · simp only [hsame, if_true]
      · simp only [hsame, if_false]
  | orders tracked pending => rfl

/-- What every booking keeps, a posting keeps. -/
theorem Book.post_invariant {P : PairPrecision} {I : Book → Prop}
    (hI : ∀ b e, I b → I (b.enter P e)) (entries : List Booking) {b : Book} (hb : I b) :
    I (b.post P entries) := by
  induction entries generalizing b with
  | nil => exact hb
  | cons e entries ih => exact ih (hI b e hb)

/-! ## Net and gross -/

/-- `realized_net = realized_gross - fees_total`. -/
def State.Netted (s : State) : Prop := s.realizedNet = s.realizedGross - s.feesTotal

theorem netted_newState : newState.Netted := by
  show (0 : ℚ) = 0 - 0
  ring

section Netted

variable {s : State}

theorem State.Netted.charge (h : s.Netted) (fee : ℚ) : (s.charge fee).Netted := by
  show s.realizedNet - fee = s.realizedGross - (s.feesTotal + fee)
  rw [h]
  ring

theorem State.Netted.filled (h : s.Netted) (f : Fill) : (s.filled f).Netted := by
  have hcharged : (s.charge f.fee).Netted := h.charge f.fee
  unfold State.filled
  cases f.side with
  | buy => exact hcharged
  | sell =>
      let gain := (f.price - orElse (s.charge f.fee).avg f.price) * f.vol
      show (s.charge f.fee).realizedNet + gain =
        (s.charge f.fee).realizedGross + gain - (s.charge f.fee).feesTotal
      rw [hcharged]
      ring

theorem State.Netted.flattened (h : s.Netted) (P : PairPrecision) : (s.flattened P).Netted := by
  rcases s.flattened_cases P with ⟨hflat, -⟩ | hflat
  · rw [hflat]
    exact h
  · rw [hflat]
    exact h

theorem State.Netted.enter (h : s.Netted) (P : PairPrecision) (e : Booking) :
    (s.enter P e).Netted := by
  cases e with
  | fill f => exact h.filled f
  | lateFee fee => exact h.charge fee
  | finalize kind price =>
      show (s.finalized P kind price).Netted
      have hflat := h.flattened P
      rcases s.finalized_cases P kind price with ⟨hs, -⟩ | ⟨hs, -⟩ | ⟨hs, -⟩
      · rw [hs]
        exact hflat
      · rw [hs]
        exact hflat
      · rw [hs]
        exact hflat
  | orders tracked pending => exact h

end Netted

/-! ## Cost and proceeds -/

theorem flatQty_pos : 0 < flatQty := by
  unfold flatQty
  norm_num

/-- The cost that is left, and what was written off, is what the cycle paid and has not earned. -/
structure Book.Balanced (b : Book) : Prop where
  cost : b.s.cost + b.writtenOff - (b.s.realizedGross - b.grossBefore) =
    b.buyCost - b.sellProceeds
  cost_nonneg : 0 ≤ b.s.cost
  qty_nonneg : 0 ≤ b.s.qty
  cost_pos : flatQty < b.s.qty → 0 < b.s.cost

section Balanced

variable {b : Book} {P : PairPrecision}

theorem Book.balanced_of_flat {s : State} (h : s.qty = 0 ∧ s.cost = 0) :
    ({ s := s, grossBefore := s.realizedGross } : Book).Balanced := by
  refine ⟨?_, h.2.ge, h.1.ge, ?_⟩
  · show s.cost + 0 - (s.realizedGross - s.realizedGross) = 0 - 0
    rw [h.2]
    ring
  · intro (hheld : flatQty < s.qty)
    rw [h.1] at hheld
    exact absurd hheld (not_lt.mpr flatQty_pos.le)

theorem Book.Balanced.bought (h : b.Balanced) {f : Fill} (hside : f.side = .buy)
    (hf : f.proper b.s = true) : (b.enter P (.fill f)).Balanced := by
  have hproper : 0 < f.vol ∧ 0 < f.price := by
    unfold Fill.proper at hf
    simpa [hside] using hf
  have hpaid : 0 < f.vol * f.price := mul_pos hproper.1 hproper.2
  have hs : b.s.filled f = (b.s.charge f.fee).bought f := by
    unfold State.filled
    rw [hside]
  have hpaid' : f.paid = f.vol * f.price := if_pos hside
  have hearned : f.earned = 0 := if_neg (by simp [hside])
  have henter : b.enter P (.fill f) = { b with
      s := (b.s.charge f.fee).bought f
      buyCost := b.buyCost + f.vol * f.price
      sellProceeds := b.sellProceeds + 0
      proper := b.proper && f.proper b.s } := by
    rw [← hs, ← hpaid', ← hearned]
    rfl
  rw [henter]
  have hcost := h.cost
  refine ⟨?_, ?_, ?_, fun _ => ?_⟩
  · show b.s.cost + f.vol * f.price + b.writtenOff - (b.s.realizedGross - b.grossBefore) =
      b.buyCost + f.vol * f.price - (b.sellProceeds + 0)
    linarith
  · exact add_nonneg h.cost_nonneg hpaid.le
  · exact add_nonneg h.qty_nonneg hproper.1.le
  · exact add_pos_of_nonneg_of_pos h.cost_nonneg hpaid

/-- A SELL from a position is booked at the average, which is not zero, and releases no more cost
than there is: neither the fallback to the price nor the clamp is used. -/
theorem sold_cost {s : State} {f : Fill} (hle : f.vol ≤ s.qty) (hqty : flatQty < s.qty) (hcost : 0 < s.cost) :
    orElse s.avg f.price = s.cost / s.qty ∧
      (s.sold f).cost = s.cost - s.cost / s.qty * f.vol ∧
      s.cost / s.qty * f.vol ≤ s.cost := by
  have hpos : 0 < s.qty := lt_trans flatQty_pos hqty
  have havg : orElse s.avg f.price = s.cost / s.qty := by
    unfold State.avg orElse
    rw [if_pos hqty]
    exact if_neg (ne_of_gt (div_pos hcost hpos))
  have hrelease : s.cost / s.qty * f.vol ≤ s.cost :=
    calc s.cost / s.qty * f.vol ≤ s.cost / s.qty * s.qty :=
          mul_le_mul_of_nonneg_left hle (div_nonneg hcost.le hpos.le)
      _ = s.cost := div_mul_cancel₀ _ (ne_of_gt hpos)
  refine ⟨havg, ?_, hrelease⟩
  show max 0 (s.cost - orElse s.avg f.price * f.vol) = _
  rw [havg]
  exact max_eq_right (sub_nonneg.mpr hrelease)

theorem Book.Balanced.sold (h : b.Balanced) {f : Fill} (hside : f.side = .sell)
    (hf : f.proper b.s = true) : (b.enter P (.fill f)).Balanced := by
  have hproper : f.vol ≤ b.s.qty ∧ flatQty < b.s.qty := by
    unfold Fill.proper at hf
    simpa [hside] using hf
  obtain ⟨hle, hqty⟩ := hproper
  have hpos : 0 < b.s.qty := lt_trans flatQty_pos hqty
  -- the fee does not touch position and cost
  obtain ⟨havg, hcost', hrelease⟩ :=
    sold_cost (s := b.s.charge f.fee) (f := f) hle hqty (h.cost_pos hqty)
  have hs : b.s.filled f = (b.s.charge f.fee).sold f := by
    unfold State.filled
    rw [hside]
  have hpaid : f.paid = 0 := if_neg (by simp [hside])
  have hearned : f.earned = f.vol * f.price := if_pos hside
  have henter : b.enter P (.fill f) = { b with
      s := (b.s.charge f.fee).sold f
      buyCost := b.buyCost + 0
      sellProceeds := b.sellProceeds + f.vol * f.price
      proper := b.proper && f.proper b.s } := by
    rw [← hs, ← hpaid, ← hearned]
    rfl
  rw [henter]
  have hcost := h.cost
  refine ⟨?_, ?_, ?_, fun hleft => ?_⟩
  · show ((b.s.charge f.fee).sold f).cost + b.writtenOff -
        (b.s.realizedGross + (f.price - orElse (b.s.charge f.fee).avg f.price) * f.vol -
          b.grossBefore) = b.buyCost + 0 - (b.sellProceeds + f.vol * f.price)
    rw [hcost', havg]
    show b.s.cost - b.s.cost / b.s.qty * f.vol + b.writtenOff -
        (b.s.realizedGross + (f.price - b.s.cost / b.s.qty) * f.vol - b.grossBefore) = _
    linarith
  · show 0 ≤ ((b.s.charge f.fee).sold f).cost
    rw [hcost']
    exact sub_nonneg.mpr hrelease
  · exact sub_nonneg.mpr hle
  · -- some of the position is left, so some of its cost is
    have hless : f.vol < b.s.qty := by
      have : 0 < b.s.qty - f.vol := lt_trans flatQty_pos hleft
      linarith
    show 0 < ((b.s.charge f.fee).sold f).cost
    rw [hcost']
    have hstrict : b.s.cost / b.s.qty * f.vol < b.s.cost / b.s.qty * b.s.qty :=
      mul_lt_mul_of_pos_left hless (div_pos (h.cost_pos hqty) hpos)
    rw [div_mul_cancel₀ _ (ne_of_gt hpos)] at hstrict
    exact sub_pos.mpr hstrict

/-- The write-off of a terminal exit is the whole cost of dust, or nothing. -/
theorem finalized_cost (s : State) (P : PairPrecision) (kind : Kind) (price : ℚ) :
    (s.finalized P kind price).cost = s.cost ∨
      (s.finalized P kind price).cost = 0 ∧ (s.qty < P.dust ∨ s.qty ≤ flatQty) := by
  rcases s.flattened_cases P with ⟨hflat, hdust⟩ | hflat
  · refine Or.inr ⟨?_, Or.inl (lt_of_le_of_lt (le_abs_self _) hdust)⟩
    rcases s.finalized_cases P kind price with ⟨hs, -⟩ | ⟨hs, -⟩ | ⟨hs, -⟩
    · rw [hs, hflat]
    · rw [hs, hflat]
      rfl
    · rw [hs]
      rfl
  · rcases s.finalized_cases P kind price with ⟨hs, -⟩ | ⟨hs, -⟩ | ⟨hs, hqty⟩
    · rw [hs, hflat]
      exact Or.inl rfl
    · rw [hs, hflat]
      exact Or.inl rfl
    · rw [hflat] at hqty
      rw [hs]
      exact Or.inr ⟨rfl, Or.inr hqty⟩

/-- Within a cycle, an exit writes off cost and nothing else; a new cycle starts with nothing. -/
theorem finalized_position (s : State) (P : PairPrecision) (kind : Kind) (price : ℚ) :
    (s.finalized P kind price).realizedGross = s.realizedGross ∧
      ((s.finalized P kind price).cycle = s.cycle ∧
          (s.finalized P kind price).qty = s.qty ∧ (s.finalized P kind price).cost = s.cost ∨
        (s.finalized P kind price).qty = 0 ∧ (s.finalized P kind price).cost = 0) := by
  obtain ⟨hcycle, hgross⟩ := s.flattened_cycle P
  have hparts : (s.flattened P).qty = s.qty ∧ (s.flattened P).cost = s.cost ∨
      (s.flattened P).qty = 0 ∧ (s.flattened P).cost = 0 := by
    rcases s.flattened_cases P with ⟨hflat, -⟩ | hflat
    · rw [hflat]
      exact Or.inr ⟨rfl, rfl⟩
    · rw [hflat]
      exact Or.inl ⟨rfl, rfl⟩
  rcases s.finalized_cases P kind price with ⟨hs, -⟩ | ⟨hs, -⟩ | ⟨hs, -⟩
  · rw [hs]
    exact ⟨hgross, hparts.imp (fun h => ⟨hcycle, h⟩) id⟩
  · rw [hs]
    exact ⟨hgross, hparts.imp (fun h => ⟨hcycle, h⟩) id⟩
  · rw [hs]
    exact ⟨hgross, Or.inr ⟨rfl, rfl⟩⟩

theorem finalized_new_cycle {s : State} {P : PairPrecision} {kind : Kind} {price : ℚ}
    (h : (s.finalized P kind price).cycle ≠ s.cycle) :
    (s.finalized P kind price).qty = 0 ∧ (s.finalized P kind price).cost = 0 := by
  rcases (finalized_position s P kind price).2 with ⟨hsame, -⟩ | hflat
  · exact absurd hsame h
  · exact hflat

theorem Book.Balanced.finalized (h : b.Balanced) (kind : Kind) (price : ℚ) :
    (b.enter P (.finalize kind price)).Balanced := by
  let s' := b.s.finalized P kind price
  by_cases hsame : s'.cycle = b.s.cycle
  · have henter : b.enter P (.finalize kind price) = { b with
        s := s', writtenOff := b.writtenOff + (b.s.cost - s'.cost) } := if_pos hsame
    rw [henter]
    obtain ⟨hgross, hparts⟩ := finalized_position b.s P kind price
    have hcost := h.cost
    refine ⟨?_, ?_, ?_, ?_⟩
    · show s'.cost + (b.writtenOff + (b.s.cost - s'.cost)) - (s'.realizedGross - b.grossBefore) = _
      rw [hgross]
      linarith
    · show 0 ≤ s'.cost
      rcases hparts with ⟨-, -, hkept⟩ | ⟨-, hgone⟩
      · exact hkept ▸ h.cost_nonneg
      · exact hgone.ge
    · show 0 ≤ s'.qty
      rcases hparts with ⟨-, hkept, -⟩ | ⟨hgone, -⟩
      · exact hkept ▸ h.qty_nonneg
      · exact hgone.ge
    · intro (hheld : flatQty < s'.qty)
      show 0 < s'.cost
      rcases hparts with ⟨-, hqty, hkept⟩ | ⟨hgone, -⟩
      · rw [hkept]
        exact h.cost_pos (hqty ▸ hheld)
      · rw [hgone] at hheld
        exact absurd hheld (not_lt.mpr flatQty_pos.le)
  · have henter : b.enter P (.finalize kind price) =
        { s := s', grossBefore := s'.realizedGross } := if_neg hsame
    rw [henter]
    exact Book.balanced_of_flat (finalized_new_cycle hsame)

/-- The book of a cycle is balanced as long as its fills are proper. -/
theorem Book.Balanced.enter (h : b.proper = true → b.Balanced) (e : Booking)
    (hproper : (b.enter P e).proper = true) : (b.enter P e).Balanced := by
  cases e with
  | fill f =>
      have hboth : b.proper = true ∧ f.proper b.s = true := Bool.and_eq_true_iff.mp hproper
      cases hside : f.side with
      | buy => exact (h hboth.1).bought hside hboth.2
      | sell => exact (h hboth.1).sold hside hboth.2
  | lateFee fee =>
      -- a fee leaves position, cost and gross result alone
      have hb := h hproper
      exact ⟨hb.cost, hb.cost_nonneg, hb.qty_nonneg, hb.cost_pos⟩
  | finalize kind price =>
      by_cases hsame : (b.s.finalized P kind price).cycle = b.s.cycle
      · have hkept : (b.enter P (.finalize kind price)).proper = b.proper := by
          have henter : b.enter P (.finalize kind price) = { b with
              s := b.s.finalized P kind price
              writtenOff := b.writtenOff + (b.s.cost - (b.s.finalized P kind price).cost) } :=
            if_pos hsame
          rw [henter]
        exact (h (hkept.symm.trans hproper)).finalized kind price
      · have henter : b.enter P (.finalize kind price) =
            { s := b.s.finalized P kind price
              grossBefore := (b.s.finalized P kind price).realizedGross } := if_neg hsame
        rw [henter]
        exact Book.balanced_of_flat (finalized_new_cycle hsame)
  | orders tracked pending =>
      have hb := h hproper
      exact ⟨hb.cost, hb.cost_nonneg, hb.qty_nonneg, hb.cost_pos⟩

end Balanced

/-- For every sequence of bookings: net is gross less fees; and in a cycle whose fills are proper,
the cost and what was written off, less what was realized, is what was paid less what was brought
in, while an exit writes off nothing or the cost of a quantity that counts as dust. -/
theorem ledger_balances (P : PairPrecision) (entries : List Booking) :
    (Book.opened.post P entries).s.Netted ∧
      ((Book.opened.post P entries).proper = true →
        (Book.opened.post P entries).Balanced ∧
          ∀ kind price,
            ((Book.opened.post P entries).s.finalized P kind price).cost =
                (Book.opened.post P entries).s.cost ∨
              ((Book.opened.post P entries).s.finalized P kind price).cost = 0 ∧
                ((Book.opened.post P entries).s.qty < P.dust ∨
                  (Book.opened.post P entries).s.qty ≤ flatQty)) := by
  have hnetted : (Book.opened.post P entries).s.Netted := by
    refine Book.post_invariant (I := fun b => b.s.Netted) (fun b e hb => ?_) entries netted_newState
    show (b.enter P e).s.Netted
    rw [Book.enter_s]
    exact hb.enter P e
  -- a booking that is not proper makes the rest of the cycle improper
  have hbalanced : (Book.opened.post P entries).proper = true →
      (Book.opened.post P entries).Balanced := by
    refine Book.post_invariant (I := fun b => b.proper = true → b.Balanced)
      (fun b e hb => Book.Balanced.enter hb e) entries (fun _ => ?_)
    exact Book.balanced_of_flat ⟨rfl, rfl⟩
  exact ⟨hnetted, fun hproper => ⟨hbalanced hproper,
    fun kind price => finalized_cost _ P kind price⟩⟩

/-- A fill without fee. -/
def plainFill (side : Side) (vol price : ℚ) : Booking :=
  .fill { txid := "", side, kind := .tp, amount := 0, vol, price, fee := 0 }

/-- One unit is bought at 100 and half of it sold at 120; a rebate comes late. -/
def halfSold : Book :=
  Book.opened.post ⟨2, 2, 0, PairPrecision.noMinimum⟩
    [plainFill .buy 1 100, .lateFee (-1 / 10), plainFill .sell (1 / 2) 120]

theorem halfSold_balanced :
    halfSold.s.realizedNet = halfSold.s.realizedGross - halfSold.s.feesTotal ∧
      halfSold.s.cost + halfSold.writtenOff - (halfSold.s.realizedGross - halfSold.grossBefore) =
        halfSold.buyCost - halfSold.sellProceeds ∧
      halfSold.s.cost = 50 ∧ halfSold.s.realizedGross = 10 ∧ halfSold.s.realizedNet = 101 / 10 := by
  have hrun : halfSold.proper = true ∧ halfSold.s.cost = 50 ∧ halfSold.s.realizedGross = 10 ∧
      halfSold.s.realizedNet = 101 / 10 := by
    decide +kernel
  obtain ⟨hproper, hvalues⟩ := hrun
  have h := ledger_balances ⟨2, 2, 0, le_refl 0⟩
    [plainFill .buy 1 100, .lateFee (-1 / 10), plainFill .sell (1 / 2) 120]
  exact ⟨h.1, (h.2 hproper).1.cost, hvalues⟩

/-! ### A SELL from a position that counts as none -/

/-- Three units of `1e-12` are bought at 100; two are sold at 100, then the last one at 200. -/
def lastUnit (n : Nat) : Book :=
  Book.opened.post ⟨2, 12, 0, PairPrecision.noMinimum⟩ ([plainFill .buy (3 / 10 ^ 12) 100,
    plainFill .sell (2 / 10 ^ 12) 100, plainFill .sell (1 / 10 ^ 12) 200].take n)

/-- Proper until the last SELL, which is no larger than the position but is booked at its own
price: a gain of 0, where the book has one of `1e-10`. -/
theorem lastUnit_unbalanced :
    2 / 10 ^ 12 ≤ (lastUnit 1).s.qty ∧ 1 / 10 ^ 12 ≤ (lastUnit 2).s.qty ∧
      (lastUnit 2).proper = true ∧
      (lastUnit 3).s.realizedGross = 0 ∧
      (lastUnit 3).s.cost - ((lastUnit 3).s.realizedGross - (lastUnit 3).grossBefore) ≠
        (lastUnit 3).buyCost - (lastUnit 3).sellProceeds := by
  decide +kernel

/-! ## Bookings of the program -/

section Program

variable {S : Setup} {w w' : World}

/-- A status report is a change of the orders, and a fill or a late fee. -/
theorem reported_enter (P : PairPrecision) (s : State) (o : Order) (r : Report) :
    ∃ orders, s.reported o r =
      if o.eps < o.deltaVol r then
        (s.enter P (.orders orders s.pendingIntent)).enter P (.fill (o.fill r))
      else if o.eps < |o.deltaFee r| then
        (s.enter P (.orders orders s.pendingIntent)).enter P (.lateFee (o.deltaFee r))
      else s.enter P (.orders orders s.pendingIntent) := by
  let replaced := s.replace o (o.marked r)
  refine ⟨(if r.terminal then replaced.remove (o.marked r) else replaced).orders, ?_⟩
  unfold State.reported
  cases r.terminal with
  | true => rfl
  | false => rfl

theorem State.Netted.reported {s : State} (h : s.Netted) (P : PairPrecision) (o : Order) (r : Report) :
    (s.reported o r).Netted := by
  obtain ⟨orders, hs⟩ := reported_enter P s o r
  have horders := h.enter P (.orders orders s.pendingIntent)
  rw [hs]
  split
  · exact horders.enter P _
  · split
    · exact horders.enter P _
    · exact horders

theorem Move.netted (h : Move S w w') (hw : w.s.Netted ∧ w.saved.Netted) :
    w'.s.Netted ∧ w'.saved.Netted := by
  cases h with
  | note h =>
      refine ⟨?_, hw.2⟩
      rw [h]
      exact hw.1
  | saved => exact ⟨hw.1, hw.1⟩
  | booked ho hlive h => exact ⟨hw.1.reported S.precision _ _, hw.2⟩
  | paperFilled ho hpaper => exact ⟨State.Netted.filled (s := w.s.remove _) hw.1 _, hw.2⟩
  | flattened => exact ⟨hw.1.flattened S.precision, hw.2⟩
  | restarted => exact ⟨hw.2, hw.2⟩
  | called | intended | pend | submit | rewrite | release | track | cancelled | dropped
  | paperPlaced | ignored | held | closed | exitMarked | positionAdopted => exact hw

/-- Net is gross less fees in every state the program can reach. -/
theorem Reachable.netted (h : Reachable S w) : w.s.Netted :=
  (h.invariant (I := fun w => w.s.Netted ∧ w.saved.Netted) ⟨netted_newState, netted_newState⟩
    (fun _ _ hmove hI => hmove.netted hI)).1

end Program

end TradingFleet.SpotDca
