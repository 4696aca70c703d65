import TradingFleet.SpotDca.Ledger

set_option autoImplicit false

/-! # How the backtests fill an order

Fees, the execution model and the tranches of `offline/backtests/execution.py`. What the
`__post_init__` methods check is a field. The keys that a tranche writes into an order are kept
beside it: an order is marked with its original quantity once it had a fill.
-/

namespace TradingFleet.Replay

open TradingFleet.Lifecycle
open TradingFleet.SpotDca (Order Kind)

/-! ## Fees and the model -/

structure FeeModel where
  limitFeePct : ℚ
  marketFeePct : ℚ
  limit_range : 0 ≤ limitFeePct ∧ limitFeePct < 100
  market_range : 0 ≤ marketFeePct ∧ marketFeePct < 100

def FeeModel.ratePct (F : FeeModel) (market : Bool) : ℚ :=
  if market then F.marketFeePct else F.limitFeePct

inductive IntrabarPolicy where
  | buyFirst
  | sellFirst
  | worstCase
deriving DecidableEq, Repr

structure ExecutionModel where
  spreadBps : ℚ := 0
  marketSlippageBps : ℚ := 0
  partialFillRatio : ℚ := 1
  intrabarPolicy : IntrabarPolicy := .buyFirst
  spread_range : 0 ≤ spreadBps ∧ spreadBps < 20000
  slippage_nonneg : 0 ≤ marketSlippageBps
  ratio_range : 0 < partialFillRatio ∧ partialFillRatio ≤ 1
  adverse_range : spreadBps / 2 + marketSlippageBps < 10000

namespace ExecutionModel

def sideOrder (E : ExecutionModel) : List Side :=
  if E.intrabarPolicy = .sellFirst then [.sell, .buy] else [.buy, .sell]

def limitTouched (E : ExecutionModel) (side : Side) (high low limit : ℚ) : Bool :=
  match side with
  | .buy => low * (1 + E.spreadBps / 20000) ≤ limit
  | .sell => limit ≤ high * (1 - E.spreadBps / 20000)

/-- The adverse market price: half a spread plus slippage. -/
def marketPrice (E : ExecutionModel) (side : Side) (open_ : ℚ) : ℚ :=
  let adverse := (E.spreadBps / 2 + E.marketSlippageBps) / 10000
  match side with
  | .buy => open_ * (1 + adverse)
  | .sell => open_ * (1 - adverse)

end ExecutionModel

theorem FeeModel.rate_range (F : FeeModel) (market : Bool) :
    0 ≤ F.ratePct market ∧ F.ratePct market < 100 := by
  unfold FeeModel.ratePct
  split
  · exact F.market_range
  · exact F.limit_range

/-- A BUY limit that is touched is positive. -/
theorem ExecutionModel.touched_pos (E : ExecutionModel) {high low limit : ℚ} (hlow : 0 < low)
    (h : E.limitTouched .buy high low limit = true) : 0 < limit := by
  have hle : low * (1 + E.spreadBps / 20000) ≤ limit := of_decide_eq_true h
  have hspread := E.spread_range.1
  have hfactor : 0 < 1 + E.spreadBps / 20000 := by positivity
  exact lt_of_lt_of_le (mul_pos hlow hfactor) hle

/-- A market SELL gets a positive price. -/
theorem ExecutionModel.marketPrice_pos (E : ExecutionModel) {open_ : ℚ} (hopen : 0 < open_) :
    0 < E.marketPrice .sell open_ := by
  have hadverse := E.adverse_range
  have hfactor : 0 < 1 - (E.spreadBps / 2 + E.marketSlippageBps) / 10000 := by
    have : (E.spreadBps / 2 + E.marketSlippageBps) / 10000 < 1 := by
      rw [div_lt_one (by norm_num)]
      exact hadverse
    linarith
  exact mul_pos hopen hfactor

/-! ## Tranches -/

/-- An order as `split_order_fill` reads and writes it. The quantity and the amount stand under the
keys it is given; an order without an amount has 0. -/
structure OrderDict where
  side : Side
  kind : String
  quantity : ℚ
  amount : ℚ
  /-- `_replay_original_<quantity_key>` -/
  original : Option ℚ
  /-- `_replay_had_fill` -/
  hadFill : Bool
deriving DecidableEq, Repr

/-- An order that had no fill. -/
def freshOrder (side : Side) (kind : String) (quantity amount : ℚ) : OrderDict where
  side := side
  kind := kind
  quantity := quantity
  amount := amount
  original := none
  hadFill := false

/-- A quantity below which an order has nothing left. -/
def remnant (original : ℚ) : ℚ := max (1 / 10 ^ 12) (original / 10 ^ 12)

/-- The kind of a fill after the first one. -/
def laterKind (kind : String) : String :=
  if kind = "DCA" ∨ kind = "TREND_ENTRY" then kind ++ "_PARTIAL" else kind

/-- One call: the fill, its quantity, what is left of the order, and whether that is nothing. -/
structure Split where
  fill : OrderDict
  chunk : ℚ
  rest : OrderDict
  complete : Bool
deriving DecidableEq, Repr

/-- `split_order_fill`, with an amount key or without. It raises when nothing is left. -/
def splitOrderFill (o : OrderDict) (hasAmount : Bool) (ratio : ℚ) (forceFull : Bool) :
    Option Split :=
  if o.quantity ≤ 0 then none
  else
    let original := o.original.getD o.quantity
    let part := if forceFull then o.quantity else min o.quantity (original * ratio)
    let chunk := if o.quantity - part ≤ remnant original then o.quantity else part
    let fillAmount := if hasAmount then o.amount * (chunk / o.quantity) else o.amount
    let left := max 0 (o.quantity - chunk)
    some {
      fill := { o with
        original := some original
        quantity := chunk
        amount := fillAmount
        kind := if o.hadFill ∧ o.side = .buy then laterKind o.kind else o.kind }
      chunk := chunk
      rest := { o with
        original := some original
        quantity := left
        amount := if hasAmount then max 0 (o.amount - fillAmount) else o.amount
        hadFill := true }
      complete := left ≤ remnant original }

theorem remnant_pos (original : ℚ) : 0 < remnant original := by
  unfold remnant
  exact lt_of_lt_of_le (by norm_num) (le_max_left _ _)

/-- What a call does: it takes a positive part, and the order is complete exactly when it takes
all of it. -/
structure Splits (o : OrderDict) (f : Split) : Prop where
  quantity : 0 < o.quantity
  chunk : 0 < f.chunk ∧ f.chunk ≤ o.quantity
  fill : f.fill.quantity = f.chunk
  rest : f.rest.quantity = o.quantity - f.chunk
  complete : f.complete = true → f.chunk = o.quantity
  partial_ : f.complete = false → f.chunk < o.quantity

theorem splitOrderFill_spec {o : OrderDict} {hasAmount : Bool} {ratio : ℚ} {forceFull : Bool}
    {f : Split} (hmark : o.original.all (fun x => 0 < x)) (hratio : 0 < ratio)
    (h : splitOrderFill o hasAmount ratio forceFull = some f) : Splits o f := by
  unfold splitOrderFill at h
  by_cases hquantity : o.quantity ≤ 0
  · rw [if_pos hquantity] at h
    cases h
  · rw [if_neg hquantity] at h
    rw [not_le] at hquantity
    dsimp only at h
    set original := o.original.getD o.quantity with horiginal
    have hpos : 0 < original := by
      cases hm : o.original with
      | none =>
          rw [horiginal, hm]
          exact hquantity
      | some x =>
          rw [hm] at hmark
          rw [horiginal, hm]
          simpa using hmark
    set part := if forceFull then o.quantity else min o.quantity (original * ratio) with hpart
    have hpart_pos : 0 < part ∧ part ≤ o.quantity := by
      rw [hpart]
      split
      · exact ⟨hquantity, le_refl _⟩
      · exact ⟨lt_min hquantity (mul_pos hpos hratio), min_le_left _ _⟩
    -- a remnant that is too small goes with the last tranche
    set chunk := if o.quantity - part ≤ remnant original then o.quantity else part with hchunk
    have hchunk_pos : 0 < chunk ∧ chunk ≤ o.quantity := by
      rw [hchunk]
      split
      · exact ⟨hquantity, le_refl _⟩
      · exact hpart_pos
    have hrest : max 0 (o.quantity - chunk) = o.quantity - chunk :=
      max_eq_right (sub_nonneg.mpr hchunk_pos.2)
    have hremnant := remnant_pos original
    rw [Option.some.injEq] at h
    subst h
    refine ⟨hquantity, hchunk_pos, rfl, hrest, ?_, ?_⟩
    · intro hc
      have hle : max 0 (o.quantity - chunk) ≤ remnant original := of_decide_eq_true hc
      show chunk = o.quantity
      rw [hrest] at hle
      rw [hchunk] at hle ⊢
      by_cases hsmall : o.quantity - part ≤ remnant original
      · rw [if_pos hsmall]
      · rw [if_neg hsmall] at hle
        exact absurd hle hsmall
    · intro hc
      have hlt : ¬ max 0 (o.quantity - chunk) ≤ remnant original := of_decide_eq_false hc
      show chunk < o.quantity
      rw [hrest] at hlt
      linarith

/-- A call marks the order with its original quantity. -/
theorem splitOrderFill_original {o : OrderDict} {hasAmount : Bool} {ratio : ℚ} {forceFull : Bool}
    {f : Split} (h : splitOrderFill o hasAmount ratio forceFull = some f) :
    f.rest.original = some (o.original.getD o.quantity) := by
  unfold splitOrderFill at h
  by_cases hquantity : o.quantity ≤ 0
  · rw [if_pos hquantity] at h
    cases h
  · rw [if_neg hquantity] at h
    rw [← Option.some.inj h]

end TradingFleet.Replay
