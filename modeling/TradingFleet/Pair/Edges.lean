import Mathlib.Tactic.Linarith
import TradingFleet.Pair.Types

set_option autoImplicit false

/-! # The edge of an anchored exit

`anchoredExitPrice` puts the target of an exit order at cost plus edge or beyond, and then rounds
it to the nearest tick. What is lost by rounding down (SELL) or up (BUY) comes out of the edge.
Whether it survives depends on where the target lies between two ticks: the rounded price keeps
the edge exactly when the target is less than half a tick away from the first tick that keeps it
(`anchored_exit_keeps_edge_iff`).
-/

namespace TradingFleet.Pair

open TradingFleet.Rounding

/-! ## The edge -/

/-- Cost plus edge: what a SELL exit may not fall below and a BUY exit may not rise above. -/
def edgeBound (exitSide : Side) (fillPrice minEdgeFraction : ℚ) : ℚ :=
  match exitSide with
  | .sell => fillPrice / (1 - minEdgeFraction)
  | .buy => fillPrice * (1 - minEdgeFraction)

/-- The target before it is rounded. -/
def exitTarget (exitSide : Side) (fillPrice currentPrice adjustmentFraction minEdgeFraction : ℚ) :
    ℚ :=
  match exitSide with
  | .sell =>
      max (currentPrice * (1 + adjustmentFraction)) (edgeBound .sell fillPrice minEdgeFraction)
  | .buy =>
      min (currentPrice * (1 - adjustmentFraction)) (edgeBound .buy fillPrice minEdgeFraction)

/-- What the guard asks of an exit price: `(sell - buy) / sell >= edge`. -/
def KeepsEdge (exitSide : Side) (fillPrice minEdgeFraction price : ℚ) : Prop :=
  match exitSide with
  | .sell => fillPrice ≤ price * (1 - minEdgeFraction)
  | .buy => 0 < price ∧ price ≤ fillPrice * (1 - minEdgeFraction)

/-- The target lies less than half a tick short of the first tick that keeps the edge, or half a
tick when that tick is even; a BUY target is more than half a tick. -/
def ClearsTick (exitSide : Side) (fillPrice currentPrice adjustmentFraction minEdgeFraction : ℚ)
    (decimals : ℤ) : Prop :=
  let ticks := exitTarget exitSide fillPrice currentPrice adjustmentFraction minEdgeFraction *
    10 ^ decimals
  let bound := edgeBound exitSide fillPrice minEdgeFraction * 10 ^ decimals
  match exitSide with
  | .sell => (⌈bound⌉ : ℚ) - 1 / 2 < ticks ∨ (⌈bound⌉ : ℚ) - 1 / 2 = ticks ∧ ⌈bound⌉ % 2 = 0
  | .buy =>
      1 / 2 < ticks ∧
        (ticks < (⌊bound⌋ : ℚ) + 1 / 2 ∨ ticks = (⌊bound⌋ : ℚ) + 1 / 2 ∧ ⌊bound⌋ % 2 = 0)

theorem anchoredExitPrice_eq (exitSide : Side) {fillPrice currentPrice : ℚ}
    (hfill : 0 < fillPrice) (hcurrent : 0 < currentPrice)
    (adjustmentFraction minEdgeFraction : ℚ) (decimals : ℤ) :
    anchoredExitPrice exitSide fillPrice currentPrice adjustmentFraction minEdgeFraction decimals =
      .ok (roundTo (exitTarget exitSide fillPrice currentPrice adjustmentFraction minEdgeFraction)
        decimals) := by
  unfold anchoredExitPrice
  rw [if_neg (by rintro (h | h) <;> linarith)]
  cases exitSide with
  | sell => rfl
  | buy => rfl

theorem keepsEdge_roundTo_iff (exitSide : Side) (fillPrice currentPrice adjustmentFraction : ℚ)
    {minEdgeFraction : ℚ} (hedge : minEdgeFraction < 1) (decimals : ℤ) :
    KeepsEdge exitSide fillPrice minEdgeFraction
        (roundTo (exitTarget exitSide fillPrice currentPrice adjustmentFraction minEdgeFraction)
          decimals) ↔
      ClearsTick exitSide fillPrice currentPrice adjustmentFraction minEdgeFraction decimals := by
  have hrest : 0 < 1 - minEdgeFraction := by linarith
  cases exitSide with
  | sell =>
      show fillPrice ≤ roundTo _ decimals * (1 - minEdgeFraction) ↔ _
      rw [← div_le_iff₀ hrest, le_roundTo_iff, le_roundEven_iff]
      exact Iff.rfl
  | buy =>
      show 0 < roundTo _ decimals ∧ roundTo _ decimals ≤ fillPrice * (1 - minEdgeFraction) ↔ _
      rw [roundTo_pos_iff, roundTo_le_iff, roundEven_le_iff, le_roundEven_iff]
      -- the tick below which a price rounds to zero is odd
      have hodd : ((1 : ℤ) : ℚ) - 1 / 2 = 1 / 2 := by norm_num
      rw [hodd, show ((1 : ℤ) % 2 = 0) = False from by decide, and_false, or_false]
      exact Iff.rfl

/-- **When the anchored exit keeps its edge.** For every fill price, current price, adjustment,
edge and number of decimals, and for both sides: the price that `anchoredExitPrice` returns keeps
the edge if and only if its target clears the tick. -/
theorem anchored_exit_keeps_edge_iff (exitSide : Side)
    {fillPrice currentPrice adjustmentFraction minEdgeFraction : ℚ} (hfill : 0 < fillPrice)
    (hcurrent : 0 < currentPrice) (hedge : minEdgeFraction < 1) (decimals : ℤ) :
    (∃ price, anchoredExitPrice exitSide fillPrice currentPrice adjustmentFraction minEdgeFraction
        decimals = .ok price ∧ KeepsEdge exitSide fillPrice minEdgeFraction price) ↔
      ClearsTick exitSide fillPrice currentPrice adjustmentFraction minEdgeFraction decimals := by
  rw [anchoredExitPrice_eq exitSide hfill hcurrent, ← keepsEdge_roundTo_iff exitSide fillPrice
    currentPrice adjustmentFraction hedge decimals]
  constructor
  · rintro ⟨price, hprice, hkeeps⟩
    rw [Except.ok.inj hprice]
    exact hkeeps
  · exact fun hkeeps => ⟨_, rfl, hkeeps⟩

/-- A fill at 100 with the default edge: the target 101.16337… rounds up. -/
theorem exit_of_hundred_keeps_edge :
    ∃ price, anchoredExitPrice .sell 100 90 (1 / 100) (23 / 2000) 4 = .ok price ∧
      KeepsEdge .sell 100 (23 / 2000) price :=
  (anchored_exit_keeps_edge_iff .sell (by norm_num) (by norm_num) (by norm_num) 4).mpr
    (Or.inl (by decide +kernel))

/-- A fill at 99: the target 100.15174… rounds down, to a price 0.00004 short of the edge. -/
theorem exit_of_ninetynine_loses_edge :
    ¬ ∃ price, anchoredExitPrice .sell 99 90 (1 / 100) (23 / 2000) 4 = .ok price ∧
      KeepsEdge .sell 99 (23 / 2000) price := by
  have hprice : anchoredExitPrice .sell 99 90 (1 / 100) (23 / 2000) 4 = .ok (1001517 / 10000) := by
    decide +kernel
  rintro ⟨price, hok, hkeeps⟩
  rw [hprice, Except.ok.injEq] at hok
  rw [← hok] at hkeeps
  have hcost : (99 : ℚ) ≤ 1001517 / 10000 * (1 - 23 / 2000) := hkeeps
  norm_num at hcost

end TradingFleet.Pair
