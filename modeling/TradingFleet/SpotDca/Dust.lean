import Mathlib.Algebra.Order.Floor.Ring
import TradingFleet.Pair.Edges
import TradingFleet.SpotDca.Balance
import TradingFleet.SpotDca.Tranches

set_option autoImplicit false

/-! # A full exit closes the cycle

`_dust_safe_qty` keeps one tick of a position back, and `_finalize_cycle_if_flat` counts what is
left as no position. The two compute the tick by different rules. From one volume decimal on they
agree. Without decimals the tick is a tenth, but the quantity is then rounded to a whole number,
up to four tenths above or below: the exit sells more than is held, or leaves more than counts as
dust (`dustSafeQty_closes_iff`).
-/

namespace TradingFleet.SpotDca

open TradingFleet.Rounding (roundTo roundEven)

/-! ## What a full exit promises -/

/-- The quantity of a full exit is covered and on the grid, and once it is sold, what is left
counts as no position, so the cycle ends. -/
structure PairPrecision.ClosesCycle (P : PairPrecision) (qty : ℚ) : Prop where
  covered : 0 ≤ P.dustSafeQty qty ∧ P.dustSafeQty qty ≤ qty
  grid : OnGrid P.volumeDecimals (P.dustSafeQty qty)
  below : 0 < P.dustSafeQty qty → qty - P.dustSafeQty qty < P.dust
  closed : 0 < P.dustSafeQty qty → ∀ (s : State) (kind : Kind) (price : ℚ),
    s.qty = qty - P.dustSafeQty qty → s.orders = [] → s.pendingIntent = none →
      s.finalized P kind price = s.nextCycle kind price

section Precision

variable {P : PairPrecision} {qty : ℚ}

/-- A position within the dust ends its cycle. -/
theorem finalized_of_dust {s : State} (hqty : |s.qty| < P.dust) (horders : s.orders = [])
    (hpending : s.pendingIntent = none) (kind : Kind) (price : ℚ) :
    s.finalized P kind price = s.nextCycle kind price := by
  have hflat : s.flattened P = { s with qty := 0, cost := 0 } := by
    unfold State.flattened
    rw [if_pos hqty]
  have hposition : ¬ flatQty < (s.flattened P).qty := by
    rw [hflat]
    exact not_lt.mpr flatQty_pos.le
  have hfree : ¬ ((s.flattened P).orders ≠ [] ∨ (s.flattened P).pendingIntent ≠ none) := by
    rw [hflat]
    simp [horders, hpending]
  unfold State.finalized
  dsimp only
  rw [if_neg hposition, if_neg hfree, hflat]
  rfl

/-- What the quantity itself has to satisfy. -/
theorem closesCycle_iff :
    P.ClosesCycle qty ↔ P.dustSafeQty qty ≤ qty ∧
      (0 < P.dustSafeQty qty → qty - P.dustSafeQty qty < P.dust) := by
  constructor
  · exact fun h => ⟨h.covered.2, h.below⟩
  · rintro ⟨hle, hbelow⟩
    refine ⟨⟨P.dustSafeQty_nonneg qty, hle⟩, onGrid_roundTo _ _, hbelow, ?_⟩
    intro hpos s kind price hqty horders hpending
    have hleft : |s.qty| < P.dust := by
      rw [hqty, abs_of_nonneg (sub_nonneg.mpr hle)]
      exact hbelow hpos
    exact finalized_of_dust hleft horders hpending kind price

/-! ## The ticks -/

/-- The whole ticks of an exit: those held, but one. -/
def PairPrecision.exitTicks (P : PairPrecision) (qty : ℚ) : ℤ :=
  max (⌊(qty + P.dustStep / 10 ^ 9) / P.dustStep⌋ - 1) 0

theorem dustSafeQty_eq (P : PairPrecision) (qty : ℚ) :
    P.dustSafeQty qty = roundTo (P.exitTicks qty * P.dustStep) P.volumeDecimals := rfl

/-- Between one and two ticks stay behind, up to the allowance for floats. -/
theorem exitTicks_bounds (P : PairPrecision) (hticks : 0 < P.exitTicks qty) :
    P.exitTicks qty * P.dustStep + P.dustStep ≤ qty + P.dustStep / 10 ^ 9 ∧
      qty + P.dustStep / 10 ^ 9 < P.exitTicks qty * P.dustStep + 2 * P.dustStep := by
  have hstep := P.dustStep_pos
  have hexit : P.exitTicks qty = ⌊(qty + P.dustStep / 10 ^ 9) / P.dustStep⌋ - 1 := by
    unfold PairPrecision.exitTicks at hticks ⊢
    omega
  have hlow := Int.floor_le ((qty + P.dustStep / 10 ^ 9) / P.dustStep)
  have hhigh := Int.lt_floor_add_one ((qty + P.dustStep / 10 ^ 9) / P.dustStep)
  rw [le_div_iff₀ hstep] at hlow
  rw [div_lt_iff₀ hstep] at hhigh
  rw [hexit]
  push_cast
  constructor
  · linarith
  · linarith

/-! ## With decimals -/

theorem OnGrid.mono {k decimals : ℕ} {x : ℚ} (h : OnGrid k x) (hle : k ≤ decimals) :
    OnGrid decimals x := by
  obtain ⟨n, rfl⟩ := h
  obtain ⟨d, rfl⟩ := Nat.exists_eq_add_of_le hle
  refine ⟨n * 10 ^ d, ?_⟩
  have hk : (10 : ℚ) ^ k ≠ 0 := by positivity
  have hd : (10 : ℚ) ^ d ≠ 0 := by positivity
  push_cast
  rw [pow_add, mul_div_mul_right _ _ hd]

/-- From one decimal on a tick is on the grid and the dust threshold is at least two ticks. -/
theorem dustStep_le_dust (hdecimals : 1 ≤ P.volumeDecimals) :
    OnGrid P.volumeDecimals P.dustStep ∧ 2 * P.dustStep ≤ P.dust := by
  unfold PairPrecision.dustStep PairPrecision.dust
  dsimp only
  by_cases hsmall : P.volumeDecimals ≤ 2
  · rw [if_pos hsmall, max_eq_left hdecimals]
    have hone : max (P.volumeDecimals - 1) 1 = 1 := by omega
    have hpow : (10 : ℚ) ^ 1 ≤ 10 ^ P.volumeDecimals :=
      pow_le_pow_right₀ (by norm_num) hdecimals
    refine ⟨⟨1, by norm_num⟩, ?_⟩
    rw [hone, mul_one_div]
    exact div_le_div_of_nonneg_left (by norm_num) (by norm_num) hpow
  · rw [if_neg hsmall]
    have hmax : max (P.volumeDecimals - 1) 1 = P.volumeDecimals - 1 := by omega
    have hgrid : OnGrid (P.volumeDecimals - 1) (1 / 10 ^ (P.volumeDecimals - 1)) :=
      ⟨1, by norm_num⟩
    rw [hmax]
    refine ⟨hgrid.mono (Nat.sub_le _ _), ?_⟩
    rw [mul_one_div]

/-- With decimals the whole ticks are sold as they are. -/
theorem dustSafeQty_of_decimals (hdecimals : 1 ≤ P.volumeDecimals) (qty : ℚ) :
    P.dustSafeQty qty = P.exitTicks qty * P.dustStep := by
  obtain ⟨n, hn⟩ := (dustStep_le_dust hdecimals).1
  rw [dustSafeQty_eq]
  apply onGrid_iff_roundTo.mp
  refine ⟨P.exitTicks qty * n, ?_⟩
  rw [hn]
  push_cast
  ring

theorem closes_of_decimals (hdecimals : 1 ≤ P.volumeDecimals) (hqty : 0 < qty) :
    P.ClosesCycle qty := by
  have hstep := P.dustStep_pos
  have hdust := (dustStep_le_dust hdecimals).2
  have heq := dustSafeQty_of_decimals hdecimals qty
  rw [closesCycle_iff, heq]
  rcases lt_or_ge 0 (P.exitTicks qty) with hticks | hticks
  · obtain ⟨hlow, hhigh⟩ := exitTicks_bounds P hticks
    have hepsilon : 0 < P.dustStep / 10 ^ 9 := by positivity
    have hless : P.dustStep / 10 ^ 9 ≤ P.dustStep := div_le_self hstep.le (by norm_num)
    constructor
    · linarith
    · intro _
      linarith
  · have hzero : P.exitTicks qty = 0 := le_antisymm hticks (le_max_right _ _)
    rw [hzero, Int.cast_zero, zero_mul]
    exact ⟨hqty.le, fun h => absurd h (lt_irrefl _)⟩

/-! ## Without decimals -/

/-- Without decimals the ticks are tenths, rounded to a whole number. -/
theorem dustSafeQty_of_zero (hdecimals : P.volumeDecimals = 0) (qty : ℚ) :
    P.dustSafeQty qty = roundEven ((max (⌊qty * 10 + 1 / 10 ^ 9⌋ - 1) 0 : ℤ) / 10) := by
  have hstep : P.dustStep = 1 / 10 := by
    unfold PairPrecision.dustStep
    rw [hdecimals]
    norm_num
  have hfloor : (qty + P.dustStep / 10 ^ 9) / P.dustStep = qty * 10 + 1 / 10 ^ 9 := by
    rw [hstep]
    ring
  rw [dustSafeQty_eq, hdecimals]
  unfold PairPrecision.exitTicks Rounding.roundTo
  rw [hfloor, hstep, mul_one_div]
  norm_num

theorem dust_of_zero (hdecimals : P.volumeDecimals = 0) : P.dust = 1 / 5 := by
  unfold PairPrecision.dust
  rw [hdecimals]
  norm_num

/-- Tenths round to `k` or higher from half a unit below `k` on. -/
theorem le_roundEven_tenths {t k : ℤ} :
    k ≤ roundEven ((t : ℚ) / 10) ↔ 10 * k - 5 < t ∨ 10 * k - 5 = t ∧ k % 2 = 0 := by
  have hlt : (k : ℚ) - 1 / 2 < t / 10 ↔ 10 * k - 5 < t := by
    rw [lt_div_iff₀ (by norm_num), ← @Int.cast_lt ℚ]
    push_cast
    constructor <;> intro h <;> linarith
  have heq : (k : ℚ) - 1 / 2 = t / 10 ↔ 10 * k - 5 = t := by
    rw [eq_div_iff (by norm_num), ← @Int.cast_inj ℚ]
    push_cast
    constructor <;> intro h <;> linarith
  rw [Rounding.le_roundEven_iff, hlt, heq]

/-- Nothing is sold below seven tenths; from there on at least one unit is. -/
theorem one_le_whole_iff (qty : ℚ) :
    1 ≤ roundEven ((max (⌊qty * 10 + 1 / 10 ^ 9⌋ - 1) 0 : ℤ) / 10) ↔
      ¬ qty < 7 / 10 - 1 / 10 ^ 10 := by
  have hseven : 7 ≤ ⌊qty * 10 + 1 / 10 ^ 9⌋ ↔ ¬ qty < 7 / 10 - 1 / 10 ^ 10 := by
    rw [Int.le_floor, not_lt]
    push_cast
    constructor <;> intro h <;> linarith
  rw [le_roundEven_tenths, ← hseven]
  omega

/-- Up to a fifth above a whole number, the whole number is sold. -/
theorem whole_of_fract (hqty : 0 < qty) (h : Int.fract qty < 1 / 5) :
    roundEven ((max (⌊qty * 10 + 1 / 10 ^ 9⌋ - 1) 0 : ℤ) / 10) = ⌊qty⌋ := by
  have hfloor : 0 ≤ ⌊qty⌋ := Int.floor_nonneg.mpr hqty.le
  have hwhole : (⌊qty⌋ : ℚ) ≤ qty := Int.floor_le qty
  have hfract : qty < ⌊qty⌋ + 1 / 5 := by
    have := Int.self_sub_floor qty
    linarith
  have hlow : 10 * ⌊qty⌋ ≤ ⌊qty * 10 + 1 / 10 ^ 9⌋ := by
    rw [Int.le_floor]
    push_cast
    linarith
  have hhigh : ⌊qty * 10 + 1 / 10 ^ 9⌋ < 10 * ⌊qty⌋ + 3 := by
    rw [Int.floor_lt]
    push_cast
    linarith
  apply le_antisymm
  · have hnext : ¬ ⌊qty⌋ + 1 ≤ roundEven ((max (⌊qty * 10 + 1 / 10 ^ 9⌋ - 1) 0 : ℤ) / 10) := by
      rw [le_roundEven_tenths]
      omega
    omega
  · rw [le_roundEven_tenths]
    omega

theorem closes_of_zero_iff (hdecimals : P.volumeDecimals = 0) (hqty : 0 < qty) :
    P.ClosesCycle qty ↔ qty < 7 / 10 - 1 / 10 ^ 10 ∨ Int.fract qty < 1 / 5 := by
  rw [closesCycle_iff, dustSafeQty_of_zero hdecimals, dust_of_zero hdecimals]
  have hone := one_le_whole_iff qty
  have hwhole := @whole_of_fract qty hqty
  set q := roundEven ((max (⌊qty * 10 + 1 / 10 ^ 9⌋ - 1) 0 : ℤ) / 10) with hq
  have hcast : (0 : ℚ) < q ↔ 1 ≤ q := by
    rw [Int.cast_pos]
    omega
  rw [hcast]
  constructor
  · rintro ⟨hle, hbelow⟩
    by_cases hsmall : qty < 7 / 10 - 1 / 10 ^ 10
    · exact Or.inl hsmall
    · -- a unit is sold, and less than a fifth of one is left
      right
      have hleft := hbelow (hone.mpr hsmall)
      have hfloor : q ≤ ⌊qty⌋ := Int.le_floor.mpr hle
      have hfloor' : (q : ℚ) ≤ ⌊qty⌋ := by exact_mod_cast hfloor
      have := Int.self_sub_floor qty
      linarith
  · rintro (hsmall | hfract)
    · have hnone : ¬ 1 ≤ q := fun h => hone.mp h hsmall
      have hq0 : (q : ℚ) ≤ 0 := by exact_mod_cast Int.lt_add_one_iff.mp (not_le.mp hnone)
      exact ⟨by linarith, fun h => absurd h hnone⟩
    · have hfloor := Int.floor_le qty
      have hself := Int.self_sub_floor qty
      rw [hwhole hfract]
      exact ⟨hfloor, fun _ => by linarith⟩

end Precision

/-- **A full exit closes the cycle** exactly where the volume has decimals, or so little is held
that nothing is sold, or less than a fifth more than a whole number is held. -/
theorem dustSafeQty_closes_iff (P : PairPrecision) {qty : ℚ} (hqty : 0 < qty) :
    P.ClosesCycle qty ↔
      1 ≤ P.volumeDecimals ∨ qty < 7 / 10 - 1 / 10 ^ 10 ∨ Int.fract qty < 1 / 5 := by
  rcases Nat.eq_zero_or_pos P.volumeDecimals with hzero | hpos
  · rw [closes_of_zero_iff hzero hqty, hzero]
    simp
  · constructor
    · exact fun _ => Or.inl hpos
    · exact fun _ => closes_of_decimals hpos hqty

/-- A venue whose volumes have this many decimals. -/
def venueOf (decimals : ℕ) : PairPrecision := ⟨5, decimals, 0, PairPrecision.noMinimum⟩

/-- With eight decimals, a third of a unit is sold so that the cycle ends. -/
theorem third_closes_cycle : (venueOf 8).ClosesCycle (1 / 3) :=
  (dustSafeQty_closes_iff (venueOf 8) (by norm_num)).mpr (Or.inl (by decide))

/-- In whole units, the exit of 5.7 units is one for 6. -/
theorem whole_units_oversold :
    (venueOf 0).dustSafeQty (57 / 10) = 6 ∧ ¬ (venueOf 0).ClosesCycle (57 / 10) := by
  have hexit : (venueOf 0).dustSafeQty (57 / 10) = 6 := by decide +kernel
  refine ⟨hexit, fun h => ?_⟩
  have hle := h.covered.2
  rw [hexit] at hle
  norm_num at hle

end TradingFleet.SpotDca
