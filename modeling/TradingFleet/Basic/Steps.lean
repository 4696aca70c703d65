import Mathlib.Algebra.Order.Floor.Ring
import Mathlib.Algebra.Order.Field.Basic
import Mathlib.Order.Bounds.Basic
import Mathlib.Tactic.Ring
import Mathlib.Tactic.Linarith

set_option autoImplicit false

/-! # Whole numbers of a step

A price or a quantity lives on a grid: the whole multiples of a positive step. `floorTo step x`
is the greatest grid point not above `x`. That one fact gives the others: a grid point lies
below `x` exactly when it lies below `floorTo step x`, so flooring is monotone, idempotent and
leaves grid points alone.
-/

namespace TradingFleet.Steps

variable {α : Type} [Field α]

/-- `x` is a whole number of steps. -/
def IsMultiple (step x : α) : Prop := ∃ n : ℤ, x = n * step

theorem isMultiple_zero (step : α) : IsMultiple step 0 := ⟨0, by simp⟩

theorem isMultiple_self (step : α) : IsMultiple step step := ⟨1, by simp⟩

theorem IsMultiple.add {step x y : α} (hx : IsMultiple step x) (hy : IsMultiple step y) :
    IsMultiple step (x + y) := by
  obtain ⟨n, rfl⟩ := hx
  obtain ⟨m, rfl⟩ := hy
  refine ⟨n + m, ?_⟩
  push_cast
  ring

theorem IsMultiple.sub {step x y : α} (hx : IsMultiple step x) (hy : IsMultiple step y) :
    IsMultiple step (x - y) := by
  obtain ⟨n, rfl⟩ := hx
  obtain ⟨m, rfl⟩ := hy
  refine ⟨n - m, ?_⟩
  push_cast
  ring

variable [LinearOrder α]

theorem IsMultiple.max {step x y : α} (hx : IsMultiple step x) (hy : IsMultiple step y) :
    IsMultiple step (max x y) := by
  rcases max_choice x y with h | h <;> rw [h] <;> assumption

theorem IsMultiple.min {step x y : α} (hx : IsMultiple step x) (hy : IsMultiple step y) :
    IsMultiple step (min x y) := by
  rcases min_choice x y with h | h <;> rw [h] <;> assumption

/-- A grid point above `0` is at least one step. -/
theorem IsMultiple.step_le [IsStrictOrderedRing α] {step x : α} (hstep : 0 < step) (hx : IsMultiple step x) (h : 0 < x) :
    step ≤ x := by
  obtain ⟨n, rfl⟩ := hx
  have hn : 0 < n := by
    by_contra hcon
    have hle : (n : α) ≤ 0 := by exact_mod_cast not_lt.mp hcon
    have := mul_nonpos_of_nonpos_of_nonneg hle hstep.le
    linarith
  have hone : (1 : α) ≤ n := by exact_mod_cast hn
  calc step = 1 * step := (one_mul step).symm
    _ ≤ n * step := mul_le_mul_of_nonneg_right hone hstep.le

variable [FloorRing α]

/-- The greatest whole number of steps not above `x`. -/
def floorTo (step x : α) : α := ⌊x / step⌋ * step

theorem isMultiple_floorTo (step x : α) : IsMultiple step (floorTo step x) := ⟨_, rfl⟩

/-- The smallest whole number of steps not below `x`. -/
def ceilTo (step x : α) : α := ⌈x / step⌉ * step

theorem isMultiple_ceilTo (step x : α) : IsMultiple step (ceilTo step x) := ⟨_, rfl⟩

section Positive

variable [IsStrictOrderedRing α] {step : α} (hstep : 0 < step)

include hstep

theorem floorTo_le (x : α) : floorTo step x ≤ x := by
  have hfloor : (⌊x / step⌋ : α) ≤ x / step := Int.floor_le _
  calc floorTo step x = ⌊x / step⌋ * step := rfl
    _ ≤ x / step * step := mul_le_mul_of_nonneg_right hfloor hstep.le
    _ = x := div_mul_cancel₀ x hstep.ne'

/-- A grid point lies below the floor exactly when it lies below the value. -/
theorem IsMultiple.le_floorTo_iff {m : α} (hm : IsMultiple step m) (x : α) :
    m ≤ floorTo step x ↔ m ≤ x := by
  constructor
  · intro h
    exact h.trans (floorTo_le hstep x)
  · intro h
    obtain ⟨n, rfl⟩ := hm
    have hn : n ≤ ⌊x / step⌋ := Int.le_floor.mpr ((le_div_iff₀ hstep).mpr h)
    have hcast : (n : α) ≤ ⌊x / step⌋ := by exact_mod_cast hn
    exact mul_le_mul_of_nonneg_right hcast hstep.le

theorem IsMultiple.floorTo_lt_iff {m : α} (hm : IsMultiple step m) (x : α) :
    floorTo step x < m ↔ x < m := by
  rw [← not_le, ← not_le, hm.le_floorTo_iff hstep]

/-- **The floor is the greatest grid point not above the value.** -/
theorem isGreatest_floorTo (x : α) :
    IsGreatest {m | IsMultiple step m ∧ m ≤ x} (floorTo step x) := by
  constructor
  · exact ⟨isMultiple_floorTo step x, floorTo_le hstep x⟩
  · rintro m ⟨hm, hle⟩
    exact (hm.le_floorTo_iff hstep x).mpr hle

/-! ## Rounding up -/

/-- A grid point lies above the ceiling exactly when it lies above the value. -/
theorem IsMultiple.ceilTo_le_iff {m : α} (hm : IsMultiple step m) (x : α) :
    ceilTo step x ≤ m ↔ x ≤ m := by
  obtain ⟨n, rfl⟩ := hm
  unfold ceilTo
  rw [mul_le_mul_iff_left₀ hstep, Int.cast_le, Int.ceil_le, div_le_iff₀ hstep]

/-- Only a grid point is not below its own ceiling. -/
theorem ceilTo_le_self_iff (x : α) : ceilTo step x ≤ x ↔ IsMultiple step x := by
  constructor
  · intro h
    have hle : x ≤ ceilTo step x :=
      ((isMultiple_ceilTo step x).ceilTo_le_iff hstep x).mp le_rfl
    rw [le_antisymm hle h]
    exact isMultiple_ceilTo step x
  · intro h
    exact (h.ceilTo_le_iff hstep x).mpr le_rfl

/-- A bound lies below the floor of `x` exactly when its ceiling lies below `x`. -/
theorem le_floorTo_iff {bound x : α} : bound ≤ floorTo step x ↔ ceilTo step bound ≤ x := by
  rw [← (isMultiple_floorTo step x).ceilTo_le_iff hstep bound,
    (isMultiple_ceilTo step bound).le_floorTo_iff hstep x]

/-- A bound lies above the floor of `x` exactly when `x` is below the next grid point. -/
theorem floorTo_le_iff {bound x : α} :
    floorTo step x ≤ bound ↔ x < floorTo step bound + step := by
  have hnext : IsMultiple step (floorTo step bound + step) :=
    (isMultiple_floorTo step bound).add (isMultiple_self step)
  rw [← hnext.floorTo_lt_iff hstep x, ← (isMultiple_floorTo step x).le_floorTo_iff hstep bound]
  constructor
  · intro h
    linarith
  · intro h
    -- between two neighbouring grid points there is no third one
    by_contra hcon
    have hgap := ((isMultiple_floorTo step x).sub (isMultiple_floorTo step bound)).step_le hstep
      (sub_pos.mpr (not_le.mp hcon))
    linarith

end Positive

end TradingFleet.Steps
