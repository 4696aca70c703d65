import Mathlib.Algebra.Order.Field.Basic
import Mathlib.Tactic.Linarith
import Mathlib.Tactic.Ring

set_option autoImplicit false

/-! # Funds and reservations

An account keeps reservations for what it may still have to pay. A new one is accepted if it fits
what is free, up to a tolerance. What is free is never negative, so a reservation within the
tolerance always fits: the reservations may exceed the cash by one tolerance, and by one more for
each reservation that small (`Covered`).
-/

namespace TradingFleet.Funding

variable {K : Type} [LinearOrder K]

/-- The small reservations after one of this size. -/
def counted (tol required : K) (n : ℕ) : ℕ := if required ≤ tol then n + 1 else n

theorem le_counted (tol required : K) (n : ℕ) : n ≤ counted tol required n := by
  unfold counted
  split
  · exact Nat.le_succ n
  · exact le_refl n

variable [Field K]

/-- What is not reserved. -/
def free (cash reserved : K) : K := max 0 (cash - reserved)

/-- The cash covers the reservations, up to `n + 1` tolerances. -/
def Covered (tol cash reserved : K) (n : ℕ) : Prop := reserved ≤ cash + (n + 1) * tol

variable {tol cash reserved : K} {n : ℕ}

theorem Covered.release (h : Covered tol cash reserved n) {reserved' : K}
    (hle : reserved' ≤ reserved) : Covered tol cash reserved' n :=
  hle.trans h

variable [IsStrictOrderedRing K]

/-- **A reservation that fits stays covered.** -/
theorem Covered.reserve (htol : 0 ≤ tol) (h : Covered tol cash reserved n) {required : K}
    (hfits : required ≤ free cash reserved + tol) :
    Covered tol cash (reserved + required) (counted tol required n) := by
  unfold Covered at h ⊢
  unfold counted
  by_cases hsmall : required ≤ tol
  · rw [if_pos hsmall]
    push_cast
    linarith
  · rw [if_neg hsmall]
    -- more than the tolerance only fits what is really free
    have hfree : 0 < cash - reserved := by
      by_contra hnone
      have hzero : free cash reserved = 0 := max_eq_left (not_lt.mp hnone)
      rw [hzero, zero_add] at hfits
      exact hsmall hfits
    have heq : free cash reserved = cash - reserved := max_eq_right hfree.le
    have htolerances : 0 ≤ (n : K) * tol := mul_nonneg n.cast_nonneg htol
    calc reserved + required
        ≤ reserved + (cash - reserved + tol) := by
          rw [heq] at hfits
          linarith
      _ = cash + tol := by ring
      _ ≤ cash + (n + 1) * tol := by linarith

/-- A reserved payment is made. -/
theorem Covered.pay (h : Covered tol cash reserved n) (paid : K) :
    Covered tol (cash - paid) (reserved - paid) n := by
  unfold Covered at h ⊢
  linarith

theorem Covered.receive (h : Covered tol cash reserved n) {received : K} (hpos : 0 ≤ received) :
    Covered tol (cash + received) reserved n := by
  unfold Covered at h ⊢
  linarith

/-- **The account is overdrawn by `n + 1` tolerances at most.** -/
theorem Covered.cash_ge (h : Covered tol cash reserved n) (hpos : 0 ≤ reserved) :
    -((n + 1) * tol) ≤ cash := by
  unfold Covered at h
  linarith

end TradingFleet.Funding
