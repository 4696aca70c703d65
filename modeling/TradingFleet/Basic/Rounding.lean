import Mathlib.Algebra.Order.Round
import Mathlib.Data.Int.Log
import Mathlib.Data.Rat.Floor
import Mathlib.Tactic.FieldSimp
import Mathlib.Tactic.Linarith
import Mathlib.Tactic.NormNum
import Mathlib.Tactic.Positivity

set_option autoImplicit false

/-! # Rounding

Rounding half to even, to whole numbers and to decimals, and the doubles. A number stands for the
double nearest to it; an operation of the machine is the exact one on two doubles, rounded once
(`double (double x * double y)`). Overflow is left out: there is no largest double here.
-/

namespace TradingFleet.Rounding

/-! ## Decimals -/

/-- Round half to even. -/
def roundEven (x : ℚ) : ℤ :=
  let rest := x - ⌊x⌋
  if rest < 1 / 2 then ⌊x⌋
  else if 1 / 2 < rest then ⌊x⌋ + 1
  else if ⌊x⌋ % 2 = 0 then ⌊x⌋ else ⌊x⌋ + 1

/-- `round(x, decimals)`. -/
def roundTo (x : ℚ) (decimals : ℤ) : ℚ := roundEven (x * 10 ^ decimals) / 10 ^ decimals

theorem roundEven_intCast (n : ℤ) : roundEven (n : ℚ) = n := by
  unfold roundEven
  simp

theorem roundEven_near (x : ℚ) : |(roundEven x : ℚ) - x| ≤ 1 / 2 := by
  have hlow : (⌊x⌋ : ℚ) ≤ x := Int.floor_le x
  have hhigh : x < ⌊x⌋ + 1 := Int.lt_floor_add_one x
  unfold roundEven
  rw [abs_le]
  dsimp only
  split_ifs with hbelow habove heven
  · constructor <;> linarith
  · push_cast
    constructor <;> linarith
  · constructor <;> linarith
  · push_cast
    constructor <;> linarith

theorem roundTo_nonneg {x : ℚ} (h : 0 ≤ x) (decimals : ℤ) : 0 ≤ roundTo x decimals := by
  have hpow : (0 : ℚ) < 10 ^ decimals := zpow_pos (by norm_num) decimals
  have hfloor : 0 ≤ ⌊x * 10 ^ decimals⌋ := Int.floor_nonneg.mpr (mul_nonneg h hpow.le)
  have hround : 0 ≤ roundEven (x * 10 ^ decimals) := by
    unfold roundEven
    dsimp only
    split_ifs <;> omega
  exact div_nonneg (by exact_mod_cast hround) hpow.le

theorem roundTo_near (x : ℚ) (decimals : ℤ) :
    |roundTo x decimals - x| ≤ 1 / (2 * 10 ^ decimals) := by
  have hpow : (0 : ℚ) < 10 ^ decimals := zpow_pos (by norm_num) decimals
  have hnear := roundEven_near (x * 10 ^ decimals)
  have hscaled : roundTo x decimals - x =
      (roundEven (x * 10 ^ decimals) - x * 10 ^ decimals) / 10 ^ decimals := by
    unfold roundTo
    field_simp
  rw [hscaled, abs_div, abs_of_pos hpow, div_le_div_iff₀ hpow (by linarith)]
  nlinarith

theorem roundTo_roundTo (x : ℚ) (decimals : ℤ) :
    roundTo (roundTo x decimals) decimals = roundTo x decimals := by
  have hpow : (10 : ℚ) ^ decimals ≠ 0 := zpow_ne_zero decimals (by norm_num)
  have hcancel : roundTo x decimals * 10 ^ decimals = (roundEven (x * 10 ^ decimals) : ℚ) := by
    unfold roundTo
    exact div_mul_cancel₀ _ hpow
  show (roundEven (roundTo x decimals * 10 ^ decimals) : ℚ) / 10 ^ decimals = _
  rw [hcancel, roundEven_intCast]
  rfl

/-! ## Where a value rounds to -/

/-- A value rounds to `n` or higher from half a unit below `n` on; the midpoint goes to the even
neighbour. -/
theorem le_roundEven_iff {x : ℚ} {n : ℤ} :
    n ≤ roundEven x ↔ (n : ℚ) - 1 / 2 < x ∨ (n : ℚ) - 1 / 2 = x ∧ n % 2 = 0 := by
  have hlow : (⌊x⌋ : ℚ) ≤ x := Int.floor_le x
  have hhigh : x < ⌊x⌋ + 1 := Int.lt_floor_add_one x
  have hcast : ∀ m : ℤ, n ≤ m ↔ (n : ℚ) ≤ m := fun m => (Int.cast_le (R := ℚ)).symm
  -- an `n` above the floor is at least the next whole number
  have hnext : ¬ n ≤ ⌊x⌋ ↔ (⌊x⌋ : ℚ) + 1 ≤ n := by
    rw [not_le, ← Int.add_one_le_iff, ← Int.cast_le (R := ℚ), Int.cast_add, Int.cast_one]
  unfold roundEven
  dsimp only
  split_ifs with hbelow habove heven
  · -- down: only an `n` up to the floor is reached, and only such an `n` lies that low
    constructor
    · intro h
      rw [hcast] at h
      exact Or.inl (by linarith)
    · intro h
      by_contra hn
      rw [hnext] at hn
      rcases h with h | h
      · linarith
      · linarith [h.1]
  · -- up
    constructor
    · intro h
      have h' : (n : ℚ) ≤ ⌊x⌋ + 1 := by exact_mod_cast h
      exact Or.inl (by linarith)
    · intro h
      have h' : (n : ℚ) < ⌊x⌋ + 2 := by
        rcases h with h | h
        · linarith
        · linarith [h.1]
      have : n < ⌊x⌋ + 2 := by exact_mod_cast h'
      omega
  · -- the midpoint above an even floor
    have hmid : x = ⌊x⌋ + 1 / 2 := by linarith
    constructor
    · intro h
      rw [hcast] at h
      exact Or.inl (by linarith)
    · rintro (h | ⟨h, hn⟩)
      · have h' : (n : ℚ) < ⌊x⌋ + 1 := by linarith
        have : n < ⌊x⌋ + 1 := by exact_mod_cast h'
        omega
      · have h' : (n : ℚ) = ⌊x⌋ + 1 := by linarith
        have : n = ⌊x⌋ + 1 := by exact_mod_cast h'
        omega
  · -- the midpoint above an odd floor
    have hmid : x = ⌊x⌋ + 1 / 2 := by linarith
    constructor
    · intro h
      have h' : (n : ℚ) ≤ ⌊x⌋ + 1 := by exact_mod_cast h
      rcases lt_or_eq_of_le h' with hlt | heq
      · exact Or.inl (by linarith)
      · have hn : n = ⌊x⌋ + 1 := by exact_mod_cast heq
        exact Or.inr ⟨by linarith, by omega⟩
    · intro h
      have h' : (n : ℚ) ≤ ⌊x⌋ + 1 := by
        rcases h with h | h
        · linarith
        · linarith [h.1]
      exact_mod_cast h'

theorem roundEven_le_iff {x : ℚ} {n : ℤ} :
    roundEven x ≤ n ↔ x < (n : ℚ) + 1 / 2 ∨ x = (n : ℚ) + 1 / 2 ∧ n % 2 = 0 := by
  have hflip : roundEven x ≤ n ↔ ¬ n + 1 ≤ roundEven x := by omega
  have hmid : ((n + 1 : ℤ) : ℚ) - 1 / 2 = n + 1 / 2 := by
    push_cast
    ring
  rw [hflip, le_roundEven_iff, hmid, not_or, not_lt, not_and]
  constructor
  · rintro ⟨hle, hodd⟩
    rcases lt_or_eq_of_le hle with hlt | heq
    · exact Or.inl hlt
    · exact Or.inr ⟨heq, by have := hodd heq.symm; omega⟩
  · rintro (hlt | ⟨heq, heven⟩)
    · exact ⟨hlt.le, fun h => absurd h (ne_of_gt hlt)⟩
    · exact ⟨heq.le, fun _ => by omega⟩

/-- A rounded value is at least a bound when it reaches the first tick that is. -/
theorem le_roundTo_iff {x bound : ℚ} (decimals : ℤ) :
    bound ≤ roundTo x decimals ↔ ⌈bound * 10 ^ decimals⌉ ≤ roundEven (x * 10 ^ decimals) := by
  have hpow : (0 : ℚ) < 10 ^ decimals := zpow_pos (by norm_num) decimals
  unfold roundTo
  rw [le_div_iff₀ hpow, Int.ceil_le]

theorem roundTo_le_iff {x bound : ℚ} (decimals : ℤ) :
    roundTo x decimals ≤ bound ↔ roundEven (x * 10 ^ decimals) ≤ ⌊bound * 10 ^ decimals⌋ := by
  have hpow : (0 : ℚ) < 10 ^ decimals := zpow_pos (by norm_num) decimals
  unfold roundTo
  rw [div_le_iff₀ hpow, Int.le_floor]

theorem roundTo_pos_iff {x : ℚ} (decimals : ℤ) :
    0 < roundTo x decimals ↔ 1 ≤ roundEven (x * 10 ^ decimals) := by
  have hpow : (0 : ℚ) < 10 ^ decimals := zpow_pos (by norm_num) decimals
  unfold roundTo
  rw [div_pos_iff_of_pos_right hpow, Int.cast_pos]
  omega

/-! ## Doubles -/

/-- The distance of two doubles next to `x`: 53 binary digits, at least `2 ^ (-1074)`. -/
def ulp (x : ℚ) : ℚ := 2 ^ max (Int.log 2 |x| - 52) (-1074)

/-- The double nearest to `x`, half to even. -/
def double (x : ℚ) : ℚ := roundEven (x / ulp x) * ulp x

/-- `a + b`, `a - b`, `a * b` and `a / b` of the machine. -/
def add (a b : ℚ) : ℚ := double (double a + double b)

def sub (a b : ℚ) : ℚ := double (double a - double b)

def mul (a b : ℚ) : ℚ := double (double a * double b)

def div (a b : ℚ) : ℚ := double (double a / double b)

theorem double_zero : double 0 = 0 := by
  unfold double
  rw [zero_div, show (0 : ℚ) = ((0 : ℤ) : ℚ) by norm_num, roundEven_intCast]
  norm_num

theorem ulp_pos (x : ℚ) : 0 < ulp x := zpow_pos (by norm_num) _

theorem double_nonneg {x : ℚ} (h : 0 ≤ x) : 0 ≤ double x := by
  have hround : (0 : ℤ) ≤ roundEven (x / ulp x) := by
    rw [le_roundEven_iff]
    refine Or.inl ?_
    have hnonneg := div_nonneg h (ulp_pos x).le
    push_cast
    linarith
  exact mul_nonneg (by exact_mod_cast hround) (ulp_pos x).le

/-- Two neighbours are no further apart than the number itself, down to the smallest double. -/
theorem ulp_le_abs {x : ℚ} (h : 2 ^ (-1074 : ℤ) ≤ |x|) : ulp x ≤ |x| := by
  have hpos : 0 < |x| := lt_of_lt_of_le (zpow_pos (by norm_num) _) h
  have hlog : (2 : ℚ) ^ Int.log 2 |x| ≤ |x| := by
    exact_mod_cast Int.zpow_log_le_self (by norm_num) hpos
  unfold ulp
  rcases max_choice (Int.log 2 |x| - 52) (-1074) with hmax | hmax
  · rw [hmax]
    exact (zpow_le_zpow_right₀ (by norm_num) (by omega)).trans hlog
  · rw [hmax]
    exact h

/-- A negative number that is not too small is a negative double. -/
theorem double_neg {x : ℚ} (hneg : x < 0) (h : 2 ^ (-1074 : ℤ) ≤ |x|) : double x < 0 := by
  have hulp := ulp_le_abs h
  have hpos := ulp_pos x
  have hle : x / ulp x ≤ -1 := by
    rw [div_le_iff₀ hpos]
    rw [abs_of_neg hneg] at hulp
    linarith
  have hround : roundEven (x / ulp x) ≤ -1 := by
    rw [roundEven_le_iff]
    refine Or.inl ?_
    push_cast
    linarith
  have hcast : (roundEven (x / ulp x) : ℚ) ≤ -1 := by exact_mod_cast hround
  exact mul_neg_of_neg_of_pos (by linarith) hpos

/-- A number of up to 53 binary digits is a double. -/
theorem double_of_digits {n e : ℤ} (hn : |n| < 2 ^ 53) (he : -1074 ≤ e) :
    double (n * 2 ^ e) = n * 2 ^ e := by
  rcases eq_or_ne n 0 with rfl | hzero
  · rw [Int.cast_zero, zero_mul, double_zero]
  have hpos : 0 < |(n : ℚ) * 2 ^ e| := abs_pos.mpr
    (mul_ne_zero (by exact_mod_cast hzero) (zpow_ne_zero _ (by norm_num)))
  have hlog : Int.log 2 |(n : ℚ) * 2 ^ e| < 53 + e := by
    have hlt : |(n : ℚ) * 2 ^ e| < (2 : ℕ) ^ (53 + e) := by
      rw [abs_mul, abs_of_pos (zpow_pos (by norm_num : (0 : ℚ) < 2) e), Nat.cast_ofNat,
        zpow_add₀ (by norm_num)]
      refine mul_lt_mul_of_pos_right ?_ (zpow_pos (by norm_num) e)
      have hcast : ((|n| : ℤ) : ℚ) < ((2 ^ 53 : ℤ) : ℚ) := Int.cast_lt.mpr hn
      rw [Int.cast_abs] at hcast
      exact_mod_cast hcast
    exact (Int.lt_zpow_iff_log_lt (by norm_num) hpos).mp hlt
  -- the grid of its neighbours is finer than the last digit
  obtain ⟨k, hk⟩ : ∃ k : ℕ, e = max (Int.log 2 |(n : ℚ) * 2 ^ e| - 52) (-1074) + k := by
    refine ⟨(e - max (Int.log 2 |(n : ℚ) * 2 ^ e| - 52) (-1074)).toNat, ?_⟩
    have hle : max (Int.log 2 |(n : ℚ) * 2 ^ e| - 52) (-1074) ≤ e := max_le (by omega) he
    omega
  have hgrid : (n : ℚ) * 2 ^ e / ulp (n * 2 ^ e) = ((n * 2 ^ k : ℤ) : ℚ) := by
    have hulp : ulp (n * 2 ^ e) * 2 ^ k = 2 ^ e := by
      unfold ulp
      rw [← zpow_natCast, ← zpow_add₀ (by norm_num), ← hk]
    rw [div_eq_iff (ulp_pos _).ne']
    calc (n : ℚ) * 2 ^ e = n * (ulp (n * 2 ^ e) * 2 ^ k) := by rw [hulp]
      _ = ((n * 2 ^ k : ℤ) : ℚ) * ulp (n * 2 ^ e) := by
        push_cast
        ring
  unfold double
  rw [hgrid, roundEven_intCast, ← hgrid, div_mul_cancel₀ _ (ulp_pos _).ne']

theorem double_intCast {n : ℤ} (hn : |n| < 2 ^ 53) : double n = n := by
  have hsame := double_of_digits (e := 0) hn (by norm_num)
  rwa [zpow_zero, mul_one] at hsame

theorem sub_same (a : ℚ) : sub a a = 0 := by
  unfold sub
  rw [sub_self, double_zero]

theorem div_of_zero (a : ℚ) : div 0 a = 0 := by
  unfold div
  rw [double_zero, zero_div, double_zero]

end TradingFleet.Rounding
