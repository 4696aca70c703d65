import Mathlib.Data.List.Perm.Basic
import Mathlib.Data.List.TakeWhile
import Mathlib.Order.Lattice

set_option autoImplicit false

/-! # Sorted lists and bisection

A list that is kept in order is updated at the place a bisection finds: `bisectLeft` is the place
before the elements that are equal to a value, `insort` adds one behind them. In a sorted list an
element is found where it is (`getElem?_bisectLeft`).
-/

namespace TradingFleet.Bisect

variable {α : Type}

/-- What is erased is the only difference. -/
theorem perm_eraseIdx {l : List α} {i : ℕ} {x : α} (h : l[i]? = some x) :
    l.Perm (x :: l.eraseIdx i) := by
  obtain ⟨hi, rfl⟩ := List.getElem?_eq_some_iff.mp h
  exact (List.getElem_cons_eraseIdx_perm hi).symm

variable [LinearOrder α]

/-- How many elements, from the first one on, are smaller. -/
def bisectLeft (l : List α) (x : α) : ℕ := (l.takeWhile (· < x)).length

/-- Insert behind the elements that are at most `x`. -/
def insort (l : List α) (x : α) : List α := l.takeWhile (· ≤ x) ++ x :: l.dropWhile (· ≤ x)

theorem insort_perm (l : List α) (x : α) : (insort l x).Perm (x :: l) := by
  unfold insort
  have hsplit : l.takeWhile (· ≤ x) ++ l.dropWhile (· ≤ x) = l := List.takeWhile_append_dropWhile
  have hperm := @List.perm_middle α x (l.takeWhile (· ≤ x)) (l.dropWhile (· ≤ x))
  rw [hsplit] at hperm
  exact hperm

theorem lt_of_mem_dropWhile {l : List α} {x y : α} (h : l.Pairwise (· ≤ ·))
    (hy : y ∈ l.dropWhile (· ≤ x)) : x < y := by
  induction l with
  | nil => simp at hy
  | cons a l ih =>
      rw [List.pairwise_cons] at h
      by_cases ha : a ≤ x
      · rw [List.dropWhile_cons_of_pos (by simpa using ha)] at hy
        exact ih h.2 hy
      · rw [List.dropWhile_cons_of_neg (by simpa using ha)] at hy
        have hlt : x < a := not_le.mp ha
        rcases List.mem_cons.mp hy with rfl | hmem
        · exact hlt
        · exact lt_of_lt_of_le hlt (h.1 y hmem)

/-- Insertion keeps the order. -/
theorem insort_sorted {l : List α} (x : α) (h : l.Pairwise (· ≤ ·)) :
    (insort l x).Pairwise (· ≤ ·) := by
  unfold insort
  have hbelow : ∀ y ∈ l.takeWhile (· ≤ x), y ≤ x := by
    intro y hy
    simpa using List.mem_takeWhile_imp hy
  rw [List.pairwise_append, List.pairwise_cons]
  refine ⟨h.sublist (List.takeWhile_sublist _), ⟨?_, h.sublist (List.dropWhile_sublist _)⟩, ?_⟩
  · intro y hy
    exact (lt_of_mem_dropWhile h hy).le
  · intro y hy z hz
    rcases List.mem_cons.mp hz with rfl | hmem
    · exact hbelow y hy
    · exact le_trans (hbelow y hy) (lt_of_mem_dropWhile h hmem).le

/-- An element of a sorted list is found. -/
theorem getElem?_bisectLeft {l : List α} {x : α} (h : l.Pairwise (· ≤ ·)) (hx : x ∈ l) :
    l[bisectLeft l x]? = some x := by
  unfold bisectLeft
  induction l with
  | nil => simp at hx
  | cons a l ih =>
      rw [List.pairwise_cons] at h
      by_cases ha : a < x
      · have hmem : x ∈ l := by
          rcases List.mem_cons.mp hx with rfl | hmem
          · exact absurd ha (lt_irrefl _)
          · exact hmem
        rw [List.takeWhile_cons_of_pos (by simpa using ha), List.length_cons,
          List.getElem?_cons_succ]
        exact ih h.2 hmem
      · have heq : a = x := by
          rcases List.mem_cons.mp hx with rfl | hmem
          · rfl
          · exact le_antisymm (h.1 x hmem) (not_lt.mp ha)
        rw [List.takeWhile_cons_of_neg (by simpa using ha), List.length_nil,
          List.getElem?_cons_zero, heq]

end TradingFleet.Bisect
