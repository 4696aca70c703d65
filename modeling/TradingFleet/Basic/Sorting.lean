import Mathlib.Algebra.Order.Ring.Rat
import Mathlib.Data.List.Sort

set_option autoImplicit false

/-! # Two sorts of one list, side by side

A list of keyed values is sorted by key alone, which keeps the values of one key in their order,
and by key and value. Compared position by position the two differ only inside the rows of one
key (`zip_byKey_byBoth`): there the first has the values as they were listed and the second has
them from the smallest on.
-/

namespace TradingFleet.Sorting

/-! ## Rows of one key -/

section Rows

variable {α β κ : Type} (f : α → κ) (g : β → κ)

theorem keys_of_mem_zip {l : List α} {l' : List β} (h : l.map f = l'.map g) {p : α × β}
    (hp : p ∈ l.zip l') : f p.1 = g p.2 := by
  induction l generalizing l' with
  | nil => simp at hp
  | cons a rest ih =>
      cases l' with
      | nil => simp at hp
      | cons b rest' =>
          rw [List.map_cons, List.map_cons, List.cons.injEq] at h
          rw [List.zip_cons_cons] at hp
          rcases List.mem_cons.mp hp with rfl | hp
          · exact h.1
          · exact ih h.2 hp

variable [DecidableEq κ]

/-- The rows of one key, in their order. -/
def rows (x : κ) (l : List α) : List α := l.filter (fun a => f a = x)

/-- Two lists with the same keys in the same places are paired within the rows of each key. -/
theorem zip_rows {l : List α} {l' : List β} (h : l.map f = l'.map g) (x : κ) :
    (rows f x l).zip (rows g x l') = (l.zip l').filter (fun p => f p.1 = x) := by
  induction l generalizing l' with
  | nil => simp [rows]
  | cons a rest ih =>
      cases l' with
      | nil => simp at h
      | cons b rest' =>
          rw [List.map_cons, List.map_cons, List.cons.injEq] at h
          have hrest := ih h.2
          by_cases ha : f a = x
          · have hb : g b = x := by rw [← h.1, ha]
            have hl : rows f x (a :: rest) = a :: rows f x rest := List.filter_cons_of_pos (by simpa)
            have hl' : rows g x (b :: rest') = b :: rows g x rest' :=
              List.filter_cons_of_pos (by simpa)
            rw [hl, hl', List.zip_cons_cons, List.zip_cons_cons, hrest,
              List.filter_cons_of_pos (by simpa)]
          · have hb : ¬ g b = x := by rwa [← h.1]
            have hl : rows f x (a :: rest) = rows f x rest := List.filter_cons_of_neg (by simpa)
            have hl' : rows g x (b :: rest') = rows g x rest' := List.filter_cons_of_neg (by simpa)
            rw [hl, hl', List.zip_cons_cons, hrest, List.filter_cons_of_neg (by simpa)]

/-- A property of the pairs is one of the pairs within each key. -/
theorem forall_zip_iff_rows {l : List α} {l' : List β} (h : l.map f = l'.map g)
    (R : α → β → Prop) :
    (∀ p ∈ l.zip l', R p.1 p.2) ↔ ∀ x, ∀ p ∈ (rows f x l).zip (rows g x l'), R p.1 p.2 := by
  constructor
  · intro hR x p hp
    rw [zip_rows f g h] at hp
    exact hR p (List.mem_of_mem_filter hp)
  · intro hR p hp
    refine hR (f p.1) p ?_
    rw [zip_rows f g h]
    exact List.mem_filter.mpr ⟨hp, by simp⟩

end Rows

/-! ## The two sorts -/

section Sorts

variable {κ : Type} [LinearOrder κ]

/-- Sorted by key; equal keys keep their order. -/
def byKey (l : List (κ × ℚ)) : List (κ × ℚ) := l.insertionSort (fun a b => a.1 ≤ b.1)

/-- Sorted by key and value. -/
def byBoth (l : List (κ × ℚ)) : List (κ × ℚ) :=
  l.insertionSort (fun a b => a.1 < b.1 ∨ (a.1 = b.1 ∧ a.2 ≤ b.2))

theorem byKey_sorted (l : List (κ × ℚ)) : (byKey l).Pairwise (fun a b => a.1 ≤ b.1) := by
  have htotal : Std.Total (fun a b : κ × ℚ => a.1 ≤ b.1) := ⟨fun a b => le_total a.1 b.1⟩
  have htrans : IsTrans (κ × ℚ) (fun a b => a.1 ≤ b.1) := ⟨fun a b c h h' => h.trans h'⟩
  exact List.pairwise_insertionSort _ l

theorem byBoth_sorted (l : List (κ × ℚ)) :
    (byBoth l).Pairwise (fun a b => a.1 < b.1 ∨ (a.1 = b.1 ∧ a.2 ≤ b.2)) := by
  have htotal : Std.Total (fun a b : κ × ℚ => a.1 < b.1 ∨ (a.1 = b.1 ∧ a.2 ≤ b.2)) := by
    constructor
    intro a b
    rcases lt_trichotomy a.1 b.1 with h | h | h
    · exact Or.inl (Or.inl h)
    · rcases le_total a.2 b.2 with h' | h'
      · exact Or.inl (Or.inr ⟨h, h'⟩)
      · exact Or.inr (Or.inr ⟨h.symm, h'⟩)
    · exact Or.inr (Or.inl h)
  have htrans : IsTrans (κ × ℚ) (fun a b => a.1 < b.1 ∨ (a.1 = b.1 ∧ a.2 ≤ b.2)) := by
    constructor
    rintro a b c (h | h) (h' | h')
    · exact Or.inl (h.trans h')
    · exact Or.inl (h'.1 ▸ h)
    · exact Or.inl (h.1 ▸ h')
    · exact Or.inr ⟨h.1.trans h'.1, h.2.trans h'.2⟩
  exact List.pairwise_insertionSort _ l

/-- **The sort by key is stable.** -/
theorem rows_byKey (l : List (κ × ℚ)) (x : κ) : rows Prod.fst x (byKey l) = rows Prod.fst x l := by
  have htotal : Std.Total (fun a b : κ × ℚ => a.1 ≤ b.1) := ⟨fun a b => le_total a.1 b.1⟩
  have htrans : IsTrans (κ × ℚ) (fun a b => a.1 ≤ b.1) := ⟨fun a b c h h' => h.trans h'⟩
  have hkeys : ∀ a ∈ rows Prod.fst x l, a.1 = x := by
    intro a ha
    simpa using (List.mem_filter.mp ha).2
  have hequal : (rows Prod.fst x l).Pairwise (fun a b => a.1 ≤ b.1) := by
    refine List.pairwise_of_forall_mem_list (fun a ha b hb => ?_)
    rw [hkeys a ha, hkeys b hb]
  have hsub : (rows Prod.fst x l).Sublist (byKey l) :=
    List.sublist_insertionSort hequal List.filter_sublist
  have hrow : (rows Prod.fst x l).Sublist (rows Prod.fst x (byKey l)) := by
    have h := hsub.filter (fun a => decide (a.1 = x))
    rwa [List.filter_eq_self.mpr (fun a ha => by simpa using hkeys a ha)] at h
  have hlength : (rows Prod.fst x (byKey l)).length = (rows Prod.fst x l).length :=
    ((List.perm_insertionSort _ l).filter _).length_eq
  exact (hrow.eq_of_length hlength.symm).symm

theorem rows_byBoth_perm (l : List (κ × ℚ)) (x : κ) :
    (rows Prod.fst x (byBoth l)).Perm (rows Prod.fst x l) :=
  (List.perm_insertionSort _ l).filter _

/-- Within a key the sort by key and value has the values from the smallest on. -/
theorem rows_byBoth_values (l : List (κ × ℚ)) (x : κ) :
    (rows Prod.fst x (byBoth l)).map Prod.snd =
      ((rows Prod.fst x l).map Prod.snd).insertionSort (· ≤ ·) := by
  have hkeys : ∀ a ∈ rows Prod.fst x (byBoth l), a.1 = x := by
    intro a ha
    simpa using (List.mem_filter.mp ha).2
  have hsorted : ((rows Prod.fst x (byBoth l)).map Prod.snd).Pairwise (· ≤ ·) := by
    rw [List.pairwise_map]
    refine List.Pairwise.imp_of_mem (fun ha hb h => ?_) ((byBoth_sorted l).filter _)
    rcases h with h | h
    · rw [hkeys _ ha, hkeys _ hb] at h
      exact absurd h (lt_irrefl x)
    · exact h.2
  refine List.Perm.eq_of_pairwise' hsorted (List.pairwise_insertionSort _ _) ?_
  exact ((rows_byBoth_perm l x).map _).trans (List.perm_insertionSort _ _).symm

/-- The two sorts have the same keys in the same places. -/
theorem keys_byKey_byBoth {l l' : List (κ × ℚ)} (h : l.map Prod.fst = l'.map Prod.fst) :
    (byKey l).map Prod.fst = (byBoth l').map Prod.fst := by
  have hleft : ((byKey l).map Prod.fst).Pairwise (· ≤ ·) := by
    rw [List.pairwise_map]
    exact byKey_sorted l
  have hright : ((byBoth l').map Prod.fst).Pairwise (· ≤ ·) := by
    rw [List.pairwise_map]
    refine (byBoth_sorted l').imp (fun hab => ?_)
    rcases hab with hab | hab
    · exact hab.le
    · exact hab.1.le
  refine List.Perm.eq_of_pairwise' hleft hright ?_
  have hl := (List.perm_insertionSort (fun a b : κ × ℚ => a.1 ≤ b.1) l).map Prod.fst
  have hl' := (List.perm_insertionSort
    (fun a b : κ × ℚ => a.1 < b.1 ∨ (a.1 = b.1 ∧ a.2 ≤ b.2)) l').map Prod.fst
  exact hl.trans (h ▸ hl'.symm)

/-- **Two lists with the same keys, the one sorted by key and the other by key and value, agree
position by position exactly when within each key the values of the first, as listed, agree with
those of the second from the smallest on.** -/
theorem zip_byKey_byBoth {l l' : List (κ × ℚ)} (h : l.map Prod.fst = l'.map Prod.fst)
    (R : ℚ → ℚ → Prop) :
    (∀ p ∈ (byKey l).zip (byBoth l'), R p.1.2 p.2.2) ↔
      ∀ x, ∀ p ∈ ((rows Prod.fst x l).map Prod.snd).zip
        (((rows Prod.fst x l').map Prod.snd).insertionSort (· ≤ ·)), R p.1 p.2 := by
  rw [forall_zip_iff_rows Prod.fst Prod.fst (keys_byKey_byBoth h)
    (fun a b : κ × ℚ => R a.2 b.2)]
  refine forall_congr' (fun x => ?_)
  rw [← rows_byBoth_values, rows_byKey, List.zip_map, List.forall_mem_map]
  rfl

end Sorts

end TradingFleet.Sorting
