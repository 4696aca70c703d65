import Mathlib.Algebra.BigOperators.Group.Finset.Piecewise
import Mathlib.Algebra.BigOperators.Group.List.Basic
import Mathlib.Data.List.Nodup
import Mathlib.Data.List.Sort

set_option autoImplicit false

/-! # Lists of keyed rows

A table held as a list and rewritten as a whole: the first row that matches is updated
(`updateFirst`), or every row is kept, changed or dropped (`List.filterMap`). The rows carry
a key; the lemmas say what happens to the keys and to the rows that do not match.
-/

namespace TradingFleet.Keyed

variable {α κ : Type}

/-- Apply `f` to the first row that satisfies `p`. -/
def updateFirst (p : α → Bool) (f : α → α) : List α → List α
  | [] => []
  | a :: l => if p a then f a :: l else a :: updateFirst p f l

/-- The rows after an update are rows from before, or the image of the row it found. -/
theorem mem_updateFirst {p : α → Bool} {f : α → α} {l : List α} {r b : α}
    (hr : l.find? p = some r) (h : b ∈ updateFirst p f l) : b ∈ l ∨ b = f r := by
  induction l with
  | nil => cases h
  | cons a t ih =>
      unfold updateFirst at h
      by_cases hp : p a = true
      · rw [List.find?_cons_of_pos hp, Option.some.injEq] at hr
        rw [if_pos hp] at h
        rcases List.mem_cons.mp h with rfl | h
        · exact Or.inr (by rw [hr])
        · exact Or.inl (by simp [h])
      · rw [List.find?_cons_of_neg hp] at hr
        rw [if_neg hp] at h
        rcases List.mem_cons.mp h with rfl | h
        · exact Or.inl (by simp)
        · rcases ih hr h with h | h
          · exact Or.inl (by simp [h])
          · exact Or.inr h

/-- A row survives an update as it was, unless it is the one found. -/
theorem updateFirst_keeps {p : α → Bool} {f : α → α} {l : List α} {r a : α}
    (hr : l.find? p = some r) (h : a ∈ l) : a ∈ updateFirst p f l ∨ a = r := by
  induction l with
  | nil => cases h
  | cons c t ih =>
      unfold updateFirst
      by_cases hp : p c = true
      · rw [List.find?_cons_of_pos hp, Option.some.injEq] at hr
        rw [if_pos hp]
        rcases List.mem_cons.mp h with rfl | h
        · exact Or.inr hr
        · exact Or.inl (by simp [h])
      · rw [List.find?_cons_of_neg hp] at hr
        rw [if_neg hp]
        rcases List.mem_cons.mp h with rfl | h
        · exact Or.inl (by simp)
        · rcases ih hr h with h | h
          · exact Or.inl (by simp [h])
          · exact Or.inr h

/-- The image of the row an update finds is there afterwards. -/
theorem updateFirst_found {p : α → Bool} {f : α → α} {l : List α} {r : α}
    (hr : l.find? p = some r) : f r ∈ updateFirst p f l := by
  induction l with
  | nil => cases hr
  | cons c t ih =>
      unfold updateFirst
      by_cases hp : p c = true
      · rw [List.find?_cons_of_pos hp, Option.some.injEq] at hr
        rw [if_pos hp, hr]
        exact List.mem_cons_self
      · rw [List.find?_cons_of_neg hp] at hr
        rw [if_neg hp]
        exact List.mem_cons_of_mem _ (ih hr)

/-- A row survives the erasure of the first match, unless it is that match. -/
theorem eraseP_keeps {p : α → Bool} {l : List α} {r a : α} (hr : l.find? p = some r)
    (h : a ∈ l) : a ∈ l.eraseP p ∨ a = r := by
  induction l with
  | nil => cases h
  | cons c t ih =>
      by_cases hp : p c = true
      · rw [List.find?_cons_of_pos hp, Option.some.injEq] at hr
        rw [List.eraseP_cons_of_pos hp]
        rcases List.mem_cons.mp h with rfl | h
        · exact Or.inr hr
        · exact Or.inl h
      · rw [List.find?_cons_of_neg hp] at hr
        rw [List.eraseP_cons_of_neg hp]
        rcases List.mem_cons.mp h with rfl | h
        · exact Or.inl (by simp)
        · rcases ih hr h with h | h
          · exact Or.inl (by simp [h])
          · exact Or.inr h

/-- Keeping the rows whose position passes a test: every other row fails it somewhere. -/
theorem mem_filter_zipIdx {k : Nat → Bool} {l : List α} {a : α} (h : a ∈ l) :
    a ∈ (l.zipIdx.filter (fun p => k p.2)).map (·.1) ∨
      ∃ i, (a, i) ∈ l.zipIdx ∧ k i = false := by
  obtain ⟨i, hi, rfl⟩ := List.getElem_of_mem h
  have hz : (l[i], i) ∈ l.zipIdx := by
    rw [List.mem_zipIdx_iff_getElem?]
    simp [hi]
  by_cases hk : k i = true
  · exact Or.inl (List.mem_map.mpr ⟨(l[i], i), List.mem_filter.mpr ⟨hz, hk⟩, rfl⟩)
  · exact Or.inr ⟨i, hz, by simpa using hk⟩

theorem filter_zipIdx_sublist (keep : Nat → Bool) (l : List α) :
    ((l.zipIdx.filter (fun p => keep p.2)).map (·.1)).Sublist l := by
  have h : ((l.zipIdx.filter (fun p => keep p.2)).map (·.1)).Sublist (l.zipIdx.map (·.1)) :=
    List.Sublist.map _ List.filter_sublist
  simpa using h

/-- A row and its position determine each other. -/
theorem zipIdx_eq_of_idx_eq {l : List α} {a b : α} {i : Nat} (ha : (a, i) ∈ l.zipIdx)
    (hb : (b, i) ∈ l.zipIdx) : a = b := by
  rw [List.mem_zipIdx_iff_getElem?] at ha hb
  simpa [ha] using hb

theorem updateFirst_of_not_mem {p : α → Bool} {f : α → α} {l : List α}
    (h : ∀ a ∈ l, p a = false) : updateFirst p f l = l := by
  induction l with
  | nil => rfl
  | cons a t ih =>
      unfold updateFirst
      rw [if_neg (by simp [h a (by simp)]), ih (fun b hb => h b (by simp [hb]))]

/-- An update that keeps each key keeps the list of keys. -/
theorem map_updateFirst {p : α → Bool} {f : α → α} (key : α → κ) (hf : ∀ a, key (f a) = key a)
    (l : List α) : (updateFirst p f l).map key = l.map key := by
  induction l with
  | nil => rfl
  | cons a t ih =>
      unfold updateFirst
      split
      · simp [hf]
      · simp [ih]

theorem updateFirst_keys_sublist {p : α → Bool} {f : α → α} (key : α → κ)
    (hf : ∀ a, key (f a) = key a) (l : List α) :
    ((updateFirst p f l).map key).Sublist (l.map key) := by
  rw [map_updateFirst key hf l]

/-- Dropping and changing rows key by key leaves a sublist of the keys. -/
theorem filterMap_keys_sublist {f : α → Option α} (key : α → κ)
    (hf : ∀ a b, f a = some b → key b = key a) (l : List α) :
    ((l.filterMap f).map key).Sublist (l.map key) := by
  induction l with
  | nil => simp
  | cons a t ih =>
      cases hfa : f a with
      | none =>
          rw [List.filterMap_cons_none hfa]
          exact List.Sublist.cons _ ih
      | some b =>
          rw [List.filterMap_cons_some hfa, List.map_cons, List.map_cons, hf a b hfa]
          exact List.Sublist.cons_cons _ ih

/-- Keeping every row as it is keeps the table. -/
theorem filterMap_eq_self {f : α → Option α} {l : List α} (hf : ∀ a ∈ l, f a = some a) :
    l.filterMap f = l := by
  induction l with
  | nil => rfl
  | cons a t ih =>
      rw [List.filterMap_cons_some (hf a (by simp)), ih (fun b hb => hf b (by simp [hb]))]

/-- With distinct keys, two rows of one key are one row. -/
theorem eq_of_key_eq {key : α → κ} {l : List α} (hn : (l.map key).Nodup) {a b : α}
    (ha : a ∈ l) (hb : b ∈ l) (h : key a = key b) : a = b :=
  List.inj_on_of_nodup_map hn ha hb h

/-- An update changes a sum by the new row for the one it found. -/
theorem sum_map_updateFirst {M : Type} [AddCommMonoid M] {p : α → Bool} {f : α → α} {l : List α}
    {r : α} (hr : l.find? p = some r) (g : α → M) :
    ((updateFirst p f l).map g).sum + g r = (l.map g).sum + g (f r) := by
  induction l with
  | nil => cases hr
  | cons a t ih =>
      unfold updateFirst
      by_cases hp : p a = true
      · rw [List.find?_cons_of_pos hp, Option.some.injEq] at hr
        rw [if_pos hp, hr, List.map_cons, List.map_cons, List.sum_cons, List.sum_cons,
          add_right_comm, add_comm (g (f r)) (g r), add_right_comm, add_assoc]
      · rw [List.find?_cons_of_neg hp] at hr
        rw [if_neg hp, List.map_cons, List.map_cons, List.sum_cons, List.sum_cons, add_assoc,
          ih hr, add_assoc]

/-- Reading a table whose absent rows are left out. -/
theorem lookup_filterMap {β : Type} [BEq κ] [LawfulBEq κ] {fields : List (κ × Option β)}
    (hn : (fields.map (·.1)).Nodup) (k : κ) :
    (fields.filterMap (fun p => p.2.map (fun v => (p.1, v)))).lookup k =
      (fields.lookup k).join := by
  induction fields with
  | nil => rfl
  | cons p fields ih =>
      obtain ⟨key, value⟩ := p
      obtain ⟨hp, hrest⟩ := List.nodup_cons.mp hn
      by_cases hk : k = key
      · subst hk
        rw [List.lookup_cons_self]
        cases value with
        | some v => exact List.lookup_cons_self
        | none =>
            have habsent : fields.lookup k = none := by
              rw [List.lookup_eq_none_iff]
              intro q hq
              have hne : k ≠ q.1 := fun h => hp (List.mem_map.mpr ⟨q, hq, h.symm⟩)
              simpa using hne
            rw [List.filterMap_cons_none rfl, ih hrest, habsent]
            rfl
      · have hbeq : (k == key) = false := by simpa using hk
        rw [List.lookup_cons, hbeq]
        cases value with
        | none =>
            rw [List.filterMap_cons_none rfl]
            exact ih hrest
        | some v =>
            show List.lookup k ((key, v) :: fields.filterMap _) = _
            rw [List.lookup_cons, hbeq]
            exact ih hrest

/-! ## Writing over a row -/

section Replacing

variable [DecidableEq α]

theorem find_self {o : α} {l : List α} (h : o ∈ l) : l.find? (fun x => x = o) = some o := by
  cases hfind : l.find? (fun x => x = o) with
  | none =>
      have hno := List.find?_eq_none.mp hfind o h
      simp at hno
  | some x =>
      have hx : x = o := by simpa using List.find?_some hfind
      rw [hx]

theorem mem_replaced {o o' b : α} {l : List α}
    (h : b ∈ updateFirst (fun x => x = o) (fun _ => o') l) : b ∈ l ∨ (b = o' ∧ o ∈ l) := by
  cases hfind : l.find? (fun x => x = o) with
  | none =>
      rw [updateFirst_of_not_mem (fun a ha => by simpa using List.find?_eq_none.mp hfind a ha)] at h
      exact Or.inl h
  | some r =>
      have hr : r = o := by simpa using List.find?_some hfind
      rcases mem_updateFirst hfind h with hb | hb
      · exact Or.inl hb
      · exact Or.inr ⟨hb, hr ▸ List.mem_of_find?_eq_some hfind⟩

theorem replaced_mem {o o' : α} {l : List α} (h : o ∈ l) :
    o' ∈ updateFirst (fun x => x = o) (fun _ => o') l :=
  updateFirst_found (f := fun _ => o') (find_self h)

/-- Other rows stay. -/
theorem replaced_keeps {o o' b : α} {l : List α} (h : b ∈ l) (hb : b ≠ o) :
    b ∈ updateFirst (fun x => x = o) (fun _ => o') l := by
  induction l with
  | nil => cases h
  | cons a t ih =>
      unfold updateFirst
      by_cases ha : a = o
      · rw [if_pos (by simpa using ha)]
        rcases List.mem_cons.mp h with rfl | h
        · exact absurd ha hb
        · exact List.mem_cons_of_mem _ h
      · rw [if_neg (by simpa using ha)]
        rcases List.mem_cons.mp h with rfl | h
        · exact List.mem_cons_self
        · exact List.mem_cons_of_mem _ (ih h)

/-- With a row of the same key, the keys stay. -/
theorem replaced_keys {o o' : α} (key : α → κ) (hkey : key o' = key o) (l : List α) :
    (updateFirst (fun x => x = o) (fun _ => o') l).map key = l.map key := by
  induction l with
  | nil => rfl
  | cons a t ih =>
      unfold updateFirst
      by_cases ha : a = o
      · simp [ha, hkey]
      · simp [ha, ih]

end Replacing

/-! ## Sums by key -/

section Sums

variable {M : Type} [AddCommMonoid M] [DecidableEq κ]

/-- Rows that are left out and contribute nothing do not change a sum. -/
theorem sum_eq_of_subset [DecidableEq α] (f : α → M) {l l' : List α} (hn : l.Nodup)
    (hn' : l'.Nodup) (hsub : ∀ a ∈ l, a ∈ l') (hzero : ∀ a ∈ l', a ∉ l → f a = 0) :
    (l.map f).sum = (l'.map f).sum := by
  rw [← List.sum_toFinset f hn, ← List.sum_toFinset f hn']
  refine Finset.sum_subset ?_ ?_
  · intro a ha
    exact List.mem_toFinset.mpr (hsub a (List.mem_toFinset.mp ha))
  · intro a ha hout
    exact hzero a (List.mem_toFinset.mp ha) (fun hl => hout (List.mem_toFinset.mpr hl))

end Sums

end TradingFleet.Keyed
