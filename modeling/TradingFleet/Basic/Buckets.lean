import Mathlib.Data.List.Infix
import Mathlib.Data.List.Nodup

set_option autoImplicit false

/-! # Rows by key

A dictionary of lists, in the order in which its keys came (`Buckets`), and the flat list of its
rows. Grouping a flat list keeps, for each key, the order of its rows (`rowsOf_group`), and says
nothing about the order of the keys: two dictionaries are compared key by key.
-/

namespace TradingFleet.Buckets

variable {κ α : Type} [DecidableEq κ]

/-! ## Dictionaries -/

section Dictionaries

variable {β : Type}

/-- `d[k] = v`: in the place of `k`, or at the end. -/
def insert (d : List (κ × β)) (k : κ) (v : β) : List (κ × β) :=
  match d with
  | [] => [(k, v)]
  | p :: d => if p.1 = k then (p.1, v) :: d else p :: insert d k v

theorem lookup_cons_ne {κ : Type} [BEq κ] [LawfulBEq κ] {k : κ} {p : κ × β} (h : k ≠ p.1)
    (d : List (κ × β)) : (p :: d).lookup k = d.lookup k := by
  have hbeq : (k == p.1) = false := by simpa using h
  rw [List.lookup_cons, hbeq]

theorem lookup_insert (d : List (κ × β)) (k : κ) (v : β) (k' : κ) :
    (insert d k v).lookup k' = if k' = k then some v else d.lookup k' := by
  induction d with
  | nil =>
      unfold insert
      by_cases h : k' = k
      · rw [if_pos h, h, List.lookup_cons_self]
      · rw [if_neg h, lookup_cons_ne h]
  | cons p d ih =>
      unfold insert
      by_cases hp : p.1 = k
      · rw [if_pos hp]
        by_cases h : k' = k
        · rw [if_pos h, h, ← hp, List.lookup_cons_self]
        · rw [if_neg h, lookup_cons_ne (by rw [hp]; exact h), lookup_cons_ne (by rw [hp]; exact h)]
      · rw [if_neg hp]
        by_cases h : k' = p.1
        · subst h
          rw [if_neg hp, List.lookup_cons, List.lookup_cons, BEq.rfl]
        · rw [lookup_cons_ne h, lookup_cons_ne h, ih]

theorem keys_insert (d : List (κ × β)) (k : κ) (v : β) :
    (insert d k v).map Prod.fst = d.map Prod.fst ∨
      k ∉ d.map Prod.fst ∧ (insert d k v).map Prod.fst = d.map Prod.fst ++ [k] := by
  induction d with
  | nil => exact .inr ⟨by simp, rfl⟩
  | cons p d ih =>
      unfold insert
      by_cases hp : p.1 = k
      · rw [if_pos hp]
        exact .inl rfl
      · rw [if_neg hp]
        rcases ih with h | ⟨hk, h⟩
        · exact .inl (by rw [List.map_cons, List.map_cons, h])
        · refine .inr ⟨?_, ?_⟩
          · rw [List.map_cons, List.mem_cons, not_or]
            exact ⟨Ne.symm hp, hk⟩
          · rw [List.map_cons, List.map_cons, h, List.cons_append]

/-- Keys stay distinct. -/
theorem nodup_insert {d : List (κ × β)} (h : (d.map Prod.fst).Nodup) (k : κ) (v : β) :
    ((insert d k v).map Prod.fst).Nodup := by
  rcases keys_insert d k v with hkeys | ⟨hk, hkeys⟩
  · rw [hkeys]
    exact h
  · rw [hkeys, List.nodup_append]
    refine ⟨h, List.nodup_singleton k, ?_⟩
    intro a ha b hb hab
    rw [List.mem_singleton] at hb
    exact hk (hb ▸ hab ▸ ha)

theorem forall_keys_insert {p : κ → Prop} {d : List (κ × β)} {k : κ} (h : ∀ e ∈ d, p e.1)
    (hk : p k) (v : β) : ∀ e ∈ insert d k v, p e.1 := by
  intro e he
  have hmem : e.1 ∈ (insert d k v).map Prod.fst := List.mem_map.mpr ⟨e, he, rfl⟩
  have hold : e.1 ∈ d.map Prod.fst → p e.1 := by
    intro hkey
    obtain ⟨e', he', heq⟩ := List.mem_map.mp hkey
    rw [← heq]
    exact h e' he'
  rcases keys_insert d k v with hkeys | ⟨-, hkeys⟩
  · rw [hkeys] at hmem
    exact hold hmem
  · rw [hkeys, List.mem_append, List.mem_singleton] at hmem
    rcases hmem with hmem | hmem
    · exact hold hmem
    · rw [hmem]
      exact hk

/-- Keys stay distinct over many assignments. -/
theorem nodup_foldl_insert {ι : Type} {d : List (κ × β)} (h : (d.map Prod.fst).Nodup)
    (key : ι → κ) (value : List (κ × β) → ι → β) (l : List ι) :
    ((l.foldl (fun d i => insert d (key i) (value d i)) d).map Prod.fst).Nodup := by
  induction l generalizing d with
  | nil => exact h
  | cons i l ih => exact ih (nodup_insert h _ _)

/-- `d == d'`: the same keys with the same values. -/
def sameMap [DecidableEq β] (d d' : List (κ × β)) : Bool :=
  d.all (fun p => d'.lookup p.1 = d.lookup p.1) && d'.all (fun p => d.lookup p.1 = d'.lookup p.1)

theorem lookup_isSome_iff {d : List (κ × β)} {k : κ} :
    (d.lookup k).isSome = true ↔ ∃ v, (k, v) ∈ d := by
  induction d with
  | nil => simp
  | cons p d ih =>
      by_cases h : k = p.1
      · subst h
        rw [List.lookup_cons, BEq.rfl]
        exact ⟨fun _ => ⟨p.2, List.mem_cons_self⟩, fun _ => rfl⟩
      · rw [lookup_cons_ne h, ih]
        constructor
        · rintro ⟨v, hv⟩
          exact ⟨v, List.mem_cons_of_mem _ hv⟩
        · rintro ⟨v, hv⟩
          rcases List.mem_cons.mp hv with rfl | hv
          · exact absurd rfl h
          · exact ⟨v, hv⟩

theorem lookup_eq_of_all [DecidableEq β] {d d' : List (κ × β)}
    (h : d.all (fun p => d'.lookup p.1 = d.lookup p.1) = true) {k : κ}
    (hk : (d.lookup k).isSome = true) : d'.lookup k = d.lookup k := by
  obtain ⟨v, hv⟩ := lookup_isSome_iff.mp hk
  rw [List.all_eq_true] at h
  exact of_decide_eq_true (h (k, v) hv)

theorem sameMap_iff [DecidableEq β] {d d' : List (κ × β)} :
    sameMap d d' = true ↔ ∀ k, d.lookup k = d'.lookup k := by
  unfold sameMap
  rw [Bool.and_eq_true]
  constructor
  · rintro ⟨h, h'⟩ k
    by_cases hk : (d.lookup k).isSome = true
    · exact (lookup_eq_of_all h hk).symm
    · by_cases hk' : (d'.lookup k).isSome = true
      · exact lookup_eq_of_all h' hk'
      · rw [Option.not_isSome_iff_eq_none] at hk hk'
        rw [hk, hk']
  · intro h
    constructor
    · rw [List.all_eq_true]
      exact fun p _ => decide_eq_true (h p.1).symm
    · rw [List.all_eq_true]
      exact fun p _ => decide_eq_true (h p.1)

end Dictionaries

/-! ## Rows by key -/

/-- `d.get(k, [])`. -/
def rowsOf (b : List (κ × List α)) (k : κ) : List α := (b.lookup k).getD []

/-- `d.setdefault(k, []).append(a)`. -/
def addRow (b : List (κ × List α)) (k : κ) (a : α) : List (κ × List α) :=
  insert b k (rowsOf b k ++ [a])

def addRows (b : List (κ × List α)) (rows : List (κ × α)) : List (κ × List α) :=
  rows.foldl (fun b r => addRow b r.1 r.2) b

/-- The dictionary of a flat list of rows. -/
def group (rows : List (κ × α)) : List (κ × List α) := addRows [] rows

/-- The rows of one key. -/
def only (k : κ) (rows : List (κ × α)) : List α := (rows.filter (fun r => r.1 = k)).map Prod.snd

omit [DecidableEq κ] in
/-- The rows of a dictionary, key after key. -/
def flat (b : List (κ × List α)) : List (κ × α) := b.flatMap (fun p => p.2.map (fun a => (p.1, a)))

omit [DecidableEq κ] in
/-- `{k: len(v) for k, v in d.items()}`. -/
def counts (b : List (κ × List α)) : List (κ × Nat) := b.map (fun p => (p.1, p.2.length))

theorem rowsOf_insert (b : List (κ × List α)) (k : κ) (l : List α) (k' : κ) :
    rowsOf (insert b k l) k' = if k' = k then l else rowsOf b k' := by
  unfold rowsOf
  rw [lookup_insert]
  by_cases h : k' = k
  · rw [if_pos h, if_pos h, Option.getD_some]
  · rw [if_neg h, if_neg h]

theorem only_append (k : κ) (rows rows' : List (κ × α)) :
    only k (rows ++ rows') = only k rows ++ only k rows' := by
  unfold only
  rw [List.filter_append, List.map_append]

theorem only_cons (k : κ) (r : κ × α) (rows : List (κ × α)) :
    only k (r :: rows) = if r.1 = k then r.2 :: only k rows else only k rows := by
  unfold only
  rw [List.filter_cons]
  by_cases h : r.1 = k
  · simp [h]
  · simp [h]

/-- Each key gets its rows, after those it had. -/
theorem rowsOf_addRows (b : List (κ × List α)) (rows : List (κ × α)) (k : κ) :
    rowsOf (addRows b rows) k = rowsOf b k ++ only k rows := by
  induction rows generalizing b with
  | nil => exact (List.append_nil _).symm
  | cons r rows ih =>
      show rowsOf (addRows (addRow b r.1 r.2) rows) k = _
      rw [ih, addRow, rowsOf_insert, only_cons]
      by_cases h : k = r.1
      · subst h
        simp
      · rw [if_neg h, if_neg (Ne.symm h)]

/-- **Grouping keeps, for each key, its rows in their order.** -/
theorem rowsOf_group (rows : List (κ × α)) (k : κ) : rowsOf (group rows) k = only k rows :=
  rowsOf_addRows [] rows k

theorem forall_keys_addRows {p : κ → Prop} {b : List (κ × List α)} {rows : List (κ × α)}
    (h : ∀ e ∈ b, p e.1) (hrows : ∀ r ∈ rows, p r.1) : ∀ e ∈ addRows b rows, p e.1 := by
  induction rows generalizing b with
  | nil => exact h
  | cons r rows ih =>
      exact ih (forall_keys_insert h (hrows r List.mem_cons_self) _)
        (fun r hr => hrows r (List.mem_cons_of_mem _ hr))

theorem nodup_addRows {b : List (κ × List α)} (h : (b.map Prod.fst).Nodup) (rows : List (κ × α)) :
    ((addRows b rows).map Prod.fst).Nodup := by
  induction rows generalizing b with
  | nil => exact h
  | cons r rows ih => exact ih (nodup_insert h r.1 _)

/-- The rows of a key in the flat list. -/
theorem only_flat {b : List (κ × List α)} (h : (b.map Prod.fst).Nodup) (k : κ) :
    only k (flat b) = rowsOf b k := by
  have hown : ∀ (k' : κ) (l : List α),
      only k (l.map (fun a => (k', a))) = if k' = k then l else [] := by
    intro k' l
    induction l with
    | nil => simp [only]
    | cons a l ih =>
        rw [List.map_cons, only_cons, ih]
        by_cases hk : k' = k
        · simp [hk]
        · simp [hk]
  induction b with
  | nil => rfl
  | cons p b ih =>
      rw [List.map_cons, List.nodup_cons] at h
      show only k (p.2.map (fun a => (p.1, a)) ++ flat b) = _
      rw [only_append, hown, ih h.2]
      unfold rowsOf
      rw [List.lookup_cons]
      by_cases hk : p.1 = k
      · subst hk
        -- the key does not come again
        have hnone : b.lookup p.1 = none := by
          by_contra hsome
          obtain ⟨v, hv⟩ := lookup_isSome_iff.mp (Option.isSome_iff_ne_none.mpr hsome)
          exact h.1 (List.mem_map.mpr ⟨(p.1, v), hv, rfl⟩)
        simp [hnone]
      · have hbeq : (k == p.1) = false := by simpa using Ne.symm hk
        simp [hk, hbeq]

theorem mem_only {k : κ} {a : α} {rows : List (κ × α)} : a ∈ only k rows ↔ (k, a) ∈ rows := by
  unfold only
  rw [List.mem_map]
  constructor
  · rintro ⟨r, hr, rfl⟩
    rw [List.mem_filter, decide_eq_true_eq] at hr
    obtain ⟨hmem, rfl⟩ := hr
    exact hmem
  · intro h
    exact ⟨(k, a), List.mem_filter.mpr ⟨h, by simp⟩, rfl⟩

omit [DecidableEq κ] in
theorem mem_flat {r : κ × α} {b : List (κ × List α)} :
    r ∈ flat b ↔ ∃ p ∈ b, p.1 = r.1 ∧ r.2 ∈ p.2 := by
  unfold flat
  rw [List.mem_flatMap]
  constructor
  · rintro ⟨p, hp, hr⟩
    obtain ⟨a, ha, rfl⟩ := List.mem_map.mp hr
    exact ⟨p, hp, rfl, ha⟩
  · rintro ⟨p, hp, hkey, hr⟩
    exact ⟨p, hp, List.mem_map.mpr ⟨r.2, hr, by rw [hkey]⟩⟩

theorem lookup_none_of_not_mem {β : Type} {d : List (κ × β)} {k : κ} (h : k ∉ d.map Prod.fst) :
    d.lookup k = none := by
  by_contra hsome
  obtain ⟨v, hv⟩ := lookup_isSome_iff.mp (Option.isSome_iff_ne_none.mpr hsome)
  exact h (List.mem_map.mpr ⟨(k, v), hv, rfl⟩)

/-- A change of each bucket that keeps empty lists empty. -/
theorem rowsOf_map {f : κ → List α → List α} (hf : ∀ k, f k [] = []) (b : List (κ × List α))
    (k : κ) : rowsOf (b.map (fun p => (p.1, f p.1 p.2))) k = f k (rowsOf b k) := by
  induction b with
  | nil => exact (hf k).symm
  | cons p b ih =>
      unfold rowsOf at *
      rw [List.map_cons]
      by_cases hk : k = p.1
      · subst hk
        rw [List.lookup_cons_self, List.lookup_cons_self, Option.getD_some, Option.getD_some]
      · rw [lookup_cons_ne (p := (p.1, f p.1 p.2)) hk, lookup_cons_ne hk, ih]

omit [DecidableEq κ] in
theorem keys_map (f : κ → List α → List α) (b : List (κ × List α)) :
    (b.map (fun p => (p.1, f p.1 p.2))).map Prod.fst = b.map Prod.fst := by
  rw [List.map_map]
  rfl

theorem mem_of_rowsOf_ne {b : List (κ × List α)} {k : κ} (h : rowsOf b k ≠ []) :
    (k, rowsOf b k) ∈ b := by
  unfold rowsOf at *
  induction b with
  | nil => exact absurd rfl h
  | cons p b ih =>
      by_cases hk : k = p.1
      · subst hk
        rw [List.lookup_cons_self, Option.getD_some]
        exact List.mem_cons_self
      · rw [lookup_cons_ne hk] at h ⊢
        exact List.mem_cons_of_mem _ (ih h)

theorem lookup_counts (b : List (κ × List α)) (k : κ) :
    (counts b).lookup k = (b.lookup k).map List.length := by
  induction b with
  | nil => rfl
  | cons p b ih =>
      show List.lookup k ((p.1, p.2.length) :: counts b) = _
      rw [List.lookup_cons, List.lookup_cons, ih]
      by_cases h : k = p.1
      · simp [h]
      · have hbeq : (k == p.1) = false := by simpa using h
        simp [hbeq]

omit [DecidableEq κ] in
theorem keys_counts (b : List (κ × List α)) : (counts b).map Prod.fst = b.map Prod.fst := by
  unfold counts
  rw [List.map_map]
  rfl

/-- What a grouped list has no row of is not in it; what is in it has a row. -/
theorem lookup_group (rows : List (κ × α)) (k : κ) :
    (group rows).lookup k = if only k rows = [] then none else some (only k rows) := by
  have hrows := rowsOf_group rows k
  have hfilled : ∀ (b : List (κ × List α)) (rows : List (κ × α)), (∀ l, b.lookup k = some l → l ≠ []) →
      ∀ l, (addRows b rows).lookup k = some l → l ≠ [] := by
    intro b rows
    induction rows generalizing b with
    | nil => exact fun h => h
    | cons r rows ih =>
        intro h
        refine ih (addRow b r.1 r.2) ?_
        intro l hl
        rw [addRow, lookup_insert] at hl
        by_cases hk : k = r.1
        · rw [if_pos hk, Option.some.injEq] at hl
          rw [← hl]
          simp
        · rw [if_neg hk] at hl
          exact h l hl
  unfold rowsOf at hrows
  cases hl : (group rows).lookup k with
  | none =>
      rw [hl, Option.getD_none] at hrows
      rw [if_pos hrows.symm]
  | some l =>
      have hne := hfilled [] rows (by simp) l hl
      rw [hl, Option.getD_some] at hrows
      rw [← hrows, if_neg hne]

end TradingFleet.Buckets
