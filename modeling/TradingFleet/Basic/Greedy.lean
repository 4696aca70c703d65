import Mathlib.Data.List.Sort
import Mathlib.Data.List.Perm.Basic
import TradingFleet.Basic.Keyed

set_option autoImplicit false

/-! # Greedy thinning of a list

A list holds marked rows, and two marked rows may clash. The thinning goes through the rows
by falling rank, ties in their order, and drops each marked row that clashes with a marked
row kept before it. The clash relation is symmetric; it need not be transitive, so the
rows kept depend on the order of the scan.

The scan is a fold over the rows with their positions, as a program does it that collects
positions first and rewrites the list afterwards (`step`, `removedPositions`). `Scan` is what
the fold has established about the rows it has seen, and the results about `kept` and
`removed` are read off it.
-/

namespace TradingFleet.Greedy

open TradingFleet.Keyed

variable {α κ : Type} [LinearOrder κ] (marked : α → Bool) (clash : α → α → Bool) (rank : α → κ)

/-! ## The scan -/

/-- One row of the scan: the marked rows kept and the positions dropped so far. -/
def step (acc : List α × List Nat) (p : α × Nat) : List α × List Nat :=
  if marked p.1 then
    if acc.1.any (fun newer => clash p.1 newer) then (acc.1, p.2 :: acc.2)
    else (acc.1 ++ [p.1], acc.2)
  else acc

/-- The rows with their positions, highest rank first. -/
def byRank (l : List α) : List (α × Nat) :=
  l.zipIdx.insertionSort (fun p p' => rank p'.1 ≤ rank p.1)

def removedPositions (l : List α) : List Nat :=
  ((byRank rank l).foldl (step marked clash) ([], [])).2

/-- The rows the scan drops, in its order. -/
def removed (l : List α) : List α :=
  ((byRank rank l).filter (fun p => (removedPositions marked clash rank l).contains p.2)).map
    (·.1)

/-- The rows it keeps, in theirs. -/
def kept (l : List α) : List α :=
  (l.zipIdx.filter (fun p => !(removedPositions marked clash rank l).contains p.2)).map (·.1)

/-! ## What the scan establishes -/

/-- The state `acc` of the scan after the rows `done`. -/
structure Scan (done : List (α × Nat)) (acc : List α × List Nat) : Prop where
  /-- The rows kept are the marked ones at positions not dropped. -/
  chosen : acc.1 = (done.filter (fun p => marked p.1 && !acc.2.contains p.2)).map (·.1)
  /-- No kept row clashes with one kept before it. -/
  apart : acc.1.Pairwise (fun a b => clash b a = false)
  /-- A dropped row is marked and clashes with a kept one of at least its rank. -/
  reason : ∀ i ∈ acc.2, ∃ a, (a, i) ∈ done ∧ marked a = true ∧
    ∃ p ∈ done, marked p.1 = true ∧ p.2 ∉ acc.2 ∧ clash a p.1 = true ∧ rank a ≤ rank p.1

variable {marked clash rank}

theorem Scan.nil : Scan marked clash rank [] ([], []) where
  chosen := rfl
  apart := List.Pairwise.nil
  reason := by
    intro i hi
    cases hi

/-- A position not scanned yet is not dropped. -/
theorem Scan.fresh {done : List (α × Nat)} {acc : List α × List Nat} {p : α × Nat}
    (hs : Scan marked clash rank done acc) (hp : ∀ q ∈ done, q.2 ≠ p.2) : p.2 ∉ acc.2 := by
  intro hi
  obtain ⟨a, ha, -⟩ := hs.reason p.2 hi
  exact hp (a, p.2) ha rfl

/-- **One row of the scan keeps what it has established**, for rows in falling rank at
distinct positions. -/
theorem Scan.step {done : List (α × Nat)} {acc : List α × List Nat} {p : α × Nat}
    (hs : Scan marked clash rank done acc) (hp : ∀ q ∈ done, q.2 ≠ p.2)
    (hr : ∀ q ∈ done, rank p.1 ≤ rank q.1) :
    Scan marked clash rank (done ++ [p]) (step marked clash acc p) := by
  have hfresh := hs.fresh hp
  have hreason : ∀ i ∈ acc.2, ∃ a, (a, i) ∈ done ++ [p] ∧ marked a = true ∧
      ∃ q ∈ done ++ [p], marked q.1 = true ∧ q.2 ∉ acc.2 ∧ clash a q.1 = true ∧
        rank a ≤ rank q.1 := by
    intro i hi
    obtain ⟨a, ha, hm, q, hq, h⟩ := hs.reason i hi
    exact ⟨a, List.mem_append_left _ ha, hm, q, List.mem_append_left _ hq, h⟩
  unfold Greedy.step
  by_cases hm : marked p.1 = true
  · rw [if_pos hm]
    by_cases hc : acc.1.any (fun newer => clash p.1 newer) = true
    · -- the row clashes with a kept one and is dropped
      rw [if_pos hc]
      obtain ⟨k, hk, hck⟩ := List.any_eq_true.mp hc
      have hsame : done.filter (fun q => marked q.1 && !acc.2.contains q.2) =
          done.filter (fun q => marked q.1 && !(p.2 :: acc.2).contains q.2) := by
        refine List.filter_congr (fun q hq => ?_)
        have hne : (q.2 == p.2) = false := by simpa using hp q hq
        rw [List.contains_cons, hne, Bool.false_or]
      refine ⟨?_, hs.apart, ?_⟩
      · rw [List.filter_append, List.map_append, ← hsame, ← hs.chosen]
        simp
      · have hkept : ∀ q ∈ done, q.2 ∉ acc.2 → q.2 ∉ p.2 :: acc.2 := by
          intro q hq hn hin
          rcases List.mem_cons.mp hin with h | h
          · exact hp q hq h
          · exact hn h
        intro i hi
        rcases List.mem_cons.mp hi with rfl | hi
        · rw [hs.chosen] at hk
          obtain ⟨q, hq, rfl⟩ := List.mem_map.mp hk
          obtain ⟨hqd, hqm⟩ := List.mem_filter.mp hq
          simp only [Bool.and_eq_true, Bool.not_eq_true', List.contains_eq_mem,
            decide_eq_false_iff_not] at hqm
          exact ⟨p.1, by simp, hm, q, List.mem_append_left _ hqd, hqm.1,
            hkept q hqd hqm.2, hck, hr q hqd⟩
        · obtain ⟨a, ha, hma, q, hq, hqm, hqn, hqc⟩ := hs.reason i hi
          exact ⟨a, List.mem_append_left _ ha, hma, q, List.mem_append_left _ hq, hqm,
            hkept q hq hqn, hqc⟩
    · -- the row is kept
      rw [if_neg hc]
      refine ⟨?_, ?_, hreason⟩
      · have hlast : (marked p.1 && !acc.2.contains p.2) = true := by simp [hm, hfresh]
        have hone : [p].filter (fun p => marked p.1 && !acc.2.contains p.2) = [p] :=
          List.filter_cons_of_pos hlast
        rw [List.filter_append, List.map_append, ← hs.chosen, hone]
        rfl
      · rw [List.pairwise_append]
        refine ⟨hs.apart, List.pairwise_singleton _ _, ?_⟩
        intro a ha b hb
        rw [List.mem_singleton.mp hb]
        have hno := List.any_eq_false.mp (Bool.eq_false_iff.mpr hc) a ha
        exact Bool.eq_false_iff.mpr hno
  · -- an unmarked row is passed over
    rw [if_neg hm]
    refine ⟨?_, hs.apart, hreason⟩
    have hlast : ¬ (marked p.1 && !acc.2.contains p.2) = true := by simp [hm]
    have hnone : [p].filter (fun p => marked p.1 && !acc.2.contains p.2) = [] :=
      List.filter_cons_of_neg hlast
    rw [List.filter_append, List.map_append, ← hs.chosen, hnone, List.map_nil, List.append_nil]

/-- The whole scan. -/
theorem Scan.run {order : List (α × Nat)}
    (hpos : order.Pairwise (fun q p => q.2 ≠ p.2))
    (hrank : order.Pairwise (fun q p => rank p.1 ≤ rank q.1)) :
    Scan marked clash rank order (order.foldl (Greedy.step marked clash) ([], [])) := by
  induction order using List.reverseRecOn with
  | nil => exact Scan.nil
  | append_singleton done p ih =>
      rw [List.pairwise_append] at hpos hrank
      rw [List.foldl_concat]
      exact (ih hpos.1 hrank.1).step (fun q hq => hpos.2.2 q hq p (by simp))
        (fun q hq => hrank.2.2 q hq p (by simp))

theorem byRank_perm (l : List α) : (byRank rank l).Perm l.zipIdx :=
  List.perm_insertionSort _ _

theorem mem_byRank {l : List α} {p : α × Nat} : p ∈ byRank rank l ↔ p ∈ l.zipIdx :=
  (byRank_perm l).mem_iff

theorem byRank_sorted (l : List α) :
    (byRank rank l).Pairwise (fun q p => rank p.1 ≤ rank q.1) := by
  have htotal : Std.Total (fun p p' : α × Nat => rank p'.1 ≤ rank p.1) :=
    ⟨fun p p' => le_total (rank p'.1) (rank p.1)⟩
  have htrans : IsTrans (α × Nat) (fun p p' => rank p'.1 ≤ rank p.1) :=
    ⟨fun _ _ _ h h' => le_trans h' h⟩
  exact List.pairwise_insertionSort _ _

/-- The positions of a list are distinct. -/
theorem zipIdx_positions (l : List α) : l.zipIdx.Pairwise (fun q p => q.2 ≠ p.2) := by
  have h : (l.zipIdx.map (·.2)).Nodup := by
    rw [List.zipIdx_map_snd]
    exact List.nodup_range'
  exact List.pairwise_map.mp h

theorem scan (l : List α) :
    Scan marked clash rank (byRank rank l)
      ((byRank rank l).foldl (Greedy.step marked clash) ([], [])) :=
  Scan.run
    ((byRank_perm l).symm.pairwise (zipIdx_positions l) (fun h h' => h h'.symm))
    (byRank_sorted l)

/-! ## The rows kept and removed -/

theorem mem_removed {l : List α} {a : α} :
    a ∈ removed marked clash rank l ↔
      ∃ i, (a, i) ∈ l.zipIdx ∧ i ∈ removedPositions marked clash rank l := by
  unfold removed
  constructor
  · intro h
    obtain ⟨⟨b, i⟩, hp, rfl⟩ := List.mem_map.mp h
    obtain ⟨hin, hi⟩ := List.mem_filter.mp hp
    exact ⟨i, mem_byRank.mp hin, by simpa using hi⟩
  · rintro ⟨i, hin, hi⟩
    exact List.mem_map.mpr
      ⟨(a, i), List.mem_filter.mpr ⟨mem_byRank.mpr hin, by simpa using hi⟩, rfl⟩

theorem mem_kept {l : List α} {a : α} {i : Nat} (h : (a, i) ∈ l.zipIdx)
    (hi : i ∉ removedPositions marked clash rank l) : a ∈ kept marked clash rank l :=
  List.mem_map.mpr ⟨(a, i), List.mem_filter.mpr ⟨h, by simpa using hi⟩, rfl⟩

/-- A dropped position holds a marked row and a clashing marked row is kept elsewhere. -/
theorem removedPositions_reason {l : List α} {i : Nat}
    (hi : i ∈ removedPositions marked clash rank l) :
    ∃ a, (a, i) ∈ l.zipIdx ∧ marked a = true ∧
      ∃ k j, (k, j) ∈ l.zipIdx ∧ j ∉ removedPositions marked clash rank l ∧
        marked k = true ∧ clash a k = true ∧ rank a ≤ rank k := by
  obtain ⟨a, ha, hm, ⟨k, j⟩, hk, hkm, hkn, hc, hr⟩ := (scan l).reason i hi
  exact ⟨a, mem_byRank.mp ha, hm, k, j, mem_byRank.mp hk, hkn, hkm, hc, hr⟩

/-- Nothing is lost and nothing is made up. -/
theorem removed_append_kept_perm (l : List α) :
    (removed marked clash rank l ++ kept marked clash rank l).Perm l := by
  have hsplit := List.filter_append_perm
    (fun p : α × Nat => (removedPositions marked clash rank l).contains p.2) l.zipIdx
  have horder : (byRank rank l).Perm l.zipIdx := byRank_perm l
  have hremoved := horder.filter (fun p => (removedPositions marked clash rank l).contains p.2)
  have h := ((hremoved.append_right _).trans hsplit).map (·.1)
  rw [List.map_append, List.zipIdx_map_fst] at h
  exact h

theorem kept_sublist (l : List α) : (kept marked clash rank l).Sublist l :=
  filter_zipIdx_sublist (fun i => !(removedPositions marked clash rank l).contains i) l

/-- The rows without a mark are kept, in order. -/
theorem kept_unmarked (l : List α) :
    (kept marked clash rank l).filter (fun a => !marked a) = l.filter (fun a => !marked a) := by
  have hkeep : l.zipIdx.filter (fun p => !marked p.1 &&
        !(removedPositions marked clash rank l).contains p.2) =
      l.zipIdx.filter (fun p => !marked p.1) := by
    refine List.filter_congr (fun p hp => ?_)
    by_cases hi : p.2 ∈ removedPositions marked clash rank l
    · obtain ⟨a, ha, hm, -⟩ := removedPositions_reason hi
      rw [← zipIdx_eq_of_idx_eq ha hp, hm]
      rfl
    · simp [hi]
  unfold kept
  rw [List.filter_map, List.filter_filter]
  show (l.zipIdx.filter (fun p => !marked p.1 &&
    !(removedPositions marked clash rank l).contains p.2)).map (·.1) = _
  rw [hkeep]
  calc (l.zipIdx.filter (fun p => !marked p.1)).map (·.1)
      = (l.zipIdx.map (·.1)).filter (fun a => !marked a) := by
        rw [List.filter_map]
        rfl
    _ = l.filter (fun a => !marked a) := by rw [List.zipIdx_map_fst]

/-- A removed row is marked, and a kept marked row of at least its rank clashes with it. -/
theorem removed_reason {l : List α} {a : α} (h : a ∈ removed marked clash rank l) :
    marked a = true ∧
      ∃ k ∈ kept marked clash rank l, marked k = true ∧ clash a k = true ∧
        rank a ≤ rank k := by
  obtain ⟨i, hin, hi⟩ := mem_removed.mp h
  obtain ⟨a', ha', hm, k, j, hk, hj, hkm, hc, hr⟩ := removedPositions_reason hi
  rw [zipIdx_eq_of_idx_eq hin ha']
  exact ⟨hm, k, mem_kept hk hj, hkm, hc, hr⟩

/-- **No two kept marked rows clash.** -/
theorem kept_apart (hsymm : ∀ a b, clash a b = clash b a) (l : List α) :
    ((kept marked clash rank l).filter marked).Pairwise (fun a b => clash a b = false) := by
  have hs := @scan _ _ _ marked clash rank l
  have horder : (byRank rank l).Perm l.zipIdx := byRank_perm l
  have hperm := (horder.filter (fun p => marked p.1 &&
    !(removedPositions marked clash rank l).contains p.2)).map (·.1)
  have hchosen : ((byRank rank l).foldl (Greedy.step marked clash) ([], [])).1.Perm
      ((kept marked clash rank l).filter marked) := by
    rw [hs.chosen]
    refine hperm.trans (List.Perm.of_eq ?_)
    unfold kept
    rw [List.filter_map, List.filter_filter]
    rfl
  refine hchosen.pairwise (hs.apart.imp (fun {a b} h => ?_)) (fun {a b} h => ?_)
  · rw [hsymm a b]
    exact h
  · rw [hsymm b a]
    exact h

/-- A list whose marked rows do not clash is left as it is. -/
theorem removed_of_apart (hsymm : ∀ a b, clash a b = clash b a) {l : List α}
    (h : (l.filter marked).Pairwise (fun a b => clash a b = false)) :
    removed marked clash rank l = [] := by
  have hpos : removedPositions marked clash rank l = [] := by
    rw [List.eq_nil_iff_forall_not_mem]
    intro i hi
    obtain ⟨a, ha, hm, k, j, hk, hj, hkm, hc, -⟩ := removedPositions_reason hi
    have hne : i ≠ j := fun hij => hj (hij ▸ hi)
    rw [List.pairwise_filter, List.pairwise_iff_getElem] at h
    obtain ⟨hia, ra⟩ := List.getElem?_eq_some_iff.mp (List.mem_zipIdx_iff_getElem?.mp ha)
    obtain ⟨hjk, rk⟩ := List.getElem?_eq_some_iff.mp (List.mem_zipIdx_iff_getElem?.mp hk)
    simp only at hia ra hjk rk
    have hfalse : clash a k = false := by
      rcases Nat.lt_or_gt_of_ne hne with hlt | hlt
      · have := h i j hia hjk hlt
        rw [ra, rk] at this
        exact this hm hkm
      · have := h j i hjk hia hlt
        rw [ra, rk] at this
        rw [hsymm a k]
        exact this hkm hm
    rw [hfalse] at hc
    cases hc
  unfold removed
  rw [hpos]
  simp

/-- Thinning twice is thinning once. -/
theorem removed_kept (hsymm : ∀ a b, clash a b = clash b a) (l : List α) :
    removed marked clash rank (kept marked clash rank l) = [] :=
  removed_of_apart hsymm (kept_apart hsymm l)

/-! ## The thinning of an image -/

section Image

variable {β : Type} {marked' : β → Bool} {clash' : β → β → Bool} {rank' : β → κ} {f : α → β}

/-- A map that keeps mark, clash and rank. -/
structure Respects (marked : α → Bool) (clash : α → α → Bool) (rank : α → κ)
    (marked' : β → Bool) (clash' : β → β → Bool) (rank' : β → κ) (f : α → β) : Prop where
  marked_eq : ∀ a, marked' (f a) = marked a
  clash_eq : ∀ a b, clash' (f a) (f b) = clash a b
  rank_eq : ∀ a, rank' (f a) = rank a

variable (hf : Respects marked clash rank marked' clash' rank' f)

include hf

theorem byRank_map (l : List α) :
    byRank rank' (l.map f) = (byRank rank l).map (Prod.map f id) := by
  unfold byRank
  rw [List.zipIdx_map]
  refine (List.map_insertionSort (fun p p' : α × Nat => rank p'.1 ≤ rank p.1)
    (fun p p' : β × Nat => rank' p'.1 ≤ rank' p.1) (Prod.map f id) l.zipIdx ?_).symm
  intro p _ p' _
  show rank p'.1 ≤ rank p.1 ↔ rank' (f p'.1) ≤ rank' (f p.1)
  rw [hf.rank_eq, hf.rank_eq]

omit [LinearOrder κ] in
theorem foldl_step_map (order : List (α × Nat)) (acc : List α × List Nat) :
    (order.map (Prod.map f id)).foldl (step marked' clash') (Prod.map (List.map f) id acc) =
      Prod.map (List.map f) id (order.foldl (step marked clash) acc) := by
  induction order generalizing acc with
  | nil => rfl
  | cons p order ih =>
      have hstep : step marked' clash' (Prod.map (List.map f) id acc) (Prod.map f id p) =
          Prod.map (List.map f) id (step marked clash acc p) := by
        have hany : (acc.1.map f).any (fun newer => clash' (f p.1) newer) =
            acc.1.any (fun newer => clash p.1 newer) := by
          rw [List.any_map]
          exact congrArg (fun g => acc.1.any g) (funext (fun a => hf.clash_eq p.1 a))
        unfold step
        show (if marked' (f p.1) then
            if (acc.1.map f).any (fun newer => clash' (f p.1) newer) then _ else _ else _) = _
        rw [hf.marked_eq, hany]
        split
        · split
          · rfl
          · simp [Prod.map]
        · rfl
      rw [List.map_cons, List.foldl_cons, List.foldl_cons, hstep]
      exact ih _

theorem removedPositions_map (l : List α) :
    removedPositions marked' clash' rank' (l.map f) = removedPositions marked clash rank l := by
  unfold removedPositions
  rw [byRank_map hf]
  exact congrArg Prod.snd (foldl_step_map hf (byRank rank l) ([], []))

theorem removed_map (l : List α) :
    removed marked' clash' rank' (l.map f) = (removed marked clash rank l).map f := by
  unfold removed
  rw [removedPositions_map hf, byRank_map hf, List.filter_map, List.map_map, List.map_map]
  rfl

theorem kept_map (l : List α) :
    kept marked' clash' rank' (l.map f) = (kept marked clash rank l).map f := by
  unfold kept
  rw [removedPositions_map hf, List.zipIdx_map, List.filter_map, List.map_map, List.map_map]
  rfl

end Image

end TradingFleet.Greedy
