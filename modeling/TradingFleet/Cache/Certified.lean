import TradingFleet.Cache.Store

set_option autoImplicit false

/-! # What a manifest certifies

A manifest certifies a list of records (`Certified`), and a file covers them when its committed
part reads as these records (`Covers`). The strict reader accepts a file that covers what is
certified, and nothing else (`snapshot_iff`). What is written behind the committed part does not
matter, and rows written there are read after those before them.
-/

namespace TradingFleet.Cache

open JsonText

/-! ## The committed part of a file -/

/-- The file reads as these records up to the boundary. -/
def Covers (text : Option (List Char)) (size : Nat) (records : List Record) : Prop :=
  readTradeRecordsStrict text 0 size = some records

theorem covers_iff {text : Option (List Char)} {size : Nat} {records : List Record} :
    Covers text size records ↔ ∃ t, text = some t ∧ size ≤ t.length ∧
      Journal.Ended (t.take size) ∧ Journal.decode readRecord (t.take size) = some records := by
  unfold Covers readTradeRecordsStrict
  cases text with
  | none =>
      constructor
      · intro h
        cases h
      · rintro ⟨t, ht, -⟩
        cases ht
  | some t =>
      dsimp only
      rw [List.drop_zero]
      constructor
      · intro h
        split at h
        · cases h
        · rename_i hsize
          split at h
          · cases h
          · rename_i hended
            refine ⟨t, rfl, by omega, ?_, h⟩
            by_cases hnil : t.take size = []
            · exact .inl hnil
            · exact .inr (not_not.mp (fun hlast => hended ⟨hnil, hlast⟩))
      · rintro ⟨t', ht, hsize, hended, hdecode⟩
        rw [Option.some.injEq] at ht
        subst ht
        rw [if_neg (by omega), if_neg, hdecode]
        rintro ⟨hnil, hlast⟩
        rcases hended with h | h
        · exact hnil h
        · exact hlast h

/-- What stands behind the boundary does not matter. -/
theorem covers_take {t : List Char} {size : Nat} {records : List Record}
    (h : Covers (some t) size records) (junk : List Char) :
    Covers (some (t.take size ++ junk)) size records := by
  obtain ⟨t', ht, hsize, hended, hdecode⟩ := covers_iff.mp h
  cases ht
  have htake : (t.take size ++ junk).take size = t.take size := by
    rw [List.take_append_of_le_length (by rw [List.length_take]; omega), List.take_take,
      Nat.min_self]
  refine covers_iff.mpr ⟨_, rfl, ?_, ?_, ?_⟩
  · rw [List.length_append, List.length_take]
    omega
  · rw [htake]
    exact hended
  · rw [htake]
    exact hdecode

theorem decode_rows {rows : List Record} (h : ∀ r ∈ rows, isRow r.1 r.2 = true) :
    Journal.decode readRecord (Journal.encode writeRecord rows) = some rows :=
  Journal.decode_encode (fun r hr => record_written (h r hr))

/-- **Rows that are written behind the boundary are read after those before it.** -/
theorem covers_append {t : List Char} {size : Nat} {records more : List Record}
    (h : Covers (some t) size records) (hmore : ∀ r ∈ more, isRow r.1 r.2 = true) :
    Covers (some (t.take size ++ Journal.encode writeRecord more))
      (size + (Journal.encode writeRecord more).length) (records ++ more) := by
  obtain ⟨t', ht, hsize, hended, hdecode⟩ := covers_iff.mp h
  cases ht
  have hlength : (t.take size ++ Journal.encode writeRecord more).length =
      size + (Journal.encode writeRecord more).length := by
    rw [List.length_append, List.length_take]
    omega
  have htake : (t.take size ++ Journal.encode writeRecord more).take
      (size + (Journal.encode writeRecord more).length) =
      t.take size ++ Journal.encode writeRecord more := by
    rw [← hlength, List.take_length]
  refine covers_iff.mpr ⟨_, rfl, Nat.le_of_eq hlength.symm, ?_, ?_⟩
  · rw [htake]
    by_cases hnil : more = []
    · rw [hnil]
      show Journal.Ended (t.take size ++ [])
      rw [List.append_nil]
      exact hended
    · right
      rw [List.getLast?_append, Journal.getLast?_encode hnil, Option.some_or]
  · rw [htake]
    exact Journal.decode_append hended hdecode (decode_rows hmore)

/-- A file of nothing but rows. -/
theorem covers_encode {records : List Record} (h : ∀ r ∈ records, isRow r.1 r.2 = true) :
    Covers (some (Journal.encode writeRecord records))
      (Journal.encode writeRecord records).length records := by
  refine covers_iff.mpr ⟨_, rfl, Nat.le_refl _, ?_, ?_⟩
  · rw [List.take_length]
    exact Journal.ended_encode records
  · rw [List.take_length]
    exact decode_rows h

/-! ## Certified records -/

/-- The records that a manifest stands for. -/
structure Certified (env : Env) (m : Manifest) (records : List Record) : Prop where
  ok : m.Ok env
  digest : m.contentDigest = Journal.chain writeRecord env.extend env.start records
  distinct : (records.map fillKey).Nodup
  counts : ∀ k, (Buckets.counts (Buckets.group records)).lookup k =
    (nonzeroCounts m.counts).lookup k
  keys : (m.counts.map Prod.fst).Nodup
  symbols : ∀ r ∈ records, Text.upper r.1 = r.1

variable {env : Env} {m : Manifest} {records : List Record}

theorem tradeRecordsDigest_empty (env : Env) (records : List Record) :
    tradeRecordsDigest env records "" =
      some (Journal.chain writeRecord env.extend env.start records) := if_pos rfl

/-- **The strict reader accepts the files that cover what is certified, and reads them as
that.** -/
theorem snapshot_iff (henv : env.Sound) (h : Certified env m records) {text : Option (List Char)}
    {snapshot : Rows × List (String × Nat)} :
    readTradeSnapshotStrict env m text = some snapshot ↔
      Covers text m.committedBytes records ∧ snapshot = (Buckets.group records, m.counts) := by
  have hsame : Buckets.sameMap (Buckets.counts (Buckets.group records)) (nonzeroCounts m.counts) =
      true := Buckets.sameMap_iff.mpr h.counts
  unfold readTradeSnapshotStrict
  rw [Option.bind_eq_bind, Option.bind_eq_some_iff]
  constructor
  · rintro ⟨records', hread, hsnapshot⟩
    rw [tradeRecordsDigest_empty, h.digest] at hsnapshot
    by_cases hdigest : Journal.chain writeRecord env.extend env.start records' =
        Journal.chain writeRecord env.extend env.start records
    · have hrecords := henv.collisionless _ _ hdigest
      subst hrecords
      rw [if_neg (by simp), if_neg (not_not.mpr h.distinct), if_pos hsame,
        Option.some.injEq] at hsnapshot
      exact ⟨hread, hsnapshot.symm⟩
    · rw [if_pos (by simpa using hdigest)] at hsnapshot
      cases hsnapshot
  · rintro ⟨hread, rfl⟩
    refine ⟨records, hread, ?_⟩
    rw [tradeRecordsDigest_empty, h.digest, if_neg (by simp), if_neg (not_not.mpr h.distinct),
      if_pos hsame]

/-- A manifest certifies one list of records. -/
theorem Certified.unique (henv : env.Sound) (h : Certified env m records) {records' : List Record}
    (h' : Certified env m records') : records' = records :=
  henv.collisionless _ _ (h'.digest.symm.trans h.digest)

/-! ## Distinct fills -/

/-- Fills are distinct when those of each symbol are, and no symbol is written in two ways. -/
theorem nodup_fillKey {rows : List Record} (hupper : ∀ r ∈ rows, Text.upper r.1 = r.1)
    (h : ∀ k, DistinctIds (Buckets.only k rows)) : (rows.map fillKey).Nodup := by
  induction rows with
  | nil => exact List.nodup_nil
  | cons r rows ih =>
      have hrest : ∀ k, DistinctIds (Buckets.only k rows) := by
        intro k
        have hk := h k
        unfold DistinctIds at hk ⊢
        rw [Buckets.only_cons] at hk
        split at hk
        · rw [List.map_cons, List.nodup_cons] at hk
          exact hk.2
        · exact hk
      rw [List.map_cons, List.nodup_cons]
      refine ⟨?_, ih (fun r hr => hupper r (List.mem_cons_of_mem _ hr)) hrest⟩
      intro hmem
      obtain ⟨r', hr', heq⟩ := List.mem_map.mp hmem
      unfold fillKey at heq
      rw [hupper r' (List.mem_cons_of_mem _ hr'), hupper r List.mem_cons_self,
        Prod.mk.injEq] at heq
      have hown := h r.1
      unfold DistinctIds at hown
      rw [Buckets.only_cons, if_pos rfl, List.map_cons, List.nodup_cons] at hown
      refine hown.1 (List.mem_map.mpr ⟨r'.2, Buckets.mem_only.mpr ?_, heq.2⟩)
      rw [← heq.1]
      exact hr'

/-- Fills of one symbol among distinct fills. -/
theorem distinct_only {rows : List Record} (h : (rows.map fillKey).Nodup) (k : String) :
    DistinctIds (Buckets.only k rows) := by
  induction rows with
  | nil => exact List.nodup_nil
  | cons r rows ih =>
      rw [List.map_cons, List.nodup_cons] at h
      have hrest := ih h.2
      unfold DistinctIds at hrest ⊢
      rw [Buckets.only_cons]
      split
      · rename_i hk
        rw [List.map_cons, List.nodup_cons]
        refine ⟨?_, hrest⟩
        intro hmem
        obtain ⟨item, hitem, heq⟩ := List.mem_map.mp hmem
        refine h.1 (List.mem_map.mpr ⟨(k, item), Buckets.mem_only.mp hitem, ?_⟩)
        unfold fillKey
        rw [← hk, heq]
      · exact hrest

/-- The rows of a symbol with no rows are not counted. -/
theorem lookup_nonzeroCounts {counts : List (String × Nat)} (h : (counts.map Prod.fst).Nodup)
    (k : String) : (nonzeroCounts counts).lookup k =
      if countAt counts k = 0 then none else some (countAt counts k) := by
  induction counts with
  | nil => rfl
  | cons p counts ih =>
      rw [List.map_cons, List.nodup_cons] at h
      have hrest := ih h.2
      unfold nonzeroCounts countAt at *
      rw [List.filter_cons]
      by_cases hk : k = p.1
      · subst hk
        have hnone : counts.lookup p.1 = none := by
          by_contra hsome
          obtain ⟨v, hv⟩ := Buckets.lookup_isSome_iff.mp (Option.isSome_iff_ne_none.mpr hsome)
          exact h.1 (List.mem_map.mpr ⟨(p.1, v), hv, rfl⟩)
        rw [List.lookup_cons_self, Option.getD_some]
        by_cases hzero : p.2 = 0
        · rw [if_neg (by simpa using hzero), if_pos hzero, hrest, hnone]
          rfl
        · rw [if_pos (by simpa using hzero), if_neg hzero, List.lookup_cons_self]
      · rw [Buckets.lookup_cons_ne hk]
        split
        · rw [Buckets.lookup_cons_ne hk, hrest]
        · exact hrest

/-- **A manifest counts the rows right when it counts those of each symbol right.** -/
theorem counts_agree {counts : List (String × Nat)} (hkeys : (counts.map Prod.fst).Nodup)
    (h : ∀ k, countAt counts k = (Buckets.only k records).length) (k : String) :
    (Buckets.counts (Buckets.group records)).lookup k = (nonzeroCounts counts).lookup k := by
  rw [Buckets.lookup_counts, Buckets.lookup_group, lookup_nonzeroCounts hkeys, h]
  by_cases hnil : Buckets.only k records = []
  · rw [if_pos hnil, if_pos (by rw [hnil]; rfl)]
    rfl
  · rw [if_neg hnil, if_neg (by simpa using hnil)]
    rfl

theorem countAt_certified (h : Certified env m records) (k : String) :
    countAt m.counts k = (Buckets.only k records).length := by
  have hcounts := h.counts k
  rw [Buckets.lookup_counts, Buckets.lookup_group, lookup_nonzeroCounts h.keys] at hcounts
  by_cases hnil : Buckets.only k records = []
  · rw [if_pos hnil] at hcounts
    by_contra hne
    have hzero : countAt m.counts k ≠ 0 := by
      intro hzero
      rw [hnil, hzero] at hne
      exact hne rfl
    rw [if_neg hzero] at hcounts
    cases hcounts
  · rw [if_neg hnil] at hcounts
    by_cases hzero : countAt m.counts k = 0
    · rw [if_pos hzero] at hcounts
      cases hcounts
    · rw [if_neg hzero] at hcounts
      exact (Option.some.inj hcounts).symm

end TradingFleet.Cache
