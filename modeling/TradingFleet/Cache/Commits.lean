import TradingFleet.Cache.Loads

set_option autoImplicit false

/-! # What a writer certifies

An append goes on from the generation on disk: its manifest stands for the rows that were there and
then the new ones (`certified_append`), which together are the rows in memory. A rewrite begins a
stream of its own, and its manifest stands for the rows in memory as well (`certified_compact`).
-/

namespace TradingFleet.Cache

open JsonText Hoare

variable {env : Env} {m : Manifest} {records : List Record} {d : Disk}

/-! ## What a manager knows -/

/-- Symbols are written one way, in capitals; no bucket and no count comes twice. -/
structure Shape (mgr : Manager) : Prop where
  symbols : ∀ bucket ∈ mgr.cache, Text.upper bucket.1 = bucket.1
  keys : (mgr.cache.map Prod.fst).Nodup
  counts : (mgr.persistedCounts.map Prod.fst).Nodup

/-- The memory holds the records, first in each bucket, and counts them. -/
structure Extends (records : List Record) (mgr : Manager) : Prop where
  counted : ∀ k, countAt mgr.persistedCounts k = (Buckets.only k records).length
  held : ∀ k, Buckets.only k records <+: Buckets.rowsOf mgr.cache k

/-- **The records on disk and those not yet written are the rows in memory.** -/
theorem only_delta {mgr : Manager} (hshape : Shape mgr) (h : Extends records mgr) (k : String) :
    Buckets.only k (records ++ mgr.delta) = Buckets.rowsOf mgr.cache k := by
  have hkeys : ((mgr.cache.map (fun bucket =>
      (bucket.1, bucket.2.drop (countAt mgr.persistedCounts bucket.1)))).map Prod.fst).Nodup := by
    rw [Buckets.keys_map (fun k l => l.drop (countAt mgr.persistedCounts k))]
    exact hshape.keys
  obtain ⟨rest, hrest⟩ := h.held k
  rw [Buckets.only_append, Manager.delta, Buckets.only_flat hkeys,
    Buckets.rowsOf_map (f := fun k l => l.drop (countAt mgr.persistedCounts k)) (fun _ => List.drop_nil),
    h.counted, ← hrest, List.drop_left]

theorem delta_mem {mgr : Manager} {r : Record} (h : r ∈ mgr.delta) :
    ∃ bucket ∈ mgr.cache, bucket.1 = r.1 ∧ r.2 ∈ bucket.2 := by
  obtain ⟨p, hp, hkey, hr⟩ := Buckets.mem_flat.mp h
  obtain ⟨bucket, hbucket, rfl⟩ := List.mem_map.mp hp
  exact ⟨bucket, hbucket, hkey, List.mem_of_mem_drop hr⟩

theorem delta_rows {mgr : Manager} (hvalid : Valid mgr.cache) :
    ∀ r ∈ mgr.delta, isRow r.1 r.2 = true := by
  intro r hr
  obtain ⟨bucket, hbucket, hkey, hmem⟩ := delta_mem hr
  rw [← hkey]
  exact hvalid.rows bucket hbucket r.2 hmem

theorem lookup_candidateCounts {cache : Rows} (hkeys : (cache.map Prod.fst).Nodup)
    (counts : List (String × Nat)) (k : String) :
    countAt (cache.foldl (fun counts bucket =>
      Buckets.insert counts bucket.1 bucket.2.length) counts) k =
      if (cache.lookup k).isSome then (Buckets.rowsOf cache k).length else countAt counts k := by
  induction cache generalizing counts with
  | nil => rfl
  | cons bucket cache ih =>
      rw [List.map_cons, List.nodup_cons] at hkeys
      rw [List.foldl_cons, ih hkeys.2]
      unfold Buckets.rowsOf countAt
      by_cases hk : k = bucket.1
      · subst hk
        rw [Buckets.lookup_none_of_not_mem hkeys.1, List.lookup_cons_self, Buckets.lookup_insert,
          if_pos rfl]
        rfl
      · rw [Buckets.lookup_cons_ne hk, Buckets.lookup_insert, if_neg hk]

/-- The counts of the next manifest are those of the rows in memory. -/
theorem countAt_candidate {mgr : Manager} (hshape : Shape mgr) (h : Extends records mgr)
    (k : String) : countAt mgr.candidateCounts k = (Buckets.rowsOf mgr.cache k).length := by
  unfold Manager.candidateCounts
  rw [lookup_candidateCounts hshape.keys]
  split
  · rfl
  · rename_i hnone
    -- a symbol without a bucket has no row on disk either
    have hnil : Buckets.rowsOf mgr.cache k = [] := by
      unfold Buckets.rowsOf
      rw [Option.not_isSome_iff_eq_none.mp hnone]
      rfl
    have hprefix := h.held k
    rw [hnil, List.prefix_nil] at hprefix
    rw [h.counted, hprefix, hnil]

theorem nodup_candidateCounts {mgr : Manager} (hshape : Shape mgr) :
    (mgr.candidateCounts.map Prod.fst).Nodup :=
  Buckets.nodup_foldl_insert hshape.counts Prod.fst (fun _ (bucket : String × List Value) => bucket.2.length)
    mgr.cache

theorem chain_valid (henv : env.Sound) {digest : String} (h : env.validDigest digest = true)
    (rows : List Record) :
    env.validDigest (Journal.chain writeRecord env.extend digest rows) = true := by
  induction rows generalizing digest with
  | nil => exact h
  | cons r rows ih => exact ih (henv.extend_valid _ _)

theorem validDigest_ne (henv : env.Sound) {digest : String} (h : env.validDigest digest = true) :
    digest ≠ "" := by
  rintro rfl
  rw [henv.empty_invalid] at h
  cases h

/-! ## The appended generation -/

/-- The manifest that an append from `m` writes. -/
def nextManifest (env : Env) (m : Manifest) (mgr : Manager) : Manifest :=
  appendManifest mgr m.stream (Journal.chain writeRecord env.extend m.contentDigest mgr.delta)
    (m.committedBytes + (Journal.encode writeRecord mgr.delta).length)

/-- **The appended rows are certified**, with those before them. -/
theorem certified_append (henv : env.Sound) (h : Certified env m records) {mgr : Manager}
    (hshape : Shape mgr) (hextends : Extends records mgr) (hvalid : Valid mgr.cache) :
    Certified env (nextManifest env m mgr) (records ++ mgr.delta) := by
  have hsymbols : ∀ r ∈ records ++ mgr.delta, Text.upper r.1 = r.1 := by
    intro r hr
    rcases List.mem_append.mp hr with hr | hr
    · exact h.symbols r hr
    · obtain ⟨bucket, hbucket, hkey, -⟩ := delta_mem hr
      rw [← hkey]
      exact hshape.symbols bucket hbucket
  have hdistinct : ∀ k, DistinctIds (Buckets.only k (records ++ mgr.delta)) := by
    intro k
    rw [only_delta hshape hextends]
    by_cases hnil : Buckets.rowsOf mgr.cache k = []
    · rw [hnil]
      exact List.nodup_nil
    · exact hvalid.distinct _ (Buckets.mem_of_rowsOf_ne hnil)
  exact
    { ok :=
        { stream := h.ok.stream
          revision := Nat.lt_of_lt_of_le Nat.zero_lt_one (Nat.le_max_left _ _)
          digest := chain_valid henv h.ok.digest _ }
      digest := by
        show Journal.chain writeRecord env.extend m.contentDigest mgr.delta = _
        rw [h.digest, ← Journal.chain_append]
      distinct := nodup_fillKey hsymbols hdistinct
      counts := counts_agree (nodup_candidateCounts hshape) (fun k => by
        show countAt mgr.candidateCounts k = _
        rw [countAt_candidate hshape hextends, only_delta hshape hextends])
      keys := nodup_candidateCounts hshape
      symbols := hsymbols }

/-! ## The rewritten generation -/

/-- **The rows of a rewrite are certified.** -/
theorem certified_compact (henv : env.Sound) {mgr : Manager} (hshape : Shape mgr)
    (hvalid : Valid mgr.cache) (n : Nat) :
    Certified env (compactManifest env (env.uuid n) mgr) (Buckets.flat mgr.cache) := by
  have hkeys : ((Buckets.counts mgr.cache).map Prod.fst).Nodup := by
    rw [Buckets.keys_counts]
    exact hshape.keys
  have hsymbols : ∀ r ∈ Buckets.flat mgr.cache, Text.upper r.1 = r.1 := by
    intro r hr
    obtain ⟨bucket, hbucket, hkey, -⟩ := Buckets.mem_flat.mp hr
    rw [← hkey]
    exact hshape.symbols bucket hbucket
  exact
    { ok :=
        { stream := henv.uuid_ne n
          revision := Nat.zero_lt_one
          digest := chain_valid henv henv.start_valid _ }
      digest := rfl
      distinct := by
        refine nodup_fillKey hsymbols (fun k => ?_)
        rw [Buckets.only_flat hshape.keys]
        by_cases hnil : Buckets.rowsOf mgr.cache k = []
        · rw [hnil]
          exact List.nodup_nil
        · exact hvalid.distinct _ (Buckets.mem_of_rowsOf_ne hnil)
      counts := counts_agree hkeys (fun k => by
        show countAt (Buckets.counts mgr.cache) k = _
        unfold countAt
        rw [Buckets.lookup_counts, Buckets.only_flat hshape.keys]
        unfold Buckets.rowsOf
        cases mgr.cache.lookup k <;> rfl)
      keys := hkeys
      symbols := hsymbols }

theorem flat_rows {cache : Rows} (hvalid : Valid cache) :
    ∀ r ∈ Buckets.flat cache, isRow r.1 r.2 = true := by
  intro r hr
  obtain ⟨bucket, hbucket, hkey, hmem⟩ := Buckets.mem_flat.mp hr
  rw [← hkey]
  exact hvalid.rows bucket hbucket r.2 hmem

theorem flat_signed {cache : Rows} (hvalid : Valid cache) :
    ∀ r ∈ Buckets.flat cache, (tradeSemanticSignature r.2).isSome = true := by
  intro r hr
  obtain ⟨bucket, hbucket, -, hmem⟩ := Buckets.mem_flat.mp hr
  exact hvalid.signed bucket hbucket r.2 hmem

end TradingFleet.Cache
