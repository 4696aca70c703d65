import TradingFleet.Cache.Writes

set_option autoImplicit false

/-! # Bringing a reader up to a version

A reader that is asked for a version reads the rows behind the ones it has, where the stream is its
own (`_ensure_trade_version`), and the whole file otherwise. Its files and its memory may change
between the reads. Where it returns, its memory is what the manifest of that version certifies,
whichever way it took (`ensure_certified`).
-/

namespace TradingFleet.Cache

open JsonText

/-! ## Reading the rows behind those in memory -/

/-- The counts of the rows in memory and of new ones. -/
def suffixCounts (counts : List (String × Nat)) (records : List Record) : List (String × Nat) :=
  (Buckets.counts (Buckets.group records)).foldl
    (fun counts p => Buckets.insert counts p.1 (countAt counts p.1 + p.2)) counts

/-- Whether only the rows behind the loaded ones have to be read. -/
def canAppend (mgr : Manager) (m : Manifest) : Bool :=
  match mgr.loaded with
  | none => false
  | some i => !mgr.dirty && i.stream = m.stream && i.committedBytes ≤ m.committedBytes

/-- The rows behind those in memory, with the counts of all of them; `none` where they are
refused. -/
def readSuffix (env : Env) (m : Manifest) (mgr : Manager) (data : Option (List Char)) :
    Option (List Record × List (String × Nat)) := do
  let i ← mgr.loaded
  let records ← readTradeRecordsStrict data i.committedBytes m.committedBytes
  if records.any (fun r => ((Buckets.flat mgr.cache).map fillKey).contains (fillKey r)) = true ∨
      ¬ (records.map fillKey).Nodup then none
  else if Buckets.sameMap (suffixCounts mgr.loadedCounts records) m.counts = false then none
  else if tradeRecordsDigest env records i.contentDigest ≠ some m.contentDigest then none
  else some (records, suffixCounts mgr.loadedCounts records)

/-- Whether the memory is still the one that the new rows were read for. -/
def appendStillValid (before after : Manager) (m : Manifest) : Bool :=
  !after.dirty && after.loaded = before.loaded && after.loaded.map Identity.stream = some m.stream &&
    Buckets.sameMap after.loadedCounts before.loadedCounts &&
    Buckets.sameMap (Buckets.counts after.cache) (nonzeroCounts before.loadedCounts)

/-- What a reader meets: the files at each of its reads, and its memory once it has read. -/
structure Reads where
  first : Disk
  data : Disk
  second : Disk
  full : Disk
  third : Disk
  after : Manager

/-- The manifest of the version that is asked for, where it is the one on disk. -/
def manifestAt (env : Env) (version : String) (d : Disk) : Option Manifest :=
  match loadVersionedAccountMeta env d.manifest (some version) with
  | .ready m => some m
  | _ => none

/-- The whole file, and the manifest once more. -/
def reloadAll (env : Env) (version : String) (m : Manifest) (data again : Disk) (mgr : Manager) :
    Option Manager := do
  let snapshot ← readTradeSnapshotStrict env m data.data
  let after ← manifestAt env version again
  if after ≠ m then none else some (mgr.install m snapshot.1 snapshot.2)

/-- `_ensure_trade_version`; `none` where the reader is not ready. -/
def ensureTradeVersion (env : Env) (version : String) (mgr : Manager) (r : Reads) :
    Option Manager := do
  let m ← manifestAt env version r.first
  if canAppend mgr m then
    let suffix ← readSuffix env m mgr r.data.data
    let after ← manifestAt env version r.second
    if after ≠ m then none
    else if appendStillValid mgr r.after m then
      some (r.after.install m (Buckets.addRows r.after.cache suffix.1) suffix.2)
    else reloadAll env version m r.full r.third r.after
  else reloadAll env version m r.data r.second r.after

/-- `ensure_persisted_version` -/
def ensurePersistedVersion (env : Env) (version : String) (mgr : Manager) (r : Reads) :
    Option Manager :=
  if version = "" then none
  else if mgr.loaded.map Identity.dataVersion = some version ∧ mgr.dirty = false then some mgr
  else ensureTradeVersion env version mgr r

/-! ## What a reader has loaded -/

/-- A memory that nothing was added to is what was loaded: the digest it remembers is that of its
rows. -/
structure LoadedRows (env : Env) (mgr : Manager) (i : Identity) (rows : List Record) : Prop where
  digest : i.contentDigest = Journal.chain writeRecord env.extend env.start rows
  valid : env.validDigest i.contentDigest = true
  distinct : (rows.map fillKey).Nodup
  held : ∀ k, Buckets.rowsOf mgr.cache k = Buckets.only k rows

def Remembers (env : Env) (mgr : Manager) : Prop :=
  mgr.dirty = false → ∀ i, mgr.loaded = some i → ∃ rows, LoadedRows env mgr i rows

variable {env : Env} {m : Manifest} {records : List Record}

/-- **The rows behind those in memory are the rest of what is certified.** -/
theorem readSuffix_rest (henv : env.Sound) (h : Certified env m records) {mgr : Manager}
    (hkeys : (mgr.loadedCounts.map Prod.fst).Nodup) {i : Identity} (hloaded : mgr.loaded = some i) {rows : List Record}
    (hrows : LoadedRows env mgr i rows) {data : Option (List Char)}
    {suffix : List Record × List (String × Nat)} (hread : readSuffix env m mgr data = some suffix) :
    rows ++ suffix.1 = records ∧ Buckets.sameMap suffix.2 m.counts = true ∧
      (suffix.2.map Prod.fst).Nodup := by
  unfold readSuffix at hread
  rw [hloaded, Option.bind_eq_bind, Option.bind_some, Option.bind_eq_bind,
    Option.bind_eq_some_iff] at hread
  obtain ⟨more, -, hread⟩ := hread
  split at hread
  · cases hread
  · split at hread
    · cases hread
    · rename_i hcounts
      split at hread
      · cases hread
      · rename_i hdigest
        cases hread
        refine ⟨henv.collisionless _ _ ?_, by simpa using hcounts,
          Buckets.nodup_foldl_insert hkeys Prod.fst (fun counts p => countAt counts p.1 + p.2) _⟩
        -- the digest goes on from that of the rows in memory
        rw [not_not] at hdigest
        unfold tradeRecordsDigest at hdigest
        rw [if_neg (validDigest_ne henv hrows.valid), if_pos hrows.valid, Option.some.injEq] at hdigest
        rw [Journal.chain_append, ← hrows.digest, hdigest, h.digest]

/-- The version that a reader holds. -/
structure AtVersion (env : Env) (m : Manifest) (records : List Record) (mgr : Manager) : Prop where
  rows : ∀ k, Buckets.rowsOf mgr.cache k = Buckets.only k records
  loaded : mgr.loaded = some m.identity
  persisted : mgr.persisted = some m.identity
  clean : mgr.dirty = false
  counted : ∀ k, countAt mgr.persistedCounts k = (Buckets.only k records).length
  fetchtime : mgr.fetchtime = m.fetchtime
  shape : Shape mgr
  loadedKeys : (mgr.loadedCounts.map Prod.fst).Nodup

theorem group_symbols {rows : List Record} (h : ∀ r ∈ rows, Text.upper r.1 = r.1) :
    ∀ bucket ∈ Buckets.group rows, Text.upper bucket.1 = bucket.1 :=
  Buckets.forall_keys_addRows (p := fun k => Text.upper k = k) (b := [])
    (fun _ hbucket => by cases hbucket) h

theorem nodup_group (rows : List Record) : ((Buckets.group rows).map Prod.fst).Nodup :=
  Buckets.nodup_addRows (b := []) List.nodup_nil rows

theorem reloadAll_certified (henv : env.Sound) (h : Certified env m records) {version : String}
    {data again : Disk} {mgr mgr' : Manager}
    (hreload : reloadAll env version m data again mgr = some mgr') :
    AtVersion env m records mgr' := by
  unfold reloadAll at hreload
  rw [Option.bind_eq_bind, Option.bind_eq_some_iff] at hreload
  obtain ⟨snapshot, hsnapshot, hreload⟩ := hreload
  rw [Option.bind_eq_bind, Option.bind_eq_some_iff] at hreload
  obtain ⟨after, -, hreload⟩ := hreload
  split at hreload
  · cases hreload
  · cases hreload
    obtain ⟨-, rfl⟩ := (snapshot_iff henv h).mp hsnapshot
    exact
      { rows := Buckets.rowsOf_group records
        loaded := rfl
        persisted := rfl
        clean := rfl
        counted := countAt_certified h
        fetchtime := rfl
        shape :=
          { symbols := group_symbols h.symbols
            keys := nodup_group records
            counts := h.keys }
        loadedKeys := h.keys }

theorem countAt_sameMap {counts counts' : List (String × Nat)}
    (h : Buckets.sameMap counts counts' = true) (k : String) :
    countAt counts k = countAt counts' k := by
  unfold countAt
  rw [Buckets.sameMap_iff.mp h k]

theorem manifestAt_ready {version : String} {d : Disk} (h : manifestAt env version d = some m) :
    loadVersionedAccountMeta env d.manifest (some version) = .ready m := by
  unfold manifestAt at h
  split at h
  · rename_i m' heq
    rw [heq, Option.some.inj h]
  · cases h

/-- **A reader that returns holds what the manifest certifies**, whatever changed under it between
its reads, and whether it read the whole file or the rows behind its own. -/
theorem ensureTradeVersion_certified (henv : env.Sound) {version : String} {mgr : Manager}
    {r : Reads} (hremembers : Remembers env r.after) (hshape : Shape r.after)
    (hbefore : Remembers env mgr) (hkeys : (mgr.loadedCounts.map Prod.fst).Nodup)
    (hfirst : loadVersionedAccountMeta env r.first.manifest (some version) = .ready m)
    (h : Certified env m records) {mgr' : Manager}
    (hensure : ensureTradeVersion env version mgr r = some mgr') :
    AtVersion env m records mgr' := by
  unfold ensureTradeVersion at hensure
  have hmanifest : manifestAt env version r.first = some m := by
    unfold manifestAt
    rw [hfirst]
  rw [hmanifest, Option.bind_eq_bind, Option.bind_some] at hensure
  split at hensure
  · rename_i hcan
    rw [Option.bind_eq_bind, Option.bind_eq_some_iff] at hensure
    obtain ⟨suffix, hsuffix, hensure⟩ := hensure
    rw [Option.bind_eq_some_iff] at hensure
    obtain ⟨after, -, hensure⟩ := hensure
    split at hensure
    · cases hensure
    · split at hensure
      · rename_i hvalid
        cases hensure
        unfold appendStillValid at hvalid
        simp only [Bool.and_eq_true, Bool.not_eq_true', decide_eq_true_eq] at hvalid
        obtain ⟨⟨⟨⟨hclean, hsame⟩, hstream⟩, -⟩, -⟩ := hvalid
        obtain ⟨i, hloaded⟩ : ∃ i, r.after.loaded = some i := by
          cases hloaded : r.after.loaded with
          | none =>
              rw [hloaded] at hstream
              cases hstream
          | some i => exact ⟨i, rfl⟩
        have hdirty : mgr.dirty = false := by
          unfold canAppend at hcan
          rw [← hsame, hloaded] at hcan
          simp only [Bool.and_eq_true, Bool.not_eq_true', decide_eq_true_eq] at hcan
          exact hcan.1.1
        obtain ⟨rows, hrows⟩ := hremembers hclean i hloaded
        obtain ⟨rows', hrows'⟩ := hbefore hdirty i (hsame ▸ hloaded)
        -- the memory changed, but not what it holds
        have heq : rows' = rows := henv.collisionless _ _ (hrows'.digest.symm.trans hrows.digest)
        subst heq
        obtain ⟨hrest, hcounts, hcountKeys⟩ :=
          readSuffix_rest henv h hkeys (hsame ▸ hloaded) hrows' hsuffix
        exact
          { rows := fun k => by
              show Buckets.rowsOf (Buckets.addRows r.after.cache suffix.1) k = _
              rw [Buckets.rowsOf_addRows, hrows.held, ← Buckets.only_append, hrest]
            loaded := rfl
            persisted := rfl
            clean := rfl
            counted := fun k => by
              show countAt suffix.2 k = _
              rw [countAt_sameMap hcounts, countAt_certified h]
            fetchtime := rfl
            shape :=
              { symbols := Buckets.forall_keys_addRows (p := fun k => Text.upper k = k)
                  hshape.symbols (fun r hr => h.symbols r (by
                    rw [← hrest]
                    exact List.mem_append_right _ hr))
                keys := Buckets.nodup_addRows hshape.keys suffix.1
                counts := hcountKeys }
            loadedKeys := hcountKeys }
      · exact reloadAll_certified henv h hensure
  · exact reloadAll_certified henv h hensure

end TradingFleet.Cache
