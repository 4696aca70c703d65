import TradingFleet.Cache.Reload

set_option autoImplicit false

/-! # What a restart finds

A disk stands for rows (`Stands`): those its manifest certifies, or those of its lines where there
is no manifest. An operation changes the generation in one of few ways (`Change`), whatever fails in
it; what a manager knows of the generation on disk (`Knows`) survives each of them. So each
operation of one manager leaves a disk that stands for the rows it stood for, or for the rows that
the manager was writing.
-/

namespace TradingFleet.Cache

open JsonText Hoare

variable {env : Env} {m : Manifest} {records : List Record} {d d' : Disk} {n n' : Nat}

/-! ## Generations -/

/-- The rows, by symbol, that are on a disk. -/
inductive Stands (env : Env) (d : Disk) : (String → List Value) → Prop
  | certified {m : Manifest} {records : List Record} (h : Holds env d m records) :
      Stands env d (fun k => Buckets.only k records)
  | legacy {cache : Rows} (habsent : loadVersionedAccountMeta env d.manifest none = .absent)
      (hload : legacyLoad d = .ok cache)
      (hsymbols : ∀ bucket ∈ cache, Text.upper bucket.1 = bucket.1)
      (hkeys : (cache.map Prod.fst).Nodup) : Stands env d (Buckets.rowsOf cache)

/-- A restart finds these rows. -/
def Recovers (env : Env) (d : Disk) (rows : String → List Value) : Prop :=
  ∃ cache, recovered env d = some cache ∧ ∀ k, Buckets.rowsOf cache k = rows k

theorem Stands.recovers (henv : env.Sound) {rows : String → List Value} (h : Stands env d rows) :
    Recovers env d rows := by
  cases h with
  | certified h => exact ⟨_, recovered_holds henv h, Buckets.rowsOf_group _⟩
  | legacy habsent hload _ _ => exact ⟨_, recovered_absent habsent hload, fun _ => rfl⟩

theorem Recovers.unique {rows rows' : String → List Value} (h : Recovers env d rows)
    (h' : Recovers env d rows') : rows' = rows := by
  obtain ⟨cache, hcache, hrows⟩ := h
  obtain ⟨cache', hcache', hrows'⟩ := h'
  rw [hcache, Option.some.injEq] at hcache'
  subst hcache'
  exact funext (fun k => (hrows' k).symm.trans (hrows k))

theorem Holds.unique (henv : env.Sound) (h : Holds env d m records) {m' : Manifest}
    {records' : List Record} (h' : Holds env d m' records') : m' = m ∧ records' = records := by
  have hm := h'.manifest
  rw [h.manifest, ManifestRead.ready.injEq] at hm
  subst hm
  exact ⟨rfl, h.certified.unique henv h'.certified⟩

theorem Holds.not_absent (h : Holds env d m records)
    (habsent : loadVersionedAccountMeta env d.manifest none = .absent) : False := by
  rw [h.manifest] at habsent
  cases habsent

/-- The name was drawn before the `n`-th, or is none of those to come. -/
def Past (env : Env) (n : Nat) (stream : String) : Prop := ∀ k, n ≤ k → env.uuid k ≠ stream

theorem Past.mono {stream : String} (h : Past env n stream) (hn : n ≤ n') : Past env n' stream :=
  fun k hk => h k (Nat.le_trans hn hk)

theorem past_uuid (henv : env.Sound) (hn : n < n') : Past env n' (env.uuid n) := by
  intro k hk heq
  have hkn := henv.uuid_injective _ _ heq
  omega

/-- The ways in which the generation on disk changes. -/
inductive Change (env : Env) (d : Disk) (n : Nat) (d' : Disk) (n' : Nat) : Prop
  | kept (m : Manifest) (records : List Record) (h : Holds env d m records)
      (h' : Holds env d' m records) (hn : n ≤ n')
  | appended (m m' : Manifest) (records more : List Record) (h : Holds env d m records)
      (h' : Holds env d' m' (records ++ more)) (hstream : m'.stream = m.stream)
      (hnext : m.revision < m'.revision ∨ m'.identity = m.identity ∧ more = []) (hn : n ≤ n')
  | rewritten (m' : Manifest) (records' : List Record) (h' : Holds env d' m' records')
      (hstream : m'.stream = env.uuid n) (hn : n < n')
  | unversioned (habsent : loadVersionedAccountMeta env d.manifest none = .absent)
      (habsent' : loadVersionedAccountMeta env d'.manifest none = .absent) (hn : n ≤ n')

/-- The stream of the generation on disk is not drawn again. -/
def Named (env : Env) (d : Disk) (n : Nat) : Prop :=
  ∀ m records, Holds env d m records → Past env n m.stream

theorem Change.named (henv : env.Sound) (h : Change env d n d' n') (hnamed : Named env d n) :
    Named env d' n' := by
  intro m₁ records₁ hholds
  cases h with
  | kept m records h h' hn =>
      obtain ⟨rfl, -⟩ := h'.unique henv hholds
      exact (hnamed _ _ h).mono hn
  | appended m m' records more h h' hstream _ hn =>
      obtain ⟨rfl, -⟩ := h'.unique henv hholds
      rw [hstream]
      exact (hnamed _ _ h).mono hn
  | rewritten m' records' h' hstream hn =>
      obtain ⟨rfl, -⟩ := h'.unique henv hholds
      rw [hstream]
      exact past_uuid henv hn
  | unversioned _ habsent' _ => exact (hholds.not_absent habsent').elim

/-! ## What a manager knows -/

/-- What a manager remembers of a generation is not ahead of the disk; of the revision on disk it
knows all, and unless it is to rewrite the file, its memory goes on from there. -/
structure Abreast (m : Manifest) (records : List Record) (mgr : Manager) (i : Identity) : Prop where
  revision : i.revision ≤ m.revision
  current : i.revision = m.revision →
    i = m.identity ∧ (mgr.needsRewrite = true ∨ Extends records mgr)

structure Knows (env : Env) (d : Disk) (n : Nat) (mgr : Manager) : Prop where
  shape : Shape mgr
  versioned : mgr.persisted = none → mgr.needsRewrite = true
  past : ∀ i, mgr.persisted = some i → Past env n i.stream
  abreast : ∀ m records, Holds env d m records → ∀ i, mgr.persisted = some i →
    i.stream = m.stream → Abreast m records mgr i
  unversioned : loadVersionedAccountMeta env d.manifest none = .absent →
    mgr.loaded = none ∧ mgr.persisted = none
  remembers : Remembers env mgr
  loadedKeys : (mgr.loadedCounts.map Prod.fst).Nodup
  distinct : ∀ k, DistinctIds (Buckets.rowsOf mgr.cache k)

theorem Abreast.congr {mgr mgr' : Manager} {i : Identity} (h : Abreast m records mgr i)
    (hextends : mgr.needsRewrite = true ∨ Extends records mgr →
      mgr'.needsRewrite = true ∨ Extends records mgr') : Abreast m records mgr' i :=
  ⟨h.revision, fun heq => ⟨(h.current heq).1, hextends (h.current heq).2⟩⟩

/-- **What a manager knows survives every change of the generation.** -/
theorem Knows.change (henv : env.Sound) {mgr : Manager} (h : Knows env d n mgr)
    (hchange : Change env d n d' n') : Knows env d' n' mgr := by
  have hn : n ≤ n' := by
    cases hchange with
    | kept _ _ _ _ hn => exact hn
    | appended _ _ _ _ _ _ _ _ hn => exact hn
    | rewritten _ _ _ _ hn => exact Nat.le_of_lt hn
    | unversioned _ _ hn => exact hn
  refine
    { shape := h.shape
      versioned := h.versioned
      past := fun i hi => (h.past i hi).mono hn
      abreast := ?_
      unversioned := ?_
      remembers := h.remembers
      loadedKeys := h.loadedKeys
      distinct := h.distinct }
  · intro m₁ records₁ hholds i hi hstream₁
    cases hchange with
    | kept m records hbefore hafter _ =>
        obtain ⟨rfl, rfl⟩ := hafter.unique henv hholds
        exact h.abreast _ _ hbefore i hi hstream₁
    | appended m m' records more hbefore hafter hstream hnext _ =>
        obtain ⟨rfl, rfl⟩ := hafter.unique henv hholds
        have habreast := h.abreast _ _ hbefore i hi (hstream₁.trans hstream)
        rcases hnext with hlt | ⟨hidentity, rfl⟩
        · -- the generation went on without the manager
          refine ⟨Nat.le_of_lt (Nat.lt_of_le_of_lt habreast.revision hlt), fun heq => ?_⟩
          have hle := habreast.revision
          omega
        · have hrevision : m₁.revision = m.revision := congrArg Identity.revision hidentity
          rw [List.append_nil]
          refine ⟨by rw [hrevision]; exact habreast.revision, fun heq => ?_⟩
          rw [hidentity]
          exact habreast.current (heq.trans hrevision)
    | rewritten m' records' hafter hstream hlt =>
        obtain ⟨rfl, rfl⟩ := hafter.unique henv hholds
        exact absurd (hstream₁.trans hstream).symm (h.past i hi n (Nat.le_refl n))
    | unversioned _ habsent' _ => exact (hholds.not_absent habsent').elim
  · intro habsent
    cases hchange with
    | kept m records _ hafter _ => exact (hafter.not_absent habsent).elim
    | appended m m' records more _ hafter _ _ _ => exact (hafter.not_absent habsent).elim
    | rewritten m' records' hafter _ _ => exact (hafter.not_absent habsent).elim
    | unversioned habsent' _ _ => exact h.unversioned habsent'

/-- A manager that holds the generation on disk, and perhaps more rows. -/
theorem knows_current (henv : env.Sound) (hnamed : Named env d n) (h : Holds env d m records)
    {mgr : Manager} (hshape : Shape mgr) (hpersisted : mgr.persisted = some m.identity)
    (hextends : Extends records mgr) (hremembers : Remembers env mgr)
    (hloaded : (mgr.loadedCounts.map Prod.fst).Nodup)
    (hdistinct : ∀ k, DistinctIds (Buckets.rowsOf mgr.cache k)) : Knows env d n mgr :=
  { shape := hshape
    versioned := fun hnone => by
      rw [hpersisted] at hnone
      cases hnone
    past := fun i hi => by
      rw [hpersisted, Option.some.injEq] at hi
      subst hi
      exact hnamed _ _ h
    abreast := fun m' records' h' i hi _ => by
      obtain ⟨rfl, rfl⟩ := h.unique henv h'
      rw [hpersisted, Option.some.injEq] at hi
      subst hi
      exact ⟨Nat.le_refl _, fun _ => ⟨rfl, .inr hextends⟩⟩
    unversioned := fun habsent => (h.not_absent habsent).elim
    remembers := hremembers
    loadedKeys := hloaded
    distinct := hdistinct }

/-! ## After a load -/

theorem remembers_certified (h : Certified env m records) {mgr : Manager}
    (hloaded : mgr.loaded = some m.identity)
    (hrows : ∀ k, Buckets.rowsOf mgr.cache k = Buckets.only k records) : Remembers env mgr := by
  intro _ i hi
  rw [hloaded, Option.some.injEq] at hi
  subst hi
  exact ⟨records, h.digest, h.ok.digest, h.distinct, hrows⟩

theorem knows_install (henv : env.Sound) (hnamed : Named env d n) (h : Holds env d m records)
    (mgr : Manager) : Knows env d n (mgr.install m (Buckets.group records) m.counts) :=
  knows_current henv hnamed h
    { symbols := group_symbols h.certified.symbols
      keys := nodup_group records
      counts := h.certified.keys } rfl
    { counted := countAt_certified h.certified
      held := fun k => by
        show _ <+: Buckets.rowsOf (Buckets.group records) k
        rw [Buckets.rowsOf_group] }
    (remembers_certified h.certified rfl (Buckets.rowsOf_group records)) h.certified.keys
    (fun k => by
      show DistinctIds (Buckets.rowsOf (Buckets.group records) k)
      rw [Buckets.rowsOf_group]
      exact distinct_only h.certified.distinct k)

/-- Of a fill that comes twice a file without a manifest keeps the first line. -/
theorem legacyRows_distinct {expected : Option (List (String × Nat))} {lines : List (List Char)}
    {cache cache' : Rows} {seen : List ((String × Int) × TradeSignature)}
    (hseen : ∀ k, ∀ item ∈ Buckets.rowsOf cache k,
      (seen.lookup (Text.upper k, tradeId item)).isSome = true)
    (hdistinct : ∀ k, DistinctIds (Buckets.rowsOf cache k))
    (h : legacyRows expected cache seen lines = .ok cache') :
    ∀ k, DistinctIds (Buckets.rowsOf cache' k) := by
  -- a fill whose key was seen is not added; the keys seen cover the rows
  induction lines generalizing cache seen with
  | nil =>
      cases h
      exact hdistinct
  | cons line lines ih =>
      unfold legacyRows at h
      split at h
      · split at h
        · split at h
          · cases h
            exact hdistinct
          · cases h
        · split at h
          · cases h
          · rename_i r _
            split at h
            · cases h
            · split at h
              · split at h
                · cases h
                · exact ih hseen hdistinct h
              · rename_i hnone
                have hrows : ∀ k, Buckets.rowsOf (Buckets.addRow cache r.1 r.2) k =
                    Buckets.rowsOf cache k ++ Buckets.only k [r] :=
                  Buckets.rowsOf_addRows cache [r]
                refine ih ?_ ?_ h
                · intro k item hitem
                  rw [hrows, List.mem_append] at hitem
                  rcases hitem with hitem | hitem
                  · rw [List.lookup_cons]
                    split
                    · rfl
                    · exact hseen k item hitem
                  · have hr := Buckets.mem_only.mp hitem
                    rw [List.mem_singleton] at hr
                    subst hr
                    rw [show fillKey (k, item) = (Text.upper k, tradeId item) from rfl,
                      List.lookup_cons_self]
                    rfl
                · intro k
                  rw [hrows, Buckets.only_cons]
                  split
                  · rename_i hk
                    subst hk
                    -- a row with this ID would have been seen
                    have hnew : tradeId r.2 ∉ (Buckets.rowsOf cache r.1).map tradeId := by
                      intro hmem
                      obtain ⟨item, hitem, heq⟩ := List.mem_map.mp hmem
                      have hknown := hseen r.1 item hitem
                      rw [heq] at hknown
                      change (seen.lookup (fillKey r)).isSome = true at hknown
                      rw [hnone] at hknown
                      cases hknown
                    show ((Buckets.rowsOf cache r.1 ++ [r.2]).map tradeId).Nodup
                    rw [List.map_append]
                    exact List.nodup_append.mpr ⟨hdistinct r.1, List.nodup_singleton _,
                      fun a ha b hb heq => hnew (by
                        rw [List.map_singleton, List.mem_singleton] at hb
                        rw [← hb, ← heq]
                        exact ha)⟩
                  · show DistinctIds (Buckets.rowsOf cache k ++ [])
                    rw [List.append_nil]
                    exact hdistinct k
      · exact ih hseen hdistinct h

theorem legacyLoad_distinct {cache : Rows} (h : legacyLoad d = .ok cache) (k : String) :
    DistinctIds (Buckets.rowsOf cache k) :=
  legacyRows_distinct (fun _ _ (hitem : _ ∈ Buckets.rowsOf [] _) => by cases hitem)
    (fun _ => show ([].map tradeId).Nodup from List.nodup_nil) h k

theorem knows_installLegacy (habsent : loadVersionedAccountMeta env d.manifest none = .absent)
    {cache : Rows} (hsymbols : ∀ bucket ∈ cache, Text.upper bucket.1 = bucket.1)
    (hkeys : (cache.map Prod.fst).Nodup) {mgr : Manager}
    (hmgr : mgr.loaded = none ∧ mgr.persisted = none)
    (hloaded : (mgr.loadedCounts.map Prod.fst).Nodup)
    (hdistinct : ∀ k, DistinctIds (Buckets.rowsOf cache k))
    (fetchtime : Option (List (String × Int))) : Knows env d n (mgr.installLegacy cache fetchtime) :=
  { shape :=
      { symbols := hsymbols
        keys := hkeys
        counts := by
          show ((Buckets.counts cache).map Prod.fst).Nodup
          rw [Buckets.keys_counts]
          exact hkeys }
    versioned := fun _ => rfl
    past := fun i hi => by
      change mgr.persisted = some i at hi
      rw [hmgr.2] at hi
      cases hi
    abreast := fun _ _ h => (h.not_absent habsent).elim
    unversioned := fun _ => hmgr
    remembers := fun _ i hi => by
      change mgr.loaded = some i at hi
      rw [hmgr.1] at hi
      cases hi
    loadedKeys := hloaded
    distinct := hdistinct }

/-! ## After an append -/

/-- An append goes on to the next revision, or has nothing to add. -/
theorem nextManifest_next (hok : m.Ok env) {mgr : Manager}
    (hpersisted : mgr.persisted = some m.identity) :
    m.revision < (nextManifest env m mgr).revision ∨
      (nextManifest env m mgr).identity = m.identity ∧ mgr.delta = [] := by
  have hrevision : (nextManifest env m mgr).revision = max 1
      (if mgr.delta ≠ [] ∨ mgr.persisted.isNone = true then m.revision + 1 else m.revision) := by
    unfold nextManifest appendManifest
    rw [hpersisted]
    rfl
  by_cases hdelta : mgr.delta = []
  · right
    refine ⟨?_, hdelta⟩
    have hsame : (nextManifest env m mgr).revision = m.revision := by
      rw [hrevision, if_neg (by simp [hdelta, hpersisted])]
      exact Nat.max_eq_right hok.revision
    unfold Manifest.identity
    rw [hsame]
    show Identity.mk m.stream m.revision (m.committedBytes + _)
      (Journal.chain writeRecord env.extend m.contentDigest mgr.delta) = _
    rw [hdelta]
    rfl
  · left
    rw [hrevision, if_pos (.inl hdelta)]
    exact Nat.lt_of_lt_of_le (Nat.lt_succ_self _) (Nat.le_max_right _ _)

theorem knows_appended (henv : env.Sound) {c₀ c : Core} (hready : Ready env m records c₀)
    (hnamed : Named env c.disk c.drawn) (h : Appended env m records c₀ c) :
    Knows env c.disk c.drawn (c₀.manager.commit (nextManifest env m c₀.manager)) :=
  knows_current henv hnamed h.holds
    { symbols := hready.shape.symbols
      keys := hready.shape.keys
      counts := h.holds.certified.keys } rfl
    { counted := countAt_certified h.holds.certified
      held := fun k => by
        show _ <+: Buckets.rowsOf c₀.manager.cache k
        rw [only_delta hready.shape hready.extends_] }
    (remembers_certified h.holds.certified rfl
      (fun k => (only_delta hready.shape hready.extends_ k).symm)) h.holds.certified.keys
    (fun k => by
      show DistinctIds (Buckets.rowsOf c₀.manager.cache k)
      rw [← only_delta hready.shape hready.extends_]
      exact distinct_only h.holds.certified.distinct k)

/-! ## After a rewrite -/

theorem knows_rewritten (henv : env.Sound) {mgr : Manager} {c : Core} (hshape : Shape mgr)
    (hnamed : Named env c.disk c.drawn) (h : Rewritten env mgr n c) :
    Knows env c.disk c.drawn (mgr.commit (compactManifest env (env.uuid n) mgr)) :=
  knows_current henv hnamed h.holds
    { symbols := hshape.symbols
      keys := hshape.keys
      counts := h.holds.certified.keys } rfl
    { counted := countAt_certified h.holds.certified
      held := fun k => by
        show _ <+: Buckets.rowsOf mgr.cache k
        rw [Buckets.only_flat hshape.keys] }
    (remembers_certified h.holds.certified rfl
      (fun k => (Buckets.only_flat hshape.keys k).symm)) h.holds.certified.keys
    (fun k => by
      show DistinctIds (Buckets.rowsOf mgr.cache k)
      rw [← Buckets.only_flat hshape.keys]
      exact distinct_only h.holds.certified.distinct k)

theorem dedupe_distinct {items deduped : List Value} (h : dedupeTradeItemsById items = some deduped)
    (hids : DistinctIds items) : deduped = items := by
  have hself : dedupeTradeItemsById items = some items :=
    dedupeFrom_distinct hids (dedupeFrom_signed h) (fun _ _ => rfl)
  rw [h, Option.some.injEq] at hself
  exact hself

/-- A rewrite collapses nothing where the rows of a symbol are distinct. -/
theorem compactRows_distinct {cache cache' : Rows} (hkeys : (cache.map Prod.fst).Nodup)
    (h : compactRows cache = some cache') (k : String)
    (hids : DistinctIds (Buckets.rowsOf cache k)) :
    Buckets.rowsOf cache' k = Buckets.rowsOf cache k := by
  induction cache generalizing cache' with
  | nil =>
      cases h
      rfl
  | cons bucket cache ih =>
      unfold compactRows at h
      rw [List.mapM_cons, Option.bind_eq_bind, Option.bind_eq_some_iff] at h
      obtain ⟨first, hfirst, h⟩ := h
      rw [Option.bind_eq_bind, Option.bind_eq_some_iff] at h
      obtain ⟨rest, hrest, heq⟩ := h
      rw [List.map_cons, List.nodup_cons] at hkeys
      split at hfirst
      · rw [Option.map_eq_some_iff] at hfirst
        obtain ⟨deduped, hdeduped, rfl⟩ := hfirst
        cases heq
        unfold Buckets.rowsOf at *
        by_cases hk : k = bucket.1
        · subst hk
          rw [List.lookup_cons_self, Option.getD_some] at hids
          rw [List.lookup_cons_self, List.lookup_cons_self, Option.getD_some, Option.getD_some]
          exact dedupe_distinct hdeduped hids
        · rw [Buckets.lookup_cons_ne hk] at hids
          rw [Buckets.lookup_cons_ne (p := (bucket.1, deduped)) hk, Buckets.lookup_cons_ne hk]
          exact ih hkeys.2 hrest hids
      · cases hfirst

/-- A manager whose rewrite failed is to rewrite the file next time. -/
theorem Knows.failed {mgr : Manager} (h : Knows env d n mgr) {cache : Rows}
    (hcache : cache = mgr.cache ∨ compactRows mgr.cache = some cache) :
    Knows env d n { mgr.withRows cache with needsRewrite := true } := by
  have hshape : Shape (mgr.withRows cache) := by
    rcases hcache with rfl | hcache
    · exact h.shape
    · exact h.shape.compact hcache
  have hrows : ∀ k, Buckets.rowsOf cache k = Buckets.rowsOf mgr.cache k := by
    intro k
    rcases hcache with rfl | hcache
    · rfl
    · exact compactRows_distinct h.shape.keys hcache k (h.distinct k)
  refine
    { shape := ⟨hshape.symbols, hshape.keys, hshape.counts⟩
      versioned := fun _ => rfl
      past := h.past
      abreast := fun m records hholds i hi hstream =>
        (h.abreast m records hholds i hi hstream).congr (fun _ => .inl rfl)
      unversioned := h.unversioned
      remembers := ?_
      loadedKeys := h.loadedKeys
      distinct := ?_ }
  · intro hclean i hi
    obtain ⟨rows, hheld⟩ := h.remembers hclean i hi
    exact ⟨rows, hheld.digest, hheld.valid, hheld.distinct,
      fun k => (hrows k).trans (hheld.held k)⟩
  · intro k
    show DistinctIds (Buckets.rowsOf cache k)
    rw [hrows]
    exact h.distinct k

end TradingFleet.Cache
