import TradingFleet.Cache.Saves

set_option autoImplicit false

/-! # Adding fills, retention and rotation

What a manager knows survives the fills that are added to its memory (`Knows.persistItems`).
Retention and rotation take rows out of the memory and rewrite the file (`prune_does`,
`rotate_does`): a restart finds the rows that were there or those that were kept, and a rotation
that returned `True` has put all that was certified into an archive.
-/

namespace TradingFleet.Cache

open JsonText Hoare

variable {env : Env} {m : Manifest} {records : List Record} {c₀ : Core} {d : Disk} {n : Nat}
  {rows : String → List Value}

/-! ## Changes of the memory -/

theorem Extends.grow {mgr mgr' : Manager} (h : Extends records mgr)
    (hcounts : mgr'.persistedCounts = mgr.persistedCounts)
    (hgrows : ∀ k, Buckets.rowsOf mgr.cache k <+: Buckets.rowsOf mgr'.cache k) :
    Extends records mgr' :=
  { counted := fun k => by
      rw [hcounts]
      exact h.counted k
    held := fun k => (h.held k).trans (hgrows k) }

/-- Other rows in memory: they go on from those before, or the file is to be rewritten. -/
theorem Knows.edited {mgr : Manager} (h : Knows env d n mgr) {cache : Rows}
    {fetchtime : List (String × Int)} {dirty needsRewrite : Bool}
    (hsymbols : ∀ bucket ∈ cache, Text.upper bucket.1 = bucket.1)
    (hkeys : (cache.map Prod.fst).Nodup)
    (hdistinct : ∀ k, DistinctIds (Buckets.rowsOf cache k))
    (hrewrite : mgr.needsRewrite = true → needsRewrite = true)
    (hrows : needsRewrite = true ∨
      ∀ k, Buckets.rowsOf mgr.cache k <+: Buckets.rowsOf cache k)
    (hclean : dirty = false → mgr.dirty = false ∧
      ∀ k, Buckets.rowsOf cache k = Buckets.rowsOf mgr.cache k) :
    Knows env d n
      { mgr with
        cache := cache
        fetchtime := fetchtime
        dirty := dirty
        needsRewrite := needsRewrite } := by
  refine
    { shape := ⟨hsymbols, hkeys, h.shape.counts⟩
      versioned := fun hnone => hrewrite (h.versioned hnone)
      past := h.past
      abreast := fun m records hholds i hi hstream =>
        (h.abreast m records hholds i hi hstream).congr (fun hextends => ?_)
      unversioned := h.unversioned
      remembers := ?_
      loadedKeys := h.loadedKeys
      distinct := hdistinct }
  · rcases hrows with hrows | hrows
    · exact .inl hrows
    · exact hextends.imp hrewrite (fun hextends => hextends.grow rfl hrows)
  · intro hdirty i hi
    obtain ⟨hbefore, hsame⟩ := hclean hdirty
    obtain ⟨rows, hheld⟩ := h.remembers hbefore i hi
    exact ⟨rows, hheld.digest, hheld.valid, hheld.distinct,
      fun k => (hsame k).trans (hheld.held k)⟩

/-! ## Adding fills -/

theorem rowsOf_setDefault (cache : Rows) (symbol k : String) :
    Buckets.rowsOf (setDefault cache symbol) k = Buckets.rowsOf cache k := by
  unfold setDefault Buckets.rowsOf
  split
  · rfl
  · rename_i hnone
    rw [List.lookup_append]
    by_cases hk : k = symbol
    · subst hk
      rw [List.lookup_cons_self]
      cases hlookup : cache.lookup k with
      | none => rfl
      | some items =>
          rw [hlookup] at hnone
          exact absurd rfl hnone
    · rw [Buckets.lookup_cons_ne (p := (symbol, [])) hk, List.lookup_nil, Option.or_none]

theorem keys_setDefault {cache : Rows} (h : (cache.map Prod.fst).Nodup) (symbol : String) :
    ((setDefault cache symbol).map Prod.fst).Nodup := by
  unfold setDefault
  split
  · exact h
  · rename_i hnone
    rw [List.map_append, List.map_singleton]
    refine List.nodup_append.mpr ⟨h, List.nodup_singleton _, fun a ha b hb heq => hnone ?_⟩
    have hb' : b = symbol := List.mem_singleton.mp hb
    obtain ⟨bucket, hbucket, rfl⟩ := List.mem_map.mp ha
    rw [← hb', ← heq]
    exact Buckets.lookup_isSome_iff.mpr ⟨bucket.2, hbucket⟩

theorem symbols_setDefault {cache : Rows} (h : ∀ bucket ∈ cache, Text.upper bucket.1 = bucket.1)
    {symbol : String} (hsymbol : Text.upper symbol = symbol) :
    ∀ bucket ∈ setDefault cache symbol, Text.upper bucket.1 = bucket.1 := by
  unfold setDefault
  split
  · exact h
  · intro bucket hbucket
    rcases List.mem_append.mp hbucket with hbucket | hbucket
    · exact h bucket hbucket
    · rw [List.mem_singleton] at hbucket
      rw [hbucket]
      exact hsymbol

/-- The index of a bucket knows every fill in it. -/
theorem indexBucket_seen {symbol : String} {seen seen' : Seen} {items : List Value}
    (h : indexBucket symbol seen items = some seen') :
    (∀ i, (seen.lookup i).isSome = true → (seen'.lookup i).isSome = true) ∧
      ∀ item ∈ items, (seen'.lookup (tradeId item)).isSome = true := by
  induction items generalizing seen with
  | nil =>
      cases h
      exact ⟨fun _ hi => hi, fun _ hitem => by cases hitem⟩
  | cons item items ih =>
      unfold indexBucket at h
      split at h
      · rw [Option.bind_eq_bind, Option.bind_eq_some_iff] at h
        obtain ⟨signature, -, h⟩ := h
        split at h
        · cases h
        · obtain ⟨hkept, hitems⟩ := ih h
          refine ⟨fun i hi => hkept i ?_, fun other hother => ?_⟩
          · rw [List.lookup_cons]
            split
            · rfl
            · exact hi
          · rcases List.mem_cons.mp hother with rfl | hother
            · refine hkept _ ?_
              rw [List.lookup_cons_self]
              rfl
            · exact hitems other hother
      · cases h

/-- The fills that are new are distinct, and none of them is known. -/
theorem newFills_spec {symbol : String} {seen : Seen} {items fresh : List Value}
    (h : newFills symbol seen items = some fresh) :
    DistinctIds fresh ∧ ∀ item ∈ fresh, seen.lookup (tradeId item) = none := by
  induction items generalizing seen fresh with
  | nil =>
      cases h
      exact ⟨List.nodup_nil, fun _ hitem => by cases hitem⟩
  | cons item items ih =>
      unfold newFills at h
      split at h
      · rw [Option.bind_eq_bind, Option.bind_eq_some_iff] at h
        obtain ⟨signature, -, h⟩ := h
        split at h
        · split at h
          · cases h
          · exact ih h
        · rename_i hseen
          rw [Option.bind_eq_bind, Option.bind_eq_some_iff] at h
          obtain ⟨rest, hrest, heq⟩ := h
          cases heq
          obtain ⟨hids, hnew⟩ := ih hrest
          have hfresh : ∀ other ∈ rest, tradeId other ≠ tradeId item := by
            intro other hother heq
            have hlookup := hnew other hother
            rw [heq, List.lookup_cons_self] at hlookup
            cases hlookup
          constructor
          · unfold DistinctIds
            rw [List.map_cons, List.nodup_cons]
            refine ⟨fun hmem => ?_, hids⟩
            obtain ⟨other, hother, heq⟩ := List.mem_map.mp hmem
            exact hfresh other hother heq
          · intro other hother
            rcases List.mem_cons.mp hother with rfl | hother
            · exact hseen
            · have hlookup := hnew other hother
              rwa [Buckets.lookup_cons_ne (hfresh other hother)] at hlookup
      · cases h

theorem distinctIds_append {items fresh : List Value} (h : DistinctIds items)
    (hfresh : DistinctIds fresh)
    (hnew : ∀ item ∈ items, ∀ other ∈ fresh, tradeId item ≠ tradeId other) :
    DistinctIds (items ++ fresh) := by
  unfold DistinctIds
  rw [List.map_append]
  refine List.nodup_append.mpr ⟨h, hfresh, fun a ha b hb heq => ?_⟩
  obtain ⟨item, hitem, rfl⟩ := List.mem_map.mp ha
  obtain ⟨other, hother, rfl⟩ := List.mem_map.mp hb
  exact hnew item hitem other hother heq

/-- What a call adds to the rows of a symbol. -/
inductive Added (symbol : String) (mgr : Manager) : Manager → Prop
  | nothing : Added symbol mgr { mgr with cache := setDefault mgr.cache symbol }
  | fresh (items : List Value) (now : Int)
      (hdistinct : DistinctIds (Buckets.rowsOf mgr.cache symbol ++ items)) :
      Added symbol mgr
        { mgr with
          cache := Buckets.insert (setDefault mgr.cache symbol) symbol
            (Buckets.rowsOf mgr.cache symbol ++ items)
          fetchtime := Buckets.insert mgr.fetchtime symbol now
          dirty := true }

theorem persistItems_added {symbol : String} {items : List Value} {now : Int} {mgr : Manager}
    (hdistinct : DistinctIds (Buckets.rowsOf mgr.cache symbol)) :
    Added symbol mgr (persistItems symbol items now mgr).1 := by
  unfold persistItems
  dsimp only
  rw [rowsOf_setDefault]
  split
  · exact .nothing
  · exact .nothing
  · rename_i fresh _ hfresh
    rw [Option.bind_eq_bind, Option.bind_eq_some_iff] at hfresh
    obtain ⟨seen, hseen, hfresh⟩ := hfresh
    obtain ⟨hids, hnew⟩ := newFills_spec hfresh
    refine .fresh fresh now (distinctIds_append hdistinct hids ?_)
    intro item hitem other hother heq
    have hknown := (indexBucket_seen hseen).2 item hitem
    rw [heq, hnew other hother] at hknown
    cases hknown

theorem Added.grows {symbol : String} {mgr mgr' : Manager} (h : Added symbol mgr mgr')
    (k : String) : Buckets.rowsOf mgr.cache k <+: Buckets.rowsOf mgr'.cache k := by
  cases h with
  | nothing =>
      show _ <+: Buckets.rowsOf (setDefault mgr.cache symbol) k
      rw [rowsOf_setDefault]
  | fresh items now _ =>
      show _ <+: Buckets.rowsOf (Buckets.insert (setDefault mgr.cache symbol) symbol _) k
      rw [Buckets.rowsOf_insert]
      split
      · rename_i hk
        subst hk
        exact List.prefix_append _ _
      · rw [rowsOf_setDefault]

theorem Added.loaded {symbol : String} {mgr mgr' : Manager} (h : Added symbol mgr mgr') :
    mgr'.loaded = mgr.loaded := by
  cases h <;> rfl

/-- **Adding fills keeps what a manager knows.** -/
theorem Knows.added {symbol : String} {mgr mgr' : Manager} (h : Knows env d n mgr)
    (hsymbol : Text.upper symbol = symbol) (hadded : Added symbol mgr mgr') :
    Knows env d n mgr' := by
  have hgrows := hadded.grows
  have hkeys := keys_setDefault h.shape.keys symbol
  have hsymbols := symbols_setDefault h.shape.symbols hsymbol
  cases hadded with
  | nothing =>
      refine h.edited hsymbols hkeys (fun k => ?_) id (.inr hgrows) (fun hclean => ⟨hclean, ?_⟩)
      · rw [rowsOf_setDefault]
        exact h.distinct k
      · exact rowsOf_setDefault mgr.cache symbol
  | fresh items now hdistinct =>
      refine h.edited ?_ (Buckets.nodup_insert hkeys _ _) (fun k => ?_) id (.inr hgrows)
        (fun hclean => by cases hclean)
      · exact Buckets.forall_keys_insert (p := fun k => Text.upper k = k) hsymbols hsymbol _
      · rw [Buckets.rowsOf_insert]
        split
        · exact hdistinct
        · rw [rowsOf_setDefault]
          exact h.distinct k

/-! ## Retention -/

/-- Some of the rows of a memory, in the same buckets: the file is to be rewritten. -/
structure Shrinks (cache cache' : Rows) : Prop where
  keys : cache'.map Prod.fst = cache.map Prod.fst
  rows : ∀ k, (Buckets.rowsOf cache' k).Sublist (Buckets.rowsOf cache k)

theorem shrinks_prune (cutoff : Int) (cache : Rows) : Shrinks cache (prune cutoff cache) where
  keys := Buckets.keys_map (fun _ items => items.filter (fun item => cutoff ≤ entryTimestampMs item)) cache
  rows := fun k => by
    unfold prune
    rw [Buckets.rowsOf_map
      (f := fun _ items => items.filter (fun item => cutoff ≤ entryTimestampMs item)) (fun _ => rfl)]
    exact List.filter_sublist

theorem shrinks_keepLatest (env : Env) (cache : Rows) : Shrinks cache (keepLatest env cache) where
  keys := Buckets.keys_map
    (fun _ items => items.drop (items.length - max 1 (env.keepCount items.length))) cache
  rows := fun k => by
    unfold keepLatest
    rw [Buckets.rowsOf_map
      (f := fun _ items => items.drop (items.length - max 1 (env.keepCount items.length)))
      (fun _ => List.drop_nil)]
    exact List.drop_sublist _ _

theorem rowsOf_prune (cutoff : Int) (cache : Rows) (k : String) :
    Buckets.rowsOf (prune cutoff cache) k =
      (Buckets.rowsOf cache k).filter (fun item => cutoff ≤ entryTimestampMs item) :=
  Buckets.rowsOf_map
    (f := fun _ items => items.filter (fun item => cutoff ≤ entryTimestampMs item)) (fun _ => rfl)
    cache k

/-- Where no bucket became shorter, nothing was taken out. -/
theorem prune_counts {cutoff : Int} {cache : Rows}
    (h : Buckets.counts (prune cutoff cache) = Buckets.counts cache) : prune cutoff cache = cache := by
  induction cache with
  | nil => rfl
  | cons bucket cache ih =>
      change (bucket.1, _) :: Buckets.counts (prune cutoff cache) =
        (bucket.1, bucket.2.length) :: Buckets.counts cache at h
      rw [List.cons.injEq, Prod.mk.injEq] at h
      have hfirst := List.filter_sublist.eq_of_length h.1.2
      show (bucket.1, _) :: prune cutoff cache = bucket :: cache
      rw [ih h.2, hfirst]

theorem Knows.shrunk {mgr : Manager} (h : Knows env d n mgr) {cache : Rows}
    (hcache : Shrinks mgr.cache cache) :
    Knows env d n { mgr with cache := cache, dirty := true, needsRewrite := true } := by
  refine h.edited (fun bucket hbucket => ?_) ?_ (fun k => ?_) (fun _ => rfl) (.inl rfl)
    (fun hclean => by cases hclean)
  · have hmem : bucket.1 ∈ mgr.cache.map Prod.fst := by
      rw [← hcache.keys]
      exact List.mem_map.mpr ⟨bucket, hbucket, rfl⟩
    obtain ⟨old, hold, heq⟩ := List.mem_map.mp hmem
    rw [← heq]
    exact h.shape.symbols old hold
  · rw [hcache.keys]
    exact h.shape.keys
  · exact (h.distinct k).sublist ((hcache.rows k).map tradeId)

/-- The state in which some of the rows are rewritten. -/
def Core.keeping (c : Core) (cache : Rows) : Core :=
  c.onManager (fun mgr => { mgr with cache := cache, dirty := true })

theorem Begins.shrunk (h : Begins env rows c₀) {cache : Rows}
    (hcache : Shrinks c₀.manager.cache cache) : Rewrites env rows (c₀.keeping cache) :=
  ⟨h.stands, h.named, h.knows.shrunk hcache⟩

theorem Leaves.of_keeping {written : String → List Value} {cache : Rows} {c : Core}
    (h : Leaves env rows written (c₀.keeping cache) c) : Leaves env rows written c₀ c :=
  ⟨h.change, h.stands⟩

/-- What is left after a step that the manager survives: its memory is `kept`. -/
structure Prunes (env : Env) (rows kept : String → List Value) (c₀ c : Core) : Prop where
  leaves : Leaves env rows kept c₀ c
  knows : Knows env c.disk c.drawn c.manager
  memory : Buckets.rowsOf c.manager.cache = kept
  loaded : Loads env c₀ c
  careful : Careful env c₀.disk c₀.manager → Careful env c.disk c.manager

/-- **Retention** leaves the rows that were there, or those of the memory that are kept. -/
theorem prune_does (henv : env.Sound) (cutoff : Int) (h : Begins env rows c₀) :
    Does (· = c₀) (pruneOld env cutoff)
      (fun _ => Prunes env rows (Buckets.rowsOf (prune cutoff c₀.manager.cache)) c₀)
      (fun stop c => stop = .crash ∧
        Leaves env rows (Buckets.rowsOf (prune cutoff c₀.manager.cache)) c₀ c) := by
  refine Does.getCore ?_
  rintro c rfl
  refine Does.ite (fun _ => ?_) (fun hsame => Does.pure ?_)
  · refine Does.bind (Q := fun _ c' => c' = c.keeping (prune cutoff c.manager.cache))
      (Does.modifyCore (by rintro c' rfl; rfl)) (fun _ => ?_)
    refine Does.bind ((compact_compacts henv (h.shrunk (shrinks_prune cutoff c.manager.cache))).conseq
      (fun _ hc => hc) (fun _ _ hc => hc) (fun _ _ hc => ⟨hc.1, hc.2.of_keeping⟩))
      (fun ok => Does.pure (fun c' hc' => ?_))
    exact ⟨hc'.replies.leaves.of_keeping, hc'.replies.knows, hc'.replies.memory,
      hc'.replies.loaded, fun _ => hc'.careful⟩
  · rintro c' rfl
    have hprune := prune_counts (not_not.mp hsame)
    rw [hprune]
    exact ⟨⟨h.change, .inl h.stands⟩, h.knows, rfl, .inl rfl, id⟩

/-! ## Archives -/

section Frames

variable {α β : Type} {P : Core → Prop} {x : Op α}

/-- What holds of one run of a program holds together. -/
theorem Does.and {Q Q' : α → Core → Prop} {E E' : Stop → Core → Prop} (h : Does P x Q E)
    (h' : Does P x Q' E') :
    Does P x (fun a c => Q a c ∧ Q' a c) (fun stop c => E stop c ∧ E' stop c) := by
  intro w hw
  have hpost := h w hw
  have hpost' := h' w hw
  cases hx : x w with
  | ok a w' =>
      rw [hx] at hpost hpost'
      exact ⟨hpost, hpost'⟩
  | error stop w' =>
      rw [hx] at hpost hpost'
      exact ⟨hpost, hpost'⟩

/-- The state a program begins in has a name. -/
theorem Does.at {Q : α → Core → Prop} {E : Stop → Core → Prop}
    (h : ∀ c, P c → Does (· = c) x Q E) : Does P x Q E :=
  fun w hw => h w.core hw w rfl

/-- The program leaves the archives alone. -/
def LeavesArchives (x : Op α) : Prop :=
  ∀ a, Does (·.disk.archives = a) x (fun _ c => c.disk.archives = a)
    (fun _ c => c.disk.archives = a)

theorem LeavesArchives.bind {f : α → Op β} (hx : LeavesArchives x)
    (hf : ∀ v, LeavesArchives (f v)) : LeavesArchives (x >>= f) :=
  fun a => Does.bind (hx a) (fun v => hf v a)

theorem leavesArchives_pure (v : α) : LeavesArchives (pure v : Op α) :=
  fun _ => Does.pure (fun _ hc => hc)

theorem leavesArchives_raise (e : Err) : LeavesArchives (raise e : Op α) :=
  fun _ => Does.raise (fun _ hc => hc)

theorem leavesArchives_getCore {f : Core → Op β} (hf : ∀ c, LeavesArchives (f c)) :
    LeavesArchives (getCore >>= f) :=
  fun a => Does.getCore (fun c hc => (hf c a).conseq (fun c' hc' => by rw [hc']; exact hc)
    (fun _ _ h => h) (fun _ _ h => h))

theorem leavesArchives_modifyCore {f : Core → Core}
    (hf : ∀ c, (f c).disk.archives = c.disk.archives) : LeavesArchives (modifyCore f) :=
  fun _ => Does.modifyCore (fun c hc => (hf c).trans hc)

theorem leavesArchives_modifyManager (f : Manager → Manager) : LeavesArchives (modifyManager f) :=
  leavesArchives_modifyCore (fun _ => rfl)

theorem LeavesArchives.catching {handler : Op α} (hx : LeavesArchives x)
    (hh : LeavesArchives handler) : LeavesArchives (catching x handler) :=
  fun a => Does.catching _ (hx a) (fun _ hc => hc) (fun _ => hh a)

theorem LeavesArchives.attempt (hx : LeavesArchives x) : LeavesArchives (attempt x) :=
  fun a => Does.attempt _ (hx a) (fun _ hc => hc) (fun _ _ hc => hc)

theorem leavesArchives_ite {p : Prop} [Decidable p] {y : Op α} (hx : LeavesArchives x)
    (hy : LeavesArchives y) : LeavesArchives (if p then x else y) :=
  fun a => Does.ite (fun _ => hx a) (fun _ => hy a)

theorem leavesArchives_diskOp {effect : Disk → Disk}
    {failed crashed : Bool → List Char → Disk → Disk}
    (he : ∀ d, (effect d).archives = d.archives)
    (hf : ∀ applied junk d, (failed applied junk d).archives = d.archives)
    (hc : ∀ applied junk d, (crashed applied junk d).archives = d.archives) :
    LeavesArchives (diskOp effect failed crashed) :=
  fun _ => Does.diskOp (fun c h => (he c.disk).trans h)
    (fun c applied junk h => (hf applied junk c.disk).trans h)
    (fun c applied junk h => (hc applied junk c.disk).trans h)

theorem archives_whenApplied {effect : Disk → Disk} (h : ∀ d, (effect d).archives = d.archives)
    (applied : Bool) (junk : List Char) (d : Disk) :
    (whenApplied effect applied junk d).archives = d.archives := by
  cases applied with
  | false => rfl
  | true => exact h d

theorem archives_restorePrevious (d : Disk) : d.restorePrevious.archives = d.archives := by
  unfold Disk.restorePrevious
  split <;> rfl

theorem leavesArchives_restorePrevious : LeavesArchives restorePrevious :=
  leavesArchives_diskOp archives_restorePrevious (archives_whenApplied archives_restorePrevious)
    (archives_whenApplied archives_restorePrevious)

theorem leavesArchives_discardPrevious : LeavesArchives discardPrevious := by
  refine LeavesArchives.catching (leavesArchives_diskOp ?_ ?_ ?_) (leavesArchives_pure ())
  · exact fun _ => rfl
  · exact fun _ _ _ => rfl
  · exact archives_whenApplied (fun _ => rfl)

theorem leavesArchives_writeMeta (m : Manifest) : LeavesArchives (writeMeta m) :=
  fun _ => Does.writeMeta (fun _ hc => hc) (fun _ hc => hc) (fun _ hc => ⟨hc, hc⟩)

theorem leavesArchives_stage (env : Env) : LeavesArchives (stageGeneration env) := by
  refine leavesArchives_getCore (fun c => ?_)
  split
  · exact leavesArchives_raise _
  · refine leavesArchives_getCore (fun c => ?_)
    split
    · exact leavesArchives_raise _
    · refine LeavesArchives.bind (leavesArchives_diskOp ?_ ?_ ?_) (fun _ => leavesArchives_pure _)
      · exact fun _ => rfl
      · exact archives_whenApplied (fun _ => rfl)
      · exact archives_whenApplied (fun _ => rfl)
  · exact leavesArchives_discardPrevious.bind (fun _ => leavesArchives_pure _)

theorem leavesArchives_replaceRows : LeavesArchives replaceRows := by
  refine leavesArchives_getCore (fun c => ?_)
  split
  · exact leavesArchives_raise _
  · refine LeavesArchives.bind (leavesArchives_modifyManager _) (fun _ => leavesArchives_ite
      (leavesArchives_diskOp ?_ ?_ ?_) (leavesArchives_raise _))
    · exact fun _ => rfl
    · exact fun _ _ _ => rfl
    · exact archives_whenApplied (fun _ => rfl)

theorem leavesArchives_rollBack (staged : Bool) : LeavesArchives (rollBackCompacted staged) := by
  refine leavesArchives_ite (leavesArchives_restorePrevious.attempt.bind (fun _ => ?_))
    (leavesArchives_pure ())
  refine leavesArchives_ite (leavesArchives_getCore (fun c => ?_)) (leavesArchives_pure ())
  exact leavesArchives_ite (leavesArchives_restorePrevious.catching (leavesArchives_pure ()))
    (leavesArchives_pure ())

theorem leavesArchives_rewriteLater : LeavesArchives (do rewriteLater; pure false) := by
  have hlater : LeavesArchives rewriteLater := leavesArchives_modifyManager _
  exact hlater.bind (fun _ => leavesArchives_pure false)

theorem leavesArchives_publish (env : Env) (staged : Bool) :
    LeavesArchives (publishCompacted env staged) := by
  refine LeavesArchives.bind (leavesArchives_getCore (fun c => ?_))
    (fun stream => leavesArchives_getCore (fun c => ?_))
  · refine LeavesArchives.bind (leavesArchives_modifyCore ?_) (fun _ => leavesArchives_pure _)
    exact fun _ => rfl
  · refine LeavesArchives.bind (leavesArchives_writeMeta _) (fun written => ?_)
    refine leavesArchives_ite (LeavesArchives.bind (leavesArchives_ite
      leavesArchives_discardPrevious (leavesArchives_pure ())) (fun _ => ?_))
      ((leavesArchives_rollBack staged).bind (fun _ => leavesArchives_rewriteLater))
    exact (leavesArchives_modifyManager _).bind (fun _ => leavesArchives_pure true)

/-- A rewrite leaves the archives alone. -/
theorem leavesArchives_compact (env : Env) : LeavesArchives (compactGenerationLocked env) := by
  refine LeavesArchives.bind (LeavesArchives.attempt ((leavesArchives_stage env).bind
    (fun staged => leavesArchives_replaceRows.bind (fun _ => leavesArchives_pure staged))))
    (fun staged => ?_)
  cases staged with
  | none => exact leavesArchives_rewriteLater
  | some staged => exact leavesArchives_publish env staged

end Frames

/-! ## Rotation -/

theorem Holds.archives (h : Holds env d m records) (archives : List (List Char)) :
    Holds env { d with archives := archives } m records :=
  ⟨h.manifest, h.certified, h.kept⟩

theorem Stands.archives (h : Stands env d rows) (archives : List (List Char)) :
    Stands env { d with archives := archives } rows := by
  cases h with
  | certified h => exact .certified (h.archives archives)
  | legacy habsent hload hsymbols hkeys => exact .legacy habsent hload hsymbols hkeys

theorem Change.archives {d' : Disk} {n' : Nat} (h : Change env d n d' n')
    (archives : List (List Char)) : Change env d n { d' with archives := archives } n' := by
  cases h with
  | kept m records h h' hn => exact .kept m records h (h'.archives archives) hn
  | appended m m' records more h h' hstream hnext hn =>
      exact .appended m m' records more h (h'.archives archives) hstream hnext hn
  | rewritten m' records' h' hstream hn =>
      exact .rewritten m' records' (h'.archives archives) hstream hn
  | unversioned habsent habsent' hn => exact .unversioned habsent habsent' hn

theorem Leaves.archives {written : String → List Value} {c : Core}
    (h : Leaves env rows written c₀ c) (archives : List (List Char)) :
    Leaves env rows written c₀ (c.onDisk (fun d => { d with archives := archives })) :=
  ⟨h.change.archives archives, h.stands.imp (·.archives archives) (·.archives archives)⟩

/-- One of the archives reads as the rows. -/
def Archived (env : Env) (archives : List (List Char)) (rows : String → List Value) : Prop :=
  ∃ text ∈ archives, ∃ m records, Certified env m records ∧
    Covers (some text) m.committedBytes records ∧ rows = fun k => Buckets.only k records

/-- What a rotation comes to. -/
structure Rotates (env : Env) (rows kept : String → List Value) (c₀ : Core) (ok : Bool) (c : Core) :
    Prop where
  leaves : Leaves env rows kept c₀ c
  knows : Knows env c.disk c.drawn c.manager
  memory : Buckets.rowsOf c.manager.cache = if ok then kept else Buckets.rowsOf c₀.manager.cache
  loaded : Loads env c₀ c
  stands : ok = true → Stands env c.disk kept
  archived : ok = true → Archived env c.disk.archives rows

/-- Nothing but the archives changed. -/
structure Files (c₀ c : Core) : Prop where
  disk : ∃ archives, c.disk = { c₀.disk with archives := archives }
  manager : c.manager = c₀.manager
  drawn : c.drawn = c₀.drawn

theorem Files.leaves {written : String → List Value} {c : Core} (h : Begins env rows c₀)
    (hfiles : Files c₀ c) : Leaves env rows written c₀ c := by
  obtain ⟨archives, hdisk⟩ := hfiles.disk
  constructor
  · rw [hdisk, hfiles.drawn]
    exact h.change.archives archives
  · rw [hdisk]
    exact .inl (h.stands.archives archives)

/-- What happens after the archives changed happens from before. -/
theorem Files.after {written : String → List Value} {c c' : Core} (hfiles : Files c₀ c)
    (h : Leaves env rows written c c') : Leaves env rows written c₀ c' := by
  obtain ⟨archives, hdisk⟩ := hfiles.disk
  obtain ⟨hchange, hstands⟩ := h
  rw [hdisk, hfiles.drawn] at hchange
  refine ⟨?_, hstands⟩
  have hback : ∀ {m : Manifest} {records : List Record},
      Holds env { c₀.disk with archives := archives } m records → Holds env c₀.disk m records :=
    fun h => ⟨h.manifest, h.certified, h.kept⟩
  cases hchange with
  | kept m records h h' hn => exact .kept m records (hback h) h' hn
  | appended m m' records more h h' hstream hnext hn =>
      exact .appended m m' records more (hback h) h' hstream hnext hn
  | rewritten m' records' h' hstream hn => exact .rewritten m' records' h' hstream hn
  | unversioned habsent habsent' hn => exact .unversioned habsent habsent' hn

theorem Files.begins (henv : env.Sound) {c : Core} (h : Begins env rows c₀) (hfiles : Files c₀ c) :
    Begins env rows c := by
  obtain ⟨archives, hdisk⟩ := hfiles.disk
  have hchange : Change env c₀.disk c₀.drawn c.disk c.drawn := by
    rw [hdisk, hfiles.drawn]
    exact h.change.archives archives
  refine ⟨?_, hchange.named henv h.named, ?_⟩
  · rw [hdisk]
    exact h.stands.archives archives
  · rw [hfiles.manager]
    exact h.knows.change henv hchange

/-- A rotation goes on where the certified rows are in an archive. -/
theorem beginRotation_does (henv : env.Sound) (h : Begins env rows c₀) :
    Does (· = c₀) (beginRotation env)
      (fun _ c => Files c₀ c ∧ Archived env c.disk.archives rows) (fun _ => Files c₀) := by
  have hsame : Files c₀ c₀ := ⟨⟨_, rfl⟩, rfl, rfl⟩
  have harchive : Files c₀ (c₀.onDisk Disk.archive) := ⟨⟨_, rfl⟩, rfl, rfl⟩
  have hstands := h.stands
  refine Does.getCore ?_
  rintro c rfl
  cases hstands with
  | certified hholds =>
      rename_i m records
      rw [hholds.manifest]
      dsimp only
      by_cases hintact : Intact c.disk m records
      · rw [snapshot_covers henv hholds.certified hintact]
        refine Does.diskOp ?_ ?_ ?_
        · rintro c' rfl
          refine ⟨harchive, ?_⟩
          obtain ⟨text, htext, -⟩ := covers_iff.mp hintact
          refine ⟨text, ?_, m, records, hholds.certified, ?_, rfl⟩
          · show text ∈ c'.disk.data.toList ++ c'.disk.archives
            rw [htext]
            exact List.mem_append_left _ List.mem_cons_self
          · rw [← htext]
            exact hintact
        · rintro c' applied junk rfl
          exact Does.applied (P := (· = c')) (Files c') (fun _ hc => hc ▸ hsame)
            (fun _ hc => hc ▸ harchive) c' applied junk rfl
        · rintro c' applied junk rfl
          exact Does.applied (P := (· = c')) (Files c') (fun _ hc => hc ▸ hsame)
            (fun _ hc => hc ▸ harchive) c' applied junk rfl
      · rw [snapshot_none henv hholds.certified hintact]
        exact Does.raise (fun _ hc => hc ▸ hsame)
  | legacy habsent _ _ _ =>
      rw [habsent]
      exact Does.raise (fun _ hc => hc ▸ hsame)

theorem discardArchives_does {P : Core → Prop}
    (h : ∀ c archives, P c → P (c.onDisk (fun d => { d with archives := archives }))) (n : Nat) :
    Does P (discardArchives n) (fun _ => P) (fun stop c => stop = .crash ∧ P c) := by
  have heffect : ∀ c, P c → P (c.onDisk (·.discardArchives n)) := fun c hc => h c _ hc
  refine Does.catching (fun stop c => (stop = .crash ∨ stop = .raised .os) ∧ P c)
    (Does.diskOp heffect (fun c _ _ hc => ⟨.inr rfl, hc⟩) (fun c applied junk hc => ⟨.inl rfl, ?_⟩))
    (fun c hc => ⟨rfl, hc.2⟩) (fun _ => Does.pure (fun _ hc => hc.2))
  exact Does.applied P (fun _ hc => hc) heffect c applied junk hc

/-- **A rotation** leaves the rows that were there or the latest of the memory. Where it returns
`True` the former are in an archive, and where it returns `False` the memory is as it was. It then
forgets that a rewrite that failed in it is to be done again. -/
theorem rotate_does (henv : env.Sound) (h : Begins env rows c₀) :
    Does (· = c₀) (rotateAccountTradeKeepLatest env)
      (Rotates env rows (Buckets.rowsOf (keepLatest env c₀.manager.cache)) c₀)
      (fun stop c => stop = .crash ∧
        Leaves env rows (Buckets.rowsOf (keepLatest env c₀.manager.cache)) c₀ c) := by
  refine Does.getCore ?_
  rintro c₁ rfl
  -- what is left where the rotation is given up
  have hgiven : ∀ c, Leaves env rows (Buckets.rowsOf (keepLatest env c₁.manager.cache)) c₁ c →
      c.manager = c₁.manager →
      Rotates env rows (Buckets.rowsOf (keepLatest env c₁.manager.cache)) c₁ false c := by
    intro c hleaves hmanager
    exact
      { leaves := hleaves
        knows := by
          rw [hmanager]
          exact h.knows.change henv hleaves.change
        memory := by
          rw [hmanager]
          rfl
        loaded := .inl (by rw [hmanager])
        stands := fun hfalse => by cases hfalse
        archived := fun hfalse => by cases hfalse }
  have hdiscard : Does (fun c => Leaves env rows (Buckets.rowsOf (keepLatest env c₁.manager.cache))
        c₁ c ∧ c.manager = c₁.manager)
      (do discardArchives c₁.disk.archives.length; pure false)
      (Rotates env rows (Buckets.rowsOf (keepLatest env c₁.manager.cache)) c₁)
      (fun stop c => stop = .crash ∧
        Leaves env rows (Buckets.rowsOf (keepLatest env c₁.manager.cache)) c₁ c) := by
    refine Does.bind ((discardArchives_does ?_ _).conseq (fun _ hc => hc) (fun _ _ hc => hc)
      (fun _ _ hc => ⟨hc.1, hc.2.1⟩)) (fun _ => Does.pure (fun c hc => hgiven c hc.1 hc.2))
    exact fun c archives hc => ⟨hc.1.archives archives, hc.2⟩
  refine Does.bind (Does.attempt (fun _ => Files c₁)
    (Q := fun begun c => Files c₁ c ∧ (begun.isSome = true → Archived env c.disk.archives rows))
    ((beginRotation_does henv h).conseq (fun _ hc => hc) (fun _ _ hc => ⟨hc.1, fun _ => hc.2⟩)
      (fun _ _ hc => hc)) (fun c hc => ⟨rfl, hc.leaves h⟩)
    (fun _ c hc => ⟨hc, fun hfalse => by cases hfalse⟩)) (fun begun => ?_)
  cases begun with
  | none =>
      exact hdiscard.conseq (fun c hc => ⟨hc.1.leaves h, hc.1.manager⟩) (fun _ _ hc => hc)
        (fun _ _ hc => hc)
  | some _ =>
      refine Does.at (fun c₂ hc₂ => ?_)
      obtain ⟨hfiles, harchived⟩ := hc₂
      have hkept : keepLatest env c₂.manager.cache = keepLatest env c₁.manager.cache := by
        rw [hfiles.manager]
      refine Does.bind (Q := fun _ c => c = c₂.keeping (keepLatest env c₁.manager.cache))
        (Does.modifyCore (by rintro c rfl; rw [← hkept]; rfl)) (fun _ => ?_)
      have hshrunk := (hfiles.begins henv h).shrunk (shrinks_keepLatest env c₂.manager.cache)
      rw [hkept] at hshrunk
      refine Does.bind (((compact_compacts henv hshrunk).and ((leavesArchives_compact env
        c₂.disk.archives).conseq (by rintro c rfl; rfl) (fun _ _ hc => hc) (fun _ _ hc => hc))).conseq
        (fun _ hc => hc) (fun _ _ hc => hc)
        (fun _ _ hc => ⟨hc.1.1, hfiles.after hc.1.2.of_keeping⟩)) (fun ok => ?_)
      cases ok with
      | true =>
          refine Does.pure (fun c hc => ?_)
          exact
            { leaves := hfiles.after hc.1.replies.leaves.of_keeping
              knows := hc.1.replies.knows
              memory := hc.1.replies.memory
              loaded := by
                rcases hc.1.replies.loaded with hloaded | hloaded
                · left
                  rw [hloaded]
                  show c₂.manager.loaded = _
                  rw [hfiles.manager]
                · exact .inr hloaded
              stands := hc.1.replies.stands
              archived := fun _ => by
                rw [hc.2]
                exact harchived rfl }
      | false =>
          refine Does.bind (Q := fun _ c =>
              Leaves env rows (Buckets.rowsOf (keepLatest env c₁.manager.cache)) c₁ c ∧
                c.manager = c₁.manager) (Does.modifyCore (fun c hc => ?_)) (fun _ => hdiscard)
          obtain ⟨cache, hmanager⟩ := hc.1.rewrite rfl
          refine ⟨?_, ?_⟩
          · have hleaves := hfiles.after hc.1.replies.leaves.of_keeping
            exact ⟨hleaves.change, hleaves.stands⟩
          · show { c.manager with
                cache := c₁.manager.cache
                dirty := c₁.manager.dirty
                needsRewrite := c₁.manager.needsRewrite } = c₁.manager
            rw [hmanager]
            show { c₂.manager with
                cache := c₁.manager.cache
                dirty := c₁.manager.dirty
                needsRewrite := c₁.manager.needsRewrite } = c₁.manager
            rw [hfiles.manager]

end TradingFleet.Cache
