import TradingFleet.Cache.Recovery

set_option autoImplicit false

/-! # What a step of a manager leaves

Whatever fails in a load, a rewrite or a save, a restart finds the rows that were there before or
those that the manager was writing (`Leaves`), and the latter where a save returned `True`
(`save_does`).

The one state that needs care is a file of rows that a rewrite replaced without its manifest. A
manager that would append to it must not be there (`Careful`): the one whose save or prune left it
rewrites the file next time. A rotation that fails puts the old mark back, so the next save of the
same manager appends to what its rotation left.
-/

namespace TradingFleet.Cache

open JsonText Hoare

variable {env : Env} {m : Manifest} {records : List Record} {c₀ : Core}

/-! ## Steps of one manager -/

/-- The step leaves the rows that were there, or those that it was writing. -/
structure Leaves (env : Env) (rows written : String → List Value) (c₀ c : Core) : Prop where
  change : Change env c₀.disk c₀.drawn c.disk c.drawn
  stands : Stands env c.disk rows ∨ Stands env c.disk written

/-- The file of the rows covers them, or the manager is to rewrite it. -/
def Careful (env : Env) (d : Disk) (mgr : Manager) : Prop :=
  ∀ m records, Holds env d m records → ¬ Intact d m records → mgr.persisted = some m.identity →
    mgr.needsRewrite = true

/-- The version that the manager knows is the one it knew, or the one that is there. -/
def Loads (env : Env) (c₀ c : Core) : Prop :=
  c.manager.loaded = c₀.manager.loaded ∨
    ∃ m records, Holds env c.disk m records ∧ c.manager.loaded = some m.identity

/-- A write that returned: `True` only where the rows it was writing are there. -/
structure Replies (env : Env) (rows : String → List Value) (c₀ : Core) (ok : Bool) (c : Core) :
    Prop where
  leaves : Leaves env rows (Buckets.rowsOf c₀.manager.cache) c₀ c
  knows : Knows env c.disk c.drawn c.manager
  memory : Buckets.rowsOf c.manager.cache = Buckets.rowsOf c₀.manager.cache
  loaded : Loads env c₀ c
  stands : ok = true → Stands env c.disk (Buckets.rowsOf c₀.manager.cache)

/-- What a manager finds at the start of a step. -/
structure Begins (env : Env) (rows : String → List Value) (c : Core) : Prop where
  stands : Stands env c.disk rows
  named : Named env c.disk c.drawn
  knows : Knows env c.disk c.drawn c.manager

variable {rows written : String → List Value}

theorem careful_intact (henv : env.Sound) {d : Disk} (h : Holds env d m records)
    (hintact : Intact d m records) (mgr : Manager) : Careful env d mgr := by
  intro m' records' h' htorn _
  obtain ⟨rfl, rfl⟩ := h.unique henv h'
  exact absurd hintact htorn

theorem careful_rewrite {d : Disk} {mgr : Manager} (h : mgr.needsRewrite = true) :
    Careful env d mgr := fun _ _ _ _ _ => h

theorem careful_absent {d : Disk} (h : loadVersionedAccountMeta env d.manifest none = .absent)
    (mgr : Manager) : Careful env d mgr := fun _ _ h' _ _ => (h'.not_absent h).elim

/-! ### Loading -/

/-- The step leaves the rows, and no manager has to take more care than before. -/
structure Settles (env : Env) (rows : String → List Value) (c₀ c : Core) : Prop where
  change : Change env c₀.disk c₀.drawn c.disk c.drawn
  stands : Stands env c.disk rows
  careful : ∀ mgr, Careful env c₀.disk mgr → Careful env c.disk mgr

/-- A manager that has just loaded: its memory is what is there. -/
structure Fresh (env : Env) (rows : String → List Value) (c₀ c : Core) : Prop where
  knows : Knows env c.disk c.drawn c.manager
  loaded : Loads env c₀ c
  careful : Careful env c.disk c.manager
  held : Buckets.rowsOf c.manager.cache = rows

theorem Kept.careful (henv : env.Sound) {d d' : Disk} (h : Holds env d m records)
    (hkept : Kept env m records d d') {mgr : Manager} (hcareful : Careful env d mgr) :
    Careful env d' mgr := by
  intro m' records' h' htorn hpersisted
  obtain ⟨rfl, rfl⟩ := hkept.holds.unique henv h'
  exact hcareful _ _ h (fun hintact => htorn (hkept.intact hintact)) hpersisted

/-- **A load**, for a manager that may know nothing yet. -/
theorem load_settles (henv : env.Sound) (hstands : Stands env c₀.disk rows)
    (hnamed : Named env c₀.disk c₀.drawn)
    (hmgr : loadVersionedAccountMeta env c₀.disk.manifest none = .absent →
      c₀.manager.loaded = none ∧ c₀.manager.persisted = none)
    (hloaded : (c₀.manager.loadedCounts.map Prod.fst).Nodup) :
    Does (· = c₀) (loadJsonlGenerationLocked env)
      (fun _ c => Settles env rows c₀ c ∧ Fresh env rows c₀ c)
      (fun _ c => Settles env rows c₀ c ∧ c.manager = c₀.manager) := by
  cases hstands with
  | certified h =>
      rename_i m records
      have hsettles : ∀ {c : Core}, Kept env m records c₀.disk c.disk → c.drawn = c₀.drawn →
          Settles env (fun k => Buckets.only k records) c₀ c := by
        intro c hkept hdrawn
        exact
          { change := .kept m records h hkept.holds (Nat.le_of_eq hdrawn.symm)
            stands := .certified hkept.holds
            careful := fun mgr => hkept.careful henv h }
      refine (load_does henv h).conseq (fun _ hc => hc) ?_ ?_
      · intro _ c hc
        have hc' := hsettles hc.kept hc.drawn
        refine ⟨hc', ?_, .inr ⟨m, records, hc.kept.holds, ?_⟩,
          careful_intact henv hc.kept.holds hc.intact _, ?_⟩
        · rw [hc.manager]
          exact knows_install henv (hc'.change.named henv hnamed) hc.kept.holds _
        · rw [hc.manager]
          rfl
        · rw [hc.manager]
          exact funext (Buckets.rowsOf_group records)
      · exact fun _ c hc => ⟨hsettles hc.kept hc.drawn, hc.manager⟩
  | legacy habsent hload hsymbols hkeys =>
      rintro ⟨c, faults⟩ hc
      change c = c₀ at hc
      subst hc
      obtain ⟨d, mgr, drawn⟩ := c
      rw [load_absent habsent hload]
      refine ⟨⟨.unversioned habsent habsent (Nat.le_refl _),
        .legacy habsent hload hsymbols hkeys, fun _ hcareful => hcareful⟩, ?_⟩
      exact
        { knows := knows_installLegacy habsent hsymbols hkeys (hmgr habsent) hloaded
            (legacyLoad_distinct hload) _
          loaded := .inl rfl
          careful := careful_absent habsent _
          held := rfl }

/-! ### Rewriting -/

/-- A rewrite writes the memory, where no fill comes twice in it. -/
theorem compactRows_rows {cache cache' : Rows} (hkeys : (cache.map Prod.fst).Nodup)
    (hdistinct : ∀ k, DistinctIds (Buckets.rowsOf cache k)) (h : compactRows cache = some cache') :
    Buckets.rowsOf cache' = Buckets.rowsOf cache :=
  funext (fun k => compactRows_distinct hkeys h k (hdistinct k))

theorem Rewritten.stands {mgr : Manager} {n : Nat} {c : Core} (hshape : Shape mgr)
    (h : Rewritten env mgr n c) : Stands env c.disk (Buckets.rowsOf mgr.cache) := by
  have hrows : Buckets.rowsOf mgr.cache = fun k => Buckets.only k (Buckets.flat mgr.cache) :=
    funext (fun k => (Buckets.only_flat hshape.keys k).symm)
  rw [hrows]
  exact .certified h.holds

/-- A file that a rewrite left without a manifest stands for the rows it wrote. -/
theorem Unversioned.stands (habsent : loadVersionedAccountMeta env c₀.disk.manifest none = .absent)
    (hstands : Stands env c₀.disk rows) (hshape : Shape c₀.manager)
    (hmemory : ∀ k, DistinctIds (Buckets.rowsOf c₀.manager.cache k)) {d : Disk}
    (h : Unversioned c₀ d) :
    Stands env d rows ∨ Stands env d (Buckets.rowsOf c₀.manager.cache) := by
  have habsent' : loadVersionedAccountMeta env d.manifest none = .absent := by
    rw [h.manifest]
    exact habsent
  rcases h.data with hdata | ⟨cache, hcache, hvalid, hdata⟩
  · left
    cases hstands with
    | certified hholds => exact (hholds.not_absent habsent).elim
    | legacy _ hload hsymbols hkeys =>
        refine .legacy habsent' ?_ hsymbols hkeys
        unfold legacyLoad at hload ⊢
        rw [h.manifest, hdata]
        exact hload
  · right
    have hcompact := hshape.compact hcache
    have hsymbols : ∀ r ∈ Buckets.flat cache, Text.upper r.1 = r.1 := by
      intro r hr
      obtain ⟨bucket, hbucket, hkey, -⟩ := Buckets.mem_flat.mp hr
      rw [← hkey]
      exact hcompact.symbols bucket hbucket
    have honly : ∀ k, Buckets.only k (Buckets.flat cache) = Buckets.rowsOf cache k :=
      Buckets.only_flat hcompact.keys
    have hdistinct : ((Buckets.flat cache).map fillKey).Nodup := by
      refine nodup_fillKey hsymbols (fun k => ?_)
      rw [honly]
      by_cases hnil : Buckets.rowsOf cache k = []
      · rw [hnil]
        exact List.nodup_nil
      · exact hvalid.distinct _ (Buckets.mem_of_rowsOf_ne hnil)
    have hrows : Buckets.rowsOf cache = Buckets.rowsOf (Buckets.group (Buckets.flat cache)) := by
      funext k
      rw [Buckets.rowsOf_group, honly]
    rw [← compactRows_rows hshape.keys hmemory hcache, hrows]
    exact .legacy habsent' (legacyLoad_encode hdata (flat_rows hvalid) (flat_signed hvalid) hdistinct)
      (group_symbols hsymbols) (nodup_group _)

/-- What a manager finds at the start of a rewrite: of its own rows it need not know how they
relate to those on disk. -/
structure Rewrites (env : Env) (rows : String → List Value) (c : Core) : Prop where
  stands : Stands env c.disk rows
  named : Named env c.disk c.drawn
  knows : Knows env c.disk c.drawn { c.manager with needsRewrite := true }

theorem Rewrites.shape (h : Rewrites env rows c₀) : Shape c₀.manager :=
  ⟨h.knows.shape.symbols, h.knows.shape.keys, h.knows.shape.counts⟩

theorem Begins.rewrites (h : Begins env rows c₀) : Rewrites env rows c₀ :=
  ⟨h.stands, h.named, h.knows.failed (.inl rfl)⟩

/-- What a rewrite comes to, for the manager that asked for it. -/
structure Compacts (env : Env) (rows : String → List Value) (c₀ : Core) (ok : Bool) (c : Core) :
    Prop where
  replies : Replies env rows c₀ ok c
  intact : ok = true → ∀ mgr, Careful env c.disk mgr
  rewrite : ok = false →
    ∃ cache, c.manager = { c₀.manager with cache := cache, needsRewrite := true }

/-- What a write comes to that the process does not survive. -/
def Crashes (env : Env) (rows : String → List Value) (c₀ : Core) (stop : Stop) (c : Core) : Prop :=
  stop = .crash ∧ Leaves env rows (Buckets.rowsOf c₀.manager.cache) c₀ c

/-- **A rewrite** leaves the rows that were there, or the memory. -/
theorem compact_compacts (henv : env.Sound) (h : Rewrites env rows c₀) :
    Does (· = c₀) (compactGenerationLocked env) (Compacts env rows c₀) (Crashes env rows c₀) := by
  have hrows : ∀ {cache : Rows}, compactRows c₀.manager.cache = some cache →
      Buckets.rowsOf cache = Buckets.rowsOf c₀.manager.cache :=
    fun hcache => compactRows_rows h.shape.keys h.knows.distinct hcache
  have hdone : ∀ {cache : Rows} {c : Core}, compactRows c₀.manager.cache = some cache →
      Rewritten env (c₀.manager.withRows cache) c₀.drawn c →
      Leaves env rows (Buckets.rowsOf c₀.manager.cache) c₀ c ∧
        Stands env c.disk (Buckets.rowsOf c₀.manager.cache) := by
    intro cache c hcache hrewritten
    have hstands := hrewritten.stands (h.shape.compact hcache)
    change Stands env c.disk (Buckets.rowsOf cache) at hstands
    rw [hrows hcache] at hstands
    refine ⟨⟨.rewritten _ _ hrewritten.holds rfl ?_, .inr hstands⟩, hstands⟩
    rw [hrewritten.drawn]
    exact Nat.lt_succ_self _
  -- both kinds of generation come to the same ends
  have hends : ∀ {B : Disk → Prop}, (∀ {d : Disk} {n : Nat}, B d → c₀.drawn ≤ n →
        Change env c₀.disk c₀.drawn d n ∧
          (Stands env d rows ∨ Stands env d (Buckets.rowsOf c₀.manager.cache))) →
      Does (· = c₀) (compactGenerationLocked env) (CompactEnds env B c₀) (CompactStops env B c₀) →
      Does (· = c₀) (compactGenerationLocked env) (Compacts env rows c₀)
        (Crashes env rows c₀) := by
    intro B hB hdoes
    refine hdoes.conseq (fun _ hc => hc) ?_ ?_
    · intro ok c hc
      cases ok with
      | true =>
          obtain ⟨cache, hcache, hvalid, hrewritten, hmanager⟩ := hc
          obtain ⟨hleaves, hstands⟩ := hdone hcache hrewritten
          exact
            { replies :=
                { leaves := hleaves
                  knows := by
                    rw [hmanager]
                    exact knows_rewritten henv (h.shape.compact hcache)
                      (hleaves.change.named henv h.named) hrewritten
                  memory := by
                    rw [hmanager]
                    exact hrows hcache
                  loaded := .inr ⟨_, _, hrewritten.holds, by rw [hmanager]; rfl⟩
                  stands := fun _ => hstands }
              intact := fun _ => careful_intact henv hrewritten.holds hrewritten.intact
              rewrite := fun hfalse => by cases hfalse }
      | false =>
          obtain ⟨hdisk, hdrawn, cache, hcache, hmanager⟩ := hc
          obtain ⟨hchange, hstands⟩ := hB hdisk hdrawn
          exact
            { replies :=
                { leaves := ⟨hchange, hstands⟩
                  knows := by
                    rw [hmanager]
                    exact (h.knows.change henv hchange).failed hcache
                  memory := by
                    rw [hmanager]
                    rcases hcache with rfl | hcache
                    · rfl
                    · exact hrows hcache
                  loaded := .inl (by rw [hmanager]; rfl)
                  stands := fun hfalse => by cases hfalse }
              intact := fun hfalse => by cases hfalse
              rewrite := fun _ => ⟨cache, hmanager⟩ }
    · rintro stop c ⟨hstop, ⟨hdisk, hdrawn⟩ | ⟨cache, hcache, -, hrewritten⟩⟩
      · obtain ⟨hchange, hstands⟩ := hB hdisk hdrawn
        exact ⟨hstop, hchange, hstands⟩
      · exact ⟨hstop, (hdone hcache hrewritten).1⟩
  have hstands := h.stands
  cases hstands with
  | certified hholds =>
      rename_i m records
      exact hends (fun hd hn => ⟨.kept m records hholds hd hn, .inl (.certified hd)⟩)
        (compact_ready_does henv hholds h.shape)
  | legacy habsent hload hsymbols hkeys =>
      exact hends (fun hd hn => ⟨.unversioned habsent (by rw [hd.manifest]; exact habsent) hn,
        hd.stands habsent (.legacy habsent hload hsymbols hkeys) h.shape h.knows.distinct⟩)
        (compact_absent_does henv habsent h.shape)

theorem Compacts.careful {ok : Bool} {c : Core} (h : Compacts env rows c₀ ok c) :
    Careful env c.disk c.manager := by
  cases ok with
  | true => exact h.intact rfl _
  | false =>
      obtain ⟨cache, hmanager⟩ := h.rewrite rfl
      rw [hmanager]
      exact careful_rewrite rfl

/-! ### Saving -/

/-- A manager that does not know the generation on disk is refused. -/
theorem identityMatches_ready (h : Holds env c₀.disk m records) :
    identityMatches env c₀ = some (decide (c₀.manager.persisted = some m.identity)) := by
  unfold identityMatches
  rw [h.manifest]

/-- A save that writes leaves what it says; one that goes on from the rows on disk keeps them. -/
structure Saves (env : Env) (rows : String → List Value) (c₀ : Core) (ok : Bool) (c : Core) :
    Prop where
  replies : Replies env rows c₀ ok c
  grows : ok = true → c₀.manager.needsRewrite = false →
    ∀ k, rows k <+: Buckets.rowsOf c₀.manager.cache k
  careful : Careful env c₀.disk c₀.manager → Careful env c.disk c.manager

theorem Begins.change (h : Begins env rows c₀) :
    Change env c₀.disk c₀.drawn c₀.disk c₀.drawn := by
  have hstands := h.stands
  cases hstands with
  | certified hholds => exact .kept _ _ hholds hholds (Nat.le_refl _)
  | legacy habsent _ _ _ => exact .unversioned habsent habsent (Nat.le_refl _)

/-- A save that is refused leaves all as it is. -/
theorem Begins.refused (h : Begins env rows c₀) : Saves env rows c₀ false c₀ where
  replies :=
    { leaves := ⟨h.change, .inl h.stands⟩
      knows := h.knows
      memory := rfl
      loaded := .inl rfl
      stands := fun hfalse => by cases hfalse }
  grows := fun hfalse => by cases hfalse
  careful := id

/-- A rewrite asks for the next one, or leaves a file that covers its rows. -/
theorem compact_saves (henv : env.Sound) (h : Begins env rows c₀)
    (hgrows : c₀.manager.needsRewrite = false → ∀ k, rows k <+: Buckets.rowsOf c₀.manager.cache k) :
    Does (· = c₀) (compactGenerationLocked env) (Saves env rows c₀) (Crashes env rows c₀) := by
  refine (compact_compacts henv h.rewrites).conseq (fun _ hc => hc) ?_ (fun _ _ hc => hc)
  intro ok c hc
  exact ⟨hc.replies, fun _ => hgrows, fun _ => hc.careful⟩

theorem append_saves (henv : env.Sound) (h : Begins env (fun k => Buckets.only k records) c₀)
    (hready : Ready env m records c₀) :
    Does (· = c₀) (appendGenerationLocked env) (Saves env (fun k => Buckets.only k records) c₀)
      (Crashes env (fun k => Buckets.only k records) c₀) := by
  have hmemory : Buckets.rowsOf c₀.manager.cache =
      fun k => Buckets.only k (records ++ c₀.manager.delta) :=
    funext (fun k => (only_delta hready.shape hready.extends_ k).symm)
  -- an append that did not certify its rows leaves those before
  have hheld : ∀ {c : Core}, Held env m records c₀ c →
      Leaves env (fun k => Buckets.only k records) (Buckets.rowsOf c₀.manager.cache) c₀ c :=
    fun hc => ⟨.kept m records hready.holds hc.passed.kept.holds (Nat.le_of_eq hc.passed.drawn.symm),
      .inl (.certified hc.passed.kept.holds)⟩
  -- one that did leaves the memory
  have happended : ∀ {c : Core}, Appended env m records c₀ c →
      Leaves env (fun k => Buckets.only k records) (Buckets.rowsOf c₀.manager.cache) c₀ c ∧
        Stands env c.disk (Buckets.rowsOf c₀.manager.cache) := by
    intro c hc
    have hstands : Stands env c.disk (Buckets.rowsOf c₀.manager.cache) := by
      rw [hmemory]
      exact .certified hc.holds
    exact ⟨⟨.appended m _ records _ hready.holds hc.holds rfl
      (nextManifest_next hready.holds.certified.ok hready.persisted)
      (Nat.le_of_eq hc.drawn.symm), .inr hstands⟩, hstands⟩
  refine (append_does henv hready).conseq (fun _ hc => hc) ?_ ?_
  · intro ok c hc
    refine ⟨?_, fun _ _ => hready.extends_.held, fun _ => ?_⟩
    · cases ok with
      | true =>
          obtain ⟨hdone, hmanager⟩ := hc
          obtain ⟨hleaves, hstands⟩ := happended hdone
          exact
            { leaves := hleaves
              knows := by
                rw [hmanager]
                exact knows_appended henv hready (hleaves.change.named henv h.named) hdone
              memory := by
                rw [hmanager]
                rfl
              loaded := .inr ⟨_, _, hdone.holds, by rw [hmanager]; rfl⟩
              stands := fun _ => hstands }
      | false =>
          have hleaves := hheld hc
          exact
            { leaves := hleaves
              knows := by
                rw [hc.passed.manager]
                exact h.knows.change henv hleaves.change
              memory := by rw [hc.passed.manager]
              loaded := .inl (by rw [hc.passed.manager])
              stands := fun hfalse => by cases hfalse }
    · cases ok with
      | true => exact careful_intact henv hc.1.holds hc.1.intact _
      | false => exact careful_intact henv hc.passed.kept.holds hc.intact _
  · rintro stop c ⟨hstop, hc | hc⟩
    · exact ⟨hstop, hheld hc⟩
    · exact ⟨hstop, (happended hc).1⟩

/-- Before it writes, a save raises or is refused with nothing changed. -/
def SaveBreaks (env : Env) (rows : String → List Value) (c₀ : Core) (stop : Stop) (c : Core) :
    Prop :=
  Crashes env rows c₀ stop c ∨ stop ≠ .crash ∧ c = c₀

theorem saveGeneration_does (henv : env.Sound) (h : Begins env rows c₀)
    (hgrows : c₀.manager.needsRewrite = false → ∀ k, rows k <+: Buckets.rowsOf c₀.manager.cache k)
    (happend : Valid c₀.manager.cache → c₀.manager.needsRewrite = false →
      Does (· = c₀) (appendGenerationLocked env) (Saves env rows c₀) (Crashes env rows c₀)) :
    Does (· = c₀) (saveGenerationLocked env) (Saves env rows c₀) (SaveBreaks env rows c₀) := by
  refine Does.getCore ?_
  rintro c rfl
  refine Does.ite (fun hcheck => ?_) (fun _ => Does.raise ?_)
  · have hvalid := validateAccountRows_valid hcheck
    refine Does.ite (fun _ => ?_) (fun hno => ?_)
    · exact (compact_saves henv h hgrows).conseq (fun _ hc => hc) (fun _ _ hc => hc)
        (fun _ _ hc => .inl hc)
    · rw [Bool.or_eq_true, not_or, Bool.not_eq_true] at hno
      exact (happend hvalid hno.1).conseq (fun _ hc => hc) (fun _ _ hc => hc)
        (fun _ _ hc => .inl hc)
  · rintro c' rfl
    exact .inr ⟨by simp, rfl⟩

/-- **A save**, whatever fails in it: where it returns `True` a restart finds the memory, and the
rows that were there first, unless the manager rewrites the file; otherwise it finds the rows that
were there or the memory. -/
theorem save_does (henv : env.Sound) (h : Begins env rows c₀)
    (hcareful : Careful env c₀.disk c₀.manager) :
    Does (· = c₀) (saveAccountTradeAppend env) (Saves env rows c₀) (Crashes env rows c₀) := by
  have hcurrent : Does (· = c₀) (saveIfCurrentGenerationLocked env) (Saves env rows c₀)
      (SaveBreaks env rows c₀) := by
    refine Does.getCore ?_
    rintro c rfl
    have hstands := h.stands
    cases hstands with
    | certified hholds =>
        rename_i m records
        rw [identityMatches_ready hholds]
        -- a manager of another generation may not write at all
        by_cases hpersisted : c.manager.persisted = some m.identity
        · rw [decide_eq_true hpersisted]
          have habreast := (h.knows.abreast m records hholds _ hpersisted rfl).current rfl
          refine Does.ite (fun _ => Does.pure ?_) (fun _ => ?_)
          · rintro c' rfl
            exact h.refused
          · refine saveGeneration_does henv h (fun hno => ?_) (fun hvalid hno => ?_)
            · exact (habreast.2.resolve_left (by simp [hno])).held
            -- a file with a torn end is not appended to, but rewritten
            · have hintact : Intact c.disk m records := by
                by_contra htorn
                have hrewrite := hcareful m records hholds htorn hpersisted
                rw [hno] at hrewrite
                cases hrewrite
              exact append_saves henv h
                { holds := hholds
                  intact := hintact
                  persisted := hpersisted
                  shape := h.knows.shape
                  extends_ := habreast.2.resolve_left (by simp [hno])
                  valid := hvalid }
        · rw [decide_eq_false hpersisted]
          refine Does.pure ?_
          rintro c' rfl
          exact h.refused
    | legacy habsent hload hsymbols hkeys =>
        -- without a manifest the save rewrites the file
        have hnone := (h.knows.unversioned habsent).2
        have hrewrite := h.knows.versioned hnone
        have hmatches : identityMatches env c = some true := by
          unfold identityMatches
          rw [habsent]
          dsimp only
          rw [hnone, hrewrite]
          rfl
        rw [hmatches]
        refine Does.ite (fun _ => Does.pure ?_) (fun _ => ?_)
        · rintro c' rfl
          exact h.refused
        · refine saveGeneration_does henv h (fun hno => ?_) (fun _ hno => ?_)
          · rw [hrewrite] at hno
            cases hno
          · rw [hrewrite] at hno
            cases hno
  refine Does.catching (SaveBreaks env rows c₀) hcurrent ?_ (fun e => Does.pure ?_)
  · rintro c (hc | ⟨hstop, -⟩)
    · exact hc
    · exact absurd rfl hstop
  · rintro c (⟨hstop, -⟩ | ⟨-, rfl⟩)
    · cases hstop
    · exact h.refused

end TradingFleet.Cache
