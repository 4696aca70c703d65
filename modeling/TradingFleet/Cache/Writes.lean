import TradingFleet.Cache.Commits

set_option autoImplicit false

/-! # Writing under faults

What an append and a rewrite do to the disk, whatever fails in them. An append that is cut short
leaves the manifest it found and the rows that manifest covers (`append_does`). A rewrite that is
cut short between its two files leaves the generation before, which the next load finds
(`compact_ready_does`); without a manifest it leaves a file whose lines are the rows
(`compact_absent_does`).
-/

namespace TradingFleet.Cache

open JsonText Hoare

variable {env : Env} {m : Manifest} {records : List Record} {c₀ : Core}

/-! ## Appending -/

/-- The rows are still covered by their file. -/
structure Held (env : Env) (m : Manifest) (records : List Record) (c₀ c : Core) : Prop where
  passed : Passed env m records c₀ c
  intact : Intact c.disk m records

/-- What is written behind the boundary leaves the rows covered. -/
theorem Held.edit {c : Core} (h : Held env m records c₀ c) (junk : List Char) :
    Held env m records c₀ (c.onDisk (·.editData (·.take m.committedBytes ++ junk))) := by
  obtain ⟨t, ht, -⟩ := covers_iff.mp h.intact
  have hcovers := h.intact
  unfold Intact at hcovers
  rw [ht] at hcovers
  have hintact : Intact (c.disk.editData (·.take m.committedBytes ++ junk)) m records := by
    unfold Intact Disk.editData
    rw [ht]
    exact covers_take hcovers junk
  exact
    { passed :=
        { kept :=
            { holds :=
                { manifest := h.passed.kept.holds.manifest
                  certified := h.passed.kept.holds.certified
                  kept := .inl hintact }
              intact := fun _ => hintact }
          manager := h.passed.manager
          drawn := h.passed.drawn }
      intact := hintact }

theorem Held.truncate {c : Core} (h : Held env m records c₀ c) :
    Held env m records c₀ (c.onDisk (·.editData (·.take m.committedBytes))) := by
  have hedit := h.edit []
  simpa only [List.append_nil] using hedit

/-- The new rows are written behind those the manifest covers. -/
theorem Held.covers_delta {c : Core} (h : Held env m records c₀ c) {more : List Record}
    (hmore : ∀ r ∈ more, isRow r.1 r.2 = true) :
    Covers (c.disk.editData
      (·.take m.committedBytes ++ Journal.encode writeRecord more)).data
      (m.committedBytes + (Journal.encode writeRecord more).length) (records ++ more) := by
  obtain ⟨t, ht, -⟩ := covers_iff.mp h.intact
  have hcovers := h.intact
  unfold Intact at hcovers
  rw [ht] at hcovers
  unfold Disk.editData
  rw [ht]
  exact covers_append hcovers hmore

theorem createData_intact {c : Core} (h : Intact c.disk m records) :
    c.onDisk Disk.createData = c := by
  obtain ⟨t, ht, -⟩ := covers_iff.mp h
  obtain ⟨⟨data, manifest, previous, archives⟩, mgr, drawn⟩ := c
  change data = some t at ht
  subst ht
  rfl

theorem beginAppend_does (hpersisted : c₀.manager.persisted = some m.identity) :
    Does (Held env m records c₀) beginAppend
      (fun size c => size = m.committedBytes ∧ Held env m records c₀ c)
      (fun _ => Held env m records c₀) := by
  refine Does.bind (Q := fun _ => Held env m records c₀) (Does.diskOp ?_ ?_ ?_) (fun _ => ?_)
  · intro c hc
    rw [createData_intact hc.intact]
    exact hc
  · intro c applied junk hc
    cases applied with
    | false => exact hc
    | true =>
        show Held env m records c₀ (c.onDisk Disk.createData)
        rw [createData_intact hc.intact]
        exact hc
  · intro c applied junk hc
    cases applied with
    | false => exact hc
    | true =>
        show Held env m records c₀ (c.onDisk Disk.createData)
        rw [createData_intact hc.intact]
        exact hc
  · refine Does.getCore (fun c hc => ?_)
    obtain ⟨t, ht, hsize, -⟩ := covers_iff.mp hc.intact
    rw [hc.passed.manager, hpersisted]
    refine Does.ite (fun hshort => ?_) (fun _ => Does.pure ?_)
    · exfalso
      rw [ht, Option.getD_some] at hshort
      exact absurd hsize (Nat.not_le.mpr hshort)
    · rintro c' rfl
      exact ⟨rfl, hc⟩

theorem truncateFailedAppend_does :
    Does (Held env m records c₀) (truncateFailedAppend m.committedBytes)
      (fun _ => Held env m records c₀) (fun stop c => stop = .crash ∧ Held env m records c₀ c) := by
  refine Does.catching (fun _ => Held env m records c₀) (Does.diskOp ?_ ?_ ?_)
    (fun c hc => ⟨rfl, hc⟩) (fun _ => Does.pure (fun _ hc => hc))
  · exact fun c hc => hc.truncate
  · exact fun c applied junk hc => Does.applied (Held env m records c₀) (fun _ hc => hc)
      (fun _ hc => hc.truncate) c applied junk hc
  · exact fun c applied junk hc => Does.applied (Held env m records c₀) (fun _ hc => hc)
      (fun _ hc => hc.truncate) c applied junk hc

/-- The manager knows the generation on disk, and has rows that may follow it. -/
structure Ready (env : Env) (m : Manifest) (records : List Record) (c : Core) : Prop where
  holds : Holds env c.disk m records
  intact : Intact c.disk m records
  persisted : c.manager.persisted = some m.identity
  shape : Shape c.manager
  extends_ : Extends records c.manager
  valid : Valid c.manager.cache

/-- The manifest of an append is on disk. -/
structure Appended (env : Env) (m : Manifest) (records : List Record) (c₀ c : Core) : Prop where
  holds : Holds env c.disk (nextManifest env m c₀.manager) (records ++ c₀.manager.delta)
  intact : Intact c.disk (nextManifest env m c₀.manager) (records ++ c₀.manager.delta)
  drawn : c.drawn = c₀.drawn

/-- What an append comes to: the next generation, or the one it found. -/
def AppendEnds (env : Env) (m : Manifest) (records : List Record) (c₀ : Core) (ok : Bool)
    (c : Core) : Prop :=
  if ok then Appended env m records c₀ c ∧ c.manager = c₀.manager.commit (nextManifest env m c₀.manager)
  else Held env m records c₀ c

/-- An append that is cut short. -/
def AppendStops (env : Env) (m : Manifest) (records : List Record) (c₀ : Core) (stop : Stop)
    (c : Core) : Prop :=
  stop = .crash ∧ (Held env m records c₀ c ∨ Appended env m records c₀ c)

theorem publishDelta_does (henv : env.Sound) (h : Ready env m records c₀) :
    Does (fun c => Held env m records c₀ c ∧ Covers c.disk.data
        (nextManifest env m c₀.manager).committedBytes (records ++ c₀.manager.delta))
      (publishDelta env m.committedBytes
        (Journal.chain writeRecord env.extend m.contentDigest c₀.manager.delta))
      (AppendEnds env m records c₀) (AppendStops env m records c₀) := by
  refine Does.getCore (fun c hc => ?_)
  obtain ⟨hheld, hcovers⟩ := hc
  have hmanager := hheld.passed.manager
  rw [hmanager, h.persisted]
  refine Does.bind (Q := fun stream c' => stream = m.stream ∧ c' = c)
    (Does.pure (fun c' hc' => ⟨rfl, hc'⟩)) (fun stream => Does.of_fact ?_)
  rintro rfl
  -- with the new manifest the appended rows count
  have happended : Appended env m records c₀
      (c.onDisk (·.writeManifest (nextManifest env m c₀.manager))) := by
    have hcertified := certified_append henv h.holds.certified h.shape h.extends_ h.valid
    exact
      { holds :=
          { manifest := load_toJson hcertified.ok (.inl rfl)
            certified := hcertified
            kept := .inl hcovers }
        intact := hcovers
        drawn := hheld.passed.drawn }
  refine Does.bind (Q := fun ok c' =>
    if ok then c' = c.onDisk (·.writeManifest (nextManifest env m c₀.manager)) else c' = c)
    (Does.writeMeta ?_ ?_ ?_) (fun ok => ?_)
  · rintro c' rfl
    rfl
  · rintro c' rfl
    rfl
  · rintro c' rfl
    exact ⟨⟨rfl, .inl hheld⟩, rfl, .inr happended⟩
  · cases ok with
    | true =>
        refine Does.bind (Does.modifyCore (Q := fun _ => AppendEnds env m records c₀ true) ?_)
          (fun _ => Does.pure (fun _ hc => hc))
        rintro c' rfl
        refine ⟨⟨happended.holds, happended.intact, happended.drawn⟩, ?_⟩
        show c.manager.commit (nextManifest env m c₀.manager) = _
        rw [hmanager]
    | false =>
        refine Does.bind (Q := fun _ => Held env m records c₀)
          (truncateFailedAppend_does.conseq ?_ (fun _ _ hc => hc) ?_)
          (fun _ => Does.pure (fun _ hc => hc))
        · rintro c' rfl
          exact hheld
        · exact fun stop c' hc' => ⟨hc'.1, .inl hc'.2⟩

theorem trimData_does :
    Does (Held env m records c₀) (trimData m.committedBytes) (fun _ => Held env m records c₀)
      (fun _ => Held env m records c₀) := by
  refine Does.getCore (fun c hc => Does.ite (fun _ => Does.diskOp ?_ ?_ ?_) (fun _ => Does.pure ?_))
  · rintro c' rfl
    exact hc.truncate
  · rintro c' applied junk rfl
    exact Does.applied (Held env m records c₀) (fun _ hc => hc) (fun _ hc => hc.truncate)
      c' applied junk hc
  · rintro c' applied junk rfl
    exact Does.applied (Held env m records c₀) (fun _ hc => hc) (fun _ hc => hc.truncate)
      c' applied junk hc
  · rintro c' rfl
    exact hc

theorem writeDelta_does (henv : env.Sound) (h : Ready env m records c₀) :
    Does (Held env m records c₀) (writeDelta env m.committedBytes) (AppendEnds env m records c₀)
      (fun stop c => Held env m records c₀ c ∨ stop = .crash ∧ Appended env m records c₀ c) := by
  have hrows := delta_rows h.valid
  have hall : c₀.manager.delta.all (fun r => isRow r.1 r.2) = true := List.all_eq_true.mpr hrows
  have hdigest : tradeRecordsDigest env c₀.manager.delta m.contentDigest =
      some (Journal.chain writeRecord env.extend m.contentDigest c₀.manager.delta) := by
    unfold tradeRecordsDigest
    rw [if_neg (validDigest_ne henv h.holds.certified.ok.digest), if_pos h.holds.certified.ok.digest]
  refine Does.bind (Q := fun _ => Held env m records c₀) ?_ (fun _ => Does.getCore (fun c hc => ?_))
  · exact trimData_does.conseq (fun _ hc => hc) (fun _ _ hc => hc) (fun _ _ hc => .inl hc)
  · rw [hc.passed.manager, hall, if_pos rfl, h.persisted, Option.map_some, Option.getD_some]
    refine Does.bind (Q := fun _ c => Held env m records c₀ c ∧ Covers c.disk.data
        (nextManifest env m c₀.manager).committedBytes (records ++ c₀.manager.delta))
      (Does.diskOp ?_ ?_ ?_) (fun _ => ?_)
    · rintro c' rfl
      exact ⟨hc.edit _, hc.covers_delta hrows⟩
    · rintro c' _ junk rfl
      exact .inl (hc.edit junk)
    · rintro c' _ junk rfl
      exact .inl (hc.edit junk)
    · rw [show m.identity.contentDigest = m.contentDigest from rfl, hdigest]
      refine (publishDelta_does henv h).conseq (fun _ hc => hc) (fun _ _ hc => hc) ?_
      rintro stop c ⟨hstop, hc | hc⟩
      · exact .inl hc
      · exact .inr ⟨hstop, hc⟩

/-- **An append under faults** comes to the next generation, or leaves the one it found. -/
theorem append_does (henv : env.Sound) (h : Ready env m records c₀) :
    Does (· = c₀) (appendGenerationLocked env) (AppendEnds env m records c₀)
      (AppendStops env m records c₀) := by
  have hheld : Held env m records c₀ c₀ := ⟨.refl h.holds, h.intact⟩
  refine Does.bind (Q := fun size c => (size = none ∨ size = some m.committedBytes) ∧
    Held env m records c₀ c)
    (Does.attempt (fun _ => Held env m records c₀)
      ((beginAppend_does h.persisted).conseq ?_ ?_ (fun _ _ hc => hc)) ?_ ?_)
    (fun size => Does.of_fact ?_)
  · rintro c rfl
    exact hheld
  · rintro size c ⟨rfl, hc⟩
    exact ⟨.inr rfl, hc⟩
  · exact fun c hc => ⟨rfl, .inl hc⟩
  · exact fun _ c hc => ⟨.inl rfl, hc⟩
  · rintro (rfl | rfl)
    · exact Does.pure (fun c hc => hc)
    · refine Does.catching
        (fun stop c => Held env m records c₀ c ∨ stop = .crash ∧ Appended env m records c₀ c)
        (writeDelta_does henv h) ?_ (fun e => ?_)
      · rintro c (hc | ⟨-, hc⟩)
        · exact ⟨rfl, .inl hc⟩
        · exact ⟨rfl, .inr hc⟩
      · refine Does.bind (Q := fun _ => Held env m records c₀)
          (truncateFailedAppend_does.conseq ?_ (fun _ _ hc => hc) ?_)
          (fun _ => Does.pure (fun _ hc => hc))
        · rintro c (hc | ⟨hstop, -⟩)
          · exact hc
          · cases hstop
        · exact fun stop c hc => ⟨hc.1, .inl hc.2⟩

/-! ## Rewriting -/

/-- The rows of a rewrite are rows in memory, in the same buckets. -/
theorem compactRows_spec {cache cache' : Rows} (h : compactRows cache = some cache') :
    cache'.map Prod.fst = cache.map Prod.fst ∧
      ∀ k, (Buckets.rowsOf cache' k).Sublist (Buckets.rowsOf cache k) := by
  induction cache generalizing cache' with
  | nil =>
      cases h
      exact ⟨rfl, fun _ => List.Sublist.refl _⟩
  | cons bucket cache ih =>
      unfold compactRows at h
      rw [List.mapM_cons, Option.bind_eq_bind, Option.bind_eq_some_iff] at h
      obtain ⟨first, hfirst, h⟩ := h
      rw [Option.bind_eq_bind, Option.bind_eq_some_iff] at h
      obtain ⟨rest, hrest, heq⟩ := h
      obtain ⟨hkeys, hsub⟩ := ih hrest
      split at hfirst
      · rw [Option.map_eq_some_iff] at hfirst
        obtain ⟨deduped, hdeduped, rfl⟩ := hfirst
        cases heq
        refine ⟨by rw [List.map_cons, List.map_cons, hkeys], fun k => ?_⟩
        unfold Buckets.rowsOf at *
        by_cases hk : k = bucket.1
        · subst hk
          rw [List.lookup_cons_self, List.lookup_cons_self]
          exact (dedupe_spec hdeduped).1
        · rw [Buckets.lookup_cons_ne (p := (bucket.1, deduped)) hk, Buckets.lookup_cons_ne hk]
          exact hsub k
      · cases hfirst

theorem dedupeFrom_distinct {seen : Seen} {items : List Value} (hids : DistinctIds items)
    (hsigned : ∀ item ∈ items, (tradeSemanticSignature item).isSome = true)
    (hseen : ∀ item ∈ items, seen.lookup (tradeId item) = none) :
    dedupeFrom seen items = some items := by
  induction items generalizing seen with
  | nil => rfl
  | cons item items ih =>
      obtain ⟨signature, hsignature⟩ := Option.isSome_iff_exists.mp (hsigned item List.mem_cons_self)
      unfold DistinctIds at hids
      rw [List.map_cons, List.nodup_cons] at hids
      have hrest : dedupeFrom ((tradeId item, signature) :: seen) items = some items := ih hids.2
        (fun other hother => hsigned other (List.mem_cons_of_mem _ hother)) (fun other hother => by
          have hne : tradeId other ≠ tradeId item :=
            fun heq => hids.1 (List.mem_map.mpr ⟨other, hother, heq⟩)
          rw [Buckets.lookup_cons_ne hne]
          exact hseen other (List.mem_cons_of_mem _ hother))
      unfold dedupeFrom
      rw [hsignature, Option.bind_eq_bind, Option.bind_some, hseen item List.mem_cons_self]
      dsimp only
      rw [hrest]
      rfl

/-- **Rows that pass the check are rewritten as they are.** -/
theorem compactRows_valid {cache : Rows} (h : Valid cache) : compactRows cache = some cache := by
  have hbuckets : ∀ buckets : Rows, (∀ bucket ∈ buckets, bucket ∈ cache) →
      compactRows buckets = some buckets := by
    intro buckets
    induction buckets with
    | nil => exact fun _ => rfl
    | cons bucket buckets ih =>
        intro hmem
        have hbucket := hmem bucket List.mem_cons_self
        have hrest := ih (fun b hb => hmem b (List.mem_cons_of_mem _ hb))
        have hfirst : dedupeTradeItemsById bucket.2 = some bucket.2 :=
          dedupeFrom_distinct (h.distinct bucket hbucket) (h.signed bucket hbucket)
            (fun _ _ => rfl)
        unfold compactRows at hrest ⊢
        rw [List.mapM_cons, hrest, if_pos (List.all_eq_true.mpr (h.rows bucket hbucket)), hfirst]
        rfl
  exact hbuckets cache (fun _ hb => hb)

/-- The manager with the rows that a rewrite writes. -/
def Manager.withRows (mgr : Manager) (cache : Rows) : Manager := { mgr with cache := cache }

theorem Shape.compact {mgr : Manager} (h : Shape mgr) {cache : Rows}
    (hcache : compactRows mgr.cache = some cache) : Shape (mgr.withRows cache) := by
  obtain ⟨hkeys, -⟩ := compactRows_spec hcache
  refine ⟨?_, ?_, h.counts⟩
  · intro bucket hbucket
    have hmem : bucket.1 ∈ mgr.cache.map Prod.fst := by
      rw [← hkeys]
      exact List.mem_map.mpr ⟨bucket, hbucket, rfl⟩
    obtain ⟨bucket', hbucket', heq⟩ := List.mem_map.mp hmem
    rw [← heq]
    exact h.symbols bucket' hbucket'
  · show (cache.map Prod.fst).Nodup
    rw [hkeys]
    exact h.keys

/-- The manifest of a rewrite by `mgr`, under the `n`-th name, is on disk. -/
structure Rewritten (env : Env) (mgr : Manager) (n : Nat) (c : Core) : Prop where
  holds : Holds env c.disk (compactManifest env (env.uuid n) mgr) (Buckets.flat mgr.cache)
  intact : Intact c.disk (compactManifest env (env.uuid n) mgr) (Buckets.flat mgr.cache)
  drawn : c.drawn = n + 1

section Publish

variable {mgr : Manager} {n : Nat} {staged : Bool} {R : Disk → Prop}

/-- The new rows are in their file, and the manifest is still the old one. -/
structure Replaced (R : Disk → Prop) (mgr : Manager) (n : Nat) (c : Core) : Prop where
  disk : R c.disk
  manager : c.manager = mgr
  drawn : c.drawn = n

theorem restore_does (hrestore : ∀ d, R d → R d.restorePrevious) :
    Does (Replaced R mgr n) restorePrevious (fun _ => Replaced R mgr n)
      (fun _ => Replaced R mgr n) := by
  have hback : ∀ c, Replaced R mgr n c → Replaced R mgr n (c.onDisk Disk.restorePrevious) :=
    fun c hc => ⟨hrestore _ hc.disk, hc.manager, hc.drawn⟩
  exact Does.diskOp hback (Does.applied _ (fun _ hc => hc) hback)
    (Does.applied _ (fun _ hc => hc) hback)

theorem rollBack_does (hrestore : staged = true → ∀ d, R d → R d.restorePrevious) :
    Does (Replaced R mgr n) (rollBackCompacted staged) (fun _ => Replaced R mgr n)
      (fun stop c => stop = .crash ∧ Replaced R mgr n c) := by
  refine Does.ite (fun hstaged => ?_) (fun _ => Does.pure (fun _ hc => hc))
  have hback : Does (Replaced R mgr n) _ _ _ := restore_does (hrestore hstaged)
  refine Does.bind (Q := fun _ => Replaced R mgr n)
    (Does.attempt (fun _ => Replaced R mgr n) hback (fun _ hc => ⟨rfl, hc⟩) (fun _ _ hc => hc))
    (fun first => Does.ite (fun _ => Does.getCore (fun c hc => ?_))
      (fun _ => Does.pure (fun _ hc => hc)))
  refine Does.ite (fun _ => ?_) (fun _ => Does.pure ?_)
  · refine Does.catching (fun _ => Replaced R mgr n)
      (hback.conseq (fun c' hc' => ?_) (fun _ _ hc => hc) (fun _ _ hc => hc)) (fun _ hc => ⟨rfl, hc⟩)
      (fun _ => Does.pure (fun _ hc => hc))
    rw [hc']
    exact hc
  · rintro c' rfl
    exact hc

/-- The new manifest stands, and the file of the rows covers it. -/
structure Standing (env : Env) (m : Manifest) (records : List Record) (mgr : Manager) (n : Nat)
    (c : Core) : Prop where
  holds : Holds env c.disk m records
  intact : Intact c.disk m records
  manager : c.manager = mgr
  drawn : c.drawn = n

theorem discardStaged_does {m' : Manifest} {records' : List Record} :
    Does (Standing env m' records' mgr n) (discardStaged staged)
      (fun _ => Standing env m' records' mgr n)
      (fun stop c => stop = .crash ∧ Standing env m' records' mgr n c) := by
  refine Does.ite (fun _ => Does.discardPrevious ?_ ?_ ?_) (fun _ => Does.pure (fun _ hc => hc))
  · exact fun c hc => ⟨hc.holds.discard hc.intact, hc.intact, hc.manager, hc.drawn⟩
  · exact fun c hc => hc
  · exact fun c hc =>
      ⟨⟨rfl, hc⟩, rfl, hc.holds.discard hc.intact, hc.intact, hc.manager, hc.drawn⟩

/-- What a rewrite comes to once its rows are in their file. -/
def PublishEnds (env : Env) (R : Disk → Prop) (mgr : Manager) (n : Nat) (ok : Bool) (c : Core) :
    Prop :=
  if ok then
    Rewritten env mgr n c ∧ c.manager = mgr.commit (compactManifest env (env.uuid n) mgr)
  else Replaced R { mgr with needsRewrite := true } (n + 1) c

theorem rewriteLater_does {P : Core → Prop} {Q : Unit → Core → Prop} {E : Stop → Core → Prop}
    (h : ∀ c, P c → Q () (c.onManager (fun mgr => { mgr with needsRewrite := true }))) :
    Does P rewriteLater Q E := by
  unfold rewriteLater
  exact Does.modifyCore h

theorem publish_does (henv : env.Sound) (hshape : Shape mgr) (hvalid : Valid mgr.cache)
    (hrestore : staged = true → ∀ d, R d → R d.restorePrevious) :
    Does (fun c => Replaced R mgr n c ∧
        c.disk.data = some (Journal.encode writeRecord (Buckets.flat mgr.cache)))
      (publishCompacted env staged) (PublishEnds env R mgr n)
      (fun stop c => stop = .crash ∧
        (R c.disk ∧ c.drawn = n + 1 ∨ Rewritten env mgr n c)) := by
  have hcertified := certified_compact henv hshape hvalid n
  refine Does.bind (Q := fun stream c => stream = env.uuid n ∧ Replaced R mgr (n + 1) c ∧
    c.disk.data = some (Journal.encode writeRecord (Buckets.flat mgr.cache))) ?_
    (fun stream => Does.of_fact ?_)
  · refine Does.getCore ?_
    rintro c ⟨hc, hdata⟩
    refine Does.bind (Q := fun _ c' => c' = { c with drawn := c.drawn + 1 }) (Does.modifyCore ?_)
      (fun _ => Does.pure ?_)
    · rintro c' rfl
      rfl
    · rintro c' rfl
      exact ⟨by rw [hc.drawn], ⟨hc.disk, hc.manager, by rw [← hc.drawn]⟩, hdata⟩
  · rintro rfl
    refine Does.getCore ?_
    rintro c ⟨hc, hdata⟩
    rw [hc.manager]
    -- the file was replaced already, so its bytes are what the manifest says
    have hcovers : Covers c.disk.data (compactManifest env (env.uuid n) mgr).committedBytes
        (Buckets.flat mgr.cache) := by
      rw [hdata]
      exact covers_encode (flat_rows hvalid)
    have hwritten : Holds env (c.disk.writeManifest (compactManifest env (env.uuid n) mgr))
        (compactManifest env (env.uuid n) mgr) (Buckets.flat mgr.cache) :=
      { manifest := load_toJson hcertified.ok (.inl rfl)
        certified := hcertified
        kept := .inl hcovers }
    refine Does.bind (Q := fun ok c' =>
      if ok then c' = c.onDisk (·.writeManifest (compactManifest env (env.uuid n) mgr)) else c' = c)
      (Does.writeMeta ?_ ?_ ?_) (fun ok => ?_)
    · rintro c' rfl
      rfl
    · rintro c' rfl
      rfl
    · rintro c' rfl
      exact ⟨⟨rfl, .inl ⟨hc.disk, hc.drawn⟩⟩, rfl, .inr ⟨hwritten, hcovers, hc.drawn⟩⟩
    -- the manifest stands or falls with its own write
    · cases ok with
      | true =>
          refine Does.bind (Q := fun _ => Standing env (compactManifest env (env.uuid n) mgr)
              (Buckets.flat mgr.cache) mgr (n + 1))
            (discardStaged_does.conseq ?_ (fun _ _ hc => hc) ?_) (fun _ => ?_)
          · rintro c' rfl
            exact ⟨hwritten, hcovers, hc.manager, hc.drawn⟩
          · exact fun stop c' hc' =>
              ⟨hc'.1, .inr ⟨hc'.2.holds, hc'.2.intact, hc'.2.drawn⟩⟩
          · refine Does.bind (Q := fun _ => PublishEnds env R mgr n true) (Does.modifyCore ?_)
              (fun _ => Does.pure (fun _ hc => hc))
            intro c' hc'
            refine ⟨⟨hc'.holds, hc'.intact, hc'.drawn⟩, ?_⟩
            show c'.manager.commit (compactManifest env (env.uuid n) mgr) = _
            rw [hc'.manager]
      | false =>
          refine Does.bind (Q := fun _ => Replaced R mgr (n + 1))
            ((rollBack_does hrestore).conseq ?_ (fun _ _ hc => hc) ?_) (fun _ => ?_)
          · rintro c' rfl
            exact hc
          · exact fun stop c' hc' => ⟨hc'.1, .inl ⟨hc'.2.disk, hc'.2.drawn⟩⟩
          · refine Does.bind (Q := fun _ => PublishEnds env R mgr n false) (rewriteLater_does ?_)
              (fun _ => Does.pure (fun _ hc => hc))
            intro c' hc'
            refine ⟨hc'.disk, ?_, hc'.drawn⟩
            show { c'.manager with needsRewrite := true } = _
            rw [hc'.manager]

end Publish

section Compact

variable {S B : Disk → Prop} {R : Rows → Disk → Prop}

/-- The disk after the rows were replaced by those of a rewrite. -/
def ReplacedBy (R : Rows → Disk → Prop) (mgr : Manager) (d : Disk) : Prop :=
  ∃ cache, compactRows mgr.cache = some cache ∧ Valid cache ∧ R cache d

theorem replaceRows_does {mgr : Manager} {n : Nat}
    (hreplace : ∀ d cache, S d → compactRows mgr.cache = some cache → Valid cache →
      R cache (d.replaceData (Journal.encode writeRecord (Buckets.flat cache)))) :
    Does (Replaced S mgr n) replaceRows
      (fun _ c => ∃ cache, compactRows mgr.cache = some cache ∧ Valid cache ∧
        Replaced (R cache) (mgr.withRows cache) n c ∧
        c.disk.data = some (Journal.encode writeRecord (Buckets.flat cache)))
      (fun stop c => c.drawn = n ∧
        (stop = .crash ∧ ReplacedBy R mgr c.disk ∨ S c.disk ∧ ∃ cache,
          (cache = mgr.cache ∨ compactRows mgr.cache = some cache) ∧
            c.manager = mgr.withRows cache)) := by
  refine Does.getCore (fun c hc => ?_)
  rw [hc.manager]
  cases hcache : compactRows mgr.cache with
  | none =>
      refine Does.raise ?_
      rintro c' rfl
      exact ⟨hc.drawn, .inr ⟨hc.disk, mgr.cache, .inl rfl, hc.manager⟩⟩
  | some cache =>
      have hmanager : c.manager.withRows cache = mgr.withRows cache := by rw [hc.manager]
      refine Does.bind (Q := fun _ c' => c' = c.onManager (·.withRows cache)) (Does.modifyCore ?_)
        (fun _ => Does.ite (fun hcheck => ?_) (fun _ => Does.raise ?_))
      · rintro c' rfl
        rfl
      · have hvalid := validateAccountRows_valid hcheck
        refine Does.diskOp ?_ ?_ ?_
        · rintro c' rfl
          exact ⟨cache, rfl, hvalid, ⟨hreplace _ _ hc.disk hcache hvalid, hmanager, hc.drawn⟩, rfl⟩
        · rintro c' applied junk rfl
          exact ⟨hc.drawn, .inr ⟨hc.disk, cache, .inr rfl, hmanager⟩⟩
        · rintro c' applied junk rfl
          cases applied with
          | false => exact ⟨hc.drawn, .inr ⟨hc.disk, cache, .inr rfl, hmanager⟩⟩
          | true =>
              exact ⟨hc.drawn, .inl ⟨rfl, cache, hcache, hvalid, hreplace _ _ hc.disk hcache hvalid⟩⟩
      · rintro c' rfl
        exact ⟨hc.drawn, .inr ⟨hc.disk, cache, .inr rfl, hmanager⟩⟩

/-- What a rewrite comes to: its rows are certified, or the disk is as `B` says. -/
def CompactEnds (env : Env) (B : Disk → Prop) (c₀ : Core) (ok : Bool) (c : Core) : Prop :=
  if ok then
    ∃ cache, compactRows c₀.manager.cache = some cache ∧ Valid cache ∧
      Rewritten env (c₀.manager.withRows cache) c₀.drawn c ∧
      c.manager = (c₀.manager.withRows cache).commit
        (compactManifest env (env.uuid c₀.drawn) (c₀.manager.withRows cache))
  else
    B c.disk ∧ c₀.drawn ≤ c.drawn ∧ ∃ cache,
      (cache = c₀.manager.cache ∨ compactRows c₀.manager.cache = some cache) ∧
        c.manager = { c₀.manager.withRows cache with needsRewrite := true }

/-- A rewrite that is cut short. -/
def CompactStops (env : Env) (B : Disk → Prop) (c₀ : Core) (stop : Stop) (c : Core) : Prop :=
  stop = .crash ∧ (B c.disk ∧ c₀.drawn ≤ c.drawn ∨ ∃ cache,
    compactRows c₀.manager.cache = some cache ∧ Valid cache ∧
      Rewritten env (c₀.manager.withRows cache) c₀.drawn c)

/-- What a rewrite comes to before its manifest: nothing was replaced, or the new rows are in their
file. -/
def WrittenEnds (B : Disk → Prop) (R : Rows → Disk → Prop) (staged : Bool) (c₀ : Core) :
    Option Bool → Core → Prop
  | none, c => B c.disk ∧ c.drawn = c₀.drawn ∧ ∃ cache,
      (cache = c₀.manager.cache ∨ compactRows c₀.manager.cache = some cache) ∧
        c.manager = c₀.manager.withRows cache
  | some ok, c => ok = staged ∧ ∃ cache, compactRows c₀.manager.cache = some cache ∧
      Valid cache ∧ Replaced (R cache) (c₀.manager.withRows cache) c₀.drawn c ∧
      c.disk.data = some (Journal.encode writeRecord (Buckets.flat cache))

/-- A rewrite, from what staging the generation before leaves (`S`), over the new rows under the
old manifest (`R`). -/
theorem compact_does (henv : env.Sound) (hshape : Shape c₀.manager) {staged : Bool}
    (hstage : Does (· = c₀) (stageGeneration env)
      (fun ok c => ok = staged ∧ Replaced S c₀.manager c₀.drawn c)
      (fun _ => Replaced B c₀.manager c₀.drawn))
    (hS : ∀ d, S d → B d)
    (hreplace : ∀ d cache, S d → compactRows c₀.manager.cache = some cache → Valid cache →
      R cache (d.replaceData (Journal.encode writeRecord (Buckets.flat cache))))
    (hR : ∀ d, ReplacedBy R c₀.manager d → B d)
    (hrestore : staged = true → ∀ cache d, R cache d → R cache d.restorePrevious) :
    Does (· = c₀) (compactGenerationLocked env) (CompactEnds env B c₀) (CompactStops env B c₀) := by
  refine Does.bind (Q := WrittenEnds B R staged c₀)
    (Does.attempt (fun stop c => B c.disk ∧ c.drawn = c₀.drawn ∧ (stop = .crash ∨ ∃ cache,
        (cache = c₀.manager.cache ∨ compactRows c₀.manager.cache = some cache) ∧
          c.manager = c₀.manager.withRows cache)) ?_ ?_ ?_) (fun ok => ?_)
  · -- staging, then the new file
    refine Does.bind (hstage.conseq (fun _ hc => hc) (fun _ _ hc => hc) ?_)
      (fun ok => Does.of_fact ?_)
    · exact fun stop c hc => ⟨hc.disk, hc.drawn, .inr ⟨_, .inl rfl, hc.manager⟩⟩
    · rintro rfl
      refine Does.bind ((replaceRows_does hreplace).conseq (fun _ hc => hc) (fun _ _ hc => hc) ?_)
        (fun _ => Does.pure (fun c hc => ⟨rfl, hc⟩))
      rintro stop c ⟨hdrawn, ⟨hstop, hreplaced⟩ | ⟨hdisk, hmanager⟩⟩
      · exact ⟨hR _ hreplaced, hdrawn, .inl hstop⟩
      · exact ⟨hS _ hdisk, hdrawn, .inr hmanager⟩
  · exact fun c hc => ⟨rfl, .inl ⟨hc.1, Nat.le_of_eq hc.2.1.symm⟩⟩
  · exact fun e c hc => ⟨hc.1, hc.2.1, hc.2.2.resolve_left (fun h => by cases h)⟩
  · cases ok with
    | none =>
        -- the new file was not written: the next save must rewrite it
        refine Does.bind (Q := fun _ => CompactEnds env B c₀ false) (rewriteLater_does ?_)
          (fun _ => Does.pure (fun _ hc => hc))
        rintro c ⟨hdisk, hdrawn, cache, hcache, hmanager⟩
        refine ⟨hdisk, Nat.le_of_eq hdrawn.symm, cache, hcache, ?_⟩
        show { c.manager with needsRewrite := true } = _
        rw [hmanager]
    | some ok =>
        refine Does.of_fact ?_
        rintro rfl w ⟨cache, hcache, hvalid, hreplaced, hdata⟩
        -- the rows are in place; the manifest decides whether they count
        refine (publish_does henv (hshape.compact hcache) hvalid
          (fun hstaged => hrestore hstaged cache)).conseq (fun _ hc => hc) ?_ ?_ w
          ⟨hreplaced, hdata⟩
        · intro ok c hc
          cases ok with
          | true => exact ⟨cache, hcache, hvalid, hc⟩
          | false =>
              refine ⟨hR _ ⟨cache, hcache, hvalid, hc.disk⟩, ?_, cache, .inr hcache, hc.manager⟩
              rw [hc.drawn]
              exact Nat.le_succ _
        · rintro stop c ⟨hstop, ⟨hdisk, hdrawn⟩ | hrewritten⟩
          · refine ⟨hstop, .inl ⟨hR _ ⟨cache, hcache, hvalid, hdisk⟩, ?_⟩⟩
            rw [hdrawn]
            exact Nat.le_succ _
          · exact ⟨hstop, .inr ⟨cache, hcache, hvalid, hrewritten⟩⟩

/-! ## Over a certified generation -/

/-- The certified generation has a second name. -/
structure StagedCopy (env : Env) (m : Manifest) (records : List Record) (d : Disk) : Prop where
  holds : Holds env d m records
  intact : Intact d m records
  copy : d.previous = some .linked ∨
    ∃ text, d.previous = some (.own text) ∧ Covers (some text) m.committedBytes records

/-- What comes back is certified. -/
structure Restorable (env : Env) (m : Manifest) (records : List Record) (d : Disk) : Prop where
  holds : Holds env d m records
  copy : ∀ text, d.previous = some (.own text) → Covers (some text) m.committedBytes records

theorem StagedCopy.replace {d : Disk} (h : StagedCopy env m records d) (text : List Char) :
    Restorable env m records (d.replaceData text) := by
  obtain ⟨t, ht, -⟩ := covers_iff.mp h.intact
  have hintact := h.intact
  unfold Intact at hintact
  rw [ht] at hintact
  -- the old rows are left under their second name
  have hcopy : ∃ old, (d.replaceData text).previous = some (.own old) ∧
      Covers (some old) m.committedBytes records := by
    unfold Disk.replaceData
    dsimp only
    rcases h.copy with hlinked | ⟨old, hown, hcovers⟩
    · rw [hlinked, ht]
      exact ⟨t, rfl, hintact⟩
    · rw [hown]
      exact ⟨old, rfl, hcovers⟩
  obtain ⟨old, hold, hcovers⟩ := hcopy
  have hprevious : (d.replaceData text).previousText = some old := by
    unfold Disk.previousText
    rw [hold]
  refine ⟨⟨h.holds.manifest, h.holds.certified, .inr ?_⟩, ?_⟩
  · rw [hprevious]
    exact hcovers
  · intro text' htext'
    rw [hold] at htext'
    cases htext'
    exact hcovers

theorem Restorable.restore {d : Disk} (h : Restorable env m records d) :
    Restorable env m records d.restorePrevious := by
  unfold Disk.restorePrevious
  cases hprevious : d.previous with
  | none => exact h
  | some previous =>
      cases previous with
      | linked => exact h
      | own text =>
          refine ⟨⟨h.holds.manifest, h.holds.certified, .inl (h.copy text hprevious)⟩, ?_⟩
          intro text' htext'
          cases htext'

theorem stage_ready_does (henv : env.Sound) (h : Holds env c₀.disk m records) :
    Does (· = c₀) (stageGeneration env)
      (fun ok c => ok = true ∧ Replaced (StagedCopy env m records) c₀.manager c₀.drawn c)
      (fun _ => Replaced (fun d => Holds env d m records) c₀.manager c₀.drawn) := by
  refine Does.getCore ?_
  rintro c rfl
  rw [h.manifest]
  refine Does.getCore ?_
  rintro c' rfl
  by_cases hintact : Intact c'.disk m records
  · obtain ⟨t, ht, -⟩ := covers_iff.mp hintact
    have hcopy : StagedCopy env m records (c'.disk.stagePrevious env.links) := by
      refine ⟨⟨h.manifest, h.certified, .inl hintact⟩, hintact, ?_⟩
      unfold Disk.stagePrevious
      cases env.links with
      | true => exact .inl rfl
      | false =>
          have hcovers := hintact
          unfold Intact at hcovers
          rw [ht] at hcovers
          exact .inr ⟨t, by rw [ht]; rfl, hcovers⟩
    rw [snapshot_covers henv h.certified hintact]
    refine Does.bind (Q := fun _ => Replaced (StagedCopy env m records) c'.manager c'.drawn)
      (Does.diskOp ?_ ?_ ?_) (fun _ => Does.pure (fun _ hc => ⟨rfl, hc⟩))
    · rintro c rfl
      exact ⟨hcopy, rfl, rfl⟩
    · rintro c applied junk rfl
      cases applied with
      | false => exact ⟨h, rfl, rfl⟩
      | true => exact ⟨hcopy.holds, rfl, rfl⟩
    · rintro c applied junk rfl
      cases applied with
      | false => exact ⟨h, rfl, rfl⟩
      | true => exact ⟨hcopy.holds, rfl, rfl⟩
  · rw [snapshot_none henv h.certified hintact]
    refine Does.raise ?_
    rintro c rfl
    exact ⟨h, rfl, rfl⟩

/-- **A rewrite of a certified generation**, whatever fails: the new rows are certified, or the old
ones are. -/
theorem compact_ready_does (henv : env.Sound) (h : Holds env c₀.disk m records)
    (hshape : Shape c₀.manager) :
    Does (· = c₀) (compactGenerationLocked env)
      (CompactEnds env (fun d => Holds env d m records) c₀)
      (CompactStops env (fun d => Holds env d m records) c₀) :=
  compact_does (R := fun _ => Restorable env m records) henv hshape (stage_ready_does henv h)
    (fun _ hd => hd.holds) (fun _ _ hd _ _ => hd.replace _)
    (fun _ hd => by
      obtain ⟨_, _, _, hd⟩ := hd
      exact hd.holds)
    (fun _ _ _ hd => hd.restore)

/-! ## Without a manifest -/

/-- The lines of the file are those from before, or the rows of a rewrite. -/
structure Unversioned (c₀ : Core) (d : Disk) : Prop where
  manifest : d.manifest = c₀.disk.manifest
  data : d.data = c₀.disk.data ∨ ∃ cache, compactRows c₀.manager.cache = some cache ∧ Valid cache ∧
    d.data = some (Journal.encode writeRecord (Buckets.flat cache))

theorem stage_absent_does
    (habsent : loadVersionedAccountMeta env c₀.disk.manifest none = .absent) :
    Does (· = c₀) (stageGeneration env)
      (fun ok c => ok = false ∧ Replaced (fun d => d.manifest = c₀.disk.manifest ∧
        d.data = c₀.disk.data) c₀.manager c₀.drawn c)
      (fun _ => Replaced (Unversioned c₀) c₀.manager c₀.drawn) := by
  refine Does.getCore ?_
  rintro c rfl
  rw [habsent]
  refine Does.bind (Q := fun _ => Replaced (fun d => d.manifest = c.disk.manifest ∧
      d.data = c.disk.data) c.manager c.drawn)
    (Does.discardPrevious ?_ ?_ ?_) (fun _ => Does.pure (fun _ hc => ⟨rfl, hc⟩))
  · rintro c' rfl
    exact ⟨⟨rfl, rfl⟩, rfl, rfl⟩
  · rintro c' rfl
    exact ⟨⟨rfl, rfl⟩, rfl, rfl⟩
  · rintro c' rfl
    exact ⟨⟨⟨rfl, .inl rfl⟩, rfl, rfl⟩, ⟨rfl, .inl rfl⟩, rfl, rfl⟩

/-- **A rewrite of a file without a manifest.** -/
theorem compact_absent_does (henv : env.Sound)
    (habsent : loadVersionedAccountMeta env c₀.disk.manifest none = .absent)
    (hshape : Shape c₀.manager) :
    Does (· = c₀) (compactGenerationLocked env) (CompactEnds env (Unversioned c₀) c₀)
      (CompactStops env (Unversioned c₀) c₀) :=
  compact_does (R := fun cache d => d.manifest = c₀.disk.manifest ∧
      d.data = some (Journal.encode writeRecord (Buckets.flat cache)))
    henv hshape (stage_absent_does habsent) (fun _ hd => ⟨hd.1, .inl hd.2⟩)
    (fun _ _ hd _ _ => ⟨hd.1, rfl⟩)
    (fun _ hd => by
      obtain ⟨cache, hcache, hvalid, hmanifest, hdata⟩ := hd
      exact ⟨hmanifest, .inr ⟨cache, hcache, hvalid, hdata⟩⟩)
    (fun hstaged => by cases hstaged)

end Compact

end TradingFleet.Cache
