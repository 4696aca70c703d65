import TradingFleet.Cache.Certified

set_option autoImplicit false

/-! # Loading a generation

The disk holds what its manifest certifies (`Holds`) when the file of the rows covers it, or the
generation before does: a rewrite that was cut short leaves it there. A load finds the certified
records either way, and a load that meets no fault returns them (`recovered_holds`). Without a
manifest every line of the file is a row, and rows that a rewrite wrote are read back.
-/

namespace TradingFleet.Cache

open JsonText Hoare

variable {env : Env} {m : Manifest} {records : List Record} {d : Disk}

/-- The disk holds the records that its manifest certifies. -/
structure Holds (env : Env) (d : Disk) (m : Manifest) (records : List Record) : Prop where
  manifest : loadVersionedAccountMeta env d.manifest none = .ready m
  certified : Certified env m records
  kept : Covers d.data m.committedBytes records ∨ Covers d.previousText m.committedBytes records

/-- The file of the rows covers them itself. -/
def Intact (d : Disk) (m : Manifest) (records : List Record) : Prop :=
  Covers d.data m.committedBytes records

/-! ## The files -/

theorem Holds.discard (h : Holds env d m records) (hintact : Intact d m records) :
    Holds env d.discardPrevious m records :=
  { manifest := h.manifest, certified := h.certified, kept := .inl hintact }

/-- Where the rows are not covered by their file, the generation before has a file of its own. -/
theorem Holds.own (h : Holds env d m records) (htorn : ¬ Intact d m records) :
    ∃ text, d.previous = some (.own text) ∧ Covers (some text) m.committedBytes records := by
  have hkept := h.kept.resolve_left htorn
  unfold Disk.previousText at hkept
  cases hprevious : d.previous with
  | none =>
      rw [hprevious] at hkept
      cases hkept
  | some previous =>
      cases previous with
      | linked =>
          rw [hprevious] at hkept
          exact absurd hkept htorn
      | own text =>
          rw [hprevious] at hkept
          exact ⟨text, rfl, hkept⟩

/-- What comes back covers the rows again. -/
theorem Holds.restore (h : Holds env d m records) (htorn : ¬ Intact d m records) :
    Holds env d.restorePrevious m records ∧ Intact d.restorePrevious m records := by
  obtain ⟨text, hprevious, hcovers⟩ := h.own htorn
  have hrestore : d.restorePrevious = { d with data := some text, previous := none } := by
    unfold Disk.restorePrevious
    rw [hprevious]
  rw [hrestore]
  exact ⟨{ manifest := h.manifest, certified := h.certified, kept := .inl hcovers }, hcovers⟩

/-! ## A restart -/

/-- A new manager loads the files, and no operation fails. -/
def restart (env : Env) (d : Disk) : EStateM.Result Stop World Unit :=
  loadJsonlGenerationLocked env
    { core := { disk := d, manager := Manager.fresh, drawn := 0 }, faults := [] }

/-- The rows that a restart finds. -/
def recovered (env : Env) (d : Disk) : Option Rows :=
  match restart env d with
  | .ok _ w => some w.core.manager.cache
  | .error _ _ => none

theorem snapshot_covers (henv : env.Sound) (h : Certified env m records)
    {text : Option (List Char)} (hcovers : Covers text m.committedBytes records) :
    readTradeSnapshotStrict env m text = some (Buckets.group records, m.counts) :=
  (snapshot_iff henv h).mpr ⟨hcovers, rfl⟩

theorem snapshot_none (henv : env.Sound) (h : Certified env m records)
    {text : Option (List Char)} (hcovers : ¬ Covers text m.committedBytes records) :
    readTradeSnapshotStrict env m text = none := by
  cases hread : readTradeSnapshotStrict env m text with
  | none => rfl
  | some snapshot => exact absurd ((snapshot_iff henv h).mp hread).1 hcovers

theorem load_ready (h : loadVersionedAccountMeta env d.manifest none = .ready m) (mgr : Manager)
    (drawn : Nat) (faults : List Fault) :
    loadJsonlGenerationLocked env ⟨⟨d, mgr, drawn⟩, faults⟩ =
      loadReady env m ⟨⟨d, mgr, drawn⟩, faults⟩ := by
  rw [loadJsonlGenerationLocked, getCore_bind]
  dsimp only
  rw [h]

/-- **A restart finds what is certified**, in the file of the rows or in the one before. -/
theorem recovered_holds (henv : env.Sound) (h : Holds env d m records) :
    recovered env d = some (Buckets.group records) := by
  unfold recovered restart
  rw [load_ready h.manifest, loadReady, getCore_bind]
  dsimp only
  by_cases hintact : Intact d m records
  · rw [snapshot_covers henv h.certified hintact]
    rfl
  · rw [snapshot_none henv h.certified hintact]
    dsimp only
    rw [loadPrevious, getCore_bind]
    dsimp only
    rw [snapshot_covers henv h.certified (h.kept.resolve_left hintact)]
    rfl

/-- A restart finds the same on both disks, and the file of the rows still covers them where it
did. -/
structure Kept (env : Env) (m : Manifest) (records : List Record) (d d' : Disk) : Prop where
  holds : Holds env d' m records
  intact : Intact d m records → Intact d' m records

theorem Kept.refl (h : Holds env d m records) : Kept env m records d d := ⟨h, id⟩

/-- A load that returns. -/
structure Loaded (env : Env) (m : Manifest) (records : List Record) (c c' : Core) : Prop where
  kept : Kept env m records c.disk c'.disk
  intact : Intact c'.disk m records
  manager : c'.manager = c.manager.install m (Buckets.group records) m.counts
  drawn : c'.drawn = c.drawn

/-- An operation that changed the disk at most. -/
structure Passed (env : Env) (m : Manifest) (records : List Record) (c c' : Core) : Prop where
  kept : Kept env m records c.disk c'.disk
  manager : c'.manager = c.manager
  drawn : c'.drawn = c.drawn

theorem Passed.refl {c : Core} (h : Holds env c.disk m records) : Passed env m records c c :=
  ⟨.refl h, rfl, rfl⟩

theorem Passed.installed {c c' : Core} (h : Passed env m records c c')
    (hintact : Intact c'.disk m records) : Loaded env m records c
      (c'.onManager (·.install m (Buckets.group records) m.counts)) := by
  refine ⟨h.kept, hintact, ?_, h.drawn⟩
  show c'.manager.install m (Buckets.group records) m.counts = _
  rw [h.manager]

/-- **A load under faults** returns the certified records, or leaves the disk to the next load. -/
theorem load_does (henv : env.Sound) {c₀ : Core} (h : Holds env c₀.disk m records) :
    Does (· = c₀) (loadJsonlGenerationLocked env) (fun _ => Loaded env m records c₀)
      (fun _ => Passed env m records c₀) := by
  refine Does.getCore ?_
  rintro c rfl
  rw [h.manifest]
  refine Does.getCore ?_
  rintro c rfl
  by_cases hintact : Intact c.disk m records
  · have hdiscarded := h.discard hintact
    rw [snapshot_covers henv h.certified hintact]
    refine Does.bind (Q := fun _ c' => Passed env m records c c' ∧ Intact c'.disk m records)
      (Does.discardPrevious ?_ ?_ ?_) (fun _ => Does.modifyCore ?_)
    · rintro c rfl
      exact ⟨⟨⟨hdiscarded, fun _ => hintact⟩, rfl, rfl⟩, hintact⟩
    · rintro c rfl
      exact ⟨.refl h, hintact⟩
    · rintro c rfl
      exact ⟨.refl h, ⟨⟨hdiscarded, fun _ => hintact⟩, rfl, rfl⟩⟩
    · exact fun c' hc' => hc'.1.installed hc'.2
  · rw [snapshot_none henv h.certified hintact]
    obtain ⟨hback, hcovers⟩ := h.restore hintact
    refine Does.getCore ?_
    rintro c' rfl
    rw [snapshot_covers henv h.certified (h.kept.resolve_left hintact)]
    -- the restore raises before or after it took effect
    have hpassed : Passed env m records c' (c'.onDisk Disk.restorePrevious) :=
      ⟨⟨hback, fun _ => hcovers⟩, rfl, rfl⟩
    refine Does.bind (Q := fun _ c => Passed env m records c' c ∧ Intact c.disk m records)
      (Does.catching (fun _ => Passed env m records c') (Does.diskOp ?_ ?_ ?_) (fun _ hc => hc)
        (fun _ => Does.raise (fun _ hc => hc))) (fun _ => Does.modifyCore ?_)
    · rintro c rfl
      exact ⟨hpassed, hcovers⟩
    · rintro c applied junk rfl
      cases applied with
      | false => exact .refl h
      | true => exact hpassed
    · rintro c applied junk rfl
      cases applied with
      | false => exact .refl h
      | true => exact hpassed
    · exact fun c hc => hc.1.installed hc.2

/-! ## Without a manifest -/

theorem load_absent (habsent : loadVersionedAccountMeta env d.manifest none = .absent)
    {cache : Rows} (hload : legacyLoad d = .ok cache) (mgr : Manager) (drawn : Nat)
    (faults : List Fault) :
    loadJsonlGenerationLocked env ⟨⟨d, mgr, drawn⟩, faults⟩ =
      .ok () ⟨⟨d, mgr.installLegacy cache (legacyField d.manifest "fetchtime" (mapOf wholeOf)),
        drawn⟩, faults⟩ := by
  rw [loadJsonlGenerationLocked, getCore_bind]
  dsimp only
  rw [habsent]
  dsimp only
  rw [loadLegacy, getCore_bind]
  dsimp only
  rw [hload]
  rfl

theorem recovered_absent (habsent : loadVersionedAccountMeta env d.manifest none = .absent)
    {cache : Rows} (hload : legacyLoad d = .ok cache) : recovered env d = some cache := by
  unfold recovered restart
  rw [load_absent habsent hload]
  rfl

theorem stripChars_record (r : Record) : Text.stripChars (writeRecord r) = writeRecord r := by
  have hshape : ∃ l, writeRecord r = '{' :: (l ++ ['}']) := by
    refine ⟨dumpsField ("s", .str r.1) ++ ',' :: dumpsField ("i", r.2), ?_⟩
    unfold writeRecord
    rw [dumps, dumpsFields, dumpsFields]
    simp
  obtain ⟨l, hl⟩ := hshape
  unfold Text.stripChars
  rw [hl, List.dropWhile_cons_of_neg (by decide)]
  show (('{' :: (l ++ ['}'])).reverse.dropWhile Text.isSpace).reverse = _
  rw [← List.cons_append, List.reverse_append, List.reverse_singleton, List.singleton_append,
    List.dropWhile_cons_of_neg (by decide), List.reverse_cons, List.reverse_reverse]

/-- Rows with signatures and distinct IDs are read one after the other. -/
theorem legacyRows_encode (expected : Option (List (String × Nat))) {rows : List Record}
    (hrows : ∀ r ∈ rows, isRow r.1 r.2 = true)
    (hsigned : ∀ r ∈ rows, (tradeSemanticSignature r.2).isSome = true)
    (hdistinct : (rows.map fillKey).Nodup) (cache : Rows)
    (seen : List ((String × Int) × TradeSignature))
    (hseen : ∀ r ∈ rows, seen.lookup (fillKey r) = none) :
    legacyRows expected cache seen (rows.map writeRecord) = .ok (Buckets.addRows cache rows) := by
  induction rows generalizing cache seen with
  | nil => rfl
  | cons r rows ih =>
      obtain ⟨signature, hsignature⟩ := Option.isSome_iff_exists.mp (hsigned r List.mem_cons_self)
      rw [List.map_cons, List.nodup_cons] at hdistinct
      have hrest := ih (fun r hr => hrows r (List.mem_cons_of_mem _ hr))
        (fun r hr => hsigned r (List.mem_cons_of_mem _ hr)) hdistinct.2
        (Buckets.addRow cache r.1 r.2) ((fillKey r, signature) :: seen) ?_
      · have hloads : loads (writeRecord r) = some (.obj [("s", .str r.1), ("i", r.2)]) :=
          loads_dumps _
        have hfilled : writeRecord r ≠ [] := by
          intro hnil
          have hline := (writeRecord_line r).filled
          rw [hnil] at hline
          cases hline
        rw [List.map_cons, legacyRows, stripChars_record, if_pos hfilled, hloads]
        dsimp only
        rw [recordOf_obj (hrows r List.mem_cons_self)]
        dsimp only
        rw [hsignature]
        dsimp only
        rw [hseen r List.mem_cons_self]
        exact hrest
      · intro r' hr'
        have hne : fillKey r' ≠ fillKey r :=
          fun heq => hdistinct.1 (List.mem_map.mpr ⟨r', hr', heq⟩)
        rw [Buckets.lookup_cons_ne hne]
        exact hseen r' (List.mem_cons_of_mem _ hr')

theorem splitLines_encode (rows : List Record) :
    Journal.splitLines (Journal.encode writeRecord rows) = rows.map writeRecord := by
  induction rows with
  | nil => rfl
  | cons r rows ih =>
      rw [Journal.encode_cons, Journal.splitLines_cons (writeRecord_line r), ih, List.map_cons]

/-- **Rows that are written without a manifest are read back.** -/
theorem legacyLoad_encode {rows : List Record} (hdata : d.data = some (Journal.encode writeRecord rows))
    (hrows : ∀ r ∈ rows, isRow r.1 r.2 = true)
    (hsigned : ∀ r ∈ rows, (tradeSemanticSignature r.2).isSome = true)
    (hdistinct : (rows.map fillKey).Nodup) : legacyLoad d = .ok (Buckets.group rows) := by
  unfold legacyLoad
  rw [hdata, Option.getD_some, splitLines_encode]
  exact legacyRows_encode _ hrows hsigned hdistinct [] [] (fun _ _ => rfl)

end TradingFleet.Cache
