import TradingFleet.Basic.Runs
import TradingFleet.Cache.Fleet

set_option autoImplicit false

/-! # What a restart finds

Each step of a fleet leaves on disk the rows that were there, or those that the step was writing
(`step_sane`), and a save that returns `True` leaves the memory. So a restart finds one of these
after every step of every run (`restart_finds`).
-/

namespace TradingFleet.Cache

open JsonText Hoare

variable {env : Env} {d : Disk} {n : Nat} {rows rows' : String → List Value} {s : Fleet} {p : Nat}
  {process : Process}

/-! ## The steps -/

/-- The rows that an action writes. -/
def Action.writes (env : Env) (mgr : Manager) : Action → Option (String → List Value)
  | .save _ => some (Buckets.rowsOf mgr.cache)
  | .prune cutoff _ => some (Buckets.rowsOf (Cache.prune cutoff mgr.cache))
  | .rotate _ => some (Buckets.rowsOf (keepLatest env mgr.cache))
  | _ => none

/-- A manager that saves does not append to a file that lost rows, whoever lost them. -/
def SafeSave (env : Env) (s : Fleet) (e : Event) : Prop :=
  match e.action with
  | .save _ => ∀ process, s.processes e.process = some process → Careful env s.disk process.manager
  | _ => True

theorem Sane.begins (h : Sane env rows s) (hprocess : s.processes p = some process) :
    Begins env rows (s.core process.manager) :=
  ⟨h.stands, h.named, (h.holder p process hprocess).knows⟩

theorem Sane.change (h : Sane env rows s) : Change env s.disk s.drawn s.disk s.drawn := by
  have hstands := h.stands
  cases hstands with
  | certified hholds => exact .kept _ _ hholds hholds (Nat.le_refl _)
  | legacy habsent _ _ _ => exact .unversioned habsent habsent (Nat.le_refl _)

/-- A step in memory. -/
theorem edits_sane (henv : env.Sound) (h : Sane env rows s) {o : Option Process}
    (hleft : ∀ process, o = some process → Holder env (s.leave p s.disk s.drawn o) process) :
    Sane env rows (s.leave p s.disk s.drawn o) :=
  h.leave henv h.change h.stands hleft

theorem leave_self {disk : Disk} {drawn : Nat} {left : Option Process} :
    (s.leave p disk drawn left).processes p = left := if_pos rfl

theorem leave_other {disk : Disk} {drawn : Nat} {left : Option Process} {q : Nat} (hq : q ≠ p) :
    (s.leave p disk drawn left).processes q = s.processes q := if_neg hq

/-- The process that is left has these rows in memory, and is as careful as before. -/
def Continues (env : Env) (s : Fleet) (process : Process) (memory : String → List Value)
    (s' : Fleet) (p : Nat) : Prop :=
  ∀ process', s'.processes p = some process' → Buckets.rowsOf process'.manager.cache = memory ∧
    (Careful env s.disk process.manager → Careful env s'.disk process'.manager)

theorem continues_left {memory : String → List Value} {disk : Disk} {drawn : Nat}
    {o : Option Process}
    (h : ∀ process', o = some process' → Buckets.rowsOf process'.manager.cache = memory ∧
      (Careful env s.disk process.manager → Careful env disk process'.manager)) :
    Continues env s process memory (s.leave p disk drawn o) p := by
  intro process' hprocess'
  rw [leave_self] at hprocess'
  exact h process' hprocess'

theorem starts_sane (henv : env.Sound) (h : Sane env rows s) (p : Nat) (faults : List Fault) :
    Sane env rows (s.starts env p faults) ∧
      (∀ mgr, Careful env s.disk mgr → Careful env (s.starts env p faults).disk mgr) ∧
      ∀ process, (s.starts env p faults).processes p = some process →
        Buckets.rowsOf process.manager.cache = rows ∧
          Careful env (s.starts env p faults).disk process.manager := by
  have hstands : Stands env (s.core Manager.fresh).disk rows := h.stands
  have hpost := load_settles henv hstands h.named (fun _ => ⟨rfl, rfl⟩) List.nodup_nil
    ⟨s.core Manager.fresh, faults⟩ rfl
  unfold Fleet.starts
  cases hload : loadJsonlGenerationLocked env ⟨s.core Manager.fresh, faults⟩ with
  | ok _ w =>
      rw [hload] at hpost
      obtain ⟨hsettles, hfresh⟩ := hpost
      refine ⟨h.leave henv hsettles.change hsettles.stands (fun process hprocess => ?_),
        hsettles.careful, fun process hprocess => ?_⟩
      swap
      · rw [leave_self] at hprocess
        cases hprocess
        exact ⟨hfresh.held, hfresh.careful⟩
      cases hprocess
      have hrecorded : ∀ i, w.core.manager.loaded = some i →
          Recorded env (w.core.disk :: s.passed) i := by
        intro i hi
        rcases hfresh.loaded with hsame | ⟨m, records, hholds, hloaded⟩
        · rw [hsame] at hi
          cases hi
        · rw [hloaded, Option.some.injEq] at hi
          exact ⟨w.core.disk, List.mem_cons_self, m, records, hholds, hi⟩
      exact
        { knows := hfresh.knows
          recorded := hrecorded
          remembers := hfresh.knows.remembers
          loadedKeys := hfresh.knows.loadedKeys
          asked := hrecorded }
  | error stop w =>
      rw [hload] at hpost
      refine ⟨h.leave henv hpost.1.change hpost.1.stands (fun process hnone => by cases hnone),
        hpost.1.careful, fun process hnone => ?_⟩
      rw [leave_self] at hnone
      cases hnone

theorem reload_sane (henv : env.Sound) (h : Sane env rows s)
    (hprocess : s.processes p = some process) (faults : List Fault) :
    Sane env rows (s.runs p process (loadJsonlGenerationLocked env) faults) ∧
      (∀ mgr, Careful env s.disk mgr →
        Careful env (s.runs p process (loadJsonlGenerationLocked env) faults).disk mgr) ∧
      ((∀ process', (s.runs p process (loadJsonlGenerationLocked env) faults).processes p =
          some process' → Buckets.rowsOf process'.manager.cache = rows ∧
            Careful env (s.runs p process (loadJsonlGenerationLocked env) faults).disk
              process'.manager) ∨
        Continues env s process (Buckets.rowsOf process.manager.cache)
          (s.runs p process (loadJsonlGenerationLocked env) faults) p) := by
  have hholder := h.holder p process hprocess
  have hbegins := h.begins hprocess
  rcases runs_cases (load_settles henv hbegins.stands hbegins.named hbegins.knows.unversioned
    hbegins.knows.loadedKeys) p faults with
    ⟨_, c, hc, hruns⟩ | ⟨c, hc, hruns⟩ | ⟨_, c, hc, hruns⟩
  · rw [hruns]
    refine ⟨h.leave henv hc.1.change hc.1.stands (fun process' hsome => ?_), hc.1.careful,
      .inl (fun process' hsome => ?_)⟩
    · cases hsome
      exact hholder.after hc.2.loaded hc.2.knows
    · rw [leave_self] at hsome
      cases hsome
      exact ⟨hc.2.held, hc.2.careful⟩
  · rw [hruns]
    refine ⟨h.leave henv hc.1.change hc.1.stands (fun process' hnone => by cases hnone),
      hc.1.careful, .inr (continues_left (fun process' hnone => by cases hnone))⟩
  · rw [hruns]
    refine ⟨h.leave henv hc.1.change hc.1.stands (fun process' hsome => ?_), hc.1.careful,
      .inr (continues_left (fun process' hsome => ?_))⟩
    · cases hsome
      refine hholder.after (.inl (by rw [hc.2])) ?_
      rw [hc.2]
      exact hholder.knows.change henv hc.1.change
    · cases hsome
      dsimp only
      rw [hc.2]
      exact ⟨rfl, hc.1.careful _⟩

theorem Leaves.sane (henv : env.Sound) (h : Sane env rows s) {mgr : Manager}
    {written : String → List Value} {c : Core} (hleaves : Leaves env rows written (s.core mgr) c)
    {o : Option Process}
    (hleft : ∀ process, o = some process → Holder env (s.leave p c.disk c.drawn o) process) :
    ∃ rows', Sane env rows' (s.leave p c.disk c.drawn o) ∧ (rows' = rows ∨ rows' = written) := by
  rcases hleaves.stands with hstands | hstands
  · exact ⟨rows, h.leave henv hleaves.change hstands hleft, .inl rfl⟩
  · exact ⟨written, h.leave henv hleaves.change hstands hleft, .inr rfl⟩

/-- What `save` returns. -/
def saveResult (env : Env) (s : Fleet) (process : Process) (faults : List Fault) : Option Bool :=
  match saveAccountTradeAppend env ⟨s.core process.manager, faults⟩ with
  | .ok ok _ => some ok
  | .error _ _ => none

/-- **A save** leaves the rows that were there or the memory, and the latter where it returns
`True`: then it takes nothing from the rows that were there, unless it rewrites the file. -/
theorem save_sane (henv : env.Sound) (h : Sane env rows s)
    (hprocess : s.processes p = some process) (hcareful : Careful env s.disk process.manager)
    (faults : List Fault) :
    ∃ rows', Sane env rows' (s.runs p process (saveAccountTradeAppend env) faults) ∧
      (rows' = rows ∨ rows' = Buckets.rowsOf process.manager.cache) ∧
      (saveResult env s process faults = some true →
        rows' = Buckets.rowsOf process.manager.cache ∧
          (process.manager.needsRewrite = false → ∀ k, rows k <+: rows' k)) ∧
      Continues env s process (Buckets.rowsOf process.manager.cache)
        (s.runs p process (saveAccountTradeAppend env) faults) p := by
  have hholder := h.holder p process hprocess
  have hpost := save_does henv (h.begins hprocess) hcareful ⟨s.core process.manager, faults⟩ rfl
  unfold Fleet.runs saveResult
  cases hsave : saveAccountTradeAppend env ⟨s.core process.manager, faults⟩ with
  | ok ok w =>
      rw [hsave] at hpost
      have hleft : ∀ process', some { process with manager := w.core.manager } = some process' →
          Holder env (s.leave p w.core.disk w.core.drawn
            (some { process with manager := w.core.manager })) process' := by
        intro process' hsome
        cases hsome
        exact hholder.after hpost.replies.loaded hpost.replies.knows
      have hcontinues : Continues env s process (Buckets.rowsOf process.manager.cache)
          (s.leave p w.core.disk w.core.drawn
            (some { process with manager := w.core.manager })) p := by
        refine continues_left (fun process' hsome => ?_)
        cases hsome
        exact ⟨hpost.replies.memory, hpost.careful⟩
      cases ok with
      | true =>
          refine ⟨Buckets.rowsOf process.manager.cache,
            h.leave henv hpost.replies.leaves.change (hpost.replies.stands rfl) hleft, .inr rfl, ?_⟩
          exact ⟨fun _ => ⟨rfl, hpost.grows rfl⟩, hcontinues⟩
      | false =>
          obtain ⟨rows', hsane, hrows'⟩ := hpost.replies.leaves.sane henv h hleft
          refine ⟨rows', hsane, hrows', fun hfalse => ?_, hcontinues⟩
          cases hfalse
  | error stop w =>
      rw [hsave] at hpost
      obtain ⟨rfl, hleaves⟩ := hpost
      obtain ⟨rows', hsane, hrows'⟩ := hleaves.sane henv h (o := none)
        (fun process' hnone => by cases hnone)
      refine ⟨rows', hsane, hrows', fun hfalse => ?_, continues_left (fun process' hnone => ?_)⟩
      · cases hfalse
      · cases hnone

theorem prune_sane (henv : env.Sound) (h : Sane env rows s)
    (hprocess : s.processes p = some process) (cutoff : Int) (faults : List Fault) :
    ∃ rows', Sane env rows' (s.runs p process (pruneOld env cutoff) faults) ∧
      (rows' = rows ∨ rows' = Buckets.rowsOf (prune cutoff process.manager.cache)) ∧
      Continues env s process (Buckets.rowsOf (prune cutoff process.manager.cache))
        (s.runs p process (pruneOld env cutoff) faults) p := by
  have hholder := h.holder p process hprocess
  rcases runs_cases (prune_does henv cutoff (h.begins hprocess)) p faults with
    ⟨_, c, hc, hruns⟩ | ⟨c, hc, hruns⟩ | ⟨_, c, hc, hruns⟩
  · rw [hruns]
    obtain ⟨rows', hsane, hrows'⟩ := hc.leaves.sane (p := p) henv h
      (o := some { process with manager := c.manager }) (fun process' hsome => by
        cases hsome
        exact hholder.after hc.loaded hc.knows)
    refine ⟨rows', hsane, hrows', continues_left (fun process' hsome => ?_)⟩
    cases hsome
    exact ⟨hc.memory, hc.careful⟩
  · rw [hruns]
    obtain ⟨rows', hsane, hrows'⟩ := hc.2.sane (p := p) henv h (o := none)
      (fun process' hnone => by cases hnone)
    exact ⟨rows', hsane, hrows', continues_left (fun process' hnone => by cases hnone)⟩
  · cases hc.1

theorem rotate_sane (henv : env.Sound) (h : Sane env rows s)
    (hprocess : s.processes p = some process) (faults : List Fault) :
    ∃ rows', Sane env rows' (s.runs p process (rotateAccountTradeKeepLatest env) faults) ∧
      (rows' = rows ∨ rows' = Buckets.rowsOf (keepLatest env process.manager.cache)) := by
  have hholder := h.holder p process hprocess
  rcases runs_cases (rotate_does henv (h.begins hprocess)) p faults with
    ⟨_, c, hc, hruns⟩ | ⟨c, hc, hruns⟩ | ⟨_, c, hc, hruns⟩
  · rw [hruns]
    refine hc.leaves.sane henv h (fun process' hsome => ?_)
    cases hsome
    exact hholder.after hc.loaded hc.knows
  · rw [hruns]
    exact hc.2.sane henv h (fun process' hnone => by cases hnone)
  · cases hc.1

/-! ## Steps in memory -/

theorem Holder.edited (h : Holder env s process) {mgr : Manager} {left : Option Process}
    (hknows : Knows env s.disk s.drawn mgr) (hloaded : mgr.loaded = process.manager.loaded) :
    Holder env (s.leave p s.disk s.drawn left) { process with manager := mgr } :=
  h.after (c := s.core mgr) (.inl hloaded) hknows

theorem add_sane (henv : env.Sound) (h : Sane env rows s)
    (hprocess : s.processes p = some process) (symbol : Symbol) (items : List Value) (now : Int) :
    Sane env rows (s.edits p
      { process with manager := (persistItems symbol.1 items now process.manager).1 }) := by
  have hholder := h.holder p process hprocess
  have hadded : Added symbol.1 process.manager
      (persistItems symbol.1 items now process.manager).1 :=
    persistItems_added (hholder.knows.distinct symbol.1)
  refine edits_sane henv h (fun process' hsome => ?_)
  cases hsome
  exact hholder.edited (hholder.knows.added symbol.2 hadded) hadded.loaded

theorem synced_sane (henv : env.Sound) (h : Sane env rows s)
    (hprocess : s.processes p = some process) (symbol : Symbol) (highWater : Int) :
    Sane env rows (s.edits p { process with manager := process.manager.synced symbol highWater }) := by
  have hholder := h.holder p process hprocess
  refine edits_sane henv h (fun process' hsome => ?_)
  cases hsome
  exact hholder.edited (hholder.knows.edited hholder.knows.shape.symbols hholder.knows.shape.keys
    hholder.knows.distinct id (.inr (fun _ => List.prefix_refl _)) (fun hclean => by cases hclean))
    rfl

theorem ask_sane (henv : env.Sound) (h : Sane env rows s)
    (hprocess : s.processes p = some process) :
    Sane env rows (s.edits p { process with before := process.manager }) := by
  have hholder := h.holder p process hprocess
  refine edits_sane henv h (fun process' hsome => ?_)
  cases hsome
  have hknows := hholder.knows.change henv h.change
  exact
    { knows := hknows
      recorded := fun i hi => (hholder.recorded i hi).cons s.disk
      remembers := hknows.remembers
      loadedKeys := hknows.loadedKeys
      asked := fun i hi => (hholder.recorded i hi).cons s.disk }

/-! ## Reading a version -/

theorem Fleet.past_mem (h : History env s) (ago : Nat) : s.past ago ∈ s.passed := by
  unfold Fleet.past
  cases hago : s.passed[ago]? with
  | none => exact h.here
  | some d => exact List.mem_of_getElem? hago

/-- The rows of a version, and that they are those of one of the disks. -/
structure Read (env : Env) (s : Fleet) (version : String) (m : Manifest) (records : List Record)
    (mgr : Manager) : Prop where
  recorded : ∃ d ∈ s.passed, Holds env d m records
  version : m.dataVersion = version
  at_ : AtVersion env m records mgr

theorem ensure_reads (henv : env.Sound) (h : Sane env rows s)
    (hprocess : s.processes p = some process) {version : String} {glances : Glances} {mgr : Manager}
    (hensure : ensureTradeVersion env version process.before (s.reads process glances) = some mgr) :
    ∃ m records, Read env s version m records mgr := by
  have hholder := h.holder p process hprocess
  have hpassed := s.past_mem h.history glances.first
  cases hfirst : manifestAt env version (s.past glances.first) with
  | none =>
      unfold ensureTradeVersion at hensure
      change (manifestAt env version (s.past glances.first) >>= _) = some mgr at hensure
      rw [hfirst] at hensure
      cases hensure
  | some m =>
      obtain ⟨hnone, hversion⟩ := load_required (manifestAt_ready hfirst)
      obtain ⟨rows', hstands⟩ := h.history.stands _ hpassed
      cases hstands with
      | legacy habsent _ _ _ =>
          rw [hnone] at habsent
          cases habsent
      | certified hholds =>
          rename_i m' records
          have hm := hholds.manifest
          rw [hnone, ManifestRead.ready.injEq] at hm
          subst hm
          exact ⟨m, records, ⟨_, hpassed, hholds⟩, hversion,
            ensureTradeVersion_certified henv hholder.knows.remembers hholder.knows.shape
              hholder.remembers hholder.loadedKeys (manifestAt_ready hfirst) hholds.certified
              hensure⟩

/-- A reader that holds a version is as one that loaded it. -/
theorem knows_atVersion {m : Manifest} {records : List Record} {mgr : Manager}
    (hcertified : Certified env m records) (hprecedes : Precedes env m records d n)
    (h : AtVersion env m records mgr) : Knows env d n mgr where
  shape := h.shape
  versioned := fun hnone => by
    rw [h.persisted] at hnone
    cases hnone
  past := fun i hi => by
    rw [h.persisted, Option.some.injEq] at hi
    subst hi
    exact hprecedes.past
  abreast := fun m' records' h' i hi hstream => by
    rw [h.persisted, Option.some.injEq] at hi
    subst hi
    obtain ⟨hle, -, hsame⟩ := hprecedes.follows m' records' h' hstream
    refine ⟨hle, fun heq => ?_⟩
    obtain ⟨hidentity, rfl⟩ := hsame heq
    refine ⟨hidentity, .inr ⟨h.counted, fun k => ?_⟩⟩
    rw [h.rows]
  unversioned := fun habsent => absurd habsent hprecedes.versioned
  remembers := remembers_certified hcertified h.loaded h.rows
  loadedKeys := h.loadedKeys
  distinct := fun k => by
    rw [h.rows]
    exact distinct_only hcertified.distinct k

theorem ensure_sane (henv : env.Sound) (h : Sane env rows s)
    (hprocess : s.processes p = some process) {version : String} {glances : Glances} {mgr : Manager}
    (hensure : ensureTradeVersion env version process.before (s.reads process glances) = some mgr) :
    Sane env rows (s.edits p { process with manager := mgr }) := by
  have hholder := h.holder p process hprocess
  obtain ⟨m, records, ⟨d, hd, hholds⟩, -, hat⟩ := ensure_reads henv h hprocess hensure
  refine edits_sane henv h (fun process' hsome => ?_)
  cases hsome
  exact
    { knows := knows_atVersion hholds.certified (h.history.precedes d hd m records hholds) hat
      recorded := fun i hi => by
        change mgr.loaded = some i at hi
        rw [hat.loaded, Option.some.injEq] at hi
        exact Recorded.cons ⟨d, hd, m, records, hholds, hi⟩ s.disk
      remembers := hholder.remembers
      loadedKeys := hholder.loadedKeys
      asked := fun i hi => (hholder.asked i hi).cons s.disk }

/-! ## Every step -/

/-- The step leaves the rows that were there, or those that its action writes. -/
def Turns (env : Env) (s : Fleet) (e : Event) (rows rows' : String → List Value) : Prop :=
  rows' = rows ∨ ∃ process, s.processes e.process = some process ∧
    e.action.writes env process.manager = some rows'

/-- A save that returned `True` wrote the memory. -/
def Honest (env : Env) (s : Fleet) (e : Event) (rows rows' : String → List Value) : Prop :=
  ∀ process faults, e.action = .save faults → s.processes e.process = some process →
    saveResult env s process faults = some true →
      rows' = Buckets.rowsOf process.manager.cache ∧
        (process.manager.needsRewrite = false → ∀ k, rows k <+: rows' k)

theorem Honest.of_ne {e : Event} (h : ∀ faults, e.action ≠ .save faults) :
    Honest env s e rows rows' := fun _ faults hsave => absurd hsave (h faults)

theorem step_performs (hprocess : s.processes p = some process) {action : Action}
    (hne : ∀ faults, action ≠ .start faults) :
    step env s ⟨p, action⟩ = s.performs env p process action := by
  unfold step
  dsimp only
  rw [hprocess]
  cases action with
  | start faults => exact absurd rfl (hne faults)
  | _ => rfl

/-- **Every step** leaves the rows, or those that it was writing. -/
theorem step_sane (henv : env.Sound) (h : Sane env rows s) (e : Event) (hsafe : SafeSave env s e) :
    ∃ rows', Sane env rows' (step env s e) ∧ Turns env s e rows rows' ∧
      Honest env s e rows rows' := by
  obtain ⟨p, action⟩ := e
  -- most steps write nothing, and leave the rows as they are
  have hkept : ∀ {s' : Fleet}, Sane env rows s' → step env s ⟨p, action⟩ = s' →
      (∀ faults, action ≠ .save faults) →
      ∃ rows', Sane env rows' (step env s ⟨p, action⟩) ∧ Turns env s ⟨p, action⟩ rows rows' ∧
        Honest env s ⟨p, action⟩ rows rows' := by
    intro s' hs' hstep hne
    rw [hstep]
    exact ⟨rows, hs', .inl rfl, .of_ne hne⟩
  cases hprocess : s.processes p with
  | none =>
      cases action with
      | start faults => exact hkept (starts_sane henv h p faults).1 rfl (fun _ => by simp)
      | _ =>
          refine ⟨rows, ?_, .inl rfl, fun process faults _ hsome => ?_⟩
          · show Sane env rows (step env s _)
            unfold step
            rw [hprocess]
            exact h
          · rw [hprocess] at hsome
            cases hsome
  | some process =>
      have hperforms := @step_performs env s p process hprocess action
      cases action with
      | start faults => exact hkept (starts_sane henv h p faults).1 rfl (fun _ => by simp)
      | stop =>
          refine hkept (edits_sane henv h (o := none) (fun process' hnone => by cases hnone))
            (hperforms (fun _ => by simp)) (fun _ => by simp)
      | add symbol items now =>
          exact hkept (add_sane henv h hprocess symbol items now) (hperforms (fun _ => by simp))
            (fun _ => by simp)
      | synced symbol highWater =>
          exact hkept (synced_sane henv h hprocess symbol highWater) (hperforms (fun _ => by simp))
            (fun _ => by simp)
      | save faults =>
          -- a save, a prune and a rotation write: the rows may turn to what they write
          obtain ⟨rows', hsane, hrows', hhonest, -⟩ :=
            save_sane henv h hprocess (hsafe process hprocess) faults
          refine ⟨rows', by rw [hperforms (fun _ => by simp)]; exact hsane, ?_, ?_⟩
          · exact hrows'.imp_right (fun heq => ⟨process, hprocess, congrArg some heq.symm⟩)
          · intro process' faults' haction hprocess' hresult
            cases haction
            rw [hprocess, Option.some.injEq] at hprocess'
            subst hprocess'
            exact hhonest hresult
      | prune cutoff faults =>
          obtain ⟨rows', hsane, hrows', -⟩ := prune_sane henv h hprocess cutoff faults
          refine ⟨rows', by rw [hperforms (fun _ => by simp)]; exact hsane, ?_, .of_ne (by simp)⟩
          exact hrows'.imp_right (fun heq => ⟨process, hprocess, congrArg some heq.symm⟩)
      | rotate faults =>
          obtain ⟨rows', hsane, hrows'⟩ := rotate_sane henv h hprocess faults
          refine ⟨rows', by rw [hperforms (fun _ => by simp)]; exact hsane, ?_, .of_ne (by simp)⟩
          exact hrows'.imp_right (fun heq => ⟨process, hprocess, congrArg some heq.symm⟩)
      | reload faults =>
          exact hkept (reload_sane henv h hprocess faults).1 (hperforms (fun _ => by simp))
            (fun _ => by simp)
      | ask =>
          exact hkept (ask_sane henv h hprocess) (hperforms (fun _ => by simp)) (fun _ => by simp)
      | ensure version glances =>
          cases hensure : ensureTradeVersion env version process.before
              (s.reads process glances) with
          | none =>
              refine hkept h ?_ (fun _ => by simp)
              rw [hperforms (fun _ => by simp)]
              unfold Fleet.performs
              dsimp only
              rw [hensure]
          | some mgr =>
              refine hkept (ensure_sane henv h hprocess hensure) ?_ (fun _ => by simp)
              rw [hperforms (fun _ => by simp)]
              unfold Fleet.performs
              dsimp only
              rw [hensure]

/-! ## Runs -/

/-- What a restart finds before and after a step. -/
def Finds (env : Env) (s : Fleet) (e : Event) : Prop :=
  ∃ rows rows', Recovers env s.disk rows ∧ Recovers env (step env s e).disk rows' ∧
    Turns env s e rows rows' ∧ Honest env s e rows rows'

theorem stands_empty : Stands plainEnv Disk.empty (Buckets.rowsOf []) :=
  .legacy rfl rfl (fun _ hbucket => by cases hbucket) List.nodup_nil

theorem named_empty : Named plainEnv Disk.empty n := fun _ _ h => (h.not_absent rfl).elim

/-- A manager that knows no version appends to no file. -/
theorem careful_unknown {p : Nat}
    (h : (s.processes p).map (fun process => process.manager.persisted) = some none) :
    ∀ process, s.processes p = some process → Careful env s.disk process.manager := by
  intro process hprocess m records _ _ hpersisted
  rw [hprocess, Option.map_some, hpersisted, Option.some.injEq] at h
  cases h

def ada : Symbol := ⟨"ADA", by decide +kernel⟩

def sampleFill (id : Int) : Value :=
  .obj [("symbol", .str "ADA"), ("id", Numeral.intValue id), ("orderId", Numeral.intValue 9),
    ("price", .str "2"), ("qty", .str "3"), ("time", Numeral.intValue 5), ("isBuyer", .bool true)]

/-- Two processes that save their own fills; the second one stops in it. -/
def twoSavers : List Event :=
  [⟨0, .start []⟩, ⟨1, .start []⟩, ⟨0, .add ada [sampleFill 1] 6⟩, ⟨0, .save []⟩,
    ⟨1, .add ada [sampleFill 2] 7⟩, ⟨1, .save [.crashes true []]⟩, ⟨1, .start []⟩]

theorem twoSavers_safe :
    Runs.Along (step plainEnv) (SafeSave plainEnv) (Fleet.alone Disk.empty 0) twoSavers :=
  ⟨trivial, trivial, trivial, careful_unknown (by decide +kernel), trivial,
    careful_unknown (by decide +kernel), trivial, trivial⟩

/-- **A version names one list of rows for good**: of two disks that a run passed through, with
manifests of one stream, the later revision goes on from the rows of the earlier one, and manifests
of one version certify the same rows. A reader that returns holds the rows of the version that it
was asked for. -/
structure Versioned (env : Env) (s : Fleet) : Prop where
  grows : ∀ d ∈ s.passed, ∀ d' ∈ s.passed, ∀ m records m' records', Holds env d m records →
    Holds env d' m' records' → m.stream = m'.stream → m.revision ≤ m'.revision →
    records <+: records'
  named : ∀ d ∈ s.passed, ∀ d' ∈ s.passed, ∀ m records m' records', Holds env d m records →
    Holds env d' m' records' → m.dataVersion = m'.dataVersion → records = records'
  read : ∀ p process version glances mgr, s.processes p = some process →
    ensurePersistedVersion env version process.before (s.reads process glances) = some mgr →
    ∃ d ∈ s.passed, ∃ m records, Holds env d m records ∧ m.dataVersion = version ∧
      ∀ k, Buckets.rowsOf mgr.cache k = Buckets.only k records

theorem Sane.versioned (henv : env.Sound) (h : Sane env rows s) : Versioned env s where
  grows := fun d hd d' hd' m records m' records' hholds hholds' hstream =>
    (h.history.agree d hd d' hd' m records m' records' hholds hholds' hstream).grows
  named := fun d hd d' hd' m records m' records' hholds hholds' hversion => by
    obtain ⟨hstream, hrevision⟩ := tradeDataVersion_injective hversion
    exact ((h.history.agree d hd d' hd' m records m' records' hholds hholds' hstream).same
      hrevision).2
  read := fun p process version glances mgr hprocess hensure => by
    have hholder := h.holder p process hprocess
    unfold ensurePersistedVersion at hensure
    split at hensure
    · cases hensure
    · split at hensure
      · -- the memory has the version already
        rename_i hloaded
        obtain ⟨hversion, hclean⟩ := hloaded
        cases hensure
        rw [Option.map_eq_some_iff] at hversion
        obtain ⟨i, hi, hversion⟩ := hversion
        obtain ⟨d, hd, m, records, hholds, rfl⟩ := hholder.asked i hi
        obtain ⟨held, hheld⟩ := hholder.remembers hclean _ hi
        have hrecords : held = records := henv.collisionless _ _
          (hheld.digest.symm.trans hholds.certified.digest)
        subst hrecords
        exact ⟨d, hd, m, held, hholds, hversion, hheld.held⟩
      · obtain ⟨m, records, hread⟩ := ensure_reads henv h hprocess hensure
        obtain ⟨d, hd, hholds⟩ := hread.recorded
        exact ⟨d, hd, m, records, hholds, hread.version, hread.at_.rows⟩

theorem run_sane (henv : env.Sound) (hstands : Stands env d rows) (hnamed : Named env d n)
    {events : List Event} (hsafe : Runs.Along (step env) (SafeSave env) (Fleet.alone d n) events) :
    ∃ rows', Sane env rows' (run env (Fleet.alone d n) events) := by
  refine Runs.Along.invariant (I := fun s => ∃ rows, Sane env rows s) ?_
    ⟨rows, sane_alone henv hstands hnamed⟩ hsafe
  rintro s e ⟨rows, h⟩ he
  obtain ⟨rows', h', -⟩ := step_sane henv h e he
  exact ⟨rows', h'⟩

/-- What a rotation leaves. -/
structure Rotated (env : Env) (rows : String → List Value) (mgr : Manager) (ok : Bool) (c : Core) :
    Prop where
  kept : ok = true → Recovers env c.disk (Buckets.rowsOf (keepLatest env mgr.cache)) ∧
    Archived env c.disk.archives rows ∧
    Buckets.rowsOf c.manager.cache = Buckets.rowsOf (keepLatest env mgr.cache)
  given : ok = false → (Recovers env c.disk rows ∨
    Recovers env c.disk (Buckets.rowsOf (keepLatest env mgr.cache))) ∧
    Buckets.rowsOf c.manager.cache = Buckets.rowsOf mgr.cache

/-- A rotation in which the process stops. -/
def RotationStops (env : Env) (rows : String → List Value) (mgr : Manager) (stop : Stop) (c : Core) :
    Prop :=
  stop = .crash ∧ (Recovers env c.disk rows ∨
    Recovers env c.disk (Buckets.rowsOf (keepLatest env mgr.cache)))

end TradingFleet.Cache
