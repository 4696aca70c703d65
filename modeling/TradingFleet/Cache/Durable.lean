import TradingFleet.Cache.Turns

set_option autoImplicit false

/-! # One writer

One process writes and the others read. The memory of the writer is then always ahead of the disk
(`Leads`), so what a save that returned `True` wrote stays: whatever fails afterwards, and however
often the writer stops and starts, a restart finds those fills, in their order, but for the ones
that retention took out (`saved_stays`). Nothing is rotated in such a run: a rotation drops rows by
their number, and one that fails leaves a file that the next save appends to.
-/

namespace TradingFleet.Cache

open JsonText Hoare

variable {env : Env} {d : Disk} {n : Nat} {rows : String → List Value} {s : Fleet} {p w : Nat}
  {process : Process} {T : Int}

/-- The fills from `T` on. -/
def since (T : Int) (items : List Value) : List Value :=
  items.filter (fun item => T ≤ entryTimestampMs item)

theorem since_grows {items items' : List Value} (h : items <+: items') :
    since T items <+: since T items' := h.filter _

theorem since_since {cutoff : Int} (h : cutoff ≤ T) (items : List Value) :
    since T (since cutoff items) = since T items := by
  unfold since
  rw [List.filter_filter]
  refine List.filter_congr (fun item _ => ?_)
  by_cases ht : T ≤ entryTimestampMs item
  · simp only [decide_eq_true ht, decide_eq_true (Int.le_trans h ht), Bool.and_self]
  · simp only [decide_eq_false ht, Bool.false_and]

theorem since_prune {cutoff : Int} (h : cutoff ≤ T) (cache : Rows) (k : String) :
    since T (Buckets.rowsOf (prune cutoff cache) k) = since T (Buckets.rowsOf cache k) := by
  rw [rowsOf_prune]
  exact since_since h _

/-- Only `w` writes, and it never loads again by `ensure_persisted_version`; retention goes to `T`
at most, and nothing is rotated. -/
def Sole (w : Nat) (T : Int) (e : Event) : Prop :=
  match e.action with
  | .save _ => e.process = w
  | .prune cutoff _ => e.process = w ∧ cutoff ≤ T
  | .rotate _ => False
  | .ensure _ _ => e.process ≠ w
  | _ => True

/-- The writer does not append to a file that lost rows, and has all the rows in memory. -/
def Leads (env : Env) (w : Nat) (T : Int) (rows : String → List Value) (s : Fleet) : Prop :=
  ∀ process, s.processes w = some process → Careful env s.disk process.manager ∧
    ∀ k, since T (rows k) <+: since T (Buckets.rowsOf process.manager.cache k)

/-- What a step leaves, where `w` is the writer. -/
structure Follows (env : Env) (w : Nat) (T : Int) (rows rows' : String → List Value) (s : Fleet) :
    Prop where
  sane : Sane env rows' s
  leads : Leads env w T rows' s
  grows : ∀ k, since T (rows k) <+: since T (rows' k)

theorem Follows.refl (h : Sane env rows s) (hleads : Leads env w T rows s) :
    Follows env w T rows rows s :=
  ⟨h, hleads, fun _ => List.prefix_refl _⟩

theorem Follows.trans {rows' rows'' : String → List Value} {s' : Fleet}
    (h : Follows env w T rows rows' s) (h' : Follows env w T rows' rows'' s') :
    Follows env w T rows rows'' s' :=
  ⟨h'.sane, h'.leads, fun k => (h.grows k).trans (h'.grows k)⟩

/-- A step that leaves the rows, where the writer keeps its memory or is not there. -/
theorem Leads.left (hleads : Leads env w T rows s) {disk : Disk} {drawn : Nat} {o : Option Process}
    (hcareful : ∀ mgr, Careful env s.disk mgr → Careful env disk mgr)
    (hown : p = w → ∀ process, o = some process → Careful env disk process.manager ∧
      ∀ k, since T (rows k) <+: since T (Buckets.rowsOf process.manager.cache k)) :
    Leads env w T rows (s.leave p disk drawn o) := by
  intro process hprocess
  by_cases hp : p = w
  · subst hp
    rw [leave_self] at hprocess
    exact hown rfl process hprocess
  · rw [leave_other (Ne.symm hp)] at hprocess
    obtain ⟨hbefore, hahead⟩ := hleads process hprocess
    exact ⟨hcareful _ hbefore, hahead⟩

theorem Careful.congr {mgr mgr' : Manager} (h : Careful env d mgr)
    (hpersisted : mgr'.persisted = mgr.persisted) (hrewrite : mgr'.needsRewrite = mgr.needsRewrite) :
    Careful env d mgr' := by
  intro m records hholds htorn hcurrent
  rw [hrewrite]
  exact h m records hholds htorn (hpersisted ▸ hcurrent)

/-- A change of a memory that only adds to it. -/
theorem edits_leads (hleads : Leads env w T rows s) (hprocess : s.processes p = some process)
    {process' : Process}
    (hpersisted : process'.manager.persisted = process.manager.persisted)
    (hrewrite : process'.manager.needsRewrite = process.manager.needsRewrite)
    (hgrows : ∀ k, Buckets.rowsOf process.manager.cache k <+:
      Buckets.rowsOf process'.manager.cache k) :
    Leads env w T rows (s.edits p process') := by
  refine hleads.left (fun _ hcareful => hcareful) ?_
  rintro rfl process'' hsome
  cases hsome
  obtain ⟨hcareful, hahead⟩ := hleads process hprocess
  exact ⟨hcareful.congr hpersisted hrewrite, fun k => (hahead k).trans (since_grows (hgrows k))⟩

theorem Added.kept {symbol : String} {mgr mgr' : Manager} (h : Added symbol mgr mgr') :
    mgr'.persisted = mgr.persisted ∧ mgr'.needsRewrite = mgr.needsRewrite := by
  cases h <;> exact ⟨rfl, rfl⟩

/-- A write of the writer: afterwards it has `memory`, which is on disk or not. -/
theorem writes_follow {rows' memory : String → List Value} {s' : Fleet} (hsane : Sane env rows' s')
    (hprocess : s.processes w = some process) (hleads : Leads env w T rows s)
    (hmemory : ∀ k, since T (memory k) = since T (Buckets.rowsOf process.manager.cache k))
    (hrows' : rows' = rows ∨ rows' = memory) (hcontinues : Continues env s process memory s' w) :
    Follows env w T rows rows' s' := by
  obtain ⟨hcareful, hahead⟩ := hleads process hprocess
  have hahead' : ∀ k, since T (rows k) <+: since T (memory k) := by
    intro k
    rw [hmemory]
    exact hahead k
  refine ⟨hsane, fun process' hprocess' => ?_, ?_⟩
  · obtain ⟨hheld, hcareful'⟩ := hcontinues process' hprocess'
    rw [hheld]
    refine ⟨hcareful' hcareful, ?_⟩
    rcases hrows' with rfl | rfl
    · exact hahead'
    · exact fun _ => List.prefix_refl _
  · rcases hrows' with rfl | rfl
    · exact fun _ => List.prefix_refl _
    · exact hahead'

theorem reads_lead {s' : Fleet} (hleads : Leads env w T rows s)
    (hcareful : ∀ mgr, Careful env s.disk mgr → Careful env s'.disk mgr)
    (hothers : ∀ q, q ≠ p → s'.processes q = s.processes q)
    (hown : ∀ process, s'.processes p = some process →
      Buckets.rowsOf process.manager.cache = rows ∧ Careful env s'.disk process.manager) :
    Leads env w T rows s' := by
  intro process hprocess
  by_cases hp : w = p
  · subst hp
    obtain ⟨hheld, hsafe⟩ := hown process hprocess
    rw [hheld]
    exact ⟨hsafe, fun _ => List.prefix_refl _⟩
  · rw [hothers w hp] at hprocess
    obtain ⟨hbefore, hahead⟩ := hleads process hprocess
    exact ⟨hcareful _ hbefore, hahead⟩

theorem runs_other {α : Type} {x : Op α} {faults : List Fault} {q : Nat} (hq : q ≠ p) :
    (s.runs p process x faults).processes q = s.processes q := by
  unfold Fleet.runs
  split <;> exact leave_other hq

theorem starts_other {faults : List Fault} {q : Nat} (hq : q ≠ p) :
    (s.starts env p faults).processes q = s.processes q := by
  unfold Fleet.starts
  split <;> exact leave_other hq

theorem reload_leads (henv : env.Sound) (h : Sane env rows s)
    (hprocess : s.processes p = some process) (hleads : Leads env w T rows s)
    (faults : List Fault) :
    Leads env w T rows (s.runs p process (loadJsonlGenerationLocked env) faults) := by
  obtain ⟨-, hcareful, hown⟩ := reload_sane henv h hprocess faults
  rcases hown with hfresh | hcontinues
  · exact reads_lead hleads hcareful (fun q hq => runs_other hq) hfresh
  · intro process' hprocess'
    by_cases hp : w = p
    · subst hp
      obtain ⟨hbefore, hahead⟩ := hleads process hprocess
      obtain ⟨hheld, hafter⟩ := hcontinues process' hprocess'
      rw [hheld]
      exact ⟨hafter hbefore, hahead⟩
    · rw [runs_other hp] at hprocess'
      obtain ⟨hbefore, hahead⟩ := hleads process' hprocess'
      exact ⟨hcareful _ hbefore, hahead⟩

/-- **A step where `w` alone writes**: the fills from `T` on that were on disk are there, and the
writer has them all. -/
theorem step_follows (henv : env.Sound) (h : Sane env rows s) (hleads : Leads env w T rows s)
    {e : Event} (hsole : Sole w T e) :
    ∃ rows', Follows env w T rows rows' (step env s e) := by
  obtain ⟨p, action⟩ := e
  -- most steps write nothing: the rows stay, and so does the lead of the writer
  have hsame : ∀ {s' : Fleet}, Sane env rows s' → Leads env w T rows s' →
      step env s ⟨p, action⟩ = s' →
      ∃ rows', Follows env w T rows rows' (step env s ⟨p, action⟩) := by
    intro s' hs' hleads' hstep
    rw [hstep]
    exact ⟨rows, .refl hs' hleads'⟩
  cases hprocess : s.processes p with
  | none =>
      cases action with
      | start faults =>
          obtain ⟨hsane, hcareful, hown⟩ := starts_sane henv h p faults
          exact hsame hsane (reads_lead hleads hcareful (fun q hq => starts_other hq) hown) rfl
      | _ =>
          refine hsame h hleads ?_
          unfold step
          rw [hprocess]
  | some process =>
      have hperforms := @step_performs env s p process hprocess action
      cases action with
      | start faults =>
          obtain ⟨hsane, hcareful, hown⟩ := starts_sane henv h p faults
          exact hsame hsane (reads_lead hleads hcareful (fun q hq => starts_other hq) hown) rfl
      | stop =>
          refine hsame (edits_sane henv h (o := none) (fun process' hnone => by cases hnone))
            (hleads.left (fun _ hcareful => hcareful) (fun _ process' hnone => by cases hnone))
            (hperforms (fun _ => by simp))
      | add symbol items now =>
          have hadded : Added symbol.1 process.manager
              (persistItems symbol.1 items now process.manager).1 :=
            persistItems_added ((h.holder p process hprocess).knows.distinct symbol.1)
          exact hsame (add_sane henv h hprocess symbol items now) (edits_leads hleads hprocess
            hadded.kept.1 hadded.kept.2 hadded.grows) (hperforms (fun _ => by simp))
      | synced symbol highWater =>
          exact hsame (synced_sane henv h hprocess symbol highWater) (edits_leads hleads hprocess
            rfl rfl (fun _ => List.prefix_refl _)) (hperforms (fun _ => by simp))
      | save faults =>
          have hw : p = w := hsole
          subst hw
          obtain ⟨rows', hsane, hrows', -, hcontinues⟩ :=
            save_sane henv h hprocess (hleads process hprocess).1 faults
          rw [hperforms (fun _ => by simp)]
          exact ⟨rows', writes_follow hsane hprocess hleads (fun _ => rfl) hrows' hcontinues⟩
      | prune cutoff faults =>
          -- a prune takes only what is older than `T`
          obtain ⟨hw, hcutoff⟩ : p = w ∧ cutoff ≤ T := hsole
          subst hw
          obtain ⟨rows', hsane, hrows', hcontinues⟩ := prune_sane henv h hprocess cutoff faults
          rw [hperforms (fun _ => by simp)]
          exact ⟨rows', writes_follow hsane hprocess hleads (since_prune hcutoff _) hrows'
            hcontinues⟩
      | rotate faults => exact hsole.elim
      | reload faults =>
          exact hsame (reload_sane henv h hprocess faults).1
            (reload_leads henv h hprocess hleads faults) (hperforms (fun _ => by simp))
      | ask =>
          exact hsame (ask_sane henv h hprocess) (edits_leads hleads hprocess rfl rfl
            (fun _ => List.prefix_refl _)) (hperforms (fun _ => by simp))
      | ensure version glances =>
          -- a process that loads again is not the writer
          have hw : p ≠ w := hsole
          cases hensure : ensureTradeVersion env version process.before
              (s.reads process glances) with
          | none =>
              refine hsame h hleads ?_
              rw [hperforms (fun _ => by simp)]
              unfold Fleet.performs
              dsimp only
              rw [hensure]
          | some mgr =>
              refine hsame (ensure_sane henv h hprocess hensure)
                (hleads.left (fun _ hcareful => hcareful) (fun heq => absurd heq hw)) ?_
              rw [hperforms (fun _ => by simp)]
              unfold Fleet.performs
              dsimp only
              rw [hensure]

/-! ## Runs -/

theorem run_follows (henv : env.Sound) (h : Sane env rows s) (hleads : Leads env w T rows s)
    {events : List Event} (hsole : ∀ e ∈ events, Sole w T e) :
    ∃ rows', Follows env w T rows rows' (run env s events) := by
  induction events generalizing s rows with
  | nil => exact ⟨rows, .refl h hleads⟩
  | cons e events ih =>
      obtain ⟨rows', hstep⟩ := step_follows henv h hleads (hsole e List.mem_cons_self)
      obtain ⟨rows'', hrun⟩ := ih hstep.sane hstep.leads
        (fun e he => hsole e (List.mem_cons_of_mem _ he))
      exact ⟨rows'', hstep.trans hrun⟩

theorem leads_alone : Leads env w T rows (Fleet.alone d n) := fun _ hnone => by cases hnone

/-- A process loads and adds a fill. -/
def oneFill : List Event := [⟨0, .start []⟩, ⟨0, .add ada [sampleFill 1] 6⟩]

/-- It stops in its next save, and comes back. -/
def stopsOnce : List Event :=
  [⟨0, .add ada [sampleFill 2] 7⟩, ⟨0, .save [.crashes true []]⟩, ⟨1, .start []⟩, ⟨0, .start []⟩]

/-- A rotation is not in such a run: one whose rewrite and roll-back fail leaves a file that the
next save appends to, and a restart then finds nothing. -/
example : (recovered plainEnv (run plainEnv (Fleet.alone Disk.empty 0)
    [⟨0, .start []⟩, ⟨0, .add ada [sampleFill 1] 6⟩, ⟨0, .save []⟩,
      ⟨0, .add ada [sampleFill 2] 7⟩,
      ⟨0, .rotate [.done, .done, .done, .fails true [], .fails false [], .fails false []]⟩,
      ⟨0, .save []⟩]).disk).isSome = false := by
  decide +kernel

end TradingFleet.Cache
