import TradingFleet.Cache.Upkeep

set_option autoImplicit false

/-! # Processes that share a cache

Any number of processes hold a manager over the same files. Each may load them, add fills, save,
prune, rotate, read a version and stop, in any order and with any fault in any operation; the lock
makes an operation on the files one step, but a reader's reads are steps of their own.

The fleet remembers the disks it passed through. Whatever happens, a restart finds the rows that it
found before, or those that the step was writing (`step_sane`); and two manifests that the fleet
passed through under one version certify one list of rows.
-/

namespace TradingFleet.Cache

open JsonText Hoare

/-! ## The system -/

/-- A symbol as the exchange writes it, in capitals. -/
abbrev Symbol := { s : String // Text.upper s = s }

/-- A process with a manager, and the memory of the manager when its last request for a version
began. -/
structure Process where
  manager : Manager
  before : Manager

structure Fleet where
  disk : Disk
  drawn : Nat
  processes : Nat → Option Process
  passed : List Disk

/-- How many steps ago a reader read each of the files. -/
structure Glances where
  first : Nat
  data : Nat
  second : Nat
  full : Nat
  third : Nat

inductive Action where
  | start (faults : List Fault)
  | stop
  | add (symbol : Symbol) (items : List Value) (now : Int)
  | synced (symbol : Symbol) (highWater : Int)
  | save (faults : List Fault)
  | prune (cutoff : Int) (faults : List Fault)
  | rotate (faults : List Fault)
  | reload (faults : List Fault)
  | ask
  | ensure (version : String) (glances : Glances)

structure Event where
  process : Nat
  action : Action

def Fleet.core (s : Fleet) (mgr : Manager) : Core :=
  { disk := s.disk, manager := mgr, drawn := s.drawn }

/-- The files as they are now, and what is left of the process. -/
def Fleet.leave (s : Fleet) (p : Nat) (disk : Disk) (drawn : Nat) (process : Option Process) :
    Fleet :=
  { disk := disk
    drawn := drawn
    processes := fun q => if q = p then process else s.processes q
    passed := disk :: s.passed }

/-- An operation of a process: an exception leaves it running, a crash does not. -/
def Fleet.runs {α : Type} (s : Fleet) (p : Nat) (process : Process) (x : Op α)
    (faults : List Fault) : Fleet :=
  match x ⟨s.core process.manager, faults⟩ with
  | .ok _ w => s.leave p w.core.disk w.core.drawn (some { process with manager := w.core.manager })
  | .error .crash w => s.leave p w.core.disk w.core.drawn none
  | .error (.raised _) w =>
      s.leave p w.core.disk w.core.drawn (some { process with manager := w.core.manager })

/-- A process that cannot load its cache does not come up. -/
def Fleet.starts (env : Env) (s : Fleet) (p : Nat) (faults : List Fault) : Fleet :=
  match loadJsonlGenerationLocked env ⟨s.core Manager.fresh, faults⟩ with
  | .ok _ w => s.leave p w.core.disk w.core.drawn (some ⟨w.core.manager, w.core.manager⟩)
  | .error _ w => s.leave p w.core.disk w.core.drawn none

/-- A change of the memory of a process. -/
def Fleet.edits (s : Fleet) (p : Nat) (process : Process) : Fleet :=
  s.leave p s.disk s.drawn (some process)

def Fleet.past (s : Fleet) (ago : Nat) : Disk := (s.passed[ago]?).getD s.disk

/-- What a reader saw that read at these times. -/
def Fleet.reads (s : Fleet) (process : Process) (glances : Glances) : Reads :=
  { first := s.past glances.first
    data := s.past glances.data
    second := s.past glances.second
    full := s.past glances.full
    third := s.past glances.third
    after := process.manager }

/-- `self.fetchtime_time_per_symbol[symbol] = max(0, request_high_water - 1)` -/
def Manager.synced (mgr : Manager) (symbol : Symbol) (highWater : Int) : Manager :=
  { mgr with
    fetchtime := Buckets.insert mgr.fetchtime symbol.1 (max 0 (highWater - 1))
    dirty := true }

def Fleet.performs (env : Env) (s : Fleet) (p : Nat) (process : Process) : Action → Fleet
  | .start faults => s.starts env p faults
  | .stop => s.leave p s.disk s.drawn none
  | .add symbol items now =>
      s.edits p { process with manager := (persistItems symbol.1 items now process.manager).1 }
  | .synced symbol highWater =>
      s.edits p { process with manager := process.manager.synced symbol highWater }
  | .save faults => s.runs p process (saveAccountTradeAppend env) faults
  | .prune cutoff faults => s.runs p process (pruneOld env cutoff) faults
  | .rotate faults => s.runs p process (rotateAccountTradeKeepLatest env) faults
  | .reload faults => s.runs p process (loadJsonlGenerationLocked env) faults
  | .ask => s.edits p { process with before := process.manager }
  | .ensure version glances =>
      match ensureTradeVersion env version process.before (s.reads process glances) with
      | some mgr => s.edits p { process with manager := mgr }
      | none => s

def step (env : Env) (s : Fleet) (e : Event) : Fleet :=
  match e.action, s.processes e.process with
  | .start faults, _ => s.starts env e.process faults
  | _, none => s
  | action, some process => s.performs env e.process process action

def run (env : Env) (s : Fleet) (events : List Event) : Fleet := events.foldl (step env) s

/-! ## Versions -/

variable {env : Env} {m : Manifest} {records : List Record} {d d' : Disk} {n n' : Nat}
  {rows : String → List Value} {s : Fleet}

/-- What stands before the last colon, and what stands behind it. -/
theorem append_colon_injective {xs xs' ys ys' : List Char} (hys : ':' ∉ ys) (hys' : ':' ∉ ys')
    (h : xs ++ ':' :: ys = xs' ++ ':' :: ys') : xs = xs' ∧ ys = ys' := by
  have hcut : ∀ (zs zs' : List Char), ':' ∉ zs → ':' ∉ zs' → ∀ {l l' : List Char},
      zs ++ ':' :: l = zs' ++ ':' :: l' → l = l' ∧ zs = zs' := by
    intro zs
    induction zs with
    | nil =>
        intro zs' _ hzs' l l' h
        cases zs' with
        | nil => exact ⟨(List.cons.inj h).2, rfl⟩
        | cons z zs' =>
            rw [List.nil_append, List.cons_append, List.cons.injEq] at h
            exact absurd (h.1 ▸ List.mem_cons_self) hzs'
    | cons z zs ih =>
        intro zs' hzs hzs' l l' h
        cases zs' with
        | nil =>
            rw [List.nil_append, List.cons_append, List.cons.injEq] at h
            exact absurd (h.1 ▸ List.mem_cons_self) hzs
        | cons z' zs' =>
            rw [List.cons_append, List.cons_append, List.cons.injEq] at h
            obtain ⟨hl, hzs⟩ := ih zs' (fun hmem => hzs (List.mem_cons_of_mem _ hmem))
              (fun hmem => hzs' (List.mem_cons_of_mem _ hmem)) h.2
            exact ⟨hl, by rw [h.1, hzs]⟩
  have hreverse := congrArg List.reverse h
  simp only [List.reverse_append, List.reverse_cons, List.append_assoc, List.singleton_append]
    at hreverse
  obtain ⟨hxs, hys⟩ := hcut _ _ (by rwa [List.mem_reverse]) (by rwa [List.mem_reverse]) hreverse
  exact ⟨List.reverse_injective hxs, List.reverse_injective hys⟩

/-- A version names a stream and a revision. -/
theorem tradeDataVersion_injective {stream stream' : String} {revision revision' : Nat}
    (h : tradeDataVersion stream revision = tradeDataVersion stream' revision') :
    stream = stream' ∧ revision = revision' := by
  have hcolon : ∀ n : Nat, ':' ∉ Numeral.intText n := by
    intro n hmem
    unfold Numeral.intText at hmem
    rw [if_neg (by omega)] at hmem
    exact Numeral.isDigit_ne (Numeral.toDigits_isDigit _ _ hmem) (by decide) rfl
  have hlists := congrArg String.toList h
  unfold tradeDataVersion at hlists
  simp only [String.toList_append, String.toList_ofList, List.append_assoc] at hlists
  obtain ⟨hstream, hdigits⟩ := append_colon_injective (hcolon _) (hcolon _) hlists
  have hdecimal := congrArg (fun l => Numeral.decimalOfText (String.ofList l)) hdigits
  simp only [Numeral.decimalOfText_intText, Option.some.injEq, Numeral.Decimal.mk.injEq] at hdecimal
  exact ⟨String.toList_injective hstream, Int.ofNat_inj.mp hdecimal.1⟩

/-- What is read under a version is read without asking for one. -/
theorem load_required {version : String} {file : Option MetaFile}
    (h : loadVersionedAccountMeta env file (some version) = .ready m) :
    loadVersionedAccountMeta env file none = .ready m ∧ m.dataVersion = version := by
  have hread : ∀ {value : Value} {digest : String} {m : Manifest},
      readManifest value digest (some version) = some m →
      readManifest value digest none = some m ∧ m.dataVersion = version := by
    intro value digest m hm
    unfold readManifest at hm ⊢
    rw [Option.bind_eq_bind, Option.bind_eq_some_iff] at hm
    obtain ⟨found, hfound, hm⟩ := hm
    rw [hfound, Option.bind_eq_bind, Option.bind_some]
    split at hm
    · cases hm
    · rename_i hsame
      have hversion : found = version := by simpa using hsame
      rw [if_neg (by simp)]
      refine ⟨hm, ?_⟩
      simp only [Option.bind_eq_bind, Option.bind_eq_some_iff] at hm
      obtain ⟨fetchtime, -, counts, -, stream, -, revision, -, committedBytes, -, hm⟩ := hm
      split at hm
      · cases hm
      · rename_i hok
        rw [not_or, not_not] at hok
        cases hm
        exact hok.2.symm.trans hversion
  unfold loadVersionedAccountMeta at h ⊢
  split at h
  · split at h
    · rename_i hschema
      rw [if_pos hschema]
      split at h
      · split at h
        · rename_i hvalid
          rw [if_pos hvalid]
          split at h
          · rename_i m' hm'
            cases h
            obtain ⟨hnone, hversion⟩ := hread hm'
            rw [hnone]
            exact ⟨rfl, hversion⟩
          · cases h
        · cases h
      · cases h
    · cases h
  · cases h

/-- A generation that was on disk, seen from a later disk: the stream went on from it, or another
one took its place. -/
structure Precedes (env : Env) (m : Manifest) (records : List Record) (d : Disk) (n : Nat) :
    Prop where
  past : Past env n m.stream
  versioned : loadVersionedAccountMeta env d.manifest none ≠ .absent
  follows : ∀ m' records', Holds env d m' records' → m.stream = m'.stream →
    m.revision ≤ m'.revision ∧ records <+: records' ∧
      (m.revision = m'.revision → m.identity = m'.identity ∧ records = records')

theorem Holds.precedes (henv : env.Sound) (h : Holds env d m records) (hnamed : Named env d n) :
    Precedes env m records d n where
  past := hnamed _ _ h
  versioned := fun habsent => h.not_absent habsent
  follows := fun m' records' h' _ => by
    obtain ⟨rfl, rfl⟩ := h.unique henv h'
    exact ⟨Nat.le_refl _, List.prefix_refl _, fun _ => ⟨rfl, rfl⟩⟩

theorem Precedes.change (henv : env.Sound) (h : Precedes env m records d n)
    (hchange : Change env d n d' n') : Precedes env m records d' n' := by
  cases hchange with
  | kept m₁ records₁ h₁ h₁' hn =>
      refine ⟨h.past.mono hn, fun habsent => h₁'.not_absent habsent, ?_⟩
      intro m' records' h' hstream
      obtain ⟨rfl, rfl⟩ := h₁'.unique henv h'
      exact h.follows _ _ h₁ hstream
  | appended m₁ m₂ records₁ more h₁ h₂ hsame hnext hn =>
      refine ⟨h.past.mono hn, fun habsent => h₂.not_absent habsent, ?_⟩
      intro m' records' h' hstream
      obtain ⟨rfl, rfl⟩ := h₂.unique henv h'
      obtain ⟨hle, hprefix, heq⟩ := h.follows _ _ h₁ (hstream.trans hsame)
      have hgrown : records <+: records₁ ++ more := hprefix.trans (List.prefix_append _ _)
      rcases hnext with hlt | ⟨hidentity, rfl⟩
      · refine ⟨Nat.le_of_lt (Nat.lt_of_le_of_lt hle hlt), hgrown, fun hrevision => ?_⟩
        omega
      · have hrevision : m'.revision = m₁.revision := congrArg Identity.revision hidentity
        rw [hrevision, hidentity, List.append_nil]
        exact ⟨hle, hprefix, heq⟩
  | rewritten m₁ records₁ h₁ hsame hn =>
      refine ⟨h.past.mono (Nat.le_of_lt hn), fun habsent => h₁.not_absent habsent, ?_⟩
      intro m' records' h' hstream
      obtain ⟨rfl, rfl⟩ := h₁.unique henv h'
      exact absurd (hstream.trans hsame).symm (h.past n (Nat.le_refl n))
  | unversioned habsent _ _ => exact absurd habsent h.versioned

/-- Two generations of one stream: the later one goes on from the earlier one. -/
structure Agree (m : Manifest) (records : List Record) (m' : Manifest) (records' : List Record) :
    Prop where
  grows : m.revision ≤ m'.revision → records <+: records'
  same : m.revision = m'.revision → m.identity = m'.identity ∧ records = records'

theorem Precedes.agree (h : Precedes env m records d n) {m' : Manifest} {records' : List Record}
    (h' : Holds env d m' records') (hstream : m.stream = m'.stream) :
    Agree m records m' records' ∧ Agree m' records' m records := by
  obtain ⟨hle, hprefix, hsame⟩ := h.follows _ _ h' hstream
  refine ⟨⟨fun _ => hprefix, hsame⟩, ⟨fun hge => ?_, fun heq => ?_⟩⟩
  · obtain ⟨-, heq⟩ := hsame (Nat.le_antisymm hle hge)
    rw [heq]
  · obtain ⟨hidentity, hrecords⟩ := hsame heq.symm
    exact ⟨hidentity.symm, hrecords.symm⟩

/-! ## The invariant -/

/-- The disks that the fleet passed through. -/
structure History (env : Env) (s : Fleet) : Prop where
  here : s.disk ∈ s.passed
  stands : ∀ d ∈ s.passed, ∃ rows, Stands env d rows
  precedes : ∀ d ∈ s.passed, ∀ m records, Holds env d m records →
    Precedes env m records s.disk s.drawn
  agree : ∀ d ∈ s.passed, ∀ d' ∈ s.passed, ∀ m records m' records', Holds env d m records →
    Holds env d' m' records' → m.stream = m'.stream → Agree m records m' records'

/-- One of the disks had the generation. -/
def Recorded (env : Env) (passed : List Disk) (i : Identity) : Prop :=
  ∃ d ∈ passed, ∃ m records, Holds env d m records ∧ m.identity = i

theorem Recorded.cons {passed : List Disk} {i : Identity} (h : Recorded env passed i) (d : Disk) :
    Recorded env (d :: passed) i := by
  obtain ⟨d', hd', hrest⟩ := h
  exact ⟨d', List.mem_cons_of_mem _ hd', hrest⟩

/-- What a process knows of the disk, and of the version that it asked for. -/
structure Holder (env : Env) (s : Fleet) (process : Process) : Prop where
  knows : Knows env s.disk s.drawn process.manager
  recorded : ∀ i, process.manager.loaded = some i → Recorded env s.passed i
  remembers : Remembers env process.before
  loadedKeys : (process.before.loadedCounts.map Prod.fst).Nodup
  asked : ∀ i, process.before.loaded = some i → Recorded env s.passed i

/-- A fleet on whose disk the rows are. -/
structure Sane (env : Env) (rows : String → List Value) (s : Fleet) : Prop where
  stands : Stands env s.disk rows
  named : Named env s.disk s.drawn
  history : History env s
  holder : ∀ p process, s.processes p = some process → Holder env s process

/-- A fleet without processes. -/
def Fleet.alone (d : Disk) (n : Nat) : Fleet :=
  { disk := d, drawn := n, processes := fun _ => none, passed := [d] }

theorem sane_alone (henv : env.Sound) (hstands : Stands env d rows) (hnamed : Named env d n) :
    Sane env rows (Fleet.alone d n) where
  stands := hstands
  named := hnamed
  history :=
    { here := List.mem_singleton_self d
      stands := fun d' hd' => by
        rw [List.mem_singleton.mp hd']
        exact ⟨rows, hstands⟩
      precedes := fun d' hd' m records h => by
        rw [List.mem_singleton.mp hd'] at h
        exact h.precedes henv hnamed
      agree := fun d₁ hd₁ d₂ hd₂ m records m' records' h h' hstream => by
        rw [List.mem_singleton.mp hd₁] at h
        rw [List.mem_singleton.mp hd₂] at h'
        exact ((h.precedes henv hnamed).agree h' hstream).1 }
  holder := fun _ _ hnone => by cases hnone

variable {p : Nat} {process : Process} {disk : Disk} {drawn : Nat} {left : Option Process}
  {rows' : String → List Value}

theorem History.leave (henv : env.Sound) (h : History env s)
    (hchange : Change env s.disk s.drawn disk drawn) (hstands : Stands env disk rows')
    (hnamed : Named env disk drawn) : History env (s.leave p disk drawn left) := by
  have hprecedes : ∀ d ∈ disk :: s.passed, ∀ m records, Holds env d m records →
      Precedes env m records disk drawn := by
    intro d hd m records hholds
    rcases List.mem_cons.mp hd with rfl | hd
    · exact hholds.precedes henv hnamed
    · exact (h.precedes d hd m records hholds).change henv hchange
  refine ⟨List.mem_cons_self, ?_, hprecedes, ?_⟩
  · intro d hd
    rcases List.mem_cons.mp hd with rfl | hd
    · exact ⟨rows', hstands⟩
    · exact h.stands d hd
  · intro d hd d' hd' m records m' records' hholds hholds' hstream
    -- one of the two is the new disk, or neither is
    rcases List.mem_cons.mp hd' with rfl | hold'
    · exact ((hprecedes d hd m records hholds).agree hholds' hstream).1
    · rcases List.mem_cons.mp hd with rfl | hold
      · exact ((hprecedes d' hd' m' records' hholds').agree hholds hstream.symm).2
      · exact h.agree d hold d' hold' m records m' records' hholds hholds' hstream

theorem Holder.leave (henv : env.Sound) (h : Holder env s process)
    (hchange : Change env s.disk s.drawn disk drawn) :
    Holder env (s.leave p disk drawn left) process where
  knows := h.knows.change henv hchange
  recorded := fun i hi => (h.recorded i hi).cons disk
  remembers := h.remembers
  loadedKeys := h.loadedKeys
  asked := fun i hi => (h.asked i hi).cons disk

/-- **A step keeps the invariant** where the process that took it does. -/
theorem Sane.leave (henv : env.Sound) (h : Sane env rows s)
    (hchange : Change env s.disk s.drawn disk drawn) (hstands : Stands env disk rows')
    (hleft : ∀ process, left = some process → Holder env (s.leave p disk drawn left) process) :
    Sane env rows' (s.leave p disk drawn left) where
  stands := hstands
  named := hchange.named henv h.named
  history := h.history.leave henv hchange hstands (hchange.named henv h.named)
  holder := fun q process hprocess => by
    change (if q = p then left else s.processes q) = some process at hprocess
    split at hprocess
    · exact hleft process hprocess
    · exact (h.holder q process hprocess).leave henv hchange

/-- The manager goes on after its operation. -/
theorem Holder.after (h : Holder env s process) {c : Core}
    (hloads : Loads env (s.core process.manager) c) (hknows : Knows env c.disk c.drawn c.manager) :
    Holder env (s.leave p c.disk c.drawn left) { process with manager := c.manager } where
  knows := hknows
  recorded := fun i hi => by
    rcases hloads with hsame | ⟨m, records, hholds, hloaded⟩
    · exact (h.recorded i (hsame ▸ hi)).cons c.disk
    · change c.manager.loaded = some i at hi
      rw [hloaded, Option.some.injEq] at hi
      exact ⟨c.disk, List.mem_cons_self, m, records, hholds, hi⟩
  remembers := h.remembers
  loadedKeys := h.loadedKeys
  asked := fun i hi => (h.asked i hi).cons c.disk

/-- What an operation comes to. -/
theorem runs_cases {α : Type} {x : Op α} {Q : α → Core → Prop} {E : Stop → Core → Prop}
    (h : Does (· = s.core process.manager) x Q E) (p : Nat) (faults : List Fault) :
    (∃ a c, Q a c ∧ s.runs p process x faults =
      s.leave p c.disk c.drawn (some { process with manager := c.manager })) ∨
    (∃ c, E .crash c ∧ s.runs p process x faults = s.leave p c.disk c.drawn none) ∨
    (∃ e c, E (.raised e) c ∧ s.runs p process x faults =
      s.leave p c.disk c.drawn (some { process with manager := c.manager })) := by
  have hpost := h ⟨s.core process.manager, faults⟩ rfl
  unfold Fleet.runs
  cases hx : x ⟨s.core process.manager, faults⟩ with
  | ok a w =>
      rw [hx] at hpost
      exact .inl ⟨a, w.core, hpost, rfl⟩
  | error stop w =>
      rw [hx] at hpost
      cases stop with
      | crash => exact .inr (.inl ⟨w.core, hpost, rfl⟩)
      | raised e => exact .inr (.inr ⟨e, w.core, hpost, rfl⟩)

end TradingFleet.Cache
