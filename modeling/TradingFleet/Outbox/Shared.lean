import Mathlib.Algebra.Order.BigOperators.Group.List
import TradingFleet.Outbox.Effects

set_option autoImplicit false

/-! # The outbox between processes

Producer processes and one worker share the queue file. Each operation holds the file lock,
so it is one step; everything between two operations may be interleaved with steps of the
others, and a process may crash there. `Shared` is the queue with what the operating system
knows (which processes run) and with the history the results speak about: who was granted a
claim, which claims were completed, which leases have been superseded.

`uuid4` is a source of values that never repeat; process identities never repeat either.
-/

namespace TradingFleet.Outbox

open TradingFleet.Text TradingFleet.Keyed

/-! ## Processes -/

/-- A process: its PID and the identity `_process_start_identity` reads for it, which
survives PID reuse. -/
structure Process where
  pid : Nat
  start : String
  pid_pos : 0 < pid := by decide
  start_text : strip start = start ∧ start ≠ "" := by decide
deriving DecidableEq

/-- What reading `/proc/<pid>/stat` gives. -/
inductive ProcRead where
  | identity (start : String)
  | gone
  | unreadable
deriving DecidableEq

inductive OwnerState where
  | alive
  | dead
  | mismatched
  | unknown
deriving DecidableEq, Repr

/-- Only `dead` and `mismatched` authorize worker recovery. -/
def producerClaimOwnerState (read : Nat → ProcRead) (r : Record) : OwnerState :=
  let start := strip (r.producerProcessStartId.getD "")
  match r.producerPid with
  | none => .unknown
  | some pid =>
      if start = "" || pid = 0 then .unknown
      else
        match read pid with
        | .identity current => if current = start then .alive else .mismatched
        | .gone => .dead
        | .unreadable => .unknown

/-- A source of UUIDs: the next one is not among those used. -/
structure UuidSource where
  next : List String → String
  fresh : ∀ used, next used ∉ used

/-- A source that is longer each time. -/
def UuidSource.longest : UuidSource where
  next used := String.ofList (List.replicate ((used.map String.length).sum + 1) 'u')
  fresh := by
    intro used hmem
    have hle : (String.ofList (List.replicate ((used.map String.length).sum + 1) 'u')).length
        ≤ (used.map String.length).sum :=
      List.single_le_sum (fun _ _ => Nat.zero_le _) _ (List.mem_map_of_mem hmem)
    simp at hle

/-! ## The shared state -/

/-- The lease a record carries: its token at its current revision. -/
structure Lease where
  recordId : String
  token : String
  revision : Nat
deriving DecidableEq

def Record.lease (r : Record) : Option Lease := r.claimToken.map (fun t => ⟨r.id, t, r.revision⟩)

/-- A successful `enqueue_claimed` or `begin_claimed_submit`. -/
structure Grant where
  process : Process
  recordId : String
  token : String
deriving DecidableEq

structure Shared where
  queue : Queue
  used : List String
  spawned : List Process
  running : List Process
  worker : Process
  /-- the snapshots producers keep in memory -/
  held : List (Process × Record)
  /-- newest first -/
  grants : List Grant
  /-- record and token of the claims a `complete_claim` finalized -/
  completed : List (String × String)
  superseded : List Lease

/-- Replace the queue; leases that are no longer on a record are superseded. -/
def Shared.write (sh : Shared) (q : Queue) : Shared :=
  { sh with
    queue := q
    superseded :=
      (sh.queue.filterMap Record.lease).filter (fun l => l ∉ q.filterMap Record.lease) ++
        sh.superseded }

/-- `begin_claimed_submit` by a process. -/
def Shared.begin (sh : Shared) (p : Process) (start : Option String) (snap : Record)
    (now lease : ℚ) : Option Record × Shared :=
  match beginClaimedSubmit snap now lease p.pid start sh.queue with
  | (none, _) => (none, sh)
  | (some r, q) =>
      (some r,
        { sh.write q with grants := ⟨p, r.id, snap.claimToken.getD ""⟩ :: sh.grants })

/-- `complete_claim`; it raises on a report it does not know. -/
def Shared.complete (sh : Shared) (claimed : Record) (c : CompleteArgs) :
    Except String (Bool × Shared) :=
  match completeClaim claimed c sh.queue with
  | .error e => .error e
  | .ok (false, _) => .ok (false, sh)
  | .ok (true, q) =>
      .ok (true,
        { sh.write q with completed := (claimed.id, claimed.claimToken.getD "") :: sh.completed })

/-! ## Steps of the other processes -/

/-- A producer keeps to its protocol: it enqueues, begins, submits and completes under the
snapshots it was given. -/
inductive EnvAction where
  | spawn (p : Process)
  | crash (p : Process)
  | enqueue (p : Process) (a : EnqueueArgs)
  | enqueueClaimed (p : Process) (a : EnqueueArgs) (lease : Option ℚ)
  | begin (p : Process) (snap : Record) (now lease : ℚ)
  | submit (p : Process) (snap : Record)
  | complete (p : Process) (snap : Record) (c : CompleteArgs)

/-- The process that acts is a running producer. -/
def Shared.producer (sh : Shared) (p : Process) : Bool := p ∈ sh.running && p ≠ sh.worker

def Shared.contextFor (sh : Shared) (uuid : UuidSource) (p : Process) : CallContext where
  recordId := uuid.next sh.used
  token := uuid.next (uuid.next sh.used :: sh.used)
  pid := p.pid
  startIdentity := some p.start

def Shared.drawn (sh : Shared) (uuid : UuidSource) : List String :=
  uuid.next (uuid.next sh.used :: sh.used) :: uuid.next sh.used :: sh.used

/-- One step of another process; a step that is not possible does nothing. -/
def EnvAction.apply (cfg : Config) (uuid : UuidSource) (act : EnvAction) (sh : Shared) : Shared :=
  match act with
  | .spawn p =>
      -- an identity is used once, and a PID belongs to one running process
      if p ∈ sh.spawned ∨ p.pid ∈ sh.running.map Process.pid then sh
      else { sh with spawned := p :: sh.spawned, running := p :: sh.running }
  | .crash p =>
      if p = sh.worker then sh else { sh with running := sh.running.filter (· ≠ p) }
  | .enqueue p a =>
      if sh.producer p && a.producerLease.isNone then
        { sh.write (Outbox.enqueue cfg a (sh.contextFor uuid p) sh.queue).2 with
          used := sh.drawn uuid }
      else sh
  | .enqueueClaimed p a lease =>
      if sh.producer p then
        match Outbox.enqueueClaimed cfg a lease (sh.contextFor uuid p) sh.queue with
        | (.claimed snap, q) =>
            { sh.write q with
              used := sh.drawn uuid
              held := (p, snap) :: sh.held
              grants := ⟨p, snap.id, (sh.contextFor uuid p).token⟩ :: sh.grants }
        | (_, q) => { sh.write q with used := sh.drawn uuid }
      else sh
  | .begin p snap now lease =>
      if sh.producer p && (p, snap) ∈ sh.held then
        match sh.begin p (some p.start) snap now lease with
        | (none, _) => sh
        | (some r, sh') => { sh' with held := (p, r) :: sh'.held }
      else sh
  | .submit _ _ => sh
  | .complete p snap c =>
      if sh.producer p && (p, snap) ∈ sh.held then
        match sh.complete snap c with
        | .error _ => sh
        | .ok (_, sh') => sh'
      else sh

end TradingFleet.Outbox
