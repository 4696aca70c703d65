import Mathlib.Algebra.Order.Ring.Rat
import Mathlib.Logic.Function.Basic
import TradingFleet.Basic.Text

set_option autoImplicit false

/-! # The cooldown gate

`lock/cooldown.py`: at most one operation per key within its TTL. A slot reserves its key
under the file lock, runs its body without the lock, and rolls its reservation back unless
the body committed it. Members of one group share a reservation.

Each function below is one locked section on the state file, a map from keys to entries; an
absent or unreadable file is the empty map. The names in `meta` and in the fields of a commit
are none of the entry's own (the trade gate passes `side`, `symbol`, `client_order_id` and
`binance_order_id`). Every reservation carries the number of the operation it was made for,
which no section reads.
-/

namespace TradingFleet.Lock

open TradingFleet.Text

/-! ## The state file -/

/-- Further fields of a JSON object. -/
abbrev Fields := List (String × Option String)

/-- `d[name] = value`. -/
def Fields.set (fields : Fields) (f : String × Option String) : Fields :=
  if fields.any (fun g => g.1 = f.1) then fields.map (fun g => if g.1 = f.1 then f else g)
  else fields ++ [f]

/-- `d.update(new)`. -/
def Fields.update (fields new : Fields) : Fields := new.foldl Fields.set fields

structure Writer where
  pid : Nat
  threadId : Nat
  processName : String
  hostname : String
deriving DecidableEq

/-- A name in `group_members`, with the operation that put it there. -/
structure Member where
  name : String
  number : Nat
deriving DecidableEq

structure Group where
  id : String
  members : List Member
  pending : List String
  committed : List String
  results : List (String × Fields)
deriving DecidableEq

structure Entry where
  timestamp : ℚ
  key : String
  writer : Writer
  group : Option Group
  extra : Fields
  number : Nat
deriving DecidableEq

abbrev State := String → Option Entry

def Entry.active (e : Entry) (ttl now : ℚ) : Bool := now - e.timestamp < ttl

/-! ## The sections -/

/-- Check and reserve the right to operate on a key. -/
def reserve (key : String) (ttl now : ℚ) (writer : Writer) (extra : Fields) (number : Nat)
    (s : State) : (Bool × Entry) × State :=
  let entry : Entry :=
    { timestamp := now, key := key, writer := writer, group := none, extra := extra,
      number := number }
  match s key with
  | none => ((true, entry), Function.update s key (some entry))
  | some last =>
      if last.active ttl now then ((false, last), s)
      else ((true, entry), Function.update s key (some entry))

/-- The group with one more member. -/
def Group.join (g : Group) (member : String) (number : Nat) : Group :=
  { g with members := g.members ++ [⟨member, number⟩], pending := g.pending ++ [member] }

/-- Reserve a member of a group. While the cooldown is active, only other members of the same
group get in. -/
def reserveGroupMember (key : String) (ttl : ℚ) (groupId memberName : String) (now : ℚ)
    (writer : Writer) (extra : Fields) (number : Nat) (s : State) : (Bool × Entry) × State :=
  let member := upper memberName
  let entry : Entry :=
    { timestamp := now, key := key, writer := writer,
      group := some ⟨groupId, [⟨member, number⟩], [member], [], []⟩, extra := extra,
      number := number }
  match s key with
  | none => ((true, entry), Function.update s key (some entry))
  | some last =>
      if last.active ttl now then
        match last.group with
        | none => ((false, last), s)
        | some g =>
            if g.id ≠ groupId then ((false, last), s)
            else if g.members.any (fun m => m.name = member) then ((false, last), s)
            else
              let joined := { last with group := some (g.join member number) }
              ((true, joined), Function.update s key (some joined))
      else ((true, entry), Function.update s key (some entry))

/-- The group with the member confirmed and its result kept. -/
def Group.confirm (g : Group) (member : String) (fields : Fields) : Group :=
  { g with
    pending := g.pending.erase member
    committed := if member ∈ g.committed then g.committed else g.committed ++ [member]
    results := g.results.filter (fun r => r.1 ≠ member) ++ [(member, fields)] }

def commitGroupMember (key groupId memberName : String) (fields : Fields) (s : State) : State :=
  match s key with
  | none => s
  | some entry =>
      match entry.group with
      | none => s
      | some g =>
          if g.id ≠ groupId then s
          else
            Function.update s key
              (some { entry with
                group := some (g.confirm (upper memberName) fields)
                extra := entry.extra.set ("side", some "PAIR") })

/-- The group without the member. -/
def Group.drop (g : Group) (member : String) : Group :=
  { g with
    members := g.members.filter (fun m => m.name ≠ member)
    pending := g.pending.filter (· ≠ member) }

/-- Withdraw only the uncommitted member. -/
def rollbackGroupMember (key groupId memberName : String) (s : State) : State :=
  let member := upper memberName
  match s key with
  | none => s
  | some entry =>
      match entry.group with
      | none => s
      | some g =>
          if g.id ≠ groupId then s
          else if member ∈ g.committed then s
          else if (g.drop member).members = [] then Function.update s key none
          else Function.update s key (some { entry with group := some (g.drop member) })

/-- Release a failed reservation. -/
def release (key : String) (s : State) : State :=
  if (s key).isSome then Function.update s key none else s

/-- Add fields to an existing reservation. -/
def update (key : String) (fields : Fields) (s : State) : State :=
  match s key with
  | none => s
  | some entry =>
      Function.update s key (some { entry with extra := entry.extra.update fields })

/-! ## Slots -/

inductive Kind where
  | slot
  | member (groupId name : String)
deriving DecidableEq

/-- An operation that was let in: its body runs, it committed, or it left without. -/
inductive Status where
  | running
  | committed
  | withdrawn
deriving DecidableEq

structure Operation where
  number : Nat
  key : String
  kind : Kind
  time : ℚ
  status : Status
deriving DecidableEq

def Operation.stands (o : Operation) : Bool := o.status ≠ .withdrawn

/-- Operations that were let in are numbered; the newest comes first. `clock` is the last
reading of `time.time()`. -/
structure World where
  state : State
  ops : List Operation
  clock : ℚ

inductive Event where
  | enterSlot (key : String) (now : ℚ) (writer : Writer) (extra : Fields)
  | enterGroupSlot (key groupId member : String) (now : ℚ) (writer : Writer) (extra : Fields)
  | commit (number : Nat) (fields : Fields)
  | leave (number : Nat)

/-- What entering a slot leaves behind: the file, and an operation if it was let in. -/
def World.enter (w : World) (key : String) (kind : Kind) (now : ℚ)
    (r : (Bool × Entry) × State) : World where
  state := r.2
  ops := if r.1.1 then ⟨w.ops.length, key, kind, now, .running⟩ :: w.ops else w.ops
  clock := now

def World.mark (w : World) (number : Nat) (status : Status) : List Operation :=
  w.ops.map (fun o => if o.number = number then { o with status := status } else o)

/-- `Reservation.commit` writes only when there are fields to write. -/
def Operation.commit (o : Operation) (fields : Fields) (s : State) : State :=
  match o.kind with
  | .slot => if fields = [] then s else update o.key fields s
  | .member groupId name => commitGroupMember o.key groupId name fields s

/-- The `finally` branch of an operation that did not commit. -/
def Operation.rollback (o : Operation) (s : State) : State :=
  match o.kind with
  | .slot => release o.key s
  | .member groupId name => rollbackGroupMember o.key groupId name s

def World.step (ttl : String → ℚ) (w : World) (e : Event) : World :=
  match e with
  | .enterSlot key now writer extra =>
      w.enter key .slot now (reserve key (ttl key) now writer extra w.ops.length w.state)
  | .enterGroupSlot key groupId member now writer extra =>
      w.enter key (.member groupId member) now
        (reserveGroupMember key (ttl key) groupId member now writer extra w.ops.length w.state)
  | .commit number fields =>
      match w.ops.find? (fun o => o.number = number && o.stands) with
      | none => w
      | some o =>
          { w with state := o.commit fields w.state, ops := w.mark number .committed }
  | .leave number =>
      match w.ops.find? (fun o => o.number = number && o.status = .running) with
      | none => w
      | some o => { w with state := o.rollback w.state, ops := w.mark number .withdrawn }

def World.empty (clock : ℚ) : World where
  state := fun _ => none
  ops := []
  clock := clock

end TradingFleet.Lock
