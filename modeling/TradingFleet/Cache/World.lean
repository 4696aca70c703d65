import TradingFleet.Basic.Hoare
import TradingFleet.Cache.Manifest

set_option autoImplicit false

/-! # The files and their faults

The files of one trade cache: the rows, the manifest beside them, the generation a rewrite keeps
until its manifest is written (`.previous`), and the archives of rotations. An operation on them is
done, or it fails, or the process stops in it; a list of faults says which. A file is replaced as a
whole (`os.replace`); what is appended to a file can be cut anywhere, and `junk` is then what
stands in its place. A file holds ASCII text, so a character is a byte. Reading does not fail.
-/

namespace TradingFleet.Cache

open Hoare

/-! ## Files -/

/-- `.previous`: a hard link to the file of the rows, or a file of its own. -/
inductive Previous where
  | linked
  | own (text : List Char)
deriving DecidableEq

structure Disk where
  data : Option (List Char)
  manifest : Option MetaFile
  previous : Option Previous
  archives : List (List Char)

def Disk.empty : Disk := { data := none, manifest := none, previous := none, archives := [] }

def Disk.previousText (d : Disk) : Option (List Char) :=
  match d.previous with
  | none => none
  | some .linked => d.data
  | some (.own text) => some text

/-- The rows under a new name: a link to the old ones becomes their only name. -/
def Disk.replaceData (d : Disk) (text : List Char) : Disk :=
  { d with
    data := some text
    previous := match d.previous, d.data with
      | some .linked, some old => some (.own old)
      | previous, _ => previous }

def Disk.writeManifest (d : Disk) (m : Manifest) : Disk := { d with manifest := some (.json m.toJson) }

/-- `atomic_snapshot_file(filename, filename + ".previous")` -/
def Disk.stagePrevious (d : Disk) (links : Bool) : Disk :=
  { d with previous := if links then some .linked else d.data.map .own }

/-- `os.replace(filename + ".previous", filename)`; between two names of one file it does
nothing. -/
def Disk.restorePrevious (d : Disk) : Disk :=
  match d.previous with
  | some (.own text) => { d with data := some text, previous := none }
  | _ => d

def Disk.discardPrevious (d : Disk) : Disk := { d with previous := none }

/-- The rows are written in place: a link sees the change. -/
def Disk.editData (d : Disk) (edit : List Char → List Char) : Disk :=
  { d with data := d.data.map edit }

def Disk.createData (d : Disk) : Disk := { d with data := some (d.data.getD []) }

/-! ## Managers -/

/-- `_persisted_data_version` and the fields that go with it. -/
structure Identity where
  stream : String
  revision : Nat
  committedBytes : Nat
  contentDigest : String
deriving DecidableEq

def Manifest.identity (m : Manifest) : Identity :=
  { stream := m.stream
    revision := m.revision
    committedBytes := m.committedBytes
    contentDigest := m.contentDigest }

def Identity.dataVersion (i : Identity) : String := tradeDataVersion i.stream i.revision

/-- The memory of a `CacheTradeManager`. `persisted` and `loaded` are `none` where the version is
the empty string. -/
structure Manager where
  cache : Rows
  fetchtime : List (String × Int)
  persistedCounts : List (String × Nat)
  persisted : Option Identity
  loaded : Option Identity
  loadedCounts : List (String × Nat)
  dirty : Bool
  needsRewrite : Bool

/-- A manager before it has loaded anything. -/
def Manager.fresh : Manager :=
  { cache := [], fetchtime := [], persistedCounts := [], persisted := none, loaded := none
    loadedCounts := [], dirty := false, needsRewrite := false }

/-- `dict.get(symbol, 0)` -/
def countAt (counts : List (String × Nat)) (symbol : String) : Nat := (counts.lookup symbol).getD 0

/-- `_mem_max_ts` -/
def Manager.memMaxTs (m : Manager) : Int := maxOr0 (m.fetchtime.map Prod.snd)

/-! ## Programs -/

/-- What an operation on the disk meets. `applied` says whether it took effect all the same. -/
inductive Fault where
  | done
  | fails (applied : Bool) (junk : List Char)
  | crashes (applied : Bool) (junk : List Char)
deriving DecidableEq

inductive Err where
  | notReady
  | os
  | value
deriving DecidableEq

/-- How a program ends early: the process stops, or an exception is raised. -/
inductive Stop where
  | crash
  | raised (e : Err)
deriving DecidableEq

/-- The files, one manager, and the number of stream names drawn. -/
structure Core where
  disk : Disk
  manager : Manager
  drawn : Nat

structure World where
  core : Core
  faults : List Fault

abbrev Op (α : Type) := EStateM Stop World α

def Core.onDisk (c : Core) (f : Disk → Disk) : Core := { c with disk := f c.disk }

def Core.onManager (c : Core) (f : Manager → Manager) : Core := { c with manager := f c.manager }

def getCore : Op Core := fun w => .ok w.core w

def modifyCore (f : Core → Core) : Op Unit := fun w => .ok () { w with core := f w.core }

def modifyManager (f : Manager → Manager) : Op Unit := modifyCore (·.onManager f)

theorem getCore_bind {α : Type} (f : Core → Op α) (w : World) : (getCore >>= f) w = f w.core w :=
  rfl

/-- The next fault; where none is left, all is done. -/
def nextFault : Op Fault := fun w =>
  match w.faults with
  | [] => .ok .done w
  | f :: faults => .ok f { w with faults := faults }

def raise {α : Type} (e : Err) : Op α := throw (.raised e)

def crash {α : Type} : Op α := throw .crash

/-- `try … except Exception`: a process that stops runs no handler. -/
def catching {α : Type} (x : Op α) (handler : Op α) : Op α :=
  tryCatch x (fun stop => if stop = .crash then throw stop else handler)

/-- `catching`, where the handler goes on with `none`. -/
def attempt {α : Type} (x : Op α) : Op (Option α) := catching (some <$> x) (pure none)

/-- An operation with the effect it has when it is done, and when it fails or the process stops. -/
def diskOp (effect : Disk → Disk) (failed crashed : Bool → List Char → Disk → Disk) : Op Unit := do
  match ← nextFault with
  | .done => modifyCore (·.onDisk effect)
  | .fails applied junk =>
      modifyCore (·.onDisk (failed applied junk))
      raise .os
  | .crashes applied junk =>
      modifyCore (·.onDisk (crashed applied junk))
      crash

def whenApplied (effect : Disk → Disk) (applied : Bool) (_junk : List Char) : Disk → Disk :=
  if applied then effect else id

def untouched (_applied : Bool) (_junk : List Char) : Disk → Disk := id

/-! ## Operations on the files -/

/-- `atomic_write(filename)`: what raises before `os.replace` leaves the file alone, and nothing
raises after it. -/
def replaceData (text : List Char) : Op Unit :=
  diskOp (·.replaceData text) untouched (whenApplied (·.replaceData text))

/-- `_write_meta` -/
def writeMeta (m : Manifest) : Op Bool := do
  match ← nextFault with
  | .done =>
      modifyCore (·.onDisk (·.writeManifest m))
      pure true
  | .fails _ _ => pure false
  | .crashes applied _ =>
      if applied then modifyCore (·.onDisk (·.writeManifest m))
      crash

/-- `_stage_previous_trade_generation` -/
def stagePrevious (links : Bool) : Op Unit :=
  diskOp (·.stagePrevious links) (whenApplied (·.stagePrevious links))
    (whenApplied (·.stagePrevious links))

/-- `_restore_previous_trade_generation` -/
def restorePrevious : Op Unit :=
  diskOp Disk.restorePrevious (whenApplied Disk.restorePrevious) (whenApplied Disk.restorePrevious)

/-- `_discard_trade_generation`: an `OSError` is passed over. -/
def discardPrevious : Op Unit :=
  catching (diskOp Disk.discardPrevious untouched (whenApplied Disk.discardPrevious)) (pure ())

/-- `open(filename, "r+b" if exists else "w+b")` -/
def openData : Op Unit :=
  diskOp Disk.createData (whenApplied Disk.createData) (whenApplied Disk.createData)

/-- `truncate(size)` -/
def truncateData (size : Nat) : Op Unit :=
  diskOp (·.editData (·.take size)) (whenApplied (·.editData (·.take size)))
    (whenApplied (·.editData (·.take size)))

/-- `write(…)`, `flush` and `fsync` behind `size` bytes. -/
def appendData (size : Nat) (text : List Char) : Op Unit :=
  diskOp (·.editData (·.take size ++ text)) (fun _ junk => (·.editData (·.take size ++ junk)))
    (fun _ junk => (·.editData (·.take size ++ junk)))

/-! ## What the programs do -/

/-- One condition where the process stops, another where an exception is raised. -/
def OnStop (crashed raised : Core → Prop) : Stop → Core → Prop
  | .crash => crashed
  | .raised _ => raised

/-- `Post` of the outcome, whatever faults are left. -/
def Does {α : Type} (P : Core → Prop) (x : Op α) (Q : α → Core → Prop) (E : Stop → Core → Prop) :
    Prop :=
  Triple (fun w => P w.core) x (fun a w => Q a w.core) (fun e w => E e w.core)

section Rules

variable {α β : Type} {P P' : Core → Prop} {Q Q' : α → Core → Prop} {R : β → Core → Prop}
  {E E' : Stop → Core → Prop}

theorem Does.pure {a : α} (h : ∀ c, P c → Q a c) : Does P (Pure.pure a : Op α) Q E :=
  Triple.pure (fun w hw => h w.core hw)

theorem Does.bind {x : Op α} {f : α → Op β} (hx : Does P x Q E) (hf : ∀ a, Does (Q a) (f a) R E) :
    Does P (x >>= f) R E :=
  Triple.bind hx hf

theorem Does.conseq {x : Op α} (h : Does P x Q E) (hP : ∀ c, P' c → P c)
    (hQ : ∀ a c, Q a c → Q' a c) (hE : ∀ e c, E e c → E' e c) : Does P' x Q' E' :=
  Triple.conseq h (fun w hw => hP w.core hw) (fun a w hw => hQ a w.core hw)
    (fun e w hw => hE e w.core hw)

theorem Does.raise {e : Err} (h : ∀ c, P c → E (.raised e) c) :
    Does P (Cache.raise e : Op α) Q E :=
  Triple.throw (fun w hw => h w.core hw)

theorem Does.crash (h : ∀ c, P c → E .crash c) : Does P (Cache.crash : Op α) Q E :=
  Triple.throw (fun w hw => h w.core hw)

/-- Afterwards the value read is the state. -/
theorem Does.getCore {f : Core → Op β} (h : ∀ c, P c → Does (· = c) (f c) R E) :
    Does P (Cache.getCore >>= f) R E :=
  fun w hw => h w.core hw w rfl

theorem Does.modifyCore {f : Core → Core} {Q : Unit → Core → Prop} (h : ∀ c, P c → Q () (f c)) :
    Does P (Cache.modifyCore f) Q E :=
  fun w hw => h w.core hw

theorem Does.of_fact {p : Prop} {x : Op α} (h : p → Does P x Q E) :
    Does (fun c => p ∧ P c) x Q E :=
  fun w hw => h hw.1 w hw.2

theorem Does.ite {p : Prop} [Decidable p] {x y : Op α} (hx : p → Does P x Q E)
    (hy : ¬ p → Does P y Q E) : Does P (if p then x else y) Q E := by
  by_cases h : p
  · rw [if_pos h]
    exact hx h
  · rw [if_neg h]
    exact hy h

/-- The handler runs on what raised, and not where the process stopped. -/
theorem Does.catching {x handler : Op α} (between : Stop → Core → Prop) (hx : Does P x Q between)
    (hcrash : ∀ c, between .crash c → E .crash c)
    (hh : ∀ e, Does (between (.raised e)) handler Q E) : Does P (Cache.catching x handler) Q E := by
  refine Triple.tryCatch hx (fun stop => ?_)
  cases stop with
  | crash => exact Triple.throw (fun w hw => hcrash w.core hw)
  | raised e => exact hh e

theorem Does.map {x : Op α} {f : α → β} (hx : Does P x (fun a c => R (f a) c) E) :
    Does P (f <$> x) R E := by
  intro w hw
  have h := hx w hw
  show Post _ _ (EStateM.map f x w)
  unfold EStateM.map
  cases hxw : x w with
  | ok a w' =>
      rw [hxw] at h
      exact h
  | error e w' =>
      rw [hxw] at h
      exact h

theorem Does.attempt {x : Op α} {Q : Option α → Core → Prop} (between : Stop → Core → Prop)
    (hx : Does P x (fun a => Q (some a)) between) (hcrash : ∀ c, between .crash c → E .crash c)
    (hraised : ∀ e c, between (.raised e) c → Q none c) : Does P (Cache.attempt x) Q E :=
  Does.catching between hx.map hcrash (fun e => Does.pure (hraised e))

theorem Does.nextFault {f : Fault → Op β} (h : ∀ fault, Does P (f fault) R E) :
    Does P (Cache.nextFault >>= f) R E := by
  intro w hw
  show Post _ _ (EStateM.bind Cache.nextFault f w)
  unfold EStateM.bind Cache.nextFault
  cases hfaults : w.faults with
  | nil => exact h .done w hw
  | cons fault faults => exact h fault { w with faults := faults } hw

/-- An operation is done, or fails, or is the last one. -/
theorem Does.diskOp {effect : Disk → Disk} {failed crashed : Bool → List Char → Disk → Disk}
    {Q : Unit → Core → Prop} (hdone : ∀ c, P c → Q () (c.onDisk effect))
    (hfailed : ∀ c applied junk, P c → E (.raised .os) (c.onDisk (failed applied junk)))
    (hcrashed : ∀ c applied junk, P c → E .crash (c.onDisk (crashed applied junk))) :
    Does P (Cache.diskOp effect failed crashed) Q E := by
  refine Does.nextFault (fun fault => ?_)
  cases fault with
  | done => exact Does.modifyCore hdone
  | fails applied junk =>
      exact Does.bind (Does.modifyCore (fun c hc => hfailed c applied junk hc))
        (fun _ => Does.raise (fun _ hc => hc))
  | crashes applied junk =>
      exact Does.bind (Does.modifyCore (fun c hc => hcrashed c applied junk hc))
        (fun _ => Does.crash (fun _ hc => hc))

/-- An operation that took effect or did not. -/
theorem Does.applied {effect : Disk → Disk} (after : Core → Prop) (h : ∀ c, P c → after c)
    (he : ∀ c, P c → after (c.onDisk effect)) (c : Core) (applied : Bool) (junk : List Char)
    (hc : P c) : after (c.onDisk (whenApplied effect applied junk)) := by
  cases applied with
  | false => exact h c hc
  | true => exact he c hc

/-- The manifest is written, or it is not. -/
theorem Does.writeMeta {m : Manifest} {Q : Bool → Core → Prop}
    (hdone : ∀ c, P c → Q true (c.onDisk (·.writeManifest m))) (hfailed : ∀ c, P c → Q false c)
    (hcrashed : ∀ c, P c → E .crash c ∧ E .crash (c.onDisk (·.writeManifest m))) :
    Does P (Cache.writeMeta m) Q E := by
  refine Does.nextFault (fun fault => ?_)
  cases fault with
  | done =>
      exact Does.bind (Q := fun _ => Q true) (Does.modifyCore hdone) (fun _ => Does.pure (fun _ hc => hc))
  | fails applied junk => exact Does.pure hfailed
  | crashes applied junk =>
      cases applied with
      | false => exact Does.crash (fun c hc => (hcrashed c hc).1)
      | true =>
          exact Does.bind (Does.modifyCore (fun c hc => (hcrashed c hc).2))
            (fun _ => Does.crash (fun _ hc => hc))

/-- The old generation is gone, or it is still there. -/
theorem Does.discardPrevious {Q : Unit → Core → Prop}
    (hdone : ∀ c, P c → Q () (c.onDisk Disk.discardPrevious)) (hfailed : ∀ c, P c → Q () c)
    (hcrashed : ∀ c, P c → E .crash c ∧ E .crash (c.onDisk Disk.discardPrevious)) :
    Does P Cache.discardPrevious Q E := by
  refine Does.catching (OnStop (E .crash) (Q ())) (Does.diskOp hdone ?_ ?_) (fun c hc => hc) (fun e => Does.pure (fun c hc => hc))
  · exact fun c _ _ hc => hfailed c hc
  · intro c applied junk hc
    exact Does.applied (fun c => E .crash c) (fun c hc => (hcrashed c hc).1)
      (fun c hc => (hcrashed c hc).2) c applied junk hc

end Rules

end TradingFleet.Cache
