import TradingFleet.Lifecycle.Rules
import TradingFleet.Trailing.Step

set_option autoImplicit false

/-! # The trailing stop: every fill is applied once

An item is what its updates made of it (`replay`), so the fills in that record are the applications
of `_finish_pending`; they are the terminal results of its key, one for each (`Tied`). The invariant
`Inv` speaks about the items in memory and about those in the file alike, since any asset may write
both. What differs is the pending order: while a
tick runs, the two agree for the keys that are still to be processed.
-/

namespace TradingFleet.Trailing

open TradingFleet.Hoare TradingFleet.Lifecycle
open TradingFleet.Rounding (roundTo)

/-! ## The record of an item -/

def Update.fill? : Update → Option Fill
  | .finished fill => some fill
  | _ => none

/-- The fills applied to an item, newest first. -/
def Item.applied (st : Item) : List Fill := st.history.filterMap Update.fill?

def Item.serials (st : Item) : List Nat := st.applied.map Fill.serial

/-- What updates, newest first, make of a new item. -/
def replay (S : Settings) (start : ℚ) (history : List Update) : Core :=
  history.foldr (fun u core => core.apply S u) { peak := start }

/-- The fill says what the result says: whose it is, how much was filled, and at which average
price when the result has a cost. -/
structure Fill.Reports (fill : Fill) (result : Pending × OrderStatus) : Prop where
  serial : fill.serial = result.1.metadata.serial
  action : fill.action = result.1.metadata.action
  filled : fill.filled = result.2.filledQty
  avg : 0 < result.2.filledQty → 0 < result.2.cost → fill.avg = result.2.cost / result.2.filledQty

theorem fillOf_reports (intent : Pending) (status : OrderStatus) (price : ℚ) (armed : Bool) :
    (fillOf intent status price armed).Reports (intent, status) := by
  refine ⟨rfl, rfl, rfl, fun hfilled hcost => ?_⟩
  exact if_pos ⟨hfilled, hcost⟩

/-- The fills of the item are these results, one fill for each. -/
def Tied (slot : Option Item) (results : List (Pending × OrderStatus)) : Prop :=
  List.Forall₂ Fill.Reports ((slot.map Item.applied).getD []) results

/-- The result of `intent` with this status was applied. -/
def Item.Applied (st : Item) (intent : Pending) (status : OrderStatus) : Prop :=
  ∃ fill ∈ st.applied, fill.Reports (intent, status)

/-- The result is stored with the pending order and was not applied. -/
def Item.Awaits (st : Item) (intent : Pending) (status : OrderStatus) : Prop :=
  ∃ p, st.pendingOrder = some p ∧ p.metadata = intent.metadata ∧
    statusFromTerminalPayload p.terminalStatus = some status

def pendingOf (slot : Option Item) : Option Pending := slot.bind Item.pendingOrder

/-- Every SELL arms a re-buy: the policy that decides it always allows it. -/
def Setup.Armed (S : Setup) : Prop :=
  match S.venue.rebuyConfiguredFor <|> S.venue.rebuyEnabledFor with
  | some getter => ∀ n, getter n = .ok (some true) ∨ getter n = .error .crash
  | none => S.settings.rebuyEnabled = true

/-- What a live tick may do to the re-buy: it drops one that rounds to nothing, and a SELL arms
one. -/
def Update.Regular (S : Setup) (core : Core) : Update → Prop
  | .dropped => S.settings.enabled = true → ∀ rb, core.rebuy = some rb → roundTo rb.qty 8 ≤ 0
  | .finished fill => fill.action = .sell → 0 < fill.filled → S.Armed → fill.armed = true
  | _ => True

def Regular (S : Setup) (start : ℚ) : List Update → Prop
  | [] => True
  | u :: rest => u.Regular S (replay S.settings start rest) ∧ Regular S start rest

/-! ## The invariant -/

/-- The serial of a submit. -/
def Entry.submitted (e : Entry) : Option Nat :=
  match e.event with
  | .submit _ serial => some serial
  | _ => none

/-- What the file held when an event happened. -/
def Entry.Lawful (e : Entry) : Prop :=
  match e.event with
  | .submitting key _ => pendingOf (e.disk key) = none
  | .submit key serial => ∃ p, pendingOf (e.disk key) = some p ∧ p.metadata.serial = serial
  | .terminal key intent status => pendingOf (e.disk key) = some intent ∧
      statusFromTerminalPayload intent.terminalStatus = some status

structure Item.Sound (S : Setup) (calls : Nat) (log : List Entry) (key : String) (st : Item) :
    Prop where
  replayed : st.core = replay S.settings st.start st.history
  regular : Regular S st.start st.history
  once : st.serials.Nodup
  below : ∀ serial ∈ st.serials, serial < calls
  unapplied : ∀ p, st.pendingOrder = some p →
    p.metadata.serial < calls ∧ p.metadata.serial ∉ st.serials
  real : ∀ p, st.pendingOrder = some p → ∀ t, p.terminalStatus = some t → t.Real
  answered : ∀ e ∈ log, ∀ intent status, e.event = .terminal key intent status →
    st.Applied intent status ∨ st.Awaits intent status

/-- A key without an item has no terminal result. -/
structure Fits (S : Setup) (calls : Nat) (log : List Entry) (key : String) (slot : Option Item) :
    Prop where
  sound : ∀ st, slot = some st → st.Sound S calls log key
  silent : slot = none → ∀ e ∈ log, ∀ intent status, e.event ≠ .terminal key intent status

structure Inv (S : Setup) (todo : List String) (w : World) : Prop where
  state : ∀ key, Fits S w.calls w.log key (w.state key)
  disk : ∀ key, Fits S w.calls w.log key (w.disk key)
  results : ∀ key, Tied (w.state key) (w.results key)
  diskResults : ∀ key, Tied (w.disk key) (w.diskResults key)
  todo : ∀ key ∈ todo, pendingOf (w.state key) = pendingOf (w.disk key)
  lawful : ∀ e ∈ w.log, e.Lawful
  submits : (w.log.filterMap Entry.submitted).Nodup
  numbered : ∀ serial ∈ w.log.filterMap Entry.submitted, serial < w.calls

variable {S : Setup} {todo : List String} {key : String} {w : World} {st : Item}

theorem Item.Sound.mono {calls calls' : Nat} {log : List Entry} (h : st.Sound S calls log key)
    (hle : calls ≤ calls') : st.Sound S calls' log key :=
  { h with
    below := fun serial hs => lt_of_lt_of_le (h.below serial hs) hle
    unapplied := fun p hp =>
      ⟨lt_of_lt_of_le (h.unapplied p hp).1 hle, (h.unapplied p hp).2⟩ }

theorem Inv.called (h : Inv S todo w) : Inv S todo { w with calls := w.calls + 1 } where
  state := fun k =>
    ⟨fun st hst => ((h.state k).sound st hst).mono (Nat.le_succ _), (h.state k).silent⟩
  disk := fun k => ⟨fun st hst => ((h.disk k).sound st hst).mono (Nat.le_succ _), (h.disk k).silent⟩
  results := h.results
  diskResults := h.diskResults
  todo := h.todo
  lawful := h.lawful
  submits := h.submits
  numbered := fun serial hs => Nat.lt_succ_of_lt (h.numbered serial hs)

theorem Inv.stored (h : Inv S todo w) : Inv S todo w.stored :=
  { h with disk := h.state, diskResults := h.results, todo := fun _ _ => rfl }

theorem Inv.tail (h : Inv S (key :: todo) w) : Inv S todo w :=
  { h with todo := fun k hk => h.todo k (List.mem_cons_of_mem _ hk) }

theorem Inv.forget (h : Inv S todo w) : Inv S [] w :=
  { h with todo := fun _ hk => by cases hk }

/-- The item of a key that is not waiting may become any sound item with the same fills. -/
theorem Inv.set (h : Inv S todo w) (hkey : key ∉ todo) (hst : st.Sound S w.calls w.log key)
    (hsame : st.applied = ((w.state key).map Item.applied).getD []) :
    Inv S todo { w with state := Function.update w.state key (some st) } := by
  refine { h with state := fun k => ?_, results := fun k => ?_, todo := fun k hk => ?_ }
  · by_cases hk : k = key
    · subst hk
      simp only [Function.update_self]
      refine ⟨fun st' hst' => ?_, fun hnone => by cases hnone⟩
      cases hst'
      exact hst
    · simp only [Function.update_of_ne hk]
      exact h.state k
  · by_cases hk : k = key
    · subst hk
      unfold Tied
      simp only [Function.update_self]
      show List.Forall₂ Fill.Reports st.applied (w.results k)
      rw [hsame]
      exact h.results k
    · simp only [Function.update_of_ne hk]
      exact h.results k
  · have hne : k ≠ key := fun heq => hkey (heq ▸ hk)
    simp only [Function.update_of_ne hne]
    exact h.todo k hk

/-- An entry may be added when the file says what the event needs. A terminal result is that of the
pending order in memory. -/
theorem Inv.logged (h : Inv S todo w) {e : Event} (hlaw : Entry.Lawful ⟨w.disk, e⟩)
    (hfresh : ∀ serial, Entry.submitted ⟨w.disk, e⟩ = some serial →
      serial < w.calls ∧ serial ∉ w.log.filterMap Entry.submitted)
    (hheld : ∀ k intent status, e = .terminal k intent status →
      pendingOf (w.state k) = some intent) :
    Inv S todo { w with log := ⟨w.disk, e⟩ :: w.log } := by
  have hfits : ∀ (book : Book) (k : String), Fits S w.calls w.log k (book k) →
      (∀ intent status, e = .terminal k intent status → pendingOf (book k) = some intent) →
      Fits S w.calls (⟨w.disk, e⟩ :: w.log) k (book k) := by
    intro book k hfit hpend
    refine ⟨fun st hst => ?_, fun hnone e' he' intent status heq => ?_⟩
    · refine { hfit.sound st hst with answered := fun e' he' intent status heq => ?_ }
      rcases List.mem_cons.mp he' with rfl | hold
      · -- the new result waits with the pending order
        have hp := hpend intent status heq
        rw [hst] at hp
        unfold Entry.Lawful at hlaw
        rw [heq] at hlaw
        exact Or.inr ⟨intent, hp, rfl, hlaw.2⟩
      · exact (hfit.sound st hst).answered e' hold intent status heq
    · rcases List.mem_cons.mp he' with rfl | hold
      · have hp := hpend intent status heq
        rw [hnone] at hp
        cases hp
      · exact hfit.silent hnone e' hold intent status heq
  -- the memory and the file are judged by the same rule
  refine { h with
    state := fun k => hfits w.state k (h.state k) (hheld k)
    disk := fun k => hfits w.disk k (h.disk k) (fun intent status heq => ?_)
    lawful := fun e' he' => ?_
    submits := ?_
    numbered := fun serial hs => ?_ }
  · unfold Entry.Lawful at hlaw
    simp only at hlaw
    rw [heq] at hlaw
    exact hlaw.1
  · rcases List.mem_cons.mp he' with rfl | hold
    · exact hlaw
    · exact h.lawful e' hold
  · show (List.filterMap Entry.submitted (⟨w.disk, e⟩ :: w.log)).Nodup
    cases hsub : Entry.submitted ⟨w.disk, e⟩ with
    | none =>
        rw [List.filterMap_cons_none hsub]
        exact h.submits
    | some serial =>
        rw [List.filterMap_cons_some hsub]
        exact List.nodup_cons.mpr ⟨(hfresh serial hsub).2, h.submits⟩
  · have hs' : serial ∈ List.filterMap Entry.submitted (⟨w.disk, e⟩ :: w.log) := hs
    cases hsub : Entry.submitted ⟨w.disk, e⟩ with
    | none =>
        rw [List.filterMap_cons_none hsub] at hs'
        exact h.numbered serial hs'
    | some new =>
        rw [List.filterMap_cons_some hsub] at hs'
        rcases List.mem_cons.mp hs' with rfl | hold
        · exact (hfresh serial hsub).1
        · exact h.numbered serial hold

/-! ## Changes of one item -/

/-- Only a result adds a fill. -/
theorem Item.perform_applied {settings : Settings} {u : Update} (hu : u.fill? = none) :
    (st.perform settings u).applied = st.applied := by
  show List.filterMap Update.fill? (u :: st.history) = _
  rw [List.filterMap_cons_none hu]
  rfl

theorem Item.Sound.perform {calls : Nat} {log : List Entry} (h : st.Sound S calls log key)
    {u : Update} (hu : u.fill? = none) (hreg : u.Regular S st.core) :
    (st.perform S.settings u).Sound S calls log key := by
  have happlied : (st.perform S.settings u).applied = st.applied := Item.perform_applied hu
  have hserials : (st.perform S.settings u).serials = st.serials :=
    congrArg (List.map Fill.serial) happlied
  refine
    { replayed := ?_
      regular := ⟨h.replayed ▸ hreg, h.regular⟩
      once := hserials ▸ h.once
      below := hserials ▸ h.below
      unapplied := fun p hp => hserials ▸ h.unapplied p hp
      real := h.real
      answered := fun e he intent status heq => ?_ }
  · show st.core.apply S.settings u = (replay S.settings st.start st.history).apply S.settings u
    rw [h.replayed]
  · rcases h.answered e he intent status heq with ⟨fill, hmem, hreports⟩ | hwait
    · exact Or.inl ⟨fill, happlied ▸ hmem, hreports⟩
    · exact Or.inr hwait

/-- `_finish_pending`: the result stored with the pending order becomes the newest fill. -/
theorem Item.Sound.settle {calls : Nat} {log : List Entry} (h : st.Sound S calls log key)
    {p : Pending} (hp : st.pendingOrder = some p) {status : OrderStatus}
    (hstatus : statusFromTerminalPayload p.terminalStatus = some status) {price : ℚ} {armed : Bool}
    (harmed : p.metadata.action = .sell → 0 < status.filledQty → S.Armed → armed = true) :
    (st.settle S.settings (fillOf p status price armed)).Sound S calls log key := by
  have hfresh := h.unapplied p hp
  refine
    { replayed := ?_
      regular := ⟨harmed, h.regular⟩
      once := List.nodup_cons.mpr ⟨hfresh.2, h.once⟩
      below := fun serial hs => ?_
      unapplied := fun q hq => by cases hq
      real := fun q hq => by cases hq
      answered := fun e he intent status' heq => Or.inl ?_ }
  · show st.core.apply S.settings (.finished (fillOf p status price armed)) =
      (replay S.settings st.start st.history).apply S.settings (.finished (fillOf p status price armed))
    rw [h.replayed]
  · rcases List.mem_cons.mp hs with rfl | hold
    · exact hfresh.1
    · exact h.below serial hold
  · rcases h.answered e he intent status' heq with ⟨fill, hmem, hreports⟩ | ⟨q, hq, hmeta, hq'⟩
    · exact ⟨fill, List.mem_cons_of_mem _ hmem, hreports⟩
    · -- what waited is what is applied now
      rw [hp] at hq
      cases hq
      rw [hstatus] at hq'
      cases hq'
      have hreports := fillOf_reports p status price armed
      refine ⟨fillOf p status price armed, List.mem_cons_self, ?_⟩
      exact ⟨hmeta ▸ hreports.serial, hmeta ▸ hreports.action, hreports.filled, hreports.avg⟩

/-- A terminal result and its application: one more result, and one more fill that reports it. -/
theorem Inv.settled (h : Inv S todo w) (hkey : key ∉ todo) (hitem : w.state key = some st)
    (hagrees : pendingOf (w.disk key) = st.pendingOrder) {p : Pending}
    (hp : st.pendingOrder = some p) {status : OrderStatus}
    (hstatus : statusFromTerminalPayload p.terminalStatus = some status) {price : ℚ} {armed : Bool}
    (harmed : p.metadata.action = .sell → 0 < status.filledQty → S.Armed → armed = true) :
    Inv S todo { w.answered key p status with
      state := Function.update w.state key
        (some (st.settle S.settings (fillOf p status price armed))) } := by
  have hlogged : Inv S todo { w with log := ⟨w.disk, .terminal key p status⟩ :: w.log } :=
    h.logged ⟨hagrees.trans hp, hstatus⟩ (fun _ h => by cases h) (fun k intent status' heq => by
      cases heq
      rw [hitem]
      exact hp)
  have hsound : (st.settle S.settings (fillOf p status price armed)).Sound S w.calls
      (⟨w.disk, .terminal key p status⟩ :: w.log) key :=
    ((hlogged.state key).sound st hitem).settle hp hstatus harmed
  refine { hlogged with state := fun k => ?_, results := fun k => ?_, todo := fun k hk => ?_ }
  · by_cases hk : k = key
    · subst hk
      simp only [Function.update_self]
      refine ⟨fun st' hst' => ?_, fun hnone => by cases hnone⟩
      cases hst'
      exact hsound
    · simp only [Function.update_of_ne hk]
      exact hlogged.state k
  · show Tied _ (Function.update w.results key ((p, status) :: w.results key) k)
    by_cases hk : k = key
    · subst hk
      simp only [Function.update_self]
      have htied := h.results k
      rw [hitem] at htied
      exact List.Forall₂.cons (fillOf_reports p status price armed) htied
    · simp only [Function.update_of_ne hk]
      exact h.results k
  · have hne : k ≠ key := fun heq => hkey (heq ▸ hk)
    simp only [Function.update_of_ne hne]
    exact h.todo k hk

/-- The pending order of an item may become `o`: a known result stays, a new order is new. -/
structure Item.Accepts (st : Item) (calls : Nat) (o : Option Pending) : Prop where
  fresh : ∀ q, o = some q → q.metadata.serial < calls ∧ q.metadata.serial ∉ st.serials
  real : ∀ q, o = some q → ∀ t, q.terminalStatus = some t → t.Real
  kept : ∀ p status, st.pendingOrder = some p →
    statusFromTerminalPayload p.terminalStatus = some status →
    ∃ q, o = some q ∧ q.metadata = p.metadata ∧ q.terminalStatus = p.terminalStatus

theorem Item.Sound.pending {calls : Nat} {log : List Entry} (h : st.Sound S calls log key)
    {o : Option Pending} (ho : st.Accepts calls o) :
    ({ st with pendingOrder := o } : Item).Sound S calls log key := by
  refine { h with
    unapplied := fun q hq => ho.fresh q hq
    real := fun q hq => ho.real q hq
    answered := fun e he intent status heq => ?_ }
  rcases h.answered e he intent status heq with happlied | ⟨p, hp, hmeta, hstatus⟩
  · exact Or.inl happlied
  · obtain ⟨q, hq, hmeta', hterminal⟩ := ho.kept p status hp hstatus
    exact Or.inr ⟨q, hq, hmeta'.trans hmeta, hterminal ▸ hstatus⟩

/-- A record that follows the pending order may replace it. -/
theorem Item.Sound.follows {calls : Nat} {log : List Entry} (h : st.Sound S calls log key)
    {p q : Pending} (hp : st.pendingOrder = some p) (hpq : p.Follows q) :
    st.Accepts calls (some q) := by
  refine ⟨fun q' hq' => ?_, fun q' hq' t ht => ?_, fun p' status hp' hstatus => ?_⟩
  · cases hq'
    rw [hpq.metadata]
    exact h.unapplied p hp
  · cases hq'
    rcases hpq.terminal with hsame | ⟨-, t', hreal, hsome⟩
    · exact h.real p hp t (hsame ▸ ht)
    · rw [hsome] at ht
      cases ht
      exact hreal
  · rw [hp] at hp'
    cases hp'
    refine ⟨q, rfl, hpq.metadata, ?_⟩
    rcases hpq.terminal with hsame | ⟨hnone, -⟩
    · exact hsame
    · rw [hnone] at hstatus
      cases hstatus

/-- A pending order without a result may be dropped. -/
theorem Item.accepts_none {calls : Nat}
    (h : ∀ p, st.pendingOrder = some p → p.terminalStatus = none) : st.Accepts calls none := by
  refine ⟨fun q hq => (by cases hq), fun q hq => (by cases hq), fun p status hp hstatus => ?_⟩
  rw [h p hp] at hstatus
  cases hstatus

end TradingFleet.Trailing
