import TradingFleet.Trailing.Fills

set_option autoImplicit false

/-! # The trailing stop: what a tick preserves

`Held` is the assertion about the key whose turn it is: which item it has in memory, and that its
pending order is also the one in the file. From it follow the contract with the order lifecycle
(`owner`) and one specification for each program of a tick; what a program leaves when it raises is
the invariant without the key.
-/

namespace TradingFleet.Trailing

open TradingFleet.Hoare TradingFleet.Lifecycle
open TradingFleet.Rounding (roundTo)

/-! ## The key whose turn it is -/

structure Held (S : Setup) (todo : List String) (key : String) (st : Item) (w : World) : Prop where
  inv : Inv S todo w
  item : w.state key = some st
  agrees : pendingOf (w.disk key) = st.pendingOrder

/-- Its pending order is `p`. -/
def Holds (S : Setup) (todo : List String) (key : String) (_ : Bool) (p : Pending) (w : World) :
    Prop :=
  ∃ st, Held S todo key st w ∧ st.pendingOrder = some p

/-- It has no pending order. -/
def Free (S : Setup) (todo : List String) (key : String) (w : World) : Prop :=
  ∃ st, Held S todo key st w ∧ st.pendingOrder = none

def Opened (S : Setup) (todo : List String) (key : String) (w : World) : Prop :=
  ∃ st, Held S todo key st w

variable {S : Setup} {todo : List String} {key : String} {st : Item} {α β : Type}

theorem Held.called {w : World} (h : Held S todo key st w) :
    Held S todo key st { w with calls := w.calls + 1 } :=
  ⟨h.inv.called, h.item, h.agrees⟩

theorem Held.sound {w : World} (h : Held S todo key st w) : st.Sound S w.calls w.log key :=
  (h.inv.state key).sound st h.item

/-! ## Calls -/

theorem ask_triple {P : World → Prop} {E : Stop → World → Prop} (answer : Nat → Except Stop α)
    (h : ∀ w, P w → P { w with calls := w.calls + 1 })
    (herr : ∀ e w, P w → E e { w with calls := w.calls + 1 }) :
    Triple P (ask answer) (fun _ => P) E := by
  intro w hw
  unfold ask
  cases answer w.calls with
  | ok x => exact h w hw
  | error e => exact herr e w hw

theorem askSafely_triple {P : World → Prop} {E : Stop → World → Prop}
    (answer : Nat → Except Stop (Option α))
    (h : ∀ w, P w → P { w with calls := w.calls + 1 })
    (herr : ∀ w, P w → E .crash { w with calls := w.calls + 1 }) :
    Triple P (askSafely answer) (fun _ => P) E := by
  intro w hw
  unfold askSafely
  cases hanswer : answer w.calls with
  | ok x => exact h w hw
  | error e =>
      cases e with
      | raised e => exact h w hw
      | crash => exact herr w hw

theorem ask_held (answer : Nat → Except Stop α) :
    Triple (Held S todo key st) (ask answer) (fun _ => Held S todo key st) (fun _ => Inv S todo) :=
  ask_triple answer (fun _ h => h.called) (fun _ _ h => h.inv.called)

theorem ask_inv (answer : Nat → Except Stop α) :
    Triple (Inv S todo) (ask answer) (fun _ => Inv S todo) (fun _ => Inv S todo) :=
  ask_triple answer (fun _ h => h.called) (fun _ _ h => h.called)

/-- `state[key]` of a held key is its item. -/
theorem item_held {f : Item → TrailM β} {Q : β → World → Prop} {E : Stop → World → Prop}
    (h : Triple (Held S todo key st) (f st) Q E) :
    Triple (Held S todo key st) (item key >>= f) Q E := by
  intro w hw
  have hitem : (w.state key).getD (Item.new 0) = st := by rw [hw.item]; rfl
  show Post Q E (f ((w.state key).getD (Item.new 0)) w)
  rw [hitem]
  exact h w hw

theorem change_at {w : World} {f : Item → Item} (h : w.state key = some st) :
    change key f w = .ok () { w with state := Function.update w.state key (some (f st)) } := by
  show EStateM.Result.ok ()
    { w with state := Function.update w.state key ((w.state key).map f) } = _
  rw [h, Option.map_some]

section Writes

variable (hkey : key ∉ todo)
include hkey

/-- A write to the held item that leaves its pending order alone. -/
theorem change_held {f : Item → Item} (hsound : ∀ w, Held S todo key st w →
      (f st).Sound S w.calls w.log key) (hpending : (f st).pendingOrder = st.pendingOrder)
    (hsame : (f st).applied = st.applied) :
    Triple (Held S todo key st) (change key f) (fun _ => Held S todo key (f st))
      (fun _ => Inv S todo) := by
  intro w hw
  rw [change_at hw.item]
  refine ⟨hw.inv.set hkey (hsound w hw) ?_, Function.update_self _ _ _, ?_⟩
  · rw [hw.item]
    exact hsame
  rw [hpending]
  exact hw.agrees

theorem perform_held (st : Item) (u : Update) (hu : u.fill? = none) (hreg : u.Regular S st.core) :
    Triple (Held S todo key st) (perform S key u) (fun _ => Held S todo key (st.perform S.settings u))
      (fun _ => Inv S todo) :=
  change_held hkey (fun _ hw => hw.sound.perform hu hreg) rfl (Item.perform_applied hu)

omit hkey in
/-- After a save the file has the pending order of every item. -/
theorem saveOr_triple {L : List Entry → Prop} (text : String) :
    Triple (fun w => (Inv S todo w ∧ w.state key = some st) ∧ L w.log) (saveOr S text)
      (fun _ w => Held S todo key st w ∧ L w.log) (fun _ => Inv S todo) := by
  refine Triple.bind (Q := fun b w => Inv S todo w ∧ (b = true → Held S todo key st w ∧ L w.log))
    ?_ (fun b => ?_)
  · intro w hw
    obtain ⟨⟨hinv, hitem⟩, hlog⟩ := hw
    unfold save
    cases S.venue.save w.calls with
    | stored =>
        refine ⟨hinv.called.stored, fun _ => ⟨⟨hinv.called.stored, hitem, ?_⟩, hlog⟩⟩
        show pendingOf (w.state key) = _
        rw [hitem]
        rfl
    | failed => exact ⟨hinv.called, fun h => by cases h⟩
    | raised e => exact hinv.called
    | crashed replaced =>
        cases replaced with
        | true => exact hinv.called.stored
        | false => exact hinv.called
  · cases b with
    | true => exact Triple.pure (fun w hw => hw.2 rfl)
    | false => exact Triple.throw (fun w hw => hw.1)

theorem persistPending_triple {L : List Entry → Prop} (o : Option Pending) :
    Triple (fun w => (Held S todo key st w ∧ st.Accepts w.calls o) ∧ L w.log)
      (persistPending S key o)
      (fun _ w => Held S todo key { st with pendingOrder := o } w ∧ L w.log)
      (fun _ => Inv S todo) := by
  refine Triple.bind (Q := fun _ w =>
    (Inv S todo w ∧ w.state key = some { st with pendingOrder := o }) ∧ L w.log) ?_
    (fun _ => saveOr_triple _)
  intro w hw
  obtain ⟨⟨hheld, haccepts⟩, hlog⟩ := hw
  rw [change_at hheld.item]
  refine ⟨⟨hheld.inv.set hkey (hheld.sound.pending haccepts) ?_, Function.update_self _ _ _⟩, hlog⟩
  rw [hheld.item]
  rfl

theorem persistSome_triple {L : List Entry → Prop} (p q : Pending) (hpq : p.Follows q) :
    Triple (fun w => Holds S todo key false p w ∧ L w.log) (persistPending S key (some q))
      (fun _ w => Holds S todo key false q w ∧ L w.log) (fun _ => Inv S todo) := by
  intro w hw
  obtain ⟨⟨st, hheld, hp⟩, hlog⟩ := hw
  have htriple : Triple (fun w => (Held S todo key st w ∧ st.Accepts w.calls (some q)) ∧ L w.log)
      (persistPending S key (some q)) (fun _ w => Holds S todo key false q w ∧ L w.log)
      (fun _ => Inv S todo) :=
    (persistPending_triple hkey (some q)).weaken
      (fun _ w' hw' => ⟨⟨{ st with pendingOrder := some q }, hw'.1, rfl⟩, hw'.2⟩)
  exact htriple w ⟨⟨hheld, hheld.sound.follows hp hpq⟩, hlog⟩

theorem persistNone_triple (p : Pending) (hp : p.terminalStatus = none) :
    Triple (Holds S todo key false p) (persistPending S key none)
      (fun _ => Free S todo key) (fun _ => Inv S todo) := by
  intro w hw
  obtain ⟨st, hheld, hst⟩ := hw
  have haccepts : st.Accepts w.calls none :=
    Item.accepts_none (fun p' hp' => by rw [hst] at hp'; cases hp'; exact hp)
  have htriple : Triple (fun w => (Held S todo key st w ∧ st.Accepts w.calls none) ∧ True)
      (persistPending S key none) (fun _ => Free S todo key) (fun _ => Inv S todo) :=
    (persistPending_triple hkey (L := fun _ => True) none).weaken
      (fun _ w' hw' => ⟨{ st with pendingOrder := none }, hw'.1, rfl⟩)
  exact htriple w ⟨⟨hheld, haccepts⟩, trivial⟩

omit hkey in
theorem ask_holds (answer : Nat → Except Stop α) (b : Bool) (p : Pending) :
    Triple (Holds S todo key b p) (ask answer) (fun _ => Holds S todo key b p)
      (fun _ => Inv S todo) :=
  ask_triple answer (fun _ ⟨st, hheld, hp⟩ => ⟨st, hheld.called, hp⟩)
    (fun _ _ ⟨_, hheld, _⟩ => hheld.inv.called)

/-- The contract with the lifecycle of one key. -/
theorem owner : Owner (env S key) (Holds S todo key) (fun _ => Free S todo key)
    (fun _ => Inv S todo) where
  persist := fun p q hpq _ =>
    ((persistSome_triple hkey (L := fun _ => True) p q hpq).strengthen
      (fun _ h => ⟨h, trivial⟩)).weaken (fun _ _ h => h.1)
  attempt := fun p t _ htried _ => by
    have hfollows : p.Follows (p.cancelling t) :=
      { Pending.Follows.refl p with cancelled := fun h => by rw [htried] at h; cases h }
    exact ((persistSome_triple hkey (L := fun _ => True) p _ hfollows).strengthen
      (fun _ h => ⟨h, trivial⟩)).weaken (fun _ _ h => h.1)
  release := fun p _ hp => persistNone_triple hkey p hp
  orderByClientId := fun p => ask_holds _ false p
  orderStatus := fun p _ => ask_holds _ false p
  cancelOrder := fun p _ => ask_holds _ true p
  clock := fun p => ask_holds _ false p
  audit := fun _ _ _ _ => Triple.pure (fun _ h => h)
  auditGone := fun _ _ _ => Triple.pure (fun _ h => h)
  raised := fun _ _ _ ⟨_, hheld, _⟩ => hheld.inv

end Writes

/-! ## Policies and results -/

theorem rebuyFor_held (arm : Bool) :
    Triple (Held S todo key st) (rebuyFor S arm)
      (fun b w => (arm = true → S.Armed → b = true) ∧ Held S todo key st w)
      (fun _ => Inv S todo) := by
  unfold rebuyFor
  cases hgetter : (if arm then S.venue.rebuyConfiguredFor else none) <|>
      S.venue.rebuyEnabledFor with
  | none =>
      refine Triple.pure (fun w hw => ⟨fun harm harmed => ?_, hw⟩)
      unfold Setup.Armed at harmed
      rw [if_pos harm] at hgetter
      rw [hgetter] at harmed
      exact harmed
  | some getter =>
      refine Triple.bind (Q := fun value w => (arm = true → S.Armed → value = some true) ∧
        Held S todo key st w) ?_ (fun value => ?_)
      · intro w hw
        unfold askSafely
        have hvalue : arm = true → S.Armed →
            getter w.calls = .ok (some true) ∨ getter w.calls = .error .crash := by
          intro harm harmed
          unfold Setup.Armed at harmed
          rw [if_pos harm] at hgetter
          rw [hgetter] at harmed
          exact harmed w.calls
        cases hanswer : getter w.calls with
        | ok x =>
            refine ⟨fun harm harmed => ?_, hw.called⟩
            rcases hvalue harm harmed with h | h
            · rw [hanswer] at h
              exact Except.ok.inj h
            · rw [hanswer] at h
              cases h
        | error e =>
            cases e with
            | crash => exact hw.inv.called
            | raised e =>
                refine ⟨fun harm harmed => ?_, hw.called⟩
                rcases hvalue harm harmed with h | h
                · rw [hanswer] at h
                  cases h
                · rw [hanswer] at h
                  cases h
      · refine Triple.pure (fun w hw => ⟨fun harm harmed => ?_, hw.2⟩)
        rw [hw.1 harm harmed]
        rfl

theorem arms_held (p : Pending) (status : OrderStatus) :
    Triple (Held S todo key st) (arms S p status)
      (fun armed w => (p.metadata.action = .sell → 0 < status.filledQty → S.Armed → armed = true) ∧
        Held S todo key st w) (fun _ => Inv S todo) := by
  unfold arms
  by_cases hsell : p.metadata.action = .sell ∧ 0 < status.filledQty
  · rw [if_pos hsell]
    exact (rebuyFor_held true).weaken
      (fun armed w hw => ⟨fun _ _ harmed => hw.1 rfl harmed, hw.2⟩)
  · rw [if_neg hsell]
    exact Triple.pure (fun w hw => ⟨fun haction hfilled => absurd ⟨haction, hfilled⟩ hsell, hw⟩)

theorem filteredBy_held (skip : Bool) (blocks : ℚ → Bool) :
    Triple (Held S todo key st) (filteredBy S skip blocks) (fun _ => Held S todo key st)
      (fun _ => Inv S todo) := by
  unfold filteredBy
  refine Triple.ite ?_ (Triple.pure (fun _ hw => hw))
  exact Triple.bind (ask_held _) (fun _ => Triple.pure (fun _ hw => hw))

section Results

variable (hkey : key ∉ todo)
include hkey

/-- A result is handed to `_finish_pending`, which applies it. -/
theorem finishPending_triple {p : Pending} (hp : st.pendingOrder = some p) {status : OrderStatus}
    (hstatus : statusFromTerminalPayload p.terminalStatus = some status) (price : ℚ) {armed : Bool}
    (harmed : p.metadata.action = .sell → 0 < status.filledQty → S.Armed → armed = true) :
    Triple (Held S todo key st) (do
      modify (fun w => w.answered key p status)
      finishPending S key p status price armed)
      (fun _ w => Inv S todo w ∧ ∃ st', w.state key = some st') (fun _ => Inv S todo) := by
  intro w hw
  have hitem : (w.answered key p status).state key = some st := hw.item
  show Post _ _ (finishPending S key p status price armed (w.answered key p status))
  unfold finishPending
  rw [change_at hitem]
  exact ⟨hw.inv.settled hkey hw.item hw.agrees hp hstatus harmed, _, Function.update_self _ _ _⟩

theorem settleResult_triple (price : ℚ) (result : Tracked Meta) :
    Triple (fun w => (result.outcome = .terminal → Holds S todo key false result.intent w) ∧
        result.Settled ∧ Inv S todo w)
      (settleResult S key price result) (fun _ => Inv S todo) (fun _ => Inv S todo) := by
  unfold settleResult
  split
  · rename_i status houtcome hresult
    intro w hw
    obtain ⟨st, hheld, hp⟩ := hw.1 houtcome
    obtain ⟨status', hsome, hstatus⟩ := hw.2.1 houtcome
    rw [hresult] at hsome
    cases hsome
    refine Triple.bind (arms_held result.intent status) (fun armed => ?_) w hheld
    refine Triple.of_fact (fun harmed => ?_)
    have hfinish := finishPending_triple hkey hp hstatus price harmed
    rw [← bind_assoc]
    refine Triple.bind hfinish (fun _ w hw => ?_)
    obtain ⟨hinv, st', hitem⟩ := hw
    exact ((saveOr_triple (L := fun _ => True) _).weaken (fun _ _ h => h.1.inv)) w
      ⟨⟨hinv, hitem⟩, trivial⟩
  · exact Triple.pure (fun w hw => hw.2.2)

/-- A pending order ends the turn of its key. -/
theorem reconcilePending_triple (price : ℚ) :
    Triple (Held S todo key st) (reconcilePending S key price)
      (fun b w => if b then Inv S todo w else Free S todo key w) (fun _ => Inv S todo) := by
  refine item_held ?_
  cases hp : st.pendingOrder with
  | none => exact Triple.pure (fun w hw => ⟨st, hw, hp⟩)
  | some p =>
      have hreal : ∀ w, Held S todo key st w → ∀ t, p.terminalStatus = some t → t.Real :=
        fun w hw => hw.sound.real p hp
      intro w hw
      have hreconcile : Triple (fun w => Holds S todo key false p w ∧ True)
          (reconcile S.adapter.lifecycle (env S key) p)
          (fun result w => Observed (Holds S todo key) (fun _ => Free S todo key) p result w ∧
            result.Settled) (fun _ => Inv S todo) :=
        ((reconcile_triple (owner hkey) S.adapter.lifecycle p (hreal w hw)).and
          (reconcile_settled S.adapter.lifecycle p)).conseq (fun _ h => h) (fun _ _ h => h)
          (fun _ _ h => h.1)
      refine Triple.bind hreconcile (fun result => ?_) w ⟨⟨st, hw, hp⟩, trivial⟩
      refine Triple.bind (Q := fun _ => Inv S todo) ?_ (fun _ => Triple.pure (fun _ hw => hw))
      refine (settleResult_triple hkey price result).strengthen ?_
      intro w hw
      refine ⟨fun hterminal => hw.1.stored (Or.inr hterminal), hw.2, ?_⟩
      -- only a submit refuses
      cases houtcome : result.outcome with
      | active =>
          obtain ⟨st', hheld, -⟩ := hw.1.stored (Or.inl houtcome)
          exact hheld.inv
      | terminal =>
          obtain ⟨st', hheld, -⟩ := hw.1.stored (Or.inr houtcome)
          exact hheld.inv
      | absent =>
          obtain ⟨-, st', hheld, -⟩ := hw.1.released (Or.inl houtcome)
          exact hheld.inv
      | retryable =>
          obtain ⟨-, st', hheld, -⟩ := hw.1.released (Or.inr houtcome)
          exact hheld.inv
      | refused => exact absurd houtcome hw.1.outcome

end Results

/-! ## Orders -/

/-- All serials of items and submits are below `n`. -/
structure Fresh (S : Setup) (todo : List String) (key : String) (st : Item) (n : Nat) (w : World) :
    Prop where
  held : Held S todo key st w
  idle : st.pendingOrder = none
  settled : ∀ serial ∈ st.serials, serial < n
  submits : ∀ serial ∈ w.log.filterMap Entry.submitted, serial < n
  number : n < w.calls

theorem newIntent_triple (a : NewIntent Meta) (w₀ : World) (h : Inv S todo w₀) :
    Triple (· = w₀) (newIntent (env S key) a)
      (fun intent w => (∃ t, intent = a.record t) ∧ w = { w₀ with calls := w₀.calls + 1 })
      (fun _ => Inv S todo) := by
  refine Triple.bind (Q := fun _ w => w = { w₀ with calls := w₀.calls + 1 }) ?_ (fun t => ?_)
  · refine Triple.bind (Q := fun _ w => w = { w₀ with calls := w₀.calls + 1 }) ?_ (fun raw => ?_)
    · intro w hw
      subst hw
      show Post _ _ (ask S.venue.clock w)
      unfold ask
      cases S.venue.clock w.calls with
      | ok x => rfl
      | error e => exact h.called
    · cases Raw.positive raw with
      | some t => exact Triple.pure (fun _ hw => hw)
      | none => exact Triple.throw (fun _ hw => hw ▸ h.called)
  · refine Triple.bind (Q := fun _ w => w = { w₀ with calls := w₀.calls + 1 }) ?_ (fun _ => ?_)
    · exact orRaise_triple (fun _ _ _ hw => hw)
        (fun _ _ _ hw => hw ▸ h.called)
    · refine Triple.ite ?_ (Triple.pure (fun _ hw => ⟨⟨t, rfl⟩, hw⟩))
      exact Triple.throw (fun _ hw => hw ▸ h.called)

section Orders

variable (hkey : key ∉ todo)
include hkey

omit hkey in
theorem callback_triple {intent : Pending} {n : Nat} (hn : intent.metadata.serial = n) :
    Triple (fun w => Holds S todo key false intent w ∧
        ∀ serial ∈ w.log.filterMap Entry.submitted, serial < n)
      (callback S key n) (fun _ => Holds S todo key false intent) (fun _ => Inv S todo) := by
  refine Triple.bind (Q := fun _ => Holds S todo key false intent) ?_
    (fun _ => ask_holds _ false intent)
  intro w hw
  obtain ⟨⟨st, hheld, hp⟩, hbelow⟩ := hw
  have hnumber := (hheld.sound.unapplied intent hp).1
  refine ⟨st, ⟨hheld.inv.logged ⟨intent, hheld.agrees.trans hp, hn⟩ (fun serial hs => ?_)
    (fun _ _ _ heq => by cases heq), hheld.item, hheld.agrees⟩, hp⟩
  cases hs
  refine ⟨hn ▸ hnumber, fun hmem => ?_⟩
  exact Nat.lt_irrefl n (hbelow n hmem)

/-- An order of a held key without a pending order. Its intent is stored before the submit. -/
theorem execute_triple (a : Asset) (ha : a.key = key) (action : Action) (qty price anchor : ℚ)
    (hidle : st.pendingOrder = none) :
    Triple (Held S todo key st) (execute S a action qty price anchor)
      (fun _ => Opened S todo key) (fun _ => Inv S todo) := by
  subst ha
  refine Triple.get (fun w₀ hw₀ => ?_)
  extract_lets limit id
  refine Triple.bind (newIntent_triple _ w₀ hw₀.inv) (fun intent => ?_)
  refine Triple.of_fact (fun hintent => ?_)
  obtain ⟨t, hintent⟩ := hintent
  have hserial : intent.metadata.serial = w₀.calls := by rw [hintent]; rfl
  have hknown : intent.orderKnown = false := by rw [hintent]; rfl
  have hnew : intent.terminalStatus = none := by rw [hintent]; rfl
  refine Triple.bind (Q := fun _ => Fresh S todo a.key st w₀.calls) ?_ (fun _ => ?_)
  · intro w hw
    subst hw
    have hheld := hw₀.called
    have hlog : ∀ serial ∈ w₀.log.filterMap Entry.submitted, serial < w₀.calls := hw₀.inv.numbered
    refine ⟨⟨hheld.inv.logged (hheld.agrees.trans hidle) (fun _ heq => by cases heq)
      (fun _ _ _ heq => by cases heq), hheld.item, hheld.agrees⟩, hidle, hw₀.sound.below, ?_,
      Nat.lt_succ_self _⟩
    exact hlog
  -- the intent is stored, with a serial that no item and no submit has
  have hpersist : Triple (Fresh S todo a.key st w₀.calls) (persistPending S a.key (some intent))
      (fun _ w => Holds S todo a.key false intent w ∧
        ∀ serial ∈ w.log.filterMap Entry.submitted, serial < w₀.calls) (fun _ => Inv S todo) := by
    refine ((persistPending_triple hkey
      (L := fun log => ∀ serial ∈ log.filterMap Entry.submitted, serial < w₀.calls)
      (some intent)).weaken
      (fun _ w hw => ⟨⟨{ st with pendingOrder := some intent }, hw.1, rfl⟩, hw.2⟩)).strengthen
      (fun w hw => ⟨⟨hw.held, ?_⟩, hw.submits⟩)
    refine ⟨fun q hq => ?_, fun q hq t ht => ?_, fun p status hp => ?_⟩
    · cases hq
      rw [hserial]
      exact ⟨hw.number, fun hmem => Nat.lt_irrefl _ (hw.settled _ hmem)⟩
    · cases hq
      rw [hnew] at ht
      cases ht
    · rw [hidle] at hp
      cases hp
  have hsubmit : Triple (fun w => Fresh S todo a.key st w₀.calls w ∧ True)
      (submit (env S a.key) (callback S a.key w₀.calls) intent)
      (fun result w => Submitted (Holds S todo a.key) intent result w ∧
        result.intent.terminalStatus = intent.terminalStatus) (fun _ => Inv S todo) :=
    ((submit_triple (owner hkey) hknown (fun _ => hpersist) (Triple.pure (fun _ h => h))
      (callback_triple hserial) (fun _ _ hw => hw.held.inv)).and
      (submit_unsettled _ intent)).conseq (fun _ h => h) (fun _ _ h => h) (fun _ _ h => h.1)
  refine Triple.bind (hsubmit.strengthen (fun _ hw => ⟨hw, trivial⟩)) (fun result => ?_)
  by_cases hclear : result.outcome = .refused ∧ S.adapter.clearsRefused
  · rw [if_pos hclear]
    intro w hw
    have hnone : result.intent.terminalStatus = none := hw.2.trans hnew
    exact ((persistNone_triple hkey result.intent hnone).weaken
      (fun _ _ ⟨st', hheld, _⟩ => ⟨st', hheld⟩)) w hw.1.stored
  · rw [if_neg hclear]
    exact Triple.pure (fun w hw => hw.1.stored.imp (fun _ h => h.1))

end Orders

/-! ## One asset -/

section Asset

variable {a : Asset} (hkey : a.key ∉ todo)
include hkey

theorem handleRebuy_triple (price : ℚ) (hidle : st.pendingOrder = none) :
    Triple (Held S todo a.key st) (handleRebuy S a price) (fun _ => Opened S todo a.key)
      (fun _ => Inv S todo) := by
  have hlowered := perform_held (S := S) hkey st (.lowered price) rfl trivial
  refine Triple.bind hlowered (fun _ => item_held ?_)
  generalize hst' : st.perform S.settings (.lowered price) = st'
  have hidle' : st'.pendingOrder = none := by
    rw [← hst']
    exact hidle
  cases hrb : st'.core.rebuy with
  | none => exact Triple.pure (fun w hw => ⟨st', hw⟩)
  | some rb =>
      refine Triple.ite (Triple.pure (fun w hw => ⟨st', hw⟩)) ?_
      refine Triple.bind (filteredBy_held _ _) (fun down => ?_)
      refine Triple.ite ((ask_held _).weaken (fun _ w hw => ⟨st', hw⟩)) ?_
      extract_lets qty
      by_cases hqty : qty ≤ 0
      · rw [if_pos hqty]
        refine (perform_held hkey _ _ rfl ?_).weaken (fun _ w hw => ⟨_, hw⟩)
        intro _ rb' hrb'
        rw [hrb] at hrb'
        cases hrb'
        exact hqty
      rw [if_neg hqty]
      by_cases henabled : S.settings.enabled = true
      · rw [if_pos henabled]
        refine Triple.ite (Triple.pure (fun w hw => ⟨st', hw⟩)) ?_
        exact execute_triple hkey a rfl .rebuy qty price _ hidle'
      · rw [if_neg henabled]
        refine Triple.bind (ask_held _) (fun _ => ?_)
        have hdropped := perform_held (S := S) hkey st' .dropped rfl
          (fun h => absurd h henabled)
        refine Triple.bind hdropped (fun _ => Triple.ite ?_ (Triple.pure (fun w hw => ⟨_, hw⟩)))
        refine (perform_held hkey _ _ rfl ?_).weaken (fun _ w hw => ⟨_, hw⟩)
        trivial

/-- After the re-buy the key has no pending order, or its turn is over. -/
theorem considerRebuy_triple (price : ℚ) (hidle : st.pendingOrder = none) :
    Triple (Held S todo a.key st) (considerRebuy S a price)
      (fun b w => if b then Inv S todo w else Free S todo a.key w) (fun _ => Inv S todo) := by
  refine item_held ?_
  refine Triple.ite ?_ (Triple.pure (fun w hw => ⟨st, hw, hidle⟩))
  have hlowered := perform_held (S := S) hkey st (.lowered price) rfl trivial
  refine Triple.bind hlowered (fun _ => ?_)
  refine Triple.bind ((rebuyFor_held false).weaken (fun _ w hw => hw.2)) (fun b => ?_)
  refine Triple.ite ?_ (Triple.pure (fun w hw => ⟨_, hw, hidle⟩))
  refine Triple.bind (handleRebuy_triple hkey price hidle) (fun _ => ?_)
  intro w hw
  obtain ⟨st', hheld⟩ := hw
  refine item_held ?_ w hheld
  refine Triple.pure (fun w hw => ?_)
  cases hp : st'.pendingOrder with
  | none => exact ⟨st', hw, hp⟩
  | some p => exact hw.inv

theorem warmedUp_triple (price : ℚ) (hidle : st.pendingOrder = none) :
    Triple (Held S todo a.key st) (warmedUp S a.key price) (fun _ => Free S todo a.key)
      (fun _ => Inv S todo) := by
  refine item_held ?_
  cases st.core.warmupAt with
  | none => exact Triple.pure (fun w hw => ⟨st, hw, hidle⟩)
  | some threshold =>
      refine Triple.ite (Triple.pure (fun w hw => ⟨st, hw, hidle⟩)) ?_
      have hwarmed := perform_held (S := S) hkey st .warmed rfl trivial
      exact Triple.bind hwarmed (fun _ => Triple.pure (fun w hw => ⟨_, hw, hidle⟩))

theorem raisePeak_triple (price : ℚ) (hidle : st.pendingOrder = none) :
    Triple (Held S todo a.key st) (raisePeak S a.key price) (fun _ => Free S todo a.key)
      (fun _ => Inv S todo) := by
  refine item_held (Triple.ite ?_ (Triple.pure (fun w hw => ⟨st, hw, hidle⟩)))
  refine (perform_held hkey _ _ rfl ?_).weaken (fun _ w hw => ⟨_, hw, hidle⟩)
  trivial

theorem trail_triple (free price : ℚ) (hidle : st.pendingOrder = none) :
    Triple (Held S todo a.key st) (trail S a free price) (fun _ => Opened S todo a.key)
      (fun _ => Inv S todo) := by
  refine Triple.bind (raisePeak_triple hkey price hidle) (fun _ => ?_)
  intro w hw
  obtain ⟨st', hheld, hidle'⟩ := hw
  refine item_held ?_ w hheld
  have hnote : Triple (Held S todo a.key st') (ask S.venue.note) (fun _ => Opened S todo a.key)
      (fun _ => Inv S todo) := (ask_held _).weaken (fun _ w hw => ⟨st', hw⟩)
  refine Triple.ite ?_ hnote
  refine Triple.bind (filteredBy_held _ _) (fun up => Triple.ite hnote ?_)
  extract_lets qty
  exact Triple.ite (execute_triple hkey a rfl .sell qty price _ hidle') hnote

/-- A new item has no pending order, and neither has the file. -/
theorem setDefault_triple (price : ℚ) :
    Triple (fun w => Inv S todo w ∧ pendingOf (w.state a.key) = pendingOf (w.disk a.key))
      (setDefault S a price) (fun _ => Opened S todo a.key) (fun _ => Inv S todo) := by
  refine Triple.get (fun w₀ hw₀ => ?_)
  cases hslot : w₀.state a.key with
  | some st =>
      rw [if_pos (by rfl)]
      refine Triple.pure (fun w hw => ⟨st, ?_⟩)
      subst hw
      rw [hslot] at hw₀
      exact ⟨hw₀.1, hslot, hw₀.2.symm⟩
  | none =>
      rw [if_neg (by simp)]
      refine Triple.bind (Q := fun _ => Held S todo a.key (Item.new price)) ?_ (fun _ => ?_)
      · intro w hw
        subst hw
        have hsound : (Item.new price).Sound S w.calls w.log a.key :=
          { replayed := rfl
            regular := trivial
            once := List.nodup_nil
            below := fun _ hs => by cases hs
            unapplied := fun _ hp => by cases hp
            real := fun _ hp => by cases hp
            answered := fun e he intent status heq =>
              absurd heq ((hw₀.1.state a.key).silent hslot e he intent status) }
        refine ⟨hw₀.1.set hkey hsound ?_, Function.update_self _ _ _, ?_⟩
        · rw [hslot]
          rfl
        · rw [hslot] at hw₀
          exact hw₀.2.symm
      · refine Triple.ite ?_ (Triple.pure (fun w hw => ⟨_, hw⟩))
        refine Triple.bind (askSafely_triple _ (fun _ hw => hw.called)
          (fun _ hw => hw.inv.called)) (fun basis => ?_)
        refine (perform_held hkey _ _ rfl ?_).weaken (fun _ w hw => ⟨_, hw⟩)
        trivial

theorem process_triple :
    Triple (Inv S (a.key :: todo)) (process S a) (fun _ => Inv S todo) (fun _ => Inv S todo) := by
  have hask : ∀ {γ : Type} (answer : Nat → Except Stop γ),
      Triple (fun w => Inv S todo w ∧ pendingOf (w.state a.key) = pendingOf (w.disk a.key))
        (ask answer)
        (fun _ w => Inv S todo w ∧ pendingOf (w.state a.key) = pendingOf (w.disk a.key))
        (fun _ => Inv S todo) :=
    fun answer => ask_triple answer (fun _ hw => ⟨hw.1.called, hw.2⟩) (fun _ _ hw => hw.1.called)
  have hopened : ∀ w, Opened S todo a.key w → Inv S todo w := fun w ⟨_, hheld⟩ => hheld.inv
  refine Triple.strengthen (Triple.bind (hask S.venue.freeQty) (fun free =>
    Triple.bind (hask S.venue.price) (fun answer => ?_)))
    (fun w hw => ⟨hw.tail, hw.todo a.key List.mem_cons_self⟩)
  cases answer.filter (fun p => 0 < p) with
  | none => exact Triple.pure (fun w hw => hw.1)
  | some price =>
      refine Triple.bind (setDefault_triple hkey price) (fun _ => ?_)
      intro w hw
      obtain ⟨st, hheld⟩ := hw
      refine Triple.bind (reconcilePending_triple hkey price) (fun waiting => ?_) w hheld
      cases waiting with
      | true => exact Triple.pure (fun w hw => hw)
      | false =>
          -- no pending order: the re-buy comes first
          rintro w ⟨st, hheld, hidle⟩
          refine Triple.bind (considerRebuy_triple hkey price hidle) (fun ended => ?_) w hheld
          cases ended with
          | true => exact Triple.pure (fun w hw => hw)
          | false =>
              simp only [Bool.false_eq_true, if_false]
              refine Triple.ite (Triple.pure (fun w ⟨_, hheld, _⟩ => hheld.inv)) ?_
              rintro w ⟨st, hheld, hidle⟩
              refine Triple.bind (warmedUp_triple hkey price hidle) (fun warm => ?_) w hheld
              refine Triple.ite ?_ (Triple.pure (fun w ⟨_, hheld, _⟩ => hheld.inv))
              rintro w ⟨st, hheld, hidle⟩
              exact ((trail_triple hkey free price hidle).weaken (fun _ w hw => hopened w hw)) w
                hheld

end Asset

/-! ## One tick -/

theorem save_inv : Keeps (Inv S todo) (save S) := by
  intro w hw
  unfold save
  cases S.venue.save w.calls with
  | stored => exact hw.called.stored
  | failed => exact hw.called
  | raised e => exact hw.called
  | crashed replaced =>
      cases replaced with
      | true => exact hw.called.stored
      | false => exact hw.called

/-- After the file is read, memory and file agree for every key. -/
theorem load_triple (keys : List String) :
    Triple (Inv S []) (load S) (fun _ => Inv S keys) (fun _ => Inv S []) := by
  refine Triple.bind (ask_inv _) (fun _ w hw => ?_)
  exact { hw with state := hw.disk, results := hw.diskResults, todo := fun _ _ => rfl }

theorem handled_triple {x : TrailM Unit} {P : World → Prop}
    (h : Triple P x (fun _ => Inv S todo) (fun _ => Inv S todo)) :
    Triple P (handled S x) (fun _ => Inv S todo) (fun _ => Inv S todo) := by
  refine Triple.tryCatch h (fun e => ?_)
  cases e with
  | raised e => exact ask_inv _
  | crash => exact Triple.throw (fun w hw => hw)

/-- The assets take their turns in order; no key has two. -/
theorem assets_triple {f : Asset → TrailM Unit}
    (h : ∀ (a : Asset) (rest : List String), a.key ∉ rest →
      Triple (Inv S (a.key :: rest)) (f a) (fun _ => Inv S rest) (fun _ => Inv S [])) :
    Triple (Inv S (S.assets.map Asset.key)) (S.assets.forM f) (fun _ => Inv S [])
      (fun _ => Inv S []) := by
  have hloop : ∀ l : List Asset, (l.map Asset.key).Nodup →
      Triple (Inv S (l.map Asset.key)) (l.forM f) (fun _ => Inv S []) (fun _ => Inv S []) := by
    intro l
    induction l with
    | nil => exact fun _ => Triple.pure (fun w hw => hw)
    | cons a rest ih =>
        intro hnodup
        rw [List.map_cons, List.nodup_cons] at hnodup
        rw [List.forM_eq_forM, List.forM_cons]
        exact Triple.bind (h a _ hnodup.1) (fun _ => ih hnodup.2)
  exact hloop S.assets S.assets_nodup

theorem checkOnce_keeps : Keeps (Inv S []) (checkOnce S) := by
  refine Triple.bind (ask_inv _) (fun begin => Triple.ite ?_ (Triple.pure (fun _ hw => hw)))
  have hsave : Triple (Inv S []) (do let _ ← save S; pure ()) (fun _ => Inv S [])
      (fun _ => Inv S []) := Triple.bind save_inv (fun _ => Triple.pure (fun _ hw => hw))
  have hprocess : ∀ (a : Asset) (rest : List String), a.key ∉ rest →
      Triple (Inv S (a.key :: rest)) (process S a) (fun _ => Inv S rest) (fun _ => Inv S rest) :=
    fun a rest hkey => process_triple hkey
  have hload := load_triple (S := S) (S.assets.map Asset.key)
  by_cases hisolated : S.settings.itemIsolation = true
  · rw [if_pos hisolated]
    refine Triple.bind hload (fun _ => Triple.bind (assets_triple (fun a rest hkey => ?_))
      (fun _ => hsave))
    exact (handled_triple (hprocess a rest hkey)).conseq (fun _ h => h) (fun _ _ h => h)
      (fun _ _ h => h.forget)
  · rw [if_neg hisolated]
    refine handled_triple (Triple.bind hload (fun _ => Triple.bind
      (assets_triple (fun a rest hkey => ?_)) (fun _ => hsave)))
    exact (hprocess a rest hkey).conseq (fun _ h => h) (fun _ _ h => h) (fun _ _ h => h.forget)

theorem run_inv (S : Setup) (n : Nat) : Inv S [] (World.run S n) := by
  induction n with
  | zero =>
      have hfits : ∀ key, Fits S 0 [] key none :=
        fun _ => ⟨fun _ h => (by cases h), fun _ _ he => (by cases he)⟩
      exact ⟨hfits, hfits, fun _ => .nil, fun _ => .nil, fun _ hk => (by cases hk),
        fun _ he => (by cases he), List.nodup_nil, fun _ hs => (by cases hs)⟩
  | succ n ih =>
      have h := checkOnce_keeps (World.run S n) ih
      unfold World.run
      unfold World.after
      cases hrun : checkOnce S (World.run S n) with
      | ok x w =>
          rw [hrun] at h
          exact h
      | error e w =>
          rw [hrun] at h
          exact h

/-! ## Exactly once -/

/-- What holds of the file and of everything submitted. -/
structure ExactlyOnce (S : Setup) (w : World) : Prop where
  /-- an item is what its updates made of it, and no submit has two fills -/
  durable : ∀ key st, w.disk key = some st →
    st.core = replay S.settings st.start st.history ∧ st.serials.Nodup
  /-- the fills of a key are its results that were written, one fill for each -/
  applied : ∀ key, Tied (w.disk key) (w.diskResults key)
  /-- a terminal result was applied, or it is still stored with its pending order, not both -/
  results : ∀ e ∈ w.log, ∀ key intent status, e.event = .terminal key intent status →
    ∃ st, w.disk key = some st ∧
      (st.Applied intent status ∨ st.Awaits intent status ∧ intent.metadata.serial ∉ st.serials)
  /-- no order is submitted twice -/
  submits : (w.log.filterMap Entry.submitted).Nodup
  /-- at a submit, the file has no pending order before and that of the submit afterwards -/
  pending : ∀ e ∈ w.log,
    (∀ key serial, e.event = .submitting key serial → pendingOf (e.disk key) = none) ∧
    (∀ key serial, e.event = .submit key serial →
      ∃ p, pendingOf (e.disk key) = some p ∧ p.metadata.serial = serial)

/-- Whatever answers, fails or crashes, after any number of ticks every terminal result counts once
in the file, and no order was submitted over a stored one. -/
theorem fills_applied_once (S : Setup) (n : Nat) : ExactlyOnce S (World.run S n) := by
  have h := run_inv S n
  refine ⟨fun key st hst => ?_, h.diskResults, fun e he key intent status heq => ?_, h.submits,
    fun e he => ?_⟩
  · have hsound := (h.disk key).sound st hst
    exact ⟨hsound.replayed, hsound.once⟩
  · cases hslot : (World.run S n).disk key with
    | none => exact absurd heq ((h.disk key).silent hslot e he intent status)
    | some st =>
        have hsound := (h.disk key).sound st hslot
        refine ⟨st, rfl, ?_⟩
        -- the result is booked, or its order is still pending in the file
        rcases hsound.answered e he intent status heq with happlied | hwaits
        · exact Or.inl happlied
        · obtain ⟨p, hp, hmeta, -⟩ := id hwaits
          exact Or.inr ⟨hwaits, hmeta ▸ (hsound.unapplied p hp).2⟩
  · have hlawful := h.lawful e he
    unfold Entry.Lawful at hlawful
    refine ⟨fun key serial heq => ?_, fun key serial heq => ?_⟩
    · rw [heq] at hlawful
      exact hlawful
    · rw [heq] at hlawful
      exact hlawful

/-! ### A market that falls -/

theorem fiveSold_qty : (0 : ℚ) ≤ 5 := by decide

/-- Five coins for 400. -/
def fiveSold : OrderStatus := ⟨.closed, 5, 400, 0, "", fiveSold_qty, by decide, Text.upper_empty⟩

/-- Ten coins, half of them sold at a time; every order is closed with five of them at once. -/
def market (price : Nat → ℚ) (gate : Bool) : Setup where
  settings :=
    { enabled := true, minNotional := 1, rebuyEnabled := true, rebuyBouncePct := 5,
      rebuySkipIfTrendDown := false, sellSkipIfTrendUp := false, sellFraction := 1 / 2 }
  adapter := binance
  assets := [⟨"BTCUSDC", "BTC", "BTCUSDC", 10⟩]
  assets_nodup := by decide
  clientOrderId := id
  venue :=
    { load := fun _ => .ok ()
      save := fun _ => .stored
      beginTick := fun _ => .ok true
      freeQty := fun _ => .ok 10
      price := fun n => .ok (some (price n))
      trend := fun _ => .ok 0
      costBasis := fun _ => .ok none
      rebuyConfiguredFor := some (fun _ => .ok (some true))
      rebuyEnabledFor := some (fun _ => .ok (some gate))
      submit := fun n => .ok (.ok (.outcome
        { state := .accepted, orderId := some ("O-" ++ toString n) }))
      orderByClientId := fun _ => .ok (.ok .missing)
      orderStatus := fun _ => .ok (.ok fiveSold)
      cancelOrder := fun _ => .ok (.ok ())
      clock := fun _ => .ok (some 1)
      note := fun _ => .ok () }

theorem market_armed (price : Nat → ℚ) (gate : Bool) : (market price gate).Armed :=
  fun _ => Or.inl rfl

/-- A SELL at 80; the process ends during the first write after its result. -/
def interrupted : Setup :=
  let falling := market (fun n => if n < 5 then 100 else 80) false
  { falling with
    venue := { falling.venue with
      save := fun n => if n = 23 then .crashed false else .stored } }

def Event.isTerminal : Event → Bool
  | .terminal _ _ _ => true
  | _ => false

/-- The result is read from the file again, and applied once. -/
theorem interrupted_applied_once : ExactlyOnce interrupted (World.run interrupted 4) ∧
    ((World.run interrupted 4).log.filter (fun e => e.event.isTerminal)).length = 2 ∧
    ((World.run interrupted 4).disk "BTCUSDC").map (fun st => (st.serials, st.core.rebuy)) =
      some ([10], some ⟨5, 80, 80⟩) := by
  refine ⟨fills_applied_once interrupted 4, ?_⟩
  decide +kernel

end TradingFleet.Trailing
