import TradingFleet.SpotDca.Walks

set_option autoImplicit false

/-! # A pending exit owns its cycle

Once `pending_exit` is set, nothing is bought until `_finalize_cycle_if_flat` has started a new
cycle, a market order is only made when nothing else is open, and a STOP stays a STOP. In memory
this lasts until the process ends; once the marker is in the saved state it outlives restarts.
-/

namespace TradingFleet.SpotDca

open TradingFleet.Lifecycle

/-! ## What is logged -/

/-- A BUY is handed to the lifecycle, submitted, or placed on paper. -/
def Event.buys : Event → Bool
  | .submit order _ => order.side = .buy
  | .intended order => order.side = .buy
  | .placed order => order.side = .buy
  | _ => false

/-- The same for a market order, which is always a SELL. -/
def Event.sellsAtMarket : Event → Bool
  | .submit order _ => order.market
  | .intended order => order.market
  | .placed order => order.market
  | _ => false

/-- No order is tracked, and no intent is pending but the one that is being submitted. -/
def Entry.Alone (e : Entry) : Prop :=
  e.before.orders = [] ∧
    match e.event with
    | .submit order _ => ∃ p, e.before.pendingIntent = some p ∧ p.intentId = order.intentId ∧
        p.clientOrderId = order.clientOrderId
    | _ => e.before.pendingIntent = none

/-- What an entry says about an exit at the moment it is made. -/
structure Entry.Sound (e : Entry) : Prop where
  buys : e.event.buys = true → e.before.pendingExit = none
  sells : e.event.sellsAtMarket = true → e.Alone

theorem Entry.sound_of_neither {e : Entry} (hbuys : e.event.buys = false)
    (hsells : e.event.sellsAtMarket = false) : e.Sound := by
  constructor
  · intro h
    rw [hbuys] at h
    cases h
  · intro h
    rw [hsells] at h
    cases h

theorem Event.quiet_buys {e : Event} (h : e.quiet = true) : e.buys = false := by
  cases e <;> first | rfl | cases h

theorem Event.quiet_sells {e : Event} (h : e.quiet = true) : e.sellsAtMarket = false := by
  cases e <;> first | rfl | cases h

section Placing

variable {S : Setup} {s : State} {i : Instruction}

theorem Placing.buys (h : Placing S s i) (hside : i.side = .buy) : s.pendingExit = none := by
  cases h with
  | entry _ _ hexit _ _ => exact hexit
  | dca _ _ _ _ _ hexit _ _ _ _ _ => exact hexit
  | trendEntry _ _ hexit _ _ => exact hexit
  | tp _ _ hexit => exact hexit
  | exit e price hexit horders => cases hside

theorem Placing.sells (h : Placing S s i) (hmarket : i.market = true) : s.orders = [] := by
  cases h with
  | entry _ _ _ _ _ => cases hmarket
  | dca _ _ _ _ _ _ _ _ _ _ _ => cases hmarket
  | trendEntry _ _ _ _ _ => cases hmarket
  | tp _ _ _ => cases hmarket
  | exit e price hexit horders => exact horders

end Placing

/-! ## Every entry is sound -/

section Entries

variable {S : Setup} {w w' : World}

/-- In paper mode there are no intents. -/
def World.PaperFree (S : Setup) (w : World) : Prop :=
  S.dryRun = true → w.s.pendingIntent = none ∧ w.saved.pendingIntent = none

theorem Move.paperFree (h : Move S w w') (hw : w.PaperFree S) : w'.PaperFree S := by
  intro hpaper
  obtain ⟨hs, hsaved⟩ := hw hpaper
  cases h with
  | note h => exact ⟨h.pendingIntent.trans hs, hsaved⟩
  | called n failed events h => exact ⟨hs, hsaved⟩
  | saved => exact ⟨hs, hs⟩
  | intended hfree h => exact ⟨hs, hsaved⟩
  | pend hp hfree h =>
      have hlive := h.live
      rw [hpaper] at hlive
      cases hlive
  | submit answer hp hpending h => exact ⟨hs, hsaved⟩
  | rewrite hp h =>
      rw [hs] at hp
      cases hp
  | release hp h => exact ⟨rfl, hsaved⟩
  | track hp h => exact ⟨rfl, hsaved⟩
  | cancelled h => exact ⟨hs, hsaved⟩
  | dropped h => exact ⟨hs, hsaved⟩
  | paperPlaced t _ hsize h => exact ⟨hs, hsaved⟩
  | ignored ho hlive h => exact ⟨hs, hsaved⟩
  | booked ho hlive h => exact ⟨(State.reported_pendingIntent _ _ _).trans hs, hsaved⟩
  | paperFilled ho _ => exact ⟨(State.filled_pendingIntent _ _).trans hs, hsaved⟩
  | flattened => exact ⟨(State.flattened_pendingIntent _ _).trans hs, hsaved⟩
  | held kind price hflat => exact ⟨hs, hsaved⟩
  | closed kind price hflat horders hpending => exact ⟨rfl, hsaved⟩
  | exitMarked e h => exact ⟨hs, hsaved⟩
  | positionAdopted qty hqty horders hflat hspent hcost => exact ⟨hs, hsaved⟩
  | restarted => exact ⟨hsaved, hsaved⟩

/-- Every move logs the state it starts from. -/
theorem Move.log_eq (h : Move S w w') :
    ∃ es, w'.log = es ++ w.log ∧ ∀ e ∈ es, e.before = w.s ∧ e.saved = w.saved := by
  have hone : ∀ event : Event, ∃ es, (⟨w.s, w.saved, event⟩ :: w.log : List Entry) = es ++ w.log ∧
      ∀ e ∈ es, e.before = w.s ∧ e.saved = w.saved := by
    intro event
    refine ⟨[⟨w.s, w.saved, event⟩], rfl, fun e he => ?_⟩
    rw [List.mem_singleton.mp he]
    exact ⟨rfl, rfl⟩
  have hnone : ∃ es, w.log = es ++ w.log ∧ ∀ e ∈ es, e.before = w.s ∧ e.saved = w.saved :=
    ⟨[], rfl, fun e he => by cases he⟩
  cases h with
  | called n failed events h =>
      refine ⟨_, rfl, fun e he => ?_⟩
      obtain ⟨event, -, rfl⟩ := List.mem_map.mp he
      exact ⟨rfl, rfl⟩
  | intended hfree h => exact hone _
  | submit answer hp hpending h => exact hone _
  | track hp h => exact hone _
  | paperPlaced t hpaper hsize h => exact hone _
  | restarted => exact hone _
  | note h => exact hnone
  | saved => exact hnone
  | pend hp hfree h => exact hnone
  | rewrite hp h => exact hnone
  | release hp h => exact hnone
  | cancelled h => exact hnone
  | dropped h => exact hnone
  | ignored ho hlive h => exact hnone
  | booked ho hlive h => exact hnone
  | paperFilled ho hpaper => exact hnone
  | flattened => exact hnone
  | held kind price hflat => exact hnone
  | closed kind price hflat horders hpending => exact hnone
  | exitMarked e h => exact hnone
  | positionAdopted qty hqty horders hflat hspent hcost => exact hnone

/-- The new entries of a move are sound. -/
theorem Move.sound (h : Move S w w') (hw : w.PaperFree S) (hlog : ∀ e ∈ w.log, e.Sound) :
    ∀ e ∈ w'.log, e.Sound := by
  have hadd : ∀ e : Entry, e.Sound → ∀ e' ∈ e :: w.log, e'.Sound := by
    intro e he e' he'
    rcases List.mem_cons.mp he' with rfl | he'
    · exact he
    · exact hlog e' he'
  cases h with
  | called n failed events h =>
      intro e he
      rcases List.mem_append.mp he with he | he
      · obtain ⟨event, hevent, rfl⟩ := List.mem_map.mp he
        have hquiet := h event hevent
        exact Entry.sound_of_neither (Event.quiet_buys hquiet) (Event.quiet_sells hquiet)
      · exact hlog e he
  | intended hfree h =>
      refine hadd _ ⟨fun hside => ?_, fun hmarket => ?_⟩
      · exact h.placing.buys (of_decide_eq_true hside)
      · exact ⟨h.placing.sells hmarket, hfree⟩
  | submit answer hp hpending h =>
      refine hadd _ ⟨fun hside => ?_, fun hmarket => ?_⟩
      · exact h.placing.buys (of_decide_eq_true hside)
      · obtain ⟨t, rfl⟩ := hp
        exact ⟨h.placing.sells hmarket, _, hpending, rfl, rfl⟩
  | track hp h => exact hadd _ (Entry.sound_of_neither rfl rfl)
  | paperPlaced t hpaper hsize h =>
      refine hadd _ ⟨fun hside => ?_, fun hmarket => ?_⟩
      · exact h.buys (of_decide_eq_true hside)
      · exact ⟨h.sells hmarket, (hw hpaper).1⟩
  | restarted => exact hadd _ (Entry.sound_of_neither rfl rfl)
  | note h => exact hlog
  | saved => exact hlog
  | pend hp hfree h => exact hlog
  | rewrite hp h => exact hlog
  | release hp h => exact hlog
  | cancelled h => exact hlog
  | dropped h => exact hlog
  | ignored ho hlive h => exact hlog
  | booked ho hlive h => exact hlog
  | paperFilled ho hpaper => exact hlog
  | flattened => exact hlog
  | held kind price hflat => exact hlog
  | closed kind price hflat horders hpending => exact hlog
  | exitMarked e h => exact hlog
  | positionAdopted qty hqty horders hflat hspent hcost => exact hlog

theorem Reachable.sound (hw : Reachable S w) : ∀ e ∈ w.log, e.Sound := by
  have hboth := hw.invariant (I := fun w => w.PaperFree S ∧ ∀ e ∈ w.log, e.Sound)
    ⟨fun _ => ⟨rfl, rfl⟩, fun e he => by cases he⟩
    (fun _ _ hmove hI => ⟨hmove.paperFree hI.1, hmove.sound hI.1 hI.2⟩)
  exact hboth.2

end Entries

/-! ## The marker stays -/

/-- The exit of the state answers for `x`: it is there, and it is a STOP if `x` is one. -/
def Owned (x : PendingExit) (s : State) : Prop :=
  ∃ y, s.pendingExit = some y ∧ (x.kind = .stop → y.kind = .stop)

theorem Owned.congr {x : PendingExit} {s s' : State} (h : Owned x s)
    (hsame : s'.pendingExit = s.pendingExit) : Owned x s' := by
  obtain ⟨y, hy, hstop⟩ := h
  exact ⟨y, hsame.trans hy, hstop⟩

theorem SameCore.pendingExit {s s' : State} (h : SameCore s s') :
    s'.pendingExit = s.pendingExit := by
  rw [h]

theorem SameCore.cycle {s s' : State} (h : SameCore s s') : s'.cycle = s.cycle := by
  rw [h]

theorem State.filled_pendingExit (s : State) (f : Fill) :
    (s.filled f).pendingExit = s.pendingExit := by
  unfold State.filled
  cases f.side <;> rfl

theorem State.filled_cycle (s : State) (f : Fill) : (s.filled f).cycle = s.cycle := by
  unfold State.filled
  cases f.side <;> rfl

theorem State.reported_exit_cycle (s : State) (o : Order) (r : Report) :
    (s.reported o r).pendingExit = s.pendingExit ∧ (s.reported o r).cycle = s.cycle := by
  have hrest : ∀ t : State, (t.accounted o r).pendingExit = t.pendingExit ∧
      (t.accounted o r).cycle = t.cycle := by
    intro t
    unfold State.accounted
    split
    · exact ⟨State.filled_pendingExit _ _, State.filled_cycle _ _⟩
    split
    · exact ⟨rfl, rfl⟩
    · exact ⟨rfl, rfl⟩
  unfold State.reported
  refine ⟨(hrest _).1.trans ?_, (hrest _).2.trans ?_⟩ <;> split <;> rfl

/-- What a move does to the exit and the cycle in memory. -/
inductive Carried (w w' : World) : Prop
  | kept (hcycle : w'.s.cycle = w.s.cycle) (howned : ∀ x, Owned x w.s → Owned x w'.s)
  | next (hcycle : w'.s.cycle = w.s.cycle + 1)
  | restarted (hs : w'.s = w.saved) (hlog : w'.log = ⟨w.s, w.saved, .restarted⟩ :: w.log)

section Markers

variable {S : Setup} {w w' : World}

theorem Move.carried (h : Move S w w') : Carried w w' := by
  have hsame : w'.s.cycle = w.s.cycle → w'.s.pendingExit = w.s.pendingExit → Carried w w' :=
    fun hcycle hexit => .kept hcycle (fun x hx => hx.congr hexit)
  cases h with
  | note h => exact hsame h.cycle h.pendingExit
  | called n failed events h => exact hsame rfl rfl
  | saved => exact hsame rfl rfl
  | intended hfree h => exact hsame rfl rfl
  | pend hp hfree h => exact hsame rfl rfl
  | submit answer hp hpending h => exact hsame rfl rfl
  | rewrite hp h => exact hsame rfl rfl
  | release hp h => exact hsame rfl rfl
  | track hp h => exact hsame rfl rfl
  | cancelled h => exact hsame rfl rfl
  | dropped h => exact hsame rfl rfl
  | paperPlaced t hpaper hsize h => exact hsame rfl rfl
  | ignored ho hlive h => exact hsame rfl rfl
  | booked ho hlive h =>
      obtain ⟨hexit, hcycle⟩ := State.reported_exit_cycle w.s _ _
      exact hsame hcycle hexit
  | paperFilled ho hpaper =>
      exact hsame (State.filled_cycle _ _) (State.filled_pendingExit _ _)
  | flattened =>
      refine hsame ?_ ?_
      · show (State.flattened _ _).cycle = _
        unfold State.flattened
        split <;> rfl
      · show (State.flattened _ _).pendingExit = _
        unfold State.flattened
        split <;> rfl
  | held kind price hflat =>
      refine .kept rfl (fun x ⟨y, hy, hstop⟩ => ?_)
      refine ⟨{ y with fillPrice := some price }, ?_, hstop⟩
      show some _ = some _
      rw [hy]
      rfl
  | closed kind price hflat horders hpending => exact .next rfl
  | exitMarked e h =>
      -- only a STOP is written over an exit
      refine .kept rfl (fun x ⟨y, hy, _⟩ => ⟨e, rfl, fun _ => ?_⟩)
      rw [hy, Option.all_some, Bool.and_eq_true, decide_eq_true_eq] at h
      exact h.1
  | positionAdopted qty hqty horders hflat hspent hcost => exact hsame rfl rfl
  | restarted => exact .restarted rfl rfl

/-- A move leaves the disk alone or writes the memory to it. -/
theorem Move.disk (h : Move S w w') : w'.saved = w.saved ∨ (w'.saved = w.s ∧ w'.s = w.s) := by
  cases h with
  | saved => exact Or.inr ⟨rfl, rfl⟩
  | note h => exact Or.inl rfl
  | called n failed events h => exact Or.inl rfl
  | intended hfree h => exact Or.inl rfl
  | pend hp hfree h => exact Or.inl rfl
  | submit answer hp hpending h => exact Or.inl rfl
  | rewrite hp h => exact Or.inl rfl
  | release hp h => exact Or.inl rfl
  | track hp h => exact Or.inl rfl
  | cancelled h => exact Or.inl rfl
  | dropped h => exact Or.inl rfl
  | paperPlaced t hpaper hsize h => exact Or.inl rfl
  | ignored ho hlive h => exact Or.inl rfl
  | booked ho hlive h => exact Or.inl rfl
  | paperFilled ho hpaper => exact Or.inl rfl
  | flattened => exact Or.inl rfl
  | held kind price hflat => exact Or.inl rfl
  | closed kind price hflat horders hpending => exact Or.inl rfl
  | exitMarked e h => exact Or.inl rfl
  | positionAdopted qty hqty horders hflat hspent hcost => exact Or.inl rfl
  | restarted => exact Or.inl rfl

/-! ### In memory, until the process ends -/

def Entry.restarts (e : Entry) : Bool :=
  match e.event with
  | .restarted => true
  | _ => false

/-- From `w₀` on: as long as there was no restart, the memory answers for `x` in cycle `c`, and so
does every entry. -/
structure InMemory (w₀ : World) (c : Nat) (x : PendingExit) (w : World) (mid : List Entry) :
    Prop where
  log : w.log = mid ++ w₀.log
  entries : ∀ newer e older, mid = newer ++ e :: older → (∀ m ∈ older, m.restarts = false) →
    e.before.cycle = c → Owned x e.before
  memory : (∀ m ∈ mid, m.restarts = false) → c ≤ w.s.cycle ∧ (w.s.cycle = c → Owned x w.s)

theorem InMemory.move {w₀ : World} {c : Nat} {x : PendingExit} {mid : List Entry}
    (h : InMemory w₀ c x w mid) (hmove : Move S w w') : ∃ mid', InMemory w₀ c x w' mid' := by
  obtain ⟨es, hes, hbefore⟩ := hmove.log_eq
  refine ⟨es ++ mid, by rw [hes, h.log, List.append_assoc], ?_, ?_⟩
  · intro newer e older hsplit hquiet hcycle
    rcases List.append_eq_append_iff.mp hsplit with ⟨l, hnewer, hmid⟩ | ⟨l, hes', hrest⟩
    · exact h.entries l e older hmid hquiet hcycle
    · cases l with
      | nil =>
          rw [List.append_nil] at hes'
          exact h.entries [] e older hrest.symm hquiet hcycle
      | cons e' l =>
          -- the entry is new, and the entries before it since the last one are too
          obtain ⟨rfl, rfl⟩ := List.cons.inj hrest
          have he : e ∈ es := by
            rw [hes']
            simp
          have hmid : ∀ m ∈ mid, m.restarts = false := fun m hm => hquiet m (by simp [hm])
          rw [(hbefore e he).1] at hcycle ⊢
          exact (h.memory hmid).2 hcycle
  · intro hquiet
    have hmid : ∀ m ∈ mid, m.restarts = false := fun m hm => hquiet m (by simp [hm])
    obtain ⟨hle, howned⟩ := h.memory hmid
    cases hmove.carried with
    | kept hcycle hkept =>
        rw [hcycle]
        exact ⟨hle, fun hc => hkept x (howned hc)⟩
    | next hcycle =>
        rw [hcycle]
        exact ⟨by omega, fun hc => by omega⟩
    | restarted hs hlog =>
        have hes' : es = [⟨w.s, w.saved, .restarted⟩] := by
          rw [hes] at hlog
          exact List.append_cancel_right hlog
        have hno := hquiet ⟨w.s, w.saved, .restarted⟩ (by rw [hes']; simp)
        cases hno

theorem InMemory.walks {w₀ : World} {x : PendingExit} (h : w₀.s.pendingExit = some x)
    (hwalk : Walks S w₀ w) : ∃ mid, InMemory w₀ w₀.s.cycle x w mid := by
  refine hwalk.invariant (I := fun w => ∃ mid, InMemory w₀ w₀.s.cycle x w mid) ?_ ?_
  · rintro w w' hmove ⟨mid, hmid⟩
    exact hmid.move hmove
  · refine ⟨[], rfl, ?_, fun _ => ⟨le_refl _, fun _ => ⟨x, h, id⟩⟩⟩
    intro newer e older hsplit
    exact absurd hsplit (by simp)

/-! ### On disk, across restarts -/

/-- From `w₀` on: memory and disk are not behind cycle `c`, and answer for `x` in it. -/
structure OnDisk (w₀ : World) (c : Nat) (x : PendingExit) (w : World) (mid : List Entry) :
    Prop where
  log : w.log = mid ++ w₀.log
  entries : ∀ e ∈ mid, e.before.cycle = c → Owned x e.before
  reached : c ≤ w.saved.cycle
  ahead : w.saved.cycle ≤ w.s.cycle
  memory : w.s.cycle = c → Owned x w.s
  disk : w.saved.cycle = c → Owned x w.saved

theorem OnDisk.move {w₀ : World} {c : Nat} {x : PendingExit} {mid : List Entry}
    (h : OnDisk w₀ c x w mid) (hmove : Move S w w') : ∃ mid', OnDisk w₀ c x w' mid' := by
  obtain ⟨es, hes, hbefore⟩ := hmove.log_eq
  have hmemory : w'.s.cycle = c → Owned x w'.s := by
    intro hc
    cases hmove.carried with
    | kept hcycle hkept => exact hkept x (h.memory (by rw [← hcycle]; exact hc))
    | next hcycle =>
        have := h.reached
        have := h.ahead
        omega
    | restarted hs hlog =>
        rw [hs] at hc ⊢
        exact h.disk hc
  have hahead : w.saved.cycle ≤ w'.s.cycle := by
    have := h.ahead
    cases hmove.carried with
    | kept hcycle hkept => omega
    | next hcycle => omega
    | restarted hs hlog => rw [hs]
  have hentries : ∀ e ∈ es ++ mid, e.before.cycle = c → Owned x e.before := by
    intro e he hc
    rcases List.mem_append.mp he with he | he
    · rw [(hbefore e he).1] at hc ⊢
      exact h.memory hc
    · exact h.entries e he hc
  have hlog : w'.log = (es ++ mid) ++ w₀.log := by rw [hes, h.log, List.append_assoc]
  rcases hmove.disk with hdisk | ⟨hdisk, hs⟩
  · refine ⟨es ++ mid, hlog, hentries, ?_, ?_, hmemory, ?_⟩
    · rw [hdisk]
      exact h.reached
    · rw [hdisk]
      exact hahead
    · rw [hdisk]
      exact h.disk
  · refine ⟨es ++ mid, hlog, hentries, ?_, ?_, hmemory, ?_⟩
    · rw [hdisk]
      exact le_trans h.reached h.ahead
    · rw [hdisk, hs]
    · rw [hdisk]
      exact h.memory

/-- The memory is not behind the disk, and in the same cycle it has the exit the disk has. -/
structure World.Ahead (w : World) : Prop where
  cycle : w.saved.cycle ≤ w.s.cycle
  exit : w.saved.cycle = w.s.cycle → ∀ x, w.saved.pendingExit = some x → Owned x w.s

theorem Move.ahead (h : Move S w w') (hw : w.Ahead) : w'.Ahead := by
  rcases h.disk with hdisk | ⟨hdisk, hs⟩
  · have hcycle := hw.cycle
    constructor
    · cases h.carried with
      | kept hcycle' hkept =>
          rw [hdisk]
          omega
      | next hcycle' =>
          rw [hdisk]
          omega
      | restarted hs hlog => rw [hdisk, hs]
    · intro heq x hx
      rw [hdisk] at heq hx
      cases h.carried with
      | kept hcycle' hkept => exact hkept x (hw.exit (heq.trans hcycle') x hx)
      | next hcycle' => omega
      | restarted hs hlog =>
          rw [hs]
          exact ⟨x, hx, id⟩
  · constructor
    · rw [hdisk, hs]
    · intro _ x hx
      rw [hdisk] at hx
      rw [hs]
      exact ⟨x, hx, id⟩

theorem Reachable.ahead (hw : Reachable S w) : w.Ahead :=
  hw.invariant (I := World.Ahead) ⟨le_refl _, fun _ x hx => by cases hx⟩
    (fun _ _ hmove hI => hmove.ahead hI)

theorem OnDisk.walks {w₀ : World} {x : PendingExit} (hw₀ : w₀.Ahead)
    (h : w₀.saved.pendingExit = some x) (hwalk : Walks S w₀ w) :
    ∃ mid, OnDisk w₀ w₀.saved.cycle x w mid := by
  refine hwalk.invariant (I := fun w => ∃ mid, OnDisk w₀ w₀.saved.cycle x w mid) ?_ ?_
  · rintro w w' hmove ⟨mid, hmid⟩
    exact hmid.move hmove
  · refine ⟨[], rfl, ?_, le_refl _, hw₀.cycle, ?_, fun _ => ⟨x, h, id⟩⟩
    · intro e he
      cases he
    · intro hcycle
      exact hw₀.exit hcycle.symm x h

end Markers

/-! ## The cycle is owned -/

section Ownership

variable {S : Setup} {w : World}

theorem Reachable.genuine (hw : Reachable S w) : w.Genuine :=
  hw.invariant genuine_initial (fun _ _ hmove hI => hmove.genuine hI)

theorem Reachable.run (hw : Reachable S w) (actions : List Action) :
    Reachable S (w.run S actions) := by
  obtain ⟨before, rfl⟩ := hw
  refine ⟨before ++ actions, ?_⟩
  unfold World.run
  rw [List.foldl_append]

/-- The exit `x` of `w` answers for the entry `e`, made after the entries `mid`: it was set in the
cycle of `e` and the process has not ended since, or it was on disk. -/
def Answers (w : World) (x : PendingExit) (mid : List Entry) (e : Entry) : Prop :=
  (w.s.pendingExit = some x ∧ e.before.cycle = w.s.cycle ∧ ∀ m ∈ mid, m.restarts = false) ∨
    (w.saved.pendingExit = some x ∧ e.before.cycle = w.saved.cycle)

/-- In every run, a BUY is submitted only with no exit pending and a market SELL only with nothing
else open; and an exit that is pending in memory, or on disk, is pending at everything that
happens later in its cycle, as a STOP if it was one, so that nothing is bought. -/
theorem pending_exit_owns_cycle (hw : Reachable S w) :
    (∀ e ∈ w.log, (e.event.buys = true → e.before.pendingExit = none) ∧
      (e.event.sellsAtMarket = true → e.Alone)) ∧
    ∀ actions newer mid e x, (w.run S actions).log = newer ++ e :: (mid ++ w.log) →
      Answers w x mid e → Owned x e.before ∧ e.event.buys = false := by
  refine ⟨fun e he => ⟨(hw.sound e he).buys, (hw.sound e he).sells⟩, ?_⟩
  intro actions newer mid e x hlog hanswers
  have hwalk : Walks S w (w.run S actions) := run_walks hw.genuine actions
  -- the entries since `w` are determined by the log
  have hsplit : ∀ all, (w.run S actions).log = all ++ w.log → all = newer ++ e :: mid := by
    intro all hall
    rw [hlog, ← List.cons_append, ← List.append_assoc] at hall
    exact (List.append_cancel_right hall).symm
  have howned : Owned x e.before := by
    rcases hanswers with ⟨hexit, hcycle, hquiet⟩ | ⟨hexit, hcycle⟩
    · obtain ⟨all, hall⟩ := InMemory.walks hexit hwalk
      exact hall.entries newer e mid (hsplit all hall.log) hquiet hcycle
    · obtain ⟨all, hall⟩ := OnDisk.walks hw.ahead hexit hwalk
      refine hall.entries e ?_ hcycle
      rw [hsplit all hall.log]
      simp
  refine ⟨howned, ?_⟩
  by_contra hbuys
  have he : e ∈ (w.run S actions).log := by
    rw [hlog]
    simp
  have hnone := ((hw.run actions).sound e he).buys (by simpa using hbuys)
  obtain ⟨y, hy, -⟩ := howned
  rw [hnone] at hy
  cases hy

end Ownership

/-! ### An exit that could not be saved -/

/-- The entry of 1 at 100 fills; the save of call 9 may fail. -/
def filledEntry (ninth : SaveAnswer) : Setup :=
  sampleSetup { sampleVenue with
    orderStatus := fun n => .ok (.ok (if n = 7
      then boughtReport
      else openReport))
    save := fun n => if n = 9 then ninth else .stored }

/-- The price falls by a quarter, and the stop-loss requests an exit. -/
def stoppedRun : List Action := [.step 100 {}, .reconcile 100, .save, .step 75 {}]

/-- Any exit in memory keeps its cycle from buying, also one that was never saved. -/
def OwnsEvenIfUnsaved (S : Setup) : Prop :=
  ∀ w, Reachable S w → ∀ x, w.s.pendingExit = some x → ∀ actions newer mid e,
    (w.run S actions).log = newer ++ e :: (mid ++ w.log) → e.before.cycle = w.s.cycle →
    e.event.buys = false

theorem unsaved_exit_is_lost : ¬ OwnsEvenIfUnsaved (filledEntry .failed) := by
  intro h
  let S := filledEntry .failed
  let w := World.initial.run S stoppedRun
  have hexit : w.s.pendingExit = some { kind := .stop } := by decide +kernel
  have hreach : Reachable S w := ⟨stoppedRun, rfl⟩
  obtain ⟨mid, hmid⟩ :=
    InMemory.walks hexit (run_walks hreach.genuine [.restart, .step 85 {}])
  -- after the restart a DCA is bought in the same cycle
  have hbought : ((w.run S [.restart, .step 85 {}]).log.take
      ((w.run S [.restart, .step 85 {}]).log.length - w.log.length)).any
        (fun e => e.event.buys && decide (e.before.cycle = w.s.cycle)) = true := by
    decide +kernel
  rw [hmid.log, List.length_append, Nat.add_sub_cancel, List.take_left] at hbought
  obtain ⟨e, he, hb⟩ := List.any_eq_true.mp hbought
  rw [Bool.and_eq_true, decide_eq_true_eq] at hb
  obtain ⟨newer, older, hsplit⟩ := List.append_of_mem he
  have hlog : (w.run S [.restart, .step 85 {}]).log = newer ++ e :: (older ++ w.log) := by
    rw [hmid.log, hsplit]
    simp
  have hno := h w hreach { kind := .stop } hexit [.restart, .step 85 {}] newer older e hlog hb.2
  rw [hb.1] at hno
  cases hno

/-- With the save, the exit is on disk and the market SELL is made alone. -/
theorem saved_exit_owns_cycle :
    (World.initial.run (filledEntry .stored) stoppedRun).saved.pendingExit =
        some { kind := .stop } ∧
      ∀ actions newer mid e,
        ((World.initial.run (filledEntry .stored) stoppedRun).run (filledEntry .stored)
          actions).log = newer ++ e :: (mid ++
            (World.initial.run (filledEntry .stored) stoppedRun).log) →
        e.before.cycle = 1 → e.event.buys = false := by
  have hexit : (World.initial.run (filledEntry .stored) stoppedRun).saved.pendingExit =
      some { kind := .stop } := by decide +kernel
  have hcycle : (World.initial.run (filledEntry .stored) stoppedRun).saved.cycle = 1 := by
    decide +kernel
  refine ⟨hexit, fun actions newer mid e hlog he => ?_⟩
  exact ((pending_exit_owns_cycle ⟨stoppedRun, rfl⟩).2 actions newer mid e _ hlog
    (Or.inr ⟨hexit, he.trans hcycle.symm⟩)).2

end TradingFleet.SpotDca
