import TradingFleet.Trailing.Rebuy

set_option autoImplicit false

/-! # The trailing stop: what a SELL is measured against

A SELL is decided against the stored peak, and the peak is one number that survives a sale, the
waiting and the re-buy. `Turn` says what one asset's turn can make of its item while the pending
order is not settled: the fills stay, the peak is the old one or the price of the turn, and a
warm-up ends only at a price that reached it. A later SELL is measured against `highestSince`, the
highest price since the last REBUY fill. The peak stays below it as long as every fill is booked
soundly (`BookedSoundly`).
-/

namespace TradingFleet.Trailing

open TradingFleet.Hoare TradingFleet.Lifecycle
open TradingFleet.Rounding (roundTo)

/-! ## The turn of one asset

`seen` is the price that the turn has read, `it` the item at its beginning and `before` the log. -/

/-- The item differs from `it` by what a turn does before it settles a result. -/
structure Quiet (S : Setup) (seen : Option ℚ) (it st : Item) : Prop where
  history : ∃ us, st.history = us ++ it.history ∧ ∀ u ∈ us, u.fill? = none
  peak : st.core.peak = it.core.peak ∨ seen = some st.core.peak
  warm : S.settings.enabled = true → st.core.warmupAt = it.core.warmupAt ∨
    st.core.warmupAt = none ∧ ∀ T, it.core.warmupAt = some T → ∃ x, seen = some x ∧ T ≤ x

/-- The item is `it` with one fill booked. -/
structure Booked (S : Setup) (it st : Item) (fill : Fill) : Prop where
  history : st.history = .finished fill :: it.history
  core : st.core = it.core.finish S.settings fill
  pending : it.pendingOrder ≠ none

/-- What a turn leaves in memory or in the file. -/
def After (S : Setup) (seen : Option ℚ) (it st : Item) : Prop :=
  Quiet S seen it st ∨ ∃ fill, Booked S it st fill

/-- The price justifies a SELL of the item. -/
def Falls (S : Setup) (a : Asset) (seen : Option ℚ) (it : Item) : Prop :=
  S.settings.enabled = true ∧ ∃ x st, seen = some x ∧ Quiet S seen it st ∧
    st.core.warmupAt = none ∧ shouldSell x st.core.peak a.trailPct = true

def Event.submits (key : String) : Event → Bool
  | .submit key' _ => key' = key
  | _ => false

/-- The entry is the submit of a SELL of the asset. -/
def Entry.Sells (a : Asset) (e : Entry) : Prop :=
  e.event.submits a.key = true ∧
    (pendingOf (e.disk a.key)).map (fun q => q.metadata.action) = some .sell

instance (a : Asset) (e : Entry) : Decidable (e.Sells a) :=
  inferInstanceAs (Decidable (_ ∧ _))

/-- The new entries of the log contain a SELL only if the price justifies it. -/
def Justified (S : Setup) (a : Asset) (seen : Option ℚ) (it : Item) (before log : List Entry) :
    Prop :=
  ∃ new, log = new ++ before ∧ ∀ e ∈ new, e.Sells a → Falls S a seen it

/-- The turn has made `st` of the item. -/
structure Turn (S : Setup) (a : Asset) (seen : Option ℚ) (it : Item) (before : List Entry)
    (st : Item) (w : World) : Prop where
  item : w.state a.key = some st
  quiet : Quiet S seen it st
  agrees : pendingOf (w.disk a.key) = st.pendingOrder
  disk : ∀ d, w.disk a.key = some d → Quiet S seen it d
  log : Justified S a seen it before w.log

/-- The turn is over, however it ended. -/
structure Left (S : Setup) (a : Asset) (seen : Option ℚ) (it : Item) (before : List Entry)
    (w : World) : Prop where
  state : ∀ st, w.state a.key = some st → After S seen it st
  disk : ∀ d, w.disk a.key = some d → After S seen it d
  log : Justified S a seen it before w.log

variable {S : Setup} {a : Asset} {seen : Option ℚ} {it st : Item} {before : List Entry}
  {α β : Type} {w : World}

theorem Quiet.refl : Quiet S seen it it :=
  ⟨⟨[], rfl, by simp⟩, Or.inl rfl, fun _ => Or.inl rfl⟩

theorem Quiet.applied (h : Quiet S seen it st) : st.applied = it.applied := by
  obtain ⟨us, hus, hnone⟩ := h.history
  unfold Item.applied
  rw [hus, List.filterMap_append, List.filterMap_eq_nil_iff.mpr hnone, List.nil_append]

/-- One more update that books no fill. -/
theorem Quiet.perform (h : Quiet S seen it st) {u : Update} (hu : u.fill? = none)
    (hpeak : (st.core.apply S.settings u).peak = st.core.peak ∨
      seen = some (st.core.apply S.settings u).peak)
    (hwarm : S.settings.enabled = true →
      (st.core.apply S.settings u).warmupAt = st.core.warmupAt ∨
      (st.core.apply S.settings u).warmupAt = none ∧
        ∀ T, st.core.warmupAt = some T → ∃ x, seen = some x ∧ T ≤ x) :
    Quiet S seen it (st.perform S.settings u) := by
  obtain ⟨us, hus, hnone⟩ := h.history
  refine ⟨⟨u :: us, ?_, ?_⟩, ?_, fun henabled => ?_⟩
  · show u :: st.history = _
    rw [hus]
    rfl
  · intro v hv
    rcases List.mem_cons.mp hv with rfl | hv
    · exact hu
    · exact hnone v hv
  · rcases hpeak with hsame | hseen
    · have heq : (st.perform S.settings u).core.peak = st.core.peak := hsame
      rw [heq]
      exact h.peak
    · exact Or.inr hseen
  · rcases hwarm henabled with hsame | ⟨hgone, hreached⟩
    · have heq : (st.perform S.settings u).core.warmupAt = st.core.warmupAt := hsame
      rw [heq]
      exact h.warm henabled
    · -- the warm-up ended here, or it had ended before
      rcases h.warm henabled with hold | ⟨-, hbefore⟩
      · exact Or.inr ⟨hgone, hold ▸ hreached⟩
      · exact Or.inr ⟨hgone, hbefore⟩

theorem Justified.refl : Justified S a seen it before before := ⟨[], rfl, by simp⟩

theorem Justified.cons {log : List Entry} (h : Justified S a seen it before log) {e : Entry}
    (he : e.Sells a → Falls S a seen it) : Justified S a seen it before (e :: log) := by
  obtain ⟨new, rfl, hnew⟩ := h
  refine ⟨e :: new, rfl, fun e' he' => ?_⟩
  rcases List.mem_cons.mp he' with rfl | he'
  · exact he
  · exact hnew e' he'

theorem Turn.called (h : Turn S a seen it before st w) :
    Turn S a seen it before st { w with calls := w.calls + 1 } :=
  ⟨h.item, h.quiet, h.agrees, h.disk, h.log⟩

theorem Left.called (h : Left S a seen it before w) :
    Left S a seen it before { w with calls := w.calls + 1 } :=
  ⟨h.state, h.disk, h.log⟩

theorem Turn.left (h : Turn S a seen it before st w) : Left S a seen it before w where
  state := fun st' hst' => by
    rw [h.item] at hst'
    cases hst'
    exact Or.inl h.quiet
  disk := fun d hd => Or.inl (h.disk d hd)
  log := h.log

/-! ## Calls and writes -/

theorem ask_turn (answer : Nat → Except Stop α) :
    Triple (Turn S a seen it before st) (ask answer) (fun _ => Turn S a seen it before st)
      (fun _ => Left S a seen it before) :=
  ask_triple answer (fun _ h => h.called) (fun _ _ h => h.left.called)

theorem askSafely_turn (answer : Nat → Except Stop (Option α)) :
    Triple (Turn S a seen it before st) (askSafely answer) (fun _ => Turn S a seen it before st)
      (fun _ => Left S a seen it before) :=
  askSafely_triple answer (fun _ h => h.called) (fun _ h => h.left.called)

theorem item_turn {f : Item → TrailM β} {Q : β → World → Prop} {E : Stop → World → Prop}
    (h : Triple (Turn S a seen it before st) (f st) Q E) :
    Triple (Turn S a seen it before st) (item a.key >>= f) Q E := by
  intro w hw
  have hitem : (w.state a.key).getD (Item.new 0) = st := by
    rw [hw.item]
    rfl
  show Post Q E (f ((w.state a.key).getD (Item.new 0)) w)
  rw [hitem]
  exact h w hw

theorem perform_turn (u : Update) (h : Quiet S seen it (st.perform S.settings u)) :
    Triple (Turn S a seen it before st) (perform S a.key u)
      (fun _ => Turn S a seen it before (st.perform S.settings u))
      (fun _ => Left S a seen it before) := by
  intro w hw
  unfold perform
  rw [change_at hw.item]
  exact ⟨Function.update_self _ _ _, h, hw.agrees, hw.disk, hw.log⟩

theorem mark_turn {e : Event} (h : ∀ w, Turn S a seen it before st w →
      Entry.Sells a ⟨w.disk, e⟩ → Falls S a seen it) :
    Triple (Turn S a seen it before st) (mark e) (fun _ => Turn S a seen it before st)
      (fun _ => Left S a seen it before) :=
  fun w hw => ⟨hw.item, hw.quiet, hw.agrees, hw.disk, hw.log.cons (h w hw)⟩

/-- After a save the file has what memory has. -/
theorem saveOr_turn (text : String) :
    Triple (fun w => w.state a.key = some st ∧ Quiet S seen it st ∧ Left S a seen it before w ∧
        (∀ d, w.disk a.key = some d → Quiet S seen it d))
      (saveOr S text) (fun _ => Turn S a seen it before st)
      (fun _ => Left S a seen it before) := by
  refine Triple.bind (Q := fun saved w => Left S a seen it before w ∧
    (saved = true → Turn S a seen it before st w)) ?_ (fun saved => ?_)
  · rintro w ⟨hitem, hquiet, hleft, hdisk⟩
    have hstored : Turn S a seen it before st
        ({ w with calls := w.calls + 1 } : World).stored := by
      refine ⟨hitem, hquiet, ?_, fun d hd => ?_, hleft.log⟩
      · show pendingOf (w.state a.key) = _
        rw [hitem]
        rfl
      · have hd' : w.state a.key = some d := hd
        rw [hitem] at hd'
        cases hd'
        exact hquiet
    unfold save
    cases S.venue.save w.calls with
    | stored => exact ⟨hstored.left, fun _ => hstored⟩
    | failed => exact ⟨hleft.called, fun h => by cases h⟩
    | raised e => exact hleft.called
    | crashed replaced =>
        cases replaced with
        | true => exact hstored.left
        | false => exact hleft.called
  · cases saved with
    | true => exact Triple.pure (fun w hw => hw.2 rfl)
    | false => exact Triple.throw (fun w hw => hw.1)

theorem Quiet.pending (h : Quiet S seen it st) (o : Option Pending) :
    Quiet S seen it { st with pendingOrder := o } := ⟨h.history, h.peak, h.warm⟩

theorem persistPending_turn (o : Option Pending) :
    Triple (Turn S a seen it before st) (persistPending S a.key o)
      (fun _ => Turn S a seen it before { st with pendingOrder := o })
      (fun _ => Left S a seen it before) := by
  refine Triple.bind (Q := fun _ w => w.state a.key = some { st with pendingOrder := o } ∧
    Quiet S seen it { st with pendingOrder := o } ∧ Left S a seen it before w ∧
    (∀ d, w.disk a.key = some d → Quiet S seen it d)) ?_ (fun _ => saveOr_turn _)
  intro w hw
  rw [change_at hw.item]
  have hquiet := hw.quiet.pending o
  refine ⟨Function.update_self _ _ _, hquiet, ⟨fun st' hst' => ?_, hw.left.disk, hw.log⟩, hw.disk⟩
  have hst'' : Function.update w.state a.key (some { st with pendingOrder := o }) a.key = some st' :=
    hst'
  rw [Function.update_self] at hst''
  cases hst''
  exact Or.inl hquiet

/-! ## Orders -/

/-- The intent is stored, in memory and in the file. -/
def Stored (S : Setup) (a : Asset) (seen : Option ℚ) (it : Item) (before : List Entry) (st : Item)
    (_ : Bool) (q : Pending) : World → Prop :=
  Turn S a seen it before { st with pendingOrder := some q }

/-- The contract with the lifecycle of the asset. -/
theorem owner_turn (st : Item) : Owner (env S a.key) (Stored S a seen it before st)
    (fun _ => Turn S a seen it before { st with pendingOrder := none })
    (fun _ => Left S a seen it before) where
  persist := fun p q _ _ =>
    @persistPending_turn S a seen it { st with pendingOrder := some p } before (some q)
  attempt := fun p t _ _ _ =>
    @persistPending_turn S a seen it { st with pendingOrder := some p } before (some (p.cancelling t))
  release := fun p _ _ =>
    @persistPending_turn S a seen it { st with pendingOrder := some p } before none
  orderByClientId := fun _ => ask_turn _
  orderStatus := fun _ _ => ask_turn _
  cancelOrder := fun _ _ => ask_turn _
  clock := fun _ => ask_turn _
  audit := fun _ _ _ _ => Triple.pure (fun _ h => h)
  auditGone := fun _ _ _ => Triple.pure (fun _ h => h)
  raised := fun _ _ _ h => h.left

theorem newIntent_turn (n : NewIntent Meta) :
    Triple (Turn S a seen it before st) (newIntent (env S a.key) n)
      (fun intent w => (∃ t, intent = n.record t) ∧ Turn S a seen it before st w)
      (fun _ => Left S a seen it before) := by
  refine Triple.bind (Q := fun _ => Turn S a seen it before st) ?_ (fun t => ?_)
  · refine Triple.bind (Q := fun _ => Turn S a seen it before st) (ask_turn _) (fun raw => ?_)
    cases Raw.positive raw with
    | some t => exact Triple.pure (fun _ hw => hw)
    | none => exact Triple.throw (fun _ hw => hw.left)
  · refine Triple.bind (Q := fun _ => Turn S a seen it before st) ?_ (fun _ => ?_)
    · exact orRaise_triple (fun _ _ _ hw => hw) (fun _ _ _ hw => hw.left)
    · refine Triple.ite ?_ (Triple.pure (fun _ hw => ⟨⟨t, rfl⟩, hw⟩))
      exact Triple.throw (fun _ hw => hw.left)

/-- Something the turn has made of the item. -/
def Turned (S : Setup) (a : Asset) (seen : Option ℚ) (it : Item) (before : List Entry) (w : World) :
    Prop := ∃ st, Turn S a seen it before st w

/-- An order is placed; a SELL only when the price justifies it. -/
theorem execute_turn (action : Action) (qty price anchor : ℚ)
    (hsell : action = .sell → Falls S a seen it) :
    Triple (Turn S a seen it before st) (execute S a action qty price anchor)
      (fun _ => Turned S a seen it before) (fun _ => Left S a seen it before) := by
  refine Triple.get (fun w₀ hw₀ => ?_)
  extract_lets limit id
  have hstart : ∀ w, w = w₀ → Turn S a seen it before st w := fun w hw => hw ▸ hw₀
  refine Triple.bind ((newIntent_turn _).strengthen hstart) (fun intent => ?_)
  refine Triple.of_fact (fun hintent => ?_)
  obtain ⟨t, hintent⟩ := hintent
  have hknown : intent.orderKnown = false := by
    rw [hintent]
    rfl
  have haction : intent.metadata.action = action := by
    rw [hintent]
    rfl
  refine Triple.bind (mark_turn (fun w _ hsells => by cases hsells.1)) (fun _ => ?_)
  -- at the submit the file has the intent, so it is a SELL only if the action is
  have hcallback : Triple (Stored S a seen it before st false intent) (callback S a.key w₀.calls)
      (fun _ => Stored S a seen it before st false intent) (fun _ => Left S a seen it before) := by
    refine Triple.bind (mark_turn (fun w hw hsells => ?_)) (fun _ => ask_turn _)
    have hstored : pendingOf (w.disk a.key) = some intent := hw.agrees
    have hqsell := hsells.2
    rw [hstored] at hqsell
    exact hsell (haction.symm.trans (Option.some.inj hqsell))
  refine Triple.bind (submit_triple (owner_turn st) hknown (fun _ => persistPending_turn (some intent))
    (Triple.pure (fun _ h => h)) hcallback (fun _ _ hw => hw.left)) (fun result => ?_)
  refine Triple.ite ?_ (Triple.pure (fun w hw => ⟨_, hw.stored⟩))
  exact ((@persistPending_turn S a seen it { st with pendingOrder := some result.intent } before none).weaken
    (fun _ w hw => ⟨_, hw⟩)).strengthen (fun w hw => hw.stored)

/-! ## Policies -/

theorem rebuyFor_turn (arm : Bool) :
    Triple (Turn S a seen it before st) (rebuyFor S arm) (fun _ => Turn S a seen it before st)
      (fun _ => Left S a seen it before) := by
  unfold rebuyFor
  split
  · exact Triple.bind (askSafely_turn _) (fun _ => Triple.pure (fun _ hw => hw))
  · exact Triple.pure (fun _ hw => hw)

theorem filteredBy_turn (skip : Bool) (blocks : ℚ → Bool) :
    Triple (Turn S a seen it before st) (filteredBy S skip blocks)
      (fun _ => Turn S a seen it before st) (fun _ => Left S a seen it before) := by
  refine Triple.ite ?_ (Triple.pure (fun _ hw => hw))
  exact Triple.bind (ask_turn _) (fun _ => Triple.pure (fun _ hw => hw))

/-- The re-buy record may change as it likes. -/
theorem Quiet.rebuy (h : Quiet S seen it st) {u : Update} (hu : u.fill? = none)
    (hpeak : (st.core.apply S.settings u).peak = st.core.peak)
    (hwarm : (st.core.apply S.settings u).warmupAt = st.core.warmupAt) :
    Quiet S seen it (st.perform S.settings u) :=
  h.perform hu (Or.inl hpeak) (fun _ => Or.inl hwarm)

/-- `Turn` with what is known about the item. -/
theorem Triple.turned {x : TrailM α} {Q : α → World → Prop} {E : Stop → World → Prop}
    (h : Quiet S seen it st → Triple (Turn S a seen it before st) x Q E) :
    Triple (Turn S a seen it before st) x Q E :=
  fun w hw => h hw.quiet w hw

/-! ## One asset -/

theorem handleRebuy_turn (price : ℚ) :
    Triple (Turn S a seen it before st) (handleRebuy S a price) (fun _ => Turned S a seen it before)
      (fun _ => Left S a seen it before) := by
  refine Triple.turned (fun hquiet => ?_)
  have hlowered : Quiet S seen it (st.perform S.settings (.lowered price)) :=
    hquiet.rebuy rfl rfl rfl
  refine Triple.bind (perform_turn _ hlowered) (fun _ => item_turn ?_)
  generalize st.perform S.settings (.lowered price) = st' at hlowered
  cases st'.core.rebuy with
  | none => exact Triple.pure (fun w hw => ⟨st', hw⟩)
  | some rb =>
      refine Triple.ite (Triple.pure (fun w hw => ⟨st', hw⟩)) ?_
      refine Triple.bind (filteredBy_turn _ _) (fun down => ?_)
      refine Triple.ite ((ask_turn _).weaken (fun _ w hw => ⟨st', hw⟩)) ?_
      extract_lets qty
      have hdropped : Quiet S seen it (st'.perform S.settings .dropped) :=
        hlowered.rebuy rfl rfl rfl
      refine Triple.ite ((perform_turn _ hdropped).weaken (fun _ w hw => ⟨_, hw⟩)) ?_
      by_cases henabled : S.settings.enabled = true
      · rw [if_pos henabled]
        refine Triple.ite (Triple.pure (fun w hw => ⟨st', hw⟩)) ?_
        exact execute_turn .rebuy qty price _ (fun h => by cases h)
      · -- a dry run books the re-buy at once
        rw [if_neg henabled]
        refine Triple.bind (ask_turn _) (fun _ => Triple.bind (perform_turn _ hdropped) (fun _ => ?_))
        refine Triple.ite ?_ (Triple.pure (fun w hw => ⟨_, hw⟩))
        refine (perform_turn _ ?_).weaken (fun _ w hw => ⟨_, hw⟩)
        exact hdropped.perform rfl (Or.inl rfl) (fun h => absurd h henabled)

theorem considerRebuy_turn (price : ℚ) :
    Triple (Turn S a seen it before st) (considerRebuy S a price)
      (fun _ => Turned S a seen it before) (fun _ => Left S a seen it before) := by
  refine Triple.turned (fun hquiet => item_turn ?_)
  refine Triple.ite ?_ (Triple.pure (fun w hw => ⟨st, hw⟩))
  have hlowered : Quiet S seen it (st.perform S.settings (.lowered price)) :=
    hquiet.rebuy rfl rfl rfl
  refine Triple.bind (perform_turn _ hlowered) (fun _ => ?_)
  refine Triple.bind (rebuyFor_turn false) (fun allowed => ?_)
  refine Triple.ite ?_ (Triple.pure (fun w hw => ⟨_, hw⟩))
  refine Triple.bind (handleRebuy_turn price) (fun _ => ?_)
  rintro w ⟨st', hw⟩
  refine item_turn ?_ w hw
  exact Triple.pure (fun w hw => ⟨st', hw⟩)

/-- A turn that goes on has no warm-up. -/
theorem warmedUp_turn {price : ℚ} (hseen : seen = some price) :
    Triple (Turn S a seen it before st) (warmedUp S a.key price)
      (fun warm w => ∃ st', Turn S a seen it before st' w ∧
        (warm = true → st'.core.warmupAt = none)) (fun _ => Left S a seen it before) := by
  refine Triple.turned (fun hquiet => item_turn ?_)
  cases hwarm : st.core.warmupAt with
  | none => exact Triple.pure (fun w hw => ⟨st, hw, fun _ => hwarm⟩)
  | some threshold =>
      show Triple _ (if price < threshold then pure false else do
        perform S a.key .warmed
        pure true) _ _
      by_cases hlow : price < threshold
      · rw [if_pos hlow]
        exact Triple.pure (fun w hw => ⟨st, hw, fun h => by cases h⟩)
      · rw [if_neg hlow]
        have hwarmed : Quiet S seen it (st.perform S.settings .warmed) := by
          refine hquiet.perform rfl (Or.inl rfl) (fun _ => Or.inr ⟨rfl, fun T hT => ?_⟩)
          rw [hwarm] at hT
          cases hT
          exact ⟨price, hseen, not_lt.mp hlow⟩
        exact Triple.bind (perform_turn _ hwarmed)
          (fun _ => Triple.pure (fun w hw => ⟨_, hw, fun _ => rfl⟩))

theorem raisePeak_turn {price : ℚ} (hseen : seen = some price)
    (hwarm : st.core.warmupAt = none) :
    Triple (Turn S a seen it before st) (raisePeak S a.key price)
      (fun _ w => ∃ st', Turn S a seen it before st' w ∧ st'.core.warmupAt = none)
      (fun _ => Left S a seen it before) := by
  refine Triple.turned (fun hquiet => item_turn ?_)
  refine Triple.ite ?_ (Triple.pure (fun w hw => ⟨st, hw, hwarm⟩))
  have hpeaked : Quiet S seen it (st.perform S.settings (.peaked price)) :=
    hquiet.perform rfl (Or.inr hseen) (fun _ => Or.inl rfl)
  exact (perform_turn _ hpeaked).weaken (fun _ w hw => ⟨_, hw, hwarm⟩)

/-- **The only place of a SELL**: below the peak, after the warm-up. -/
theorem trail_turn (free : ℚ) {price : ℚ} (hseen : seen = some price)
    (hwarm : st.core.warmupAt = none) :
    Triple (Turn S a seen it before st) (trail S a free price) (fun _ => Turned S a seen it before)
      (fun _ => Left S a seen it before) := by
  refine Triple.bind (raisePeak_turn hseen hwarm) (fun _ => ?_)
  rintro w ⟨st', hw, hwarm'⟩
  refine Triple.turned (fun hquiet => item_turn ?_) w hw
  have hnote : Triple (Turn S a seen it before st') (ask S.venue.note)
      (fun _ => Turned S a seen it before) (fun _ => Left S a seen it before) :=
    (ask_turn _).weaken (fun _ w hw => ⟨st', hw⟩)
  by_cases hfall : shouldSell price st'.core.peak a.trailPct = true
  · rw [if_pos hfall]
    refine Triple.bind (filteredBy_turn _ _) (fun up => Triple.ite hnote ?_)
    extract_lets qty
    by_cases hlive : (S.settings.enabled && decide (S.settings.minNotional ≤ qty * price)) = true
    · rw [if_pos hlive]
      have henabled : S.settings.enabled = true := by
        cases h : S.settings.enabled with
        | true => rfl
        | false => simp [h] at hlive
      exact execute_turn .sell qty price _
        (fun _ => ⟨henabled, price, st', hseen, hquiet, hwarm', hfall⟩)
    · rw [if_neg hlive]
      exact hnote
  · rw [if_neg hfall]
    exact hnote

/-! ## Results -/

theorem arms_turn (p : Pending) (status : OrderStatus) :
    Triple (Turn S a seen it before st) (arms S p status) (fun _ => Turn S a seen it before st)
      (fun _ => Left S a seen it before) := by
  refine Triple.ite (rebuyFor_turn true) (Triple.pure (fun _ hw => hw))

/-- A result is booked on the item as it was. -/
theorem settleResult_turn (price : ℚ) (result : Tracked Meta) (hpending : it.pendingOrder ≠ none)
    {o : Option Pending} :
    Triple (Turn S a seen it before { it with pendingOrder := o })
      (settleResult S a.key price result) (fun _ => Left S a seen it before)
      (fun _ => Left S a seen it before) := by
  unfold settleResult
  split
  · rename_i status houtcome hresult
    refine Triple.bind (arms_turn _ _) (fun armed => ?_)
    refine Triple.bind (Q := fun _ => Turn S a seen it before { it with pendingOrder := o }) ?_
      (fun _ => ?_)
    · exact fun w hw => ⟨hw.item, hw.quiet, hw.agrees, hw.disk,
        hw.log.cons (fun hsells => by cases hsells.1)⟩
    refine Triple.bind (Q := fun _ => Left S a seen it before) ?_ (fun _ => ?_)
    · intro w hw
      unfold finishPending
      rw [change_at hw.item]
      refine ⟨fun st hst => ?_, hw.left.disk, hw.log⟩
      have hst' : Function.update w.state a.key (some (Item.settle S.settings
          (fillOf result.intent status price armed) { it with pendingOrder := o })) a.key =
          some st := hst
      rw [Function.update_self] at hst'
      cases hst'
      exact Or.inr ⟨_, rfl, rfl, hpending⟩
    · refine Triple.bind (Q := fun _ => Left S a seen it before) ?_ (fun saved => ?_)
      · intro w hw
        have hstored : Left S a seen it before ({ w with calls := w.calls + 1 } : World).stored :=
          ⟨hw.state, hw.state, hw.log⟩
        unfold save
        cases S.venue.save w.calls with
        | stored => exact hstored
        | failed => exact hw.called
        | raised e => exact hw.called
        | crashed replaced =>
            cases replaced with
            | true => exact hstored
            | false => exact hw.called
      · exact Triple.ite (Triple.pure (fun _ hw => hw)) (Triple.throw (fun _ hw => hw))
  · exact Triple.pure (fun _ hw => hw.left)

/-- A pending order ends the turn. -/
theorem reconcilePending_turn (price : ℚ) (hreal : ∀ q, it.pendingOrder = some q →
      ∀ t, q.terminalStatus = some t → t.Real) :
    Triple (Turn S a seen it before it) (reconcilePending S a.key price)
      (fun waiting w => if waiting then Left S a seen it before w
        else Turn S a seen it before it w)
      (fun _ => Left S a seen it before) := by
  refine item_turn ?_
  cases hp : it.pendingOrder with
  | none => exact Triple.pure (fun w hw => hw)
  | some p =>
      have hpending : it.pendingOrder ≠ none := by simp [hp]
      have hself : ({ it with pendingOrder := some p } : Item) = it := by
        cases it
        cases hp
        rfl
      have hreconcile := reconcile_triple (@owner_turn S a seen it before it) S.adapter.lifecycle p (hreal p hp)
      have hstart : ∀ w, Turn S a seen it before it w → Stored S a seen it before it false p w := by
        intro w hw
        unfold Stored
        rw [hself]
        exact hw
      refine Triple.bind (hreconcile.strengthen hstart) (fun result => ?_)
      refine Triple.bind (Q := fun _ => Left S a seen it before) ?_
        (fun _ => Triple.pure (fun _ hw => hw))
      intro w hw
      -- only a submit refuses
      cases houtcome : result.outcome with
      | active => exact settleResult_turn price result hpending w (hw.stored (Or.inl houtcome))
      | terminal => exact settleResult_turn price result hpending w (hw.stored (Or.inr houtcome))
      | absent => exact settleResult_turn price result hpending w (hw.released (Or.inl houtcome)).2
      | retryable => exact settleResult_turn price result hpending w (hw.released (Or.inr houtcome)).2
      | refused => exact absurd houtcome hw.outcome

/-! ## One tick of the only asset

`slot` is what the file has for the asset at the beginning of the tick. -/

/-- The item that the turn starts with; a new one has its peak at the price of the turn. -/
def Origin (seen : Option ℚ) (slot : Option Item) (it : Item) : Prop :=
  slot = some it ∨
    slot = none ∧ it.applied = [] ∧ it.pendingOrder = none ∧ seen = some it.core.peak

def Descends (S : Setup) (seen : Option ℚ) (slot : Option Item) (st : Item) : Prop :=
  ∃ it, Origin seen slot it ∧ After S seen it st

/-- What a tick leaves behind, however it ended. -/
structure Ended (S : Setup) (a : Asset) (seen : Option ℚ) (slot : Option Item)
    (before : List Entry) (w : World) : Prop where
  disk : ∀ d, w.disk a.key = some d → Descends S seen slot d
  log : ∃ new, w.log = new ++ before ∧
    ∀ e ∈ new, e.Sells a → ∃ it, Origin seen slot it ∧ Falls S a seen it

/-- The same, for the item in memory too. -/
structure Gone (S : Setup) (a : Asset) (seen : Option ℚ) (slot : Option Item)
    (before : List Entry) (w : World) : Prop extends Ended S a seen slot before w where
  state : ∀ st, w.state a.key = some st → Descends S seen slot st

/-- The turn has not begun. -/
structure Opening (a : Asset) (slot : Option Item) (before : List Entry) (w : World) : Prop where
  state : w.state a.key = slot
  disk : w.disk a.key = slot
  log : w.log = before

variable {slot : Option Item}

theorem Left.gone (h : Left S a seen it before w) (horigin : Origin seen slot it) :
    Gone S a seen slot before w where
  disk := fun d hd => ⟨it, horigin, h.disk d hd⟩
  log := by
    obtain ⟨new, hnew, hsells⟩ := h.log
    exact ⟨new, hnew, fun e he hs => ⟨it, horigin, hsells e he hs⟩⟩
  state := fun st hst => ⟨it, horigin, h.state st hst⟩

theorem Opening.gone (h : Opening a slot before w) : Gone S a seen slot before w := by
  have hdescends : ∀ st, slot = some st → Descends S seen slot st :=
    fun st hst => ⟨st, Or.inl hst, Or.inl Quiet.refl⟩
  refine ⟨⟨fun d hd => hdescends d (h.disk ▸ hd), [], h.log, fun _ he => ?_⟩,
    fun st hst => hdescends st (h.state ▸ hst)⟩
  cases he

theorem Opening.turn (h : Opening a (some it) before w) : Turn S a seen it before it w where
  item := h.state
  quiet := Quiet.refl
  agrees := by
    rw [h.disk]
    rfl
  disk := fun d hd => by
    rw [h.disk] at hd
    cases hd
    exact Quiet.refl
  log := h.log ▸ Justified.refl

/-- One call whose number is known. -/
theorem ask_numbered {c : Nat} (answer : Nat → Except Stop α) {P : World → Prop}
    (hP : ∀ w, P w → P { w with calls := w.calls + 1 }) :
    Triple (fun w => w.calls = c ∧ P w) (ask answer)
      (fun x w => answer c = .ok x ∧ w.calls = c + 1 ∧ P w) (fun _ => P) := by
  rintro w ⟨rfl, hw⟩
  unfold ask
  cases hanswer : answer w.calls with
  | ok x =>
      have hnext := hP w hw
      exact ⟨rfl, rfl, hnext⟩
  | error e =>
      have hnext := hP w hw
      exact hnext

/-- A new item starts at the price of the turn. -/
theorem setDefault_turn {price : ℚ} (hseen : seen = some price) :
    Triple (Opening a slot before) (setDefault S a price)
      (fun _ w => ∃ it, Origin seen slot it ∧ Turn S a seen it before it w)
      (fun _ => Gone S a seen slot before) := by
  refine Triple.get (fun w₀ hw₀ => ?_)
  cases slot with
  | some it =>
      rw [if_pos (by rw [hw₀.state]; rfl)]
      refine Triple.pure (fun w hw => ⟨it, Or.inl rfl, ?_⟩)
      subst hw
      exact hw₀.turn
  | none =>
      rw [if_neg (by rw [hw₀.state]; simp)]
      have hfresh : ∀ it : Item, it.applied = [] → it.pendingOrder = none → it.core.peak = price →
          Origin seen none it :=
        fun it happlied hidle hpeak => Or.inr ⟨rfl, happlied, hidle, hpeak ▸ hseen⟩
      have hturn : ∀ (it : Item) (w : World), it.pendingOrder = none →
          w.state a.key = some it → w.disk a.key = none → w.log = before →
          Turn S a seen it before it w := by
        intro it w hidle hstate hdisk hlog
        refine ⟨hstate, Quiet.refl, ?_, fun d hd => ?_, hlog ▸ Justified.refl⟩
        · rw [hdisk, hidle]
          rfl
        · rw [hdisk] at hd
          cases hd
      -- the new item is in memory only
      refine Triple.bind (Q := fun _ w => w.state a.key = some (Item.new price) ∧
        w.disk a.key = none ∧ w.log = before) ?_ (fun _ => ?_)
      · intro w hw
        subst hw
        exact ⟨Function.update_self _ _ _, hw₀.disk, hw₀.log⟩
      · refine Triple.ite ?_ (Triple.pure (fun w hw => ?_))
        · refine Triple.bind (askSafely_triple _ (fun _ hw => hw) (fun w hw => ?_))
            (fun basis => ?_)
          · exact (hturn _ _ rfl hw.1 hw.2.1 hw.2.2).called.left.gone (hfresh _ rfl rfl rfl)
          · intro w hw
            unfold perform
            rw [change_at hw.1]
            refine ⟨_, hfresh _ ?_ ?_ ?_, hturn _ _ ?_ (Function.update_self _ _ _) hw.2.1 hw.2.2⟩
            · rfl
            · rfl
            · rfl
            · rfl
        · exact ⟨_, hfresh _ rfl rfl rfl, hturn _ _ rfl hw.1 hw.2.1 hw.2.2⟩

/-- `_process` reads the price with its second call. -/
theorem process_turn {c : Nat}
    (hseen : ∀ free answer, S.venue.freeQty c = .ok free → S.venue.price (c + 1) = .ok answer →
      seen = answer.filter (fun p => 0 < p))
    (hreal : ∀ it, slot = some it → ∀ q, it.pendingOrder = some q →
      ∀ t, q.terminalStatus = some t → t.Real) :
    Triple (fun w => w.calls = c ∧ Opening a slot before w) (process S a)
      (fun _ => Gone S a seen slot before) (fun _ => Gone S a seen slot before) := by
  have hcalled : ∀ w, Opening a slot before w →
      Opening a slot before { w with calls := w.calls + 1 } :=
    fun w hw => ⟨hw.state, hw.disk, hw.log⟩
  have hraised : ∀ w, Opening a slot before w → Gone S a seen slot before w :=
    fun w hw => hw.gone
  refine Triple.bind ((ask_numbered _ hcalled).conseq (fun _ hw => hw) (fun _ _ hw => hw)
    (fun _ => hraised)) (fun free => Triple.of_fact (fun hfree => ?_))
  refine Triple.bind ((ask_numbered _ hcalled).conseq (fun _ hw => hw) (fun _ _ hw => hw)
    (fun _ => hraised)) (fun answer => Triple.of_fact (fun hanswer => ?_))
  have hread := hseen free answer hfree hanswer
  cases hprice : answer.filter (fun p => 0 < p) with
  | none => exact Triple.pure (fun w hw => hw.2.gone)
  | some price =>
      rw [hprice] at hread
      refine Triple.bind ((setDefault_turn hread).strengthen (fun _ hw => hw.2)) (fun _ => ?_)
      rintro w ⟨it, horigin, hw⟩
      have hgone : ∀ w, Left S a seen it before w → Gone S a seen slot before w :=
        fun w hw => hw.gone horigin
      have hitem : ∀ q, it.pendingOrder = some q → ∀ t, q.terminalStatus = some t → t.Real := by
        rcases horigin with hslot | ⟨-, -, hidle, -⟩
        · exact hreal it hslot
        · intro q hq
          rw [hidle] at hq
          cases hq
      -- what follows the default ends with the item of this asset, old or new
      suffices hrest : Triple (Turn S a seen it before it) (do
          if ← reconcilePending S a.key price then pure ()
          else if ← considerRebuy S a price then pure ()
          else if free * price < S.settings.minNotional then pure ()
          else if ← warmedUp S a.key price then trail S a free price
          else pure ()) (fun _ => Left S a seen it before) (fun _ => Left S a seen it before) from
        (hrest.conseq (fun _ hw => hw) (fun _ => hgone) (fun _ => hgone)) w hw
      refine Triple.bind (reconcilePending_turn price hitem) (fun waiting => ?_)
      cases waiting with
      | true => exact Triple.pure (fun w hw => hw)
      | false =>
          refine Triple.bind (considerRebuy_turn price) (fun ended => ?_)
          rintro w ⟨st, hst⟩
          refine Triple.ite (Triple.pure (fun w hw => hw.left)) ?_ w hst
          refine Triple.ite (Triple.pure (fun w hw => hw.left)) ?_
          refine Triple.bind (warmedUp_turn hread) (fun warm => ?_)
          rintro w ⟨st', hst', hwarm⟩
          cases warm with
          | false => exact hst'.left
          | true =>
              refine (trail_turn free hread (hwarm rfl)).weaken (fun _ w hw => ?_) w hst'
              obtain ⟨st'', hst''⟩ := hw
              exact hst''.left

/-- The price that the tick from `w` reads for the only asset. -/
def observed (S : Setup) (w : World) : Option ℚ :=
  match S.venue.beginTick w.calls, S.venue.load (w.calls + 1), S.venue.freeQty (w.calls + 2),
    S.venue.price (w.calls + 3) with
  | .ok true, .ok _, .ok _, .ok answer => answer.filter (fun p => 0 < p)
  | _, _, _, _ => none

theorem observed_pos {x : ℚ} (h : observed S w = some x) : 0 < x := by
  unfold observed at h
  split at h
  · exact of_decide_eq_true (Option.filter_eq_some_iff.mp h).2
  · cases h

theorem save_gone : Triple (Gone S a seen slot before) (save S)
    (fun _ => Gone S a seen slot before) (fun _ => Gone S a seen slot before) := by
  intro w hw
  have hcalled : Gone S a seen slot before { w with calls := w.calls + 1 } :=
    ⟨⟨hw.disk, hw.log⟩, hw.state⟩
  have hstored : Gone S a seen slot before ({ w with calls := w.calls + 1 } : World).stored :=
    ⟨⟨hw.state, hw.log⟩, hw.state⟩
  unfold save
  cases S.venue.save w.calls with
  | stored => exact hstored
  | failed => exact hcalled
  | raised e => exact hcalled
  | crashed replaced =>
      cases replaced with
      | true => exact hstored
      | false => exact hcalled

theorem Ended.called (h : Ended S a seen slot before w) :
    Ended S a seen slot before { w with calls := w.calls + 1 } := ⟨h.disk, h.log⟩

theorem Gone.called (h : Gone S a seen slot before w) :
    Gone S a seen slot before { w with calls := w.calls + 1 } := ⟨h.toEnded.called, h.state⟩

/-- What an error leaves, and a call does not change, holds after the handler. -/
theorem handled_closed {x : TrailM Unit} {P I : World → Prop}
    (hcalled : ∀ w, I w → I { w with calls := w.calls + 1 })
    (h : Triple P x (fun _ => I) (fun _ => I)) :
    Triple P (handled S x) (fun _ => I) (fun _ => I) := by
  refine Triple.tryCatch h (fun e => ?_)
  cases e with
  | raised e => exact ask_triple _ hcalled (fun _ => hcalled)
  | crash => exact Triple.throw (fun w hw => hw)

/-- A whole tick, whether errors end the turn or the tick. -/
theorem checkOnce_turn (hone : S.assets = [a]) {w₀ : World} (hreal : ∀ it, w₀.disk a.key = some it →
      ∀ q, it.pendingOrder = some q → ∀ t, q.terminalStatus = some t → t.Real) :
    Triple (· = w₀) (checkOnce S)
      (fun _ => Ended S a (observed S w₀) (w₀.disk a.key) w₀.log)
      (fun _ => Ended S a (observed S w₀) (w₀.disk a.key) w₀.log) := by
  set c := w₀.calls with hc
  set P : World → Prop := fun w => w.disk = w₀.disk ∧ w.log = w₀.log with hP
  -- a tick that ends before its item has changed nothing
  have hended : ∀ w, P w → Ended S a (observed S w₀) (w₀.disk a.key) w₀.log w := by
    rintro w ⟨hdisk, hlog⟩
    refine ⟨fun d hd => ⟨d, Or.inl (hdisk ▸ hd), Or.inl Quiet.refl⟩, [], hlog, fun _ he => ?_⟩
    cases he
  have hstart : ∀ w, w = w₀ → w.calls = c ∧ P w := by
    rintro w rfl
    exact ⟨rfl, rfl, rfl⟩
  refine Triple.bind ((ask_numbered (c := c) (P := P) _ (fun _ hw => hw)).conseq hstart
    (fun _ _ hw => hw) (fun _ => hended)) (fun begin => Triple.of_fact (fun hbegin => ?_))
  cases begin with
  | false => exact Triple.pure (fun w hw => hended w hw.2)
  | true =>
      have hload : Triple (fun w => w.calls = c + 1 ∧ P w) (load S)
          (fun _ w => (∃ u, S.venue.load (c + 1) = .ok u) ∧
            w.calls = c + 2 ∧ Opening a (w₀.disk a.key) w₀.log w) (fun _ => P) := by
        refine Triple.bind (ask_numbered _ (fun _ hw => hw)) (fun u w hw => ?_)
        exact ⟨⟨u, hw.1⟩, hw.2.1, congrFun hw.2.2.1 a.key, congrFun hw.2.2.1 a.key, hw.2.2.2⟩
      have hprocess : (∃ u, S.venue.load (c + 1) = .ok u) →
          Triple (fun w => w.calls = c + 2 ∧ Opening a (w₀.disk a.key) w₀.log w) (process S a)
            (fun _ => Gone S a (observed S w₀) (w₀.disk a.key) w₀.log)
            (fun _ => Gone S a (observed S w₀) (w₀.disk a.key) w₀.log) := by
        rintro ⟨u, hu⟩
        refine process_turn (fun free answer hfree hanswer => ?_) hreal
        unfold observed
        rw [hbegin, hu, hfree, hanswer]
      have hsave : Triple (Gone S a (observed S w₀) (w₀.disk a.key) w₀.log)
          (do let _ ← save S; pure ())
          (fun _ => Ended S a (observed S w₀) (w₀.disk a.key) w₀.log)
          (fun _ => Ended S a (observed S w₀) (w₀.disk a.key) w₀.log) := by
        refine Triple.bind (Q := fun _ => Gone S a (observed S w₀) (w₀.disk a.key) w₀.log) ?_ ?_
        · exact save_gone.conseq (fun _ hw => hw) (fun _ _ hw => hw) (fun _ _ hw => hw.toEnded)
        · exact fun _ => Triple.pure (fun _ hw => hw.toEnded)
      have hloaded := hload.conseq (fun _ hw => hw) (fun _ _ hw => hw) (fun _ => hended)
      -- isolated or not, an exception ends the item in the same state
      by_cases hisolated : S.settings.itemIsolation = true
      · rw [if_pos rfl, if_pos hisolated, hone]
        refine Triple.bind hloaded (fun _ => Triple.of_fact (fun hu => ?_))
        refine Triple.bind (Q := fun _ => Gone S a (observed S w₀) (w₀.disk a.key) w₀.log) ?_
          (fun _ => hsave)
        have hturn := handled_closed (S := S) (fun _ hw => hw.called) (hprocess hu)
        refine Triple.bind (hturn.conseq (fun _ hw => hw) (fun _ _ hw => hw)
          (fun _ _ hw => hw.toEnded)) (fun _ => Triple.pure (fun _ hw => hw))
      · rw [if_pos rfl, if_neg hisolated, hone]
        refine handled_closed (fun _ hw => hw.called) ?_
        refine Triple.bind hloaded (fun _ => Triple.of_fact (fun hu => ?_))
        refine Triple.bind (Q := fun _ => Gone S a (observed S w₀) (w₀.disk a.key) w₀.log) ?_
          (fun _ => hsave)
        refine Triple.bind ((hprocess hu).conseq (fun _ hw => hw) (fun _ _ hw => hw)
          (fun _ _ hw => hw.toEnded)) (fun _ => Triple.pure (fun _ hw => hw))

/-! ## Since a re-buy -/

/-- The fill that tick `n` adds to the file, with the item that it was booked on. -/
def fillBooked (S : Setup) (a : Asset) (n : Nat) : Option (Item × Fill) :=
  match (World.run S n).disk a.key, (World.run S (n + 1)).disk a.key with
  | some it, some st =>
      match st.applied with
      | fill :: earlier => if earlier = it.applied then some (it, fill) else none
      | [] => none
  | _, _ => none

/-- What tick `n` adds to the log. -/
def newEntries (S : Setup) (n : Nat) : List Entry :=
  (World.run S (n + 1)).log.take ((World.run S (n + 1)).log.length - (World.run S n).log.length)

/-- The highest price since a fill that tick `m` booked, at `later` ticks after it. -/
def highestSince (S : Setup) (fill : Fill) (m : Nat) : Nat → ℚ
  | 0 => fill.avg
  | later + 1 =>
      match observed S (World.run S (m + (later + 1))) with
      | some price => max price (highestSince S fill m later)
      | none => highestSince S fill m later

/-- The price at which trailing begins after a re-buy. -/
def activation (S : Setup) (fill : Fill) : ℚ :=
  if 0 < S.settings.minProfitPct then fill.avg * (1 + S.settings.minProfitPct / 100) else fill.avg

/-- Tick `m` books a re-buy, on an item whose peak is not above the activation price. -/
structure RebuyBooked (S : Setup) (a : Asset) (m : Nat) (it : Item) (fill : Fill) : Prop where
  booked : fillBooked S a m = some (it, fill)
  action : fill.action = .rebuy
  filled : 0 < fill.filled
  low : it.core.peak ≤ activation S fill

/-- What tick `m + later` books does not lift the peak over the highest price: a SELL filled no
higher, and a further re-buy found the peak no higher or below its own activation price. -/
def BookedSoundly (S : Setup) (a : Asset) (fill : Fill) (m later : Nat) : Prop :=
  match fillBooked S a (m + later) with
  | none => True
  | some (it, next) =>
      next.filled ≤ 0 ∨
        match next.action with
        | .sell => next.avg ≤ highestSince S fill m later
        | .rebuy => 0 < S.settings.minProfitPct →
            it.core.peak ≤ activation S next ∨ it.core.peak ≤ highestSince S fill m later

/-- The peak is below `high`, or trailing begins only above it. -/
def Core.Below (core : Core) (high : ℚ) : Prop :=
  core.peak ≤ high ∨ ∃ T, core.warmupAt = some T ∧ core.peak ≤ T

theorem Core.Below.mono {core : Core} {high high' : ℚ} (h : core.Below high) (hle : high ≤ high') :
    core.Below high' :=
  h.imp_left (fun hpeak => hpeak.trans hle)

theorem highestSince_step {fill : Fill} {m later : Nat} :
    highestSince S fill m later ≤ highestSince S fill m (later + 1) ∧
      ∀ x, observed S (World.run S (m + (later + 1))) = some x →
        x ≤ highestSince S fill m (later + 1) := by
  unfold highestSince
  cases observed S (World.run S (m + (later + 1))) with
  | none => exact ⟨le_of_eq (by cases later <;> rfl), fun x hx => by cases hx⟩
  | some price =>
      refine ⟨?_, fun x hx => ?_⟩
      · cases later <;> exact le_max_right _ _
      · cases hx
        exact le_max_left _ _

/-- A turn that books nothing keeps the peak below the prices it has seen. -/
theorem Quiet.below (h : Quiet S seen it st) (henabled : S.settings.enabled = true) {high : ℚ}
    (hit : it.core.Below high) (hseen : ∀ x, seen = some x → x ≤ high) : st.core.Below high := by
  rcases h.peak with hpeak | hpeak
  · rcases hit with hlow | ⟨T, hT, hlow⟩
    · exact Or.inl (hpeak ▸ hlow)
    · rcases h.warm henabled with hwarm | ⟨-, hreached⟩
      · exact Or.inr ⟨T, hwarm.trans hT, hpeak ▸ hlow⟩
      · -- the price of the turn is above the peak
        obtain ⟨x, hx, hTx⟩ := hreached T hT
        have hpeakx : it.core.peak ≤ x := hlow.trans hTx
        exact Or.inl (hpeak ▸ hpeakx.trans (hseen x hx))
  · exact Or.inl (hseen _ hpeak)

theorem Core.Below.finish {core : Core} {high : ℚ} (h : core.Below high) {next : Fill}
    (hnext : next.filled ≤ 0 ∨
      match next.action with
      | .sell => next.avg ≤ high
      | .rebuy => 0 < S.settings.minProfitPct →
          core.peak ≤ activation S next ∨ core.peak ≤ high) :
    (core.finish S.settings next).Below high := by
  unfold Core.finish
  by_cases hfilled : next.filled ≤ 0
  · rw [if_pos hfilled]
    exact h
  · rw [if_neg hfilled]
    have hsound := hnext.resolve_left hfilled
    cases haction : next.action with
    | sell =>
        rw [haction] at hsound
        exact Or.inl hsound
    | rebuy =>
        rw [haction] at hsound
        unfold activation at hsound
        by_cases hprofit : 0 < S.settings.minProfitPct
        · simp only [hprofit, if_true, true_implies] at hsound ⊢
          exact hsound.symm.imp_right (fun hlow => ⟨_, rfl, hlow⟩)
        · simp only [hprofit, if_false]
          exact h

/-! ## Runs -/

theorem run_ended (hone : S.assets = [a]) (n : Nat) :
    Ended S a (observed S (World.run S n)) ((World.run S n).disk a.key) (World.run S n).log
      (World.run S (n + 1)) := by
  have hinv := (run_inv S n).disk a.key
  have h := @checkOnce_turn S a hone (World.run S n)
    (fun it hit => (hinv.sound it hit).real) _ rfl
  show Ended _ _ _ _ _ (World.after (checkOnce S (World.run S n)))
  unfold World.after
  cases hrun : checkOnce S (World.run S n) with
  | ok x w =>
      rw [hrun] at h
      exact h
  | error e w =>
      rw [hrun] at h
      exact h

theorem newEntries_eq {n : Nat} {new : List Entry}
    (h : (World.run S (n + 1)).log = new ++ (World.run S n).log) : newEntries S n = new := by
  unfold newEntries
  rw [h, List.length_append, Nat.add_sub_cancel, List.take_left]

/-- What a tick adds to the item of the file is the fill that it books. -/
theorem fillBooked_of {n : Nat} {fill : Fill} (hit : (World.run S n).disk a.key = some it)
    (hst : (World.run S (n + 1)).disk a.key = some st)
    (hhistory : st.history = .finished fill :: it.history) :
    fillBooked S a n = some (it, fill) := by
  have happlied : st.applied = fill :: it.applied := by
    unfold Item.applied
    rw [hhistory]
    rfl
  unfold fillBooked
  rw [hit, hst]
  simp only [happlied, if_true]

theorem booked_fillBooked {n : Nat} {fill : Fill} (h : fillBooked S a n = some (it, fill))
    (hst : (World.run S (n + 1)).disk a.key = some st) :
    (World.run S n).disk a.key = some it ∧ st.applied = fill :: it.applied := by
  unfold fillBooked at h
  rw [hst] at h
  cases hslot : (World.run S n).disk a.key with
  | none =>
      rw [hslot] at h
      cases h
  | some it' =>
      rw [hslot] at h
      cases happlied : st.applied with
      | nil =>
          simp only [happlied] at h
          cases h
      | cons next earlier =>
          simp only [happlied] at h
          split at h
          · rename_i hearlier
            cases h
            exact ⟨rfl, congrArg (List.cons fill) hearlier⟩
          · cases h

/-- The file after tick `m + later`. -/
def Kept (S : Setup) (a : Asset) (fill : Fill) (m later : Nat) : Prop :=
  ∀ it, (World.run S (m + later + 1)).disk a.key = some it →
    it.core.Below (highestSince S fill m later)

theorem Kept.origin {fill : Fill} {m later : Nat} (h : Kept S a fill m later)
    (horigin : Origin (observed S (World.run S (m + (later + 1))))
      ((World.run S (m + (later + 1))).disk a.key) it) :
    it.core.Below (highestSince S fill m (later + 1)) := by
  rcases horigin with hit | ⟨-, -, -, hseen⟩
  · exact (h it hit).mono highestSince_step.1
  · exact Or.inl (highestSince_step.2 _ hseen)

/-- One tick. -/
theorem Kept.tick (hone : S.assets = [a]) (henabled : S.settings.enabled = true) {fill : Fill}
    {m later : Nat} (h : Kept S a fill m later) (hsound : BookedSoundly S a fill m (later + 1)) :
    Kept S a fill m (later + 1) := by
  intro d hd
  obtain ⟨it, horigin, hafter⟩ := (run_ended hone (m + (later + 1))).disk d hd
  have hit := h.origin horigin
  rcases hafter with hquiet | ⟨next, hbooked⟩
  · exact hquiet.below henabled hit highestSince_step.2
  · -- only an item of the file has a pending order
    rcases horigin with hslot | ⟨-, -, hidle, -⟩
    · unfold BookedSoundly at hsound
      rw [fillBooked_of hslot hd hbooked.history] at hsound
      rw [hbooked.core]
      exact hit.finish hsound
    · exact absurd hidle hbooked.pending

/-- After the re-buy was booked. -/
theorem RebuyBooked.kept (hone : S.assets = [a]) {m : Nat} {fill : Fill}
    (h : RebuyBooked S a m it fill) : Kept S a fill m 0 := by
  intro d hd
  obtain ⟨hslot, happlied⟩ := booked_fillBooked h.booked hd
  obtain ⟨it', horigin, hafter⟩ := (run_ended hone m).disk d hd
  have hsame : it' = it := by
    rcases horigin with hsome | ⟨hnone, -⟩
    · rw [hslot] at hsome
      exact (Option.some.inj hsome).symm
    · rw [hslot] at hnone
      cases hnone
  rw [hsame] at hafter
  rcases hafter with hquiet | ⟨next, hbooked⟩
  · -- a turn that books nothing adds no fill
    have hlonger := congrArg List.length (happlied.symm.trans hquiet.applied)
    rw [List.length_cons] at hlonger
    omega
  · have hnext : next = fill := by
      have hnew : d.applied = next :: it.applied := by
        unfold Item.applied
        rw [hbooked.history]
        rfl
      exact (List.cons.inj (hnew.symm.trans happlied)).1
    have hlow := h.low
    rw [hbooked.core, hnext]
    unfold Core.finish
    rw [if_neg (not_le.mpr h.filled), h.action]
    unfold activation at hlow
    by_cases hprofit : 0 < S.settings.minProfitPct
    · simp only [hprofit, if_true] at hlow ⊢
      exact Or.inr ⟨_, rfl, hlow⟩
    · simp only [hprofit, if_false] at hlow ⊢
      exact Or.inl hlow

/-- In a run whose ticks book soundly. -/
theorem kept_along (hone : S.assets = [a]) (henabled : S.settings.enabled = true) {fill : Fill}
    {m : Nat} (hstart : Kept S a fill m 0) (later : Nat)
    (hsound : ∀ k, 0 < k → k ≤ later → BookedSoundly S a fill m k) : Kept S a fill m later := by
  induction later with
  | zero => exact hstart
  | succ later ih =>
      have hbefore := ih (fun k hk hle => hsound k hk (Nat.le_succ_of_le hle))
      exact hbefore.tick hone henabled (hsound _ (Nat.succ_pos _) (le_refl _))

/-- **A SELL follows a drop.** After a re-buy that was booked on a low peak, as long as every tick
books soundly, a SELL is submitted only at a price the trail below the highest since the fill. -/
theorem sells_follow_a_drop (S : Setup) (a : Asset) (hone : S.assets = [a]) (m : Nat) (it : Item)
    (fill : Fill) (hrebuy : RebuyBooked S a m it fill) (later : Nat) (hlater : 0 < later)
    (hsound : ∀ k, 0 < k → k < later → BookedSoundly S a fill m k) (e : Entry)
    (he : e ∈ newEntries S (m + later)) (hsells : e.Sells a) :
    ∃ price, observed S (World.run S (m + later)) = some price ∧
      price ≤ highestSince S fill m later * (1 - a.trailPct / 100) := by
  obtain ⟨before, rfl⟩ : ∃ before, later = before + 1 := ⟨later - 1, by omega⟩
  obtain ⟨new, hnew, hjustified⟩ := (run_ended hone (m + (before + 1))).log
  have hsame := newEntries_eq hnew
  obtain ⟨origin, horigin, henabled, price, st, hprice, hquiet, hwarm, hfall⟩ :=
    hjustified e (hsame ▸ he) hsells
  have hkept := kept_along hone henabled (hrebuy.kept hone) before
    (fun k hk hle => hsound k hk (Nat.lt_succ_of_le hle))
  have hbelow := hquiet.below henabled (hkept.origin horigin) highestSince_step.2
  -- the warm-up is over, so the peak itself is below
  have hpeak : st.core.peak ≤ highestSince S fill m (before + 1) := by
    rcases hbelow with hlow | ⟨T, hT, -⟩
    · exact hlow
    · rw [hwarm] at hT
      cases hT
  refine ⟨price, hprice, ?_⟩
  unfold shouldSell at hfall
  simp only [Bool.and_eq_true, decide_eq_true_eq] at hfall
  obtain ⟨⟨hpositive, -⟩, hdrop⟩ := hfall
  have hpaid := observed_pos hprice
  have htrail : 0 < 1 - a.trailPct / 100 := by
    by_contra hneg
    have hzero := mul_nonpos_of_nonneg_of_nonpos (le_of_lt hpositive) (not_lt.mp hneg)
    exact absurd (hpaid.trans_le hdrop) (not_lt.mpr hzero)
  calc price ≤ st.core.peak * (1 - a.trailPct / 100) := hdrop
    _ ≤ highestSince S fill m (before + 1) * (1 - a.trailPct / 100) :=
        mul_le_mul_of_nonneg_right hpeak (le_of_lt htrail)

/-! ## Two runs -/

def bitcoin : Asset := ⟨"BTCUSDC", "BTC", "BTCUSDC", 10⟩

/-- Five coins are sold at 80 and bought back for `cost`. -/
def repurchase (price : Nat → ℚ) (cost : ℚ) (hcost : 0 ≤ cost) : Setup :=
  { market price true with
    venue :=
      { (market price true).venue with
        freeQty := fun n => .ok (if n < 15 then 10 else if n < 48 then 0 else 10)
        orderStatus := fun n => .ok (.ok (if n < 25 then fiveSold
          else ⟨.closed, 5, cost, 0, "", fiveSold_qty, hcost, Text.upper_empty⟩)) } }

/-- Bought back at 80; the price rises to 85 and falls to 70. -/
def fallen : Setup :=
  repurchase (fun n => if n < 5 then 100 else if n < 25 then 80 else if n < 30 then 60
    else if n < 55 then 85 else 70) 400 fiveSold.cost_nonneg

theorem fallen_rebuy : ∃ booked, fillBooked fallen bitcoin 5 = some booked ∧
    booked.2.action = .rebuy ∧ 0 < booked.2.filled ∧
      booked.1.core.peak ≤ activation fallen booked.2 ∧ (fillBooked fallen bitcoin 6).isNone ∧
        highestSince fallen booked.2 5 2 = 85 := by
  decide +kernel

theorem fallen_sells : ∃ e ∈ newEntries fallen 7, e.Sells bitcoin := by
  decide +kernel

/-- The coins bought back are sold at 70. -/
theorem fallen_sells_after_a_drop :
    ∃ price, observed fallen (World.run fallen 7) = some price ∧ price ≤ 85 * (1 - 10 / 100) := by
  obtain ⟨⟨it, fill⟩, hbooked, haction, hfilled, hlow, hquiet, hhighest⟩ := fallen_rebuy
  obtain ⟨e, he, hsells⟩ := fallen_sells
  have hsound : ∀ k, 0 < k → k < 2 → BookedSoundly fallen bitcoin fill 5 k := by
    intro k hk hlt
    have hone : k = 1 := by omega
    unfold BookedSoundly
    rw [hone, Option.isNone_iff_eq_none.mp hquiet]
    exact trivial
  have h := sells_follow_a_drop fallen bitcoin rfl 5 it fill ⟨hbooked, haction, hfilled, hlow⟩ 2
    (by decide) hsound e he hsells
  rw [hhighest] at h
  exact h

/-- Bought back at 64, where the price stays. -/
def unchanged : Setup :=
  repurchase (fun n => if n < 5 then 100 else if n < 25 then 80 else if n < 30 then 60 else 64) 320
    (by decide)

/-- The tick after the re-buy sells at the price of the re-buy. -/
theorem sells_at_unchanged_price : unchanged.assets = [bitcoin] ∧
    (∃ booked, fillBooked unchanged bitcoin 5 = some booked ∧ booked.2.action = .rebuy ∧
      0 < booked.2.filled ∧ booked.2.avg = 64 ∧ highestSince unchanged booked.2 5 1 = 64) ∧
    (∃ e ∈ newEntries unchanged 6, e.Sells bitcoin) ∧
    observed unchanged (World.run unchanged 6) = some 64 ∧
    ¬ (64 : ℚ) ≤ 64 * (1 - bitcoin.trailPct / 100) := by
  refine ⟨rfl, ?_⟩
  decide +kernel

end TradingFleet.Trailing
