import TradingFleet.Trading212.Ticks

set_option autoImplicit false

/-! # Trading 212: no live order is forgotten

An intent is tracked while it is the pending submit or the intent of a tracked order. From the call
that hands it to the venue on, it stays tracked in memory and on disk until the log shows why it is
given up. Four branches give up what is tracked without a status: closing a cycle, the reset after
"nothing is owned", a growth that no BUY explains, and a portfolio that moved in the direction of
the pending submit. `Entry.forgets` is the condition on the state in which such a branch is taken.
-/

namespace TradingFleet.Trading212

open TradingFleet.Text hiding orElse
open TradingFleet.Lifecycle TradingFleet.Hoare
open TradingFleet.Keyed (updateFirst mem_replaced replaced_mem replaced_keeps)

/-! ## Runs -/

theorem live_restarted {w : World} (h : w.Live) : w.restarted.Live := ⟨h.2, h.2⟩

/-- What the moves and a restart keep, every live run keeps. -/
theorem Reachable.invariant {S : Setup} (hlive : S.dryRun = false) (hids : VenueIds S)
    {I : World → Prop} (hinit : I World.initial) (hmove : ∀ w w', Move S w w' → I w → I w')
    (hrestart : ∀ w, I w → I w.restarted) {w : World} (hw : Reachable S w) : I w := by
  have hact : ∀ (w : World) (action : Action), w.Live ∧ I w →
      (w.act S action).Live ∧ I (w.act S action) := by
    intro w action hw
    have hwalk : ∀ {w'}, Walks S w w' → w'.Live ∧ I w' := fun h =>
      h.invariant (I := fun v => v.Live ∧ I v) (fun _ _ m hv => ⟨m.live hv.1, hmove _ _ m hv.2⟩) hw
    cases action with
    | restart => exact ⟨live_restarted hw.1, hrestart w hw.2⟩
    | tick price =>
        have htick := tick_walks hlive hw.1 hids price w rfl
        show (World.after (tick S price w)).Live ∧ I (World.after (tick S price w))
        cases hresult : tick S price w with
        | ok a w' =>
            rw [hresult] at htick
            exact hwalk htick
        | error stop w' =>
            rw [hresult] at htick
            cases stop with
            | raised e => exact hwalk htick
            | crash => exact ⟨live_restarted (hwalk htick).1, hrestart w' (hwalk htick).2⟩
  have hrun : ∀ (actions : List Action) (w : World), w.Live ∧ I w →
      (w.run S actions).Live ∧ I (w.run S actions) := by
    intro actions
    induction actions with
    | nil => exact fun w hw => hw
    | cons action rest ih => exact fun w hw => ih (w.act S action) (hact w action hw)
  obtain ⟨actions, rfl⟩ := hw
  exact (hrun actions World.initial ⟨⟨fun o ho => (by cases ho), fun o ho => (by cases ho)⟩,
    hinit⟩).2

/-! ## Tracked intents -/

def State.tracks (s : State) (intent : String) : Bool :=
  s.pendingSubmit.any (fun p => p.intentId = intent) ||
    s.orders.any (fun o => o.intentId = some intent)

theorem tracks_iff {s : State} {intent : String} : s.tracks intent = true ↔
    (∃ p, s.pendingSubmit = some p ∧ p.intentId = intent) ∨
      ∃ o ∈ s.orders, o.intentId = some intent := by
  unfold State.tracks
  rw [Bool.or_eq_true, Option.any_eq_true, List.any_eq_true]
  simp only [decide_eq_true_eq]

namespace Entry

/-- The venue was asked, an order was adopted, or a tick began with the intent in memory and on
disk. -/
def enters (e : Entry) (intent : String) : Bool :=
  match e.event with
  | .submit p _ => p.intentId = intent
  | .adopted p _ => p.intentId = intent
  | .tick saved => e.before.tracks intent && saved.tracks intent
  | _ => false

/-- A terminal status of an order with this intent, an explicit refusal, or no active order in two
snapshots. -/
def ends (e : Entry) (intent : String) : Bool :=
  match e.event with
  | .orderStatus o (.ok status) => status.status.terminal &&
      e.before.orders.any (fun x => x.id = o.id && x.intentId = some intent)
  | .submit p outcome => p.intentId = intent && outcome.state = .refused
  | .absent p => p.intentId = intent
  | _ => false

/-- The portfolio moved in the direction of the pending submit. -/
def fills (e : Entry) (intent : String) : Bool :=
  match e.event with
  | .filled p => p.intentId = intent
  | _ => false

/-- A cycle was closed, nothing is owned, or the position grew without an explanation, while the
intent was tracked where these look. -/
def drops (e : Entry) (intent : String) : Bool :=
  match e.event with
  | .closed => e.before.tracks intent
  | .ownedZero => e.before.orders.any (fun o => o.intentId = some intent)
  | .unexplained => e.before.pendingSubmit.any (fun p => p.intentId = intent)
  | _ => false

def releases (e : Entry) (intent : String) : Bool :=
  e.ends intent || e.fills intent || e.drops intent

/-- A branch that gives up orders or the pending submit without a status is taken, and there are
some. -/
def forgets (e : Entry) : Bool :=
  match e.event with
  | .closed => e.before.pendingSubmit.isSome || !e.before.orders.isEmpty
  | .ownedZero => !e.before.orders.isEmpty
  | .unexplained => e.before.pendingSubmit.isSome
  | .filled _ => true
  | _ => false

end Entry

/-- In memory and on disk. -/
def World.holds (w : World) (intent : String) : Prop :=
  w.s.tracks intent = true ∧ w.saved.tracks intent = true

theorem entering_of_enters {e : Entry} {intent : String} (h : e.enters intent = true) :
    e.event.entering = true := by
  obtain ⟨before, event⟩ := e
  cases event <;> first | rfl | cases h

/-! ## On disk before the venue is asked -/

/-- While the last write succeeded, the pending submit is on disk; what became an order was. -/
structure OnDisk (w : World) : Prop where
  pending : w.writeFailed = false → ∀ p, w.s.pendingSubmit = some p →
    w.saved.tracks p.intentId = true
  orders : ∀ o ∈ w.s.orders, ∀ intent, o.intentId = some intent → w.saved.tracks intent = true

/-- After a write everything is on disk. -/
theorem onDisk_written {w : World} (h : w.saved = w.s) : OnDisk w := by
  refine ⟨fun _ p hp => ?_, fun o ho intent hintent => ?_⟩
  · rw [h, tracks_iff]
    exact Or.inl ⟨p, hp, rfl⟩
  · rw [h, tracks_iff]
    exact Or.inr ⟨o, ho, hintent⟩

/-- Less in memory, and the same on disk. -/
theorem OnDisk.mono {w w' : World} (h : OnDisk w) (hsaved : w'.saved = w.saved)
    (hwrite : w'.writeFailed = false → w.writeFailed = false)
    (hpending : ∀ p', w'.s.pendingSubmit = some p' → ∃ p, w.s.pendingSubmit = some p ∧
      p.intentId = p'.intentId)
    (horders : ∀ o' ∈ w'.s.orders, ∃ o ∈ w.s.orders, o.intentId = o'.intentId) : OnDisk w' := by
  refine ⟨fun hok p' hp' => ?_, fun o' ho' intent hintent => ?_⟩
  · obtain ⟨p, hp, hsame⟩ := hpending p' hp'
    rw [hsaved, ← hsame]
    exact h.pending (hwrite hok) p hp
  · obtain ⟨o, ho, hsame⟩ := horders o' ho'
    rw [hsaved]
    exact h.orders o ho intent (hsame.trans hintent)

theorem Move.onDisk {S : Setup} {w w' : World} (hmove : Move S w w') (h : OnDisk w) :
    OnDisk w' := by
  have hpending : ∀ p', w.s.pendingSubmit = some p' → ∃ p, w.s.pendingSubmit = some p ∧
      p.intentId = p'.intentId := fun p hp => ⟨p, hp, rfl⟩
  have horders : ∀ o' ∈ w.s.orders, ∃ o ∈ w.s.orders, o.intentId = o'.intentId :=
    fun o ho => ⟨o, ho, rfl⟩
  have hnone : ∀ p' : Pending, (none : Option Pending) = some p' →
      ∃ p, w.s.pendingSubmit = some p ∧ p.intentId = p'.intentId := fun p' hp' => by cases hp'
  cases hmove with
  | @note s' hsame =>
      simp only [SameTracking, Prod.mk.injEq] at hsame
      refine h.mono rfl (fun hok => hok) (fun p' hp' => hpending p' ?_) (fun o' ho' => horders o' ?_)
      · rw [← hsame.2.1]
        exact hp'
      · rw [← hsame.1]
        exact ho'
  | saved => exact onDisk_written rfl
  | pended _ _ => exact onDisk_written rfl
  | pendFailed hfree _ =>
      refine ⟨fun hok => (by cases hok), h.orders⟩
  | @missed p n hp =>
      refine h.mono rfl (fun hok => hok) (fun p' hp' => ⟨p, hp, ?_⟩) horders
      rw [← Option.some.inj hp']
  | @adopted p orderId hp hok hid =>
      refine ⟨fun _ p' hp' => (by cases hp'), fun o ho intent hintent => ?_⟩
      rcases List.mem_append.mp ho with ho | ho
      · exact h.orders o ho intent hintent
      · -- the intent was on disk as the pending submit
        rw [List.mem_singleton.mp ho] at hintent
        rw [← Option.some.inj hintent]
        exact h.pending hok p hp
  | marked hmarked =>
      refine h.mono rfl (fun hok => hok) hpending (fun b hb => ?_)
      rcases mem_replaced hb with hb | ⟨rfl, ho⟩
      · exact horders b hb
      · exact ⟨_, ho, hmarked.intentId.symm⟩
  | swept _ _ _ _ =>
      exact h.mono rfl (fun hok => hok) hpending (fun o ho => horders o (List.mem_of_mem_erase ho))
  | closed _ => exact h.mono rfl (fun hok => hok) hnone (fun o ho => by cases ho)
  | ownedZero _ => exact h.mono rfl (fun hok => hok) hpending (fun o ho => by cases ho)
  | refused _ _ _ => exact h.mono rfl (fun hok => hok) hnone horders
  | absent _ => exact h.mono rfl (fun hok => hok) hnone horders
  | filled _ => exact h.mono rfl (fun hok => hok) hnone horders
  | unexplained => exact h.mono rfl (fun hok => hok) hnone horders
  | saveFailed => exact h.mono rfl (fun hok => by cases hok) hpending horders
  | called _ _ => exact h.mono rfl (fun hok => hok) hpending horders
  | began => exact h.mono rfl (fun hok => hok) hpending horders
  | logged _ _ => exact h.mono rfl (fun hok => hok) hpending horders
  | submitted _ _ _ => exact h.mono rfl (fun hok => hok) hpending horders
  | protecting => exact h.mono rfl (fun hok => hok) hpending horders
  | recovered => exact h.mono rfl (fun hok => hok) hpending horders
  | rebuy _ => exact h.mono rfl (fun hok => hok) hpending horders

/-! ## Tracked until released -/

/-- What entered the log is tracked, or was released since. -/
def Remembers (w : World) : Prop :=
  ∀ newer e older intent, w.log = newer ++ e :: older → e.enters intent = true →
    w.holds intent ∨ ∃ a ∈ newer ++ [e], a.releases intent = true

/-- A change that logs nothing. -/
theorem Remembers.same {w w' : World} (h : Remembers w) (hlog : w'.log = w.log)
    (hkeep : ∀ intent, w.holds intent → w'.holds intent) : Remembers w' := by
  intro newer e older intent hsplit henters
  rw [hlog] at hsplit
  rcases h newer e older intent hsplit henters with hholds | hreleased
  · exact Or.inl (hkeep intent hholds)
  · exact Or.inr hreleased

/-- A change that logs one entry. -/
theorem Remembers.push {w w' : World} {a : Entry} (h : Remembers w) (hlog : w'.log = a :: w.log)
    (hkeep : ∀ intent, w.holds intent → w'.holds intent ∨ a.releases intent = true)
    (hnew : ∀ intent, a.enters intent = true → w'.holds intent ∨ a.releases intent = true) :
    Remembers w' := by
  intro newer e older intent hsplit henters
  rw [hlog] at hsplit
  cases newer with
  | nil =>
      injection hsplit with hsame
      subst hsame
      rcases hnew intent henters with hholds | hreleased
      · exact Or.inl hholds
      · exact Or.inr ⟨a, List.mem_singleton_self a, hreleased⟩
  | cons b newer =>
      injection hsplit with hsame hrest
      subst hsame
      rcases h newer e older intent hrest henters with hholds | ⟨b, hb, hreleased⟩
      · rcases hkeep intent hholds with hholds | hreleased
        · exact Or.inl hholds
        · exact Or.inr ⟨a, List.mem_cons_self, hreleased⟩
      · exact Or.inr ⟨b, List.mem_cons_of_mem _ hb, hreleased⟩

/-- An entry below which something entered is not younger than one above which nothing did. -/
theorem mem_of_splits {newer older after older' : List Entry} {a e : Entry}
    (hsplit : newer ++ a :: older = after ++ e :: older') (ha : a.event.entering = true)
    (hafter : ∀ x ∈ after, x.event.entering = false) : e ∈ newer ++ [a] := by
  rcases List.append_eq_append_iff.mp hsplit with ⟨between, hnew, hrest⟩ | ⟨between, hnew, hrest⟩
  · cases between with
    | nil =>
        injection hrest with hsame
        rw [← hsame]
        simp
    | cons b between =>
        -- then what entered would be among the entries above
        injection hrest with hsame
        have hmem : a ∈ after := by
          rw [hnew, hsame]
          simp
        rw [hafter a hmem] at ha
        cases ha
  · cases between with
    | nil =>
        injection hrest with hsame
        rw [hsame]
        simp
    | cons b between =>
        injection hrest with hsame
        rw [hnew, hsame]
        simp

theorem tracks_mono {s s' : State} {intent : String} (h : s.tracks intent = true)
    (hpending : s'.pendingSubmit = s.pendingSubmit)
    (horders : ∀ o ∈ s.orders, ∃ o' ∈ s'.orders, o'.intentId = o.intentId) :
    s'.tracks intent = true := by
  rw [tracks_iff] at h ⊢
  rcases h with ⟨p, hp, hintent⟩ | ⟨o, ho, hintent⟩
  · exact Or.inl ⟨p, hpending.trans hp, hintent⟩
  · obtain ⟨o', ho', hsame⟩ := horders o ho
    exact Or.inr ⟨o', ho', hsame.trans hintent⟩

/-- Without its pending submit a state tracks all other intents. -/
theorem tracks_cleared {s : State} {p : Pending} {intent : String} (h : s.tracks intent = true)
    (hp : s.pendingSubmit = some p) :
    ({ s with pendingSubmit := none } : State).tracks intent = true ∨ p.intentId = intent := by
  rw [tracks_iff] at h ⊢
  rcases h with ⟨p', hp', hintent⟩ | horder
  · rw [hp] at hp'
    rw [Option.some.inj hp']
    exact Or.inr hintent
  · exact Or.inl (Or.inr horder)

/-- An order takes over the intent of the pending submit. -/
theorem tracks_adopting {s : State} {p : Pending} {intent : String} (orderId : String)
    (h : s.tracks intent = true ∨ p.intentId = intent) (hp : s.pendingSubmit = some p) :
    ({ s with orders := s.orders ++ [p.order orderId], pendingSubmit := none } : State).tracks
      intent = true := by
  have hnew : p.order orderId ∈ s.orders ++ [p.order orderId] := by simp
  rw [tracks_iff]
  rw [tracks_iff] at h
  rcases h with (⟨p', hp', hintent⟩ | ⟨o, ho, hintent⟩) | hintent
  · rw [hp] at hp'
    refine Or.inr ⟨_, hnew, ?_⟩
    rw [← hintent, ← Option.some.inj hp']
    rfl
  · exact Or.inr ⟨o, List.mem_append_left _ ho, hintent⟩
  · exact Or.inr ⟨_, hnew, congrArg some hintent⟩

/-- Removing `o` can only untrack the intent of `o`. -/
theorem tracks_removed {s : State} {o : Order} {intent : String} (h : s.tracks intent = true) :
    (s.removeOrder o).tracks intent = true ∨ o.intentId = some intent := by
  rw [tracks_iff] at h ⊢
  rcases h with hpending | ⟨o', ho', hintent⟩
  · exact Or.inl (Or.inl hpending)
  · by_cases hsame : o' = o
    · rw [← hsame]
      exact Or.inr hintent
    · exact Or.inl (Or.inr ⟨o', (List.mem_erase_of_ne hsame).mpr ho', hintent⟩)

theorem ends_of_settles {e : Entry} {o : Order} {intent : String} (h : e.Settles o)
    (hintent : o.intentId = some intent) : e.ends intent = true := by
  obtain ⟨o', status, hevent, hterminal, hid, x, hx, hxid, hxintent⟩ := h
  unfold Entry.ends
  rw [hevent]
  dsimp only
  rw [hterminal, Bool.true_and, List.any_eq_true]
  refine ⟨x, hx, ?_⟩
  simp [hxid, hid, hxintent, hintent]

theorem releases_of_drops {e : Entry} {intent : String} (h : e.drops intent = true) :
    e.releases intent = true := by
  unfold Entry.releases
  rw [h, Bool.or_true]

theorem Move.remembers {S : Setup} {w w' : World} (hmove : Move S w w') (hdisk : OnDisk w)
    (h : Remembers w) : Remembers w' := by
  have hnone : ∀ {a : Entry}, a.event.entering = false → ∀ intent, a.enters intent = true →
      w'.holds intent ∨ a.releases intent = true := by
    intro a ha intent henters
    rw [entering_of_enters henters] at ha
    cases ha
  -- a pending submit that is given up, with a reason
  have hcleared : ∀ {p : Pending} {a : Entry} {intent : String}, w.s.pendingSubmit = some p →
      (p.intentId = intent → a.releases intent = true) → w.holds intent →
      (({ w.s with pendingSubmit := none } : State).tracks intent = true ∧
        w.saved.tracks intent = true) ∨ a.releases intent = true := by
    intro p a intent hp hreleases hholds
    rcases tracks_cleared hholds.1 hp with htracks | hintent
    · exact Or.inl ⟨htracks, hholds.2⟩
    · exact Or.inr (hreleases hintent)
  cases hmove with
  | @note s' hsame =>
      simp only [SameTracking, Prod.mk.injEq] at hsame
      refine h.same rfl (fun intent hholds => ⟨tracks_mono hholds.1 hsame.2.1 ?_, hholds.2⟩)
      intro o ho
      exact ⟨o, by rw [hsame.1]; exact ho, rfl⟩
  | saved => exact h.same rfl (fun intent hholds => ⟨hholds.1, hholds.1⟩)
  | pended hfree _ =>
      have hkeep : ∀ {p : Pending} {intent}, w.s.tracks intent = true →
          ({ w.s with pendingSubmit := some p } : State).tracks intent = true := by
        intro p intent htracks
        rw [tracks_iff, hfree] at htracks
        rcases htracks with ⟨p', hp', -⟩ | horder
        · cases hp'
        · exact tracks_iff.mpr (Or.inr horder)
      exact h.same rfl (fun intent hholds => ⟨hkeep hholds.1, hkeep hholds.1⟩)
  | pendFailed hfree _ =>
      refine h.same rfl (fun intent hholds => ⟨?_, hholds.2⟩)
      have htracks := hholds.1
      rw [tracks_iff, hfree] at htracks
      rcases htracks with ⟨p', hp', -⟩ | horder
      · cases hp'
      · exact tracks_iff.mpr (Or.inr horder)
  | began =>
      refine h.push rfl (fun intent hholds => Or.inl hholds) (fun intent henters => Or.inl ?_)
      unfold Entry.enters at henters
      rw [Bool.and_eq_true] at henters
      exact henters
  | logged e hquiet =>
      exact h.push rfl (fun intent hholds => Or.inl hholds) (hnone (Event.entering_of_quiet hquiet))
  | @submitted p outcome hp hok _ =>
      refine h.push rfl (fun intent hholds => Or.inl hholds) (fun intent henters => Or.inl ?_)
      have hintent : p.intentId = intent := of_decide_eq_true henters
      rw [← hintent]
      exact ⟨tracks_iff.mpr (Or.inl ⟨p, hp, rfl⟩), hdisk.pending hok p hp⟩
  | @refused p outcome hp _ hrefused =>
      have hreleases : ∀ intent, p.intentId = intent →
          Entry.releases ⟨w.s, .submit p outcome⟩ intent = true := by
        intro intent hintent
        simp [Entry.releases, Entry.ends, hintent, hrefused]
      refine h.push rfl (fun intent hholds => hcleared hp (hreleases intent) hholds)
        (fun intent henters => Or.inr (hreleases intent (of_decide_eq_true henters)))
  | @missed p n hp =>
      refine h.same rfl (fun intent hholds => ⟨?_, hholds.2⟩)
      have htracks := hholds.1
      rw [tracks_iff, hp] at htracks
      rcases htracks with ⟨p', hp', hintent⟩ | horder
      · cases hp'
        exact tracks_iff.mpr (Or.inl ⟨_, rfl, hintent⟩)
      · exact tracks_iff.mpr (Or.inr horder)
  | @adopted p orderId hp hok hid =>
      refine h.push rfl (fun intent hholds => Or.inl ⟨tracks_adopting orderId (Or.inl hholds.1) hp,
        hholds.2⟩) (fun intent henters => Or.inl ?_)
      have hintent : p.intentId = intent := of_decide_eq_true henters
      refine ⟨tracks_adopting orderId (Or.inr hintent) hp, ?_⟩
      rw [← hintent]
      exact hdisk.pending hok p hp
  | @absent p hp =>
      refine h.push rfl (fun intent hholds => hcleared hp (fun hintent => ?_) hholds) (hnone rfl)
      simp [Entry.releases, Entry.ends, hintent]
  | @filled p hp =>
      refine h.push rfl (fun intent hholds => hcleared hp (fun hintent => ?_) hholds) (hnone rfl)
      simp [Entry.releases, Entry.fills, hintent]
  | @marked o o' hmarked =>
      refine h.same rfl (fun intent hholds => ⟨tracks_mono hholds.1 rfl ?_, hholds.2⟩)
      intro b hb
      by_cases hsame : b = o
      · rw [hsame] at hb ⊢
        exact ⟨_, replaced_mem hb, hmarked.intentId⟩
      · exact ⟨b, replaced_keeps hb hsame, rfl⟩
  | @swept o after older e ho hlog hafter hsettles =>
      intro newer a older' intent hsplit henters
      rcases h newer a older' intent hsplit henters with hholds | hreleased
      · rcases tracks_removed (o := o) hholds.1 with htracks | hintent
        · exact Or.inl ⟨htracks, hholds.2⟩
        · -- the status was reported after the intent entered
          refine Or.inr ⟨e, mem_of_splits (hsplit.symm.trans hlog) (entering_of_enters henters)
            hafter, ?_⟩
          simp [Entry.releases, ends_of_settles hsettles hintent]
      · exact Or.inr hreleased
  | closed _ =>
      exact h.push rfl (fun _ hholds => Or.inr (releases_of_drops hholds.1)) (hnone rfl)
  | ownedZero t =>
      refine h.push rfl (fun intent hholds => ?_) (hnone rfl)
      rcases tracks_iff.mp hholds.1 with hpending | ⟨o, ho, hintent⟩
      · exact Or.inl ⟨tracks_iff.mpr (Or.inl hpending), hholds.2⟩
      · exact Or.inr (releases_of_drops (List.any_eq_true.mpr ⟨o, ho, decide_eq_true hintent⟩))
  | unexplained =>
      refine h.push rfl (fun intent hholds => ?_) (hnone rfl)
      rcases tracks_iff.mp hholds.1 with ⟨p, hp, hintent⟩ | horder
      · refine Or.inr (releases_of_drops ?_)
        show w.s.pendingSubmit.any _ = true
        rw [hp]
        exact decide_eq_true hintent
      · exact Or.inl ⟨tracks_iff.mpr (Or.inr horder), hholds.2⟩
  | called _ _ => exact h.same rfl (fun _ hholds => hholds)
  | saveFailed => exact h.same rfl (fun _ hholds => hholds)
  | protecting => exact h.same rfl (fun _ hholds => hholds)
  | recovered => exact h.same rfl (fun _ hholds => hholds)
  | rebuy _ => exact h.same rfl (fun _ hholds => hholds)

/-- A restart goes back to what is on disk. -/
theorem remembers_restarted {w : World} (h : Remembers w) : Remembers w.restarted :=
  h.push rfl (fun _ hholds => Or.inl ⟨hholds.2, hholds.2⟩) (fun _ henters => by cases henters)

/-- An intent that entered is tracked, or the log shows since then what gave it up. -/
theorem tracked_until_released {S : Setup} (hlive : S.dryRun = false) (hids : VenueIds S)
    {w : World} (hw : Reachable S w) : Remembers w := by
  have hinv : OnDisk w ∧ Remembers w := by
    refine hw.invariant hlive hids (I := fun w => OnDisk w ∧ Remembers w) ?_ ?_ ?_
    · refine ⟨onDisk_written rfl, fun newer e older intent hsplit _ => ?_⟩
      exact absurd (congrArg List.length hsplit) (by simp [World.initial])
    · exact fun w w' hmove h => ⟨hmove.onDisk h.1, hmove.remembers h.1 h.2⟩
    · exact fun w h => ⟨onDisk_written rfl, remembers_restarted h.2⟩
  exact hinv.2

theorem forgets_of_fills {a : Entry} {intent : String} (h : a.fills intent = true) :
    a.forgets = true := by
  obtain ⟨before, event⟩ := a
  cases event with
  | filled p => rfl
  | tick saved => cases h
  | submit p outcome => cases h
  | orderStatus o answer => cases h
  | cancelOrder o answer => cases h
  | adopted p orderId => cases h
  | absent p => cases h
  | unexplained => cases h
  | closed => cases h
  | ownedZero => cases h
  | restarted => cases h

theorem forgets_of_drops {a : Entry} {intent : String} (h : a.drops intent = true) :
    a.forgets = true := by
  obtain ⟨before, event⟩ := a
  have horders : ∀ {o : Order}, o ∈ before.orders → (!before.orders.isEmpty) = true := by
    intro o ho
    rw [Bool.not_eq_true', List.isEmpty_eq_false_iff]
    exact List.ne_nil_of_mem ho
  cases event with
  | closed =>
      show (before.pendingSubmit.isSome || !before.orders.isEmpty) = true
      rcases tracks_iff.mp h with ⟨p, hp, -⟩ | ⟨o, ho, -⟩
      · rw [hp]
        rfl
      · rw [horders ho, Bool.or_true]
  | ownedZero =>
      obtain ⟨o, ho, -⟩ := List.any_eq_true.mp h
      exact horders ho
  | unexplained =>
      obtain ⟨p, hp, -⟩ := (Option.any_eq_true _ _).mp h
      show before.pendingSubmit.isSome = true
      rw [hp]
      rfl
  | filled p => rfl
  | tick saved => cases h
  | submit p outcome => cases h
  | orderStatus o answer => cases h
  | cancelOrder o answer => cases h
  | adopted p orderId => cases h
  | absent p => cases h
  | restarted => cases h

/-- Without such a branch only the end of an order releases it. -/
theorem ends_of_releases {a : Entry} {intent : String} (hkept : a.forgets = false)
    (h : a.releases intent = true) : a.ends intent = true := by
  unfold Entry.releases at h
  rcases Bool.or_eq_true_iff.mp h with hreason | hdrops
  · rcases Bool.or_eq_true_iff.mp hreason with hends | hfills
    · exact hends
    · rw [forgets_of_fills hfills] at hkept
      cases hkept
  · rw [forgets_of_drops hdrops] at hkept
    cases hkept

/-- **No live order is forgotten** while no such branch is taken: what was handed to the venue stays
tracked, in memory and on disk, until the venue ends it. -/
theorem tracked_until_ended {S : Setup} (hlive : S.dryRun = false) (hids : VenueIds S)
    {w : World} (hw : Reachable S w) {newer older : List Entry} {e : Entry} {intent : String}
    (hlog : w.log = newer ++ e :: older) (henters : e.enters intent = true)
    (hkept : ∀ a ∈ newer, a.forgets = false) :
    w.holds intent ∨ ∃ a ∈ newer ++ [e], a.ends intent = true := by
  have hkeeps : e.forgets = false := by
    obtain ⟨before, event⟩ := e
    cases event <;> first | rfl | cases henters
  rcases tracked_until_released hlive hids hw newer e older intent hlog henters with
    hholds | ⟨a, ha, hreleases⟩
  · exact Or.inl hholds
  · refine Or.inr ⟨a, ha, ends_of_releases ?_ hreleases⟩
    rcases List.mem_append.mp ha with ha | ha
    · exact hkept a ha
    · rw [List.mem_singleton.mp ha]
      exact hkeeps

/-! ## A cycle closes while a BUY is open -/

/-- A share is bought at 100, its take-profit `O-15` fills, and a BUY `O-23` that was placed at 94
stays active. -/
def openBuy : Setup where
  params := { entryAmount := 100, dcaAmount := 100, dcaDropPct := 5, takeprofitPct := 2,
              maxBudget := 1000, maxDcaBuys := 3, orderTtlMin := 60, stopLossPct := 0 }
  ticker := "ACME"
  fxToUsd := 1
  dryRun := false
  venue :=
    { save := fun _ => .stored
      submit := fun n => .ok (.ok (.outcome
        { state := .accepted, orderId := some ("O-" ++ toString n) }))
      orderStatus := fun _ => .ok (.ok boughtOne)
      cancelOrder := fun _ => .ok (.ok ())
      portfolio := fun n => .ok (some (if 8 ≤ n ∧ n < 26 then [⟨"ACME", 1, 100⟩] else []))
      activeOrders := fun n => .ok (some
        (if n < 18 then []
        else if n < 26 then [⟨some "O-15", "ACME", some .sell, some 1, none⟩]
        else [⟨some "O-23", "ACME", some .buy, some 1, none⟩]))
      trendSlope := fun _ => .ok none
      time := fun _ => .ok 0
      uuid := fun n => "intent-" ++ toString n }

theorem openBuy_ids : VenueIds openBuy where
  submit := by
    intro n answer id hanswer hid
    cases hanswer
    cases hid
    exact fun hpaper => by simp [Paper, startsWith] at hpaper
  active := by
    intro n orders horders a ha id hid
    cases horders
    split at ha
    · cases ha
    · split at ha
      · rw [List.mem_singleton.mp ha] at hid
        cases hid
        decide
      · rw [List.mem_singleton.mp ha] at hid
        cases hid
        decide

theorem split_at {l : List Entry} {n : Nat} (h : n < l.length) :
    l = l.take n ++ l.get ⟨n, h⟩ :: l.drop (n + 1) := by
  conv_lhs => rw [← List.take_append_drop n l, List.drop_eq_getElem_cons h]
  rfl

/-- The price stays at 100 until the take-profit fills: nothing is tracked when the cycle closes. -/
def soldOut : World :=
  World.initial.run openBuy [.tick 100, .tick 100, .tick 100, .tick 100, .tick 103]

theorem soldOut_kept : ∃ h : 8 < soldOut.log.length,
    (soldOut.log.get ⟨8, h⟩).enters "intent-13" = true ∧
    soldOut.s.cycle = 2 ∧ ∀ a ∈ soldOut.log.take 8, a.forgets = false := by
  decide +kernel

theorem soldOut_accounted : ∃ h : 8 < soldOut.log.length, soldOut.holds "intent-13" ∨
    ∃ a ∈ soldOut.log.take 8 ++ [soldOut.log.get ⟨8, h⟩], a.ends "intent-13" = true := by
  obtain ⟨h, henters, -, hkept⟩ := soldOut_kept
  exact ⟨h, tracked_until_ended rfl openBuy_ids ⟨_, rfl⟩ (split_at h) henters hkept⟩

/-- The price falls to 94 first, and the BUY placed there is active when the cycle closes. -/
def closedOver : World :=
  World.initial.run openBuy [.tick 100, .tick 100, .tick 94, .tick 103]

theorem closedOver_reachable : Reachable openBuy closedOver := ⟨_, rfl⟩

theorem closedOver_forgets : ∃ h : 6 < closedOver.log.length,
    (closedOver.log.get ⟨6, h⟩).enters "intent-21" = true ∧
    closedOver.s.tracks "intent-21" = false ∧
    ∀ a ∈ closedOver.log.take 6 ++ [closedOver.log.get ⟨6, h⟩], a.ends "intent-21" = false := by
  decide +kernel

/-- The new cycle no longer knows the open BUY, and no status of it was ever seen. -/
theorem cycle_forgets_buy : ¬ ∀ {S : Setup}, S.dryRun = false → VenueIds S →
    ∀ {w : World}, Reachable S w → ∀ {newer older : List Entry} {e : Entry} {intent : String},
      w.log = newer ++ e :: older → e.enters intent = true →
      w.holds intent ∨ ∃ a ∈ newer ++ [e], a.ends intent = true := by
  intro hclaim
  obtain ⟨h, henters, huntracked, hends⟩ := closedOver_forgets
  rcases hclaim rfl openBuy_ids closedOver_reachable (split_at h) henters with
    hholds | ⟨a, ha, hended⟩
  · rw [hholds.1] at huntracked
    cases huntracked
  · rw [hends a ha] at hended
    cases hended

end TradingFleet.Trading212
