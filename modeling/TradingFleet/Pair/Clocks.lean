import TradingFleet.Pair.Alike
import TradingFleet.Pair.Moves

set_option autoImplicit false

/-! # The same round on another clock

Moving all times of a coordinator by the same amount changes neither the calls it makes nor
what it reports, as long as no difference of two readings is rounded (`ExactClock`): the program on
the later clock is coupled with the program on the earlier one (`step_coupled`, `start_coupled`),
and so are whole runs (`run_coupled`).
-/

namespace TradingFleet.Pair

open TradingFleet.Hoare TradingFleet.Runs TradingFleet.Text
open TradingFleet.Rounding (double)

/-! ## Moving the clock -/

/-- The readings of a clock and of one that is ahead by `d` are doubles, and no difference of two of
them is rounded. The time `0` stands before the first round. -/
structure ExactClock (T : Set ℚ) (d : ℚ) : Prop where
  zero : 0 ∈ T
  reading : ∀ a ∈ T, double a = a
  ahead : ∀ a ∈ T, double (a + d) = a + d
  difference : ∀ a ∈ T, ∀ b ∈ T, double (a - b) = a - b

/-- Otherwise a restart at 10.4 moves a start at 2.3: a quote that has not lived 32 seconds at 34.3
has lived them after the restart. -/
example : Rounding.sub (343 / 10) (23 / 10) < 32 ∧
    32 ≤ Rounding.sub (343 / 10) (Rounding.sub (104 / 10) (Rounding.sub (104 / 10) (23 / 10))) := by
  decide +kernel

section Exact

variable {T : Set ℚ} {d a b : ℚ}

theorem ExactClock.sub (h : ExactClock T d) (ha : a ∈ T) (hb : b ∈ T) :
    Rounding.sub a b = a - b := by
  unfold Rounding.sub
  rw [h.reading a ha, h.reading b hb, h.difference a ha b hb]

theorem ExactClock.sub_ahead (h : ExactClock T d) (ha : a ∈ T) (hb : b ∈ T) :
    Rounding.sub (a + d) (b + d) = a - b := by
  unfold Rounding.sub
  rw [h.ahead a ha, h.ahead b hb, add_sub_add_right_eq_sub, h.difference a ha b hb]

/-- The start of the round from a later reading and the time in between. -/
theorem ExactClock.back (h : ExactClock T d) (ha : a ∈ T) (hb : b ∈ T) :
    Rounding.sub (a + d) (a - b) = b + d := by
  have hstart : a + d - (a - b) = b + d := by ring
  unfold Rounding.sub
  rw [h.ahead a ha, h.difference a ha b hb, hstart, h.ahead b hb]

theorem ExactClock.forth (h : ExactClock T d) (ha : a ∈ T) (hb : b ∈ T) :
    Rounding.add (b + d) (a - b) = a + d := by
  have hlater : b + d + (a - b) = a + d := by ring
  unfold Rounding.add
  rw [h.ahead b hb, h.difference a ha b hb, hlater, h.ahead a ha]

end Exact

/-- The times of the round are readings. -/
structure Coordinator.Within (T : Set ℚ) (c : Coordinator) : Prop where
  started : c.startedAt ∈ T
  filled : ∀ t, c.firstFillAt = some t → t ∈ T

/-- The same times. -/
def SameTimes (c c' : Coordinator) : Prop :=
  c'.startedAt = c.startedAt ∧ c'.firstFillAt = c.firstFillAt

theorem Coordinator.Within.same {T : Set ℚ} {c c' : Coordinator} (h : c.Within T)
    (hsame : SameTimes c c') : c'.Within T := by
  refine ⟨by rw [hsame.1]; exact h.started, fun t ht => h.filled t ?_⟩
  rw [← hsame.2]
  exact ht

/-- All times later by `d`. -/
def Coordinator.shift (d : ℚ) (c : Coordinator) : Coordinator :=
  { c with startedAt := c.startedAt + d, firstFillAt := c.firstFillAt.map (fun t => t + d) }

/-- The second coordinator is the first one moved by `d`, and the same calls were made. -/
structure Shifted (T : Set ℚ) (d : ℚ) (w w' : World) : Prop where
  coord : w'.coord = w.coord.shift d
  within : w.coord.Within T
  calls : w'.log.map Call.event = w.log.map Call.event

theorem Shifted.length {T : Set ℚ} {d : ℚ} {w w' : World} (h : Shifted T d w w') :
    w'.log.length = w.log.length := by
  have := congrArg List.length h.calls
  simpa using this

section Coupling

variable {T : Set ℚ} {d : ℚ} {α β : Type}

theorem coupled_coord {f g : Coordinator → PairM β}
    (h : ∀ c, c.Within T → Coupled (Shifted T d) (f c) (g (c.shift d))) :
    Coupled (Shifted T d) (coord >>= f) (coord >>= g) := by
  intro w w' hw
  show SameEnd _ (f w.coord w) (g w'.coord w')
  rw [hw.coord]
  exact h w.coord hw.within w w' hw

/-- What does not look at the times. -/
theorem coupled_timeless {f : Coordinator → PairM β} (hf : ∀ c, f (Coordinator.shift d c) = f c)
    (h : ∀ c, Coupled (Shifted T d) (f c) (f c)) :
    Coupled (Shifted T d) (coord >>= f) (coord >>= f) :=
  coupled_coord (fun c _ => by rw [hf c]; exact h c)

theorem coupled_change {f g : Coordinator → Coordinator}
    (h : ∀ c, c.Within T → g (Coordinator.shift d c) = (f c).shift d)
    (hwithin : ∀ c, c.Within T → (f c).Within T) :
    Coupled (Shifted T d) (update f) (update g) := by
  intro w w' hw
  refine .ok () ⟨?_, hwithin _ hw.within, hw.calls⟩
  show g w'.coord = (f w.coord).shift d
  rw [hw.coord, h _ hw.within]

theorem coupled_update {f g : Coordinator → Coordinator}
    (h : ∀ c, g (Coordinator.shift d c) = (f c).shift d) (htimes : ∀ c, SameTimes c (f c)) :
    Coupled (Shifted T d) (update f) (update g) :=
  coupled_change (fun c _ => h c) (fun c hc => hc.same (htimes c))

theorem coupled_ask {call : Nat → α} {event : α → Event} :
    Coupled (Shifted T d) (ask call event) (ask call event) := by
  intro w w' hw
  show SameEnd _ (EStateM.Result.ok (call w.log.length) _) (EStateM.Result.ok (call w'.log.length) _)
  rw [hw.length]
  refine .ok _ ⟨hw.coord, hw.within, ?_⟩
  show event _ :: w'.log.map Call.event = event _ :: w.log.map Call.event
  rw [hw.calls]

theorem coupled_mark {p : Point} : Coupled (Shifted T d) (mark p) (mark p) := by
  intro w w' hw
  refine .ok () ⟨hw.coord, hw.within, ?_⟩
  show Event.point p :: w'.log.map Call.event = Event.point p :: w.log.map Call.event
  rw [hw.calls]

theorem coupled_orRaise (x : Except String α) : Coupled (Shifted T d) (orRaise x) (orRaise x) := by
  cases x with
  | ok a => exact Coupled.pure a
  | error e => exact Coupled.throw e

theorem coupled_ite {p : Prop} [Decidable p] {x y x' y' : PairM α}
    (hx : Coupled (Shifted T d) x x') (hy : Coupled (Shifted T d) y y') :
    Coupled (Shifted T d) (if p then x else y) (if p then x' else y') := by
  split
  · exact hx
  · exact hy

theorem coupled_setReason (reason : String) :
    Coupled (Shifted T d) (setReason reason) (setReason reason) :=
  coupled_update (fun _ => rfl) (fun _ => ⟨rfl, rfl⟩)

theorem coupled_setPhase (phase : Phase) (reason : Option String) :
    Coupled (Shifted T d) (setPhase phase reason) (setPhase phase reason) :=
  coupled_update (fun _ => rfl) (fun _ => ⟨rfl, rfl⟩)

end Coupling

section Programs

variable (S : Setup) (T : Set ℚ) (d : ℚ)

theorem blind_shift : Blind (fun c c' => c' = c.shift d ∧ c.Within T) where
  shape := by
    rintro c c' ⟨rfl, -⟩
    exact ⟨_, _, _, rfl⟩
  holding := by
    rintro c c' ⟨rfl, hc⟩ tickets snapshots limitRevisions
    exact ⟨rfl, hc.same ⟨rfl, rfl⟩⟩
  phase := by
    rintro c c' ⟨rfl, hc⟩ phase
    exact ⟨rfl, hc.same ⟨rfl, rfl⟩⟩
  reason := by
    rintro c c' ⟨rfl, hc⟩ reason
    exact ⟨rfl, hc.same ⟨rfl, rfl⟩⟩

/-- What does not look at the times at all is coupled under any relation that keeps to them. -/
theorem shifted_of_alike {α : Type} {T : Set ℚ} {d : ℚ} {x y : PairM α}
    (h : Coupled (Alike (fun c c' => c' = c.shift d ∧ c.Within T)) x y) :
    Coupled (Shifted T d) x y := by
  refine Coupled.congr (fun w w' => ?_) h
  exact ⟨fun hw => ⟨hw.coord.1, hw.coord.2, hw.calls⟩,
    fun hw => ⟨⟨hw.coord, hw.within⟩, hw.calls⟩⟩

theorem refresh_coupled : Coupled (Shifted T d) (refresh S) (refresh S) :=
  shifted_of_alike (refresh_alike S (blind_shift T d))

theorem cancelAndReconcile_coupled (i : Nat) (orderId : String) :
    Coupled (Shifted T d) (cancelAndReconcile S i orderId) (cancelAndReconcile S i orderId) :=
  shifted_of_alike (cancelAndReconcile_alike S (blind_shift T d) i orderId)

theorem cancelEach_coupled (stops : Bool) (p : OrderTicket → Bool) :
    Coupled (Shifted T d) (cancelEach S stops p) (cancelEach S stops p) :=
  shifted_of_alike (cancelEach_alike S (blind_shift T d) stops p)

theorem cancelOptimistic_coupled (i : Nat) :
    Coupled (Shifted T d) (cancelOptimistic S i) (cancelOptimistic S i) := by
  refine coupled_timeless (fun _ => rfl) (fun c => ?_)
  split
  · exact Coupled.pure _
  · refine coupled_ite ?_ (Coupled.pure _)
    refine Coupled.bind coupled_ask (fun answer => Coupled.bind (coupled_orRaise answer) (fun ok => ?_))
    exact coupled_ite (coupled_update (fun _ => rfl) (fun _ => ⟨rfl, rfl⟩)) (Coupled.pure _)

theorem adopted_shift (c : Coordinator) (t : OrderTicket) :
    (c.shift d).adopted t = ((c.adopted t).1.shift d, (c.adopted t).2) := by
  unfold Coordinator.adopted
  rw [show (c.shift d).tickets = c.tickets from rfl]
  generalize c.tickets.findIdx? (fun known => known.orderId = t.orderId) = found
  cases found with
  | none => rfl
  | some i => rfl

theorem adoptLimit_shift (c : Coordinator) (i : Nat) (side : Side) (kind : String) :
    (c.shift d).adoptLimit i side kind = (c.adoptLimit i side kind).shift d := by
  unfold Coordinator.adoptLimit
  generalize intentRevision kind "limit" = revision
  cases revision with
  | none => rfl
  | some r => rfl

theorem adoptStop_shift (c : Coordinator) (i : Nat) (orderId kind : String) :
    (c.shift d).adoptStop i orderId kind = (c.adoptStop i orderId kind).shift d := by
  unfold Coordinator.adoptStop
  generalize intentRevision kind "hard_stop" = revision
  cases revision with
  | none => rfl
  | some r => rfl

theorem adopt_shift (c : Coordinator) (r : Recovered) :
    (c.shift d).adopt r = (c.adopt r).shift d := by
  unfold Coordinator.adopt
  rw [adopted_shift]
  generalize c.adopted r.ticket = p
  obtain ⟨c', i⟩ := p
  have hread : ((c'.shift d).setActive i (r.snapshot.status = .opened)).setSnapshot r.ticket.orderId
      r.snapshot = Coordinator.shift d
        ((c'.setActive i (r.snapshot.status = .opened)).setSnapshot r.ticket.orderId r.snapshot) :=
    rfl
  simp only [hread]
  rw [adoptLimit_shift, adoptStop_shift]
  rfl

theorem adoptAll_shift (items : List Recovered) (c : Coordinator) :
    items.foldl Coordinator.adopt (c.shift d) = (items.foldl Coordinator.adopt c).shift d := by
  induction items generalizing c with
  | nil => rfl
  | cons r rest ih =>
      show rest.foldl Coordinator.adopt ((c.shift d).adopt r) = _
      rw [adopt_shift, ih]
      rfl

theorem adopt_times (c : Coordinator) (r : Recovered) : SameTimes c (c.adopt r) := by
  have hadopted : SameTimes c (c.adopted r.ticket).1 := by
    unfold Coordinator.adopted
    split
    · exact ⟨rfl, rfl⟩
    · exact ⟨rfl, rfl⟩
  have hlimit : ∀ (k : Coordinator) (i : Nat) (side : Side) (kind : String),
      SameTimes k (k.adoptLimit i side kind) := by
    intro k i side kind
    unfold Coordinator.adoptLimit
    split
    · exact ⟨rfl, rfl⟩
    · exact ⟨rfl, rfl⟩
  unfold Coordinator.adopt Coordinator.adoptStop
  simp only
  split
  · exact ⟨(hlimit _ _ _ _).1.trans hadopted.1, (hlimit _ _ _ _).2.trans hadopted.2⟩
  · exact ⟨(hlimit _ _ _ _).1.trans hadopted.1, (hlimit _ _ _ _).2.trans hadopted.2⟩

theorem adoptAll_times (items : List Recovered) (c : Coordinator) :
    SameTimes c (items.foldl Coordinator.adopt c) := by
  induction items generalizing c with
  | nil => exact ⟨rfl, rfl⟩
  | cons r rest ih =>
      exact ⟨(ih (c.adopt r)).1.trans (adopt_times c r).1, (ih (c.adopt r)).2.trans (adopt_times c r).2⟩

theorem takeStop_times (c : Coordinator) (t : OrderTicket) : SameTimes c (c.takeStop t) := by
  unfold Coordinator.takeStop
  split
  · exact ⟨rfl, rfl⟩
  · exact ⟨rfl, rfl⟩

theorem recoveryReturns_coupled (ok : Bool) :
    Coupled (Shifted T d) (recoveryReturns ok) (recoveryReturns ok) :=
  Coupled.bind coupled_mark (fun _ => Coupled.pure _)

theorem recoverPersistedIntents_coupled :
    Coupled (Shifted T d) (recoverPersistedIntents S) (recoverPersistedIntents S) := by
  unfold recoverPersistedIntents
  split
  · exact recoveryReturns_coupled T d false
  · refine coupled_timeless (fun _ => rfl) (fun c => Coupled.bind coupled_ask (fun answer => ?_))
    split
    · exact recoveryReturns_coupled T d false
    · refine Coupled.bind (coupled_update (adoptAll_shift d _) (adoptAll_times _)) (fun _ => ?_)
      split
      · exact Coupled.bind coupled_ask (fun answer =>
          Coupled.bind (coupled_orRaise answer) (fun _ => recoveryReturns_coupled T d _))
      · exact Coupled.bind coupled_ask (fun _ => recoveryReturns_coupled T d _)

theorem placeFailureReason_coupled (side : Side) :
    Coupled (Shifted T d) (placeFailureReason S side) (placeFailureReason S side) := by
  unfold placeFailureReason
  split
  · exact Coupled.pure _
  · exact Coupled.bind coupled_ask (fun answer =>
      Coupled.bind (coupled_orRaise answer) (fun _ => Coupled.pure _))

theorem marketExitRefused_coupled (side : Side) :
    Coupled (Shifted T d) (marketExitRefused S side) (marketExitRefused S side) :=
  Coupled.bind coupled_ask (fun _ => coupled_ite (Coupled.pure _)
    (Coupled.bind (placeFailureReason_coupled S T d side) (fun _ => Coupled.pure _)))

theorem concludeFlat_coupled (phase : Phase) (reason : Option String) :
    Coupled (Shifted T d) (concludeFlat phase reason) (concludeFlat phase reason) :=
  shifted_of_alike (concludeFlat_alike (blind_shift T d) phase reason)

/-! ## Stopping -/

theorem takeStop_shift (c : Coordinator) (t : OrderTicket) :
    (c.shift d).takeStop t = (c.takeStop t).shift d := by
  unfold Coordinator.takeStop
  rw [show (c.shift d).knows t.orderId = c.knows t.orderId from rfl]
  split
  · rfl
  · rfl

theorem placeStop_coupled (side : Side) (netQty exitQty : ℚ) (reason : String)
    (permit : Option String) :
    Coupled (Shifted T d) (placeStop S side netQty exitQty reason permit)
      (placeStop S side netQty exitQty reason permit) := by
  refine coupled_timeless (fun _ => rfl) (fun c => Coupled.bind coupled_ask (fun answer => ?_))
  refine Coupled.bind (coupled_orRaise answer) (fun market => ?_)
  split
  · refine Coupled.bind (marketExitRefused_coupled S T d side) (fun pending => coupled_ite ?_ ?_)
    · exact Coupled.bind (coupled_setPhase _ _) (fun _ => Coupled.pure _)
    · exact Coupled.bind coupled_mark
        (fun _ => Coupled.bind (coupled_setReason _) (fun _ => Coupled.pure _))
  · rename_i ticket
    refine Coupled.bind (coupled_update (fun c => ?_) (fun c => takeStop_times c ticket))
      (fun _ => Coupled.pure _)
    rw [takeStop_shift]
    rfl

theorem replaceByStop_coupled (side : Side) (netQty : ℚ) (reason : String) (ticket : OrderTicket)
    (i : Nat) :
    Coupled (Shifted T d) (replaceByStop S side netQty reason ticket i)
      (replaceByStop S side netQty reason ticket i) := by
  refine coupled_timeless (fun _ => rfl) (fun c => Coupled.bind coupled_ask (fun answer => ?_))
  refine Coupled.bind (coupled_orRaise answer) (fun permit => ?_)
  refine Coupled.bind (cancelAndReconcile_coupled S T d i _) (fun failure => ?_)
  split
  · exact Coupled.bind (coupled_setReason _) (fun _ => Coupled.pure _)
  · exact Coupled.bind (coupled_setReason _) (fun _ => Coupled.pure _)
  · refine coupled_timeless (fun _ => rfl) (fun c' => coupled_ite ?_ (coupled_ite ?_ ?_))
    · exact Coupled.bind (concludeFlat_coupled T d _ _) (fun _ => Coupled.pure _)
    · exact Coupled.bind (coupled_setReason _) (fun _ => Coupled.pure _)
    · exact placeStop_coupled S T d _ _ _ _ _

theorem submitHardStop_coupled (exposure : Exposure) (netQty entryAvg current : ℚ) :
    Coupled (Shifted T d) (submitHardStop S exposure netQty entryAvg current)
      (submitHardStop S exposure netQty entryAvg current) := by
  refine coupled_timeless (fun _ => rfl) (fun c => coupled_ite (Coupled.pure _) ?_)
  refine Coupled.bind (coupled_orRaise _) (fun loss => Coupled.bind ?_ (fun permitted => ?_))
  · unfold marketExitPermitted
    split
    · exact Coupled.pure _
    · exact Coupled.bind coupled_ask (fun answer => coupled_orRaise answer)
  · refine coupled_ite ?_ (Coupled.bind (coupled_setReason _) (fun _ => Coupled.pure _))
    split
    · exact placeStop_coupled S T d _ _ _ _ _
    · exact replaceByStop_coupled S T d _ _ _ _ _

theorem retryTerminalHardStop_coupled (netQty : ℚ) :
    Coupled (Shifted T d) (retryTerminalHardStop S netQty) (retryTerminalHardStop S netQty) := by
  refine coupled_timeless (fun _ => rfl) (fun c => coupled_ite (Coupled.pure _)
    (coupled_ite (coupled_setPhase _ _) ?_))
  refine Coupled.bind ?_ (fun market => ?_)
  · refine Coupled.bind coupled_ask (fun answer => ?_)
    split
    · exact Coupled.pure _
    · refine Coupled.bind coupled_ask (fun market => ?_)
      split
      · exact Coupled.pure _
      · exact Coupled.pure _
  · split
    · exact Coupled.bind (coupled_update (fun _ => rfl) (fun _ => ⟨rfl, rfl⟩)) (fun _ =>
        Coupled.bind (marketExitRefused_coupled S T d _) (fun _ => coupled_setReason _))
    · rename_i ticket
      refine coupled_update (fun c' => ?_) (fun c' => takeStop_times
        { c' with hardStopRevision := c.hardStopRevision + 1 } ticket)
      have hstop := takeStop_shift d { c' with hardStopRevision := c.hardStopRevision + 1 } ticket
      exact congrArg (fun k : Coordinator => { k with
        phase := .stopping, reason := some (orElse c.hardStopReason (stopReason c)) }) hstop

theorem stepStopping_coupled (net : ℚ) :
    Coupled (Shifted T d) (stepStopping S net) (stepStopping S net) := by
  refine coupled_timeless (fun _ => rfl) (fun c => coupled_ite (concludeFlat_coupled T d _ _) ?_)
  split
  · exact coupled_ite (retryTerminalHardStop_coupled S T d net) (Coupled.pure _)
  · exact Coupled.pure _

theorem stepHardStopRecovery_coupled (net : ℚ) :
    Coupled (Shifted T d) (stepHardStopRecovery S net) (stepHardStopRecovery S net) := by
  refine coupled_timeless (fun _ => rfl) (fun c => coupled_ite (retryTerminalHardStop_coupled S T d net)
    (coupled_ite ?_ (Coupled.pure _)))
  refine Coupled.bind (recoverPersistedIntents_coupled S T d) (fun recovered => ?_)
  refine coupled_ite (coupled_timeless (fun _ => rfl) (fun c' => ?_)) (Coupled.pure _)
  refine coupled_ite (concludeFlat_coupled T d _ _) (coupled_ite (coupled_setReason _) ?_)
  exact Coupled.bind (coupled_update (fun _ => rfl) (fun _ => ⟨rfl, rfl⟩)) (fun _ => stepStopping_coupled S T d _)

/-! ## Exits -/

theorem ensureAnchoredExit_coupled (exposure : Exposure) (netQty entryAvg current : ℚ) :
    Coupled (Shifted T d) (ensureAnchoredExit S exposure netQty entryAvg current)
      (ensureAnchoredExit S exposure netQty entryAvg current) :=
  shifted_of_alike (ensureAnchoredExit_alike S (blind_shift T d) exposure netQty entryAvg current)

/-! ## Steps -/

theorem stepStartupRecovery_coupled :
    Coupled (Shifted T d) (stepStartupRecovery S) (stepStartupRecovery S) := by
  refine Coupled.bind ?_ (fun recovered => coupled_ite ?_ (Coupled.pure _))
  · exact coupled_timeless (fun _ => rfl) (fun _ =>
      coupled_ite (recoverPersistedIntents_coupled S T d) (Coupled.pure _))
  · refine Coupled.bind (cancelEach_coupled S T d _ _) (fun failure => ?_)
    split
    · exact Coupled.pure _
    · refine coupled_timeless (fun _ => rfl) (fun c => coupled_ite ?_ ?_)
      · exact Coupled.bind (coupled_update (fun _ => rfl) (fun _ => ⟨rfl, rfl⟩)) (fun _ => Coupled.pure _)
      · exact Coupled.bind (coupled_update (fun _ => rfl) (fun _ => ⟨rfl, rfl⟩)) (fun _ => Coupled.pure _)

theorem closeBalanced_coupled : Coupled (Shifted T d) (closeBalanced S) (closeBalanced S) :=
  shifted_of_alike (closeBalanced_alike S (blind_shift T d))

theorem exitExposure_coupled : Coupled (Shifted T d) (exitExposure S) (exitExposure S) := by
  refine coupled_timeless (fun _ => rfl) (fun c => Coupled.bind coupled_ask (fun answer => ?_))
  refine Coupled.bind (coupled_orRaise answer) (fun price => coupled_ite (coupled_setReason _) ?_)
  refine Coupled.bind (submitHardStop_coupled S T d _ _ _ _) (fun stopped => ?_)
  refine coupled_ite (Coupled.pure _) (coupled_timeless (fun _ => rfl) (fun c' => ?_))
  refine coupled_ite (Coupled.pure _) ?_
  exact Coupled.bind (ensureAnchoredExit_coupled S T d _ _ _ _) (fun _ => Coupled.pure _)

theorem manageExposure_coupled : Coupled (Shifted T d) (manageExposure S) (manageExposure S) := by
  refine Coupled.bind (coupled_update (fun _ => rfl) (fun _ => ⟨rfl, rfl⟩))
    (fun _ => coupled_timeless (fun _ => rfl) (fun c => ?_))
  refine Coupled.bind (cancelEach_coupled S T d _ _) (fun failure => ?_)
  split
  · exact coupled_setReason _
  · exact coupled_setReason _
  · refine Coupled.bind (refresh_coupled S T d) (fun _ => coupled_timeless (fun _ => rfl) (fun c' => ?_))
    refine coupled_ite ?_ (exitExposure_coupled S T d)
    refine Coupled.bind (coupled_update (fun _ => rfl) (fun _ => ⟨rfl, rfl⟩)) (fun _ => ?_)
    exact Coupled.bind (closeBalanced_coupled S T d)
      (fun _ => coupled_ite (Coupled.pure _) (exitExposure_coupled S T d))

theorem stepFilled_coupled : Coupled (Shifted T d) (stepFilled S) (stepFilled S) := by
  refine coupled_timeless (fun _ => rfl) (fun c => coupled_ite ?_ (manageExposure_coupled S T d))
  exact Coupled.bind (closeBalanced_coupled S T d)
    (fun _ => coupled_ite (Coupled.pure _) (manageExposure_coupled S T d))

section Exact

variable {T} {d} (hexact : ExactClock T d)

include hexact

/-- The quote lives as long on both clocks. -/
theorem stepUnfilled_coupled {x y : PairM Unit} (hxy : Coupled (Shifted T d) x y) {now : ℚ}
    (hnow : now ∈ T) : Coupled (Shifted T d) (stepUnfilled S x now) (stepUnfilled S y (now + d)) := by
  refine coupled_coord (fun c hc => ?_)
  have hage : Rounding.sub (now + d) (c.shift d).startedAt = Rounding.sub now c.startedAt :=
    (hexact.sub_ahead hnow hc.started).trans (hexact.sub hnow hc.started).symm
  rw [hage]
  refine coupled_ite ?_ (Coupled.pure _)
  refine Coupled.bind (Coupled.foldlM (fun _ i => cancelOptimistic_coupled S T d i) () _) (fun _ => ?_)
  refine Coupled.bind (refresh_coupled S T d) (fun _ => coupled_coord (fun c' _ => ?_))
  exact coupled_ite hxy (coupled_ite (coupled_setReason _) (coupled_setPhase _ _))

theorem recordFirstFill_shift {c : Coordinator} (hc : c.Within T) (policy : PairPolicy) {now : ℚ}
    (hnow : now ∈ T) (buyQty sellQty : ℚ) :
    (c.shift d).recordFirstFill policy (now + d) buyQty sellQty =
      (c.recordFirstFill policy now buyQty sellQty).shift d := by
  have hage : Rounding.sub (now + d) (c.shift d).startedAt = Rounding.sub now c.startedAt :=
    (hexact.sub_ahead hnow hc.started).trans (hexact.sub hnow hc.started).symm
  have hsome : (c.shift d).firstFillAt.isSome = c.firstFillAt.isSome := Option.isSome_map
  unfold Coordinator.recordFirstFill
  rw [hage, hsome]
  split
  · rfl
  · rfl

omit hexact in
theorem recordFirstFill_within {c : Coordinator} (hc : c.Within T) (policy : PairPolicy) {now : ℚ}
    (hnow : now ∈ T) (buyQty sellQty : ℚ) :
    (c.recordFirstFill policy now buyQty sellQty).Within T := by
  unfold Coordinator.recordFirstFill
  split
  · exact hc
  · refine ⟨hc.started, fun t ht => ?_⟩
    cases ht
    exact hnow

theorem stepBody_coupled {now : ℚ} (hnow : now ∈ T) (fuel : Nat) :
    Coupled (Shifted T d) (stepBody S now fuel) (stepBody S (now + d) fuel) := by
  induction fuel with
  | zero => exact Coupled.throw _
  | succ fuel ih =>
      have hquotes : Coupled (Shifted T d) (stepQuotes S (stepBody S now fuel) now)
          (stepQuotes S (stepBody S (now + d) fuel) (now + d)) :=
        coupled_coord (fun c _ => coupled_ite (stepFilled_coupled S T d)
          (stepUnfilled_coupled S hexact ih hnow))
      refine coupled_coord (fun c _ => ?_)
      refine coupled_ite (Coupled.pure _) (coupled_ite (Coupled.throw _) ?_)
      refine Coupled.bind (refresh_coupled S T d) (fun _ => ?_)
      refine Coupled.bind (coupled_change (fun c hc => recordFirstFill_shift hexact hc _ hnow _ _)
        (fun c hc => recordFirstFill_within hc _ hnow _ _)) (fun _ => ?_)
      refine coupled_coord (fun c' _ => ?_)
      rw [show (c'.shift d).phase = c'.phase from rfl]
      split
      · exact Coupled.bind (stepStartupRecovery_coupled S T d)
          (fun _ => coupled_ite hquotes (Coupled.pure _))
      · exact stepHardStopRecovery_coupled S T d _
      · exact stepStopping_coupled S T d _
      · exact hquotes

theorem outcome_shift {c : Coordinator} (hc : c.Within T) : (c.shift d).outcome = c.outcome := by
  have hlatency : (c.shift d).firstFillAt.map (fun t => Rounding.sub t (c.shift d).startedAt) =
      c.firstFillAt.map (fun t => Rounding.sub t c.startedAt) := by
    cases hfill : c.firstFillAt with
    | none =>
        unfold Coordinator.shift
        rw [hfill]
        rfl
    | some t =>
        have ht := hc.filled t hfill
        have hage : Rounding.sub (t + d) (c.startedAt + d) = Rounding.sub t c.startedAt :=
          (hexact.sub_ahead ht hc.started).trans (hexact.sub ht hc.started).symm
        unfold Coordinator.shift
        rw [hfill]
        exact congrArg some hage
  unfold Coordinator.outcome
  rw [hlatency]
  rfl

theorem step_coupled {now : ℚ} (hnow : now ∈ T) (fuel : Nat) :
    Coupled (Shifted T d) (step S now fuel) (step S (now + d) fuel) := by
  refine Coupled.bind (stepBody_coupled S hexact hnow fuel) (fun _ => coupled_coord (fun c hc => ?_))
  rw [outcome_shift hexact hc]
  exact Coupled.pure _

end Exact

/-! ## Starting -/

theorem legRecoveryPending_coupled (raised : Bool) (reason : String) :
    Coupled (Shifted T d) (legRecoveryPending S raised reason) (legRecoveryPending S raised reason) := by
  unfold legRecoveryPending
  exact coupled_ite (Coupled.pure _) coupled_ask

theorem firstLegFailed_coupled (side : Side) (raised : Bool) :
    Coupled (Shifted T d) (firstLegFailed S side raised) (firstLegFailed S side raised) := by
  refine Coupled.bind (placeFailureReason_coupled S T d side) (fun reason => ?_)
  refine Coupled.bind (legRecoveryPending_coupled S T d raised reason) (fun pending => ?_)
  exact coupled_ite (coupled_setPhase _ _) (coupled_setPhase _ _)

theorem secondLegFailed_coupled (side : Side) (raised : Bool) (firstId : String) :
    Coupled (Shifted T d) (secondLegFailed S side raised firstId)
      (secondLegFailed S side raised firstId) := by
  refine Coupled.bind (placeFailureReason_coupled S T d side) (fun reason => ?_)
  refine Coupled.bind (cancelAndReconcile_coupled S T d 0 firstId) (fun failure => ?_)
  refine Coupled.bind (legRecoveryPending_coupled S T d raised reason) (fun pending => ?_)
  split
  · exact Coupled.bind coupled_mark (fun _ => coupled_setPhase _ _)
  · refine coupled_ite (coupled_setPhase _ _) (coupled_timeless (fun _ => rfl) (fun c => ?_))
    exact coupled_ite (coupled_setPhase _ _) (coupled_setPhase _ _)

theorem placeLegs_coupled (prices : ℚ × ℚ) :
    Coupled (Shifted T d) (placeLegs S prices) (placeLegs S prices) := by
  have hplace : ∀ side price, Coupled (Shifted T d) (placeEntry S side price)
      (placeEntry S side price) := fun side price =>
    coupled_timeless (fun _ => rfl) (fun _ => coupled_ask)
  refine coupled_timeless (fun _ => rfl) (fun c => Coupled.bind (hplace _ _) (fun first => ?_))
  split
  · refine Coupled.bind (coupled_update (fun _ => rfl) (fun _ => ⟨rfl, rfl⟩)) (fun _ => ?_)
    refine Coupled.bind (hplace _ _) (fun second => ?_)
    split
    · exact Coupled.bind (coupled_update (fun _ => rfl) (fun _ => ⟨rfl, rfl⟩)) (fun _ => coupled_update (fun _ => rfl) (fun _ => ⟨rfl, rfl⟩))
    · exact secondLegFailed_coupled S T d _ _ _
    · exact secondLegFailed_coupled S T d _ _ _
  · exact firstLegFailed_coupled S T d _ _
  · exact firstLegFailed_coupled S T d _ _

theorem start_coupled {T : Set ℚ} {d : ℚ} (hexact : ExactClock T d) (mid : Option ℚ)
    (pairId : String) {clock : ℚ} (hclock : clock ∈ T) :
    Coupled (Shifted T d) (start S mid pairId clock) (start S mid pairId (clock + d)) := by
  refine coupled_coord (fun c _ => coupled_ite (Coupled.throw _) ?_)
  refine Coupled.bind ?_ (fun mid => Coupled.bind (coupled_orRaise _) (fun prices => ?_))
  · unfold startMid
    split
    · exact Coupled.pure _
    · exact Coupled.bind coupled_ask (fun answer =>
        Coupled.bind (coupled_orRaise answer) (fun _ => Coupled.pure _))
  · refine Coupled.bind (coupled_change (fun _ _ => rfl) (fun _ _ => ⟨hclock, nofun⟩)) (fun _ => ?_)
    refine Coupled.bind (placeLegs_coupled S T d prices) (fun _ => coupled_coord (fun c hc => ?_))
    rw [outcome_shift hexact hc]
    exact Coupled.pure _

end Programs

/-! ## Runs on two clocks -/

theorem ExactClock.home {T : Set ℚ} {d : ℚ} (h : ExactClock T d) : ExactClock T 0 where
  zero := h.zero
  reading := h.reading
  ahead := fun a ha => by rw [add_zero, h.reading a ha]
  difference := h.difference

/-- The age of a round, clamped twice at its start. -/
theorem ExactClock.age {T : Set ℚ} {d a b : ℚ} (h : ExactClock T d) (ha : a ∈ T) (hb : b ∈ T)
    (hle : b ≤ a) : max 0 (max 0 (Rounding.sub (a + d) (b + d))) = a - b := by
  rw [h.sub_ahead ha hb, max_eq_right (le_max_left _ _), max_eq_right (sub_nonneg.mpr hle)]

/-- The clamped time of the first fill, back on the clock. -/
theorem ExactClock.refill {T : Set ℚ} {d a b : ℚ} (h : ExactClock T d) (ha : a ∈ T) (hb : b ∈ T) :
    Rounding.add (b + d) (max 0 (max 0 (Rounding.sub a b))) = max a b + d := by
  rw [h.sub ha hb, max_eq_right (le_max_left _ _)]
  rcases le_total b a with hle | hle
  · rw [max_eq_right (sub_nonneg.mpr hle), h.forth ha hb, max_eq_left hle]
  · have hzero : Rounding.add (b + d) 0 = b + d := by
      have hsame := h.forth hb hb
      rwa [sub_self] at hsame
    rw [max_eq_left (sub_nonpos.mpr hle), hzero, max_eq_right hle]

/-- What a checkpoint gives back on an exact clock. -/
def Coordinator.regained (c : Coordinator) : Coordinator :=
  { c with
    firstFillAt := c.firstFillAt.map (fun t => max t c.startedAt)
    tickets := markStop c.foundStop (c.tickets.map OrderTicket.unmark)
    stopTicket := c.foundStop.bind (fun i =>
      ((c.tickets.map OrderTicket.unmark)[i]?).map OrderTicket.orderId) }

section Restoring

variable {T : Set ℚ} {d clock : ℚ} {c : Coordinator}

theorem Coordinator.Within.regained (h : c.Within T) : c.regained.Within T := by
  refine ⟨h.started, fun t ht => ?_⟩
  obtain ⟨u, hu, rfl⟩ := Option.map_eq_some_iff.mp ht
  rcases max_choice u c.startedAt with hmax | hmax
  · rw [hmax]
    exact h.filled u hu
  · rw [hmax]
    exact h.started

/-- Written on one clock and read back on the one that is ahead. -/
theorem restored_ahead (h : ExactClock T d) (hc : c.Within T) (hclock : clock ∈ T)
    (hle : c.startedAt ≤ clock) : c.restored clock (clock + d) = c.regained.shift d := by
  have hage : max 0 (max 0 (Rounding.sub clock c.startedAt)) = clock - c.startedAt := by
    have hhome := h.home.age hclock hc.started hle
    rwa [add_zero, add_zero] at hhome
  have hfill : c.firstFillAt.map (fun t => Rounding.add (c.startedAt + d)
      (max 0 (max 0 (Rounding.sub t c.startedAt)))) =
      (c.firstFillAt.map (fun t => max t c.startedAt)).map (fun t => t + d) := by
    cases hfirst : c.firstFillAt with
    | none => rfl
    | some t => exact congrArg some (h.refill (hc.filled t hfirst) hc.started)
  unfold Coordinator.restored Coordinator.regained Coordinator.shift
  rw [hage, h.back hclock hc.started, hfill]

/-- Written and read back on the clock that is ahead. -/
theorem restored_shift (h : ExactClock T d) (hc : c.Within T) (hclock : clock ∈ T)
    (hle : c.startedAt ≤ clock) :
    (c.shift d).restored (clock + d) (clock + d) = c.regained.shift d := by
  have hfill : (c.firstFillAt.map (fun t => t + d)).map (fun t =>
      Rounding.add (c.startedAt + d) (max 0 (max 0 (Rounding.sub t (c.startedAt + d))))) =
      (c.firstFillAt.map (fun t => max t c.startedAt)).map (fun t => t + d) := by
    cases hfirst : c.firstFillAt with
    | none => rfl
    | some t =>
        have ht := hc.filled t hfirst
        have hsame : Rounding.sub (t + d) (c.startedAt + d) = Rounding.sub t c.startedAt :=
          (h.sub_ahead ht hc.started).trans (h.sub ht hc.started).symm
        refine congrArg some ?_
        show Rounding.add (c.startedAt + d)
          (max 0 (max 0 (Rounding.sub (t + d) (c.startedAt + d)))) = max t c.startedAt + d
        rw [hsame]
        exact h.refill ht hc.started
  unfold Coordinator.restored Coordinator.regained Coordinator.shift
  rw [h.age hclock hc.started hle, h.back hclock hc.started, hfill]
  rfl

theorem restored_home (h : ExactClock T d) (hc : c.Within T) (hclock : clock ∈ T)
    (hle : c.startedAt ≤ clock) : c.restored clock clock = c.regained := by
  have hsame := restored_ahead h.home hc hclock hle
  have hshift : c.regained.shift 0 = c.regained := by
    unfold Coordinator.shift
    simp
  rwa [add_zero, hshift] at hsame

end Restoring

/-- The times of an action are readings, and none lies before the start of the round. -/
def World.InTime (T : Set ℚ) (w : World) : Action → Prop
  | .start _ _ clock => clock ∈ T
  | .step now _ => now ∈ T ∧ w.coord.startedAt ≤ now
  | .restart clock => clock ∈ T ∧ w.coord.startedAt ≤ clock

/-- The same action on a clock that is ahead by `d`. -/
def Action.shift (d : ℚ) : Action → Action
  | .start mid pairId clock => .start mid pairId (clock + d)
  | .step now fuel => .step (now + d) fuel
  | .restart clock => .restart (clock + d)

def resultOf {α : Type} : EStateM.Result String World α → Except String α
  | .ok a _ => .ok a
  | .error e _ => .error e

/-- What an action reports to the owner of the coordinator. -/
def World.report (S : Setup) (w : World) : Action → Option (Except String Coordinator.Outcome)
  | .start mid pairId clock => some (resultOf (start S mid pairId clock w))
  | .step now fuel => some (resultOf (step S now fuel w))
  | .restart _ => none

def World.reports (S : Setup) : World → List Action → List (Option (Except String Coordinator.Outcome))
  | _, [] => []
  | w, a :: rest => w.report S a :: (w.after S a).reports S rest

theorem sameEnd_result {α : Type} {R : World → World → Prop} {x y : EStateM.Result String World α}
    (h : SameEnd R x y) : resultOf y = resultOf x ∧ R (finalWorld x) (finalWorld y) := by
  cases h with
  | ok a hR => exact ⟨rfl, hR⟩
  | error e hR => exact ⟨rfl, hR⟩

/-- An action on both clocks: the same report, and the coordinators are moved against each other
as before. -/
theorem after_coupled (S : Setup) {T : Set ℚ} {d : ℚ} (hexact : ExactClock T d) {w w' : World}
    (h : Shifted T d w w') {a : Action} (htime : w.InTime T a) :
    w'.report S (a.shift d) = w.report S a ∧ Shifted T d (w.after S a) (w'.after S (a.shift d)) := by
  cases a with
  | start mid pairId clock =>
      obtain ⟨hres, hR⟩ := sameEnd_result (start_coupled S hexact mid pairId htime w w' h)
      exact ⟨congrArg some hres, hR⟩
  | step now fuel =>
      obtain ⟨hres, hR⟩ := sameEnd_result (step_coupled S hexact htime.1 fuel w w' h)
      exact ⟨congrArg some hres, hR⟩
  | restart clock =>
      refine ⟨rfl, ?_⟩
      show Shifted T d (w.restarted clock) (w'.restarted (clock + d))
      rw [w.restarted_eq, w'.restarted_eq, h.coord,
        restored_shift hexact h.within htime.1 htime.2,
        restored_home hexact h.within htime.1 htime.2]
      exact ⟨rfl, h.within.regained, h.calls⟩

theorem run_coupled (S : Setup) {T : Set ℚ} {d : ℚ} (hexact : ExactClock T d)
    (actions : List Action) {w w' : World} (h : Shifted T d w w')
    (htimes : Along (World.after S) (World.InTime T) w actions) :
    w'.reports S (actions.map (Action.shift d)) = w.reports S actions ∧
      Shifted T d (w.run S actions) (w'.run S (actions.map (Action.shift d))) := by
  induction actions generalizing w w' with
  | nil => exact ⟨rfl, h⟩
  | cons a rest ih =>
      obtain ⟨hreport, hnext⟩ := after_coupled S hexact h htimes.1
      obtain ⟨hreports, hend⟩ := ih hnext htimes.2
      refine ⟨?_, hend⟩
      show w'.report S (a.shift d) :: (w'.after S (a.shift d)).reports S _ = _
      rw [hreport, hreports]
      rfl

end TradingFleet.Pair
