import TradingFleet.Pair.Rules

set_option autoImplicit false

/-! # Programs that do not look at the times and the reason

Reading, cancelling and the anchored exit look at neither the times of a round nor the reason of
an earlier tick. For any relation between coordinators that differ in nothing else (`Blind`), two
runs from related coordinators make the same calls and end alike.
-/

namespace TradingFleet.Pair

open TradingFleet.Hoare

/-- The coordinators are related, and the same calls were made. -/
structure Alike (R : Coordinator → Coordinator → Prop) (w w' : World) : Prop where
  coord : R w.coord w'.coord
  calls : w'.log.map Call.event = w.log.map Call.event

/-- Other times and another reason. -/
def Coordinator.dressed (c : Coordinator) (startedAt : ℚ) (firstFillAt : Option ℚ)
    (reason : Option String) : Coordinator :=
  { c with startedAt := startedAt, firstFillAt := firstFillAt, reason := reason }

/-- A coordinator with other orders. -/
def Coordinator.holding (c : Coordinator) (tickets : List OrderTicket)
    (snapshots : String → Option OrderSnapshot) (limitRevisions : Side → Revision) : Coordinator :=
  { c with tickets := tickets, snapshots := snapshots, limitRevisions := limitRevisions }

/-- Related coordinators differ in their times and their reason at most, and stay related when
both are given the same orders, phase or reason. -/
structure Blind (R : Coordinator → Coordinator → Prop) : Prop where
  shape : ∀ {c c'}, R c c' → ∃ startedAt firstFillAt reason,
    c' = c.dressed startedAt firstFillAt reason
  holding : ∀ {c c'}, R c c' → ∀ tickets snapshots limitRevisions,
    R (c.holding tickets snapshots limitRevisions) (c'.holding tickets snapshots limitRevisions)
  phase : ∀ {c c'}, R c c' → ∀ phase, R { c with phase := phase } { c' with phase := phase }
  reason : ∀ {c c'}, R c c' → ∀ reason, R { c with reason := reason } { c' with reason := reason }

variable {R : Coordinator → Coordinator → Prop} {α β : Type}

theorem Alike.length {w w' : World} (h : Alike R w w') : w'.log.length = w.log.length := by
  have := congrArg List.length h.calls
  simpa using this

section Coupling

theorem alike_coord {f g : Coordinator → PairM β}
    (h : ∀ c c', R c c' → Coupled (Alike R) (f c) (g c')) :
    Coupled (Alike R) (coord >>= f) (coord >>= g) :=
  fun w w' hw => h w.coord w'.coord hw.coord w w' hw

/-- What looks at neither the times nor the reason. -/
theorem alike_blind (B : Blind R) {f : Coordinator → PairM β}
    (hf : ∀ c startedAt firstFillAt reason, f (c.dressed startedAt firstFillAt reason) = f c)
    (h : ∀ c, Coupled (Alike R) (f c) (f c)) :
    Coupled (Alike R) (coord >>= f) (coord >>= f) := by
  refine alike_coord (fun c c' hc => ?_)
  obtain ⟨startedAt, firstFillAt, reason, rfl⟩ := B.shape hc
  rw [hf]
  exact h c

theorem alike_update {f g : Coordinator → Coordinator} (h : ∀ c c', R c c' → R (f c) (g c')) :
    Coupled (Alike R) (update f) (update g) :=
  fun _ _ hw => .ok () ⟨h _ _ hw.coord, hw.calls⟩

/-- An update of the orders. -/
theorem alike_hold (B : Blind R) {f : Coordinator → Coordinator}
    (hf : ∀ c, f c = c.holding (f c).tickets (f c).snapshots (f c).limitRevisions)
    (hsame : ∀ c startedAt firstFillAt reason,
      let c' := f (c.dressed startedAt firstFillAt reason)
      (c'.tickets, c'.snapshots, c'.limitRevisions) =
        ((f c).tickets, (f c).snapshots, (f c).limitRevisions)) :
    Coupled (Alike R) (update f) (update f) := by
  refine alike_update (fun c c' hc => ?_)
  obtain ⟨startedAt, firstFillAt, reason, hc'⟩ := B.shape hc
  have hview := hsame c startedAt firstFillAt reason
  rw [← hc'] at hview
  simp only [Prod.mk.injEq] at hview
  rw [hf c, hf c', hview.1, hview.2.1, hview.2.2]
  exact B.holding hc _ _ _

theorem alike_ask {call : Nat → α} {event : α → Event} :
    Coupled (Alike R) (ask call event) (ask call event) := by
  intro w w' hw
  show SameEnd _ (EStateM.Result.ok (call w.log.length) _) (EStateM.Result.ok (call w'.log.length) _)
  rw [hw.length]
  refine .ok _ ⟨hw.coord, ?_⟩
  show event _ :: w'.log.map Call.event = event _ :: w.log.map Call.event
  rw [hw.calls]

theorem alike_mark {p : Point} : Coupled (Alike R) (mark p) (mark p) := by
  intro w w' hw
  refine .ok () ⟨hw.coord, ?_⟩
  show Event.point p :: w'.log.map Call.event = Event.point p :: w.log.map Call.event
  rw [hw.calls]

theorem alike_orRaise (x : Except String α) : Coupled (Alike R) (orRaise x) (orRaise x) := by
  cases x with
  | ok a => exact Coupled.pure a
  | error e => exact Coupled.throw e

theorem alike_ite {p : Prop} [Decidable p] {x y x' y' : PairM α} (hx : Coupled (Alike R) x x')
    (hy : Coupled (Alike R) y y') :
    Coupled (Alike R) (if p then x else y) (if p then x' else y') := by
  split
  · exact hx
  · exact hy

theorem alike_setPhase (B : Blind R) (phase : Phase) (reason : Option String) :
    Coupled (Alike R) (setPhase phase reason) (setPhase phase reason) :=
  alike_update (fun _ _ hc => B.reason (B.phase hc phase) reason)

/-- A test that fails for a reason. -/
theorem alike_refused (B : Blind R) (reason : String) (a : α) :
    Coupled (Alike R) (do setReason reason; pure a) (do setReason reason; pure a) :=
  Coupled.bind (alike_update (fun _ _ hc => B.reason hc (some reason))) (fun _ => Coupled.pure a)

end Coupling

section Programs

variable (S : Setup)

theorem refreshOne_alike (B : Blind R) (i : Nat) :
    Coupled (Alike R) (refreshOne S i) (refreshOne S i) := by
  refine alike_blind B (fun _ _ _ _ => rfl) (fun c => ?_)
  split
  · exact Coupled.pure ()
  · refine Coupled.bind alike_ask (fun answer => Coupled.bind (alike_orRaise answer) (fun snap => ?_))
    exact alike_hold B (fun _ => rfl) (fun _ _ _ _ => rfl)

theorem refresh_alike (B : Blind R) : Coupled (Alike R) (refresh S) (refresh S) := by
  refine alike_blind B (fun _ _ _ _ => rfl) (fun c => ?_)
  refine Coupled.bind (Coupled.foldlM (fun _ i => refreshOne_alike S B i) () _) (fun _ => ?_)
  exact Coupled.bind alike_mark (fun _ => alike_hold B (fun _ => rfl) (fun _ _ _ _ => rfl))

theorem cancelAndReconcile_alike (B : Blind R) (i : Nat) (orderId : String) :
    Coupled (Alike R) (cancelAndReconcile S i orderId) (cancelAndReconcile S i orderId) := by
  refine Coupled.bind alike_ask (fun answer => ?_)
  split
  · refine Coupled.bind alike_ask (fun status => ?_)
    split
    · exact Coupled.bind (alike_hold B (fun _ => rfl) (fun _ _ _ _ => rfl))
        (fun _ => Coupled.pure _)
    · exact Coupled.bind (alike_hold B (fun _ => rfl) (fun _ _ _ _ => rfl))
        (fun _ => alike_ite (Coupled.pure _) (Coupled.pure _))
  · exact Coupled.pure _

theorem cancelEach_alike (B : Blind R) (stops : Bool) (p : OrderTicket → Bool) :
    Coupled (Alike R) (cancelEach S stops p) (cancelEach S stops p) := by
  refine alike_blind B (fun _ _ _ _ => rfl) (fun c => Coupled.foldlM (fun failure i => ?_) _ _)
  refine alike_ite (Coupled.pure _) (alike_blind B (fun _ _ _ _ => rfl) (fun c => ?_))
  split
  · exact Coupled.pure _
  · exact alike_ite (Coupled.bind (cancelAndReconcile_alike S B i _) (fun _ => Coupled.pure _))
      (Coupled.pure _)

theorem concludeFlat_alike (B : Blind R) (phase : Phase) (reason : Option String) :
    Coupled (Alike R) (concludeFlat phase reason) (concludeFlat phase reason) :=
  Coupled.bind alike_mark (fun _ => alike_setPhase B phase reason)

theorem closeBalanced_alike (B : Blind R) :
    Coupled (Alike R) (closeBalanced S) (closeBalanced S) := by
  refine Coupled.bind (cancelEach_alike S B _ _) (fun failure => ?_)
  refine Coupled.bind (refresh_alike S B) (fun _ => alike_blind B (fun _ _ _ _ => rfl) (fun c => ?_))
  refine alike_ite (alike_ite ?_ ?_) (Coupled.pure _)
  · exact Coupled.bind (alike_setPhase B _ _) (fun _ => Coupled.pure _)
  · exact Coupled.bind (alike_setPhase B _ _) (fun _ => Coupled.pure _)

theorem placeExit_alike (B : Blind R) (side : Side) (target qty : ℚ) (permit : Option String) :
    Coupled (Alike R) (placeExit S side target qty permit) (placeExit S side target qty permit) := by
  refine alike_blind B (fun _ _ _ _ => rfl) (fun c => Coupled.bind alike_ask (fun answer => ?_))
  refine Coupled.bind (alike_orRaise answer) (fun replacement => ?_)
  split
  · exact alike_refused B _ _
  · rename_i ticket
    refine Coupled.bind (alike_update (fun c c' hc => ?_)) (fun _ => Coupled.pure _)
    obtain ⟨startedAt, firstFillAt, reason, hc'⟩ := B.shape hc
    have hknows : c'.knows ticket.orderId = c.knows ticket.orderId := by
      rw [hc']
      rfl
    have hadded : c'.append ticket =
        c'.holding (c.append ticket).tickets c.snapshots c.limitRevisions := by
      rw [hc']
      rfl
    rw [hknows]
    split
    · exact hc
    · rw [hadded]
      exact B.holding hc _ _ _

theorem replaceExit_alike (B : Blind R) (side : Side) (netQty target : ℚ) (ticket : OrderTicket)
    (i : Nat) :
    Coupled (Alike R) (replaceExit S side netQty target ticket i)
      (replaceExit S side netQty target ticket i) := by
  refine Coupled.bind alike_ask (fun answer => Coupled.bind (alike_orRaise answer) (fun permit => ?_))
  refine Coupled.bind (cancelAndReconcile_alike S B i _) (fun failure => ?_)
  split
  · exact alike_refused B _ _
  · exact alike_refused B _ _
  · refine alike_blind B (fun _ _ _ _ => rfl) (fun c => alike_ite ?_ ?_)
    · exact Coupled.bind (concludeFlat_alike B _ _) (fun _ => Coupled.pure _)
    · split
      · exact alike_refused B _ _
      · refine Coupled.bind (alike_hold B (fun _ => rfl) (fun _ _ _ _ => rfl))
          (fun _ => alike_ite (alike_refused B _ _) ?_)
        exact placeExit_alike S B _ _ _ _

theorem renewExit_alike (B : Blind R) (side : Side) (netQty target : ℚ) :
    Coupled (Alike R) (renewExit S side netQty target) (renewExit S side netQty target) := by
  refine alike_blind B (fun _ _ _ _ => rfl) (fun c => ?_)
  split
  · exact placeExit_alike S B _ _ _ _
  · refine alike_ite ?_ (alike_refused B _ _)
    split
    · exact Coupled.bind (alike_hold B (fun _ => rfl) (fun _ _ _ _ => rfl))
        (fun _ => alike_refused B _ _)
    · exact Coupled.bind (alike_hold B (fun _ => rfl) (fun _ _ _ _ => rfl))
        (fun _ => placeExit_alike S B _ _ _ _)

theorem ensureAnchoredExit_alike (B : Blind R) (exposure : Exposure)
    (netQty entryAvg current : ℚ) :
    Coupled (Alike R) (ensureAnchoredExit S exposure netQty entryAvg current)
      (ensureAnchoredExit S exposure netQty entryAvg current) := by
  refine Coupled.bind (alike_orRaise _) (fun target => alike_blind B (fun _ _ _ _ => rfl) (fun c => ?_))
  split
  · exact alike_ite (Coupled.pure _) (replaceExit_alike S B _ _ _ _ _)
  · exact renewExit_alike S B _ _ _

end Programs

end TradingFleet.Pair
