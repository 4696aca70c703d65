import TradingFleet.Trading212.OneShot

set_option autoImplicit false

/-! # Trading 212: when the one-shot order is placed again

The marker counts the reconciliations that found nothing, and the count is compared with the log: it
is at most the length of the newest stretch of such reconciliations since the last POST. A
reconciliation that is not counted breaks the stretch but leaves the count, so the calls have to be
`steady`: once a miss is counted, a reconciliation finds nothing, or what it finds is written.
-/

namespace TradingFleet.Trading212.OneShot

open TradingFleet.Text TradingFleet.Hoare TradingFleet.Runs
open TradingFleet.Rounding (roundTo)

/-! ## What the log shows -/

def Event.isPost : Event → Bool
  | .post _ _ _ _ => true
  | .reconciled _ _ _ _ => false

/-- A reconciliation that found neither a matching active order nor a growth of the position. -/
def Event.isAbsence : Event → Bool
  | .reconciled r (some []) (some position) _ => !r.grown position
  | _ => false

/-- The time to try again has passed for the record that was reconciled. -/
def Event.isDue : Event → Bool
  | .reconciled r _ _ now => r.nextRetryAt ≤ now
  | .post _ _ _ _ => false

/-- The reconciliations since the last POST, newest first. -/
def sincePost (events : List Event) : List Event := events.takeWhile (fun e => !e.isPost)

/-- The newest stretch of them that found nothing. -/
def absences (events : List Event) : List Event := (sincePost events).takeWhile Event.isAbsence

def Posted (events : List Event) : Prop := ∃ e ∈ events, e.isPost = true

/-- Before this POST there was none, or the newest reconciliations since the last one found nothing,
often enough, and the time to try again has passed. A rejection alone is not enough. -/
def Justified (older : List Event) : Prop :=
  ¬ Posted older ∨
    absenceConfirmations ≤ (absences older).length ∧ (absences older).head?.any Event.isDue = true

instance (l : List Event) : Decidable (Posted l) := inferInstanceAs (Decidable (∃ e ∈ l, _))

instance (older : List Event) : Decidable (Justified older) := inferInstanceAs (Decidable (_ ∨ _))

/-- Every POST is justified by what was logged before it. -/
def PostsJustified (events : List Event) : Prop :=
  ∀ newer e older, events = newer ++ e :: older → e.isPost = true → Justified older

/-- At the POST the marker on disk says that it is about to happen. -/
def Event.Written : Event → Prop
  | .post marker _ _ now => ∃ r, marker = some (.record r) ∧ r.lifecycle = .submitPending ∧
      r.lastSubmitAt = some now
  | .reconciled _ _ _ _ => True

/-! ## Steady calls -/

def Write.replaces : Write → Bool
  | .stored => true
  | .lost replaced => replaced

/-- What `place_order_with_retry` asks for, if it does not turn the call down at once. -/
def Call.intention (c : Call) : Option (ℚ × ℚ × ℚ) :=
  match c.quantity, c.limitPrice, c.retryDelay with
  | some quantity, some limitPrice, some delay =>
      if roundTo quantity 2 ≤ 0 ∨ roundTo limitPrice 2 ≤ 0 ∨ delay < 0 then none
      else if c.dryRun then none
      else some (roundTo quantity 2, roundTo limitPrice 2, delay)
  | _, _, _ => none

/-- The call looks for the order of the record. -/
def Call.searches (S : Setup) (c : Call) (r : Record) : Bool :=
  c.markerReads && !r.lifecycle.terminal && r.knownOrder.isNone &&
    c.intention.any (fun x => r.sameIntent S.ticker x.1 x.2.1)

/-- A single matching order has an ID. Once a miss is counted, the search finds nothing, or it finds
one order or a growth and that is written. -/
def Call.steady (S : Setup) (c : Call) (r : Record) : Bool :=
  !c.searches S r ||
    match c.activeOrders with
    | .error _ => true
    | .ok orders =>
        match r.matching orders with
        | some [] =>
            r.lookupMisses = 0 ||
              match c.portfolio with
              | .error _ => true
              | .ok positions =>
                  match portfolioQty r.ticker positions with
                  | some position => !r.grown position || c.reconciliation.replaces
                  | none => false
        | some [a] => a.id.isSome && (r.lookupMisses = 0 || c.reconciliation.replaces)
        | _ => r.lookupMisses = 0

/-- Quantity and price are those of the record, or differ by more than a cent. -/
def Call.distinct (S : Setup) (c : Call) (r : Record) : Bool :=
  c.intention.all (fun x => (r.qty = x.1 && r.limitPrice = x.2.1) || !r.sameIntent S.ticker x.1 x.2.1)

def Marker.all (p : Record → Bool) : Option Marker → Bool
  | some (.record r) => p r
  | _ => true

/-! ## The invariant -/

variable {S : Setup} {c : Call} {m : Option Marker} {l : List Event} {r : Record}

/-- After a POST the count of a record that is searched for is at most the newest stretch without a
find. -/
def Counted (r : Record) (events : List Event) : Prop :=
  Posted events → r.lifecycle.terminal = false → r.knownOrder = none →
    r.lookupMisses ≤ (absences events).length

/-- The marker and the log under one flag. -/
structure Good (m : Option Marker) (events : List Event) : Prop where
  counted : Posted events → ∃ r, m = some (.record r) ∧ Counted r events
  justified : PostsJustified events
  written : ∀ e ∈ events, e.Written

def Inv (w : World) : Prop := ∀ flag, Good (w.marker flag) (w.events flag)

theorem Good.counts (h : Good (some (.record r)) l) : Counted r l := by
  intro hposted
  obtain ⟨r', hr, hcounted⟩ := h.counted hposted
  cases hr
  exact hcounted hposted

/-- Before the first POST any marker will do. -/
theorem Good.unposted (h : Good m l) (hnone : ¬ Posted l) (m' : Option Marker) : Good m' l :=
  ⟨fun hposted => absurd hposted hnone, h.justified, h.written⟩

theorem posted_cons {e : Event} (he : e.isPost = false) (h : Posted (e :: l)) : Posted l := by
  obtain ⟨a, ha, hp⟩ := h
  rcases List.mem_cons.mp ha with rfl | ha
  · rw [he] at hp
    cases hp
  · exact ⟨a, ha, hp⟩

theorem Good.record (h : Good m l) (hr : Counted r l) : Good (some (.record r)) l :=
  ⟨fun _ => ⟨r, rfl, hr⟩, h.justified, h.written⟩

/-- A reconciliation is no POST. -/
theorem Good.reconciled (h : Good m l) {e : Event} (he : e.isPost = false) (hr : Counted r (e :: l)) :
    Good (some (.record r)) (e :: l) := by
  refine ⟨fun _ => ⟨r, rfl, hr⟩, fun newer p older hsplit hp => ?_, fun a ha => ?_⟩
  · cases newer with
    | nil =>
        cases hsplit
        rw [he] at hp
        cases hp
    | cons x newer =>
        cases hsplit
        exact h.justified newer p older rfl hp
  · rcases List.mem_cons.mp ha with rfl | ha
    · cases a with
      | post _ _ _ _ => cases he
      | reconciled _ _ _ _ => exact trivial
    · exact h.written a ha

theorem counted_zero (h : Posted l → r.lookupMisses = 0) : Counted r l := by
  intro hposted _ _
  rw [h hposted]
  exact Nat.zero_le _

theorem absences_cons {e : Event} (he : e.isPost = false) :
    absences (e :: l) = if e.isAbsence then e :: absences l else [] := by
  unfold absences sincePost
  rw [List.takeWhile_cons, he]
  by_cases h : e.isAbsence
  · simp [h]
  · simp [h]

/-! ## Programs -/

/-- Marker and log of the flag of the call; under the other flag everything is as in `w₀`. -/
def At (c : Call) (w₀ : World) (m : Option Marker) (l : List Event) (w : World) : Prop :=
  w.marker c.writeMarker = m ∧ w.events c.writeMarker = l ∧
    ∀ flag, flag ≠ c.writeMarker → w.marker flag = w₀.marker flag ∧ w.events flag = w₀.events flag

/-- After the call. -/
def Done (c : Call) (w₀ w : World) : Prop := ∃ m l, At c w₀ m l w ∧ Good m l

variable {w₀ : World}

theorem At.done {w : World} (h : At c w₀ m l w) (hgood : Good m l) : Done c w₀ w :=
  ⟨m, l, h, hgood⟩

theorem Done.inv {w : World} (h : Done c w₀ w) (hw₀ : Inv w₀) : Inv w := by
  obtain ⟨m, l, ⟨hm, hl, hothers⟩, hgood⟩ := h
  intro flag
  by_cases hflag : flag = c.writeMarker
  · rw [hflag, hm, hl]
    exact hgood
  · obtain ⟨hmarker, hevents⟩ := hothers flag hflag
    rw [hmarker, hevents]
    exact hw₀ flag

theorem mark_at (e : Event) {E : Unit → World → Prop} :
    Triple (At c w₀ m l) (mark c e) (fun _ => At c w₀ m (e :: l)) E := by
  rintro w ⟨hm, hl, hothers⟩
  refine ⟨hm, ?_, fun flag hflag => ⟨(hothers flag hflag).1, ?_⟩⟩
  · show Function.update w.events c.writeMarker _ c.writeMarker = _
    rw [Function.update_self, hl]
  · show Function.update w.events c.writeMarker _ flag = _
    rw [Function.update_of_ne hflag]
    exact (hothers flag hflag).2

/-- A write that is lost leaves the marker or has replaced it. -/
theorem persist_at {m' : Marker} {write : Write} (hnew : write.replaces = true → Good (some m') l)
    (hold : write.replaces = false → Good m l) :
    Triple (At c w₀ m l) (persistMarker c write m')
      (fun _ w => At c w₀ (some m') l w ∧ Good (some m') l) (fun _ => Done c w₀) := by
  rintro w ⟨hm, hl, hothers⟩
  have hwritten : At c w₀ (some m') l
      { w with marker := Function.update w.marker c.writeMarker (some m') } := by
    refine ⟨Function.update_self _ _ _, hl, fun flag hflag => ⟨?_, (hothers flag hflag).2⟩⟩
    show Function.update w.marker c.writeMarker _ flag = _
    rw [Function.update_of_ne hflag]
    exact (hothers flag hflag).1
  unfold persistMarker
  cases write with
  | stored => exact ⟨hwritten, hnew rfl⟩
  | lost replaced =>
      cases replaced with
      | false => exact At.done ⟨hm, hl, hothers⟩ (hold rfl)
      | true => exact hwritten.done (hnew rfl)

theorem answered_at {α : Type} (x : Except Unit α) {P : World → Prop} (hinv : ∀ w, P w → Done c w₀ w) :
    Triple P (answered x) (fun a w => x = .ok a ∧ P w) (fun _ => Done c w₀) := by
  intro w hw
  cases x with
  | ok a => exact ⟨rfl, hw⟩
  | error e => exact hinv w hw

/-- A good place to go on; a POST is only justified if the outcome says so. -/
def Reconciled (c : Call) (w₀ : World) (outcome : Outcome) (w : World) : Prop :=
  ∃ m l, At c w₀ m l w ∧ Good m l ∧ (outcome = .retryable → Justified l)

/-- The counted absences, when this reconciliation is one of them. -/
theorem reconcileAbsence_at {found : Option (List Active)} {position : Option ℚ}
    (hgood : Good (some (.record r)) l) (hopen : r.lifecycle.terminal = false)
    (hunknown : r.knownOrder = none)
    (habsent : Posted l → (Event.reconciled r found position c.now).isAbsence = true) :
    Triple (At c w₀ (some (.record r)) (.reconciled r found position c.now :: l)) (reconcileAbsence c r)
      (fun x => Reconciled c w₀ x.2) (fun _ => Done c w₀) := by
  have hcount : Posted l → absences (.reconciled r found position c.now :: l) =
      .reconciled r found position c.now :: absences l := by
    intro hposted
    rw [absences_cons rfl, if_pos (habsent hposted)]
  have hmisses : Posted l → r.lookupMisses ≤ (absences l).length :=
    fun hposted => hgood.counts hposted hopen hunknown
  have hold : Good (some (.record r)) (.reconciled r found position c.now :: l) := by
    refine hgood.reconciled rfl (fun hposted _ _ => ?_)
    have hbefore := hmisses (posted_cons rfl hposted)
    rw [hcount (posted_cons rfl hposted), List.length_cons]
    omega
  have hnew : Good (some (.record { r with
      lookupMisses := r.lookupMisses + 1, lastObservedAt := some c.now }))
      (.reconciled r found position c.now :: l) := by
    refine hgood.reconciled rfl (fun hposted _ _ => ?_)
    rw [hcount (posted_cons rfl hposted), List.length_cons]
    exact Nat.succ_le_succ (hmisses (posted_cons rfl hposted))
  refine Triple.bind (persist_at (fun _ => hnew) (fun _ => hold)) (fun _ => ?_)
  split
  · exact Triple.pure (fun w hw => ⟨_, _, hw.1, hw.2, fun h => by cases h⟩)
  · rename_i hready
    rw [not_or, not_lt, not_lt] at hready
    refine Triple.pure (fun w hw => ⟨_, _, hw.1, hw.2, fun _ => ?_⟩)
    by_cases hposted : Posted l
    · refine Or.inr ⟨?_, ?_⟩
      · have hbefore := hmisses hposted
        have htwo : absenceConfirmations ≤ r.lookupMisses + 1 := hready.1
        rw [hcount hposted, List.length_cons]
        omega
      · rw [hcount hposted]
        exact decide_eq_true hready.2
    · exact Or.inl (fun h => hposted (posted_cons rfl h))

/-- Without an active order the position decides. -/
theorem reconcilePosition_at {found : List Active} (hgood : Good (some (.record r)) l)
    (hopen : r.lifecycle.terminal = false) (hunknown : r.knownOrder = none)
    (hnone : Posted l → found = [])
    (hsteady : Posted l → r.lookupMisses = 0 ∨ ∀ positions, c.portfolio = .ok positions →
      ∃ position, portfolioQty r.ticker positions = some position ∧
        (r.grown position = false ∨ c.reconciliation.replaces = true)) :
    Triple (At c w₀ (some (.record r)) l) (reconcilePosition c r found)
      (fun x => Reconciled c w₀ x.2) (fun _ => Done c w₀) := by
  unfold reconcilePosition
  refine Triple.bind (answered_at c.portfolio (fun w hw => hw.done hgood)) (fun positions => ?_)
  refine Triple.of_fact (fun hpositions => ?_)
  extract_lets position
  have hzero : ∀ e : Event, e.isPost = false → (Posted l → r.lookupMisses = 0) →
      Good (some (.record r)) (e :: l) := fun e he h =>
    hgood.reconciled he (counted_zero (fun hposted => h (posted_cons he hposted)))
  cases hposition : position with
  | none =>
      refine Triple.bind (mark_at _) (fun _ => Triple.pure (fun w hw => ?_))
      refine ⟨_, _, hw, hzero _ rfl (fun hposted => ?_), fun h => by cases h⟩
      rcases hsteady hposted with h | h
      · exact h
      · obtain ⟨q, hq, -⟩ := h positions hpositions
        have hunread : portfolioQty r.ticker positions = none := hposition
        rw [hunread] at hq
        cases hq
  | some q =>
      refine Triple.bind (mark_at _) (fun _ => ?_)
      dsimp only
      by_cases hgrown : r.grown q = true
      · rw [if_pos hgrown]
        -- a growth that is not written is forgotten, and so is that the stretch has ended
        refine Triple.bind (persist_at (fun _ => hgood.reconciled rfl (fun _ h => by cases h))
          (fun hlost => hzero _ rfl (fun hposted => ?_))) (fun _ => Triple.pure (fun w hw => ?_))
        · rcases hsteady hposted with h | h
          · exact h
          · obtain ⟨q', hq', hfound⟩ := h positions hpositions
            have hsame : portfolioQty r.ticker positions = some q := hposition
            rw [hsame] at hq'
            cases hq'
            rcases hfound with h | h
            · rw [hgrown] at h
              cases h
            · rw [hlost] at h
              cases h
        · exact ⟨_, _, hw.1, hw.2, fun h => by cases h⟩
      · rw [if_neg hgrown]
        refine reconcileAbsence_at hgood hopen hunknown (fun hposted => ?_)
        rw [hnone hposted]
        simpa [Event.isAbsence] using hgrown

/-- A status decides about the known order. -/
theorem observed_counted (id status : String) (now delay : ℚ) (hknown : r.knownOrder ≠ none) :
    Counted (r.observed id status now delay) l := by
  intro _ hopen hunknown
  have hkept : ∀ x : Record, x.orderId = r.orderId → x.knownOrder ≠ none := by
    intro x hx
    unfold Record.knownOrder
    rw [hx]
    exact hknown
  unfold Record.observed at hopen hunknown ⊢
  dsimp only at hopen hunknown ⊢
  split at hunknown
  · exact absurd hunknown (hkept _ rfl)
  · split at hunknown
    · exact absurd hunknown (hkept _ rfl)
    · split at hunknown
      · exact absurd hunknown (hkept _ rfl)
      · split at hunknown
        · rename_i hrejected
          simp [hrejected]
        · split at hunknown
          · exact absurd hunknown (hkept _ rfl)
          · exact absurd hunknown (hkept _ rfl)

theorem reconcileRecord_at (delay : ℚ) (hgood : Good (some (.record r)) l)
    (hopen : r.lifecycle.terminal = false)
    (hsteady : Posted l → r.knownOrder = none → c.steady S r = true ∧ c.searches S r = true) :
    Triple (At c w₀ (some (.record r)) l) (reconcileRecord c r delay)
      (fun x => Reconciled c w₀ x.2) (fun _ => Done c w₀) := by
  unfold reconcileRecord
  cases hunknown : r.knownOrder with
  | some id =>
      refine Triple.bind (answered_at c.orderStatus (fun w hw => hw.done hgood)) (fun info => ?_)
      refine Triple.of_fact (fun _ => ?_)
      cases info with
      | none => exact Triple.pure (fun w hw => ⟨_, _, hw, hgood, fun h => by cases h⟩)
      | some status =>
          have hnew : Good (some (.record (r.observed id (upper status) c.now delay))) l :=
            hgood.record (observed_counted id _ _ _ (by simp [hunknown]))
          refine Triple.bind (persist_at (fun _ => hnew) (fun _ => hgood)) (fun _ => ?_)
          refine Triple.pure (fun w hw => ⟨_, _, hw.1, hw.2, fun h => ?_⟩)
          -- an order that is known is never one to send again
          have houtcome : ∀ x : Lifecycle, x.outcome ≠ .retryable := by
            intro x
            cases x <;> decide
          exact absurd h (houtcome _)
  | none =>
      refine Triple.bind (answered_at c.activeOrders (fun w hw => hw.done hgood)) (fun orders => ?_)
      refine Triple.of_fact (fun horders => ?_)
      -- what a steady call says of the orders that match, once a POST was made
      have hcase : Posted l → (match r.matching orders with
          | some [] => r.lookupMisses = 0 || match c.portfolio with
              | .error _ => true
              | .ok positions => match portfolioQty r.ticker positions with
                  | some position => !r.grown position || c.reconciliation.replaces
                  | none => false
          | some [a] => a.id.isSome && (r.lookupMisses = 0 || c.reconciliation.replaces)
          | _ => r.lookupMisses = 0 : Bool) = true := by
        intro hposted
        obtain ⟨hsteady, hsearches⟩ := hsteady hposted hunknown
        unfold Call.steady at hsteady
        rw [hsearches, horders] at hsteady
        exact hsteady
      have hzero : ∀ e : Event, e.isPost = false → (Posted l → r.lookupMisses = 0) →
          Good (some (.record r)) (e :: l) := fun e he h =>
        hgood.reconciled he (counted_zero (fun hposted => h (posted_cons he hposted)))
      cases hfound : r.matching orders with
      | none =>
          rw [hfound] at hcase
          refine Triple.bind (mark_at _) (fun _ => Triple.pure (fun w hw => ?_))
          exact ⟨_, _, hw, hzero _ rfl (fun h => by simpa using hcase h), fun h => by cases h⟩
      | some found =>
          rw [hfound] at hcase
          cases found with
          | nil =>
              refine reconcilePosition_at hgood hopen hunknown (fun _ => rfl) (fun hposted => ?_)
              have hread := hcase hposted
              dsimp only at hread
              rw [Bool.or_eq_true, decide_eq_true_eq] at hread
              refine hread.imp_right (fun hread positions hpositions => ?_)
              rw [hpositions] at hread
              dsimp only at hread
              cases hposition : portfolioQty r.ticker positions with
              | none =>
                  rw [hposition] at hread
                  cases hread
              | some position =>
                  rw [hposition] at hread
                  exact ⟨position, rfl, by simpa using hread⟩
          | cons a rest =>
              cases rest with
              | nil =>
                  have hid : Posted l → a.id.isSome = true ∧
                      (r.lookupMisses = 0 ∨ c.reconciliation.replaces = true) := by
                    intro hposted
                    simpa using hcase hposted
                  dsimp only
                  cases hsome : a.id with
                  | none =>
                      -- an order without an ID does not match after a POST
                      have hnever : ¬ Posted l := by
                        intro hposted
                        have h := (hid hposted).1
                        rw [hsome] at h
                        cases h
                      exact reconcilePosition_at hgood hopen hunknown (fun h => absurd h hnever)
                        (fun h => absurd h hnever)
                  | some id =>
                      refine Triple.bind (mark_at _) (fun _ => ?_)
                      refine Triple.bind (persist_at
                        (fun _ => hgood.reconciled rfl (counted_zero (fun _ => rfl)))
                        (fun hlost => hzero _ rfl (fun hposted => ?_)))
                        (fun _ => Triple.pure (fun w hw => ?_))
                      · rcases (hid hposted).2 with h | h
                        · exact h
                        · rw [hlost] at h
                          cases h
                      · exact ⟨_, _, hw.1, hw.2, fun h => by cases h⟩
              | cons b rest =>
                  refine Triple.bind (mark_at _) (fun _ => Triple.pure (fun w hw => ?_))
                  exact ⟨_, _, hw, hzero _ rfl (fun h => by simpa using hcase h), fun h => by cases h⟩

/-! ## Placing -/

theorem Good.posted (hgood : Good (some (.record r)) l) (hjustified : Justified l) {e : Event}
    (hpost : e.isPost = true) (hwritten : e.Written) (hr : r.lookupMisses = 0) :
    Good (some (.record r)) (e :: l) := by
  refine ⟨fun _ => ⟨r, rfl, counted_zero (fun _ => hr)⟩, fun newer p older hsplit hp => ?_, fun a ha => ?_⟩
  · cases newer with
    | nil =>
        cases hsplit
        exact hjustified
    | cons x newer =>
        cases hsplit
        exact hgood.justified newer p older rfl hp
  · rcases List.mem_cons.mp ha with rfl | ha
    · exact hwritten
    · exact hgood.written a ha

/-- A justified POST, with the record written before it. -/
theorem submitOrder_at (r : Record) (qty limit delay : ℚ) (hgood : Good m l) (hjustified : Justified l) :
    Triple (At c w₀ m l) (submitOrder c r qty limit delay) (fun _ => Done c w₀) (fun _ => Done c w₀) := by
  have hattempt : Good (some (.record (r.attempted c.now delay))) l :=
    hgood.record (counted_zero (fun _ => rfl))
  unfold submitOrder
  extract_lets attempted
  refine Triple.bind (persist_at (fun _ => hattempt) (fun _ => hgood)) (fun _ => ?_)
  refine Triple.get (fun w hw => ?_)
  obtain ⟨⟨hmarker, hlog, hothers⟩, -⟩ := hw
  have hposted : Good (some (.record attempted))
      (.post (w.marker c.writeMarker) qty limit c.now :: l) := by
    refine hattempt.posted hjustified rfl ?_ rfl
    rw [hmarker]
    exact ⟨attempted, rfl, rfl, rfl⟩
  have hanswer : ∀ r' : Record, r'.lookupMisses = 0 →
      Triple (At c w₀ (some (.record attempted)) (.post (w.marker c.writeMarker) qty limit c.now :: l))
        (persistMarker c c.answer (.record r')) (fun _ => Done c w₀) (fun _ => Done c w₀) := by
    intro r' hr'
    refine (persist_at (fun _ => ?_) (fun _ => hposted)).weaken (fun _ v hv => hv.1.done hv.2)
    exact hposted.record (counted_zero (fun _ => hr'))
  have hrefused : ∀ status body, Triple
      (At c w₀ (some (.record attempted)) (.post (w.marker c.writeMarker) qty limit c.now :: l))
      (submitOrder.refused c attempted status body) (fun _ => Done c w₀) (fun _ => Done c w₀) := by
    intro status body
    exact Triple.bind (hanswer _ rfl) (fun _ => Triple.pure (fun _ hv => hv))
  have hat : At c w₀ (some (.record attempted)) l w := ⟨hmarker, hlog, hothers⟩
  refine Triple.bind ((mark_at _).strengthen (fun v hv => hv ▸ hat)) (fun _ => ?_)
  cases c.submit with
  | died => exact Triple.throw (fun v hv => hv.done hposted)
  | raised error => exact Triple.bind (hanswer _ rfl) (fun _ => Triple.pure (fun _ hv => hv))
  | response status orderId venueStatus body =>
      cases orderId with
      | none => exact hrefused status body
      | some id =>
          refine Triple.ite ?_ (hrefused status body)
          exact Triple.bind (hanswer _ rfl) (fun _ => Triple.pure (fun _ hv => hv))

theorem placeFirst_at (qty limit delay : ℚ) (hgood : Good m l) (hnone : ¬ Posted l) :
    Triple (At c w₀ m l) (placeFirst S c qty limit delay) (fun _ => Done c w₀) (fun _ => Done c w₀) := by
  have hstay : ∀ {α : Type} (a : α), Triple (At c w₀ m l) (pure a : OrderM α) (fun _ => Done c w₀)
      (fun _ => Done c w₀) := fun a => Triple.pure (fun w hw => hw.done hgood)
  unfold placeFirst
  refine Triple.bind (answered_at c.portfolio (fun w hw => hw.done hgood)) (fun positions => ?_)
  refine Triple.of_fact (fun _ => ?_)
  cases portfolioQty S.ticker positions with
  | none => exact hstay false
  | some before =>
      dsimp only
      refine Triple.bind (answered_at c.activeOrders (fun w hw => hw.done hgood)) (fun orders => ?_)
      refine Triple.of_fact (fun _ => ?_)
      split
      · exact submitOrder_at _ qty limit delay hgood (Or.inl hnone)
      · exact hstay false

theorem pollLegacy_at (ticker : String) (orderId : Option String) (hgood : Good m l)
    (hnone : ¬ Posted l) :
    Triple (At c w₀ m l) (pollLegacy c ticker orderId) (fun _ => Done c w₀) (fun _ => Done c w₀) := by
  unfold pollLegacy
  cases orderId with
  | none => exact Triple.pure (fun w hw => hw.done hgood)
  | some id =>
      refine Triple.ite (Triple.pure (fun w hw => hw.done hgood)) ?_
      refine Triple.bind (answered_at c.orderStatus (fun w hw => hw.done hgood)) (fun status => ?_)
      refine Triple.of_fact (fun _ => ?_)
      refine Triple.bind (persist_at (fun _ => hgood.unposted hnone _) (fun _ => hgood)) (fun _ => ?_)
      exact Triple.pure (fun w hw => hw.1.done hw.2)

theorem placeAgain_at {qty limit delay : ℚ} (hgood : Good (some (.record r)) l)
    (hsteady : Posted l → c.steady S r = true) (hsearches : r.sameIntent S.ticker qty limit = true → r.lifecycle.terminal = false →
      r.knownOrder = none → c.searches S r = true) :
    Triple (At c w₀ (some (.record r)) l) (placeAgain S c r qty limit delay) (fun _ => Done c w₀)
      (fun _ => Done c w₀) := by
  have hstay : ∀ a : Bool, Triple (At c w₀ (some (.record r)) l) (pure a : OrderM Bool) (fun _ => Done c w₀)
      (fun _ => Done c w₀) := fun a => Triple.pure (fun w hw => hw.done hgood)
  unfold placeAgain
  by_cases hsame : r.sameIntent S.ticker qty limit = false
  · rw [if_pos hsame]
    exact hstay false
  · rw [if_neg hsame]
    refine Triple.ite (hstay true) ?_
    by_cases hterminal : r.lifecycle.terminal = true
    · rw [if_pos hterminal]
      exact hstay false
    · rw [if_neg hterminal]
      have hopen : r.lifecycle.terminal = false := Bool.eq_false_iff.mpr hterminal
      refine Triple.bind (reconcileRecord_at delay hgood hopen
        (fun hposted hunknown => ⟨hsteady hposted, hsearches (by simpa using hsame) hopen hunknown⟩)) (fun x => ?_)
      obtain ⟨r', outcome⟩ := x
      cases outcome with
      | complete => exact Triple.pure (fun w hw => let ⟨_, _, hat, hg, _⟩ := hw; hat.done hg)
      | terminalFailed => exact Triple.pure (fun w hw => let ⟨_, _, hat, hg, _⟩ := hw; hat.done hg)
      | waiting => exact Triple.pure (fun w hw => let ⟨_, _, hat, hg, _⟩ := hw; hat.done hg)
      | retryable =>
          rintro w ⟨m', l', hat, hg, hjustified⟩
          exact submitOrder_at r' qty limit delay hg (hjustified rfl) w hat

/-! ## A call -/

/-- What is read, and what is on disk then. -/
def ReadAs (c : Call) (w₀ : World) (m : Option Marker) (l : List Event) (x : Option (Option Marker))
    (w : World) : Prop :=
  match x with
  | none => Done c w₀ w
  | some x => At c w₀ x l w ∧ Good x l ∧ c.markerReads = true ∧ (Posted l → x = m)

theorem readOrMigrateMarker_at (hgood : Good m l) :
    Triple (At c w₀ m l) (readOrMigrateMarker S c) (ReadAs c w₀ m l) (fun _ => Done c w₀) := by
  unfold readOrMigrateMarker
  refine Triple.get (fun w hw => ?_)
  have hstart : ∀ v : World, v = w → At c w₀ m l v := fun v hv => hv ▸ hw
  have hunread : Triple (fun v => v = w) (pure none : OrderM (Option (Option Marker)))
      (ReadAs c w₀ m l) (fun _ => Done c w₀) := Triple.pure (fun v hv => (hstart v hv).done hgood)
  by_cases hreads : c.markerReads = false
  · rw [if_pos hreads]
    exact hunread
  · rw [if_neg hreads, hw.1]
    have hreads : c.markerReads = true := by simpa using hreads
    cases m with
    | some m => exact Triple.pure (fun v hv => ⟨hstart v hv, hgood, hreads, fun _ => rfl⟩)
    | none =>
        have hnone : ¬ Posted l := by
          intro hposted
          obtain ⟨r, hr, -⟩ := hgood.counted hposted
          cases hr
        have hempty : Triple (fun v => v = w) (pure (some none) : OrderM (Option (Option Marker)))
            (ReadAs c w₀ none l) (fun _ => Done c w₀) :=
          Triple.pure (fun v hv => ⟨hstart v hv, hgood, hreads, fun _ => rfl⟩)
        refine Triple.ite hunread ?_
        cases S.legacy with
        | none => exact hempty
        | some legacy =>
            have hmigrate : Triple (fun v => v = w)
                (do
                  persistMarker c c.migration legacy
                  pure (some (some legacy)) : OrderM (Option (Option Marker)))
                (ReadAs c w₀ none l) (fun _ => Done c w₀) := by
              refine Triple.bind ((persist_at (fun _ => hgood.unposted hnone _)
                (fun _ => hgood)).strengthen hstart) (fun _ => Triple.pure (fun v hv => ?_))
              exact ⟨hv.1, hv.2, hreads, fun hposted => absurd hposted hnone⟩
            exact Triple.ite hempty
              (Triple.tryCatch hmigrate (fun _ => Triple.pure (fun v hv => hv)))

/-- A call is turned down at once, or reads the marker. -/
theorem placeOrderWithRetry_cases (S : Setup) (c : Call) :
    (c.intention = none ∧ ∃ a, placeOrderWithRetry S c = pure a) ∨
      ∃ qty limit delay, c.intention = some (qty, limit, delay) ∧
        placeOrderWithRetry S c = readOrMigrateMarker S c >>= fun x => match x with
          | none => pure false
          | some none => placeFirst S c qty limit delay
          | some (some (.legacy ticker orderId _)) => pollLegacy c ticker orderId
          | some (some (.record r)) => placeAgain S c r qty limit delay := by
  unfold placeOrderWithRetry Call.intention
  cases c.quantity with
  | none => exact Or.inl ⟨rfl, false, rfl⟩
  | some quantity =>
      cases c.limitPrice with
      | none => exact Or.inl ⟨rfl, false, rfl⟩
      | some limitPrice =>
          cases c.retryDelay with
          | none => exact Or.inl ⟨rfl, false, rfl⟩
          | some delay =>
              dsimp only
              by_cases hinvalid : roundTo quantity 2 ≤ 0 ∨ roundTo limitPrice 2 ≤ 0 ∨ delay < 0
              · rw [if_pos hinvalid, if_pos hinvalid]
                exact Or.inl ⟨rfl, false, rfl⟩
              · rw [if_neg hinvalid, if_neg hinvalid]
                by_cases hdry : c.dryRun = true
                · rw [if_pos hdry, if_pos hdry]
                  exact Or.inl ⟨rfl, true, rfl⟩
                · rw [if_neg hdry, if_neg hdry]
                  exact Or.inr ⟨_, _, delay, rfl, rfl⟩

/-- One call keeps the invariant. -/
theorem placeOrderWithRetry_at (hsteady : Marker.all (c.steady S) m = true) (hgood : Good m l) :
    Triple (At c w₀ m l) (placeOrderWithRetry S c) (fun _ => Done c w₀) (fun _ => Done c w₀) := by
  rcases placeOrderWithRetry_cases S c with ⟨-, a, hdone⟩ | ⟨qty, limit, delay, hintention, hplace⟩
  · rw [hdone]
    exact Triple.pure (fun w hw => hw.done hgood)
  · rw [hplace]
    refine Triple.bind (readOrMigrateMarker_at hgood) (fun x => ?_)
    cases x with
    | none => exact Triple.pure (fun w hw => hw)
    | some x =>
        rintro w ⟨hat, hread, hreads, hsame⟩
        have hrecord : Posted l → ∃ r, x = some (.record r) := by
          intro hposted
          obtain ⟨r, hr, -⟩ := hread.counted hposted
          exact ⟨r, hr⟩
        cases x with
        | none =>
            refine placeFirst_at _ _ _ hread (fun hposted => ?_) w hat
            obtain ⟨r, hr⟩ := hrecord hposted
            cases hr
        | some marker =>
            cases marker with
            | legacy ticker orderId lastStatus =>
                refine pollLegacy_at ticker orderId hread (fun hposted => ?_) w hat
                obtain ⟨r, hr⟩ := hrecord hposted
                cases hr
            | record r =>
                refine placeAgain_at hread (fun hposted => ?_) (fun hintent hopen hunknown => ?_) w hat
                · rw [← hsame hposted] at hsteady
                  exact hsteady
                · unfold Call.searches
                  rw [hreads, hopen, hunknown, hintention]
                  simpa using hintent

theorem call_done {w : World} (hsteady : Marker.all (c.steady S) (w.marker c.writeMarker) = true)
    (hinv : Inv w) : Done c w (w.call S c) := by
  have h := placeOrderWithRetry_at hsteady (hinv c.writeMarker) w
    (show At c w _ _ w from ⟨rfl, rfl, fun _ _ => ⟨rfl, rfl⟩⟩)
  unfold World.call
  cases hrun : placeOrderWithRetry S c w with
  | ok a w' =>
      rw [hrun] at h
      exact h
  | error e w' =>
      rw [hrun] at h
      exact h

/-! ## Calls that change nothing -/

/-- A call that finds a terminal record, or another intent, leaves everything as it was. -/
theorem call_unchanged {w : World} (hm : w.marker c.writeMarker = some (.record r))
    (hidle : ∀ x, c.intention = some x →
      r.sameIntent S.ticker x.1 x.2.1 = false ∨ r.lifecycle.terminal = true) :
    w.call S c = w := by
  have hread : readOrMigrateMarker S c w =
      .ok (if c.markerReads = false then none else some (some (.record r))) w := by
    show (if c.markerReads = false then pure none else _ : OrderM _) w = _
    by_cases hreads : c.markerReads = false
    · rw [if_pos hreads, if_pos hreads]
      rfl
    · rw [if_neg hreads, if_neg hreads, hm]
      rfl
  have hdone : ∃ a, placeOrderWithRetry S c w = .ok a w := by
    rcases placeOrderWithRetry_cases S c with ⟨-, a, hdone⟩ | ⟨qty, limit, delay, hx, hplace⟩
    · rw [hdone]
      exact ⟨a, rfl⟩
    · rw [hplace]
      show ∃ a, EStateM.bind (readOrMigrateMarker S c) _ w = .ok a w
      unfold EStateM.bind
      rw [hread]
      by_cases hreads : c.markerReads = false
      · rw [if_pos hreads]
        exact ⟨false, rfl⟩
      · rw [if_neg hreads]
        show ∃ a, placeAgain S c r qty limit delay w = .ok a w
        unfold placeAgain
        by_cases hsame : r.sameIntent S.ticker qty limit = false
        · rw [if_pos hsame]
          exact ⟨false, rfl⟩
        · rw [if_neg hsame]
          have hterminal := (hidle _ hx).resolve_left hsame
          by_cases hfilled : r.lifecycle = .filled
          · rw [if_pos hfilled]
            exact ⟨true, rfl⟩
          · rw [if_neg hfilled, if_pos hterminal]
            exact ⟨false, rfl⟩
  obtain ⟨a, ha⟩ := hdone
  unfold World.call
  rw [ha]

/-! ## Runs -/

/-- The marker of a flag is terminal. -/
def World.ended (w : World) (flag : Bool) : Prop :=
  ∃ r, w.marker flag = some (.record r) ∧ r.lifecycle.terminal = true

theorem run_inv {w : World} {calls : List Call} (hinv : Inv w)
    (hsteady : Along (World.call S)
      (fun v c => Marker.all (c.steady S) (v.marker c.writeMarker) = true) w calls) :
    Inv (w.run S calls) := by
  induction calls generalizing w with
  | nil => exact hinv
  | cons c rest ih => exact ih ((call_done hsteady.1 hinv).inv hinv) hsteady.2

/-- Under a terminal marker nothing is logged any more. -/
theorem ended_frozen {w : World} {calls : List Call} {flag : Bool} (hinv : Inv w)
    (hsteady : Along (World.call S)
      (fun v c => Marker.all (c.steady S) (v.marker c.writeMarker) = true) w calls)
    (hended : w.ended flag) :
    (w.run S calls).marker flag = w.marker flag ∧ (w.run S calls).events flag = w.events flag := by
  induction calls generalizing w with
  | nil => exact ⟨rfl, rfl⟩
  | cons c rest ih =>
      have hdone := call_done hsteady.1 hinv
      have hsame : (w.call S c).marker flag = w.marker flag ∧
          (w.call S c).events flag = w.events flag := by
        by_cases hflag : flag = c.writeMarker
        · obtain ⟨r, hr, hterminal⟩ := hended
          rw [call_unchanged (hflag ▸ hr) (fun _ _ => Or.inr hterminal)]
          exact ⟨rfl, rfl⟩
        · obtain ⟨m, l, ⟨-, -, hothers⟩, -⟩ := hdone
          exact hothers flag hflag
      obtain ⟨r, hr, hterminal⟩ := hended
      have hrest := ih (hdone.inv hinv) hsteady.2 ⟨r, hsame.1.trans hr, hterminal⟩
      exact ⟨hrest.1.trans hsame.1, hrest.2.trans hsame.2⟩

/-- The calls are steady, and do not differ from the record by a cent. -/
def Regular (S : Setup) (w : World) (c : Call) : Prop :=
  Marker.all (fun r => c.steady S r && c.distinct S r) (w.marker c.writeMarker) = true

instance (S : Setup) (w : World) (c : Call) : Decidable (Regular S w c) :=
  inferInstanceAs (Decidable (_ = true))

theorem Regular.steady {w : World} (h : Regular S w c) :
    Marker.all (c.steady S) (w.marker c.writeMarker) = true := by
  unfold Regular at h
  cases hm : w.marker c.writeMarker with
  | none => rfl
  | some m =>
      rw [hm] at h
      cases m with
      | legacy _ _ _ => rfl
      | record r => exact (Bool.and_eq_true_iff.mp h).1

/-- A regular call with another quantity or price changes nothing. -/
theorem Regular.unchanged {w : World} (h : Regular S w c) (hm : w.marker c.writeMarker = some (.record r))
    {x : ℚ × ℚ × ℚ} (hx : c.intention = some x) (hother : r.qty ≠ x.1 ∨ r.limitPrice ≠ x.2.1) :
    w.call S c = w := by
  unfold Regular at h
  rw [hm] at h
  have hdistinct : c.distinct S r = true := (Bool.and_eq_true_iff.mp h).2
  unfold Call.distinct at hdistinct
  rw [hx] at hdistinct
  refine call_unchanged hm (fun y hy => Or.inl ?_)
  rw [hx] at hy
  cases hy
  simp only [Option.all_some, Bool.or_eq_true, Bool.and_eq_true, decide_eq_true_eq,
    Bool.not_eq_true'] at hdistinct
  rcases hdistinct with ⟨hqty, hlimit⟩ | hdifferent
  · rcases hother with hne | hne
    · exact absurd hqty hne
    · exact absurd hlimit hne
  · exact hdifferent

/-- **The one-shot order.** In a run of regular calls, with lost responses, failed writes and crashes
at any point: every POST finds its marker on disk; a second one is made only after enough
reconciliations in a row have found neither an order nor a growth, and the time has passed; under a
terminal marker there is none; and a call with another quantity or price changes no marker. -/
theorem one_shot (S : Setup) (w : World) (hfresh : ∀ flag, w.events flag = []) (calls : List Call)
    (hregular : Along (World.call S) (Regular S) w calls) :
    (∀ flag, ∀ e ∈ (w.run S calls).events flag, e.Written) ∧
      (∀ flag, PostsJustified ((w.run S calls).events flag)) ∧
      (∀ first rest, calls = first ++ rest → ∀ flag, (w.run S first).ended flag →
        (w.run S calls).events flag = (w.run S first).events flag) ∧
      Along (World.call S) (fun v c => ∀ r x, v.marker c.writeMarker = some (.record r) →
        c.intention = some x → r.qty ≠ x.1 ∨ r.limitPrice ≠ x.2.1 →
          (v.call S c).marker = v.marker) w calls := by
  -- nothing was posted before the run
  have hinv : Inv w := by
    intro flag
    rw [hfresh flag]
    refine ⟨fun hposted => ?_, fun newer e older hsplit => ?_, fun e he => by cases he⟩
    · obtain ⟨e, he, -⟩ := hposted
      cases he
    · simp at hsplit
  have hsteady := hregular.mono (fun v c h => Regular.steady h)
  have hrun := run_inv hinv hsteady
  refine ⟨fun flag => (hrun flag).written, fun flag => (hrun flag).justified, ?_, ?_⟩
  · intro first rest hsplit flag hended
    subst hsplit
    -- the rest of the run starts where the marker was terminal
    have hboth := Along.append.mp hsteady
    have hfrozen := ended_frozen (run_inv hinv hboth.1) hboth.2 hended
    unfold World.run at hfrozen ⊢
    rw [List.foldl_append]
    exact hfrozen.2
  · refine hregular.mono (fun v c h r x hm hx hother => ?_)
    rw [h.unchanged hm hx hother]

def nvda : Setup where
  ticker := "NVDA_US_EQ"
  legacy := none

def untouched : World where
  marker _ := none
  events _ := []

/-- A call for one and a quarter shares; every POST times out. -/
def asking : Call where
  quantity := some (5 / 4)
  limitPrice := some 100
  validity := "DAY"
  dryRun := false
  writeMarker := true
  retryDelay := some 0
  now := 0
  intentId := "1"
  markerReads := true
  legacyReads := true
  orderStatus := .ok none
  activeOrders := .ok (some [])
  portfolio := .ok (some [])
  submit := .raised "TimeoutError: response lost"
  migration := .stored
  reconciliation := .stored
  intent := .stored
  answer := .stored

/-- The second POST of three such calls is justified. -/
theorem asked_three_times :
    (((untouched.run nvda [asking, asking, asking]).events true).filter Event.isPost).length = 2 ∧
      PostsJustified ((untouched.run nvda [asking, asking, asking]).events true) := by
  refine ⟨by decide +kernel, ?_⟩
  exact (one_shot nvda untouched (fun _ => rfl) [asking, asking, asking] (by decide +kernel)).2.1 true

/-- An active order like the one that is asked for. -/
def lookalike (id : String) : Active :=
  { id := some id, ticker := "NVDA_US_EQ", side := some .buy, quantity := some (5 / 4),
    limit := some 100 }

/-- One reconciliation finds two such orders, and does not take back the miss before it: the next miss
is followed by a second POST. -/
theorem finds_are_not_taken_back :
    ¬ PostsJustified ((untouched.run nvda [asking, asking,
      { asking with activeOrders := .ok (some [lookalike "7", lookalike "8"]) },
      asking]).events true) := by
  intro h
  have hpost : ((untouched.run nvda [asking, asking,
      { asking with activeOrders := .ok (some [lookalike "7", lookalike "8"]) },
      asking]).events true).head?.any Event.isPost = true := by decide +kernel
  have hnot : ¬ Justified ((untouched.run nvda [asking, asking,
      { asking with activeOrders := .ok (some [lookalike "7", lookalike "8"]) },
      asking]).events true).tail := by decide +kernel
  generalize (untouched.run nvda _).events true = events at h hpost hnot
  cases events with
  | nil => cases hpost
  | cons e older => exact hnot (h [] e older rfl hpost)

end TradingFleet.Trading212.OneShot
