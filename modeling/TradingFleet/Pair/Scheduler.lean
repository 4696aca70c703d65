import TradingFleet.Pair.Rules

set_option autoImplicit false

/-! # The loop over the active rounds

One iteration of `_run_coordinator_forever` of `rtrade.py`: step every active coordinator,
checkpoint what they export in one batch, drop the rounds that are over and start a new one when
there is room. The rounds share one venue, and one handler around the whole iteration catches
every exception. `active` is a list of objects: what a step did to its coordinator stays when
the iteration is abandoned.

The heartbeat never raises and is left out, as is console output. The pair store and the trend
filter are asked at most twice and once in an iteration; a `Tick` has their answers.
-/

namespace TradingFleet.Pair

open TradingFleet.Hoare TradingFleet.Text

/-! ## The registry -/

/-- One entry of a batch of checkpoints. -/
structure Entry where
  pairId : String
  state : Checkpoint
  terminal : Bool

/-- A step of the iteration: the position, the coordinator before and afterwards, and whether the
step returned. -/
structure Stepped where
  position : Nat
  before : Coordinator
  after : Coordinator
  returned : Bool

/-- The variables of the loop with the log of the venue. `lastStartAt` begins at minus infinity.
`steps`, `saved` and `opened` are what the last iteration stepped, checkpointed in a batch and
started, newest first; nothing reads them. -/
structure Registry where
  active : List Coordinator
  recoveryBlocked : Bool := false
  lastStartAt : Option ℚ := none
  nextDirection : Nat := 0
  sideBackoffUntil : Side → ℚ := fun _ => 0
  log : List Call := []
  steps : List Stepped := []
  saved : List (List Entry) := []
  opened : List Entry := []

/-- What the constructor of the loop checks is a field. The fuel is the recursion limit. -/
structure Limits where
  maxActiveRounds : Nat
  startIntervalSec : ℚ
  directions : List Side
  notional : ℚ
  insufficientFundsBackoffSec : ℚ
  placeFailureBackoffSec : ℚ
  fuel : Nat
  maxActiveRounds_pos : 1 ≤ maxActiveRounds
  startIntervalSec_pos : 0 < startIntervalSec
  directions_nonempty : directions ≠ []
  backoff_pos : 0 < insufficientFundsBackoffSec ∧ 0 < placeFailureBackoffSec

/-- Everything an iteration reads besides its rounds and their venue: the clocks, the answers of
the store and, outside of any round, of the venue and of the trend filter. -/
structure Tick where
  now : ℚ
  exportClock : Nat → ℚ
  checkpointMany : Except String Unit
  venueBlocked : Bool
  trendTooStrong : Except String Bool
  currentPrice : Except String (Option ℚ)
  pairId : String
  startClock : ℚ
  startExportClock : ℚ
  checkpoint : Except String Unit

abbrev Sched := EStateM String Registry

/-! ## Stepping -/

/-- Run a program of one coordinator. `keep` is what becomes of the coordinator. -/
def onRound {α : Type} (c : Coordinator) (x : PairM α)
    (keep : Coordinator → Bool → Registry → Registry) : Sched (Coordinator × α) := fun r =>
  match x ⟨c, r.log⟩ with
  | .ok a w => .ok (w.coord, a) (keep w.coord true { r with log := w.log })
  | .error e w => .error e (keep w.coord false { r with log := w.log })

/-- The coordinator at a position was stepped. -/
def Registry.stepped (i : Nat) (before after : Coordinator) (returned : Bool) (r : Registry) :
    Registry :=
  { r with active := r.active.set i after, steps := ⟨i, before, after, returned⟩ :: r.steps }

/-- The checkpoint of a round that was stepped. -/
def Tick.entry (t : Tick) (i : Nat) (c : Coordinator) (terminal : Bool) : Entry :=
  ⟨c.pairId, exportState c (t.exportClock i), terminal⟩

variable (S : Setup) (L : Limits) (t : Tick)

/-- `coordinator.step(now=now)` and what the loop notes: the rounds that go on, the batch. -/
def stepRound (acc : List Coordinator × List Entry) (i : Nat) :
    Sched (List Coordinator × List Entry) := do
  let r ← get
  match r.active[i]? with
  | none => pure acc
  | some c => do
      let (c, outcome) ← onRound c (step S t.now L.fuel) (Registry.stepped i c)
      pure (if outcome.terminal then acc.1 else acc.1 ++ [c],
        acc.2 ++ [t.entry i c outcome.terminal])

def stepActive : Sched (List Coordinator × List Entry) := do
  let r ← get
  (List.range r.active.length).foldlM (stepRound S L t) ([], [])

/-- `checkpoint_many`: an empty batch does not reach the store. -/
def saveBatch (batch : List Entry) : Sched Unit :=
  match batch with
  | [] => pure ()
  | batch => fun r =>
      match t.checkpointMany with
      | .ok _ => .ok () { r with saved := batch :: r.saved }
      | .error e => .error e r

/-! ## Starting a round -/

/-- The first direction without a backoff, from `next` on, within `n` tries. -/
def pickDirection (now : ℚ) (backoffUntil : Side → ℚ) : Nat → Nat → Option Side × Nat
  | 0, next => (none, next)
  | n + 1, next =>
      match L.directions[next]? with
      | none => (none, next)
      | some candidate =>
          let next := (next + 1) % L.directions.length
          if backoffUntil candidate ≤ now then (some candidate, next)
          else pickDirection now backoffUntil n next

/-- What stands before the first occurrence of a marker. -/
def beforeMarker (marker : List Char) : List Char → Option (List Char)
  | [] => if marker = [] then some [] else none
  | c :: rest =>
      if marker.isPrefixOf (c :: rest) then some []
      else (beforeMarker marker rest).map (c :: ·)

def sideNamed (text : String) : Option Side :=
  if text = Side.buy.text then some .buy
  else if text = Side.sell.text then some .sell
  else none

/-- `_place_failure_backoff`: the side a terminal placement failure throttles, and for how long. -/
def placeFailureBackoff (reason : Option String) : Option Side × ℚ :=
  let reason := lower (strip (reason.getD ""))
  let unfunded := (beforeMarker "_insufficient_funds:".toList reason.toList).bind
    (fun side => sideNamed (upper (String.ofList side)))
  match unfunded with
  | some side => (some side, L.insufficientFundsBackoffSec)
  | none =>
      let suffix := "_place_failed"
      if endsWith reason suffix then
        match sideNamed (upper (firstChars reason (reason.length - suffix.length))) with
        | some side => (some side, L.placeFailureBackoffSec)
        | none => (none, 0)
      else (none, 0)

example (L : Limits) :
    placeFailureBackoff L (some "buy_insufficient_funds:12") =
        (some .buy, L.insufficientFundsBackoffSec) ∧
      placeFailureBackoff L (some "Sell_place_failed") = (some .sell, L.placeFailureBackoffSec) ∧
      placeFailureBackoff L (some "quote_ttl") = (none, 0) := by
  refine ⟨rfl, rfl, rfl⟩

def raise {α : Type} (e : String) : Sched α := throw e

/-- The checkpoint of a new round. The owner was kept in memory before it. -/
def saveStarted (c : Coordinator) (outcome : Coordinator.Outcome) : Sched Unit :=
  match t.checkpoint with
  | .ok _ =>
      let entry : Entry := ⟨c.pairId, exportState c t.startExportClock, outcome.terminal⟩
      modify (fun r => { r with opened := entry :: r.opened })
  | .error e => do
      modify (fun r => { r with recoveryBlocked := true })
      raise e

/-- `PairCoordinator(...)` and its start. -/
def startSideRound (side : Side) (price : ℚ) : Sched Unit := do
  if price = 0 then raise "float division by zero"
  else if h : 0 < L.notional / price then do
    let fresh : Coordinator := { qty := L.notional / price, startSide := side, qty_pos := h }
    let (c, outcome) ← onRound fresh (start S (some price) t.pairId t.startClock) (fun _ _ r => r)
    modify (fun r => { r with
      lastStartAt := some t.now
      active := if outcome.terminal then r.active else r.active ++ [c] })
    saveStarted t c outcome
    if outcome.terminal then
      match placeFailureBackoff L outcome.reason with
      | (some failed, seconds) =>
          modify (fun r => { r with
            sideBackoffUntil := Function.update r.sideBackoffUntil failed (t.now + seconds) })
      | (none, _) => pure ()
    else pure ()
  else raise "rtrade qty must be finite and positive"

/-- `can_start`. -/
def Registry.canStart (r : Registry) : Bool :=
  !r.recoveryBlocked && !t.venueBlocked && r.active.length < L.maxActiveRounds &&
    r.lastStartAt.all (fun last => L.startIntervalSec ≤ t.now - last)

def startRound : Sched Unit := do
  let r ← get
  if r.canStart L t then do
    match t.trendTooStrong with
    | .error e => raise e
    | .ok true => pure ()
    | .ok false =>
        match t.currentPrice with
        | .error e => raise e
        | .ok none => pure ()
        | .ok (some price) => do
            let (side, next) :=
              pickDirection L t.now r.sideBackoffUntil L.directions.length r.nextDirection
            modify (fun r => { r with nextDirection := next })
            match side with
            | none => pure ()
            | some side => startSideRound S L t side price
  else pure ()

/-! ## The iteration -/

def iteration : Sched Unit := do
  let (survivors, batch) ← stepActive S L t
  saveBatch t batch
  modify (fun r => { r with active := survivors })
  startRound S L t

/-- One pass of the loop; the handler leaves everything as it is. -/
def Registry.tick (r : Registry) : Registry :=
  match iteration S L t { r with steps := [], saved := [], opened := [] } with
  | .ok _ r' => r'
  | .error _ r' => r'

/-- The registry after some passes. -/
def Registry.ticks (r : Registry) (passes : List Tick) : Registry :=
  passes.foldl (fun r t => r.tick S L t) r

/-! ## What an iteration owes to the rounds -/

/-- The step returned, or it changed its coordinator before it raised. -/
def Stepped.Progressed (s : Stepped) : Prop := s.returned = true ∨ s.after ≠ s.before

/-- Every round was stepped once, and everyone that made progress is in a batch that was saved, as
its step left it. -/
structure Isolated (n : Nat) (r : Registry) : Prop where
  stepped : ∀ i, i < n → r.steps.countP (fun s => s.position = i) = 1
  saved : ∀ s ∈ r.steps, s.Progressed →
    ∃ batch ∈ r.saved, t.entry s.position s.after s.after.phase.terminal ∈ batch

/-- Stepping the coordinators in turn, none of them raises. -/
def stepsReturn : List Coordinator → List Call → Bool
  | [], _ => true
  | c :: rest, log =>
      match step S t.now L.fuel ⟨c, log⟩ with
      | .ok _ w => stepsReturn rest w.log
      | .error _ _ => false

/-! ## The loop -/

/-- A step reports the phase it leaves. -/
theorem step_terminal (now : ℚ) (fuel : Nat) :
    Triple (fun _ => True) (step S now fuel)
      (fun outcome w => outcome.terminal = w.coord.phase.terminal) (fun _ _ => True) := by
  refine Triple.bind (Q := fun _ _ => True) ?_ (fun _ => ?_)
  · intro w _
    cases stepBody S now fuel w <;> trivial
  · exact Triple.coord (fun c => Triple.pure (fun w hw => by rw [hw.2]; rfl))

/-- After the first `k` steps of an iteration over `active`. -/
structure Progress (active : List Coordinator) (log : List Call) (k : Nat)
    (acc : List Coordinator × List Entry) (r : Registry) : Prop where
  length : r.active.length = active.length
  rest : r.active.drop k = active.drop k
  saved : r.saved = []
  stepped : ∀ i, r.steps.countP (fun s => s.position = i) = if i < k then 1 else 0
  returned : ∀ s ∈ r.steps, s.returned = true
  batch : ∀ s ∈ r.steps, t.entry s.position s.after s.after.phase.terminal ∈ acc.2
  count : acc.2.length = k
  first : k = 0 → r.log = log
  returns : stepsReturn S L t (active.drop k) r.log = stepsReturn S L t active log

/-- The iteration was abandoned in the step at position `k`, which began with `c` and left `w`. -/
structure AbandonedAt (active : List Coordinator) (log : List Call) (r : Registry) (k : Nat)
    (c : Coordinator) (e : String) (w : World) : Prop where
  bound : k < active.length
  at_position : active[k]? = some c
  stepped : ∀ i, r.steps.countP (fun s => s.position = i) = if i ≤ k then 1 else 0
  returned : ∀ s ∈ r.steps, s.returned = true ∧ s.position < k ∨ s = ⟨k, c, w.coord, false⟩
  raised : (⟨k, c, w.coord, false⟩ : Stepped) ∈ r.steps
  first : k = 0 → step S t.now L.fuel ⟨c, log⟩ = .error e w

/-- The iteration was abandoned in the step at some position. -/
structure Abandoned (active : List Coordinator) (log : List Call) (r : Registry) : Prop where
  saved : r.saved = []
  stepped : ∃ k c e w, AbandonedAt S L t active log r k c e w
  raises : stepsReturn S L t active log = false

variable {S L t} {active : List Coordinator} {log : List Call}

theorem Progress.position {k : Nat} {acc : List Coordinator × List Entry} {r : Registry}
    (h : Progress S L t active log k acc r) {s : Stepped} (hs : s ∈ r.steps) : s.position < k := by
  have hpos : 0 < r.steps.countP (fun s' => s'.position = s.position) :=
    List.countP_pos_iff.mpr ⟨s, hs, by simp⟩
  rw [h.stepped s.position] at hpos
  by_contra hk
  rw [if_neg hk] at hpos
  exact absurd hpos (lt_irrefl 0)

/-- The step of the round at a position. -/
theorem stepRound_eq {r : Registry} {k : Nat} {c : Coordinator} (hat : r.active[k]? = some c)
    (acc : List Coordinator × List Entry) :
    stepRound S L t acc k r = EStateM.bind
      (onRound c (step S t.now L.fuel) (Registry.stepped k c)) (fun x => pure
        (if x.2.terminal then acc.1 else acc.1 ++ [x.1], acc.2 ++ [t.entry k x.1 x.2.terminal]))
      r := by
  unfold stepRound
  show (match r.active[k]? with
    | none => pure acc
    | some c => onRound c (step S t.now L.fuel) (Registry.stepped k c) >>= _) r = _
  rw [hat]
  rfl

theorem stepRound_progress (k : Nat) (hk : k < active.length)
    (acc : List Coordinator × List Entry) :
    Triple (Progress S L t active log k acc) (stepRound S L t acc k)
      (Progress S L t active log (k + 1)) (fun _ => Abandoned S L t active log) := by
  intro r h
  obtain ⟨c, hc⟩ : ∃ c, active[k]? = some c := ⟨_, List.getElem?_eq_getElem hk⟩
  have hat : r.active[k]? = some c := by
    have hhead := congrArg List.head? h.rest
    rwa [List.head?_drop, List.head?_drop, hc] at hhead
  have hdrop : active.drop k = c :: active.drop (k + 1) := by
    obtain ⟨_, rfl⟩ := List.getElem?_eq_some_iff.mp hc
    exact List.drop_eq_getElem_cons hk
  have hrest : r.active.drop (k + 1) = active.drop (k + 1) := by
    rw [← List.tail_drop, h.rest, List.tail_drop]
  have hstep := step_terminal S t.now L.fuel ⟨c, r.log⟩ trivial
  have hreturns := h.returns
  rw [hdrop, stepsReturn] at hreturns
  -- each position up to this one was stepped once, and no later one
  have hcount : ∀ (after : Coordinator) (b : Bool) (i : Nat),
      ((⟨k, c, after, b⟩ :: r.steps : List Stepped)).countP (fun s => s.position = i) =
        if i ≤ k then 1 else 0 := by
    intro after b i
    rw [List.countP_cons, h.stepped i]
    rcases Nat.lt_trichotomy i k with hlt | rfl | hgt
    · simp [hlt, hlt.le, hlt.ne']
    · simp
    · simp [hgt.ne, not_lt_of_gt hgt, not_le_of_gt hgt]
  rw [stepRound_eq hat]
  unfold EStateM.bind onRound
  cases hstepped : step S t.now L.fuel ⟨c, r.log⟩ with
  | ok outcome w =>
      rw [hstepped] at hstep hreturns
      have hterminal : outcome.terminal = w.coord.phase.terminal := hstep
      refine ⟨?_, ?_, h.saved, ?_, ?_, ?_, ?_, fun hzero => absurd hzero (Nat.succ_ne_zero k),
        hreturns⟩
      · exact (List.length_set ..).trans h.length
      · show (r.active.set k w.coord).drop (k + 1) = _
        rw [List.drop_set_of_lt (Nat.lt_succ_self k), hrest]
      · intro i
        exact (hcount w.coord true i).trans (by simp only [Nat.lt_succ_iff])
      · intro s hs
        rcases List.mem_cons.mp hs with rfl | hs
        · rfl
        · exact h.returned s hs
      · intro s hs
        rcases List.mem_cons.mp hs with rfl | hs
        · rw [hterminal]
          exact List.mem_append_right _ (List.mem_singleton_self _)
        · exact List.mem_append_left _ (h.batch s hs)
      · show (acc.2 ++ [_]).length = k + 1
        rw [List.length_append, h.count, List.length_singleton]
  | error e w =>
      rw [hstepped] at hreturns
      refine ⟨h.saved, ⟨k, c, e, w, hk, hc, hcount w.coord false, ?_, List.mem_cons_self, ?_⟩,
        hreturns.symm⟩
      · intro s hs
        rcases List.mem_cons.mp hs with rfl | hs
        · exact Or.inr rfl
        · exact Or.inl ⟨h.returned s hs, h.position hs⟩
      · intro hzero
        rw [← h.first hzero]
        exact hstepped

theorem stepActive_progress (r : Registry) (hsteps : r.steps = []) (hsaved : r.saved = []) :
    Triple (· = r) (stepActive S L t) (Progress S L t r.active r.log r.active.length)
      (fun _ => Abandoned S L t r.active r.log) := by
  unfold stepActive
  refine Triple.get (fun r' hr' => ?_)
  rw [hr']
  refine (Triple.rangeM (I := Progress S L t r.active r.log) r.active.length
    (fun k hk acc => stepRound_progress k hk acc) ([], [])).strengthen ?_
  rintro r'' rfl
  refine ⟨rfl, rfl, hsaved, fun i => ?_, fun s hs => ?_, fun s hs => ?_, rfl, fun _ => rfl, rfl⟩
  · rw [hsteps]
    rfl
  · rw [hsteps] at hs
    cases hs
  · rw [hsteps] at hs
    cases hs

/-! ## The rest of an iteration -/

/-- Starting a round leaves what was stepped and saved alone. -/
def SameRecord (r r' : Registry) : Prop := r'.steps = r.steps ∧ r'.saved = r.saved

theorem SameRecord.refl (r : Registry) : SameRecord r r := ⟨rfl, rfl⟩

theorem SameRecord.trans (r r' r'' : Registry) (h : SameRecord r r') (h' : SameRecord r' r'') :
    SameRecord r r'' := ⟨h'.1.trans h.1, h'.2.trans h.2⟩

theorem sameRecord_bind {α β : Type} {x : Sched α} {f : α → Sched β} (hx : Moves SameRecord x)
    (hf : ∀ a, Moves SameRecord (f a)) : Moves SameRecord (x >>= f) :=
  Moves.bind SameRecord.trans hx hf

theorem sameRecord_pure {α : Type} (a : α) : Moves SameRecord (pure a : Sched α) :=
  Moves.pure SameRecord.refl a

theorem sameRecord_raise {α : Type} (e : String) : Moves SameRecord (raise e : Sched α) :=
  Moves.throw SameRecord.refl e

theorem sameRecord_modify {f : Registry → Registry} (h : ∀ r, SameRecord r (f r)) :
    Moves SameRecord (modify f : Sched Unit) := h

theorem sameRecord_get {α : Type} {f : Registry → Sched α} (h : ∀ r, Moves SameRecord (f r)) :
    Moves SameRecord (get >>= f) := fun r => h r r

theorem startSideRound_record (side : Side) (price : ℚ) :
    Moves SameRecord (startSideRound S L t side price) := by
  unfold startSideRound
  split
  · exact sameRecord_raise _
  split
  · rename_i h
    refine sameRecord_bind (fun r => ?_) (fun started => ?_)
    · unfold onRound
      cases start S (some price) t.pairId t.startClock
          ⟨{ qty := L.notional / price, startSide := side, qty_pos := h }, r.log⟩ with
      | ok a w => exact ⟨rfl, rfl⟩
      | error e w => exact ⟨rfl, rfl⟩
    refine sameRecord_bind (sameRecord_modify (fun r => ⟨rfl, rfl⟩)) (fun _ => ?_)
    refine sameRecord_bind ?_ (fun _ => ?_)
    · unfold saveStarted
      split
      · exact sameRecord_modify (fun r => ⟨rfl, rfl⟩)
      · exact sameRecord_bind (sameRecord_modify (fun r => ⟨rfl, rfl⟩))
          (fun _ => sameRecord_raise _)
    · split
      · split
        · exact sameRecord_modify (fun r => ⟨rfl, rfl⟩)
        · exact sameRecord_pure ()
      · exact sameRecord_pure ()
  · exact sameRecord_raise _

theorem startRound_record : Moves SameRecord (startRound S L t) := by
  refine sameRecord_get (fun r => ?_)
  split
  · split
    · exact sameRecord_raise _
    · exact sameRecord_pure ()
    · split
      · exact sameRecord_raise _
      · exact sameRecord_pure ()
      · refine sameRecord_bind (sameRecord_modify (fun r => ⟨rfl, rfl⟩)) (fun _ => ?_)
        split
        · exact sameRecord_pure ()
        · exact startSideRound_record _ _
  · exact sameRecord_pure ()

/-! ## Which iterations isolate their rounds -/

/-- No step raises and the store takes the batch, or the only round raises and is left as it was. -/
def IsolatesRounds (S : Setup) (L : Limits) (t : Tick) (r : Registry) : Prop :=
  (stepsReturn S L t r.active r.log = true ∧ (r.active = [] ∨ t.checkpointMany.isOk = true)) ∨
    ∃ c e w, r.active = [c] ∧ step S t.now L.fuel ⟨c, r.log⟩ = .error e w ∧ w.coord = c

theorem stepsReturn_raising {c : Coordinator} {e : String} {w : World}
    (h : step S t.now L.fuel ⟨c, log⟩ = .error e w) : stepsReturn S L t [c] log = false := by
  rw [stepsReturn, h]

theorem Isolated.of_same {n : Nat} {r r' : Registry} (h : SameRecord r r') :
    Isolated t n r' ↔ Isolated t n r := by
  constructor
  · intro h'
    exact ⟨by rw [← h.1]; exact h'.stepped, by rw [← h.1, ← h.2]; exact h'.saved⟩
  · intro h'
    exact ⟨by rw [h.1]; exact h'.stepped, by rw [h.1, h.2]; exact h'.saved⟩

/-- The step at a position that was stepped. -/
theorem stepped_at {r : Registry} {i : Nat} (h : r.steps.countP (fun s => s.position = i) = 1) :
    ∃ s ∈ r.steps, s.position = i := by
  obtain ⟨s, hs, hpos⟩ := List.countP_pos_iff.mp (by rw [h]; exact Nat.one_pos)
  exact ⟨s, hs, of_decide_eq_true hpos⟩

theorem Abandoned.isolated_iff {r₀ r : Registry} (h : Abandoned S L t r₀.active r₀.log r) :
    Isolated t r₀.active.length r ↔ IsolatesRounds S L t r₀ := by
  obtain ⟨k, c, e, w, hat⟩ := h.stepped
  constructor
  · intro hisolated
    -- nothing was saved, so nobody made progress: no step returned, and the one that raised
    -- changed nothing
    have hidle : ∀ s ∈ r.steps, ¬ s.Progressed := by
      intro s hs hprogress
      obtain ⟨batch, hbatch, -⟩ := hisolated.saved s hs hprogress
      rw [h.saved] at hbatch
      cases hbatch
    have hlast : r₀.active.length ≤ k + 1 := by
      by_contra hmore
      have hnext := hisolated.stepped (k + 1) (by omega)
      rw [hat.stepped (k + 1), if_neg (by omega)] at hnext
      cases hnext
    have hfirst : k = 0 := by
      by_contra hpos
      have hbound := hat.bound
      obtain ⟨s, hs, hzero⟩ := stepped_at (hisolated.stepped 0 (by omega))
      rcases hat.returned s hs with ⟨hreturned, -⟩ | rfl
      · exact hidle s hs (Or.inl hreturned)
      · exact hpos hzero
    have hone : r₀.active = [c] := by
      obtain ⟨c', hc'⟩ := List.length_eq_one_iff.mp (show r₀.active.length = 1 by
        have hbound := hat.bound
        omega)
      have hhead := hat.at_position
      rw [hfirst, hc'] at hhead
      rw [hc', Option.some.inj hhead]
    refine Or.inr ⟨c, e, w, hone, hat.first hfirst, ?_⟩
    by_contra hchanged
    exact hidle _ hat.raised (Or.inr hchanged)
  · rintro (⟨hreturn, -⟩ | ⟨c', e', w', hone, hraise, hsame⟩)
    · rw [h.raises] at hreturn
      cases hreturn
    have hzero : k = 0 := by
      have hbound := hat.bound
      rw [hone, List.length_singleton] at hbound
      omega
    have hc : c' = c := by
      have hhead := hat.at_position
      rw [hzero, hone] at hhead
      exact Option.some.inj hhead
    subst hc
    have hw : w = w' := by
      have hresult := (hat.first hzero).symm.trans hraise
      injection hresult
    subst hw
    refine ⟨fun i hi => ?_, fun s hs hprogress => ?_⟩
    · rw [hone, List.length_singleton] at hi
      rw [hat.stepped i, if_pos (by omega)]
    · rcases hat.returned s hs with ⟨-, hlt⟩ | rfl
      · omega
      · rcases hprogress with hreturned | hchanged
        · cases hreturned
        · exact absurd hsame hchanged

theorem saveBatch_isolated (r₀ : Registry) (acc : List Coordinator × List Entry) :
    Triple (Progress S L t r₀.active r₀.log r₀.active.length acc) (saveBatch t acc.2)
      (fun _ r => Isolated t r₀.active.length r ∧ IsolatesRounds S L t r₀)
      (fun _ r => ¬ Isolated t r₀.active.length r ∧ ¬ IsolatesRounds S L t r₀) := by
  intro r h
  have hreturns : stepsReturn S L t r₀.active r₀.log = true := by
    rw [← h.returns, List.drop_length]
    rfl
  have hstepped : ∀ i, i < r₀.active.length → r.steps.countP (fun s => s.position = i) = 1 := by
    intro i hi
    rw [h.stepped i, if_pos hi]
  cases hbatch : acc.2 with
  | nil =>
      have hlen : r₀.active.length = 0 := by rw [← h.count, hbatch, List.length_nil]
      refine ⟨⟨hstepped, fun s hs _ => ?_⟩, Or.inl ⟨hreturns, Or.inl ?_⟩⟩
      · have hposition := h.position hs
        omega
      · exact List.length_eq_zero_iff.mp hlen
  | cons entry rest =>
      have hlen : r₀.active.length = rest.length + 1 := by rw [← h.count, hbatch, List.length_cons]
      unfold saveBatch
      cases hstore : t.checkpointMany with
      | ok _ =>
          refine ⟨⟨hstepped, fun s hs _ => ⟨entry :: rest, List.mem_cons_self, ?_⟩⟩,
            Or.inl ⟨hreturns, Or.inr (by rw [hstore]; rfl)⟩⟩
          have hmem := h.batch s hs
          rwa [hbatch] at hmem
      | error e =>
          refine ⟨fun hisolated => ?_, ?_⟩
          · obtain ⟨s, hs, -⟩ := stepped_at (hstepped 0 (by omega))
            obtain ⟨batch, hmem, -⟩ := hisolated.saved s hs (Or.inl (h.returned s hs))
            rw [show r.saved = [] from h.saved] at hmem
            cases hmem
          · rintro (⟨-, hnil | hok⟩ | ⟨c, e', w, hone, hraise, -⟩)
            · rw [hnil] at hlen
              cases hlen
            · rw [hstore] at hok
              cases hok
            · rw [hone, stepsReturn_raising hraise] at hreturns
              cases hreturns

/-- The rounds of an iteration and what it does to them. -/
theorem iteration_isolated (r : Registry) (hsteps : r.steps = []) (hsaved : r.saved = []) :
    Triple (· = r) (iteration S L t)
      (fun _ r' => Isolated t r.active.length r' ↔ IsolatesRounds S L t r)
      (fun _ r' => Isolated t r.active.length r' ↔ IsolatesRounds S L t r) := by
  unfold iteration
  refine Triple.bind (Q := Progress S L t r.active r.log r.active.length) ?_ (fun acc => ?_)
  · exact (stepActive_progress r hsteps hsaved).conseq (fun _ h => h) (fun _ _ h => h)
      (fun _ _ h => h.isolated_iff)
  refine Triple.bind ((saveBatch_isolated r acc).conseq (fun _ h => h) (fun _ _ h => h)
    (fun _ _ h => iff_of_false h.1 h.2)) (fun _ => ?_)
  refine Triple.bind (Q := fun _ r' =>
    Isolated t r.active.length r' ∧ IsolatesRounds S L t r) ?_ (fun _ => ?_)
  · refine Triple.updates (fun r' h => ?_)
    have hsame : SameRecord r' { r' with active := acc.1 } := ⟨rfl, rfl⟩
    exact ⟨(Isolated.of_same hsame).mpr h.1, h.2⟩
  · refine startRound_record.triple (fun r' r'' h hsame => ?_)
    exact iff_of_true ((Isolated.of_same hsame).mpr h.1) h.2

/-- **When the rounds are isolated.** In every pass of every run of the loop, every active
coordinator is stepped once and everyone that made progress is checkpointed, if and only if no
step raises and the store takes the batch, or the round that raises is alone and left as it was. -/
theorem rounds_isolated_iff (S : Setup) (L : Limits) (start : Registry) (passes : List Tick)
    (t : Tick) :
    Isolated t (start.ticks S L passes).active.length ((start.ticks S L passes).tick S L t) ↔
      IsolatesRounds S L t (start.ticks S L passes) := by
  have hpost := iteration_isolated (S := S) (L := L) (t := t)
    { start.ticks S L passes with steps := [], saved := [], opened := [] } rfl rfl _ rfl
  unfold Registry.tick
  cases hrun : iteration S L t
      { start.ticks S L passes with steps := [], saved := [], opened := [] } with
  | ok _ r' =>
      rw [hrun] at hpost
      exact hpost
  | error _ r' =>
      rw [hrun] at hpost
      exact hpost

/-- Two rounds with one order each at a venue that does not know the order of the first one. -/
def lostOrder : Setup where
  policy := samplePolicy
  venue := { sampleVenue with
    orderStatus := fun _ orderId =>
      if orderId = "A" then .error "unknown order" else .ok OrderSnapshot.unread }

def quotedRound (pairId orderId : String) : Coordinator where
  qty := 10
  startSide := .buy
  qty_pos := (sampleTicket orderId .buy Revision.zero).qty_pos
  pairId := pairId
  phase := .quoting
  tickets := [sampleTicket orderId .buy Revision.zero]

def sampleLimits : Limits where
  maxActiveRounds := 2
  startIntervalSec := 60
  directions := [.buy, .sell]
  notional := 100
  insufficientFundsBackoffSec := 600
  placeFailureBackoffSec := 60
  fuel := 1000
  maxActiveRounds_pos := by decide
  startIntervalSec_pos := by decide +kernel
  directions_nonempty := by decide
  backoff_pos := by decide +kernel

def sampleTick : Tick where
  now := 1
  exportClock := fun _ => 1
  checkpointMany := .ok ()
  venueBlocked := false
  trendTooStrong := .ok true
  currentPrice := .ok (some 100)
  pairId := "pair-3"
  startClock := 1
  startExportClock := 1
  checkpoint := .ok ()

/-- Where the venue knows both orders, the two rounds are stepped and checkpointed. -/
theorem quoted_rounds_isolated :
    Isolated sampleTick 2 (Registry.tick ⟨sampleVenue, samplePolicy⟩ sampleLimits sampleTick
      { active := [quotedRound "pair-1" "A", quotedRound "pair-2" "B"] }) :=
  (rounds_isolated_iff ⟨sampleVenue, samplePolicy⟩ sampleLimits
    { active := [quotedRound "pair-1" "A", quotedRound "pair-2" "B"] } [] sampleTick).mpr
    (Or.inl ⟨by decide +kernel, Or.inr rfl⟩)

/-- The second round is not stepped. -/
theorem lost_order_stops_others :
    ¬ ∀ (S : Setup) (L : Limits) (r : Registry) (t : Tick), t.checkpointMany.isOk = true →
      Isolated t r.active.length (r.tick S L t) := by
  intro h
  have htwo := (h lostOrder sampleLimits
    { active := [quotedRound "pair-1" "A", quotedRound "pair-2" "B"] } sampleTick rfl).stepped 1
    (by decide)
  revert htwo
  decide +kernel

/-! ## A round that raises on every tick -/

/-- Reading the coordinator where it is known. -/
theorem knownCoord_triple {α : Type} {c : Coordinator} {f : Coordinator → PairM α}
    {Q : α → World → Prop} {E : String → World → Prop}
    (h : Triple (fun w => w.coord = c) (f c) Q E) :
    Triple (fun w => w.coord = c) (coord >>= f) Q E := by
  refine Triple.coord (fun c' w hw => ?_)
  have hc : c = c' := hw.1.symm.trans hw.2
  exact hc ▸ h w hw.1

/-- The read of the first order of a round raises, so its step does, and nothing is changed. -/
theorem step_raises {c : Coordinator} {first : OrderTicket} {others : List OrderTicket}
    (hphase : c.phase.terminal = false) (htickets : c.tickets = first :: others) {e : Nat → String}
    (hvenue : ∀ n, S.venue.orderStatus n first.orderId = .error (e n)) (now : ℚ) (fuel : Nat) :
    Triple (fun w => w.coord = c) (step S now fuel) (fun _ _ => False)
      (fun _ w => w.coord = c) := by
  -- the reads are one loop, and it ends in its first pass
  have hread : Triple (fun w => w.coord = c) (refreshOne S 0) (fun _ _ => False)
      (fun _ w => w.coord = c) := by
    refine knownCoord_triple ?_
    rw [htickets]
    refine Triple.bind (Q := fun answer w => (∃ n, answer = .error (e n)) ∧ w.coord = c) ?_
      (fun answer => ?_)
    · exact fun w hw => ⟨⟨w.log.length, hvenue _⟩, hw⟩
    · rintro w ⟨⟨n, rfl⟩, hw⟩
      exact hw
  have hrefresh : Triple (fun w => w.coord = c) (refresh S) (fun _ _ => False)
      (fun _ w => w.coord = c) := by
    refine knownCoord_triple ?_
    refine Triple.bind (Q := fun _ _ => False) ?_ (fun _ w hw => hw.elim)
    rw [htickets, List.length_cons, List.range_succ_eq_map, List.foldlM_cons]
    exact Triple.bind hread (fun _ w hw => hw.elim)
  refine Triple.bind (Q := fun _ _ => False) ?_ (fun _ w hw => hw.elim)
  cases fuel with
  | zero => exact Triple.throw (fun _ hw => hw)
  | succ fuel =>
      refine knownCoord_triple ?_
      rw [hphase]
      refine Triple.ite (fun h => absurd h (by decide)) (fun _ => ?_)
      refine Triple.ite (fun _ => Triple.throw (fun _ hw => hw)) (fun _ => ?_)
      exact Triple.bind hrefresh (fun _ w hw => hw.elim)

theorem tick_starved {r : Registry} {c : Coordinator} {rest : List Coordinator}
    {first : OrderTicket} {others : List OrderTicket} (hactive : r.active = c :: rest)
    (hphase : c.phase.terminal = false) (htickets : c.tickets = first :: others) {e : Nat → String}
    (hvenue : ∀ n, S.venue.orderStatus n first.orderId = .error (e n)) :
    (r.tick S L t).active = c :: rest ∧ (r.tick S L t).saved = [] ∧
      ∀ s ∈ (r.tick S L t).steps, s.position = 0 := by
  have hround : Triple (fun r' => r' = { r with steps := [], saved := [], opened := [] })
      (stepRound S L t ([], []) 0) (fun _ _ => False)
      (fun _ r' => r'.active = c :: rest ∧ r'.saved = [] ∧ ∀ s ∈ r'.steps, s.position = 0) := by
    rintro r' rfl
    have hstep := step_raises hphase htickets hvenue t.now L.fuel ⟨c, r.log⟩ rfl
    have hat : ({ r with steps := [], saved := [], opened := [] } : Registry).active[0]? = some c := by
      show r.active[0]? = some c
      rw [hactive]
      rfl
    rw [stepRound_eq hat]
    unfold EStateM.bind onRound
    cases hstepped : step S t.now L.fuel ⟨c, r.log⟩ with
    | ok outcome w =>
        rw [hstepped] at hstep
        exact hstep.elim
    | error e w =>
        rw [hstepped] at hstep
        have hcoord : w.coord = c := hstep
        -- only the first step was made, and it raised
        refine ⟨?_, rfl, fun s hs => ?_⟩
        · show r.active.set 0 w.coord = c :: rest
          rw [hactive, hcoord]
          rfl
        · rw [List.mem_singleton.mp hs]
  have hactiveStep : Triple (fun r' => r' = { r with steps := [], saved := [], opened := [] })
      (stepActive S L t) (fun _ _ => False)
      (fun _ r' => r'.active = c :: rest ∧ r'.saved = [] ∧ ∀ s ∈ r'.steps, s.position = 0) := by
    refine Triple.get (fun r' hr' => ?_)
    have hlen : r'.active.length = rest.length + 1 := by
      rw [hr']
      exact congrArg List.length hactive
    rw [hlen, List.range_succ_eq_map, List.foldlM_cons, hr']
    exact Triple.bind hround (fun _ w hw => hw.elim)
  have hpost : Triple (fun r' => r' = { r with steps := [], saved := [], opened := [] })
      (iteration S L t) (fun _ _ => False)
      (fun _ r' => r'.active = c :: rest ∧ r'.saved = [] ∧ ∀ s ∈ r'.steps, s.position = 0) :=
    Triple.bind hactiveStep (fun _ w hw => hw.elim)
  have hend := hpost _ rfl
  unfold Registry.tick
  cases hrun : iteration S L t { r with steps := [], saved := [], opened := [] } with
  | ok _ r' =>
      rw [hrun] at hend
      exact hend.elim
  | error _ r' =>
      rw [hrun] at hend
      exact hend

/-- **A raising round starves the others.** A round at the head of the registry whose first order
cannot be read keeps every other round from being stepped and saved, pass after pass. -/
theorem raising_round_starves {c : Coordinator} {rest : List Coordinator} {first : OrderTicket}
    {others : List OrderTicket} (start : Registry) (hactive : start.active = c :: rest)
    (hphase : c.phase.terminal = false) (htickets : c.tickets = first :: others) {e : Nat → String}
    (hvenue : ∀ n, S.venue.orderStatus n first.orderId = .error (e n)) (passes : List Tick)
    (t : Tick) :
    (start.ticks S L passes).active = c :: rest ∧
      ((start.ticks S L passes).tick S L t).saved = [] ∧
      ∀ s ∈ ((start.ticks S L passes).tick S L t).steps, s.position = 0 := by
  have hkept : (start.ticks S L passes).active = c :: rest := by
    unfold Registry.ticks
    induction passes generalizing start with
    | nil => exact hactive
    | cons t passes ih => exact ih _ (tick_starved hactive hphase htickets hvenue).1
  exact ⟨hkept, (tick_starved hkept hphase htickets hvenue).2⟩

end TradingFleet.Pair
