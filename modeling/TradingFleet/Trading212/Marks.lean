import TradingFleet.Trading212.Step

set_option autoImplicit false

/-! # Trading 212: what a program leaves of the exit mark

A protective exit sets `slPending`, and the close of the cycle reads it. `Carries` says of a program
that it places no exit (`free`), that it keeps the mark until the first close (`keep`) and that it
closes no cycle (`quiet`), in live and in paper mode. Every program beside the two exit checks does
the first two, and every one beside the reconciliation the third.
-/

namespace TradingFleet.Trading212

open TradingFleet.Text hiding orElse
open TradingFleet.Lifecycle TradingFleet.Hoare
open TradingFleet.Rounding (roundTo)

/-! ## Exits and closes -/

def Kind.protective : Kind → Bool
  | .tr => true
  | .sl => true
  | _ => false

/-- `_place_sell` returns `True` after this outcome. -/
def placed (outcome : SubmissionOutcome) : Bool :=
  outcome.state = .accepted ||
    (outcome.state ≠ .refused && !mentions outcome.reason "selling-equity-not-owned")

/-- The SELL of a protective exit is placed. -/
def Event.placesExit : Event → Bool
  | .submit p outcome => p.kind.protective && placed outcome
  | _ => false

def Event.closes : Event → Bool
  | .closed => true
  | _ => false

/-- The first close among new entries (newest first) finds the mark, if it was set before them. -/
def FirstClose (new : List Entry) (mark : Bool) : Prop :=
  ∃ newer e older, new = newer ++ e :: older ∧ e.event.closes = true ∧
    (∀ a ∈ older, a.event.closes = false) ∧ (mark = true → e.before.slPending = true)

/-- The mark stays, in memory and in the file, or a close has found it. -/
def MarkKept (new : List Entry) (w w' : World) : Prop :=
  ((∀ e ∈ new, e.event.closes = false) ∧ (w.s.slPending = true → w'.s.slPending = true) ∧
    (w.s.slPending = true → w.saved.slPending = true → w'.saved.slPending = true)) ∨
    FirstClose new w.s.slPending

/-- What a program does about protective exits: with `free` it places none, with `keep` it keeps the
mark, with `quiet` it closes no cycle. On paper a placed SELL is a new tracked order. -/
structure Carries (S : Setup) (free keep quiet : Bool) (w w' : World) : Prop where
  log : ∃ new, w'.log = new ++ w.log ∧ (free = true → ∀ e ∈ new, e.event.placesExit = false) ∧
    (keep = true → MarkKept new w w') ∧ (quiet = true → ∀ e ∈ new, e.event.closes = false)
  paper : free = true → S.dryRun = true →
    ∀ o, o.kind.protective = true → w'.s.orders.count o ≤ w.s.orders.count o

variable {S : Setup} {free keep quiet : Bool} {w w' w'' : World} {α β : Type}

theorem FirstClose.before {new old : List Entry} {mark mark' : Bool} (h : FirstClose new mark')
    (hold : ∀ a ∈ old, a.event.closes = false) (hmark : mark = true → mark' = true) :
    FirstClose (new ++ old) mark := by
  obtain ⟨newer, e, older, rfl, hcloses, holder, hfound⟩ := h
  refine ⟨newer, e, older ++ old, by simp, hcloses, fun a ha => ?_, fun h => hfound (hmark h)⟩
  rcases List.mem_append.mp ha with ha | ha
  · exact holder a ha
  · exact hold a ha

theorem FirstClose.after {new old : List Entry} {mark : Bool} (h : FirstClose old mark) :
    FirstClose (new ++ old) mark := by
  obtain ⟨newer, e, older, rfl, hrest⟩ := h
  exact ⟨new ++ newer, e, older, by simp, hrest⟩

theorem MarkKept.trans {new old : List Entry} (h : MarkKept old w w') (h' : MarkKept new w' w'') :
    MarkKept (new ++ old) w w'' := by
  rcases h with ⟨hquiet, hmark, hsaved⟩ | hclose
  · rcases h' with ⟨hquiet', hmark', hsaved'⟩ | hclose'
    · refine Or.inl ⟨fun e he => ?_, fun hw => hmark' (hmark hw), fun hw hs => ?_⟩
      · rcases List.mem_append.mp he with he | he
        · exact hquiet' e he
        · exact hquiet e he
      · exact hsaved' (hmark hw) (hsaved hw hs)
    · exact Or.inr (hclose'.before hquiet hmark)
  · exact Or.inr hclose.after

theorem Carries.refl : Carries S free keep quiet w w :=
  ⟨⟨[], rfl, fun _ e he => (by cases he),
    fun _ => Or.inl ⟨fun e he => (by cases he), id, fun _ => id⟩, fun _ e he => (by cases he)⟩,
    fun _ _ _ _ => le_refl _⟩

theorem Carries.trans (h : Carries S free keep quiet w w') (h' : Carries S free keep quiet w' w'') :
    Carries S free keep quiet w w'' := by
  obtain ⟨old, hold, hfree, hkept, hquiet⟩ := h.log
  obtain ⟨new, hnew, hfree', hkept', hquiet'⟩ := h'.log
  refine ⟨⟨new ++ old, by rw [hnew, hold, List.append_assoc], fun hf e he => ?_,
    fun hk => (hkept hk).trans (hkept' hk), fun hq e he => ?_⟩,
    fun hf hdry o ho => (h'.paper hf hdry o ho).trans (h.paper hf hdry o ho)⟩
  · rcases List.mem_append.mp he with he | he
    · exact hfree' hf e he
    · exact hfree hf e he
  · rcases List.mem_append.mp he with he | he
    · exact hquiet' hq e he
    · exact hquiet hq e he

/-- A change of the state alone. -/
theorem Carries.changed {s : State} (hmark : keep = true → w.s.slPending = true → s.slPending = true)
    (hpaper : free = true → S.dryRun = true →
      ∀ o, o.kind.protective = true → s.orders.count o ≤ w.s.orders.count o) :
    Carries S free keep quiet w { w with s := s } :=
  ⟨⟨[], rfl, fun _ e he => (by cases he),
    fun hk => Or.inl ⟨fun e he => (by cases he), hmark hk, fun _ => id⟩,
    fun _ e he => (by cases he)⟩, hpaper⟩

/-- A change of anything else; a save is one. -/
theorem Carries.outside (hs : w'.s = w.s) (hlog : w'.log = w.log)
    (hsaved : w'.saved = w.saved ∨ w'.saved = w.s) : Carries S free keep quiet w w' := by
  refine ⟨⟨[], hlog, fun _ e he => (by cases he),
    fun _ => Or.inl ⟨fun e he => (by cases he), ?_, ?_⟩, fun _ e he => (by cases he)⟩,
    fun _ _ o _ => ?_⟩
  · rw [hs]
    exact id
  · intro hmark hfile
    rcases hsaved with hsame | hwritten
    · rw [hsame]
      exact hfile
    · rw [hwritten]
      exact hmark
  · rw [hs]

/-! ## Rules -/

/-- What `Carries` says of a whole program. -/
abbrev Carrying (S : Setup) (free keep quiet : Bool) (x : StratM α) : Prop :=
  Moves (Carries S free keep quiet) x

theorem carrying_pure (a : α) : Carrying S free keep quiet (pure a : StratM α) :=
  Moves.pure (fun _ => Carries.refl) a

theorem carrying_raise (e : Exc) : Carrying S free keep quiet (raise e : StratM α) :=
  Moves.throw (fun _ => Carries.refl) (Stop.raised e)

theorem carrying_bind {x : StratM α} {f : α → StratM β} (hx : Carrying S free keep quiet x)
    (hf : ∀ a, Carrying S free keep quiet (f a)) : Carrying S free keep quiet (x >>= f) :=
  Moves.bind (R := Carries S free keep quiet) (fun _ _ _ h h' => h.trans h') hx hf

theorem carrying_ite {c : Prop} [Decidable c] {x y : StratM α} (hx : Carrying S free keep quiet x)
    (hy : Carrying S free keep quiet y) : Carrying S free keep quiet (if c then x else y) := by
  by_cases h : c
  · rw [if_pos h]
    exact hx
  · rw [if_neg h]
    exact hy

theorem carrying_foldlM {f : α → β → StratM α} (h : ∀ acc b, Carrying S free keep quiet (f acc b))
    (acc : α) (l : List β) : Carrying S free keep quiet (l.foldlM f acc) :=
  Moves.foldlM (fun _ => Carries.refl) (fun _ _ _ h h' => Carries.trans h h') h acc l

theorem carrying_forM {f : β → StratM PUnit} (h : ∀ b, Carrying S free keep quiet (f b))
    (l : List β) : Carrying S free keep quiet (l.forM f) := by
  induction l with
  | nil => exact carrying_pure _
  | cons b rest ih =>
      rw [List.forM_eq_forM, List.forM_cons]
      exact carrying_bind (h b) (fun _ => ih)

theorem carrying_state {f : State → StratM β} (h : ∀ s, Carrying S free keep quiet (f s)) :
    Carrying S free keep quiet (state >>= f) := fun w => h w.s w

theorem carrying_get {f : World → StratM β} (h : ∀ v, Carrying S free keep quiet (f v)) :
    Carrying S free keep quiet (get >>= f) := fun w => h w w

theorem carrying_ask (answer : Nat → Except Stop α) : Carrying S free keep quiet (ask answer) := by
  intro w
  have hcalled : Carries S free keep quiet w { w with calls := w.calls + 1 } :=
    Carries.outside rfl rfl (Or.inl rfl)
  unfold ask
  cases answer w.calls with
  | ok x => exact hcalled
  | error e => exact hcalled

theorem carrying_mark {e : Event} (hexit : free = true → e.placesExit = false)
    (hclose : e.closes = false) : Carrying S free keep quiet (mark e) := by
  intro w
  have hquiet : ∀ a ∈ [(⟨w.s, e⟩ : Entry)], a.event.closes = false := by
    intro a ha
    rw [List.mem_singleton.mp ha]
    exact hclose
  refine ⟨⟨[⟨w.s, e⟩], rfl, fun hf a ha => ?_, fun _ => Or.inl ⟨hquiet, id, fun _ => id⟩,
    fun _ => hquiet⟩, fun _ _ _ _ => le_refl _⟩
  rw [List.mem_singleton.mp ha]
  exact hexit hf

/-- An update that leaves the mark and the orders alone. -/
theorem carrying_update {f : State → State} (hmark : ∀ s, (f s).slPending = s.slPending)
    (horders : ∀ s, (f s).orders = s.orders) : Carrying S free keep quiet (update f) := by
  intro w
  refine Carries.changed (fun _ h => ?_) (fun _ _ o _ => ?_)
  · rw [hmark]
    exact h
  · rw [horders]

/-- One that also removes orders, or adds some that are no exits. -/
theorem carrying_orders {f : State → State} (hmark : ∀ s, (f s).slPending = s.slPending)
    (horders : S.dryRun = true → ∀ s o, o.kind.protective = true →
      (f s).orders.count o ≤ s.orders.count o) : Carrying S free keep quiet (update f) := by
  intro w
  refine Carries.changed (fun _ h => ?_) (fun _ hdry o ho => horders hdry w.s o ho)
  rw [hmark]
  exact h

/-- The close and the new cycle. -/
theorem carrying_close (P : StratParams) (price : ℚ) :
    Carrying S free keep false (do mark .closed; update (fun s => s.nextCycle P price)) := by
  intro w
  refine ⟨⟨[⟨w.s, .closed⟩], rfl, fun _ a ha => ?_, fun _ => Or.inr ?_, fun h => (by cases h)⟩,
    fun _ _ o _ => ?_⟩
  · rw [List.mem_singleton.mp ha]
    rfl
  · exact ⟨[], _, [], rfl, rfl, fun a ha => (by cases ha), id⟩
  · exact Nat.zero_le _

theorem carrying_save : Carrying S free keep quiet (save S) := by
  intro w
  have hfailed : Carries S free keep quiet w { w with writeFailed := true, calls := w.calls + 1 } :=
    Carries.outside rfl rfl (Or.inl rfl)
  have hstored : ∀ failed, Carries S free keep quiet w
      { w with saved := w.s, writeFailed := failed, calls := w.calls + 1 } :=
    fun failed => Carries.outside rfl rfl (Or.inr rfl)
  unfold save
  cases S.venue.save w.calls with
  | stored => exact hstored false
  | failed =>
      by_cases hdry : S.dryRun = true
      · simp only [hdry, if_true]
        exact hfailed
      · simp only [hdry]
        exact hfailed
  | crashed replaced =>
      by_cases hreplaced : replaced = true
      · simp only [hreplaced, if_true]
        exact hstored true
      · simp only [hreplaced]
        exact hfailed

/-! ## Placing and cancelling -/

theorem persistPendingSubmit_carrying (pending : Option Pending) :
    Carrying S free keep quiet (persistPendingSubmit S pending) :=
  carrying_bind (carrying_update (fun _ => rfl) (fun _ => rfl)) (fun _ => carrying_save)

/-- What follows may use the kind of the new submit. -/
theorem newPendingSubmit_carrying {side : Side} {qty limit : ℚ} {amount : Option ℚ} {kind : Kind}
    {level : Option ℚ} {market : Bool} {f : Pending → StratM β}
    (h : ∀ p : Pending, p.kind = kind → Carrying S free keep quiet (f p)) :
    Carrying S free keep quiet
      (newPendingSubmit S side qty limit amount kind level market >>= f) := by
  unfold newPendingSubmit
  simp only [bind_assoc, pure_bind]
  exact carrying_get (fun _ => carrying_bind (carrying_ask _) (fun _ => h _ rfl))

/-- A pending submit is adopted in live mode only. -/
theorem adoptPendingSubmit_carrying (hlive : S.dryRun = false) (orderId : String) :
    Carrying S free keep quiet (adoptPendingSubmit S orderId) := by
  refine carrying_state (fun s => ?_)
  cases s.pendingSubmit with
  | none => exact carrying_raise _
  | some p =>
      refine carrying_bind (carrying_mark (fun _ => rfl) rfl) (fun _ => ?_)
      refine carrying_bind (carrying_orders (fun _ => rfl) (fun hdry => ?_)) (fun _ => carrying_save)
      rw [hlive] at hdry
      cases hdry

theorem submitPendingOrder_carrying (hlive : S.dryRun = false) {p : Pending}
    (hp : free = true → p.kind.protective = false) :
    Carrying S free keep quiet (submitPendingOrder S p) := by
  refine carrying_bind (persistPendingSubmit_carrying _) (fun _ => ?_)
  refine carrying_bind (carrying_ask _) (fun answer => ?_)
  extract_lets outcome
  have hexit : free = true → (Event.submit p outcome).placesExit = false := by
    intro hfree
    show (p.kind.protective && placed outcome) = false
    rw [hp hfree, Bool.false_and]
  refine carrying_bind (carrying_mark hexit rfl) (fun _ => ?_)
  cases outcome.state with
  | accepted =>
      exact carrying_bind (adoptPendingSubmit_carrying hlive _) (fun _ => carrying_pure _)
  | refused => exact carrying_bind (persistPendingSubmit_carrying _) (fun _ => carrying_pure _)
  | unknown => exact carrying_bind (persistPendingSubmit_carrying _) (fun _ => carrying_pure _)

theorem placePaper_carrying {o : String → ℚ → Order}
    (ho : free = true → ∀ id t, (o id t).kind.protective = false) :
    Carrying S free keep quiet (placePaper S o) := by
  refine carrying_bind (carrying_ask _) (fun t w => ?_)
  refine ⟨⟨[], rfl, fun _ e he => (by cases he), fun _ => Or.inl ⟨fun e he => (by cases he), id,
    fun _ => id⟩, fun _ e he => (by cases he)⟩, fun hfree _ o' ho' => ?_⟩
  have hother : o ("PAPER-" ++ toString (w.paperSeq + 1)) t ≠ o' := by
    intro heq
    rw [← heq, ho hfree] at ho'
    cases ho'
  show (w.s.orders ++ [_]).count o' ≤ _
  rw [List.count_append, List.count_singleton, if_neg (by simpa using hother), Nat.add_zero]

theorem placeBuy_carrying (amount limit : ℚ) {kind : Kind} (hkind : kind.protective = false) :
    Carrying S free keep quiet (placeBuy S amount limit kind) := by
  refine carrying_state (fun s => carrying_ite (carrying_pure _) ?_)
  by_cases hdry : S.dryRun = true
  · rw [if_pos hdry]
    exact placePaper_carrying (fun _ _ _ => hkind)
  · rw [if_neg hdry]
    refine carrying_ite (carrying_pure _) (newPendingSubmit_carrying (fun p hp => ?_))
    have hfree : p.kind.protective = false := hp ▸ hkind
    refine carrying_bind (submitPendingOrder_carrying (by simpa using hdry) (fun _ => hfree))
      (fun outcome => carrying_ite (carrying_pure _) (carrying_ite ?_ (carrying_pure _)))
    exact carrying_bind (carrying_ask _) (fun _ => carrying_update (fun _ => rfl) (fun _ => rfl))

theorem sellNotAccepted_carrying (outcome : SubmissionOutcome) :
    Carrying S free keep quiet (sellNotAccepted S outcome) := by
  refine carrying_ite ?_ (carrying_pure _)
  cases ownedQuantity outcome.reason with
  | none => exact carrying_pure _
  | some digits =>
      dsimp only
      cases parseFloat digits with
      | none => exact carrying_raise _
      | some owned =>
          refine carrying_ite (carrying_bind (carrying_ask _) (fun t => ?_)) (carrying_pure _)
          refine carrying_bind (carrying_mark (fun _ => rfl) rfl) (fun _ => ?_)
          refine carrying_bind (carrying_orders (fun _ => rfl) (fun _ _ _ _ => Nat.zero_le _))
            (fun _ => ?_)
          exact carrying_bind carrying_save (fun _ => carrying_pure _)

theorem placeSell_carrying (qty limit : ℚ) (level : Option ℚ) {kind : Kind} (market : Bool)
    (hkind : free = true → kind.protective = false) :
    Carrying S free keep quiet (placeSell S qty limit level kind market) := by
  unfold placeSell
  extract_lets qty
  refine carrying_state (fun s => carrying_ite (carrying_pure _) ?_)
  by_cases hdry : S.dryRun = true
  · rw [if_pos hdry]
    exact carrying_bind (placePaper_carrying (fun hfree _ _ => hkind hfree))
      (fun _ => carrying_pure _)
  · rw [if_neg hdry]
    refine carrying_ite (carrying_pure _) (newPendingSubmit_carrying (fun p hp => ?_))
    refine carrying_bind (submitPendingOrder_carrying (by simpa using hdry)
      (fun hfree => hp ▸ hkind hfree)) (fun outcome => ?_)
    exact carrying_ite (carrying_pure _) (sellNotAccepted_carrying outcome)

/-- On paper an order is removed, in live mode it is marked. -/
theorem cancelSpecific_carrying (o : Order) : Carrying S free keep quiet (cancelSpecific S o) := by
  by_cases hpaper : S.dryRun = true ∨ startsWith o.id "PAPER" = true
  · unfold cancelSpecific
    rw [if_pos hpaper]
    refine carrying_bind (carrying_orders (fun _ => rfl) (fun _ s o' _ => ?_))
      (fun _ => carrying_pure _)
    exact List.erase_sublist.count_le o'
  · unfold cancelSpecific
    rw [if_neg hpaper]
    refine carrying_ite (carrying_pure _) (carrying_bind (carrying_ask _) (fun answer => ?_))
    refine carrying_bind (carrying_mark (fun _ => rfl) rfl) (fun _ => ?_)
    cases answer with
    | error e => exact carrying_ite (carrying_pure _) (carrying_raise _)
    | ok _ =>
        refine carrying_bind (carrying_ask _) (fun _ => ?_)
        refine carrying_bind (carrying_orders (fun _ => rfl) (fun hdry => ?_))
          (fun _ => carrying_bind carrying_save (fun _ => carrying_pure _))
        exact absurd (Or.inl hdry) hpaper

theorem cancelOpen_carrying (side : Side) : Carrying S free keep quiet (cancelOpen S side) := by
  refine carrying_state (fun s => ?_)
  cases s.findOpen side with
  | none => exact carrying_pure _
  | some o => exact cancelSpecific_carrying o

theorem cancelAllOrders_carrying : Carrying S free keep quiet (cancelAllOrders S) :=
  carrying_state (fun _ => carrying_foldlM (fun _ o =>
    carrying_bind (cancelSpecific_carrying o) (fun _ => carrying_pure _)) _ _)

/-! ## Reconciliation -/

section Live

variable (hlive : S.dryRun = false)

include hlive

/-- In live mode the orders may change as they like. -/
theorem carrying_live {f : State → State} (hmark : ∀ s, (f s).slPending = s.slPending) :
    Carrying S free keep quiet (update f) := by
  refine carrying_orders hmark (fun hdry => ?_)
  rw [hlive] at hdry
  cases hdry

theorem recoverPendingSubmit_carrying (realQty : ℚ) (active : Option (List Active)) :
    Carrying S free keep quiet (recoverPendingSubmit S realQty active) := by
  have hmissed : ∀ p, Carrying S free keep quiet (recoverPendingSubmit.missed S realQty p) := by
    intro p
    unfold recoverPendingSubmit.missed
    extract_lets delta
    refine carrying_ite ?_ (carrying_ite ?_ ?_)
    · exact carrying_bind (persistPendingSubmit_carrying _) (fun _ => carrying_pure _)
    · exact carrying_bind (persistPendingSubmit_carrying _) (fun _ => carrying_pure _)
    · exact carrying_bind (carrying_mark (fun _ => rfl) rfl) (fun _ =>
        carrying_bind (persistPendingSubmit_carrying _) (fun _ => carrying_pure _))
  refine carrying_state (fun s => ?_)
  split
  · exact carrying_pure _
  · exact carrying_pure _
  · split
    · split
      · exact carrying_bind (adoptPendingSubmit_carrying hlive _) (fun _ => carrying_pure _)
      · exact hmissed _
    · exact hmissed _
    · exact carrying_pure _

omit hlive in
theorem trackedOrderStatus_carrying (o : Order) (cache : Cache) :
    Carrying S free keep quiet (trackedOrderStatus S o cache) := by
  unfold trackedOrderStatus
  split
  · exact carrying_pure _
  · refine carrying_bind (carrying_ask _) (fun answer => ?_)
    refine carrying_bind (carrying_mark (fun _ => rfl) rfl) (fun _ => ?_)
    cases answer with
    | ok status => exact carrying_pure _
    | error e => exact carrying_ite (carrying_pure _) (carrying_raise _)

omit hlive in
theorem replaceOrders_mark (rows : List Row) (s : State) :
    (rows.foldl (fun s r => s.replaceOrder r.order r.applied) s).slPending = s.slPending := by
  induction rows generalizing s with
  | nil => rfl
  | cons r rest ih => exact ih _

theorem exactExecutionPrice_carrying (side : Side) (delta : ℚ) (cache : Cache) :
    Carrying S free keep quiet (exactExecutionPrice S side delta cache) := by
  refine carrying_state (fun s => ?_)
  refine carrying_bind (carrying_foldlM (fun acc o => ?_) _ _) (fun result => ?_)
  · refine carrying_bind (trackedOrderStatus_carrying o acc.2) (fun answer => ?_)
    obtain ⟨status, cache'⟩ := answer
    cases status with
    | none => exact carrying_pure _
    | some status => exact carrying_pure _
  · obtain ⟨rows, cache'⟩ := result
    refine carrying_ite (carrying_pure _) ?_
    exact carrying_bind (carrying_live hlive (replaceOrders_mark rows))
      (fun _ => carrying_pure _)

theorem countDca_carrying (source : Source) : Carrying S free keep quiet (countDca source) := by
  cases source with
  | order o => exact carrying_ite (carrying_live hlive (fun _ => rfl)) (carrying_pure _)
  | pending p => exact carrying_pure _
  | none => exact carrying_pure _

omit hlive in
theorem settleGrowth_carrying (source : Source) (x : Snapshot) :
    Carrying S free keep quiet (settleGrowth S source x) := by
  unfold settleGrowth
  split
  · exact carrying_bind (carrying_mark (fun _ => rfl) rfl) (fun _ => persistPendingSubmit_carrying _)
  · exact carrying_bind (carrying_mark (fun _ => rfl) rfl) (fun _ => persistPendingSubmit_carrying _)
  · exact carrying_pure _

theorem positionGrew_carrying (x : Snapshot) (cache : Cache) :
    Carrying S free keep quiet (positionGrew S x cache) := by
  refine carrying_bind (exactExecutionPrice_carrying hlive _ _ _) (fun result => ?_)
  obtain ⟨exact, cache'⟩ := result
  refine carrying_state (fun s => ?_)
  refine carrying_bind (countDca_carrying hlive _) (fun _ => ?_)
  refine carrying_bind (carrying_update (fun _ => rfl) (fun _ => rfl)) (fun _ => ?_)
  refine carrying_bind (settleGrowth_carrying _ _) (fun _ => ?_)
  exact carrying_bind (cancelOpen_carrying _) (fun _ => carrying_pure _)

theorem positionShrank_carrying (x : Snapshot) (price : ℚ) (cache : Cache) :
    Carrying S free keep quiet (positionShrank S x price cache) := by
  refine carrying_bind (exactExecutionPrice_carrying hlive _ _ _) (fun result => ?_)
  obtain ⟨exact, cache'⟩ := result
  refine carrying_bind (carrying_update (fun _ => rfl) (fun _ => rfl)) (fun _ => ?_)
  split
  · split
    · exact carrying_bind (carrying_mark (fun _ => rfl) rfl) (fun _ =>
        carrying_bind (persistPendingSubmit_carrying _) (fun _ => carrying_pure _))
    · exact carrying_pure _
  · exact carrying_pure _

omit hlive in
theorem noteSold_carrying (o : Order) (status : OrderStatus) :
    Carrying S free keep quiet (noteSold o status) :=
  carrying_ite (carrying_update (fun _ => rfl) (fun _ => rfl)) (carrying_pure _)

theorem sweepOrder_carrying (x : Snapshot) (price : ℚ) (cache : Cache) (o : Order) :
    Carrying S free keep quiet (sweepOrder S x price cache o) := by
  refine carrying_ite (carrying_pure _) (carrying_ite ?_ (carrying_ite ?_ (carrying_pure _)))
  · refine carrying_bind (trackedOrderStatus_carrying o cache) (fun answer => ?_)
    obtain ⟨status, cache'⟩ := answer
    cases status with
    | none => exact carrying_pure _
    | some status =>
        refine carrying_ite (carrying_bind (noteSold_carrying o _) (fun _ => ?_)) (carrying_pure _)
        exact carrying_bind (carrying_live hlive (fun _ => rfl)) (fun _ => carrying_pure _)
  · refine carrying_bind (carrying_ask _) (fun t => carrying_ite ?_ (carrying_pure _))
    exact carrying_bind (cancelSpecific_carrying o) (fun _ => carrying_pure _)

omit hlive in
theorem staleSnapshot_carrying (x : Snapshot) : Carrying S free keep quiet (staleSnapshot S x) :=
  carrying_state (fun _ => carrying_ite (carrying_bind (carrying_ask _) (fun _ => carrying_pure _))
    (carrying_pure _))

theorem takePosition_carrying (x : Snapshot) (price : ℚ) :
    Carrying S free keep quiet (takePosition S x price) := by
  refine carrying_ite (positionGrew_carrying hlive x [])
    (carrying_ite (positionShrank_carrying hlive x price []) ?_)
  exact carrying_bind (carrying_update (fun _ => rfl) (fun _ => rfl)) (fun _ => carrying_pure _)

omit hlive in
theorem closeCycle_carrying (x : Snapshot) (price : ℚ) :
    Carrying S free keep false (closeCycle S x price) := by
  refine carrying_ite ?_ (carrying_pure _)
  intro w
  exact carrying_close S.params ((nonzero w.s.lastSellPrice).getD price) w

theorem reconcileReal_carrying (price : ℚ) : Carrying S free keep false (reconcileReal S price) := by
  refine carrying_bind (carrying_bind (carrying_ask _) (fun _ => carrying_pure _)) (fun position => ?_)
  split
  · exact carrying_bind (carrying_ask _) (fun _ => carrying_pure _)
  · refine carrying_bind (carrying_ask _) (fun active => ?_)
    refine carrying_bind (recoverPendingSubmit_carrying hlive _ _) (fun outcome => ?_)
    refine carrying_state (fun s => ?_)
    refine carrying_bind (staleSnapshot_carrying _) (fun stale => ?_)
    refine carrying_ite (carrying_pure _) ?_
    refine carrying_bind (takePosition_carrying hlive _ _) (fun cache => carrying_state (fun s => ?_))
    refine carrying_bind (carrying_foldlM (fun cache o => sweepOrder_carrying hlive _ _ cache o) _ _)
      (fun _ => closeCycle_carrying _ _)

end Live

theorem applyFill_carrying (o : Order) (qty price : ℚ) :
    Carrying S free keep false (applyFill S o qty price) := by
  unfold applyFill
  split
  · refine carrying_bind (carrying_update (fun _ => rfl) (fun _ => rfl)) (fun _ => ?_)
    exact carrying_bind (cancelOpen_carrying _) (fun _ => carrying_pure _)
  · refine carrying_bind (carrying_update (fun _ => rfl) (fun _ => rfl)) (fun _ => ?_)
    exact carrying_state (fun s => carrying_ite (carrying_close S.params price) (carrying_pure _))

theorem removeOrder_carrying (o : Order) :
    Carrying S free keep quiet (update (fun s => s.removeOrder o)) :=
  carrying_orders (fun _ => rfl) (fun _ _ o' _ => List.erase_sublist.count_le o')

theorem reconcilePaper_carrying (price : ℚ) :
    Carrying S free keep false (reconcilePaper S price) := by
  refine carrying_forM (fun side => carrying_state (fun s => carrying_forM (fun o => ?_) _)) _
  refine carrying_state (fun s => carrying_ite (carrying_pure _) ?_)
  cases side with
  | buy => exact carrying_bind (removeOrder_carrying o) (fun _ => applyFill_carrying _ _ _)
  | sell =>
      refine carrying_ite (carrying_bind (removeOrder_carrying o) (fun _ => ?_)) (carrying_pure _)
      exact carrying_bind (carrying_update (fun _ => rfl) (fun _ => rfl))
        (fun _ => applyFill_carrying _ _ _)

theorem reconcile_carrying (price : ℚ) : Carrying S free keep false (reconcile S price) := by
  unfold reconcile
  by_cases hdry : S.dryRun = true
  · rw [if_pos hdry]
    exact reconcilePaper_carrying price
  · rw [if_neg hdry]
    exact reconcileReal_carrying (by simpa using hdry) price

/-! ## The take-profit -/

theorem outdated_carrying (o : Order) (qty limit : ℚ) :
    Carrying S free keep quiet (outdated o qty limit) :=
  carrying_bind (carrying_ite (carrying_raise _) (carrying_pure _)) (fun _ => carrying_pure _)

theorem manageTp_carrying (held avg : ℚ) : Carrying S free keep quiet (manageTp S held avg) := by
  unfold manageTp
  extract_lets target
  refine carrying_state (fun s => ?_)
  have hplace : Carrying S free keep quiet
      (do let _ ← placeSell S held target none .tp false; pure ()) :=
    carrying_bind (placeSell_carrying _ _ _ _ (fun _ => rfl)) (fun _ => carrying_pure _)
  cases s.findOpen .sell with
  | none => exact hplace
  | some o =>
      refine carrying_bind (outdated_carrying o held target) (fun stale => ?_)
      refine carrying_ite (carrying_bind (cancelOpen_carrying _) (fun cancelled => ?_))
        (carrying_pure _)
      exact carrying_ite (carrying_state (fun _ => carrying_ite (carrying_pure _) hplace))
        (carrying_pure _)

theorem staleLevels_carrying (desired : List (ℚ × ℚ × ℚ)) (levels : List ℚ) (level : ℚ) :
    Carrying S free keep quiet (staleLevels S desired levels level) := by
  refine carrying_state (fun s => ?_)
  split
  · exact carrying_pure _
  · rename_i o _
    have hrest : ∀ stale : Bool, Carrying S free keep quiet (if stale then do
          let cancelled ← cancelSpecific S o
          let s ← state
          pure (if cancelled && !s.stillTracks o then levels.erase level else levels)
        else pure levels) := fun stale =>
      carrying_ite (carrying_bind (cancelSpecific_carrying o) (fun _ =>
        carrying_state (fun _ => carrying_pure _))) (carrying_pure _)
    split
    · exact carrying_bind (carrying_pure _) hrest
    · exact carrying_bind (outdated_carrying o _ _) hrest

theorem placeLevel_carrying (levels : List ℚ) (now : ℚ) (d : ℚ × ℚ × ℚ) :
    Carrying S free keep quiet (placeLevel S levels now d) := by
  refine carrying_state (fun s => carrying_ite (carrying_pure _) (carrying_ite (carrying_pure _) ?_))
  refine carrying_bind (placeSell_carrying _ _ _ _ (fun _ => rfl)) (fun _ => ?_)
  exact carrying_ite (carrying_pure _) (carrying_update (fun _ => rfl) (fun _ => rfl))

theorem clearPlainSells_carrying (l : List Order) :
    Carrying S free keep quiet (clearPlainSells S l) := by
  induction l with
  | nil => exact carrying_pure _
  | cons o rest ih =>
      refine carrying_bind (cancelSpecific_carrying o) (fun _ => carrying_ite ?_ (carrying_pure _))
      exact carrying_state (fun _ => carrying_ite (carrying_pure _) ih)

theorem manageTpLadder_carrying (held avg : ℚ) :
    Carrying S free keep quiet (manageTpLadder S held avg) := by
  refine carrying_state (fun s => ?_)
  refine carrying_bind (clearPlainSells_carrying _) (fun _ => carrying_ite ?_ (carrying_pure _))
  refine carrying_state (fun s => ?_)
  extract_lets desired
  refine carrying_ite (carrying_pure _) ?_
  extract_lets
  refine carrying_bind (carrying_foldlM (fun _ _ => staleLevels_carrying _ _ _) _ _) (fun _ => ?_)
  exact carrying_bind (carrying_ask _) (fun _ =>
    carrying_forM (fun _ => placeLevel_carrying _ _ _) _)

/-! ## Buying -/

theorem handleSlRebuy_carrying (price : ℚ) (rebuy : SlRebuy) :
    Carrying S free keep quiet (handleSlRebuy S price rebuy) := by
  refine carrying_bind (carrying_update (fun _ => rfl) (fun _ => rfl)) (fun _ => ?_)
  refine carrying_ite (carrying_pure _) ?_
  refine carrying_bind (carrying_update (fun _ => rfl) (fun _ => rfl)) (fun _ => ?_)
  exact carrying_state (fun _ => carrying_ite (carrying_pure _) (placeBuy_carrying _ _ rfl))

theorem enter_carrying (price : ℚ) (inBackoff : Bool) :
    Carrying S free keep quiet (enter S price inBackoff) := by
  refine carrying_state (fun s => carrying_ite (carrying_pure _) ?_)
  split
  · exact handleSlRebuy_carrying price _
  · exact carrying_ite (carrying_pure _) (placeBuy_carrying _ _ rfl)

theorem trendAllows_carrying : Carrying S free keep quiet (trendAllows S) := by
  refine carrying_ite (carrying_pure _) (carrying_bind (carrying_ask _) (fun t => ?_))
  refine carrying_get (fun _ => carrying_ite (carrying_pure _) ?_)
  refine carrying_bind (carrying_ask _) (fun slope => carrying_ite ?_ (carrying_pure _))
  refine carrying_bind (carrying_ask _) (fun t => carrying_bind ?_ (fun _ => carrying_pure _))
  intro w
  exact Carries.outside rfl rfl (Or.inl rfl)

theorem considerDca_carrying (price : ℚ) (inBackoff : Bool) :
    Carrying S free keep quiet (considerDca S price inBackoff) := by
  refine carrying_state (fun s => carrying_ite ?_ (carrying_pure _))
  refine carrying_bind trendAllows_carrying (fun _ => ?_)
  exact carrying_ite (placeBuy_carrying _ _ rfl) (carrying_pure _)

end TradingFleet.Trading212
