import TradingFleet.SpotDca.Step

set_option autoImplicit false

/-! # When a pending exit makes progress

A tick with an exit pending and nothing open either sells or closes the cycle, or it leaves the
exit as it was. Here the tick is computed for a venue that takes every order, with saves that
succeed: it makes progress exactly when the quantity held is one that `_dust_safe_qty` and
`_place` let through, or when it is none and the price of the sale is known.
-/

namespace TradingFleet.SpotDca

open TradingFleet.Lifecycle
open TradingFleet.Text hiding orElse
open TradingFleet.Rounding (roundTo)

/-! ## A venue that takes every order -/

/-- Saves succeed, the clock runs, no call ends the process, and every submission is accepted with
an order ID. What it answers about a balance is left open. -/
structure Accepting (S : Setup) : Prop where
  save : ∀ n, S.venue.save n = .stored
  preflight : ∀ n, S.venue.preflight n = .ok (.ok ())
  submit : ∀ n, ∃ r, S.venue.submit n = .ok (.ok r) ∧
    (captureSubmission (.ok r)).state = .accepted ∧
    truthy (outcomeFields (captureSubmission (.ok r))).orderId = true
  time : ∀ n, ∃ t, 0 < t ∧ S.venue.time n = .ok t
  freeBalance : ∀ n, ∃ answer, S.venue.freeBalance n = .ok answer
  label : lower S.venueLabel ∈ ["kraken", "binance", "hyperliquid"]
  digest : ∀ raw, blank (S.digest raw) = false
  symbol : blank S.pair = false

/-- An exit SELL reaches the venue, or the paper book. -/
def Event.submitsExit : Event → Bool
  | .submit order _ => order.side = .sell && order.market
  | .placed order => order.side = .sell && order.market
  | _ => false

/-- An exit SELL was submitted, or the cycle was closed. -/
def Progress (w w' : World) : Prop :=
  (∃ es, w'.log = es ++ w.log ∧ ∃ e ∈ es, e.event.submitsExit = true) ∨
    w'.s.cycle = w.s.cycle + 1

theorem not_progress_of_length {w w' : World} (hlog : w'.log.length = w.log.length)
    (hcycle : w'.s.cycle = w.s.cycle) : ¬ Progress w w' := by
  rintro (⟨es, hes, e, he, -⟩ | hnext)
  · have hlength := congrArg List.length hes
    rw [List.length_append] at hlength
    have hnil : es = [] := List.length_eq_zero_iff.mp (by omega)
    rw [hnil] at he
    cases he
  · omega

theorem not_progress {w w' : World} (hlog : w'.log = w.log) (hcycle : w'.s.cycle = w.s.cycle) :
    ¬ Progress w w' :=
  not_progress_of_length (congrArg List.length hlog) hcycle

/-! ## Running programs -/

section Running

variable {S : Setup} {α β : Type} {w w' : World}

theorem bind_ok {x : DcaM α} {a : α} (f : α → DcaM β) (h : x w = .ok a w') :
    (x >>= f) w = f a w' := by
  show EStateM.bind x f w = f a w'
  unfold EStateM.bind
  rw [h]

theorem bind_error {x : DcaM α} {e : Stop} (f : α → DcaM β) (h : x w = .error e w') :
    (x >>= f) w = .error e w' := by
  show EStateM.bind x f w = .error e w'
  unfold EStateM.bind
  rw [h]

theorem state_bind (k : State → DcaM β) (w : World) : (state >>= k) w = k w.s w := rfl

theorem update_bind (u : State → State) (k : Unit → DcaM β) (w : World) :
    (update u >>= k) w = k () { w with s := u w.s } := rfl

theorem modify_bind (u : World → World) (k : PUnit → DcaM β) (w : World) :
    ((modify u : DcaM PUnit) >>= k) w = k ⟨⟩ (u w) := rfl

theorem get_bind (k : World → DcaM β) (w : World) : ((get : DcaM World) >>= k) w = k w w := rfl

/-- What follows a program and does nothing does not matter. -/
theorem after_bind_pure (x : DcaM α) (b : β) (w : World) :
    World.after ((x >>= fun _ => pure b) w) = World.after (x w) := by
  cases h : x w with
  | ok a w' =>
      rw [bind_ok _ h]
      rfl
  | error e w' =>
      rw [bind_error _ h]
      cases e <;> rfl

/-- The world after a save that succeeds. -/
def World.stored (w : World) : World :=
  { w with saved := w.s, savedPostings := w.postings, writeFailed := false, calls := w.calls + 1 }

@[simp] theorem World.stored_s (w : World) : w.stored.s = w.s := rfl

@[simp] theorem World.stored_log (w : World) : w.stored.log = w.log := rfl

theorem save_ok (hS : Accepting S) (w : World) : save S w = .ok () w.stored := by
  unfold save
  rw [hS.save]
  rfl

theorem ask_ok {answer : Nat → Except Stop α} {event : Except Stop α → Option Event} {a : α}
    (h : answer w.calls = .ok a) :
    ask answer event w = .ok a { w with
      calls := w.calls + 1
      log := ((event (.ok a)).map (fun e => ⟨w.s, w.saved, e⟩)).toList ++ w.log } := by
  unfold ask
  rw [h]

/-- The world after a call that is not logged. -/
def World.called (w : World) : World := { w with calls := w.calls + 1 }

@[simp] theorem World.called_s (w : World) : w.called.s = w.s := rfl

@[simp] theorem World.called_log (w : World) : w.called.log = w.log := rfl

theorem ask_quiet {answer : Nat → Except Stop α} {a : α} (h : answer w.calls = .ok a) :
    ask answer (fun _ => none) w = .ok a w.called := ask_ok h

theorem persist_ok (hS : Accepting S) (p : Option Intent) (w : World) :
    persistPendingIntent S p w =
      .ok () ({ w with s := { w.s with pendingIntent := p } } : World).stored := by
  unfold persistPendingIntent
  rw [update_bind, bind_ok _ (save_ok hS _)]
  rfl

end Running

/-! ## Placing a market exit -/

section Placing

variable {S : Setup} {i : Instruction} {w : World}

theorem isHex_lower_not_space {c : Char} (h : isHex c = true) :
    isSpace (lowerChar c) = false := by
  have hcode : 48 ≤ c.val.toNat ∧ c.val.toNat ≤ 102 := by
    unfold isHex Char.isDigit at h
    simp only [Bool.or_eq_true, Bool.and_eq_true, decide_eq_true_eq, Char.le_def,
      UInt32.le_iff_toNat_le] at h
    have h0 : ('0' : Char).val.toNat = 48 := rfl
    have ha : ('a' : Char).val.toNat = 97 := rfl
    have hA : ('A' : Char).val.toNat = 65 := rfl
    have h9 : ('9' : Char).val.toNat = 57 := rfl
    have hf : ('f' : Char).val.toNat = 102 := rfl
    have hF : ('F' : Char).val.toNat = 70 := rfl
    omega
  have hlow : 48 ≤ c.toLower.val.toNat ∧ c.toLower.val.toNat ≤ 122 := by
    unfold Char.toLower
    split
    · rename_i hcap
      simp only [ge_iff_le, UInt32.le_iff_toNat_le, UInt32.toNat_add] at hcap ⊢
      have hA : ('A' : Char).val.toNat = 65 := rfl
      have hZ : ('Z' : Char).val.toNat = 90 := rfl
      have hsame : c.toNat = c.val.toNat := rfl
      simp
      omega
    · exact ⟨hcode.1, by omega⟩
  have hcodes : c.toNat = c.val.toNat ∧ c.toLower.toNat = c.toLower.val.toNat := ⟨rfl, rfl⟩
  have hlower : lowerChar c = c.toLower := if_neg (by omega)
  rw [hlower]
  exact isSpace_eq_false (by omega) (by omega)

/-- The token of a client ID is the UUID at the end of the intent ID, or its digest. -/
theorem intentClientOrderId_token (digest : String → String) (venue intentId : String) :
    ∃ token, (uuidHexSuffix intentId = none ∧ token = digest intentId ∨
        ∃ suffix, uuidHexSuffix intentId = some suffix ∧ token = lower suffix) ∧
      intentClientOrderId digest venue intentId =
        if lower venue = "kraken" then some token
        else if lower venue = "binance" then some ("SD_" ++ token)
        else if lower venue = "hyperliquid" then some ("0x" ++ token)
        else none := by
  unfold intentClientOrderId
  cases uuidHexSuffix intentId with
  | none => exact ⟨_, Or.inl ⟨rfl, rfl⟩, rfl⟩
  | some suffix => exact ⟨_, Or.inr ⟨suffix, rfl, rfl⟩, rfl⟩

/-- The client order ID of an intent is never empty. -/
theorem Accepting.client (hS : Accepting S) (intentId : String) : ∃ clientOrderId,
    intentClientOrderId S.digest S.venueLabel intentId = some clientOrderId ∧
      blank clientOrderId = false := by
  obtain ⟨token, hsource, hclient⟩ := intentClientOrderId_token S.digest S.venueLabel intentId
  have htoken : blank token = false := by
    rcases hsource with ⟨-, htoken⟩ | ⟨suffix, hsuffix, htoken⟩
    · rw [htoken]
      exact hS.digest intentId
    · rw [htoken]
      unfold uuidHexSuffix at hsuffix
      dsimp only at hsuffix
      split at hsuffix
      · rename_i hall
        obtain ⟨hlength, hhex⟩ := hall
        cases hchars : intentId.toList.drop (intentId.toList.length - 32) with
        | nil =>
            rw [hchars] at hlength
            cases hlength
        | cons c l =>
            rw [hchars, List.all_cons, Bool.and_eq_true] at hhex
            rw [hchars] at hsuffix
            cases hsuffix
            refine blank_of_prefix (c := lowerChar c) (l := l.map lowerChar) _ ?_
              (isHex_lower_not_space hhex.1)
            simp [lower]
      · cases hsuffix
  have hlabel := hS.label
  simp only [List.mem_cons, List.not_mem_nil, or_false] at hlabel
  rw [hclient]
  rcases hlabel with h | h | h
  · exact ⟨token, by rw [if_pos h], htoken⟩
  · refine ⟨"SD_" ++ token, by simp only [h]; rfl, ?_⟩
    exact blank_of_prefix _ (by simp only [String.toList_append]; rfl) rfl
  · refine ⟨"0x" ++ token, by simp only [h]; rfl, ?_⟩
    exact blank_of_prefix _ (by simp only [String.toList_append]; rfl) rfl

theorem intentIdentity_not_blank (S : Setup) (cycle : Nat) (side : Side) (kind : Kind)
    (vol price : ℚ) : blank (intentIdentity S cycle side kind vol price) = false := by
  have hprefix : ∃ l, (intentIdentity S cycle side kind vol price).toList = 's' :: l := by
    unfold intentIdentity
    simp only [String.toList_append, List.append_assoc]
    exact ⟨_, rfl⟩
  obtain ⟨l, hl⟩ := hprefix
  exact blank_of_prefix _ hl rfl

/-- What `_validate_identity` makes of the intent of a positive volume. -/
theorem validateIdentity_newIntent (hS : Accepting S) (hvol : 0 < i.vol) (cycle : Nat)
    {clientOrderId : String} (hclient : blank clientOrderId = false) (t : ℚ) :
    validateIdentity ((i.newIntent S cycle clientOrderId).record t) =
      if i.price ≤ 0 then .error (valueError "tracked intent requested_price must be positive")
      else .ok () := by
  have hid := intentIdentity_not_blank S cycle i.side i.kind i.vol i.price
  unfold validateIdentity
  simp [NewIntent.record, Instruction.newIntent, hid, hclient, hS.symbol, not_le.mpr hvol]

theorem now_ok (hS : Accepting S) (w : World) :
    ∃ t, 0 < t ∧ now (lifecycle S) w = .ok t w.called := by
  obtain ⟨t, ht, htime⟩ := hS.time w.calls
  refine ⟨t, ht, ?_⟩
  unfold now
  have hclock : (lifecycle S).clock w = .ok (some t) w.called := by
    show (ask S.venue.time (fun _ => none) >>= fun t => pure (some t)) w = _
    rw [bind_ok _ (ask_quiet htime)]
    rfl
  rw [bind_ok _ hclock]
  have hpositive : Raw.positive (some t) = some t := by simp [Raw.positive, ht]
  simp only [hpositive]
  rfl

/-- With a positive price the intent is made, without one `new_intent` raises. -/
theorem newIntent_run (hS : Accepting S) (hvol : 0 < i.vol) (cycle : Nat)
    {clientOrderId : String} (hclient : blank clientOrderId = false) (w : World) :
    ∃ t, newIntent (lifecycle S) (i.newIntent S cycle clientOrderId) w =
      if i.price ≤ 0 then
        .error (.raised (valueError "tracked intent requested_price must be positive")) w.called
      else .ok ((i.newIntent S cycle clientOrderId).record t) w.called := by
  obtain ⟨t, -, hnow⟩ := now_ok hS w
  refine ⟨t, ?_⟩
  unfold newIntent
  rw [bind_ok _ hnow, validateIdentity_newIntent hS hvol cycle hclient t]
  by_cases hprice : i.price ≤ 0
  · rw [if_pos hprice, if_pos hprice]
    rfl
  · rw [if_neg hprice, if_neg hprice]
    rfl

/-- An accepted order is known afterwards. -/
theorem submitted_known {p : Intent} {r : Response}
    (hstate : (captureSubmission (.ok r)).state = .accepted)
    (hid : truthy (outcomeFields (captureSubmission (.ok r))).orderId = true) :
    (p.submitted (captureSubmission (.ok r))).orderKnown = true := by
  unfold Pending.submitted
  simp only [hstate]
  show truthy ((outcomeFields (captureSubmission (.ok r))).orderId <|> p.orderId) = true
  cases horder : (outcomeFields (captureSubmission (.ok r))).orderId with
  | none =>
      rw [horder] at hid
      cases hid
  | some id =>
      rw [horder] at hid
      exact hid

theorem adoptPendingOrder_ok (hS : Accepting S) {p : Intent} (hp : p.orderKnown = true)
    (w : World) : adoptPendingOrder S p w = .ok () (w.adopted p).stored := by
  unfold adoptPendingOrder
  rw [if_pos hp, modify_bind]
  exact save_ok hS _

/-- `submit`, when the venue accepts: the submission is logged and the order is known. -/
theorem submit_ok (hS : Accepting S) (order : Submission) {p : Intent}
    (hp : validateIdentity p = .ok ()) (w : World) :
    ∃ w' r a, submit (lifecycle S) (ask S.venue.submit (fun a => some (.submit order a))) p w =
        .ok r w' ∧
      r.intent.orderKnown = true ∧
      ∃ before saved, w'.log = ⟨before, saved, .submit order a⟩ :: w.log := by
  obtain ⟨r, hr, hstate, hid⟩ := hS.submit (w.calls + 1)
  let w₁ := ({ w with s := { w.s with pendingIntent := some p } } : World).stored
  let w₂ : World := { w₁ with
    calls := w₁.calls + 1
    log := ⟨w₁.s, w₁.saved, .submit order (.ok (.ok r))⟩ :: w₁.log }
  let q := p.submitted (captureSubmission (.ok r))
  let w₃ := ({ w₂ with s := { w₂.s with pendingIntent := some q } } : World).stored
  have hask : ask S.venue.submit (fun a => some (.submit order a)) w₁ = .ok (.ok r) w₂ :=
    ask_ok hr
  have hknown : q.orderKnown = true := submitted_known hstate hid
  refine ⟨w₃, ⟨.active, q, none⟩, .ok (.ok r), ?_, hknown, w₁.s, w₁.saved, rfl⟩
  unfold submit
  rw [hp, bind_ok _ (show Lifecycle.orRaise (.ok ()) w = .ok () w from rfl),
    bind_ok _ (show (lifecycle S).persist (some p) w = .ok () w₁ from persist_ok hS _ w),
    bind_ok _ (show (lifecycle S).audit .submitRequested p w₁ = .ok () w₁ from rfl),
    bind_ok _ hask,
    bind_ok _ (show (lifecycle S).persist (some q) w₂ = .ok () w₃ from persist_ok hS _ w₂)]
  simp only [hstate]
  rfl

/-- An accepted submission is logged, and its order is tracked. -/
theorem submitIntent_run (hS : Accepting S) (cycle : Nat) (clientOrderId : String) {p : Intent}
    (hp : validateIdentity p = .ok ()) (w : World) :
    ∃ w' a, submitIntent S i cycle clientOrderId p w = .ok true w' ∧
      ∃ es, w'.log = es ++ w.log ∧
        ∃ e ∈ es, e.event = .submit (i.submission S cycle clientOrderId) a := by
  let w₁ : World := { w with log :=
    ⟨w.s, w.saved, .intended (i.submission S cycle clientOrderId)⟩ :: w.log }
  obtain ⟨w₂, r, a, hsubmit, hknown, before, saved, hlog⟩ :=
    submit_ok hS (i.submission S cycle clientOrderId) hp w₁
  let w₃ : World := { w₂ with s := { w₂.s with
    placementBackoffs := w₂.s.placementBackoffs.filter (fun r => r.1 ≠ (i.side, i.kind)) } }
  refine ⟨(w₃.adopted r.intent).stored, a, ?_, ?_⟩
  · unfold submitIntent
    rw [bind_ok _ (show mark _ w = .ok PUnit.unit w₁ from rfl), bind_ok _ hsubmit]
    unfold afterSubmit
    rw [if_pos hknown,
      bind_ok _ (show clearPlacementBackoff i.side i.kind w₂ = .ok PUnit.unit w₃ from rfl),
      bind_ok _ (adoptPendingOrder_ok hS hknown w₃)]
    rfl
  · refine ⟨[⟨w₃.s, w₃.saved, .tracked (orderFromPending r.intent)⟩,
      ⟨before, saved, .submit (i.submission S cycle clientOrderId) a⟩,
      ⟨w.s, w.saved, .intended (i.submission S cycle clientOrderId)⟩], ?_,
      ⟨before, saved, .submit (i.submission S cycle clientOrderId) a⟩, by simp, rfl⟩
    show _ :: w₂.log = _
    rw [hlog]
    rfl

/-- The live part of `_place` for a volume that is positive. -/
theorem placeLive_run (hS : Accepting S) (hvol : 0 < i.vol) (w : World) :
    ∃ w', (if i.price ≤ 0 then
        placeLive S i w =
            .error (.raised (valueError "tracked intent requested_price must be positive")) w' ∧
          w'.log = w.log ∧ w'.s = w.s
      else
        placeLive S i w = .ok true w' ∧
          ∃ es, w'.log = es ++ w.log ∧
            ∃ e ∈ es, ∃ cycle clientOrderId a,
              e.event = .submit (i.submission S cycle clientOrderId) a) := by
  obtain ⟨clientOrderId, hclient, hblank⟩ :=
    hS.client (intentIdentity S w.s.cycle i.side i.kind i.vol i.price)
  obtain ⟨t, hnew⟩ := newIntent_run hS hvol w.s.cycle hblank w.called
  have hstart : placeLive S i w = (newIntent (lifecycle S) (i.newIntent S w.s.cycle clientOrderId)
      >>= fun intent => submitIntent S i w.s.cycle clientOrderId intent) w.called := by
    unfold placeLive
    rw [bind_ok _ (ask_quiet (hS.preflight w.calls)),
      bind_ok _ (show orRaise (.ok ()) w.called = .ok () w.called from rfl),
      state_bind]
    simp only [World.called_s, hclient]
  rw [hstart]
  by_cases hprice : i.price ≤ 0
  · simp only [if_pos hprice] at hnew ⊢
    exact ⟨w.called.called, bind_error _ hnew, rfl, rfl⟩
  · simp only [if_neg hprice] at hnew ⊢
    have hvalid := validateIdentity_newIntent hS hvol w.s.cycle hblank t
    rw [if_neg hprice] at hvalid
    obtain ⟨w', a, hrun, es, hlog, e, he, hevent⟩ :=
      submitIntent_run (i := i) hS w.s.cycle clientOrderId hvalid w.called.called
    refine ⟨w', ?_, es, hlog, e, he, w.s.cycle, clientOrderId, a, hevent⟩
    rw [bind_ok _ hnew, hrun]

/-- `_place` for a market exit, with no intent pending: it submits exactly when the volume is not
too small and, outside paper mode, the reference price is positive. -/
theorem place_market_progress (hS : Accepting S) (hside : i.side = .sell)
    (hmarket : i.market = true) (hpending : w.s.pendingIntent = none) :
    Progress w (World.after (place S i w)) ↔
      tooSmall S (i.rounded S).vol = false ∧ (S.dryRun = true ∨ 0 < (i.rounded S).price) := by
  have hmarket' : (i.rounded S).market = true := hmarket
  have hside' : (i.rounded S).side = .sell := hside
  unfold place
  rw [state_bind]
  by_cases hsmall : tooSmall S (i.rounded S).vol = true
  · simp only [hsmall, if_true]
    have hno : ¬ Progress w (World.after ((pure false : DcaM Bool) w)) := not_progress rfl rfl
    simpa using hno
  · have hsize : tooSmall S (i.rounded S).vol = false := by simpa using hsmall
    have hvol : 0 < (i.rounded S).vol := by
      unfold tooSmall at hsize
      rw [Bool.or_eq_false_iff, decide_eq_false_iff_not, not_le] at hsize
      exact hsize.1
    -- the floor at cost is for limit orders
    have hcost : belowCost w.s (i.rounded S) = false := by
      unfold belowCost
      rw [hmarket']
      rfl
    simp only [hsize, hcost, hmarket', Bool.false_eq_true, if_false, if_true, true_and]
    unfold placeRounded
    rw [state_bind]
    by_cases hpaper : S.dryRun = true
    · simp only [hpaper, if_true, true_or, iff_true]
      obtain ⟨t, -, htime⟩ := hS.time w.calls
      unfold placePaper
      rw [bind_ok _ (ask_quiet htime)]
      refine Or.inl ⟨[⟨w.s, w.saved, .placed (paperOrder (i.rounded S) (w.paperSeq + 1) t)⟩], rfl,
        _, List.mem_singleton.mpr rfl, ?_⟩
      show (decide ((i.rounded S).side = .sell) && (i.rounded S).market) = true
      rw [hside', hmarket']
      rfl
    · have hlive : S.dryRun = false := by simpa using hpaper
      obtain ⟨w', hrun⟩ := placeLive_run hS hvol w
      simp only [hlive, hpending, Option.isSome_none, Bool.false_eq_true, if_false, false_or]
      unfold catching
      by_cases hprice : (i.rounded S).price ≤ 0
      · rw [if_pos hprice] at hrun
        rw [hrun.1]
        have hno : ¬ Progress w w' := by
          refine not_progress hrun.2.1 ?_
          rw [hrun.2.2]
        simp only [hmarket', Bool.not_true, Bool.false_and, Bool.false_eq_true, if_false]
        exact iff_of_false hno (not_lt.mpr hprice)
      · rw [if_neg hprice] at hrun
        obtain ⟨hok, es, hlog, e, he, cycle, clientOrderId, a, hevent⟩ := hrun
        rw [hok]
        refine iff_of_true (Or.inl ⟨es, hlog, e, he, ?_⟩) (not_le.mp hprice)
        rw [hevent]
        show (decide ((i.rounded S).side = .sell) && (i.rounded S).market) = true
        rw [hside', hmarket']
        rfl

end Placing

/-! ## The exit -/

section Exit

variable {S : Setup} {w : World} {e : PendingExit} {price : ℚ}

/-- What is held can be sold, or nothing is held and the price of the sale is known. -/
def Sellable (S : Setup) (s : State) (e : PendingExit) (price : ℚ) : Prop :=
  if s.qty ≤ flatQty then e.fillPrice ≠ none
  else tooSmall S ((exitInstruction S s e price).rounded S).vol = false ∧
    (S.dryRun = true ∨ 0 < ((exitInstruction S s e price).rounded S).price)

/-- The floor does not apply to the exit. -/
def PendingExit.hard (e : PendingExit) : Prop := e.softFloor = false ∨ e.kind = .stop

theorem PendingExit.hard.not_blocked (h : e.hard) (s : State) : softBlocked S s e price = false := by
  unfold softBlocked
  rcases h with h | h <;> simp [h]

theorem finalize_progress (kind : Kind) (fillPrice : ℚ) (hflat : w.s.qty ≤ flatQty)
    (horders : w.s.orders = []) (hpending : w.s.pendingIntent = none) :
    Progress w (World.after (finalizeCycleIfFlat S kind fillPrice w)) := by
  have hqty : (w.s.flattened S.precision).qty ≤ flatQty := by
    unfold State.flattened
    split
    · show (0 : ℚ) ≤ flatQty
      norm_num [flatQty]
    · exact hflat
  have hrest : (w.s.flattened S.precision).orders = [] ∧
      (w.s.flattened S.precision).pendingIntent = none ∧
      (w.s.flattened S.precision).cycle = w.s.cycle := by
    unfold State.flattened
    split
    · exact ⟨horders, hpending, rfl⟩
    · exact ⟨horders, hpending, rfl⟩
  unfold finalizeCycleIfFlat
  rw [update_bind, state_bind]
  simp only [not_lt.mpr hqty, hrest.1, hrest.2.1, ne_eq, not_true_eq_false, or_self, if_false]
  refine Or.inr ?_
  show (w.s.flattened S.precision).cycle + 1 = w.s.cycle + 1
  rw [hrest.2.2]

theorem exitHoldings_progress (hS : Accepting S) (he : e.hard) (horders : w.s.orders = [])
    (hpending : w.s.pendingIntent = none) :
    Progress w (World.after (exitHoldings S e price w)) ↔ Sellable S w.s e price := by
  unfold exitHoldings Sellable
  rw [state_bind]
  by_cases hflat : w.s.qty ≤ flatQty
  · simp only [if_pos hflat]
    cases hfill : e.fillPrice with
    | none => exact iff_of_false (not_progress rfl rfl) (by simp)
    | some fillPrice =>
        rw [after_bind_pure]
        exact iff_of_true (finalize_progress e.kind fillPrice hflat horders hpending) (by simp)
  · simp only [if_neg hflat, he.not_blocked, Bool.false_eq_true, if_false]
    exact place_market_progress hS rfl rfl hpending

theorem continueMarketExit_progress (hS : Accepting S) (he : e.hard)
    (hexit : w.s.pendingExit = some e) (horders : w.s.orders = [])
    (hpending : w.s.pendingIntent = none) :
    Progress w (World.after (continueMarketExit S price w)) ↔ Sellable S w.s e price := by
  have hnone : w.s.hasPendingMarketExit = false := by
    unfold State.hasPendingMarketExit
    rw [horders]
    rfl
  have hcancel : cancelOrders S none false w.stored = .ok true w.stored := by
    unfold cancelOrders
    rw [state_bind, World.stored_s, horders]
    rfl
  have hrun : continueMarketExit S price w = exitHoldings S e price w.stored := by
    unfold continueMarketExit
    rw [state_bind]
    simp only [hexit, hpending, hnone, Option.isSome_none, Bool.or_self, Bool.false_eq_true,
      if_false]
    rw [bind_ok _ (save_ok hS w), get_bind]
    show (cancelOrders S none false >>= _) w.stored = _
    rw [bind_ok _ hcancel, state_bind]
    simp [horders]
  rw [hrun]
  exact exitHoldings_progress (w := w.stored) hS he horders hpending

/-! ## The stop-loss before it -/

/-- The stop-loss is hit. -/
def stopHit (S : Setup) (s : State) (price : ℚ) : Bool :=
  flatQty < s.qty && hitStop (s.avg.getD 0) price S.params.stopLossPct

/-- The stop-loss turns another kind of exit into a STOP. -/
def PendingExit.stopped (e : PendingExit) : PendingExit :=
  if e.kind = .stop then e else { kind := .stop }

/-- The exit a tick goes on with. -/
def owningExit (S : Setup) (s : State) (e : PendingExit) (price : ℚ) : PendingExit :=
  if stopHit S s price then e.stopped else e

theorem PendingExit.hard.owning (he : e.hard) (s : State) : (owningExit S s e price).hard := by
  unfold owningExit PendingExit.stopped
  split
  · split
    · exact he
    · exact Or.inl rfl
  · exact he

/-- The world with another exit. -/
def World.exiting (w : World) (e : PendingExit) : World :=
  { w with s := { w.s with pendingExit := some e } }

theorem requestMarketExit_stop (hexit : w.s.pendingExit = some e) :
    requestMarketExit S price .stop false w =
      continueMarketExit S price (w.exiting e.stopped) := by
  unfold requestMarketExit World.exiting PendingExit.stopped
  rw [update_bind]
  by_cases hkind : e.kind = .stop
  · simp only [hexit, hkind, Option.all_some, decide_true, ne_eq, not_true_eq_false, decide_false,
      Bool.and_false, Bool.false_eq_true, if_false, if_true]
    rw [← hexit]
  · simp only [hexit, hkind, Option.all_some, decide_true, ne_eq, not_false_eq_true, Bool.and_self,
      if_true, if_false]

theorem stopHit_eq (s : State) (h : flatQty < s.qty) :
    stopHit S s price = hitStop (s.avg.getD 0) price S.params.stopLossPct := by
  unfold stopHit
  rw [decide_eq_true h, Bool.true_and]

/-- A tick with an exit pending and nothing open, once it has reached the exits. -/
theorem stepExits_progress (hS : Accepting S) (sig : Signals) (he : e.hard)
    (hexit : w.s.pendingExit = some e) (horders : w.s.orders = [])
    (hpending : w.s.pendingIntent = none) :
    Progress w (World.after (stepExits S price w.s.qty sig w)) ↔
      Sellable S w.s (owningExit S w.s e price) price := by
  have hnone : w.s.hasPendingMarketExit = false := by
    unfold State.hasPendingMarketExit
    rw [horders]
    rfl
  by_cases hstop : stopHit S w.s price = true
  · -- the stop-loss takes the tick
    have hheld : flatQty < w.s.qty := by
      unfold stopHit at hstop
      rw [Bool.and_eq_true, decide_eq_true_eq] at hstop
      exact hstop.1
    have hhit : hitStop (w.s.avg.getD 0) price S.params.stopLossPct = true := by
      rw [← stopHit_eq w.s hheld]
      exact hstop
    have hguard : ¬ (S.params.stopLossPct ≤ 0 ∨ w.s.avg.getD 0 = 0) := by
      intro h
      unfold hitStop at hhit
      rw [if_pos h] at hhit
      cases hhit
    have htaken : stopTaken S price w.s.qty w =
        (continueMarketExit S price >>= fun _ => pure true) (w.exiting e.stopped) := by
      unfold stopTaken checkStopLoss
      rw [if_pos hheld, state_bind]
      simp only [if_neg hguard, hhit, hnone, Bool.false_eq_true, if_false, if_true]
      show EStateM.bind (requestMarketExit S price .stop false) _ w = EStateM.bind _ _ _
      unfold EStateM.bind
      rw [requestMarketExit_stop hexit]
    have hrun : World.after (stepExits S price w.s.qty sig w) =
        World.after (continueMarketExit S price (w.exiting e.stopped)) := by
      unfold stepExits
      cases hx : continueMarketExit S price (w.exiting e.stopped) with
      | ok b w' =>
          have hok : stopTaken S price w.s.qty w = .ok true w' := by
            rw [htaken, bind_ok _ hx]
            rfl
          rw [bind_ok _ hok]
          rfl
      | error stop w' =>
          have herr : stopTaken S price w.s.qty w = .error stop w' := by
            rw [htaken, bind_error _ hx]
          rw [bind_error _ herr]
          cases stop <;> rfl
    have howning : owningExit S w.s e price = e.stopped := by
      unfold owningExit
      rw [if_pos hstop]
    rw [hrun, howning]
    have hhard : e.stopped.hard := howning ▸ he.owning w.s
    exact continueMarketExit_progress (w := w.exiting e.stopped) hS hhard rfl horders hpending
  · -- no stop: the exit that was pending goes on
    have howning : owningExit S w.s e price = e := by
      unfold owningExit
      rw [if_neg hstop]
    have htaken : stopTaken S price w.s.qty w = .ok false w := by
      unfold stopTaken checkStopLoss
      by_cases hheld : flatQty < w.s.qty
      · rw [if_pos hheld, state_bind]
        rw [stopHit_eq w.s hheld] at hstop
        simp only [hstop, Bool.false_eq_true, if_false, ite_self]
        rfl
      · rw [if_neg hheld]
        rfl
    have hrun : World.after (stepExits S price w.s.qty sig w) =
        World.after (continueMarketExit S price w) := by
      unfold stepExits
      rw [bind_ok _ htaken]
      simp only [Bool.false_eq_true, if_false]
      rw [state_bind]
      simp only [hnone, hexit, Option.isSome_some, Bool.false_eq_true, if_false, if_true]
      exact after_bind_pure _ _ w
    rw [hrun, howning]
    exact continueMarketExit_progress hS he hexit horders hpending

end Exit

/-! ## The tick -/

section Tick

variable {S : Setup} {w : World} {e : PendingExit}

/-- The balance the venue has covers the position. -/
def ledgerPasses (S : Setup) (w : World) : Bool :=
  match S.venue.freeBalance w.calls with
  | .ok (.ok (some ledgerQty)) =>
      !(ledgerQty + max (2 / 10 ^ max S.precision.volumeDecimals 1) flatQty < w.s.qty)
  | _ => false

/-- The position an adoption takes over at this tick. -/
def adoption (S : Setup) (w : World) : Option ℚ :=
  if w.s.cycle ≠ 1 ∨ 0 < w.s.spent then none
  else if 0 < S.params.adoptQty then
    if S.params.adoptQty ≤ flatQty then none else some S.params.adoptQty
  else
    match S.venue.freeBalance w.calls with
    | .ok (.ok raw) =>
        if raw.getD 0 ≤ flatQty then none
        else if S.precision.dustSafeQty (raw.getD 0) ≤ 0 then none
        else some (S.precision.dustSafeQty (raw.getD 0))
    | _ => none

/-- The state with which a tick reaches the exits, if it does: a balance that has to be checked
covers the position, and an adoption that is pending is made. -/
def entering (S : Setup) (w : World) : Option State :=
  if flatQty < w.s.qty then
    if !S.dryRun && w.s.ledgerReconcileRequired then
      if ledgerPasses S w then some { w.s with ledgerReconcileRequired := false } else none
    else some w.s
  else if 0 < S.params.adoptCost ∧ w.s.adopted = false then
    (adoption S w).map (fun qty => { w.s with
      qty := qty
      cost := qty * S.params.adoptCost
      entryPrice := some S.params.adoptCost
      lastBuyPrice := some S.params.adoptCost
      adopted := true })
  else some w.s

theorem adoptableQty_run (hS : Accepting S) (hfresh : ¬ (w.s.cycle ≠ 1 ∨ 0 < w.s.spent)) :
    ∃ w', w'.s = w.s ∧ w'.log = w.log ∧
      (adoptableQty S w = .ok (adoption S w) w' ∨
        (adoption S w = none ∧ ∃ exc, adoptableQty S w = .error (.raised exc) w')) := by
  unfold adoptableQty adoption
  rw [if_neg hfresh]
  by_cases hqty : 0 < S.params.adoptQty
  · rw [if_pos hqty, if_pos hqty]
    exact ⟨w, rfl, rfl, Or.inl rfl⟩
  · rw [if_neg hqty, if_neg hqty]
    obtain ⟨answer, hanswer⟩ := hS.freeBalance w.calls
    rw [bind_ok _ (ask_quiet hanswer), hanswer]
    refine ⟨w.called, rfl, rfl, ?_⟩
    cases answer with
    | error exc =>
        by_cases hprovider : isProviderError exc.kind = true
        · simp only [if_pos hprovider]
          exact Or.inl rfl
        · simp only [if_neg hprovider]
          exact Or.inr ⟨trivial, exc, rfl⟩
    | ok raw => exact Or.inl rfl

/-- The program neither goes on nor leaves a trace. -/
def Stuck (w : World) (r : EStateM.Result Stop World Unit) : Prop :=
  ∃ w', w'.s = w.s ∧ w'.log = w.log ∧ (r = .ok () w' ∨ ∃ exc, r = .error (.raised exc) w')

theorem Stuck.not_progress {r : EStateM.Result Stop World Unit} (h : Stuck w r) :
    ¬ Progress w (World.after r) := by
  obtain ⟨w', hs, hlog, hr⟩ := h
  have hafter : World.after r = w' := by
    rcases hr with hr | ⟨exc, hr⟩ <;> rw [hr] <;> rfl
  rw [hafter]
  exact TradingFleet.SpotDca.not_progress hlog (by rw [hs])

/-- The ledger check, when it is made. -/
theorem ledgerGate_run (hS : Accepting S) (horders : w.s.orders = [])
    (hneeded : (!S.dryRun && w.s.ledgerReconcileRequired) = true) (hheld : flatQty < w.s.qty) :
    ∃ w', w'.log = w.log ∧
      if ledgerPasses S w then
        ledgerGate S w = .ok true w' ∧ w'.s = { w.s with ledgerReconcileRequired := false }
      else
        w'.s = w.s ∧ (ledgerGate S w = .ok false w' ∨
          ∃ exc, ledgerGate S w = .error (.raised exc) w') := by
  obtain ⟨answer, hanswer⟩ := hS.freeBalance w.calls
  have hopen : decide (w.s.orders = []) = true := decide_eq_true horders
  unfold ledgerGate ledgerPasses
  rw [state_bind, hanswer]
  simp only [hneeded, hheld, hopen, decide_true, Bool.and_self, if_true]
  rw [bind_ok _ (ask_quiet hanswer)]
  match answer with
  | .error exc =>
      refine ⟨w.called, rfl, ?_⟩
      by_cases hcaught : (isProviderError exc.kind || decide (exc.kind = .value)) = true
      · simp only [if_pos hcaught]
        exact ⟨rfl, Or.inl rfl⟩
      · simp only [if_neg hcaught]
        exact ⟨rfl, Or.inr ⟨exc, rfl⟩⟩
  | .ok none => exact ⟨w.called, rfl, rfl, Or.inl rfl⟩
  | .ok (some ledgerQty) =>
      by_cases hshort : ledgerQty + max (2 / 10 ^ max S.precision.volumeDecimals 1) flatQty < w.s.qty
      · refine ⟨w.called, rfl, ?_⟩
        simp only [hshort, decide_true, Bool.not_true, Bool.false_eq_true, if_false, if_true]
        exact ⟨rfl, Or.inl rfl⟩
      · let w₁ : World :=
          { w.called with s := { w.s with ledgerReconcileRequired := false } }
        refine ⟨w₁.stored, rfl, ?_⟩
        simp only [hshort, decide_false, Bool.not_false, if_false, if_true]
        refine ⟨?_, rfl⟩
        rw [update_bind, bind_ok _ (save_ok hS _)]
        rfl

/-- No ledger check is made. -/
theorem ledgerGate_skip (h : (!S.dryRun && w.s.ledgerReconcileRequired) = false ∨
    ¬ flatQty < w.s.qty) : ledgerGate S w = .ok true w := by
  unfold ledgerGate
  rw [state_bind]
  rcases h with h | h
  · simp only [h, Bool.false_and, Bool.false_eq_true, if_false]
    rfl
  · simp only [h, decide_false, Bool.and_false, Bool.false_and, Bool.false_eq_true, if_false]
    rfl

/-- The adoption, when it is pending. -/
theorem stepAdopt_run (hS : Accepting S) (price : ℚ) (sig : Signals) (horders : w.s.orders = [])
    (hflat : ¬ flatQty < w.s.qty) (hadopt : 0 < S.params.adoptCost ∧ w.s.adopted = false) :
    match adoption S w with
    | none => Stuck w (stepAdopt S price sig w)
    | some qty => ∃ w', w'.s = { w.s with
          qty := qty
          cost := qty * S.params.adoptCost
          entryPrice := some S.params.adoptCost
          lastBuyPrice := some S.params.adoptCost
          adopted := true } ∧ w'.log = w.log ∧
        stepAdopt S price sig w = stepExits S price qty sig w' := by
  have hstart : stepAdopt S price sig w = (maybeAdopt S >>= fun _ => state >>= fun s =>
      if s.adopted then stepExits S price s.qty sig else pure ()) w := by
    unfold stepAdopt
    rw [state_bind]
    simp only [hadopt.1, hadopt.2, not_lt.mp hflat, and_self, if_true]
  rw [hstart]
  by_cases hfresh : w.s.cycle ≠ 1 ∨ 0 < w.s.spent
  · -- not the first cycle, or something was spent already: no adoption
    have hnone : adoption S w = none := by
      unfold adoption
      rw [if_pos hfresh]
    have hmaybe : maybeAdopt S w = .ok () w := by
      unfold maybeAdopt
      rw [state_bind]
      simp only [not_le.mpr hadopt.1, hadopt.2, hfresh, Bool.false_eq_true, or_self, or_true,
        if_false, if_true]
      rfl
    rw [hnone]
    refine ⟨w, rfl, rfl, Or.inl ?_⟩
    rw [bind_ok _ hmaybe, state_bind]
    simp only [hadopt.2, Bool.false_eq_true, if_false]
    rfl
  · -- the balance decides what can be adopted; reading it may raise
    obtain ⟨w', hs, hlog, hfound⟩ := adoptableQty_run hS hfresh
    have hguards : ¬ (flatQty < w.s.qty ∨ w.s.orders ≠ [] ∨ w.s.cycle ≠ 1 ∨ 0 < w.s.spent) := by
      rintro (h | h | h)
      · exact hflat h
      · exact h horders
      · exact hfresh h
    have hmaybe : maybeAdopt S w = (adoptableQty S >>= fun found =>
        match found with
        | none => pure ()
        | some qty => do
            update (fun s => { s with
              qty := qty
              cost := qty * S.params.adoptCost
              entryPrice := some S.params.adoptCost
              lastBuyPrice := some S.params.adoptCost
              adopted := true })
            save S) w := by
      unfold maybeAdopt
      rw [state_bind]
      simp only [not_le.mpr hadopt.1, hadopt.2, Bool.false_eq_true, or_self, if_false]
      exact congrFun (if_neg hguards) w
    rcases hfound with hok | ⟨hnone, exc, herror⟩
    · cases hadopted : adoption S w with
      | none =>
          rw [hadopted] at hok
          refine ⟨w', hs, hlog, Or.inl ?_⟩
          have hrun : maybeAdopt S w = .ok () w' := by
            rw [hmaybe, bind_ok _ hok]
            rfl
          rw [bind_ok _ hrun, state_bind, hs]
          simp only [hadopt.2, Bool.false_eq_true, if_false]
          rfl
      | some qty =>
          rw [hadopted] at hok
          let w₁ : World := { w' with s := { w'.s with
            qty := qty
            cost := qty * S.params.adoptCost
            entryPrice := some S.params.adoptCost
            lastBuyPrice := some S.params.adoptCost
            adopted := true } }
          have hrun : maybeAdopt S w = .ok () w₁.stored := by
            rw [hmaybe, bind_ok _ hok]
            dsimp only
            rw [update_bind]
            exact save_ok hS _
          refine ⟨w₁.stored, ?_, hlog, ?_⟩
          · show { w'.s with
              qty := qty
              cost := qty * S.params.adoptCost
              entryPrice := some S.params.adoptCost
              lastBuyPrice := some S.params.adoptCost
              adopted := true } = _
            rw [hs]
          · rw [bind_ok _ hrun, state_bind]
            rfl
    · rw [hnone]
      refine ⟨w', hs, hlog, Or.inr ⟨exc, ?_⟩⟩
      have hrun : maybeAdopt S w = .error (.raised exc) w' := by
        rw [hmaybe, bind_error _ herror]
      exact bind_error _ hrun

/-- A tick with nothing open reaches the exits with the state `entering` says, or it is stuck. -/
theorem step_run (hS : Accepting S) (price : ℚ) (sig : Signals) (horders : w.s.orders = [])
    (hpending : w.s.pendingIntent = none) :
    match entering S w with
    | none => Stuck w (step S price sig w)
    | some s => ∃ w', w'.s = s ∧ w'.log = w.log ∧
        step S price sig w = stepExits S price s.qty sig w' := by
  have hstart : step S price sig w = (ledgerGate S >>= fun go =>
      if go then stepAdopt S price sig else pure ()) w := by
    unfold step
    rw [state_bind]
    simp only [hpending, Option.isSome_none, Bool.false_eq_true, if_false]
  -- a position is never adopted over one that is held
  have hnotAdopting : ∀ w' : World, flatQty < w'.s.qty →
      stepAdopt S price sig w' = stepExits S price w'.s.qty sig w' := by
    intro w' hheld
    unfold stepAdopt
    rw [state_bind]
    simp only [not_le.mpr hheld, and_false, if_false]
  rw [hstart]
  unfold entering
  by_cases hheld : flatQty < w.s.qty
  · rw [if_pos hheld]
    -- a position that is held goes through the ledger first, if a check is due
    by_cases hneeded : (!S.dryRun && w.s.ledgerReconcileRequired) = true
    · rw [if_pos hneeded]
      obtain ⟨w', hlog, hgate⟩ := ledgerGate_run hS horders hneeded hheld
      by_cases hpasses : ledgerPasses S w = true
      · rw [if_pos hpasses] at hgate ⊢
        refine ⟨w', hgate.2, hlog, ?_⟩
        rw [bind_ok _ hgate.1]
        have hheld' : flatQty < w'.s.qty := by
          rw [hgate.2]
          exact hheld
        simp only [if_true]
        rw [hnotAdopting w' hheld', hgate.2]
      · rw [if_neg hpasses] at hgate ⊢
        obtain ⟨hs, hgate | ⟨exc, hgate⟩⟩ := hgate
        · exact ⟨w', hs, hlog, Or.inl (bind_ok _ hgate)⟩
        · exact ⟨w', hs, hlog, Or.inr ⟨exc, bind_error _ hgate⟩⟩
    · rw [if_neg hneeded]
      refine ⟨w, rfl, rfl, ?_⟩
      rw [bind_ok _ (ledgerGate_skip (Or.inl (by simpa using hneeded)))]
      simp only [if_true]
      exact hnotAdopting w hheld
  · rw [if_neg hheld, bind_ok _ (ledgerGate_skip (Or.inr hheld))]
    simp only [if_true]
    -- without a position only an adoption comes before the exits
    by_cases hadopt : 0 < S.params.adoptCost ∧ w.s.adopted = false
    · rw [if_pos hadopt]
      have hrun := stepAdopt_run hS price sig horders hheld hadopt
      cases hadopted : adoption S w with
      | none =>
          rw [hadopted] at hrun
          exact hrun
      | some qty =>
          rw [hadopted] at hrun
          exact hrun
    · rw [if_neg hadopt]
      refine ⟨w, rfl, rfl, ?_⟩
      unfold stepAdopt
      rw [state_bind]
      have hno : ¬ (0 < S.params.adoptCost ∧ w.s.adopted = false ∧ w.s.qty ≤ flatQty) :=
        fun h => hadopt ⟨h.1, h.2.1⟩
      rw [if_neg hno]

theorem entering_keeps {s : State} (h : entering S w = some s) :
    s.pendingExit = w.s.pendingExit ∧ s.orders = w.s.orders ∧
      s.pendingIntent = w.s.pendingIntent ∧ s.cycle = w.s.cycle := by
  unfold entering at h
  split at h
  · split at h
    · split at h
      · cases h
        exact ⟨rfl, rfl, rfl, rfl⟩
      · cases h
    · cases h
      exact ⟨rfl, rfl, rfl, rfl⟩
  · split at h
    · obtain ⟨qty, -, rfl⟩ := Option.map_eq_some_iff.mp h
      exact ⟨rfl, rfl, rfl, rfl⟩
    · cases h
      exact ⟨rfl, rfl, rfl, rfl⟩

/-- The tick reaches the exits, with a position that can be sold or a sale that can be closed. -/
def Exitable (S : Setup) (w : World) (e : PendingExit) (price : ℚ) : Prop :=
  ∃ s, entering S w = some s ∧ Sellable S s (owningExit S s e price) price

/-- For every state with an exit pending, nothing open and a venue that accepts: the next tick
submits an exit SELL or closes the cycle exactly when the position is one that can be exited. -/
theorem exit_progresses_iff (hS : Accepting S) (hexit : w.s.pendingExit = some e) (he : e.hard)
    (horders : w.s.orders = []) (hpending : w.s.pendingIntent = none) (price : ℚ) (sig : Signals) :
    Progress w (w.act S (.step price sig)) ↔ Exitable S w e price := by
  have hrun := step_run hS price sig horders hpending
  show Progress w (World.after (step S price sig w)) ↔ _
  unfold Exitable
  cases hentering : entering S w with
  | none =>
      rw [hentering] at hrun
      exact iff_of_false hrun.not_progress (by simp)
  | some s =>
      rw [hentering] at hrun
      obtain ⟨w', hs, hlog, hstep⟩ := hrun
      obtain ⟨hexit', horders', hpending', hcycle⟩ := entering_keeps hentering
      -- what comes before the exits neither sells nor closes
      have hsame : Progress w (World.after (step S price sig w)) ↔
          Progress w' (World.after (step S price sig w)) := by
        unfold Progress
        rw [hlog, hs, hcycle]
      rw [hsame, hstep, ← hs, stepExits_progress hS sig he (by rw [hs, hexit', hexit])
        (by rw [hs, horders', horders]) (by rw [hs, hpending', hpending])]
      simp

end Tick

/-! ### A DCA that fills while the exit closes -/

/-- An entry of 1 at 100 is filled, its take-profit sells 0.99 at 110 while a DCA is open, and the
DCA is cancelled with this quantity filled. -/
def racingDca (dca : OrderStatus) : Setup :=
  sampleSetup { sampleVenue with
    orderStatus := fun n => .ok (.ok (
      if n = 7 then boughtReport
      else if n = 25 then
        sampleStatus .closed (99 / 100) (1089 / 10) (by norm_num) (by norm_num)
      else if n = 30 then dca
      else openReport)) }

def racingRun : List Action :=
  [.step 100 {}, .reconcile 100, .step 89 {}, .reconcile 111, .step 111 {}, .reconcile 111]

/-- An answer that is an order ID is an acceptance with that ID. -/
theorem captureSubmission_text {t : String} (ht : blank t = false) :
    (captureSubmission (.ok (.native (.value (.text t))))).state = .accepted ∧
      truthy (outcomeFields (captureSubmission (.ok (.native (.value (.text t)))))).orderId =
        true := by
  have hid : extractOrderId (.value (.text t)) = some t := by
    unfold extractOrderId
    simp [Val.firstItem, Val.str, Scalar.str, ht]
  have hcapture : captureSubmission (.ok (.native (.value (.text t)))) =
      { state := .accepted, orderId := some (strip t), native := .value (.text t) } := by
    unfold captureSubmission
    simp only [hid]
  have hempty : t ≠ "" := by
    intro h
    rw [h] at ht
    revert ht
    decide
  rw [hcapture]
  refine ⟨rfl, ?_⟩
  unfold outcomeFields
  simp [Native.missing, orderFields, OrderFields.update, ht, truthy, hempty]

theorem racingDca_accepting (dca : OrderStatus) : Accepting (racingDca dca) where
  save _ := rfl
  preflight _ := rfl
  submit n := by
    have hblank : blank ("O-" ++ toString n) = false := by
      refine blank_of_prefix (c := 'O') (l := '-' :: (toString n).toList) _ ?_ rfl
      rw [String.toList_append]
      rfl
    exact ⟨_, rfl, captureSubmission_text hblank⟩
  time _ := ⟨1000, by norm_num, rfl⟩
  freeBalance _ := ⟨_, rfl⟩
  label := by simp only [racingDca, sampleSetup]; decide
  digest raw := by
    refine blank_of_prefix (c := 'd') (l := raw.toList) _ ?_ rfl
    show ("d" ++ raw).toList = _
    rw [String.toList_append]
    rfl
  symbol := by simp only [racingDca, sampleSetup]; decide

/-- The take-profit has sold, and the exit waits for the DCA. -/
def soldExit : PendingExit := { kind := .tp, fillPrice := some 110 }

/-- 0.5 is left: the next tick sells 0.49. -/
def halfLeft : OrderStatus :=
  sampleStatus .canceled (1 / 2) (89 / 2) halfUnit_nonneg (by norm_num)

theorem halfLeft_progresses :
    Progress (World.initial.run (racingDca halfLeft) racingRun)
      ((World.initial.run (racingDca halfLeft) racingRun).act (racingDca halfLeft)
        (.step 100 {})) := by
  let w := World.initial.run (racingDca halfLeft) racingRun
  have hstate : w.s.pendingExit = some soldExit ∧ w.s.orders = [] ∧ w.s.pendingIntent = none ∧
      w.s.qty = 1 / 2 ∧ w.s.cost = 89 / 2 ∧ w.s.ledgerReconcileRequired = false := by
    decide +kernel
  obtain ⟨hexit, horders, hpending, hqty, hcost, hledger⟩ := hstate
  have hheld : flatQty < w.s.qty := by
    rw [hqty]
    norm_num [flatQty]
  refine (exit_progresses_iff (racingDca_accepting halfLeft) hexit (Or.inl rfl) horders hpending
    100 {}).mpr ⟨w.s, ?_, ?_⟩
  · unfold entering
    rw [if_pos hheld, hledger]
    rfl
  · have howning : owningExit (racingDca halfLeft) w.s soldExit 100 = soldExit := by
      unfold owningExit stopHit State.avg
      rw [if_pos hheld, hqty, hcost]
      decide +kernel
    unfold Sellable exitInstruction
    rw [if_neg (not_le.mpr hheld), howning, hqty]
    decide +kernel

/-- 0.01 is left: it is too little for an order and too much for a flat position. -/
def tickLeft : OrderStatus :=
  sampleStatus .canceled (1 / 100) (89 / 100) (by norm_num) (by norm_num)

theorem tickLeft_stranded :
    Accepting (racingDca tickLeft) ∧
      Reachable (racingDca tickLeft) (World.initial.run (racingDca tickLeft) racingRun) ∧
      soldExit.hard ∧
      (World.initial.run (racingDca tickLeft) racingRun).s.pendingExit = some soldExit ∧
      (World.initial.run (racingDca tickLeft) racingRun).s.orders = [] ∧
      (World.initial.run (racingDca tickLeft) racingRun).s.pendingIntent = none ∧
      ¬ Progress (World.initial.run (racingDca tickLeft) racingRun)
        ((World.initial.run (racingDca tickLeft) racingRun).act (racingDca tickLeft)
          (.step 100 {})) := by
  let w := World.initial.run (racingDca tickLeft) racingRun
  have hstate : w.s.pendingExit = some soldExit ∧ w.s.orders = [] ∧ w.s.pendingIntent = none ∧
      (w.act (racingDca tickLeft) (.step 100 {})).log.length = w.log.length ∧
      (w.act (racingDca tickLeft) (.step 100 {})).s.cycle = w.s.cycle := by
    decide +kernel
  obtain ⟨hexit, horders, hpending, hlog, hcycle⟩ := hstate
  exact ⟨racingDca_accepting tickLeft, ⟨racingRun, rfl⟩, Or.inl rfl, hexit, horders, hpending,
    not_progress_of_length hlog hcycle⟩

end TradingFleet.SpotDca
