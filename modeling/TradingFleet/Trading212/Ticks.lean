import TradingFleet.Trading212.Ladder
import TradingFleet.Trading212.Walks

set_option autoImplicit false

/-! # Trading 212: the ladder, the reconciliation and the whole tick

The specifications of the remaining programs, up to `tick`: every live tick is a walk, whatever the
venue answers and wherever it stops.
-/

namespace TradingFleet.Trading212

open TradingFleet.Text hiding orElse
open TradingFleet.Lifecycle TradingFleet.Hoare
open TradingFleet.Keyed (updateFirst mem_replaced replaced_mem replaced_keeps)
open TradingFleet.Rounding (roundTo roundTo_roundTo)

/-! ## The ladder -/

section Ladder

variable {S : Setup} {w₀ : World} (hlive : S.dryRun = false) (hw₀ : w₀.Live)

theorem avgCost_congr {s s' : State} (hqty : s'.qty = s.qty) (hcost : s'.costUsd = s.costUsd) :
    s'.avgCost = s.avgCost := by
  unfold State.avgCost
  rw [hqty, hcost]

theorem ladderDesired_congr {P : StratParams} {s s' : State}
    (hsold : s'.tpSoldLevels = s.tpSoldLevels) (held avg : ℚ) :
    ladderDesired P s' held avg = ladderDesired P s held avg := by
  unfold ladderDesired unsoldLevels
  rw [hsold]

/-- The position is the one of `s` while anything is held; a level of which a SELL is tracked is in
`levels`, or was placed in this pass. -/
def Placed (s : State) (levels : List ℚ) (done : List (ℚ × ℚ × ℚ)) (s' : State) : Prop :=
  s'.tpSoldLevels = s.tpSoldLevels ∧
    (flatQty < s'.qty → s'.qty = s.qty ∧ s'.costUsd = s.costUsd) ∧
    ∀ o ∈ s'.orders, o.side = .sell → ∀ level, o.level = some level →
      level ∈ levels ∨ level ∈ done.map Prod.fst

theorem Placed.mono {s s' : State} {levels : List ℚ} {done : List (ℚ × ℚ × ℚ)}
    (h : Placed s levels done s') (d : ℚ × ℚ × ℚ) : Placed s levels (done ++ [d]) s' := by
  refine ⟨h.1, h.2.1, fun o ho hside level hlevel => ?_⟩
  rcases h.2.2 o ho hside level hlevel with hin | hin
  · exact Or.inl hin
  · rw [List.map_append]
    exact Or.inr (List.mem_append_left _ hin)

theorem Placed.after {s s₁ s₂ : State} {levels : List ℚ} {done : List (ℚ × ℚ × ℚ)}
    {d : ℚ × ℚ × ℚ} (h : Placed s levels done s₁) (hafter : After s₁ (some d.1) s₂) :
    Placed s levels (done ++ [d]) s₂ := by
  obtain ⟨hsold, hpos, horders⟩ := hafter
  refine ⟨hsold.trans h.1, fun hheld => ?_, fun o ho hside level hlevel => ?_⟩
  · obtain ⟨hqty, hcost⟩ := hpos hheld
    obtain ⟨hqty', hcost'⟩ := h.2.1 (hqty ▸ hheld)
    exact ⟨hqty.trans hqty', hcost.trans hcost'⟩
  · rcases horders o ho hside with hnew | ⟨o', ho', hside', hsame⟩
    · have hlevel' : level = d.1 := Option.some.inj (hlevel.symm.trans hnew)
      subst hlevel'
      refine Or.inr ?_
      rw [List.map_append]
      exact List.mem_append_right _ (by simp)
    · exact (h.mono d).2.2 o' ho' hside' level (hsame.trans hlevel)

include hlive

/-- A level that has no SELL yet gets one of its share. -/
theorem placeLevel_at (hids : VenueIds S) {s : State} {avg : ℚ} (havg : s.avgCost = some avg)
    {levels : List ℚ} (now : ℚ) {done rest : List (ℚ × ℚ × ℚ)} {d : ℚ × ℚ × ℚ}
    (hsplit : ladderDesired S.params s s.qty avg = done ++ d :: rest) :
    Triple (At S w₀ (On (Placed s levels done))) (placeLevel S levels now d)
      (fun _ => At S w₀ (On (Placed s levels (done ++ [d])))) (Gone S w₀) := by
  have hmem : d ∈ ladderDesired S.params s s.qty avg := by
    rw [hsplit]
    simp
  have hnew : d.1 ∉ done.map Prod.fst := by
    have hnodup := ladderDesired_nodup S.params s s.qty avg
    rw [hsplit, List.map_append, List.map_cons] at hnodup
    exact fun hin => List.disjoint_of_nodup_append hnodup hin List.mem_cons_self
  have hstay : Triple (At S w₀ (On (Placed s levels done))) (pure () : StratM Unit)
      (fun _ => At S w₀ (On (Placed s levels (done ++ [d])))) (Gone S w₀) :=
    done_at (fun h => h.mono d)
  unfold placeLevel
  refine state_at (fun s₁ => ?_)
  refine Triple.strengthen (P := fun w => Placed s levels done s₁ ∧ At S w₀ (Is s₁) w) ?_
    (fun w hw => ⟨by rw [← hw.2.2.2]; exact hw.2.2.1, hw.imp And.right⟩)
  refine Triple.of_fact (fun hplaced => ?_)
  have hback : ∀ w, At S w₀ (Is s₁) w → At S w₀ (On (Placed s levels done)) w :=
    fun w hw => hw.imp (fun hs => by rw [On, hs]; exact hplaced)
  split
  · exact hstay.strengthen hback
  · rename_i hlevels
    split
    · exact hstay.strengthen hback
    · have hrule : ∀ p : Pending, p.qty = roundTo d.2.1 2 → p.kind = .tp → p.level = some d.1 →
          SellRule S s₁ p := by
        intro p hq hk hl
        refine .rung d.1 hk hl (fun o ho hside hlevel => ?_) (fun hheld => ?_)
        · rcases hplaced.2.2 o ho hside d.1 hlevel with hin | hin
          · exact hlevels hin
          · exact hnew hin
        · obtain ⟨hqty, hcost⟩ := hplaced.2.1 hheld
          refine ⟨avg, d.2.2, (avgCost_congr hqty hcost).trans havg, ?_⟩
          rw [ladderDesired_congr hplaced.1, hqty, hq, (ladderDesired_round hmem).2]
          exact hmem
      refine Triple.bind (placeSell_at hlive hids d.2.2 (some d.1) .tp false hrule)
        (fun placed => ?_)
      refine Triple.strengthen (P := At S w₀ (On (Placed s levels (done ++ [d])))) ?_
        (fun w hw => hw.imp (fun hafter => hplaced.after hafter))
      split
      · exact done_at (fun h => h)
      · exact update_at (fun _ _ _ => .note rfl) (fun _ h => h)

include hw₀

omit hw₀ in
/-- The SELLs without a level are only marked. -/
theorem clearPlainSells_at {s : State} (l : List Order)
    (hl : ∀ o ∈ l, ¬ Paper o.id) :
    Triple (At S w₀ (On (Kin s))) (clearPlainSells S l) (fun _ => At S w₀ (On (Kin s)))
      (Gone S w₀) := by
  induction l with
  | nil => exact done (fun _ hw => hw)
  | cons o rest ih =>
      unfold clearPlainSells
      refine Triple.bind (cancelSpecific_at hlive (closed_on (Kin s)) (hl o List.mem_cons_self)
        (fun w hw => hw.marked (marked_requested o))) (fun cancelled => ?_)
      refine Triple.ite ?_ (done (fun _ hw => hw))
      refine state_at (fun s' => Triple.strengthen (P := At S w₀ (On (Kin s))) ?_
        (fun _ hw => hw.imp And.left))
      exact Triple.ite (done (fun _ hw => hw)) (ih (fun o ho => hl o (List.mem_cons_of_mem _ ho)))

/-- In live mode no level is taken off: the cancel leaves the SELL tracked. -/
theorem staleLevels_at {s : State} (desired : List (ℚ × ℚ × ℚ)) (levels : List ℚ) (level : ℚ) :
    Triple (At S w₀ (On (Kin s))) (staleLevels S desired levels level)
      (fun levels' => At S w₀ (fun w => levels' = levels ∧ Kin s w.s)) (Gone S w₀) := by
  have hstay : Triple (At S w₀ (On (Kin s))) (pure levels : StratM (List ℚ))
      (fun levels' => At S w₀ (fun w => levels' = levels ∧ Kin s w.s)) (Gone S w₀) :=
    done (fun _ hw => hw.imp (fun h => ⟨rfl, h⟩))
  unfold staleLevels
  refine state_at (fun s' => ?_)
  cases hfind : s'.orders.reverse.find? (fun o => o.side = .sell ∧ o.level = some level) with
  | none => exact hstay.strengthen (fun _ hw => hw.imp And.left)
  | some o =>
      have hmem : o ∈ s'.orders := List.mem_reverse.mp (List.mem_of_find?_eq_some hfind)
      refine Triple.strengthen (P := At S w₀ (On (fun s₁ => Kin s s₁ ∧ o ∈ s₁.orders))) ?_
        (fun w hw => hw.imp (fun h => ⟨h.1, by rw [h.2]; exact hmem⟩))
      have hbody : ∀ stale : Bool, Triple (At S w₀ (On (fun s₁ => Kin s s₁ ∧ o ∈ s₁.orders)))
          (if stale then do
            let cancelled ← cancelSpecific S o
            let s ← state
            pure (if cancelled && !s.stillTracks o then levels.erase level else levels)
          else pure levels)
          (fun levels' => At S w₀ (fun w => levels' = levels ∧ Kin s w.s))
          (Gone S w₀) := by
        intro stale
        refine Triple.ite ?_ (hstay.strengthen (fun _ hw => hw.imp And.left))
        refine Triple.bind (cancelTracked_at hlive hw₀ (fun _ h => h.marked (marked_requested o)))
          (fun cancelled => ?_)
        refine state_at (fun s₂ => done (fun w hw => hw.imp (fun h => ?_)))
        obtain ⟨⟨hkin, htracks⟩, hs⟩ := h
        have htracks' : s₂.stillTracks o = true := by
          rw [← hs]
          exact htracks
        refine ⟨?_, hkin⟩
        simp [htracks']
      dsimp only
      cases desired.find? (fun d => d.1 = level) with
      | none => exact hbody true
      | some d => exact Triple.bind (outdated_at o d.2.1 d.2.2) hbody

/-- `_manage_tp_ladder`, for the position that the state shows. -/
theorem manageTpLadder_at (hids : VenueIds S) {s : State} {avg : ℚ} (havg : s.avgCost = some avg) :
    Triple (At S w₀ (Is s)) (manageTpLadder S s.qty avg) (fun _ => At S w₀ Free)
      (Gone S w₀) := by
  have hstay : ∀ f : World → Prop, Triple (At S w₀ f) (pure () : StratM Unit)
      (fun _ => At S w₀ Free) (Gone S w₀) := fun f => done (fun _ hw => hw.free)
  unfold manageTpLadder
  refine state_at (fun s₁ => ?_)
  intro w hw
  have hplain : ∀ o ∈ s₁.orders.filter (fun o => o.side = .sell ∧ o.level = none),
      ¬ Paper o.id := by
    intro o ho
    refine (hw.live hw₀).1 o ?_
    rw [hw.2.2.2]
    exact List.mem_of_mem_filter ho
  refine Triple.bind (clearPlainSells_at hlive (s := s) _ hplain) (fun cleared => ?_) w
    (hw.imp (fun h => by rw [On, h.1]; exact Kin.refl s))
  refine Triple.ite ?_ (hstay _)
  refine state_at (fun s₂ => ?_)
  refine Triple.strengthen (P := fun w => Kin s s₂ ∧ At S w₀ (Is s₂) w) ?_
    (fun w hw => ⟨by rw [← hw.2.2.2]; exact hw.2.2.1, hw.imp And.right⟩)
  refine Triple.of_fact (fun hkin => ?_)
  obtain ⟨hqty, hcost, hsold, -⟩ := hkin
  have havg' : s₂.avgCost = some avg := (avgCost_congr hqty hcost).trans havg
  rw [← hqty]
  extract_lets desired levels
  refine Triple.ite (hstay _) ?_
  -- the levels of the tracked SELLs, which no cancel takes away
  refine Triple.bind (Q := fun levels' => At S w₀ (fun w => levels' = levels ∧ Kin s₂ w.s))
    ?_ (fun levels' => ?_)
  · refine (Triple.foldlM
      (I := fun _ levels' => At S w₀ (fun w => levels' = levels ∧ Kin s₂ w.s)) ?_
      levels).strengthen (fun w hw => hw.imp (fun hs => ⟨rfl, by rw [hs]; exact Kin.refl s₂⟩))
    intro _ level _ acc _
    refine Triple.strengthen (P := fun w => acc = levels ∧ At S w₀ (On (Kin s₂)) w) ?_
      (fun w hw => ⟨hw.2.2.1, hw.imp And.right⟩)
    refine Triple.of_fact (fun hacc => ?_)
    rw [hacc]
    exact staleLevels_at hlive hw₀ desired levels level
  · refine Triple.strengthen (P := fun w => levels' = levels ∧ At S w₀ (On (Kin s₂)) w) ?_
      (fun w hw => ⟨hw.2.2.1, hw.imp And.right⟩)
    refine Triple.of_fact (fun hsame => ?_)
    rw [hsame]
    refine asking (closed_on (Kin s₂)).quiet (fun now => ?_)
    refine Triple.conseq (Triple.forM (I := fun done => At S w₀ (On (Placed s₂ levels done)))
      (fun done d rest hsplit => placeLevel_at hlive hids havg' now hsplit))
      (fun w hw => hw.imp (fun hkin' => ?_)) (fun _ _ hw => hw.free) (fun _ _ he => he)
    obtain ⟨hqty', hcost', hsold', horders⟩ := hkin'
    refine ⟨hsold', fun _ => ⟨hqty', hcost'⟩, fun o ho hside level hlevel => Or.inl ?_⟩
    obtain ⟨o', ho', hside', hsame⟩ := horders o ho hside
    refine List.mem_eraseDups.mpr (List.mem_filterMap.mpr ⟨o', ?_, hsame.trans hlevel⟩)
    exact List.mem_filter.mpr ⟨ho', by simpa using hside'⟩

end Ladder

/-! ## Buying and deciding -/

section Deciding

variable {S : Setup} {w₀ : World} (hlive : S.dryRun = false) (hw₀ : w₀.Live)

/-- A program that only decides whether the rest runs. -/
theorem stay_at (f : World → Prop) : Triple (At S w₀ f) (pure () : StratM Unit)
    (fun _ => At S w₀ Free) (Gone S w₀) := done (fun _ hw => hw.free)

theorem trendAllows_at :
    Triple (At S w₀ Free) (trendAllows S) (fun _ => At S w₀ Free) (Gone S w₀) := by
  unfold trendAllows
  refine Triple.ite (done (fun _ hw => hw)) ?_
  refine asking quiet_free (fun t => Triple.get (fun v hv => ?_))
  refine Triple.strengthen (P := At S w₀ Free) ?_ (fun w hw => hw ▸ hv)
  refine Triple.ite (done (fun _ hw => hw)) ?_
  refine asking quiet_free (fun slope => ?_)
  refine Triple.ite ?_ (done (fun _ hw => hw))
  refine asking quiet_free (fun t' => ?_)
  refine Triple.bind (Q := fun _ => At S w₀ Free) ?_ (fun _ => done (fun _ hw => hw))
  exact Triple.updates (fun w hw => ⟨hw.1.tail (.called w.calls (t' + 300)), hw.2⟩)

include hlive

theorem handleSlRebuy_at (hids : VenueIds S) (price : ℚ) (rebuy : SlRebuy) :
    Triple (At S w₀ Free) (handleSlRebuy S price rebuy) (fun _ => At S w₀ Free)
      (Gone S w₀) := by
  unfold handleSlRebuy
  extract_lets low
  refine Triple.bind (update_at (g := Free) (fun _ _ _ => .rebuy _) (fun _ _ => trivial))
    (fun _ => ?_)
  refine Triple.ite (stay_at _) ?_
  refine Triple.bind (update_at (g := Free) (fun _ _ _ => .rebuy none) (fun _ _ => trivial))
    (fun _ => ?_)
  refine state_at (fun s => Triple.strengthen (P := At S w₀ Free) ?_ (fun _ hw => hw.free))
  exact Triple.ite (stay_at _) (placeBuy_at hlive hids _ _ .entry)

theorem enter_at (hids : VenueIds S) (price : ℚ) (inBackoff : Bool) :
    Triple (At S w₀ Free) (enter S price inBackoff) (fun _ => At S w₀ Free)
      (Gone S w₀) := by
  unfold enter
  refine state_at (fun s => Triple.strengthen (P := At S w₀ Free) ?_ (fun _ hw => hw.free))
  refine Triple.ite (stay_at _) ?_
  cases s.slRebuy with
  | some rebuy => exact handleSlRebuy_at hlive hids price rebuy
  | none => exact Triple.ite (stay_at _) (placeBuy_at hlive hids _ _ .entry)

theorem considerDca_at (hids : VenueIds S) (price : ℚ) (inBackoff : Bool) :
    Triple (At S w₀ Free) (considerDca S price inBackoff) (fun _ => At S w₀ Free)
      (Gone S w₀) := by
  unfold considerDca
  refine state_at (fun s => Triple.strengthen (P := At S w₀ Free) ?_ (fun _ hw => hw.free))
  refine Triple.ite (Triple.bind trendAllows_at (fun allowed => ?_)) (stay_at _)
  exact Triple.ite (placeBuy_at hlive hids _ _ .dca) (stay_at _)

include hw₀

/-- `step`: an exit, or the take-profit and a DCA, or an entry. -/
theorem step_at (hids : VenueIds S) (price : ℚ) :
    Triple (At S w₀ Free) (step S price) (fun _ => At S w₀ Free) (Gone S w₀) := by
  unfold step
  refine state_at (fun s => ?_)
  refine Triple.strengthen (P := At S w₀ (On (Holding s.qty s.costUsd))) ?_
    (fun _ hw => hw.imp (fun h => by rw [On, h.2]; exact ⟨rfl, rfl⟩))
  refine asking (closed_on _).quiet (fun t => ?_)
  extract_lets inBackoff
  refine Triple.ite ((enter_at hlive hids price inBackoff).strengthen (fun _ hw => hw.free)) ?_
  -- from here on the position is held; each exit ends the tick or leaves it as it was
  refine Triple.bind (checkTrailing_at hlive hw₀ hids s.qty s.costUsd price) (fun stopped => ?_)
  cases stopped with
  | true => exact stay_at _
  | false =>
      refine Triple.strengthen (P := At S w₀ (On (Holding s.qty s.costUsd))) ?_
        (fun _ hw => hw.imp (fun h => h rfl))
      refine Triple.bind (checkStopLoss_at hlive hw₀ hids s.qty s.costUsd price) (fun stopped => ?_)
      cases stopped with
      | true => exact stay_at _
      | false =>
          refine Triple.strengthen (P := At S w₀ (On (Holding s.qty s.costUsd))) ?_
            (fun _ hw => hw.imp (fun h => h rfl))
          refine state_at (fun s₁ => ?_)
          refine Triple.strengthen (P := fun w => Holding s.qty s.costUsd s₁ ∧
            At S w₀ (Is s₁) w) ?_
            (fun w hw => ⟨by rw [← hw.2.2.2]; exact hw.2.2.1, hw.imp And.right⟩)
          refine Triple.of_fact (fun hheld => ?_)
          have hdca : Triple (At S w₀ Free) (considerDca S price inBackoff)
              (fun _ => At S w₀ Free) (Gone S w₀) :=
            considerDca_at hlive hids price inBackoff
          cases havg : nonzero s₁.avgCost with
          | none => exact hdca.strengthen (fun _ hw => hw.free)
          | some avg =>
              have havg' : s₁.avgCost = some avg := by
                cases hcost : s₁.avgCost with
                | none =>
                    rw [hcost] at havg
                    cases havg
                | some x =>
                    rw [hcost] at havg
                    unfold nonzero at havg
                    dsimp only at havg
                    split at havg
                    · cases havg
                    · exact havg
              dsimp only
              rw [← hheld.1]
              split
              · split
                · exact Triple.bind (manageTp_at hlive hw₀ hids avg) (fun _ => hdca)
                · exact Triple.bind (manageTpLadder_at hlive hw₀ hids havg') (fun _ => hdca)
              · exact hdca.strengthen (fun _ hw => hw.free)

end Deciding

/-! ## Statuses of one pass -/

/-- Every order of `s'` has the ID and the intent of an order of `s`. -/
def Sub (s s' : State) : Prop :=
  ∀ o ∈ s'.orders, ∃ o' ∈ s.orders, o'.id = o.id ∧ o'.intentId = o.intentId

theorem Sub.refl (s : State) : Sub s s := fun o ho => ⟨o, ho, rfl, rfl⟩

theorem Sub.trans {s s' s'' : State} (h : Sub s s') (h' : Sub s' s'') : Sub s s'' := by
  intro o ho
  obtain ⟨o', ho', hid, hintent⟩ := h' o ho
  obtain ⟨o'', ho'', hid', hintent'⟩ := h o' ho'
  exact ⟨o'', ho'', hid'.trans hid, hintent'.trans hintent⟩

theorem Sub.of_marked (s : State) {o o' : Order} (h : o.Marked o') : Sub s (s.replaceOrder o o') := by
  intro b hb
  rcases mem_replaced hb with hb | ⟨rfl, ho⟩
  · exact ⟨b, hb, rfl, rfl⟩
  · exact ⟨o, ho, h.id.symm, h.intentId.symm⟩

theorem Sub.of_removed (s : State) (o : Order) : Sub s (s.removeOrder o) :=
  fun b hb => ⟨b, List.mem_of_mem_erase hb, rfl, rfl⟩

/-- A cached status was reported, and no order was added since. -/
def Cached (cache : Cache) (w : World) : Prop :=
  ∀ id status, (id, some status) ∈ cache → ∃ after e older o, w.log = after ++ e :: older ∧
    (∀ a ∈ after, a.event.entering = false) ∧ e.event = .orderStatus o (.ok status) ∧ o.id = id ∧
    Sub e.before w.s

theorem Cached.extend {cache : Cache} {w w' : World} (h : Cached cache w) (es : List Entry)
    (hlog : w'.log = es ++ w.log) (hes : ∀ a ∈ es, a.event.entering = false) (hsub : Sub w.s w'.s) :
    Cached cache w' := by
  intro id status hmem
  obtain ⟨after, e, older, o, hsplit, hafter, hevent, hid, hbefore⟩ := h id status hmem
  refine ⟨es ++ after, e, older, o, by rw [hlog, hsplit, List.append_assoc], fun a ha => ?_,
    hevent, hid, hbefore.trans hsub⟩
  rcases List.mem_append.mp ha with ha | ha
  · exact hes a ha
  · exact hafter a ha

/-- The same while nothing is logged. -/
theorem Cached.sub {cache : Cache} {w w' : World} (h : Cached cache w) (hlog : w'.log = w.log)
    (hsub : Sub w.s w'.s) : Cached cache w' :=
  h.extend [] hlog (fun _ ha => by cases ha) hsub

theorem closed_cached (cache : Cache) : Closed (Cached cache) where
  quiet := fun w _ _ h => h.sub rfl (Sub.refl w.s)
  log := fun w e hquiet h => h.extend [e] rfl (fun a ha => by
    rw [List.mem_singleton.mp ha]
    exact Event.entering_of_quiet hquiet) (Sub.refl w.s)
  save := fun w _ h => h.sub rfl (Sub.refl w.s)

/-- The pending submit whose fill is expected is still the pending submit. -/
def Reading (x : Option Pending) (cache : Cache) (w : World) : Prop :=
  Cached cache w ∧ ∀ p, x = some p → w.s.pendingSubmit = some p

theorem closed_reading (x : Option Pending) (cache : Cache) :
    Closed (Reading x cache) where
  quiet := fun w n gate h => ⟨(closed_cached cache).quiet w n gate h.1, h.2⟩
  log := fun w e hquiet h => ⟨(closed_cached cache).log w e hquiet h.1, h.2⟩
  save := fun w n h => ⟨(closed_cached cache).save w n h.1, h.2⟩

theorem Reading.update {x : Option Pending} {cache : Cache} {w : World}
    {s' : State} (h : Reading x cache w) (hsub : Sub w.s s')
    (hpending : s'.pendingSubmit = w.s.pendingSubmit) :
    Reading x cache { w with s := s' } :=
  ⟨h.1.sub rfl hsub, fun p hp => hpending.trans (h.2 p hp)⟩

/-! ## Reconciling -/

section Reconciling

variable {S : Setup} {w₀ : World} (hlive : S.dryRun = false) (hw₀ : w₀.Live)

/-- `_tracked_order_status`. -/
theorem trackedOrderStatus_at {x : Option Pending} (o : Order) (cache : Cache) :
    Triple (At S w₀ (Reading x cache)) (trackedOrderStatus S o cache)
      (fun r w => At S w₀ (Reading x r.2) w ∧
        ∀ status, r.1 = some status → (o.id, some status) ∈ r.2) (Gone S w₀) := by
  unfold trackedOrderStatus
  cases hfind : cache.find? (fun row => row.1 = o.id) with
  | some row =>
      have hid : row.1 = o.id := by simpa using List.find?_some hfind
      refine Triple.pure (fun w hw => ⟨hw, fun status hstatus => ?_⟩)
      have hrow : row = (o.id, some status) := Prod.ext hid hstatus
      rw [← hrow]
      exact List.mem_of_find?_eq_some hfind
  | none =>
      refine asking (closed_reading x cache).quiet (fun answer => ?_)
      refine Triple.bind (mark_owed (f := Reading x cache) _) (fun _ => ?_)
      rintro w ⟨w₁, hw, rfl⟩
      have hmove : Move S w₁ { w₁ with log := ⟨w₁.s, .orderStatus o answer⟩ :: w₁.log } :=
        .logged _ rfl
      have hkeep := (closed_reading x cache).log w₁ ⟨w₁.s, .orderStatus o answer⟩ rfl hw.2.2
      cases answer with
      | ok status =>
          refine ⟨⟨hw.1.tail hmove, hw.2.1, fun id status' hmem => ?_, hkeep.2⟩,
            fun status' hstatus => ?_⟩
          · rcases List.mem_cons.mp hmem with hnew | hold
            · -- the answer that was just logged
              cases hnew
              exact ⟨[], _, w₁.log, o, rfl, fun _ ha => (by cases ha), rfl, rfl, Sub.refl w₁.s⟩
            · exact hkeep.1 id status' hold
          · cases hstatus
            exact List.mem_cons_self
      | error e =>
          dsimp only
          split
          · refine ⟨⟨hw.1.tail hmove, hw.2.1, fun id status hmem => ?_, hkeep.2⟩,
              fun status' hstatus => by (cases hstatus)⟩
            rcases List.mem_cons.mp hmem with hnew | hold
            · cases hnew
            · exact hkeep.1 id status hold
          · exact hw.1.tail hmove

theorem marked_applied {r : Row} (h : r.counts = true) : r.order.Marked r.applied := by
  refine ⟨rfl, rfl, rfl, rfl, rfl, rfl, fun hnonneg => ?_⟩
  unfold Row.counts Row.deltaQty at h
  rw [Bool.and_eq_true, decide_eq_true_eq] at h
  have hdelta := h.2
  unfold flatQty at hdelta
  show 0 ≤ r.status.filledQty
  rcases le_total r.status.filledQty r.order.appliedFillQty with hle | hle
  · rw [max_eq_left (by linarith)] at hdelta
    norm_num at hdelta
  · linarith

/-- The fills of all rows are written into their orders. -/
theorem walks_applied {rows : List Row} (h : ∀ r ∈ rows, r.counts = true)
    (w : World) :
    Walks S w { w with
      s := rows.foldl (fun s r => s.replaceOrder r.order r.applied) w.s } ∧
    Sub w.s (rows.foldl (fun s r => s.replaceOrder r.order r.applied) w.s) ∧
    (rows.foldl (fun s r => s.replaceOrder r.order r.applied) w.s).pendingSubmit =
      w.s.pendingSubmit := by
  induction rows generalizing w with
  | nil => exact ⟨.refl, Sub.refl w.s, rfl⟩
  | cons r rest ih =>
      have hmarked := marked_applied (h r List.mem_cons_self)
      obtain ⟨hwalk, hsub, hpending⟩ := ih (fun r' hr' => h r' (List.mem_cons_of_mem _ hr'))
        { w with s := w.s.replaceOrder r.order r.applied }
      exact ⟨.head (.marked hmarked) hwalk, (Sub.of_marked w.s hmarked).trans hsub, hpending⟩

/-- `_exact_execution_price`. -/
theorem exactExecutionPrice_at {x : Option Pending} (side : Side) (delta : ℚ) (cache : Cache) :
    Triple (At S w₀ (Reading x cache)) (exactExecutionPrice S side delta cache)
      (fun r => At S w₀ (Reading x r.2)) (Gone S w₀) := by
  unfold exactExecutionPrice
  refine state_at (fun s => ?_)
  refine Triple.bind (Q := fun acc w => At S w₀ (Reading x acc.2) w ∧
    ∀ r ∈ acc.1, r.counts = true) ?_ (fun acc => ?_)
  · refine (Triple.foldlM (I := fun _ (acc : List Row × Cache) w =>
      At S w₀ (Reading x acc.2) w ∧ ∀ r ∈ acc.1, r.counts = true) ?_
      ([], cache)).strengthen (fun w hw => ⟨hw.imp And.left, fun r hr => by cases hr⟩)
    intro _ o _ acc _
    refine Triple.strengthen (P := fun w => (∀ r ∈ acc.1, r.counts = true) ∧
      At S w₀ (Reading x acc.2) w) ?_ (fun w hw => ⟨hw.2, hw.1⟩)
    refine Triple.of_fact (fun hrows => ?_)
    refine Triple.bind (trackedOrderStatus_at o acc.2) (fun found => ?_)
    obtain ⟨status, cache'⟩ := found
    cases status with
    | none => exact Triple.pure (fun w hw => ⟨hw.1, hrows⟩)
    | some status =>
        refine Triple.pure (fun w hw => ⟨hw.1, fun r hr => ?_⟩)
        dsimp only at hr
        split at hr
        · rename_i hcounts
          rcases List.mem_append.mp hr with hr | hr
          · exact hrows r hr
          · rw [List.mem_singleton.mp hr]
            exact hcounts
        · exact hrows r hr
  · obtain ⟨rows, cache'⟩ := acc
    dsimp only
    split
    · exact Triple.pure (fun w hw => hw.1)
    · refine Triple.bind (Q := fun _ => At S w₀ (Reading x cache')) ?_
        (fun _ => done (fun _ hw => hw))
      rintro w ⟨hw, hrows⟩
      obtain ⟨hwalk, hsub, hpending⟩ := walks_applied (S := S) hrows w
      exact ⟨hw.1.trans hwalk, hw.2.1, hw.2.2.update hsub hpending⟩

include hlive

/-- The pending submit is given up, for the reason that was logged. -/
theorem persistNone_at {f g : World → Prop} {e : Event} (hg : Closed g)
    (hmove : ∀ w, f w → w.writeFailed = false →
      Move S w { w with
        s := { w.s with pendingSubmit := none }, log := ⟨w.s, e⟩ :: w.log })
    (hfg : ∀ w, f w → g { w with
      s := { w.s with pendingSubmit := none }, log := ⟨w.s, e⟩ :: w.log }) :
    Triple (Owed S w₀ f e) (persistPendingSubmit S none)
      (fun _ => At S w₀ g) (Gone S w₀) := by
  unfold persistPendingSubmit
  exact Triple.bind (settle_owed hmove hfg) (fun _ => save_at hg.save hlive)

theorem recoverPendingSubmit_at (realQty : ℚ) {active : Option (List Active)}
    (hactive : ∀ orders, active = some orders → ∀ a ∈ orders, ∀ id, a.id = some id →
      ¬ Paper id) :
    Triple (At S w₀ Free) (recoverPendingSubmit S realQty active)
      (fun _ => At S w₀ Free) (Gone S w₀) := by
  have hmissed : ∀ s p, s.pendingSubmit = some p →
      Triple (At S w₀ (Is s)) (recoverPendingSubmit.missed S realQty p)
        (fun _ => At S w₀ Free) (Gone S w₀) := by
    intro s p hp
    have hpending : ∀ w : World, Is s w → w.s.pendingSubmit = some p := by
      intro w hw
      rw [hw]
      exact hp
    unfold recoverPendingSubmit.missed
    refine Triple.ite ?_ (Triple.ite ?_ ?_)
    · refine Triple.bind (persist_at hlive (some p) (fun w hw _ => .note ?_))
        (fun _ => done (fun _ hw => hw.free))
      rw [SameTracking, hpending w hw]
    · exact Triple.bind (persist_at hlive _ (fun w hw _ => .missed _ (hpending w hw)))
        (fun _ => done (fun _ hw => hw.free))
    · exact Triple.bind (mark_owed (f := Is s) _) (fun _ =>
        Triple.bind (settle_persist hlive (fun w hw _ => .absent (hpending w hw)))
          (fun _ => done (fun _ hw => hw.free)))
  unfold recoverPendingSubmit
  refine state_at (fun s => ?_)
  refine Triple.strengthen (P := At S w₀ (Is s)) ?_ (fun _ hw => hw.imp And.right)
  cases hp : s.pendingSubmit with
  | none => exact done (fun _ hw => hw.free)
  | some p =>
      cases hlist : active with
      | none => exact done (fun _ hw => hw.free)
      | some orders =>
          dsimp only
          split
          · rename_i a hmatch
            have ha : a ∈ orders := by
              refine List.mem_of_mem_filter (p := fun a => a.matchesPending S.ticker p) ?_
              rw [hmatch]
              exact List.mem_singleton_self a
            cases hid : a.id with
            | none => exact hmissed s p hp
            | some id =>
                exact Triple.bind (adoptPendingSubmit_at hlive hp (hactive orders hlist a ha id hid))
                  (fun _ => done (fun _ hw => hw.free))
          · exact hmissed s p hp
          · exact done (fun _ hw => hw.free)

/-- The portfolio shows the fill of the pending submit. -/
theorem settleFilled_at {x : Snapshot} {p : Pending} (hx : x.pendingForFill = some p)
    (cache : Cache) :
    Triple (Owed S w₀ (Reading x.pendingForFill cache) (.filled p))
      (persistPendingSubmit S none)
      (fun _ => At S w₀ (Cached cache)) (Gone S w₀) :=
  persistNone_at hlive (closed_cached cache) (fun _ hw _ => .filled (hw.2 p hx))
    (fun w hw => hw.1.extend [⟨w.s, .filled p⟩] rfl (by simp [Event.entering]) (Sub.refl w.s))

theorem settleGrowth_at {x : Snapshot} (s : State) (cache : Cache) :
    Triple (At S w₀ (Reading x.pendingForFill cache))
      (settleGrowth S (growthSource s x) x)
      (fun _ => At S w₀ (Cached cache)) (Gone S w₀) := by
  have hpending : ∀ p, growthSource s x = .pending p → x.pendingForFill = some p := by
    intro p hp
    unfold growthSource at hp
    split at hp
    · cases hp
    · rename_i hx
      split at hp
      · injection hp with hsame
        rw [hx, hsame]
      · cases hp
    · cases hp
  have hstay : Triple (At S w₀ (Reading x.pendingForFill cache))
      (pure () : StratM Unit) (fun _ => At S w₀ (Cached cache)) (Gone S w₀) :=
    done (fun _ hw => hw.imp And.left)
  unfold settleGrowth
  split
  · rename_i p hsource
    exact Triple.bind (mark_owed _) (fun _ => settleFilled_at hlive (hpending p hsource) cache)
  · exact Triple.bind (mark_owed _) (fun _ =>
      persistNone_at hlive (closed_cached cache) (fun _ _ _ => .unexplained)
        (fun w hw => hw.1.extend [⟨w.s, .unexplained⟩] rfl (by simp [Event.entering])
          (Sub.refl w.s)))
  · exact hstay

omit hlive in
theorem countDca_at {x : Option Pending} (source : Source) (cache : Cache) :
    Triple (At S w₀ (Reading x cache)) (countDca source)
      (fun _ => At S w₀ (Reading x cache)) (Gone S w₀) := by
  cases source with
  | order o =>
      have hmarked : o.Marked { o with dcaCounted := true } := ⟨rfl, rfl, rfl, rfl, rfl, rfl, id⟩
      exact Triple.ite (update_at (fun _ _ _ => .marked hmarked)
        (fun w hw => hw.update (Sub.of_marked w.s hmarked) rfl)) (done (fun _ hw => hw))
  | pending p => exact done (fun _ hw => hw)
  | none => exact done (fun _ hw => hw)

include hw₀ in
/-- The position grew: a BUY or the pending submit explains it, or nothing does. -/
theorem positionGrew_at (x : Snapshot) (cache : Cache) :
    Triple (At S w₀ (Reading x.pendingForFill cache)) (positionGrew S x cache)
      (fun cache' => At S w₀ (Cached cache')) (Gone S w₀) := by
  unfold positionGrew
  extract_lets fq
  refine Triple.bind (exactExecutionPrice_at .buy fq cache) (fun found => ?_)
  obtain ⟨exact', cache'⟩ := found
  dsimp only
  refine state_at (fun s => ?_)
  refine Triple.strengthen (P := At S w₀ (Reading x.pendingForFill cache')) ?_
    (fun _ hw => hw.imp And.left)
  refine Triple.bind (countDca_at _ cache') (fun _ => ?_)
  refine Triple.bind (update_at (g := Reading x.pendingForFill cache') (fun _ _ _ => .note rfl)
    (fun w hw => hw.update (Sub.refl w.s) rfl)) (fun _ => ?_)
  refine Triple.bind (settleGrowth_at hlive s cache') (fun _ => ?_)
  refine Triple.bind (cancelOpen_at hlive hw₀ (closed_cached cache') .sell ?_)
    (fun _ => done (fun _ hw => hw))
  exact fun w o hw => hw.sub rfl (Sub.of_marked w.s (marked_requested o))

/-- The position shrank: the pending SELL may explain it. -/
theorem positionShrank_at (x : Snapshot) (price : ℚ) (cache : Cache) :
    Triple (At S w₀ (Reading x.pendingForFill cache)) (positionShrank S x price cache)
      (fun cache' => At S w₀ (Cached cache')) (Gone S w₀) := by
  unfold positionShrank
  extract_lets sold
  refine Triple.bind (exactExecutionPrice_at .sell sold cache) (fun found => ?_)
  obtain ⟨exact', cache'⟩ := found
  dsimp only
  refine Triple.bind (update_at (g := Reading x.pendingForFill cache') (fun _ _ _ => .note rfl)
    (fun w hw => hw.update (Sub.refl w.s) rfl)) (fun _ => ?_)
  have hstay : Triple (At S w₀ (Reading x.pendingForFill cache'))
      (pure cache' : StratM Cache) (fun cache' => At S w₀ (Cached cache'))
      (Gone S w₀) := done (fun _ hw => hw.imp And.left)
  split
  · rename_i p hx
    refine Triple.ite ?_ hstay
    exact Triple.bind (mark_owed _) (fun _ => Triple.bind (settleFilled_at hlive hx cache')
      (fun _ => done (fun _ hw => hw)))
  · exact hstay

/-- An order that left the active list goes with the terminal status that was reported for it. -/
theorem sweepOrder_at (x : Snapshot) (price : ℚ) (cache : Cache) (o : Order) :
    Triple (At S w₀ (Cached cache)) (sweepOrder S x price cache o)
      (fun cache' => At S w₀ (Cached cache')) (Gone S w₀) := by
  have hstay : ∀ cache' : Cache, Triple (At S w₀ (Cached cache'))
      (pure cache' : StratM Cache) (fun cache' => At S w₀ (Cached cache'))
      (Gone S w₀) := fun cache' => done (fun _ hw => hw)
  unfold sweepOrder
  split
  · exact hstay cache
  · rename_i hid
    refine Triple.ite ?_ (Triple.ite ?_ (hstay cache))
    · refine Triple.bind ((trackedOrderStatus_at (x := none) o cache).strengthen
        (fun w hw => hw.imp (fun h => ⟨h, fun p hp => by cases hp⟩))) (fun found => ?_)
      obtain ⟨status, cache'⟩ := found
      cases status with
      | none => exact (hstay cache').strengthen (fun w hw => hw.1.imp And.left)
      | some status =>
          refine Triple.strengthen (P := fun w => (o.id, some status) ∈ cache' ∧
            At S w₀ (Cached cache') w) ?_
            (fun w hw => ⟨hw.2 status rfl, hw.1.imp And.left⟩)
          refine Triple.of_fact (fun hmem => ?_)
          dsimp only
          split
          · rename_i hterminal
            refine Triple.bind (Q := fun _ => At S w₀ (Cached cache')) ?_ (fun _ => ?_)
            · unfold noteSold
              exact Triple.ite (update_at (fun _ _ _ => .note rfl)
                (fun w hw => hw.sub rfl (Sub.refl w.s))) (done (fun _ hw => hw))
            · refine Triple.bind (update_at (g := Cached cache') (fun w hw _ => ?_)
                (fun w hw => hw.sub rfl (Sub.of_removed w.s o))) (fun _ => hstay cache')
              by_cases ho : o ∈ w.s.orders
              · obtain ⟨after, e, older, o', hlog, hafter, hevent, hid', hsub⟩ := hw o.id status hmem
                exact .swept ho hlog hafter ⟨o', status, hevent, hterminal, hid', hsub o ho⟩
              · refine .note ?_
                rw [SameTracking, State.removeOrder, List.erase_of_not_mem ho]
          · exact hstay cache'
    · refine asking (closed_cached cache).quiet (fun t => ?_)
      refine Triple.ite ?_ (hstay cache)
      refine Triple.bind (cancelSpecific_at hlive (closed_cached cache) hid ?_)
        (fun _ => hstay cache)
      exact fun w hw => hw.sub rfl (Sub.of_marked w.s (marked_requested o))

include hw₀

theorem reconcilePosition_at (x : Snapshot) (price : ℚ) :
    Triple (At S w₀ (Reading x.pendingForFill [])) (reconcilePosition S x price)
      (fun _ => At S w₀ Free) (Gone S w₀) := by
  unfold reconcilePosition
  refine Triple.bind (Q := fun _ => At S w₀ (Reading x.pendingForFill [])) ?_
    (fun stale => ?_)
  · unfold staleSnapshot
    refine state_at (fun s => Triple.strengthen
      (P := At S w₀ (Reading x.pendingForFill [])) ?_ (fun _ hw => hw.imp And.left))
    refine Triple.ite ?_ (done (fun _ hw => hw))
    exact asking (closed_reading _ []).quiet (fun t => done (fun _ hw => hw))
  refine Triple.ite (stay_at _) ?_
  refine Triple.bind (Q := fun cache => At S w₀ (Cached cache)) ?_ (fun cache => ?_)
  · unfold takePosition
    refine Triple.ite (positionGrew_at hlive hw₀ x []) (Triple.ite
      (positionShrank_at hlive x price []) ?_)
    exact Triple.bind (update_at (g := Cached []) (fun _ _ _ => .note rfl)
      (fun w hw => hw.1.sub rfl (Sub.refl w.s))) (fun _ => done (fun _ hw => hw))
  refine state_at (fun s' => ?_)
  refine Triple.strengthen (P := At S w₀ (Cached cache)) ?_
    (fun _ hw => hw.imp And.left)
  refine Triple.bind (Triple.foldlM (I := fun _ cache => At S w₀ (Cached cache))
    (fun _ o _ cache _ => sweepOrder_at hlive x price cache o) cache) (fun _ => ?_)
  unfold closeCycle
  refine Triple.ite ?_ (stay_at _)
  exact Triple.bind (mark_owed _) (fun _ =>
    settle_owed (fun _ _ _ => .closed _) (fun _ _ => trivial))

/-- The tick before its decisions. -/
theorem reconcile_at (hids : VenueIds S) (price : ℚ) :
    Triple (At S w₀ Free) (reconcile S price) (fun _ => At S w₀ Free)
      (Gone S w₀) := by
  unfold reconcile
  rw [if_neg (by simp [hlive])]
  unfold reconcileReal portfolioPosition
  refine Triple.bind (Q := fun _ => At S w₀ Free)
    (asking quiet_free (fun portfolio => done (fun _ hw => hw))) (fun position => ?_)
  cases position with
  | none => exact asking quiet_free (fun _ => stay_at _)
  | some position =>
      refine Triple.bind (ask_at quiet_free S.venue.activeOrders) (fun active => ?_)
      refine Triple.strengthen (P := fun w => (∃ n, S.venue.activeOrders n = .ok active) ∧
        At S w₀ Free w) ?_ (fun _ hw => ⟨hw.2, hw.1⟩)
      refine Triple.of_fact (fun hactive => ?_)
      obtain ⟨n, hn⟩ := hactive
      refine Triple.bind (recoverPendingSubmit_at hlive position.1 (fun orders horders =>
        hids.active n orders (by rw [hn, horders]))) (fun outcome => ?_)
      refine state_at (fun s => ?_)
      refine (reconcilePosition_at hlive hw₀ _ price).strengthen (fun w hw => hw.imp (fun h => ?_))
      refine ⟨fun id status hmem => (by cases hmem), fun p hp => ?_⟩
      -- only a submit whose fill was seen is expected
      dsimp only at hp
      split at hp
      · rw [h.2]
        exact hp
      · cases hp

/-- A live tick is a walk, wherever it stops. -/
theorem tick_walks (hids : VenueIds S) (price : ℚ) :
    Triple (· = w₀) (tick S price) (fun _ => Walks S w₀) (fun _ => Walks S w₀) := by
  have htick : Triple (At S w₀ Free) (do reconcile S price; step S price; save S)
      (fun _ => Walks S w₀) (fun _ => Walks S w₀) := by
    refine Triple.bind (reconcile_at hlive hw₀ hids price) (fun _ => ?_)
    refine Triple.bind (step_at hlive hw₀ hids price) (fun _ => ?_)
    exact (save_at (closed_on (fun _ => True)).save hlive).weaken (fun _ _ hw => hw.1)
  unfold tick
  refine Triple.get (fun w hw => ?_)
  subst hw
  refine Triple.bind (Q := fun _ v => Walks S w v ∧ v.writeFailed = w.writeFailed) ?_ (fun _ => ?_)
  · rintro v rfl
    exact ⟨.single .began, rfl⟩
  by_cases hfailed : w.writeFailed = true
  · rw [if_pos hfailed]
    refine Triple.bind ((save_from (f := Free) (fun _ _ h => h) hlive).strengthen ?_)
      (fun _ => htick)
    exact fun v hv => ⟨hv.1, trivial⟩
  · rw [if_neg hfailed]
    exact htick.strengthen (fun v hv => ⟨hv.1, by simpa [hv.2] using hfailed, trivial⟩)

end Reconciling

end TradingFleet.Trading212
