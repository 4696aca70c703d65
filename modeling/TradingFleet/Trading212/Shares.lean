import TradingFleet.Trading212.Tracking

set_option autoImplicit false

/-! # Trading 212: SELLs that compete for the same shares

A SELL leaves room for the SELLs that are tracked when none is tracked, or when it is a rung of the
ladder and every tracked SELL is a rung that the ladder still asks for. A cancel is only a request:
a protective exit, or a rung of a new ladder, can be placed while an older SELL may still fill.
-/

namespace TradingFleet.Trading212

open TradingFleet.Text hiding orElse
open TradingFleet.Lifecycle TradingFleet.Hoare
open TradingFleet.Keyed (updateFirst mem_replaced)
open TradingFleet.Rounding (roundTo roundTo_near)

/-! ## What is reserved -/

def Order.unfilled (o : Order) : ℚ := o.qty - o.appliedFillQty

def State.sells (s : State) : List Order := s.orders.filter (fun o => o.side = .sell)

/-- The unfilled quantity of the SELLs that no terminal status was seen of. -/
def State.reserved (s : State) : ℚ := (s.sells.map Order.unfilled).sum

theorem mem_sells {s : State} {o : Order} : o ∈ s.sells ↔ o ∈ s.orders ∧ o.side = .sell := by
  unfold State.sells
  rw [List.mem_filter, decide_eq_true_eq]

/-- The level of an order, for orders that have one. -/
def Order.rung (o : Order) : ℚ := o.level.getD 0

/-- The tracked SELLs are rungs of distinct levels that the ladder still asks for, none larger than
its share. -/
def OnLadder (P : StratParams) (s : State) : Prop :=
  (s.sells.map Order.rung).Nodup ∧ ∀ o ∈ s.sells, o.level.isSome = true ∧
    ∀ avg ∈ s.avgCost, ∃ d ∈ ladderDesired P s s.qty avg, d.1 = o.rung ∧ o.qty ≤ d.2.1

instance (P : StratParams) (s : State) : Decidable (OnLadder P s) :=
  inferInstanceAs (Decidable (_ ∧ _))

/-- Whether the SELL `p` leaves room for the others: a take-profit of everything always does, a rung
if the position is still held and the tracked SELLs are on the ladder, an exit if none is tracked. -/
def LeavesRoom (P : StratParams) (s : State) (p : Pending) : Prop :=
  (p.kind ≠ .tp → s.sells = []) ∧
    (p.kind = .tp → p.level ≠ none → flatQty < s.qty ∧ LadderFits P s ∧ OnLadder P s)

instance (P : StratParams) (s : State) (p : Pending) : Decidable (LeavesRoom P s p) :=
  inferInstanceAs (Decidable (_ ∧ _))

/-! ## Sums -/

/-- Quantities under distinct keys, each within the share of its key. -/
theorem sum_le_shares {l : List (ℚ × ℚ)} {shares : List (ℚ × ℚ × ℚ)}
    (hkeys : (l.map Prod.fst).Nodup) (hnonneg : ∀ d ∈ shares, 0 ≤ d.2.1)
    (h : ∀ x ∈ l, ∃ d ∈ shares, d.1 = x.1 ∧ x.2 ≤ d.2.1) :
    (l.map Prod.snd).sum ≤ (shares.map (fun d => d.2.1)).sum := by
  induction l generalizing shares with
  | nil =>
      refine List.sum_nonneg (fun x hx => ?_)
      obtain ⟨d, hd, rfl⟩ := List.mem_map.mp hx
      exact hnonneg d hd
  | cons x rest ih =>
      obtain ⟨d, hd, hkey, hle⟩ := h x List.mem_cons_self
      rw [List.map_cons, List.nodup_cons] at hkeys
      -- the share of `x` is used up
      have hrest : ∀ y ∈ rest, ∃ d' ∈ shares.erase d, d'.1 = y.1 ∧ y.2 ≤ d'.2.1 := by
        intro y hy
        obtain ⟨d', hd', hkey', hle'⟩ := h y (List.mem_cons_of_mem _ hy)
        have hne : d' ≠ d := by
          rintro rfl
          refine hkeys.1 ?_
          rw [← hkey, hkey']
          exact List.mem_map_of_mem hy
        exact ⟨d', (List.mem_erase_of_ne hne).mpr hd', hkey', hle'⟩
      have hsum := ih hkeys.2 (fun d' hd' => hnonneg d' (List.mem_of_mem_erase hd')) hrest
      have hsplit := ((List.perm_cons_erase hd).map (fun d => d.2.1)).sum_eq
      rw [List.map_cons, List.sum_cons] at hsplit
      rw [List.map_cons, List.sum_cons, hsplit]
      linarith

theorem reserved_nil {s : State} (h : s.sells = []) : s.reserved = 0 := by
  unfold State.reserved
  rw [h]
  rfl

theorem round_le (x : ℚ) : roundTo x 2 ≤ x + 1 / 100 := by
  have hround := (abs_le.mp (roundTo_near x 2)).2
  norm_num at hround
  linarith

/-- A SELL that the decisions ask for, where it leaves room. -/
theorem shares_within {S : Setup} {s : State} {p : Pending} (hrule : SellRule S s p)
    (happlied : ∀ o ∈ s.orders, 0 ≤ o.appliedFillQty) (hroom : LeavesRoom S.params s p) :
    p.qty + s.reserved ≤ s.qty + 1 / 100 := by
  obtain ⟨hexit, hrung⟩ := hroom
  cases hrule with
  | takeProfit hkind hlevel hqty hfree =>
      have hsells : s.sells = [] := by
        refine List.filter_eq_nil_iff.mpr (fun o ho => ?_)
        simpa using hfree o ho
      rw [reserved_nil hsells, hqty, add_zero]
      exact round_le s.qty
  | exit hkind hlevel hqty =>
      have hsells : s.sells = [] := by
        refine hexit (fun htp => ?_)
        rcases hkind with hkind | hkind
        · cases hkind.symm.trans htp
        · cases hkind.symm.trans htp
      rw [reserved_nil hsells, hqty, add_zero]
      exact round_le s.qty
  | rung level hkind hlevel hother hshare =>
      obtain ⟨hheld, hfits, hdistinct, hladder⟩ := hrung hkind (by rw [hlevel]; nofun)
      obtain ⟨avg, limit, havg, hmem⟩ := hshare hheld
      have hlevels : ∀ o ∈ s.sells, o.level = some o.rung := by
        intro o ho
        obtain ⟨l, hl⟩ := Option.isSome_iff_exists.mp (hladder o ho).1
        unfold Order.rung
        rw [hl]
        rfl
      -- the new rung and the tracked ones have distinct levels
      have hkeys : (((level, p.qty) :: s.sells.map (fun o => (o.rung, o.qty))).map
          Prod.fst).Nodup := by
        rw [List.map_cons, List.map_map, List.nodup_cons]
        refine ⟨fun hin => ?_, hdistinct⟩
        obtain ⟨o, ho, hsame⟩ := List.mem_map.mp hin
        refine hother o (mem_sells.mp ho).1 (mem_sells.mp ho).2 ?_
        rw [hlevels o ho]
        exact congrArg some hsame
      have hsum : (((level, p.qty) :: s.sells.map (fun o => (o.rung, o.qty))).map
          Prod.snd).sum ≤ ((ladderDesired S.params s s.qty avg).map (fun d => d.2.1)).sum := by
        refine sum_le_shares hkeys (fun d hd => (ladderDesired_round hd).1.le) (fun x hx => ?_)
        rcases List.mem_cons.mp hx with rfl | hx
        · exact ⟨_, hmem, rfl, le_refl p.qty⟩
        · obtain ⟨o, ho, rfl⟩ := List.mem_map.mp hx
          exact (hladder o ho).2 avg havg
      have hunfilled : s.reserved ≤ (s.sells.map (fun o => o.qty)).sum := by
        refine List.sum_le_sum (fun o ho => ?_)
        have := happlied o (mem_sells.mp ho).1
        unfold Order.unfilled
        linarith
      have htotal := ladderDesired_sum_le avg (le_of_lt (lt_trans (by norm_num [flatQty]) hheld)) hfits
      rw [List.map_cons, List.sum_cons, List.map_map] at hsum
      have hcomp : s.sells.map (Prod.snd ∘ fun o => (o.rung, o.qty)) =
          s.sells.map (fun o => o.qty) := rfl
      rw [hcomp] at hsum
      linarith

/-! ## Every submit -/

/-- No order was filled by less than nothing. -/
def Filled (s : State) : Prop := ∀ o ∈ s.orders, 0 ≤ o.appliedFillQty

/-- Every logged SELL was asked for by the decisions. -/
structure AskedFor (S : Setup) (w : World) : Prop where
  memory : Filled w.s
  disk : Filled w.saved
  log : ∀ e ∈ w.log, ∀ p outcome, e.event = .submit p outcome →
    Placing S e.before p ∧ Filled e.before

theorem AskedFor.mono {S : Setup} {w w' : World} (h : AskedFor S w) (hs : Filled w'.s)
    (hsaved : w'.saved = w.saved) (hlog : w'.log = w.log) : AskedFor S w' :=
  ⟨hs, by rw [hsaved]; exact h.disk, by rw [hlog]; exact h.log⟩

/-- A change that logs one entry. -/
theorem AskedFor.push {S : Setup} {w w' : World} {a : Entry} (h : AskedFor S w) (hs : Filled w'.s)
    (hsaved : w'.saved = w.saved) (hlog : w'.log = a :: w.log)
    (ha : ∀ p outcome, a.event = .submit p outcome → Placing S a.before p ∧ Filled a.before) :
    AskedFor S w' := by
  refine ⟨hs, by rw [hsaved]; exact h.disk, fun e he => ?_⟩
  rw [hlog] at he
  rcases List.mem_cons.mp he with rfl | he
  · exact ha
  · exact h.log e he

theorem Move.askedFor {S : Setup} {w w' : World} (hmove : Move S w w') (h : AskedFor S w) :
    AskedFor S w' := by
  have hnone : Filled ({ w.s with orders := [] } : State) := fun o ho => by cases ho
  cases hmove with
  | @note s' hsame =>
      have horders : s'.orders = w.s.orders := congrArg Prod.fst hsame
      refine h.mono (fun o ho => h.memory o ?_) rfl rfl
      rw [← horders]
      exact ho
  | saved => exact ⟨h.memory, h.memory, h.log⟩
  | pended _ _ => exact ⟨h.memory, h.memory, h.log⟩
  | @submitted p outcome _ _ hplacing =>
      refine h.push h.memory rfl rfl (fun p' outcome' hevent => ⟨?_, h.memory⟩)
      injection hevent with hp
      rw [← hp]
      exact hplacing
  | @refused p outcome _ hplacing _ =>
      refine h.push h.memory rfl rfl (fun p' outcome' hevent => ⟨?_, h.memory⟩)
      injection hevent with hp
      rw [← hp]
      exact hplacing
  | adopted orderId _ _ _ =>
      -- the adopted order has no fill yet
      refine h.push (fun o ho => ?_) rfl rfl (fun _ _ hevent => by cases hevent)
      rcases List.mem_append.mp ho with ho | ho
      · exact h.memory o ho
      · rw [List.mem_singleton.mp ho]
        exact le_refl 0
  | marked hmarked =>
      refine h.mono (fun b hb => ?_) rfl rfl
      rcases mem_replaced hb with hb | ⟨rfl, ho⟩
      · exact h.memory b hb
      · exact hmarked.applied (h.memory _ ho)
  | swept _ _ _ _ => exact h.mono (fun o ho => h.memory o (List.mem_of_mem_erase ho)) rfl rfl
  | logged e hquiet =>
      refine h.push h.memory rfl rfl (fun _ _ hevent => ?_)
      have hsubmit : e = .submit _ _ := hevent
      rw [hsubmit] at hquiet
      cases hquiet
  | closed _ => exact h.push hnone rfl rfl (fun _ _ hevent => by cases hevent)
  | ownedZero _ => exact h.push hnone rfl rfl (fun _ _ hevent => by cases hevent)
  | began => exact h.push h.memory rfl rfl (fun _ _ hevent => by cases hevent)
  | absent _ => exact h.push h.memory rfl rfl (fun _ _ hevent => by cases hevent)
  | filled _ => exact h.push h.memory rfl rfl (fun _ _ hevent => by cases hevent)
  | unexplained => exact h.push h.memory rfl rfl (fun _ _ hevent => by cases hevent)
  | pendFailed _ _ => exact h.mono h.memory rfl rfl
  | missed _ _ => exact h.mono h.memory rfl rfl
  | called _ _ => exact h.mono h.memory rfl rfl
  | saveFailed => exact h.mono h.memory rfl rfl
  | protecting => exact h.mono h.memory rfl rfl
  | recovered => exact h.mono h.memory rfl rfl
  | rebuy _ => exact h.mono h.memory rfl rfl

/-- **SELLs do not compete.** Every SELL that was submitted where it leaves room, together with what
the tracked SELLs may still sell, is covered by the position. -/
theorem sells_do_not_compete {S : Setup} (hlive : S.dryRun = false) (hids : VenueIds S) {w : World}
    (hw : Reachable S w) {e : Entry} (he : e ∈ w.log) {p : Pending} {outcome : SubmissionOutcome}
    (hevent : e.event = .submit p outcome) (hside : p.side = .sell)
    (hroom : LeavesRoom S.params e.before p) :
    p.qty + e.before.reserved ≤ e.before.qty + 1 / 100 := by
  have hinv : AskedFor S w := by
    refine hw.invariant hlive hids ?_ (fun w w' hmove h => hmove.askedFor h) (fun w h => ?_)
    · exact ⟨fun o ho => (by cases ho), fun o ho => (by cases ho), fun e he => (by cases he)⟩
    · refine ⟨h.disk, h.disk, fun e he p outcome hevent => ?_⟩
      rcases List.mem_cons.mp he with rfl | he
      · cases hevent
      · exact h.log e he p outcome hevent
  obtain ⟨hplacing, hfilled⟩ := hinv.log e he p outcome hevent
  exact shares_within (hplacing hside) hfilled hroom

/-! ## A rung beside a rung, a stop-loss beside a take-profit -/

/-- One share is bought at 100; the take-profit O-15 is active when the price falls to 79. -/
def stopped : Setup where
  params := { entryAmount := 100, dcaAmount := 100, dcaDropPct := 50, takeprofitPct := 2,
              maxBudget := 1000, maxDcaBuys := 3, orderTtlMin := 60, stopLossPct := 20 }
  ticker := "ACME"
  fxToUsd := 1
  dryRun := false
  venue :=
    { save := fun _ => .stored
      submit := fun n => .ok (.ok (.outcome
        { state := .accepted, orderId := some ("O-" ++ toString n) }))
      orderStatus := fun _ => .ok (.ok boughtOne)
      cancelOrder := fun _ => .ok (.ok ())
      portfolio := fun n => .ok (some (if n < 8 then [] else [⟨"ACME", 1, 100⟩]))
      activeOrders := fun n => .ok (some
        (if n < 18 then [] else [⟨some "O-15", "ACME", some .sell, some 1, some 102⟩]))
      trendSlope := fun _ => .ok none
      time := fun _ => .ok 0
      uuid := fun n => "intent-" ++ toString n }

theorem stopped_ids : VenueIds stopped where
  submit := by
    intro n answer id hanswer hid hpaper
    cases hanswer
    cases hid
    unfold Paper at hpaper
    simp [startsWith, String.toList_append] at hpaper
  active := by
    intro n orders horders a ha id hid
    cases horders
    split at ha
    · cases ha
    · rw [List.mem_singleton.mp ha] at hid
      cases hid
      decide

def stoppedRun : World := World.initial.run stopped [.tick 100, .tick 100, .tick 79]

theorem stoppedRun_reachable : Reachable stopped stoppedRun := ⟨_, rfl⟩

/-- The SELL that an entry submits. -/
def Entry.sale (e : Entry) : Option Pending :=
  match e.event with
  | .submit p _ => if p.side = .sell then some p else none
  | _ => none

theorem submit_of_sale {e : Entry} {p : Pending} (h : e.sale = some p) :
    p.side = .sell ∧ ∃ outcome, e.event = .submit p outcome := by
  unfold Entry.sale at h
  split at h
  · rename_i p' outcome hevent
    split at h
    · rename_i hside
      rw [← Option.some.inj h]
      exact ⟨hside, outcome, hevent⟩
    · cases h
  · cases h

/-- The same share, with a ladder of two rungs instead of the take-profit. -/
def twoRungs : Setup :=
  { stopped with params := { stopped.params with tpLadder := [(5, 1 / 2), (10, 1 / 2)] } }

def ladderedRun : World := World.initial.run twoRungs [.tick 100, .tick 100]

/-- The second rung leaves room beside the first one, which is tracked. -/
theorem ladderedRun_sales : ∃ e ∈ ladderedRun.log, ∃ p ∈ e.sale,
    p.qty = 11 / 25 ∧ e.before.reserved = 1 / 2 ∧ LeavesRoom twoRungs.params e.before p := by
  decide +kernel

theorem ladderedRun_rung : ∃ e ∈ ladderedRun.log, ∃ p ∈ e.sale,
    p.qty = 11 / 25 ∧ e.before.reserved = 1 / 2 ∧
      p.qty + e.before.reserved ≤ e.before.qty + 1 / 100 := by
  obtain ⟨e, he, p, hp, hqty, hreserved, hroom⟩ := ladderedRun_sales
  obtain ⟨hside, outcome, hevent⟩ := submit_of_sale hp
  have hids : VenueIds twoRungs := ⟨stopped_ids.submit, stopped_ids.active⟩
  exact ⟨e, he, p, hp, hqty, hreserved,
    sells_do_not_compete rfl hids ⟨_, rfl⟩ he hevent hside hroom⟩

/-- The stop-loss asks for the share that the take-profit may sell. -/
theorem stoppedRun_sales :
    ∃ e ∈ stoppedRun.log, ∃ p ∈ e.sale, e.before.qty + 1 / 100 < p.qty + e.before.reserved := by
  decide +kernel

theorem stopLoss_competes : ¬ ∀ {S : Setup}, S.dryRun = false → VenueIds S → ∀ {w : World},
    Reachable S w → ∀ {e : Entry}, e ∈ w.log → ∀ {p : Pending} {outcome : SubmissionOutcome},
      e.event = .submit p outcome → p.side = .sell →
      p.qty + e.before.reserved ≤ e.before.qty + 1 / 100 := by
  intro hclaim
  obtain ⟨e, he, p, hp, hover⟩ := stoppedRun_sales
  obtain ⟨hside, outcome, hevent⟩ := submit_of_sale hp
  exact absurd (hclaim rfl stopped_ids stoppedRun_reachable he hevent hside) (not_le.mpr hover)

end TradingFleet.Trading212
