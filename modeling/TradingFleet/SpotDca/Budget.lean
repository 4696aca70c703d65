import Mathlib.Algebra.Order.BigOperators.Group.List
import Mathlib.Data.List.Dedup
import TradingFleet.SpotDca.Exits
import TradingFleet.SpotDca.Fills

set_option autoImplicit false

/-! # The budget of a cycle

What a cycle may still spend is the nominal amount already charged and the unfilled share of every
BUY that is tracked or pending. Three tests admit such an order; a fill moves its share from the
commitment to what was spent.
-/

namespace TradingFleet.SpotDca

open TradingFleet.Lifecycle TradingFleet.Keyed

/-! ## Commitments -/

/-- The part of its amount that a BUY may still consume. -/
def Order.unfilled (o : Order) : ℚ :=
  if o.side = .buy then o.amount * (o.vol - o.appliedVol) / o.vol else 0

/-- A DCA that has not been counted yet. -/
def Order.awaited (o : Order) : Nat :=
  if o.side = .buy ∧ o.kind = .dca ∧ o.appliedVol ≤ o.eps then 1 else 0

/-- The orders that are tracked, and the one an intent may become. -/
def State.exposed (s : State) : List Order :=
  s.orders ++ s.pendingIntent.toList.map orderFromPending

/-- Nominal spent plus the unfilled share of the tracked and pending BUY orders. -/
def State.committed (s : State) : ℚ := s.spent + (s.exposed.map Order.unfilled).sum

/-- The DCAs that were counted and those that may still be. -/
def State.dcaSlots (s : State) : Nat := s.dcaBuys + (s.exposed.map Order.awaited).sum

/-- A BUY as the strategy makes it. -/
structure Order.Sized (S : Setup) (o : Order) : Prop where
  amount_nonneg : 0 ≤ o.amount
  vol_pos : 0 < o.vol
  applied_nonneg : 0 ≤ o.appliedVol
  applied_le : o.appliedVol ≤ o.vol
  kind : o.kind ≠ .dcaPartial
  paper : S.dryRun = true → o.appliedVol = 0

structure Budgeted (S : Setup) (s : State) : Prop where
  sized : ∀ o ∈ s.exposed, o.side = .buy → o.Sized S
  committed : s.committed ≤ S.params.effectiveMaxBudget
  slots : (s.dcaSlots : Int) ≤ S.params.maxDcaBuys

/-- The venue's cumulative fill never goes back and never exceeds the volume. -/
def Cumulative (ps : List Posting) : Prop :=
  ∀ o r, Posting.report o r ∈ ps → o.appliedVol ≤ r.totalVol ∧ r.totalVol ≤ o.vol

theorem Order.unfilled_nonneg {S : Setup} {o : Order} (h : o.side = .buy → o.Sized S) :
    0 ≤ o.unfilled := by
  unfold Order.unfilled
  split
  · rename_i hside
    have hs := h hside
    exact div_nonneg (mul_nonneg hs.amount_nonneg (sub_nonneg.mpr hs.applied_le)) hs.vol_pos.le
  · exact le_refl 0

theorem Order.awaited_le_one (o : Order) : o.awaited ≤ 1 := by
  unfold Order.awaited
  split
  · exact le_refl 1
  · exact Nat.zero_le 1

/-- Nothing is committed while no BUY is exposed. -/
theorem uncommitted {l : List Order} (h : ∀ o ∈ l, o.side ≠ .buy) :
    (l.map Order.unfilled).sum = 0 ∧ (l.map Order.awaited).sum = 0 := by
  induction l with
  | nil => exact ⟨rfl, rfl⟩
  | cons o l ih =>
      obtain ⟨hu, ha⟩ := ih (fun x hx => h x (List.mem_cons_of_mem _ hx))
      have hside : o.side ≠ .buy := h o List.mem_cons_self
      have hfilled : o.unfilled = 0 := by simp [Order.unfilled, hside]
      have hawaited : o.awaited = 0 := by simp [Order.awaited, hside]
      simp only [List.map_cons, List.sum_cons, hu, ha, hfilled, hawaited, add_zero]
      exact ⟨trivial, trivial⟩

/-- A list of orders that is cut commits no more. -/
theorem committed_sublist {S : Setup} {l l' : List Order} (h : l'.Sublist l)
    (hl : ∀ o ∈ l, o.side = .buy → o.Sized S) :
    (l'.map Order.unfilled).sum ≤ (l.map Order.unfilled).sum ∧
      (l'.map Order.awaited).sum ≤ (l.map Order.awaited).sum := by
  refine ⟨?_, (h.map Order.awaited).sum_le_sum (fun a _ => Nat.zero_le a)⟩
  refine (h.map Order.unfilled).sum_le_sum (fun a ha => ?_)
  obtain ⟨o, ho, rfl⟩ := List.mem_map.mp ha
  exact Order.unfilled_nonneg (hl o ho)

section Admission

variable {S : Setup} {s : State}

/-- The same spending with fewer orders. -/
theorem Budgeted.mono {s' : State} (h : Budgeted S s) (hspent : s'.spent = s.spent)
    (hcount : s'.dcaBuys = s.dcaBuys) (hsub : s'.exposed.Sublist s.exposed) : Budgeted S s' := by
  obtain ⟨hle, hle'⟩ := committed_sublist hsub h.sized
  refine ⟨fun o ho => h.sized o (hsub.subset ho), ?_, ?_⟩
  · have := h.committed
    unfold State.committed at this ⊢
    rw [hspent]
    linarith
  · have := h.slots
    unfold State.dcaSlots at this ⊢
    rw [hcount]
    omega

/-- The same commitments under other names. -/
theorem Budgeted.congr {s' : State} (h : Budgeted S s) (hspent : s'.spent = s.spent)
    (hcount : s'.dcaBuys = s.dcaBuys)
    (hunfilled : (s'.exposed.map Order.unfilled).sum = (s.exposed.map Order.unfilled).sum)
    (hawaited : (s'.exposed.map Order.awaited).sum = (s.exposed.map Order.awaited).sum)
    (hsized : ∀ o ∈ s'.exposed, o.side = .buy → o.Sized S) : Budgeted S s' := by
  refine ⟨hsized, ?_, ?_⟩
  · have := h.committed
    unfold State.committed at this ⊢
    rwa [hspent, hunfilled]
  · have := h.slots
    unfold State.dcaSlots at this ⊢
    rwa [hcount, hawaited]

/-- The amounts the configuration names are not negative. -/
structure Nonneg (S : Setup) : Prop where
  entry : 0 ≤ S.params.entryAmount
  dca : 0 ≤ S.params.dcaAmount
  budget : 0 ≤ S.params.effectiveMaxBudget
  count : 0 ≤ S.params.maxDcaBuys

theorem Nonneg.entryAmount (hS : Nonneg S) : 0 ≤ S.params.effectiveEntryAmount := by
  have hbudget : 0 ≤ S.params.allocatedBudget := hS.budget
  unfold StratParams.effectiveEntryAmount
  split
  · rcases S.params.sizing with h | h
    · simp [h.2.2.1]
    · exact div_nonneg (mul_nonneg hbudget h.2.2.1.1.le) (by norm_num)
  · exact hS.entry

theorem Nonneg.dcaAmount (hS : Nonneg S) (scale : Option ℚ) : 0 ≤ effectiveDcaAmount S scale := by
  have hbudget : 0 ≤ S.params.allocatedBudget := hS.budget
  have hbase : 0 ≤ S.params.effectiveDcaAmountBase := by
    unfold StratParams.effectiveDcaAmountBase
    split
    · rcases S.params.sizing with h | h
      · simp [h.2.2.2]
      · exact div_nonneg (mul_nonneg hbudget h.2.2.2.1.le) (by norm_num)
    · exact hS.dca
  unfold effectiveDcaAmount
  cases scale with
  | none => exact hbase
  | some x => exact mul_nonneg hbase (le_trans (by norm_num) (le_max_left _ _))

/-- What an admitted order adds: its amount fits into the budget, and a DCA into the count. -/
theorem Placing.admits {i : Instruction} (hS : Nonneg S) (h : Placing S s i)
    (hside : i.side = .buy) :
    0 ≤ i.amount ∧ i.kind ≠ .dcaPartial ∧ s.spent + i.amount ≤ S.params.effectiveMaxBudget ∧
      (i.kind = .dca → (s.dcaBuys : Int) < S.params.maxDcaBuys) ∧
      ∀ o ∈ s.orders, o.side ≠ .buy := by
  have hnobuy : s.hasOpen .buy = false → ∀ o ∈ s.orders, o.side ≠ .buy := by
    intro hopen o ho hbuy
    have hany : s.hasOpen .buy = true := List.any_eq_true.mpr ⟨o, ho, by simpa using hbuy⟩
    rw [hopen] at hany
    cases hany
  cases h with
  | entry vol price hexit hopen hbudget =>
      exact ⟨hS.entryAmount, by simp, hbudget, by simp, hnobuy hopen⟩
  | dca vol price amount free scale hexit hopen hcount hspent hfree hamount =>
      have hle : amount ≤ S.params.effectiveMaxBudget - s.spent := by
        rw [hamount]
        exact le_trans (min_le_right _ _) (min_le_right _ _)
      have hpos : 0 ≤ amount := by
        rw [hamount]
        exact le_min (hS.dcaAmount scale) (le_min hfree (by linarith))
      exact ⟨hpos, by simp, by linarith, fun _ => hcount, hnobuy hopen⟩
  | trendEntry vol price hexit horders hbudget =>
      refine ⟨S.params.trendTopup_pos.le, by simp, hbudget, by simp, ?_⟩
      rw [horders]
      simp
  | tp vol price hexit => cases hside
  | exit e price hexit horders => cases hside

/-- An admitted order is the only BUY. -/
theorem Budgeted.admitted {i : Instruction} {o : Order} {s' : State} (h : Budgeted S s)
    (hS : Nonneg S) (hplacing : Placing S s i) (hfree : s.pendingIntent = none)
    (ho : o.side = i.side ∧ o.amount = i.amount ∧ o.kind = i.kind ∧ 0 < o.vol ∧ o.appliedVol = 0)
    (hexposed : s'.exposed = s.orders ++ [o]) (hspent : s'.spent = s.spent)
    (hcount : s'.dcaBuys = s.dcaBuys) : Budgeted S s' := by
  obtain ⟨hside, hamount, hkind, hvol, happlied⟩ := ho
  -- nothing is pending, so what is exposed are the tracked orders
  have hold : s.exposed = s.orders := by
    unfold State.exposed
    rw [hfree]
    simp
  have hmem : ∀ x ∈ s.orders ++ [o], x.side = .buy → x.Sized S := by
    intro x hx hbuy
    rcases List.mem_append.mp hx with hx | hx
    · exact h.sized x (by rwa [hold]) hbuy
    · rw [List.mem_singleton.mp hx] at hbuy ⊢
      obtain ⟨hpos, hnot, -⟩ := hplacing.admits hS (hside.symm.trans hbuy)
      refine ⟨?_, hvol, happlied.ge, ?_, ?_, fun _ => happlied⟩
      · rwa [hamount]
      · rw [happlied]
        exact hvol.le
      · rwa [hkind]
  have hcommitted := h.committed
  have hslots := h.slots
  unfold State.committed at hcommitted
  unfold State.dcaSlots at hslots
  rw [hold] at hcommitted hslots
  refine ⟨by rwa [hexposed], ?_, ?_⟩
  · unfold State.committed
    rw [hexposed, hspent, List.map_append, List.sum_append, List.map_singleton,
      List.sum_singleton]
    by_cases hbuy : i.side = .buy
    -- a BUY is admitted only when no other BUY is open
    · obtain ⟨-, -, hbudget, -, hnone⟩ := hplacing.admits hS hbuy
      have hshare : o.unfilled = i.amount := by
        unfold Order.unfilled
        rw [if_pos (hside.trans hbuy), happlied, hamount, sub_zero,
          mul_div_cancel_right₀ _ (ne_of_gt hvol)]
      rw [(uncommitted hnone).1, hshare]
      linarith
    · have hshare : o.unfilled = 0 := by
        unfold Order.unfilled
        rw [if_neg (fun hb => hbuy (hside.symm.trans hb))]
      rw [hshare]
      linarith
  · unfold State.dcaSlots
    rw [hexposed, hcount, List.map_append, List.sum_append, List.map_singleton,
      List.sum_singleton]
    by_cases hdca : i.side = .buy ∧ i.kind = .dca
    · obtain ⟨-, -, -, hroom, hnone⟩ := hplacing.admits hS hdca.1
      have := hroom hdca.2
      have := o.awaited_le_one
      rw [(uncommitted hnone).2]
      omega
    · have hawaited : o.awaited = 0 := by
        unfold Order.awaited
        rw [if_neg]
        intro hdca'
        exact hdca ⟨hside.symm.trans hdca'.1, hkind.symm.trans hdca'.2.1⟩
      rw [hawaited]
      omega

end Admission

/-! ## Reports and fills -/

section Reports

variable {S : Setup} {s : State} {o : Order} {r : Report}

/-- A sum over the orders after a report: the order counts with its new markers, or not at all. -/
theorem sum_reported {M : Type} [AddCancelCommMonoid M] (g : Order → M) (ho : o ∈ s.orders) :
    ((s.reported o r).orders.map g).sum + g o =
      (s.orders.map g).sum + (if r.terminal then 0 else g (o.marked r)) := by
  let replaced := updateFirst (fun x => x = o) (fun _ => o.marked r) s.orders
  have hsum : (replaced.map g).sum + g o = (s.orders.map g).sum + g (o.marked r) :=
    sum_map_updateFirst (find_self ho) g
  unfold State.reported
  rw [State.accounted_orders]
  by_cases hterminal : r.terminal = true
  · simp only [hterminal, if_true, add_zero]
    have herase : g (o.marked r) + ((replaced.erase (o.marked r)).map g).sum =
        (replaced.map g).sum := List.sum_map_erase g (replaced_mem ho)
    show ((replaced.erase (o.marked r)).map g).sum + g o = _
    refine add_right_cancel (b := g (o.marked r)) ?_
    rw [← hsum, ← herase]
    abel
  · simp only [hterminal, Bool.false_eq_true, if_false]
    exact hsum

/-- What a report adds to `spent` and to the DCA count. -/
theorem reported_spent : (s.reported o r).spent = s.spent +
    (if o.eps < o.deltaVol r ∧ o.side = .buy then (o.fill r).amount else 0) := by
  have hrest : ∀ t : State, (t.accounted o r).spent = t.spent +
      (if o.eps < o.deltaVol r ∧ o.side = .buy then (o.fill r).amount else 0) := by
    intro t
    unfold State.accounted State.filled
    by_cases hfill : o.eps < o.deltaVol r
    · rw [if_pos hfill]
      cases hside : o.side with
      | buy =>
          have hf : (o.fill r).side = .buy := hside
          simp [hf, hfill, State.bought, State.charge]
      | sell =>
          have hf : (o.fill r).side = .sell := hside
          simp [hf, State.sold, State.charge]
    · simp only [hfill, false_and, if_false, add_zero]
      split
      · rfl
      · rfl
  unfold State.reported
  rw [hrest]
  split
  · rfl
  · rfl

theorem reported_dcaBuys : (s.reported o r).dcaBuys = s.dcaBuys +
    (if o.eps < o.deltaVol r ∧ o.side = .buy ∧ (o.fill r).kind = .dca then 1 else 0) := by
  have hrest : ∀ t : State, (t.accounted o r).dcaBuys = t.dcaBuys +
      (if o.eps < o.deltaVol r ∧ o.side = .buy ∧ (o.fill r).kind = .dca then 1 else 0) := by
    intro t
    unfold State.accounted State.filled
    by_cases hfill : o.eps < o.deltaVol r
    · rw [if_pos hfill]
      cases hside : o.side with
      | buy =>
          have hf : (o.fill r).side = .buy := hside
          by_cases hkind : (o.fill r).kind = .dca
          · simp [hf, hfill, hkind, State.bought, State.charge]
          · simp [hf, hkind, State.bought, State.charge]
      | sell =>
          have hf : (o.fill r).side = .sell := hside
          simp [hf, State.sold, State.charge]
    · simp only [hfill, false_and, if_false, add_zero]
      split
      · rfl
      · rfl
  unfold State.reported
  rw [hrest]
  split
  · rfl
  · rfl

/-- The share a report takes from an order is what it adds to `spent`, or more. -/
theorem share_moves (hsized : o.side = .buy → o.Sized S)
    (hcumulative : o.appliedVol ≤ r.totalVol ∧ r.totalVol ≤ o.vol) :
    (if o.eps < o.deltaVol r ∧ o.side = .buy then (o.fill r).amount else 0) +
      (if r.terminal then 0 else (o.marked r).unfilled) ≤ o.unfilled := by
  by_cases hside : o.side = .buy
  · have hs := hsized hside
    have hdelta : o.deltaVol r = r.totalVol - o.appliedVol := Order.deltaVol_eq hcumulative.1
    have hrate : 0 ≤ o.amount / o.vol := div_nonneg hs.amount_nonneg hs.vol_pos.le
    have hold : o.unfilled = o.amount / o.vol * (o.vol - o.appliedVol) := by
      unfold Order.unfilled
      rw [if_pos hside]
      ring
    have hnew : (o.marked r).unfilled = o.amount / o.vol * (o.vol - r.totalVol) := by
      unfold Order.unfilled
      rw [if_pos (show (o.marked r).side = .buy from hside)]
      show o.amount * (o.vol - r.totalVol) / o.vol = _
      ring
    have hadded : (if o.eps < o.deltaVol r ∧ o.side = .buy then (o.fill r).amount else 0) ≤
        o.amount / o.vol * (r.totalVol - o.appliedVol) := by
      split
      · have hfill : (o.fill r).amount = o.amount * o.deltaVol r / o.vol := by
          unfold Order.fill
          simp only [hside, if_pos hs.vol_pos]
        rw [hfill, hdelta]
        exact le_of_eq (by ring)
      · exact mul_nonneg hrate (by linarith)
    have hleft : (if r.terminal then 0 else (o.marked r).unfilled) ≤
        o.amount / o.vol * (o.vol - r.totalVol) := by
      split
      · exact mul_nonneg hrate (by linarith)
      · exact le_of_eq hnew
    calc _ ≤ o.amount / o.vol * (r.totalVol - o.appliedVol) +
          o.amount / o.vol * (o.vol - r.totalVol) := add_le_add hadded hleft
      _ = o.unfilled := by rw [hold]; ring
  · have hold : o.unfilled = 0 := by
      unfold Order.unfilled
      rw [if_neg hside]
    have hnew : (o.marked r).unfilled = 0 := by
      unfold Order.unfilled
      rw [if_neg (show ¬ (o.marked r).side = .buy from hside)]
    rw [hold, hnew, if_neg (fun h => hside h.2), ite_self, add_zero]

theorem Order.fill_kind_dca (h : (o.fill r).kind = .dca) : o.kind = .dca := by
  have hkind : (if o.side = .buy ∧ o.eps < o.appliedVol then o.kind.later else o.kind) = .dca := h
  split at hkind
  · revert hkind
    cases o.kind <;> decide
  · exact hkind

/-- A DCA is counted by the report that takes it past `eps`. -/
theorem slot_moves (hsized : o.side = .buy → o.Sized S)
    (hcumulative : o.appliedVol ≤ r.totalVol ∧ r.totalVol ≤ o.vol) :
    (if o.eps < o.deltaVol r ∧ o.side = .buy ∧ (o.fill r).kind = .dca then 1 else 0) +
      (if r.terminal then 0 else (o.marked r).awaited) ≤ o.awaited := by
  have hdelta : o.deltaVol r = r.totalVol - o.appliedVol := Order.deltaVol_eq hcumulative.1
  have heps := o.eps_pos
  by_cases hbuy : o.side = .buy ∧ o.kind = .dca
  · by_cases hbig : o.eps < o.appliedVol
    · -- later fills of a DCA have another kind
      have hkind : (o.fill r).kind = .dcaPartial := by
        show (if o.side = .buy ∧ o.eps < o.appliedVol then o.kind.later else o.kind) = _
        rw [if_pos ⟨hbuy.1, hbig⟩, hbuy.2]
        rfl
      have hnext : (o.marked r).awaited = 0 := by
        unfold Order.awaited
        rw [if_neg]
        rintro ⟨-, -, hsmall⟩
        have : r.totalVol ≤ o.eps := hsmall
        linarith
      rw [hkind, hnext, ite_self, add_zero, if_neg (fun h => by cases h.2.2)]
      exact Nat.zero_le _
    · -- nothing of this DCA was counted yet, so a place is kept for it
      have hone : o.awaited = 1 := by
        unfold Order.awaited
        rw [if_pos ⟨hbuy.1, hbuy.2, not_lt.mp hbig⟩]
      rw [hone]
      by_cases hfill : o.eps < o.deltaVol r
      · have hnext : (o.marked r).awaited = 0 := by
          unfold Order.awaited
          rw [if_neg]
          rintro ⟨-, -, hsmall⟩
          have hsmall : r.totalVol ≤ o.eps := hsmall
          have := (hsized hbuy.1).applied_nonneg
          rw [hdelta] at hfill
          linarith
        rw [hnext, ite_self, add_zero]
        split
        · exact le_refl 1
        · exact Nat.zero_le 1
      · rw [if_neg (fun h => hfill h.1), zero_add]
        split
        · exact Nat.zero_le 1
        · exact Order.awaited_le_one _
  · have hnext : (o.marked r).awaited = 0 := by
      unfold Order.awaited
      rw [if_neg (fun h => hbuy ⟨h.1, h.2.1⟩)]
    rw [hnext, ite_self, add_zero, if_neg (fun h => hbuy ⟨h.2.1, Order.fill_kind_dca h.2.2⟩)]
    exact Nat.zero_le _

/-- The orders after a report are those from before, or the one reported on. -/
theorem mem_of_reported {x : Order} (hx : x ∈ (s.reported o r).orders) :
    x ∈ s.orders ∨ x = o.marked r := by
  unfold State.reported at hx
  rw [State.accounted_orders] at hx
  have hreplaced : x ∈ (s.replace o (o.marked r)).orders := by
    split at hx
    · exact List.mem_of_mem_erase hx
    · exact hx
  rcases mem_replaced hreplaced with hx | ⟨hx, -⟩
  · exact Or.inl hx
  · exact Or.inr hx

theorem Budgeted.reported (h : Budgeted S s) (ho : o ∈ s.orders)
    (hcumulative : o.appliedVol ≤ r.totalVol ∧ r.totalVol ≤ o.vol)
    (hlive : S.dryRun = false) : Budgeted S (s.reported o r) := by
  have hsized : o.side = .buy → o.Sized S :=
    h.sized o (List.mem_append_left _ ho)
  have hpending := State.reported_pendingIntent s o r
  have hshare := share_moves (r := r) hsized hcumulative
  have hslot := slot_moves (r := r) hsized hcumulative
  have hcommitted := h.committed
  have hslots := h.slots
  unfold State.committed State.exposed at hcommitted
  unfold State.dcaSlots State.exposed at hslots
  rw [List.map_append, List.sum_append] at hcommitted hslots
  refine ⟨?_, ?_, ?_⟩
  · intro x hx hbuy
    unfold State.exposed at hx
    rw [hpending] at hx
    rcases List.mem_append.mp hx with hx | hx
    · rcases mem_of_reported hx with hx | rfl
      · exact h.sized x (List.mem_append_left _ hx) hbuy
      · have hs := hsized hbuy
        refine ⟨hs.amount_nonneg, hs.vol_pos, ?_, hcumulative.2, hs.kind, fun hpaper => ?_⟩
        · exact le_trans hs.applied_nonneg hcumulative.1
        · rw [hlive] at hpaper
          cases hpaper
    · exact h.sized x (List.mem_append_right _ hx) hbuy
  · unfold State.committed State.exposed
    rw [hpending, List.map_append, List.sum_append, reported_spent]
    have hsum := sum_reported (r := r) Order.unfilled ho
    linarith
  · unfold State.dcaSlots State.exposed
    rw [hpending, List.map_append, List.sum_append, reported_dcaBuys]
    have hsum := sum_reported (r := r) Order.awaited ho
    omega

/-- Paper mode fills an order at once and in full. -/
theorem Budgeted.paperFilled (h : Budgeted S s) (ho : o ∈ s.orders) (hpaper : S.dryRun = true)
    (price : ℚ) : Budgeted S ((s.remove o).filled (o.paperFill price)) := by
  have hexposed : ((s.remove o).filled (o.paperFill price)).exposed =
      s.orders.erase o ++ s.pendingIntent.toList.map orderFromPending := by
    unfold State.exposed
    rw [State.filled_pendingIntent]
    unfold State.filled
    cases (o.paperFill price).side <;> rfl
  have hcommitted := h.committed
  have hslots := h.slots
  unfold State.committed State.exposed at hcommitted
  unfold State.dcaSlots State.exposed at hslots
  rw [List.map_append, List.sum_append] at hcommitted hslots
  -- what the order had reserved moves to what is spent
  have hunfilled : o.unfilled + ((s.orders.erase o).map Order.unfilled).sum =
      (s.orders.map Order.unfilled).sum := List.sum_map_erase Order.unfilled ho
  have hawaited : o.awaited + ((s.orders.erase o).map Order.awaited).sum =
      (s.orders.map Order.awaited).sum := List.sum_map_erase Order.awaited ho
  have hsub : (s.orders.erase o ++ s.pendingIntent.toList.map orderFromPending).Sublist
      s.exposed := List.Sublist.append_right List.erase_sublist _
  refine ⟨?_, ?_, ?_⟩
  · rw [hexposed]
    exact fun x hx => h.sized x (hsub.subset hx)
  · unfold State.committed
    rw [hexposed, List.map_append, List.sum_append]
    cases hside : o.side with
    | buy =>
        have hs := h.sized o (List.mem_append_left _ ho) hside
        have hshare : o.unfilled = o.amount := by
          unfold Order.unfilled
          rw [if_pos hside, hs.paper hpaper, sub_zero, mul_div_cancel_right₀ _ (ne_of_gt hs.vol_pos)]
        have hspent : ((s.remove o).filled (o.paperFill price)).spent = s.spent + o.amount := by
          unfold State.filled
          rw [show (o.paperFill price).side = .buy from hside]
          rfl
        rw [hspent]
        linarith
    | sell =>
        have hshare : o.unfilled = 0 := by simp [Order.unfilled, hside]
        have hspent : ((s.remove o).filled (o.paperFill price)).spent = s.spent := by
          unfold State.filled
          rw [show (o.paperFill price).side = .sell from hside]
          rfl
        rw [hspent]
        linarith
  · unfold State.dcaSlots
    rw [hexposed, List.map_append, List.sum_append]
    cases hside : o.side with
    | buy =>
        have hs := h.sized o (List.mem_append_left _ ho) hside
        have hbuys : ((s.remove o).filled (o.paperFill price)).dcaBuys =
            s.dcaBuys + (if o.kind = .dca then 1 else 0) := by
          unfold State.filled
          rw [show (o.paperFill price).side = .buy from hside]
          show (if o.kind = .dca then s.dcaBuys + 1 else s.dcaBuys) = _
          split <;> rfl
        -- the slot that a DCA order awaited is the one it takes
        have hslot : (if o.kind = .dca then 1 else 0) ≤ o.awaited := by
          unfold Order.awaited
          rw [hs.paper hpaper]
          by_cases hkind : o.kind = .dca
          · rw [if_pos hkind, if_pos ⟨hside, hkind, o.eps_nonneg⟩]
          · rw [if_neg hkind]
            exact Nat.zero_le _
        rw [hbuys]
        omega
    | sell =>
        have hbuys : ((s.remove o).filled (o.paperFill price)).dcaBuys = s.dcaBuys := by
          unfold State.filled
          rw [show (o.paperFill price).side = .sell from hside]
          rfl
        rw [hbuys]
        omega

end Reports

/-! ## The other moves -/

section Intents

variable {S : Setup} {s : State}

theorem exposed_none {s : State} (h : s.pendingIntent = none) : s.exposed = s.orders := by
  unfold State.exposed
  rw [h]
  simp

theorem exposed_some {s : State} {p : Intent} (h : s.pendingIntent = some p) :
    s.exposed = s.orders ++ [orderFromPending p] := by
  unfold State.exposed
  rw [h]
  rfl

/-- A later record of the same intent stands for the same order. -/
theorem orderFromPending_follows {p q : Intent} (h : p.Follows q) :
    orderFromPending q = { orderFromPending p with txid := (orderFromPending q).txid } := by
  unfold orderFromPending
  rw [h.side, h.requestedQty, h.requestedPrice, h.metadata, h.kind, h.intentId, h.createdAt]

theorem Budgeted.rewritten {p q : Intent} (h : Budgeted S s) (hp : s.pendingIntent = some p)
    (hpq : p.Follows q) : Budgeted S { s with pendingIntent := some q } := by
  have hold := exposed_some hp
  have hnew : ({ s with pendingIntent := some q } : State).exposed =
      s.orders ++ [orderFromPending q] := rfl
  have hq := orderFromPending_follows hpq
  have hunfilled : (orderFromPending q).unfilled = (orderFromPending p).unfilled := by
    rw [hq]
    rfl
  have hawaited : (orderFromPending q).awaited = (orderFromPending p).awaited := by
    rw [hq]
    rfl
  refine h.congr rfl rfl ?_ ?_ ?_
  · rw [hold, hnew]
    simp [hunfilled]
  · rw [hold, hnew]
    simp [hawaited]
  · rw [hnew]
    intro o ho hbuy
    rcases List.mem_append.mp ho with ho | ho
    · exact h.sized o (by rw [hold]; exact List.mem_append_left _ ho) hbuy
    · rw [List.mem_singleton.mp ho] at hbuy ⊢
      rw [hq] at hbuy ⊢
      have hs := h.sized (orderFromPending p) (by rw [hold]; simp) hbuy
      exact ⟨hs.amount_nonneg, hs.vol_pos, hs.applied_nonneg, hs.applied_le, hs.kind, hs.paper⟩

theorem Budgeted.adopted {w : World} {p : Intent} (h : Budgeted S w.s)
    (hp : w.s.pendingIntent = some p) : Budgeted S (w.adopted p).s := by
  refine h.mono rfl rfl ?_
  have hnew : (w.adopted p).s.exposed = adoptInto w.s.orders p := exposed_none rfl
  rw [hnew, exposed_some hp]
  unfold adoptInto
  split
  · exact List.sublist_append_left _ _
  · exact List.Sublist.refl _

theorem Budgeted.cancelled (h : Budgeted S s) (o : Order) :
    Budgeted S (s.replace o { o with cancelRequested := true }) := by
  let o' : Order := { o with cancelRequested := true }
  by_cases ho : o ∈ s.orders
  · have hunfilled : ((updateFirst (fun y => y = o) (fun _ => o') s.orders).map
        Order.unfilled).sum = (s.orders.map Order.unfilled).sum :=
      add_right_cancel (sum_map_updateFirst (find_self ho) Order.unfilled)
    have hawaited : ((updateFirst (fun y => y = o) (fun _ => o') s.orders).map
        Order.awaited).sum = (s.orders.map Order.awaited).sum :=
      Nat.add_right_cancel (sum_map_updateFirst (find_self ho) Order.awaited)
    refine h.congr rfl rfl ?_ ?_ ?_
    · show (((updateFirst _ _ s.orders) ++ _).map Order.unfilled).sum = _
      unfold State.exposed
      rw [List.map_append, List.sum_append, List.map_append, List.sum_append]
      exact congrArg (· + _) hunfilled
    · show (((updateFirst _ _ s.orders) ++ _).map Order.awaited).sum = _
      unfold State.exposed
      rw [List.map_append, List.sum_append, List.map_append, List.sum_append]
      exact congrArg (· + _) hawaited
    · intro y hy hbuy
      rcases List.mem_append.mp hy with hy | hy
      · rcases mem_replaced hy with hy | ⟨rfl, -⟩
        · exact h.sized y (List.mem_append_left _ hy) hbuy
        · have hs := h.sized o (List.mem_append_left _ ho) hbuy
          exact ⟨hs.amount_nonneg, hs.vol_pos, hs.applied_nonneg, hs.applied_le, hs.kind, hs.paper⟩
      · exact h.sized y (List.mem_append_right _ hy) hbuy
  · have hsame : updateFirst (fun y => y = o) (fun _ => o') s.orders = s.orders :=
      updateFirst_of_not_mem (fun a ha => by
        simp only [decide_eq_false_iff_not]
        intro hao
        exact ho (hao ▸ ha))
    refine h.mono rfl rfl ?_
    show (updateFirst _ _ s.orders ++ _).Sublist (s.orders ++ _)
    rw [hsame]
    exact List.Sublist.refl _

end Intents

/-! ## The DCA count -/

def Posting.closes : Posting → Bool
  | .closed => true
  | _ => false

/-- The order of a DCA fill. -/
def Posting.dcaFill : Posting → Option String
  | .fill f => if f.side = .buy ∧ (f.kind = .dca ∨ f.kind = .dcaPartial) then some f.txid else none
  | _ => none

/-- The DCA orders that have had a fill in this cycle, one entry per fill. -/
def dcaFilled (ps : List Posting) : List String :=
  (ps.takeWhile (fun p => !p.closes)).filterMap Posting.dcaFill

/-- How many they are. -/
def dcaCount (ps : List Posting) : Nat := (dcaFilled ps).dedup.length

/-- What the count of DCAs relies on: the report that takes the filled quantity of a DCA past `eps`
adds more than `eps`, and no order that has had a DCA fill in this cycle is tracked again. -/
def DcaCounted : List Posting → Prop
  | [] => True
  | p :: ps => DcaCounted ps ∧
      match p with
      | .report o r => o.side = .buy → o.kind = .dca → o.regressed r = false →
          o.appliedVol ≤ o.eps → o.eps < r.totalVol → o.eps < r.totalVol - o.appliedVol
      | .tracked o => o.side = .buy → o.kind = .dca → o.txid ∉ dcaFilled ps
      | _ => True

theorem dcaFilled_cons {p : Posting} {ps : List Posting} (h : p.closes = false) :
    dcaFilled (p :: ps) = p.dcaFill.toList ++ dcaFilled ps := by
  unfold dcaFilled
  rw [List.takeWhile_cons_of_pos (by simp [h])]
  cases hp : p.dcaFill <;> simp [hp]

theorem dcaFilled_silent {p : Posting} {ps : List Posting} (h : p.closes = false)
    (hp : p.dcaFill = none) : dcaFilled (p :: ps) = dcaFilled ps := by
  rw [dcaFilled_cons h, hp]
  rfl

def Order.buys (o : Order) : Bool := o.side = .buy

/-- The DCA count next to the orders of the state. -/
structure Counted (s : State) (ps : List Posting) : Prop where
  unique : ((s.orders.filter Order.buys).map Order.txid).Nodup
  seen : ∀ o ∈ s.orders, o.side = .buy → o.kind = .dca →
    (o.txid ∈ dcaFilled ps ↔ o.eps < o.appliedVol)
  count : s.dcaBuys = dcaCount ps

section Counting

variable {S : Setup} {s s' : State} {ps : List Posting} {o : Order} {r : Report}

/-- Fewer orders, or orders with other notes. -/
theorem Counted.mono (h : Counted s ps) (hcount : s'.dcaBuys = s.dcaBuys)
    (hunique : ((s'.orders.filter Order.buys).map Order.txid).Nodup)
    (horders : ∀ x ∈ s'.orders, ∃ y ∈ s.orders, x.txid = y.txid ∧ x.side = y.side ∧
      x.kind = y.kind ∧ x.vol = y.vol ∧ x.appliedVol = y.appliedVol) : Counted s' ps := by
  refine ⟨hunique, fun x hx hside hkind => ?_, hcount.trans h.count⟩
  obtain ⟨y, hy, htxid, hside', hkind', hvol, happlied⟩ := horders x hx
  have hseen := h.seen y hy (hside'.symm.trans hside) (hkind'.symm.trans hkind)
  have heps : x.eps = y.eps := by
    unfold Order.eps
    rw [hvol]
  rwa [htxid, heps, happlied]

theorem Counted.congr (h : Counted s ps) (hcount : s'.dcaBuys = s.dcaBuys)
    (horders : s'.orders = s.orders) : Counted s' ps := by
  refine h.mono hcount (by rw [horders]; exact h.unique) (fun x hx => ?_)
  rw [horders] at hx
  exact ⟨x, hx, rfl, rfl, rfl, rfl, rfl⟩

/-- A posting that is no DCA fill. -/
theorem Counted.silent (h : Counted s ps) {p : Posting} (hp : p.closes = false)
    (hfill : p.dcaFill = none) : Counted s (p :: ps) := by
  have hsilent : dcaFilled (p :: ps) = dcaFilled ps := dcaFilled_silent hp hfill
  refine ⟨h.unique, ?_, ?_⟩
  · rw [hsilent]
    exact h.seen
  · unfold dcaCount
    rw [hsilent]
    exact h.count

theorem filter_buys_keys {l l' : List Order}
    (h : l'.map (fun o => (o.txid, o.side)) = l.map (fun o => (o.txid, o.side))) :
    (l'.filter Order.buys).map Order.txid = (l.filter Order.buys).map Order.txid := by
  have hfilter : ∀ l : List Order, (l.filter Order.buys).map Order.txid =
      ((l.map (fun o => (o.txid, o.side))).filter (fun k => k.2 = .buy)).map Prod.fst := by
    intro l
    rw [List.filter_map, List.map_map]
    rfl
  rw [hfilter, hfilter, h]

theorem replaced_pairs (o o' : Order) (h : (o'.txid, o'.side) = (o.txid, o.side))
    (l : List Order) : (updateFirst (fun x => x = o) (fun _ => o') l).map
      (fun x => (x.txid, x.side)) = l.map (fun x => (x.txid, x.side)) := by
  induction l with
  | nil => rfl
  | cons a t ih =>
      unfold updateFirst
      by_cases ha : a = o
      · simp only [ha, decide_true, if_true, List.map_cons, h]
      · simp only [ha, decide_false, Bool.false_eq_true, if_false, List.map_cons, ih]

theorem Counted.cancelled (h : Counted s ps) (o : Order) :
    Counted (s.replace o { o with cancelRequested := true }) ps := by
  refine h.mono rfl ?_ (fun x hx => ?_)
  · rw [show (s.replace o { o with cancelRequested := true }).orders = updateFirst _ _ s.orders
      from rfl, filter_buys_keys (replaced_pairs o { o with cancelRequested := true } rfl s.orders)]
    exact h.unique
  · rcases mem_replaced hx with hx | ⟨rfl, ho⟩
    · exact ⟨x, hx, rfl, rfl, rfl, rfl, rfl⟩
    · exact ⟨o, ho, rfl, rfl, rfl, rfl, rfl⟩

theorem Counted.sublist (h : Counted s ps) (hcount : s'.dcaBuys = s.dcaBuys)
    (hsub : s'.orders.Sublist s.orders) : Counted s' ps := by
  refine h.mono hcount ?_ (fun x hx => ⟨x, hsub.subset hx, rfl, rfl, rfl, rfl, rfl⟩)
  exact ((hsub.filter Order.buys).map Order.txid).nodup h.unique

/-- A new BUY that no other BUY shares its ID with. -/
theorem Counted.tracked (h : Counted s ps) (hcount : s'.dcaBuys = s.dcaBuys)
    (horders : s'.orders = s.orders ++ [o]) (happlied : o.appliedVol = 0)
    (hnew : o.side = .buy → ∀ x ∈ s.orders, x.side = .buy → x.txid ≠ o.txid)
    (hfresh : o.side = .buy → o.kind = .dca → o.txid ∉ dcaFilled ps) :
    Counted s' (.tracked o :: ps) := by
  have hsilent : dcaFilled (.tracked o :: ps) = dcaFilled ps := dcaFilled_silent rfl rfl
  refine ⟨?_, ?_, ?_⟩
  · rw [horders, List.filter_append, List.map_append]
    by_cases hside : o.side = .buy
    · have hone : [o].filter Order.buys = [o] := by simp [Order.buys, hside]
      rw [hone, List.nodup_append]
      refine ⟨h.unique, List.nodup_singleton _, fun a ha b hb => ?_⟩
      obtain ⟨x, hx, rfl⟩ := List.mem_map.mp ha
      rw [List.map_singleton, List.mem_singleton] at hb
      rw [List.mem_filter] at hx
      rw [hb]
      exact hnew hside x hx.1 (of_decide_eq_true hx.2)
    · have hnone : [o].filter Order.buys = [] := by simp [Order.buys, hside]
      rw [hnone, List.map_nil, List.append_nil]
      exact h.unique
  · rw [horders, hsilent]
    intro x hx hside hkind
    rcases List.mem_append.mp hx with hx | hx
    · exact h.seen x hx hside hkind
    · rw [List.mem_singleton.mp hx] at hside hkind ⊢
      refine iff_of_false (hfresh hside hkind) ?_
      rw [happlied]
      exact not_lt.mpr o.eps_nonneg
  · unfold dcaCount
    rw [hsilent, hcount]
    exact h.count

/-- A BUY is tracked once. -/
theorem erased_buy_gone {l : List Order} (hunique : ((l.filter Order.buys).map Order.txid).Nodup)
    (hbuys : o.buys = true) : o ∉ l.erase o := by
  have hnodup : (l.filter Order.buys).Nodup := List.Nodup.of_map _ hunique
  have hle := List.nodup_iff_count_le_one.mp hnodup o
  rw [List.count_filter hbuys] at hle
  rw [← List.count_eq_zero, List.count_erase_self]
  omega

/-- The IDs of the BUY orders stay apart. -/
theorem reported_unique (hunique : ((s.orders.filter Order.buys).map Order.txid).Nodup) :
    (((s.reported o r).orders.filter Order.buys).map Order.txid).Nodup := by
  have hkeys : (((s.replace o (o.marked r)).orders.filter Order.buys).map Order.txid).Nodup := by
    rw [show (s.replace o (o.marked r)).orders = updateFirst _ _ s.orders from rfl,
      filter_buys_keys (replaced_pairs o (o.marked r) rfl s.orders)]
    exact hunique
  unfold State.reported
  rw [State.accounted_orders]
  split
  · exact ((List.erase_sublist.filter Order.buys).map Order.txid).nodup hkeys
  · exact hkeys

/-- After a report on a BUY, the only BUY with its ID is the order with the new markers, and it is
gone if the report was terminal. -/
theorem reported_buys (hunique : ((s.orders.filter Order.buys).map Order.txid).Nodup)
    (ho : o ∈ s.orders) (hside : o.side = .buy) :
    ∀ x ∈ (s.reported o r).orders, x.side = .buy → x.txid = o.txid →
      x = o.marked r ∧ r.terminal = false := by
  let replaced := updateFirst (fun x => x = o) (fun _ => o.marked r) s.orders
  have hkeys : ((replaced.filter Order.buys).map Order.txid).Nodup := by
    rw [filter_buys_keys (replaced_pairs o (o.marked r) rfl s.orders)]
    exact hunique
  have hbuys : (o.marked r).buys = true := decide_eq_true hside
  have hmarked : o.marked r ∈ replaced.filter Order.buys :=
    List.mem_filter.mpr ⟨replaced_mem ho, hbuys⟩
  have hsame : ∀ x ∈ replaced, x.side = .buy → x.txid = o.txid → x = o.marked r :=
    fun x hx hx' htxid =>
      eq_of_key_eq hkeys (List.mem_filter.mpr ⟨hx, decide_eq_true hx'⟩) hmarked htxid
  unfold State.reported
  rw [State.accounted_orders]
  by_cases hterminal : r.terminal = true
  · simp only [hterminal, if_true]
    show ∀ x ∈ replaced.erase (o.marked r), _
    have hgone : o.marked r ∉ replaced.erase (o.marked r) := erased_buy_gone hkeys hbuys
    intro x hx hx' htxid
    rw [hsame x (List.mem_of_mem_erase hx) hx' htxid] at hx
    exact absurd hx hgone
  · simp only [hterminal, Bool.false_eq_true, if_false]
    exact fun x hx hx' htxid => ⟨hsame x hx hx' htxid, by simp⟩

/-- A fill enters the count as a DCA exactly when its order is one. -/
theorem dcaFilled_entered (hkind : o.side = .buy → o.kind ≠ .dcaPartial) :
    dcaFilled (entered o r ps) =
      (if o.eps < o.deltaVol r ∧ o.side = .buy ∧ o.kind = .dca then [o.txid] else []) ++
        dcaFilled ps := by
  have hreport : dcaFilled (.report o r :: ps) = dcaFilled ps := dcaFilled_silent rfl rfl
  have hfillKind : o.side = .buy →
      (((o.fill r).kind = .dca ∨ (o.fill r).kind = .dcaPartial) ↔ o.kind = .dca) := by
    intro hside
    have hk := hkind hside
    show ((if o.side = .buy ∧ o.eps < o.appliedVol then o.kind.later else o.kind) = .dca ∨
      (if o.side = .buy ∧ o.eps < o.appliedVol then o.kind.later else o.kind) = .dcaPartial) ↔ _
    split
    · revert hk
      cases o.kind <;> decide
    · revert hk
      cases o.kind <;> decide
  unfold entered
  by_cases hfill : o.eps < o.deltaVol r
  · rw [if_pos hfill, List.singleton_append, dcaFilled_cons rfl, hreport]
    have hposting : (Posting.fill (o.fill r)).dcaFill =
        if o.side = .buy ∧ o.kind = .dca then some o.txid else none := by
      show (if o.side = .buy ∧ ((o.fill r).kind = .dca ∨ (o.fill r).kind = .dcaPartial) then
        some o.txid else none) = _
      by_cases hside : o.side = .buy
      · simp only [hside, true_and, hfillKind hside]
      · simp only [hside, false_and]
    rw [hposting]
    simp only [hfill, true_and]
    split
    · rfl
    · rfl
  · rw [if_neg hfill, List.nil_append, hreport]
    simp only [hfill, false_and, if_false, List.nil_append]

theorem Counted.reported (h : Counted s ps) (ho : o ∈ s.orders)
    (hsized : o.side = .buy → o.Sized S) (hcumulative : o.appliedVol ≤ r.totalVol)
    (hstep : o.side = .buy → o.kind = .dca → o.appliedVol ≤ o.eps → o.eps < r.totalVol →
      o.eps < r.totalVol - o.appliedVol) : Counted (s.reported o r) (entered o r ps) := by
  have hdelta : o.deltaVol r = r.totalVol - o.appliedVol := Order.deltaVol_eq hcumulative
  have hfilled : dcaFilled (entered o r ps) =
      (if o.eps < o.deltaVol r ∧ o.side = .buy ∧ o.kind = .dca then [o.txid] else []) ++
        dcaFilled ps := dcaFilled_entered (fun hside => (hsized hside).kind)
  by_cases hside : o.side = .buy
  · have hown := reported_buys (r := r) h.unique ho hside
    refine ⟨reported_unique h.unique, fun x hx hbuy hkind => ?_, ?_⟩
    · by_cases htxid : x.txid = o.txid
      · -- the order itself, with its new markers
        obtain ⟨rfl, -⟩ := hown x hx hbuy htxid
        have hkind : o.kind = .dca := hkind
        show o.txid ∈ dcaFilled (entered o r ps) ↔ o.eps < r.totalVol
        rw [hfilled]
        by_cases hfill : o.eps < o.deltaVol r
        · rw [if_pos ⟨hfill, hside, hkind⟩]
          refine iff_of_true (by simp) ?_
          have := (hsized hside).applied_nonneg
          rw [hdelta] at hfill
          linarith
        · rw [if_neg (fun hall => hfill hall.1), List.nil_append, h.seen o ho hside hkind]
          refine ⟨fun hbig => by linarith, fun hbig => ?_⟩
          by_contra hsmall
          rw [hdelta] at hfill
          exact hfill (hstep hside hkind (not_lt.mp hsmall) hbig)
      · -- another order
        have hx' : x ∈ s.orders := by
          rcases mem_of_reported hx with hx | rfl
          · exact hx
          · exact absurd rfl htxid
        rw [← h.seen x hx' hbuy hkind, hfilled]
        split
        · simp [htxid]
        · simp
    · -- the count moves exactly where the ID is new
      rw [reported_dcaBuys, h.count]
      unfold dcaCount
      rw [hfilled]
      by_cases hfill : o.eps < o.deltaVol r ∧ o.side = .buy ∧ o.kind = .dca
      · rw [if_pos hfill, List.singleton_append]
        have hkind : (o.fill r).kind = if o.eps < o.appliedVol then .dcaPartial else .dca := by
          show (if o.side = .buy ∧ o.eps < o.appliedVol then o.kind.later else o.kind) = _
          rw [hfill.2.2]
          simp only [hside, true_and]
          rfl
        by_cases hbig : o.eps < o.appliedVol
        · have hseen := (h.seen o ho hside hfill.2.2).mpr hbig
          rw [if_pos hbig] at hkind
          rw [List.dedup_cons_of_mem hseen, hkind]
          simp
        · have hseen := fun hmem => hbig ((h.seen o ho hside hfill.2.2).mp hmem)
          rw [if_neg hbig] at hkind
          rw [List.dedup_cons_of_notMem hseen, hkind]
          simp [hfill.1, hside]
      · rw [if_neg hfill, List.nil_append]
        have hno : ¬ (o.eps < o.deltaVol r ∧ o.side = .buy ∧ (o.fill r).kind = .dca) :=
          fun hall => hfill ⟨hall.1, hall.2.1, Order.fill_kind_dca hall.2.2⟩
        rw [if_neg hno, add_zero]
  · -- a SELL leaves the count alone
    have hsame : dcaFilled (entered o r ps) = dcaFilled ps := by
      rw [hfilled, if_neg (fun hall => hside hall.2.1), List.nil_append]
    have hbuys : (s.reported o r).dcaBuys = s.dcaBuys := by
      rw [reported_dcaBuys, if_neg (fun hall => hside hall.2.1), add_zero]
    refine ⟨reported_unique h.unique, fun x hx hbuy hkind => ?_, ?_⟩
    · have hx' : x ∈ s.orders := by
        rcases mem_of_reported hx with hx | rfl
        · exact hx
        · exact absurd hbuy hside
      rw [hsame]
      exact h.seen x hx' hbuy hkind
    · unfold dcaCount
      rw [hsame, hbuys]
      exact h.count

/-- A paper fill is the only one of its order. -/
theorem Counted.paperFilled (h : Counted s ps) (ho : o ∈ s.orders)
    (hsized : o.side = .buy → o.Sized S) (hpaper : S.dryRun = true) (price : ℚ) :
    Counted ((s.remove o).filled (o.paperFill price)) (.fill (o.paperFill price) :: ps) := by
  have horders : ((s.remove o).filled (o.paperFill price)).orders = s.orders.erase o := by
    unfold State.filled
    cases (o.paperFill price).side <;> rfl
  have hsub : (s.orders.erase o).Sublist s.orders := List.erase_sublist
  have hunique : ((((s.remove o).filled (o.paperFill price)).orders.filter Order.buys).map
      Order.txid).Nodup := by
    rw [horders]
    exact ((hsub.filter Order.buys).map Order.txid).nodup h.unique
  have hfilled : dcaFilled (.fill (o.paperFill price) :: ps) =
      (if o.side = .buy ∧ o.kind = .dca then [o.txid] else []) ++ dcaFilled ps := by
    rw [dcaFilled_cons rfl]
    have hkind : o.side = .buy → o.kind ≠ .dcaPartial := fun hside => (hsized hside).kind
    show (if o.side = .buy ∧ (o.kind = .dca ∨ o.kind = .dcaPartial) then some o.txid
      else none).toList ++ _ = _
    by_cases hside : o.side = .buy
    · simp only [hside, true_and, hkind hside, or_false]
      split
      · rfl
      · rfl
    · simp only [hside, false_and, if_false]
      rfl
  by_cases hdca : o.side = .buy ∧ o.kind = .dca
  · -- its ID was not seen before, and no other BUY has it
    have hs := hsized hdca.1
    have hnew : o.txid ∉ dcaFilled ps := by
      intro hmem
      have hbig := (h.seen o ho hdca.1 hdca.2).mp hmem
      rw [hs.paper hpaper] at hbig
      exact absurd hbig (not_lt.mpr o.eps_nonneg)
    rw [if_pos hdca] at hfilled
    refine ⟨hunique, fun x hx hbuy hkind => ?_, ?_⟩
    · rw [horders] at hx
      have htxid : x.txid ≠ o.txid := by
        intro htxid
        have hxo : x = o := eq_of_key_eq h.unique
          (List.mem_filter.mpr ⟨hsub.subset hx, decide_eq_true hbuy⟩)
          (List.mem_filter.mpr ⟨ho, decide_eq_true hdca.1⟩) htxid
        exact erased_buy_gone h.unique (decide_eq_true hdca.1) (hxo ▸ hx)
      rw [hfilled, ← h.seen x (hsub.subset hx) hbuy hkind]
      simp [htxid]
    · have hbuys : ((s.remove o).filled (o.paperFill price)).dcaBuys = s.dcaBuys + 1 := by
        unfold State.filled
        rw [show (o.paperFill price).side = .buy from hdca.1]
        show (if o.kind = .dca then s.dcaBuys + 1 else s.dcaBuys) = _
        rw [if_pos hdca.2]
      unfold dcaCount
      rw [hfilled, List.singleton_append, List.dedup_cons_of_notMem hnew, List.length_cons, hbuys,
        h.count]
      rfl
  · -- a fill of another kind leaves the count alone
    rw [if_neg hdca, List.nil_append] at hfilled
    refine ⟨hunique, fun x hx hbuy hkind => ?_, ?_⟩
    · rw [horders] at hx
      rw [hfilled]
      exact h.seen x (hsub.subset hx) hbuy hkind
    · have hbuys : ((s.remove o).filled (o.paperFill price)).dcaBuys = s.dcaBuys := by
        unfold State.filled
        cases hside : o.side with
        | buy =>
            rw [show (o.paperFill price).side = .buy from hside]
            show (if o.kind = .dca then s.dcaBuys + 1 else s.dcaBuys) = _
            rw [if_neg (fun hkind => hdca ⟨hside, hkind⟩)]
        | sell =>
            rw [show (o.paperFill price).side = .sell from hside]
            rfl
      unfold dcaCount
      rw [hfilled, hbuys]
      exact h.count

end Counting

/-! ## Every run -/

section Runs

variable {S : Setup} {w w' : World}

/-- Budget and count fit, for the postings the venue's reports are cumulative in. -/
def Kept (S : Setup) (s : State) (ps : List Posting) : Prop :=
  Cumulative ps → Budgeted S s ∧ (DcaCounted ps → Counted s ps)

theorem Cumulative.tail {p : Posting} {ps : List Posting} (h : Cumulative (p :: ps)) :
    Cumulative ps := fun o r hmem => h o r (List.mem_cons_of_mem _ hmem)

/-- Neither the orders nor the amounts change. -/
theorem Kept.congr {s s' : State} {ps : List Posting} (h : Kept S s ps)
    (hsame : (s'.spent, s'.dcaBuys, s'.orders, s'.pendingIntent) =
      (s.spent, s.dcaBuys, s.orders, s.pendingIntent)) : Kept S s' ps := by
  simp only [Prod.mk.injEq] at hsame
  obtain ⟨hspent, hcount, horders, hpending⟩ := hsame
  intro hcumulative
  obtain ⟨hbudget, hcounted⟩ := h hcumulative
  refine ⟨hbudget.mono hspent hcount ?_, fun hdca => (hcounted hdca).congr hcount horders⟩
  unfold State.exposed
  rw [horders, hpending]

theorem Kept.admitted {s s' : State} {i : Instruction} {o : Order} {ps : List Posting}
    (h : Kept S s ps) (hS : Nonneg S) (hplacing : Placing S s i) (hfree : s.pendingIntent = none)
    (ho : o.side = i.side ∧ o.amount = i.amount ∧ o.kind = i.kind ∧ 0 < o.vol ∧ o.appliedVol = 0)
    (hexposed : s'.exposed = s.orders ++ [o]) (hspent : s'.spent = s.spent)
    (hcount : s'.dcaBuys = s.dcaBuys) (horders : s'.orders = s.orders) : Kept S s' ps := by
  intro hcumulative
  obtain ⟨hbudget, hcounted⟩ := h hcumulative
  exact ⟨hbudget.admitted hS hplacing hfree ho hexposed hspent hcount,
    fun hdca => (hcounted hdca).congr hcount horders⟩

/-- The order an intent stands for is the instruction it was made from. -/
theorem orderFromPending_intent (i : Instruction) (cycle : Nat) (clientOrderId : String) (t : ℚ) :
    (orderFromPending (i.intent S cycle clientOrderId t)).side = i.side ∧
      (orderFromPending (i.intent S cycle clientOrderId t)).amount = i.amount ∧
      (orderFromPending (i.intent S cycle clientOrderId t)).kind = i.kind ∧
      (orderFromPending (i.intent S cycle clientOrderId t)).vol = (i.rounded S).vol ∧
      (orderFromPending (i.intent S cycle clientOrderId t)).appliedVol = 0 := by
  refine ⟨rfl, rfl, ?_, rfl, rfl⟩
  show ((some i.kind.text).bind Kind.ofText).getD .tp = i.kind
  rw [Option.bind_some, Kind.ofText_text]
  rfl

theorem Kept.adopted {p : Intent} (h : Kept S w.s w.postings) (hp : w.s.pendingIntent = some p) :
    Kept S (w.adopted p).s (w.adopted p).postings := by
  show Kept S _ (if w.s.orders.any (fun o => o.txid = p.orderId.getD "") then w.postings
    else .tracked (orderFromPending p) :: w.postings)
  by_cases hknown : w.s.orders.any (fun o => o.txid = p.orderId.getD "") = true
  · rw [if_pos hknown]
    intro hcumulative
    obtain ⟨hbudget, hcounted⟩ := h hcumulative
    refine ⟨hbudget.adopted hp, fun hdca => (hcounted hdca).congr rfl ?_⟩
    show adoptInto w.s.orders p = w.s.orders
    unfold adoptInto
    rw [if_pos hknown]
  · rw [if_neg hknown]
    intro hcumulative
    obtain ⟨hbudget, hcounted⟩ := h hcumulative.tail
    refine ⟨hbudget.adopted hp, fun hdca => ?_⟩
    refine (hcounted hdca.1).tracked rfl ?_ rfl (fun _ x hx _ htxid => ?_) hdca.2
    · show adoptInto w.s.orders p = _
      unfold adoptInto
      rw [if_neg hknown]
    · exact hknown (List.any_eq_true.mpr ⟨x, hx, decide_eq_true htxid⟩)

theorem Kept.paperPlaced {i : Instruction} (h : Kept S w.s w.postings) (hS : Nonneg S) (t : ℚ)
    (hpaper : w.s.pendingIntent = none) (hsize : tooSmall S (i.rounded S).vol = false)
    (hplacing : Placing S w.s i) :
    Kept S (w.paperPlaced (i.rounded S) t).s (w.paperPlaced (i.rounded S) t).postings := by
  let o := paperOrder (i.rounded S) (w.paperSeq + 1) t
  intro hcumulative
  have hcumulative' : Cumulative w.postings := Cumulative.tail hcumulative
  obtain ⟨hbudget, hcounted⟩ := h hcumulative'
  have hexposed : (w.paperPlaced (i.rounded S) t).s.exposed = w.s.orders ++ [o] :=
    exposed_none hpaper
  refine ⟨hbudget.admitted hS hplacing hpaper ⟨rfl, rfl, rfl, tooSmall_pos hsize, rfl⟩ hexposed rfl
    rfl, fun hdca => ?_⟩
  refine (hcounted hdca.1).tracked rfl rfl rfl (fun hside x hx hbuy => ?_) hdca.2
  obtain ⟨-, -, -, -, hnone⟩ := hplacing.admits hS hside
  exact absurd hbuy (hnone x hx)

theorem Kept.booked {o : Order} {r : Report} (h : Kept S w.s w.postings) (ho : o ∈ w.s.orders)
    (hlive : S.dryRun = false) (hahead : o.regressed r = false) :
    Kept S (w.booked o r).s (w.booked o r).postings := by
  show Kept S (w.s.reported o r) (entered o r w.postings)
  intro hcumulative
  have hreport : Cumulative (.report o r :: w.postings) := by
    intro o' r' hmem
    exact hcumulative o' r' (List.mem_append_right _ hmem)
  obtain ⟨hbudget, hcounted⟩ := h hreport.tail
  have hthis := hreport o r List.mem_cons_self
  refine ⟨hbudget.reported ho hthis hlive, fun hdca => ?_⟩
  have hdca' : DcaCounted (.report o r :: w.postings) := by
    unfold entered at hdca
    split at hdca
    · exact hdca.1
    · exact hdca
  exact (hcounted hdca'.1).reported ho (hbudget.sized o (List.mem_append_left _ ho)) hthis.1
    (fun hside hkind => hdca'.2 hside hkind hahead)

/-- Nothing is committed at the beginning of a cycle. -/
theorem kept_fresh {s : State} {ps : List Posting} (hS : Nonneg S)
    (hs : (s.spent, s.dcaBuys, s.orders, s.pendingIntent) = (0, 0, [], none))
    (hps : dcaFilled ps = []) : Kept S s ps := by
  simp only [Prod.mk.injEq] at hs
  obtain ⟨hspent, hcount, horders, hpending⟩ := hs
  have hexposed : s.exposed = [] := by rw [exposed_none hpending, horders]
  intro _
  refine ⟨⟨?_, ?_, ?_⟩, fun _ => ⟨?_, ?_, ?_⟩⟩
  · rw [hexposed]
    simp
  · unfold State.committed
    rw [hexposed, hspent]
    simpa using hS.budget
  · unfold State.dcaSlots
    rw [hexposed, hcount]
    simpa using hS.count
  · rw [horders]
    simp
  · rw [horders]
    simp
  · unfold dcaCount
    rw [hcount, hps]
    rfl

theorem Move.kept (hS : Nonneg S) (h : Move S w w') (hpaperFree : w.PaperFree S)
    (hw : Kept S w.s w.postings ∧ Kept S w.saved w.savedPostings) :
    Kept S w'.s w'.postings ∧ Kept S w'.saved w'.savedPostings := by
  cases h with
  | note h => exact ⟨hw.1.congr (by rw [h]), hw.2⟩
  | called n failed events h => exact hw
  | saved => exact ⟨hw.1, hw.1⟩
  | intended hfree h => exact hw
  | pend hp hfree h =>
      obtain ⟨t, rfl⟩ := hp
      obtain ⟨hside, hamount, hkind, hvol, happlied⟩ := orderFromPending_intent (S := S) _ _ _ t
      -- an intent counts from the moment it is pending
      refine ⟨hw.1.admitted hS h.placing hfree ⟨hside, hamount, hkind, ?_, happlied⟩ rfl rfl rfl rfl,
        hw.2⟩
      rw [hvol]
      exact tooSmall_pos h.size
  | submit answer hp hpending h => exact hw
  | rewrite hp h =>
      refine ⟨fun hcumulative => ?_, hw.2⟩
      obtain ⟨hbudget, hcounted⟩ := hw.1 hcumulative
      exact ⟨hbudget.rewritten hp h, fun hdca => (hcounted hdca).congr rfl rfl⟩
  | release hp h =>
      refine ⟨fun hcumulative => ?_, hw.2⟩
      obtain ⟨hbudget, hcounted⟩ := hw.1 hcumulative
      refine ⟨hbudget.mono rfl rfl ?_, fun hdca => (hcounted hdca).congr rfl rfl⟩
      rw [exposed_none rfl]
      exact List.sublist_append_left _ _
  | track hp h => exact ⟨hw.1.adopted hp, hw.2⟩
  | cancelled h =>
      refine ⟨fun hcumulative => ?_, hw.2⟩
      obtain ⟨hbudget, hcounted⟩ := hw.1 hcumulative
      exact ⟨hbudget.cancelled _, fun hdca => (hcounted hdca).cancelled _⟩
  | dropped h =>
      refine ⟨fun hcumulative => ?_, hw.2⟩
      obtain ⟨hbudget, hcounted⟩ := hw.1 hcumulative
      refine ⟨hbudget.mono rfl rfl ?_, fun hdca => (hcounted hdca).sublist rfl List.erase_sublist⟩
      exact List.Sublist.append_right List.erase_sublist _
  | paperPlaced t hpaper hsize h =>
      exact ⟨hw.1.paperPlaced hS t (hpaperFree hpaper).1 hsize h, hw.2⟩
  | ignored ho hlive h =>
      refine ⟨fun hcumulative => ?_, hw.2⟩
      obtain ⟨hbudget, hcounted⟩ := hw.1 hcumulative.tail
      exact ⟨hbudget, fun hdca => (hcounted hdca.1).silent rfl rfl⟩
  | booked ho hlive h => exact ⟨hw.1.booked ho hlive h, hw.2⟩
  | paperFilled ho hpaper =>
      refine ⟨fun hcumulative => ?_, hw.2⟩
      obtain ⟨hbudget, hcounted⟩ := hw.1 hcumulative.tail
      refine ⟨hbudget.paperFilled ho hpaper _, fun hdca => ?_⟩
      exact (hcounted hdca.1).paperFilled ho (hbudget.sized _ (List.mem_append_left _ ho)) hpaper _
  | flattened =>
      refine ⟨hw.1.congr ?_, hw.2⟩
      show ((w.s.flattened S.precision).spent, _, _, _) = _
      unfold State.flattened
      split
      · rfl
      · rfl
  | held kind price hflat => exact ⟨hw.1.congr rfl, hw.2⟩
  | closed kind price hflat horders hpending => exact ⟨kept_fresh hS rfl rfl, hw.2⟩
  | exitMarked e h => exact ⟨hw.1.congr rfl, hw.2⟩
  | positionAdopted qty hqty horders hflat hspent hcost => exact ⟨hw.1.congr rfl, hw.2⟩
  | restarted => exact ⟨hw.2, hw.2⟩

/-- In every reachable state: nominal spent plus the unfilled share of the tracked and pending BUY
orders is at most the budget, the DCA count is the number of DCA orders that have had a fill in
this cycle, and it is at most the configured one. -/
theorem budget_never_exceeded (hw : Reachable S w) (hS : Nonneg S)
    (hcumulative : Cumulative w.postings) (hcounted : DcaCounted w.postings) :
    w.s.committed ≤ S.params.effectiveMaxBudget ∧ w.s.dcaBuys = dcaCount w.postings ∧
      (w.s.dcaBuys : Int) ≤ S.params.maxDcaBuys := by
  have hkept := hw.invariant (I := fun w => w.PaperFree S ∧
      Kept S w.s w.postings ∧ Kept S w.saved w.savedPostings)
    ⟨fun _ => ⟨rfl, rfl⟩, kept_fresh hS rfl rfl, kept_fresh hS rfl rfl⟩
    (fun _ _ hmove hI => ⟨hmove.paperFree hI.1, hmove.kept hS hI.1 hI.2⟩)
  obtain ⟨hbudget, hcount⟩ := hkept.2.1 hcumulative
  refine ⟨hbudget.committed, (hcount hcounted).count, ?_⟩
  have hslots := hbudget.slots
  unfold State.dcaSlots at hslots
  omega

end Runs

/-! ### A DCA of 1.12 at 89, reported three times -/

theorem cumulative_cons (p : Posting) (ps : List Posting) :
    Cumulative (p :: ps) ↔
      (∀ o r, p = .report o r → o.appliedVol ≤ r.totalVol ∧ r.totalVol ≤ o.vol) ∧
        Cumulative ps := by
  constructor
  · intro h
    exact ⟨fun o r hp => h o r (hp ▸ List.mem_cons_self), h.tail⟩
  · intro h o r hmem
    rcases List.mem_cons.mp hmem with hp | hp
    · exact h.1 o r hp.symm
    · exact h.2 o r hp

instance Cumulative.decidable : (ps : List Posting) → Decidable (Cumulative ps)
  | [] => isTrue (by simp [Cumulative])
  | .report o r :: ps =>
      haveI := Cumulative.decidable ps
      decidable_of_iff ((o.appliedVol ≤ r.totalVol ∧ r.totalVol ≤ o.vol) ∧ Cumulative ps)
        (by rw [cumulative_cons]; simp)
  | .tracked _ :: ps =>
      haveI := Cumulative.decidable ps
      decidable_of_iff (Cumulative ps) (by rw [cumulative_cons]; simp)
  | .fill _ :: ps =>
      haveI := Cumulative.decidable ps
      decidable_of_iff (Cumulative ps) (by rw [cumulative_cons]; simp)
  | .closed :: ps =>
      haveI := Cumulative.decidable ps
      decidable_of_iff (Cumulative ps) (by rw [cumulative_cons]; simp)

instance DcaCounted.decidable : (ps : List Posting) → Decidable (DcaCounted ps)
  | [] => isTrue trivial
  | .report o r :: ps =>
      haveI := DcaCounted.decidable ps
      inferInstanceAs (Decidable (DcaCounted ps ∧ (o.side = .buy → o.kind = .dca →
        o.regressed r = false → o.appliedVol ≤ o.eps → o.eps < r.totalVol →
          o.eps < r.totalVol - o.appliedVol)))
  | .tracked o :: ps =>
      haveI := DcaCounted.decidable ps
      inferInstanceAs (Decidable (DcaCounted ps ∧
        (o.side = .buy → o.kind = .dca → o.txid ∉ dcaFilled ps)))
  | .fill _ :: ps =>
      haveI := DcaCounted.decidable ps
      inferInstanceAs (Decidable (DcaCounted ps ∧ True))
  | .closed :: ps =>
      haveI := DcaCounted.decidable ps
      inferInstanceAs (Decidable (DcaCounted ps ∧ True))

/-- A report at 89 a piece. -/
def at89 (status : Status) (filledQty : ℚ) (h : 0 ≤ filledQty) : OrderStatus :=
  sampleStatus status filledQty (filledQty * 89) h (mul_nonneg h (by norm_num))

/-- The entry is filled; the DCA is reported by the calls 23, 27 and `last`. -/
def dcaReports (last : Nat) (first second third : OrderStatus) : Setup :=
  sampleSetup { sampleVenue with
    orderStatus := fun n => .ok (.ok (
      if n = 7 then boughtReport
      else if n = 23 then first
      else if n = 27 then second
      else if n = last then third
      else openReport)) }

def dcaRun : List Action :=
  [.step 100 {}, .reconcile 100, .step 89 {}, .reconcile 89, .reconcile 89, .reconcile 89]

theorem dcaReports_nonneg (last : Nat) (first second third : OrderStatus) :
    Nonneg (dcaReports last first second third) := by
  constructor <;> norm_num [dcaReports, sampleSetup, sampleParams, StratParams.effectiveMaxBudget,
    StratParams.allocatedBudget, StratParams.pctSizingOn]

/-- Nothing yet, half of it, all of it. -/
def dcaInParts : Setup :=
  dcaReports 33 (at89 .opened 0 OrderStatus.nothing_nonneg) (at89 .opened (1 / 2) halfUnit_nonneg)
    (at89 .closed (28 / 25) (by norm_num))

theorem dcaInParts_within_budget :
    (World.initial.run dcaInParts dcaRun).s.committed ≤ 1000 ∧
      (World.initial.run dcaInParts dcaRun).s.dcaBuys =
        dcaCount (World.initial.run dcaInParts dcaRun).postings ∧
      (World.initial.run dcaInParts dcaRun).s.dcaBuys = 1 := by
  have hrun : Cumulative (World.initial.run dcaInParts dcaRun).postings ∧
      DcaCounted (World.initial.run dcaInParts dcaRun).postings ∧
      (World.initial.run dcaInParts dcaRun).s.dcaBuys = 1 ∧
      dcaInParts.params.effectiveMaxBudget = 1000 := by
    decide +kernel
  obtain ⟨hcumulative, hcounted, hone, hbudget⟩ := hrun
  have h := budget_never_exceeded ⟨dcaRun, rfl⟩ (dcaReports_nonneg _ _ _ _) hcumulative hcounted
  exact ⟨hbudget ▸ h.1, h.2.1, hone⟩

/-- Two reports of less than `eps` more take the marker past `eps` before the rest is filled. -/
def dcaCreeping : Setup :=
  dcaReports 31 (at89 .opened (1 / 10 ^ 12) (by norm_num))
    (at89 .opened (2 / 10 ^ 12) (by norm_num)) (at89 .closed (28 / 25) (by norm_num))

theorem dcaCreeping_not_counted :
    Reachable dcaCreeping (World.initial.run dcaCreeping dcaRun) ∧ Nonneg dcaCreeping ∧
      Cumulative (World.initial.run dcaCreeping dcaRun).postings ∧
      (World.initial.run dcaCreeping dcaRun).s.dcaBuys = 0 ∧
      dcaCount (World.initial.run dcaCreeping dcaRun).postings = 1 := by
  have hrun : Cumulative (World.initial.run dcaCreeping dcaRun).postings ∧
      (World.initial.run dcaCreeping dcaRun).s.dcaBuys = 0 ∧
      dcaCount (World.initial.run dcaCreeping dcaRun).postings = 1 := by
    decide +kernel
  exact ⟨⟨dcaRun, rfl⟩, dcaReports_nonneg _ _ _ _, hrun⟩

end TradingFleet.SpotDca
