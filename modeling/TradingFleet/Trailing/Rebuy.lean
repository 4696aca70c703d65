import Mathlib.Tactic.Linarith
import TradingFleet.Trailing.Ticks

set_option autoImplicit false

/-! # The trailing stop: what is still to be bought back

A ledger of the results of the venue: a SELL adds what it sold, a REBUY subtracts what it bought,
down to zero. The recovery record of an item should say the same. It does as long as no fill finds
the record in a state that `_finish_pending` forgets.
-/

namespace TradingFleet.Trailing

open TradingFleet.Hoare TradingFleet.Lifecycle
open TradingFleet.Rounding (roundTo)

/-! ## The ledger -/

/-- `st["rebuy"]["qty"]`, or zero. -/
def Core.outstanding (core : Core) : ℚ := (core.rebuy.map Rebuy.qty).getD 0

/-- Sold and not bought back, after results listed newest first. -/
def owed : List (Pending × OrderStatus) → ℚ
  | [] => 0
  | (intent, status) :: earlier =>
      if status.filledQty ≤ 0 then owed earlier
      else match intent.metadata.action with
        | .sell => owed earlier + status.filledQty
        | .rebuy => max 0 (owed earlier - status.filledQty)

/-- The oldest of the results, as many as the updates have fills. -/
def countedIn (results : List (Pending × OrderStatus)) (updates : List Update) :
    List (Pending × OrderStatus) :=
  results.drop (results.length - (updates.filterMap Update.fill?).length)

/-- The record agrees with the results, now and after every earlier update. -/
def Item.Remembers (S : Settings) (results : List (Pending × OrderStatus)) (st : Item) : Prop :=
  ∀ earlier, earlier <:+ st.history →
    (replay S st.start earlier).outstanding = owed (countedIn results earlier)

/-- The update finds a record that it does not forget: a SELL finds none, a REBUY leaves nothing or
more than `1e-8`, and a record that is dropped does not round to zero. -/
def Update.Clear (core : Core) : Update → Prop
  | .dropped => ∀ rb, core.rebuy = some rb → 0 < roundTo rb.qty 8
  | .finished fill => 0 < fill.filled →
      match fill.action with
      | .sell => core.rebuy = none
      | .rebuy => ∀ rb, core.rebuy = some rb →
          rb.qty ≤ fill.filled ∨ 1 / 10 ^ 8 < rb.qty - fill.filled
  | _ => True

def Item.Clear (S : Settings) (st : Item) : Prop :=
  ∀ u earlier, u :: earlier <:+ st.history → u.Clear (replay S st.start earlier)

/-! ## The fills of an item and the results -/

def Update.book (left : ℚ) : Update → ℚ
  | .finished fill =>
      if fill.filled ≤ 0 then left
      else match fill.action with
        | .sell => left + fill.filled
        | .rebuy => max 0 (left - fill.filled)
  | _ => left

/-- The same ledger over the fills among some updates. -/
def booked : List Update → ℚ
  | [] => 0
  | u :: earlier => u.book (booked earlier)

theorem booked_eq_owed {updates : List Update} {results : List (Pending × OrderStatus)}
    (h : List.Forall₂ Fill.Reports (updates.filterMap Update.fill?) results) :
    booked updates = owed results := by
  induction updates generalizing results with
  | nil =>
      cases h
      rfl
  | cons u earlier ih =>
      cases hu : u.fill? with
      | none =>
          rw [List.filterMap_cons_none hu] at h
          cases u with
          | finished fill => cases hu
          | lowered price => exact ih h
          | dropped => exact ih h
          | warmUp threshold => exact ih h
          | warmed => exact ih h
          | peaked price => exact ih h
      | some fill =>
          rw [List.filterMap_cons_some hu] at h
          cases u with
          | finished fill' =>
              cases hu
              obtain ⟨⟨intent, status⟩, rest, hreports, hrest, rfl⟩ := List.forall₂_cons_left_iff.mp h
              simp only [booked, Update.book, owed, ih hrest, hreports.filled, hreports.action]
          | lowered price => cases hu
          | dropped => cases hu
          | warmUp threshold => cases hu
          | warmed => cases hu
          | peaked price => cases hu

/-- Earlier updates have booked the earlier results. -/
theorem booked_countedIn {history earlier : List Update} {results : List (Pending × OrderStatus)}
    (h : List.Forall₂ Fill.Reports (history.filterMap Update.fill?) results)
    (hearlier : earlier <:+ history) : booked earlier = owed (countedIn results earlier) := by
  refine booked_eq_owed ?_
  have hfills := List.suffix_iff_eq_drop.mp (hearlier.filterMap Update.fill?)
  have hdropped := List.forall₂_drop
    ((history.filterMap Update.fill?).length - (earlier.filterMap Update.fill?).length) h
  rw [← hfills, h.length_eq] at hdropped
  exact hdropped

/-! ## One update -/

/-- A record is about something. -/
def Core.Positive (core : Core) : Prop := ∀ rb, core.rebuy = some rb → 0 < rb.qty

variable {S : Setup} {core : Core}

theorem Core.Positive.apply (h : core.Positive) (u : Update) :
    (core.apply S.settings u).Positive := by
  intro rb hrb
  cases u with
  | lowered price =>
      obtain ⟨rb₀, hrb₀, rfl⟩ := Option.map_eq_some_iff.mp hrb
      exact h rb₀ hrb₀
  | dropped => cases hrb
  | warmUp threshold => exact h rb hrb
  | warmed => exact h rb hrb
  | peaked price => exact h rb hrb
  | finished fill =>
      change (core.finish S.settings fill).rebuy = some rb at hrb
      unfold Core.finish at hrb
      split at hrb
      · exact h rb hrb
      rename_i hfilled
      split at hrb
      · -- a SELL
        by_cases harmed : fill.armed = true
        · simp only [harmed, if_true, Option.some.injEq] at hrb
          rw [← hrb]
          exact not_le.mp hfilled
        · simp only [harmed, Bool.false_eq_true, if_false] at hrb
          exact h rb hrb
      · -- a REBUY
        cases hcore : core.rebuy with
        | none =>
            rw [hcore] at hrb
            cases hrb
        | some rb₀ =>
            rw [hcore] at hrb
            simp only [Rebuy.after] at hrb
            split at hrb
            · rename_i hleft
              rw [← Option.some.inj hrb]
              have htiny : (0 : ℚ) < 1 / 10 ^ 8 := by norm_num
              exact lt_trans htiny hleft
            · cases hrb

theorem outstanding_none (h : core.rebuy = none) : core.outstanding = 0 := by
  unfold Core.outstanding
  rw [h]
  rfl

theorem outstanding_some {rb : Rebuy} (h : core.rebuy = some rb) : core.outstanding = rb.qty := by
  unfold Core.outstanding
  rw [h]
  rfl

/-- After a SELL the record is about that SELL alone. -/
theorem sell_books (hpos : core.Positive) {fill : Fill} (hfilled : 0 < fill.filled)
    (haction : fill.action = .sell) (harmed : fill.armed = true) :
    (core.finish S.settings fill).outstanding = core.outstanding + fill.filled ↔
      core.rebuy = none := by
  have hafter : (core.finish S.settings fill).outstanding = fill.filled := by
    unfold Core.finish
    rw [if_neg (not_le.mpr hfilled), haction]
    simp only [harmed, if_true]
    rfl
  rw [hafter]
  constructor
  · intro h
    cases hrb : core.rebuy with
    | none => rfl
    | some rb =>
        have hqty := hpos rb hrb
        rw [outstanding_some hrb] at h
        linarith
  · intro h
    rw [outstanding_none h, zero_add]

theorem rebuy_books {fill : Fill} (hfilled : 0 < fill.filled) (haction : fill.action = .rebuy) :
    (core.finish S.settings fill).outstanding = max 0 (core.outstanding - fill.filled) ↔
      ∀ rb, core.rebuy = some rb → rb.qty ≤ fill.filled ∨ 1 / 10 ^ 8 < rb.qty - fill.filled := by
  have hafter : (core.finish S.settings fill).rebuy = Rebuy.after fill core.rebuy := by
    unfold Core.finish
    rw [if_neg (not_le.mpr hfilled), haction]
  cases hrb : core.rebuy with
  | none =>
      rw [hrb] at hafter
      rw [outstanding_none hafter, outstanding_none hrb, zero_sub,
        max_eq_left (neg_nonpos.mpr (le_of_lt hfilled))]
      exact iff_of_true rfl (fun rb h => by cases h)
  | some rb =>
      rw [outstanding_some hrb]
      rw [hrb] at hafter
      simp only [Rebuy.after] at hafter
      have htiny : (0 : ℚ) < 1 / 10 ^ 8 := by norm_num
      by_cases hleft : 1 / 10 ^ 8 < max 0 (rb.qty - fill.filled)
      · -- enough is left for a record
        rw [if_pos hleft] at hafter
        rw [outstanding_some hafter]
        refine iff_of_true rfl (fun rb' h => ?_)
        cases h
        rcases lt_max_iff.mp hleft with h | h
        · exact absurd h (not_lt.mpr (le_of_lt htiny))
        · exact Or.inr h
      · -- no record: right only if nothing is left
        rw [if_neg hleft] at hafter
        rw [outstanding_none hafter]
        constructor
        · intro h rb' h'
          cases h'
          exact Or.inl (by linarith [le_max_right 0 (rb.qty - fill.filled)])
        · intro h
          rcases h rb rfl with h | h
          · rw [max_eq_left (by linarith)]
          · exact absurd (lt_of_lt_of_le h (le_max_right _ _)) hleft

/-- An update books what it should exactly if it finds the record clear. -/
theorem apply_books (hpos : core.Positive) {u : Update} (hreg : u.Regular S core)
    (hlive : S.settings.enabled = true) (harmed : S.Armed) :
    (core.apply S.settings u).outstanding = u.book core.outstanding ↔ u.Clear core := by
  cases u with
  | lowered price =>
      refine iff_of_true ?_ trivial
      show ((core.rebuy.map (Rebuy.lower price)).map Rebuy.qty).getD 0 = _
      rw [Option.map_map]
      rfl
  | dropped =>
      have hrounds := hreg hlive
      constructor
      · intro h rb hrb
        have hqty := hpos rb hrb
        have hzero : (0 : ℚ) = core.outstanding := h
        rw [outstanding_some hrb] at hzero
        linarith
      · intro h
        cases hrb : core.rebuy with
        | none => exact (outstanding_none hrb).symm
        | some rb => exact absurd (h rb hrb) (not_lt.mpr (hrounds rb hrb))
  | warmUp threshold => exact iff_of_true rfl trivial
  | warmed => exact iff_of_true rfl trivial
  | peaked price => exact iff_of_true rfl trivial
  | finished fill =>
      change (core.finish S.settings fill).outstanding = _ ↔ _
      by_cases hfilled : fill.filled ≤ 0
      · refine iff_of_true ?_ (fun h => absurd h (not_lt.mpr hfilled))
        simp only [Core.finish, Update.book, if_pos hfilled]
      · have hpositive := not_le.mp hfilled
        simp only [Update.book, Update.Clear, if_neg hfilled, hpositive, true_implies]
        cases haction : fill.action with
        | sell => exact sell_books hpos hpositive haction (hreg haction hpositive harmed)
        | rebuy => exact rebuy_books hpositive haction

/-! ## A whole history -/

theorem replay_positive (start : ℚ) (history : List Update) :
    (replay S.settings start history).Positive := by
  induction history with
  | nil => exact fun rb h => by cases h
  | cons u earlier ih => exact ih.apply u

theorem Regular.head {start : ℚ} {history earlier : List Update} {u : Update}
    (h : Regular S start history) (hsuffix : u :: earlier <:+ history) :
    u.Regular S (replay S.settings start earlier) := by
  induction history with
  | nil => exact absurd (List.suffix_nil.mp hsuffix) (List.cons_ne_nil _ _)
  | cons u' rest ih =>
      rcases List.suffix_cons_iff.mp hsuffix with heq | hrest
      · cases heq
        exact h.1
      · exact ih h.2 hrest

theorem remembers_iff_clear {st : Item} (hreg : Regular S st.start st.history)
    (hlive : S.settings.enabled = true) (harmed : S.Armed)
    {results : List (Pending × OrderStatus)}
    (hresults : List.Forall₂ Fill.Reports st.applied results) :
    st.Remembers S.settings results ↔ st.Clear S.settings := by
  have hledger : ∀ earlier, earlier <:+ st.history →
      booked earlier = owed (countedIn results earlier) :=
    fun earlier hsuffix => booked_countedIn hresults hsuffix
  have hstep : ∀ u earlier, u :: earlier <:+ st.history →
      ((replay S.settings st.start (u :: earlier)).outstanding =
        u.book (replay S.settings st.start earlier).outstanding ↔
        u.Clear (replay S.settings st.start earlier)) :=
    fun u earlier hsuffix =>
      apply_books (replay_positive _ _) (hreg.head hsuffix) hlive harmed
  constructor
  · intro h u earlier hsuffix
    have hearlier := (List.suffix_cons u earlier).trans hsuffix
    refine (hstep u earlier hsuffix).mp ?_
    rw [h _ hsuffix, h earlier hearlier, ← hledger _ hsuffix, ← hledger earlier hearlier]
    rfl
  · intro h earlier
    induction earlier with
    | nil =>
        intro hsuffix
        rw [← hledger [] hsuffix]
        rfl
    | cons u earlier ih =>
        intro hsuffix
        have hearlier := (List.suffix_cons u earlier).trans hsuffix
        rw [(hstep u earlier hsuffix).mpr (h u earlier hsuffix), ih hearlier,
          ← hledger _ hsuffix, ← hledger earlier hearlier]
        rfl

/-- **What is remembered.** In live mode with re-buys armed, the record of an item in the file
follows the results of the venue that the file has exactly if every fill found it clear; the fills
of the item are these results. -/
theorem rebuy_remembered_iff (S : Setup) (hlive : S.settings.enabled = true) (harmed : S.Armed)
    (n : Nat) (key : String) (st : Item) (hst : (World.run S n).disk key = some st) :
    st.core = replay S.settings st.start st.history ∧
      List.Forall₂ Fill.Reports st.applied ((World.run S n).diskResults key) ∧
      (st.Remembers S.settings ((World.run S n).diskResults key) ↔ st.Clear S.settings) := by
  have hsound := ((run_inv S n).disk key).sound st hst
  have hresults := (run_inv S n).diskResults key
  rw [hst] at hresults
  exact ⟨hsound.replayed, hresults, remembers_iff_clear hsound.regular hlive harmed hresults⟩

/-! ## Two SELLs while the gate is closed -/

/-- The price falls, dips a little and bounces: the five coins sold are bought back. -/
def bouncing : Setup :=
  market (fun n => if n < 5 then 100 else if n = 28 then 76 else 80) true

theorem bouncing_item : ∃ st, (World.run bouncing 6).disk "BTCUSDC" = some st ∧
    st.applied.map Fill.action = [.rebuy, .sell] := by
  decide +kernel

theorem bouncing_remembered : ∃ st : Item, st.applied.map Fill.action = [.rebuy, .sell] ∧
    st.core = replay bouncing.settings st.start st.history ∧
      List.Forall₂ Fill.Reports st.applied ((World.run bouncing 6).diskResults "BTCUSDC") ∧
      (st.Remembers bouncing.settings ((World.run bouncing 6).diskResults "BTCUSDC") ↔
        st.Clear bouncing.settings) := by
  obtain ⟨st, hst, happlied⟩ := bouncing_item
  exact ⟨st, happlied, rebuy_remembered_iff bouncing rfl (market_armed _ _) 6 "BTCUSDC" st hst⟩

/-- The price falls twice while re-buys are closed. -/
def falling : Setup :=
  market (fun n => if n < 5 then 100 else if n < 20 then 80 else 60) false

/-- Ten coins were sold; five are remembered. -/
theorem second_sell_forgets_first : falling.settings.enabled = true ∧ falling.Armed ∧
    ∃ st, (World.run falling 5).disk "BTCUSDC" = some st ∧
      owed ((World.run falling 5).diskResults "BTCUSDC") = 10 ∧ st.core.outstanding = 5 := by
  refine ⟨rfl, market_armed _ _, ?_⟩
  decide +kernel

end TradingFleet.Trailing
