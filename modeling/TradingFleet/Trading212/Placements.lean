import TradingFleet.Trading212.Oversell
import TradingFleet.Trading212.Rearming
import TradingFleet.Trading212.Ticks

set_option autoImplicit false

/-! # Trading 212: what a ladder places beside the open orders

A call of the ladder first withdraws what no longer fits. An order of paper mode is off at once; the
cancel of any other order is a request, and the order stays open. What stays (`ladderStart`) does not
depend on the answers of the venue. The placements of the call and the open level orders are then at
most what is held exactly if the orders that stay and the levels without one ask for no more.
-/

namespace TradingFleet.Trading212

open TradingFleet.Text hiding orElse
open TradingFleet.Lifecycle TradingFleet.Hoare
open TradingFleet.Rounding (roundTo)

/-! ## The open level orders -/

/-- What the tracked SELLs with a level offer. -/
def State.offered (s : State) : ℚ :=
  ((s.orders.filter (fun o => o.side = .sell ∧ o.level.isSome)).map Order.qty).sum

/-- The levels with a tracked SELL. -/
def State.openLevels (s : State) : List ℚ :=
  ((s.orders.filter (fun o => o.side = .sell)).filterMap Order.level).eraseDups

/-- A cancel takes the order off at once. -/
def Setup.Immediate (S : Setup) (o : Order) : Prop := S.dryRun = true ∨ startsWith o.id "PAPER" = true

instance (S : Setup) (o : Order) : Decidable (S.Immediate o) :=
  inferInstanceAs (Decidable (_ ∨ _))

/-- The SELLs without a level are off, unless one of them stays. -/
def withoutPlain (S : Setup) : List Order → State → Option State
  | [], s => some s
  | o :: rest, s =>
      if S.Immediate o ∧ ¬ (s.removeOrder o).stillTracks o then withoutPlain S rest (s.removeOrder o)
      else none

/-- What the test of an open level order says; it divides by the limit. -/
def staleness (desired : List (ℚ × ℚ × ℚ)) (level : ℚ) (o : Order) : Option Bool :=
  match desired.find? (fun d => d.1 = level) with
  | none => some true
  | some (_, qty, limit) =>
      if limit = 0 then none
      else some (decide (1 / 1000 < |o.limit - limit| / limit ∨ 1 / 10 ^ 6 < |o.qty - qty|))

/-- One level of the second pass over the open orders. -/
def withdrawLevel (S : Setup) (desired : List (ℚ × ℚ × ℚ)) (x : State × List ℚ) (level : ℚ) :
    Option (State × List ℚ) :=
  match x.1.orders.reverse.find? (fun o => o.side = .sell ∧ o.level = some level) with
  | none => some x
  | some o =>
      match staleness desired level o with
      | none => none
      | some stale =>
          if stale ∧ S.Immediate o then
            let s := x.1.removeOrder o
            some (s, if s.stillTracks o then x.2 else x.2.erase level)
          else some x

/-- The orders and the levels that stay open, if the call comes to its placements. -/
def ladderStart (S : Setup) (s : State) (held avg : ℚ) : Option (State × List ℚ) :=
  match withoutPlain S (s.orders.filter (fun o => o.side = .sell ∧ o.level = none)) s with
  | none => none
  | some s' =>
      s'.openLevels.foldlM (withdrawLevel S (ladderDesired S.params s held avg)) (s', s'.openLevels)

/-- The desired levels without an open order. -/
def missing (desired : List (ℚ × ℚ × ℚ)) (levels : List ℚ) : List (ℚ × ℚ × ℚ) :=
  desired.filter (fun d => d.1 ∉ levels)

/-- What stays open and the missing levels ask for at most what is held. A pending submit keeps a
live call from placing anything. -/
def OpenWithin (S : Setup) (s : State) (held avg : ℚ) : Prop :=
  (S.dryRun = false → s.pendingSubmit = none) → ∀ s' levels,
    ladderStart S s held avg = some (s', levels) →
      missing (ladderDesired S.params s held avg) levels = [] ∨
        s'.offered + askedTotal (missing (ladderDesired S.params s held avg) levels) ≤ held

/-- The world after a program, however it ended. -/
def World.ended {α : Type} : EStateM.Result Stop World α → World
  | .ok _ w => w
  | .error _ w => w

/-- At every POST of the call the open level orders and the new one are at most what is held, and so
are the open ones after a call that has placed in paper mode. -/
def CallWithin (S : Setup) (w : World) (held avg : ℚ) : Prop :=
  let w' := World.ended (manageTpLadder S held avg w)
  (∀ e ∈ entriesSince w w', ∀ p outcome,
    e.event = .submit p outcome → e.before.offered + p.qty ≤ held) ∧
  (w.paperSeq < w'.paperSeq → w'.s.offered ≤ held)

/-! ## Orders that differ in the marks -/

/-- The same order, up to the mark of an order that stays. -/
def Alike (S : Setup) (x y : Order) : Prop :=
  x = y ∨ (¬ S.Immediate x ∧ ¬ S.Immediate y ∧ x.side = y.side ∧ x.level = y.level ∧
    x.qty = y.qty ∧ x.limit = y.limit)

variable {S : Setup} {l l' : List Order}

theorem Alike.side {x y : Order} (h : Alike S x y) : x.side = y.side := by
  rcases h with rfl | h
  · rfl
  · exact h.2.2.1

theorem Alike.level {x y : Order} (h : Alike S x y) : x.level = y.level := by
  rcases h with rfl | h
  · rfl
  · exact h.2.2.2.1

theorem Alike.qty {x y : Order} (h : Alike S x y) : x.qty = y.qty := by
  rcases h with rfl | h
  · rfl
  · exact h.2.2.2.2.1

theorem Alike.limit {x y : Order} (h : Alike S x y) : x.limit = y.limit := by
  rcases h with rfl | h
  · rfl
  · exact h.2.2.2.2.2

theorem Alike.immediate {x y : Order} (h : Alike S x y) (hx : S.Immediate x ∨ S.Immediate y) :
    x = y := by
  rcases h with rfl | ⟨hnx, hny, -⟩
  · rfl
  · exact absurd hx (not_or.mpr ⟨hnx, hny⟩)

theorem alike_refl (l : List Order) : List.Forall₂ (Alike S) l l :=
  List.forall₂_same.mpr (fun _ _ => Or.inl rfl)

theorem alike_mem {o : Order} (h : List.Forall₂ (Alike S) l l') (ho : S.Immediate o) :
    o ∈ l ↔ o ∈ l' := by
  induction h with
  | nil => rfl
  | @cons x y l l' hxy _ ih =>
      rw [List.mem_cons, List.mem_cons, ih]
      have hsame : o = x ↔ o = y := by
        constructor
        · rintro rfl
          exact hxy.immediate (Or.inl ho)
        · rintro rfl
          exact (hxy.immediate (Or.inr ho)).symm
      rw [hsame]

theorem alike_erase {o : Order} (h : List.Forall₂ (Alike S) l l') (ho : S.Immediate o) :
    List.Forall₂ (Alike S) (l.erase o) (l'.erase o) := by
  induction h with
  | nil => exact List.Forall₂.nil
  | @cons x y l l' hxy hrest ih =>
      have hsame : x = o ↔ y = o := by
        constructor
        · rintro rfl
          exact (hxy.immediate (Or.inl ho)).symm
        · rintro rfl
          exact hxy.immediate (Or.inr ho)
      rw [List.erase_cons, List.erase_cons]
      by_cases hx : x = o
      · simpa [hx, hsame.mp hx] using hrest
      · have hy : ¬ y = o := fun heq => hx (hsame.mpr heq)
        simpa [hx, hy] using ⟨hxy, ih⟩

/-- A mark is put on an order that stays. -/
theorem alike_marked {o : Order} (h : List.Forall₂ (Alike S) l l') (ho : ¬ S.Immediate o) :
    List.Forall₂ (Alike S) (Keyed.updateFirst (fun x => x = o)
      (fun _ => { o with cancelRequested := true }) l) l' := by
  induction h with
  | nil => exact List.Forall₂.nil
  | @cons x y l l' hxy hrest ih =>
      unfold Keyed.updateFirst
      by_cases hx : x = o
      · subst hx
        have hmarked : ¬ S.Immediate { x with cancelRequested := true } := ho
        have hy : ¬ S.Immediate y := by
          rcases hxy with rfl | hxy
          · exact ho
          · exact hxy.2.1
        have hnew : Alike S { x with cancelRequested := true } y :=
          Or.inr ⟨hmarked, hy, hxy.side, hxy.level, hxy.qty, hxy.limit⟩
        simpa using ⟨hnew, hrest⟩
      · simpa [hx] using ⟨hxy, ih⟩

/-- What an open order is looked up by does not depend on the marks. -/
theorem alike_find {p : Order → Bool} (hp : ∀ x y, Alike S x y → p x = p y)
    (h : List.Forall₂ (Alike S) l l') :
    (l.find? p = none ∧ l'.find? p = none) ∨
      ∃ x y, l.find? p = some x ∧ l'.find? p = some y ∧ Alike S x y := by
  induction h with
  | nil => exact Or.inl ⟨rfl, rfl⟩
  | @cons x y l l' hxy _ ih =>
      have hsame := hp x y hxy
      by_cases hx : p x = true
      · refine Or.inr ⟨x, y, ?_, ?_, hxy⟩
        · simp [hx]
        · simp [← hsame, hx]
      · simpa [List.find?_cons, hx, ← hsame] using ih

theorem alike_offered {s s' : State} (h : List.Forall₂ (Alike S) s.orders s'.orders) :
    s.offered = s'.offered := by
  unfold State.offered
  generalize s.orders = l, s'.orders = l' at h
  induction h with
  | nil => rfl
  | @cons x y l l' hxy _ ih =>
      by_cases hx : x.side = .sell ∧ x.level.isSome = true
      · have hy : y.side = .sell ∧ y.level.isSome = true := hxy.side ▸ hxy.level ▸ hx
        rw [List.filter_cons_of_pos (by simpa using hx), List.filter_cons_of_pos (by simpa using hy)]
        simp only [List.map_cons, List.sum_cons, hxy.qty, ih]
      · have hy : ¬ (y.side = .sell ∧ y.level.isSome = true) := hxy.side ▸ hxy.level ▸ hx
        simp only [List.filter_cons, hx, hy, decide_false, Bool.false_eq_true, if_false]
        exact ih

theorem alike_openLevels {s s' : State} (h : List.Forall₂ (Alike S) s.orders s'.orders) :
    s.openLevels = s'.openLevels := by
  unfold State.openLevels
  congr 1
  generalize s.orders = l, s'.orders = l' at h
  induction h with
  | nil => rfl
  | @cons x y l l' hxy _ ih =>
      have hside := hxy.side
      by_cases hx : x.side = .sell
      · have hy : y.side = .sell := hside ▸ hx
        simp [hx, hy, List.filterMap_cons, hxy.level, ih]
      · have hy : ¬ y.side = .sell := hside ▸ hx
        simp [hx, hy, ih]

theorem alike_stillTracks {s s' : State} {o : Order}
    (h : List.Forall₂ (Alike S) s.orders s'.orders) (ho : S.Immediate o) :
    s.stillTracks o = s'.stillTracks o := by
  unfold State.stillTracks
  have hmarked : S.Immediate { o with cancelRequested := true } := ho
  simp only [alike_mem h ho, alike_mem h hmarked]

/-! ## The cancels -/

/-- A venue that takes everything, at a time when no level is held back. -/
structure Ideal (S : Setup) (fails : List (ℚ × ℚ)) : Prop where
  save : ∀ n, S.venue.save n = .stored
  submit : ∀ n, ∃ id, S.venue.submit n = .ok (.ok (.outcome { state := .accepted, orderId := id }))
  cancelOrder : ∀ n, S.venue.cancelOrder n = .ok (.ok ())
  time : ∀ n, ∃ t, S.venue.time n = .ok t ∧ 0 ≤ t ∧ ∀ f ∈ fails, f.2 ≤ t

/-- Since `w₀` nothing was placed. -/
structure Unplaced (w₀ w : World) : Prop where
  paper : w.paperSeq = w₀.paperSeq
  log : ∃ new, w.log = new ++ w₀.log ∧ ∀ e ∈ new, ∀ p outcome, e.event ≠ .submit p outcome

/-- The orders are those of `s` up to the marks, and nothing was placed. -/
structure Before (S : Setup) (s : State) (w₀ w : World) : Prop where
  unplaced : Unplaced w₀ w
  orders : List.Forall₂ (Alike S) w.s.orders s.orders
  sold : w.s.tpSoldLevels = w₀.s.tpSoldLevels
  pending : w.s.pendingSubmit = w₀.s.pendingSubmit
  fails : w.s.tpFailUntil = w₀.s.tpFailUntil

variable {s s' : State} {w₀ w : World} {fails : List (ℚ × ℚ)}

theorem Unplaced.refl (w : World) : Unplaced w w := ⟨rfl, [], rfl, fun e he => by cases he⟩

/-- An error of the venue. -/
def Failed (S : Setup) (fails : List (ℚ × ℚ)) (w₀ w : World) : Prop :=
  Unplaced w₀ w ∧ ¬ Ideal S fails

/-- A call that is answered under `Ideal`. -/
theorem ask_ideal {α : Type} {answer : Nat → Except Stop α} {f g : World → Prop}
    (hf : ∀ w n, f w → f { w with calls := n }) (hg : ∀ w, f w → g w)
    (hideal : Ideal S fails → ∀ n, ∃ x, answer n = .ok x) :
    Triple f (ask answer) (fun x w => f w ∧ ∃ n, answer n = .ok x)
      (fun _ w => g w ∧ ¬ Ideal S fails) := by
  intro w hw
  unfold ask
  cases hanswer : answer w.calls with
  | ok x => exact ⟨hf w _ hw, w.calls, hanswer⟩
  | error e =>
      refine ⟨hg _ (hf w _ hw), fun h => ?_⟩
      obtain ⟨x, hx⟩ := hideal h w.calls
      rw [hanswer] at hx
      cases hx

theorem save_ideal (hlive : S.dryRun = false) {f g : World → Prop}
    (hf : ∀ w saved failed n, f w →
      f { w with saved := saved, writeFailed := failed, calls := n })
    (hg : ∀ w, f w → g w) :
    Triple f (save S) (fun _ => f) (fun _ w => g w ∧ ¬ Ideal S fails) := by
  intro w hw
  unfold save
  cases hanswer : S.venue.save w.calls with
  | stored => exact hf w _ _ _ hw
  | failed =>
      simp only [hlive]
      refine ⟨hg _ (hf w w.saved true _ hw), fun h => ?_⟩
      rw [h.save] at hanswer
      cases hanswer
  | crashed replaced =>
      refine ⟨?_, fun h => ?_⟩
      · cases replaced
        · exact hg _ (hf w w.saved true _ hw)
        · exact hg _ (hf w w.s true _ hw)
      · rw [h.save] at hanswer
        cases hanswer

theorem Before.outside (h : Before S s w₀ w) {w' : World} (hs : w'.s = w.s)
    (hpaper : w'.paperSeq = w.paperSeq) (hlog : w'.log = w.log) : Before S s w₀ w' :=
  ⟨⟨hpaper.trans h.unplaced.paper, hlog ▸ h.unplaced.log⟩, hs ▸ h.orders, hs ▸ h.sold, hs ▸ h.pending,
    hs ▸ h.fails⟩

/-- An order that is off at once is off in both states. -/
theorem cancelSpecific_immediate {o : Order} (ho : S.Immediate o) {f g : World → Prop}
    (hf : ∀ w, f w → g { w with s := w.s.removeOrder o }) :
    Triple (fun w => Before S s w₀ w ∧ f w) (cancelSpecific S o)
      (fun cancelled w => cancelled = true ∧ Before S (s.removeOrder o) w₀ w ∧ g w)
      (fun _ => Failed S fails w₀) := by
  have hdone : cancelSpecific S o = (do
      update (fun s => s.removeOrder o)
      pure true) := if_pos ho
  rw [hdone]
  refine Triple.bind (Q := fun _ w => Before S (s.removeOrder o) w₀ w ∧ g w) (fun w hw => ?_)
    (fun _ => Triple.pure (fun w hw => ⟨rfl, hw⟩))
  obtain ⟨hbefore, hframe⟩ := hw
  exact ⟨⟨⟨hbefore.unplaced.paper, hbefore.unplaced.log⟩, alike_erase hbefore.orders ho, hbefore.sold,
    hbefore.pending, hbefore.fails⟩, hf w hframe⟩

/-- Any other order stays tracked, whatever the venue answers. -/
theorem cancelSpecific_request {o : Order} (ho : ¬ S.Immediate o) :
    Triple (fun w => Before S s w₀ w ∧ w.s.stillTracks o = true) (cancelSpecific S o)
      (fun _ w => Before S s w₀ w ∧ w.s.stillTracks o = true) (fun _ => Failed S fails w₀) := by
  have hlive : S.dryRun = false := Bool.eq_false_iff.mpr (fun hdry => ho (Or.inl hdry))
  unfold cancelSpecific
  rw [if_neg (show ¬ (S.dryRun = true ∨ startsWith o.id "PAPER" = true) from ho)]
  refine Triple.ite (Triple.pure (fun _ hw => hw)) ?_
  refine Triple.bind (ask_ideal (f := fun w => Before S s w₀ w ∧ w.s.stillTracks o = true)
    (fun _ _ h => ⟨h.1.outside rfl rfl rfl, h.2⟩) (fun _ h => h.1.unplaced)
    (fun h n => ⟨_, h.cancelOrder n⟩)) (fun answer => ?_)
  refine Triple.bind (Q := fun _ w => (Before S s w₀ w ∧ w.s.stillTracks o = true) ∧
    ∃ n, S.venue.cancelOrder n = .ok answer) (fun w hw => ?_) (fun _ => ?_)
  · -- the answer is logged
    obtain ⟨⟨⟨⟨hpaper, new, hnew, hposts⟩, horders, hsold, hpending, hfails⟩, htracks⟩, hn⟩ := hw
    refine ⟨⟨⟨⟨hpaper, ⟨w.s, .cancelOrder o answer⟩ :: new, congrArg (List.cons _) hnew, ?_⟩,
      horders, hsold, hpending, hfails⟩, htracks⟩, hn⟩
    intro e he p outcome
    rcases List.mem_cons.mp he with rfl | he
    · exact fun h => by cases h
    · exact hposts e he p outcome
  · cases answer with
    | error e =>
        refine Triple.ite (Triple.pure (fun _ hw => hw.1)) (Triple.throw (fun w hw => ?_))
        obtain ⟨hw, n, hn⟩ := hw
        refine ⟨hw.1.unplaced, fun h => ?_⟩
        rw [h.cancelOrder] at hn
        cases hn
    | ok _ =>
        refine Triple.bind ((ask_ideal (f := fun w => Before S s w₀ w ∧ w.s.stillTracks o = true)
          (fun _ _ h => ⟨h.1.outside rfl rfl rfl, h.2⟩) (fun _ h => h.1.unplaced)
          (fun h n => ?_)).strengthen (fun _ hw => hw.1)) (fun t => ?_)
        · obtain ⟨t, ht, -⟩ := h.time n
          exact ⟨t, ht⟩
        · refine Triple.bind (Q := fun _ w => Before S s w₀ w ∧ w.s.stillTracks o = true)
            (fun w hw => ?_) (fun _ => ?_)
          · obtain ⟨⟨hw, htracks⟩, -⟩ := hw
            exact ⟨⟨⟨hw.unplaced.paper, hw.unplaced.log⟩, alike_marked hw.orders ho, hw.sold, hw.pending,
              hw.fails⟩, stillTracks_requested htracks⟩
          · exact Triple.bind (save_ideal hlive
              (fun _ _ _ _ h => ⟨h.1.outside rfl rfl rfl, h.2⟩) (fun _ h => h.1.unplaced))
              (fun _ => Triple.pure (fun _ hw => hw))

/-- The SELLs without a level end the call, or are off. -/
theorem clearPlainSells_before (l : List Order) (s : State) :
    Triple (fun w => Before S s w₀ w ∧ ∀ o ∈ l, ¬ S.Immediate o → o ∈ w.s.orders)
      (clearPlainSells S l)
      (fun clear w => if clear = true then ∃ s', withoutPlain S l s = some s' ∧ Before S s' w₀ w
        else withoutPlain S l s = none ∧ Unplaced w₀ w)
      (fun _ => Failed S fails w₀) := by
  induction l generalizing s with
  | nil => exact Triple.pure (fun w hw => ⟨s, rfl, hw.1⟩)
  | cons o rest ih =>
      unfold clearPlainSells
      by_cases ho : S.Immediate o
      · refine Triple.bind (cancelSpecific_immediate ho
          (f := fun w => ∀ x ∈ o :: rest, ¬ S.Immediate x → x ∈ w.s.orders)
          (g := fun w => ∀ x ∈ rest, ¬ S.Immediate x → x ∈ w.s.orders) (fun w hw x hx hstays => ?_))
          (fun cancelled => Triple.of_fact (fun hcancelled => ?_))
        · have hne : x ≠ o := fun heq => hstays (heq ▸ ho)
          exact (List.mem_erase_of_ne hne).mpr (hw x (List.mem_cons_of_mem _ hx) hstays)
        subst hcancelled
        refine state_triple (fun s₁ => ?_)
        intro w hw
        obtain ⟨⟨hbefore, hstay⟩, rfl⟩ := hw
        have htracks : w.s.stillTracks o = (s.removeOrder o).stillTracks o :=
          alike_stillTracks hbefore.orders ho
        by_cases hstill : (s.removeOrder o).stillTracks o = true
        · have hnone : withoutPlain S (o :: rest) s = none := by
            unfold withoutPlain
            rw [if_neg (fun h => h.2 hstill)]
          rw [htracks, if_pos hstill]
          exact ⟨hnone, hbefore.unplaced⟩
        · have hnext : withoutPlain S (o :: rest) s = withoutPlain S rest (s.removeOrder o) := by
            conv_lhs => unfold withoutPlain
            rw [if_pos ⟨ho, hstill⟩]
          rw [htracks, if_neg hstill, hnext]
          exact ih (s.removeOrder o) w ⟨hbefore, hstay⟩
      · have hnone : withoutPlain S (o :: rest) s = none := by
          unfold withoutPlain
          rw [if_neg (fun h => ho h.1)]
        rw [hnone]
        refine Triple.bind ((cancelSpecific_request ho).strengthen
          (fun w hw => ⟨hw.1, stillTracks_of_mem (hw.2 o List.mem_cons_self ho)⟩)) (fun cancelled => ?_)
        refine Triple.ite ?_ (Triple.pure (fun w hw => ⟨rfl, hw.1.unplaced⟩))
        refine state_triple (fun s₁ => ?_)
        intro w hw
        have htracks : s₁.stillTracks o = true := hw.2 ▸ hw.1.2
        rw [if_pos htracks]
        exact ⟨rfl, hw.1.1.unplaced⟩

/-- The test of an open order, which may divide by zero. -/
theorem outdated_triple {desired : List (ℚ × ℚ × ℚ)} {level : ℚ} {o : Order} {P : World → Prop} :
    Triple P (match desired.find? (fun d => d.1 = level) with
        | none => pure true
        | some (_, qty, limit) => outdated o qty limit)
      (fun stale w => staleness desired level o = some stale ∧ P w)
      (fun _ w => staleness desired level o = none ∧ P w) := by
  unfold staleness
  cases desired.find? (fun d => d.1 = level) with
  | none => exact Triple.pure (fun w hw => ⟨rfl, hw⟩)
  | some d =>
      obtain ⟨found, qty, limit⟩ := d
      dsimp only
      unfold outdated relativeGap
      by_cases hzero : limit = 0
      · rw [if_pos hzero, if_pos hzero]
        exact fun w hw => ⟨rfl, hw⟩
      · rw [if_neg hzero, if_neg hzero]
        exact fun w hw => ⟨rfl, hw⟩

/-- The call has ended without a placement; under `Ideal` that is said by `x`. -/
def Ended {α : Type} (S : Setup) (fails : List (ℚ × ℚ)) (x : Option α) (w₀ w : World) : Prop :=
  Unplaced w₀ w ∧ (Ideal S fails → x = none)

theorem Failed.ended {α : Type} {x : Option α} (h : Failed S fails w₀ w) : Ended S fails x w₀ w :=
  ⟨h.1, fun hideal => absurd hideal h.2⟩

/-- The test stands before the cancel, whether the level is desired or not. -/
theorem staleLevels_eq (desired : List (ℚ × ℚ × ℚ)) (levels : List ℚ) (level : ℚ) :
    staleLevels S desired levels level = state >>= fun s =>
      match s.orders.reverse.find? (fun o => o.side = .sell ∧ o.level = some level) with
      | none => pure levels
      | some o =>
          (match desired.find? (fun d => d.1 = level) with
            | none => pure true
            | some (_, qty, limit) => outdated o qty limit) >>= fun stale =>
          if stale then do
            let cancelled ← cancelSpecific S o
            let s ← state
            pure (if cancelled && !s.stillTracks o then levels.erase level else levels)
          else pure levels := by
  unfold staleLevels
  congr 1
  funext s
  cases s.orders.reverse.find? (fun o => o.side = .sell ∧ o.level = some level) with
  | none => rfl
  | some o =>
      cases desired.find? (fun d => d.1 = level) with
      | none => rfl
      | some d => rfl

theorem staleLevels_before (desired : List (ℚ × ℚ × ℚ)) (levels : List ℚ) (level : ℚ) :
    Triple (Before S s w₀) (staleLevels S desired levels level)
      (fun levels' w => ∃ s', withdrawLevel S desired (s, levels) level = some (s', levels') ∧
        Before S s' w₀ w)
      (fun _ => Ended S fails (withdrawLevel S desired (s, levels) level) w₀) := by
  rw [staleLevels_eq]
  refine state_triple (fun s₁ => ?_)
  rintro w ⟨hw, rfl⟩
  -- the order found at a level is the same one in both states
  have hsame : ∀ x y : Order, Alike S x y →
      decide (x.side = .sell ∧ x.level = some level) =
        decide (y.side = .sell ∧ y.level = some level) := by
    intro x y hxy
    rw [hxy.side, hxy.level]
  rcases alike_find hsame (List.forall₂_reverse_iff.mpr hw.orders) with ⟨hnone, hnone'⟩ | ⟨x, o, hx, ho, hxo⟩
  · rw [hnone]
    have hpass : withdrawLevel S desired (s, levels) level = some (s, levels) := by
      unfold withdrawLevel
      rw [hnone']
    exact ⟨s, hpass, hw⟩
  · rw [hx]
    have hpass : withdrawLevel S desired (s, levels) level =
        match staleness desired level o with
        | none => none
        | some stale =>
            if stale ∧ S.Immediate o then
              some (s.removeOrder o,
                if (s.removeOrder o).stillTracks o then levels else levels.erase level)
            else some (s, levels) := by
      unfold withdrawLevel
      rw [ho]
    -- and so is the verdict on it
    have hstale : staleness desired level x = staleness desired level o := by
      unfold staleness
      rw [hxo.limit, hxo.qty]
    have hmem : x ∈ w.s.orders := List.mem_reverse.mp (List.mem_of_find?_eq_some hx)
    have htest := @outdated_triple desired level x (fun v => v = w)
    refine Triple.bind (htest.conseq (fun _ hv => hv) (fun _ _ hv => hv) (fun e v hv => ?_)) (fun stale => Triple.of_fact (fun hsome => ?_)) w rfl
    · obtain ⟨hzero, rfl⟩ := hv
      refine ⟨hw.unplaced, fun _ => ?_⟩
      rw [hpass, ← hstale, hzero]
    · rw [hstale] at hsome
      rw [hsome] at hpass
      dsimp only at hpass
      by_cases hdue : stale = true
      · subst hdue
        rw [if_pos rfl]
        by_cases hoff : S.Immediate x
        · -- the order is off in both states
          have heq : x = o := hxo.immediate (Or.inl hoff)
          subst heq
          have hcancel := @cancelSpecific_immediate S s w₀ fails x hoff (fun _ => True)
            (fun _ => True) (fun _ _ => trivial)
          refine Triple.bind (hcancel.conseq (fun v hv => ⟨hv ▸ hw, trivial⟩) (fun _ _ hv => hv)
            (fun _ _ hv => hv.ended)) (fun cancelled => Triple.of_fact (fun hcancelled => ?_))
          subst hcancelled
          refine state_triple (fun s₂ => Triple.pure (fun v hv => ?_))
          obtain ⟨⟨hbefore, -⟩, rfl⟩ := hv
          have htracks := alike_stillTracks hbefore.orders hoff
          refine ⟨s.removeOrder x, ?_, hbefore⟩
          rw [hpass, if_pos ⟨rfl, hoff⟩, htracks]
          cases (s.removeOrder x).stillTracks x
          · rfl
          · rfl
        · -- a request leaves the order tracked
          have hstay : ¬ S.Immediate o := by
            intro hoff'
            exact hoff (hxo.immediate (Or.inr hoff') ▸ hoff')
          have hcancel := @cancelSpecific_request S s w₀ fails x hoff
          refine Triple.bind (hcancel.conseq (fun v hv => ⟨hv ▸ hw, hv ▸ stillTracks_of_mem hmem⟩)
            (fun _ _ hv => hv) (fun _ _ hv => hv.ended)) (fun cancelled => ?_)
          refine state_triple (fun s₂ => Triple.pure (fun v hv => ?_))
          obtain ⟨⟨hbefore, htracks⟩, rfl⟩ := hv
          refine ⟨s, ?_, hbefore⟩
          rw [hpass, if_neg (fun h => hstay h.2), htracks]
          simp
      · rw [if_neg hdue]
        refine Triple.pure (fun v hv => ⟨s, ?_, hv ▸ hw⟩)
        rw [hpass, if_neg (fun h => hdue h.1)]

/-- The pass over the open levels. -/
theorem staleLevels_pass (desired : List (ℚ × ℚ × ℚ)) (l levels : List ℚ) :
    Triple (Before S s w₀) (l.foldlM (staleLevels S desired) levels)
      (fun levels' w => ∃ s', l.foldlM (withdrawLevel S desired) (s, levels) = some (s', levels') ∧
        Before S s' w₀ w)
      (fun _ => Ended S fails (l.foldlM (withdrawLevel S desired) (s, levels)) w₀) := by
  refine Triple.strengthen (Triple.foldlM
    (I := fun done acc w => ∃ s', done.foldlM (withdrawLevel S desired) (s, levels) = some (s', acc) ∧
      Before S s' w₀ w) ?_ levels) (fun w hw => ⟨s, rfl, hw⟩)
  intro done level rest acc hl w hw
  obtain ⟨s', hdone, hbefore⟩ := hw
  have hnext : (done ++ [level]).foldlM (withdrawLevel S desired) (s, levels) =
      withdrawLevel S desired (s', acc) level := by
    rw [List.foldlM_append, hdone]
    simp
  have hall : withdrawLevel S desired (s', acc) level = none →
      l.foldlM (withdrawLevel S desired) (s, levels) = none := by
    intro hnone
    rw [hl, List.append_cons, List.foldlM_append, hnext, hnone]
    rfl
  rw [hnext]
  exact (staleLevels_before desired acc level).conseq (fun _ hv => hv) (fun _ _ hv => hv)
    (fun _ _ hv => ⟨hv.1, fun hideal => hall (hv.2 hideal)⟩) w hbefore

/-! ## One placement -/

theorem offered_congr {s s' : State} (h : s'.orders = s.orders) : s'.offered = s.offered := by
  unfold State.offered
  rw [h]

theorem offered_append (s : State) {o : Order} (hside : o.side = .sell)
    (hlevel : o.level.isSome = true) :
    ({ s with orders := s.orders ++ [o] } : State).offered = s.offered + o.qty := by
  unfold State.offered
  rw [List.filter_append, List.filter_cons_of_pos (by simp [hside, hlevel])]
  simp

/-- Since `w₀` at most one order of `q` was placed, beside what was open then. -/
structure Posted (q : ℚ) (w₀ w : World) : Prop where
  offered : w.s.offered = w₀.s.offered ∨ w.s.offered = w₀.s.offered + q ∨ w.s.offered = 0
  log : ∃ new, w.log = new ++ w₀.log ∧ ∀ e ∈ new, ∀ p outcome, e.event = .submit p outcome →
    e.before.offered + p.qty = w₀.s.offered + q

/-- Since `w₀` exactly one order of `q` was placed. -/
structure Accepted (S : Setup) (q : ℚ) (w₀ w : World) : Prop where
  offered : w.s.offered = w₀.s.offered + q
  pending : S.dryRun = false → w.s.pendingSubmit = none
  fails : w.s.tpFailUntil = w₀.s.tpFailUntil
  paper : S.dryRun = true → w₀.paperSeq < w.paperSeq
  log : S.dryRun = false → ∃ new, w.log = new ++ w₀.log ∧ ∃ e ∈ new, ∃ p outcome,
    e.event = .submit p outcome ∧ e.before.offered + p.qty = w₀.s.offered + q

/-- The orders are those of `w₀`, and nothing but `new` was logged. -/
structure Same (w₀ : World) (new : List Entry) (w : World) : Prop where
  orders : w.s.orders = w₀.s.orders
  fails : w.s.tpFailUntil = w₀.s.tpFailUntil
  log : w.log = new ++ w₀.log

theorem Same.posted {q : ℚ} (h : Same w₀ [] w) : Posted q w₀ w :=
  ⟨Or.inl (offered_congr h.orders), [], h.log, fun e he => by cases he⟩

/-- The entry of a POST. -/
def PostEntry (w₀ : World) (p : Pending) (outcome : SubmissionOutcome) (e : Entry) : Prop :=
  e.event = .submit p outcome ∧ e.before.orders = w₀.s.orders

theorem Same.posted_entry {p : Pending} {outcome : SubmissionOutcome} {e : Entry}
    (h : Same w₀ [e] w) (he : PostEntry w₀ p outcome e) : Posted p.qty w₀ w := by
  refine ⟨Or.inl (offered_congr h.orders), [e], h.log, fun x hx p' outcome' hp' => ?_⟩
  rw [List.mem_singleton] at hx
  subst hx
  rw [he.1] at hp'
  cases hp'
  rw [offered_congr he.2]

theorem persist_same (hlive : S.dryRun = false) {new : List Entry} {pending : Option Pending}
    {g : World → Prop} (hg : ∀ w, Same w₀ new w → g w) :
    Triple (Same w₀ new) (persistPendingSubmit S pending)
      (fun _ w => Same w₀ new w ∧ w.s.pendingSubmit = pending)
      (fun _ w => g w ∧ ¬ Ideal S fails) := by
  unfold persistPendingSubmit
  refine Triple.bind (Q := fun _ w => Same w₀ new w ∧ w.s.pendingSubmit = pending)
    (fun w hw => ⟨⟨hw.orders, hw.fails, hw.log⟩, rfl⟩) (fun _ => ?_)
  exact save_ideal hlive (fun w _ _ _ hw => ⟨⟨hw.1.orders, hw.1.fails, hw.1.log⟩, hw.2⟩)
    (fun w hw => hg w hw.1)

/-- An accepted order is tracked. -/
theorem adopt_accepted (hlive : S.dryRun = false) {p : Pending} (hside : p.side = .sell)
    (hlevel : p.level.isSome = true) {outcome : SubmissionOutcome} {e : Entry}
    (he : PostEntry w₀ p outcome e) (orderId : String) :
    Triple (fun w => Same w₀ [e] w ∧ w.s.pendingSubmit = some p) (adoptPendingSubmit S orderId)
      (fun _ w => Posted p.qty w₀ w ∧ Accepted S p.qty w₀ w)
      (fun _ w => Posted p.qty w₀ w ∧ ¬ Ideal S fails) := by
  unfold adoptPendingSubmit
  refine state_triple (fun s₁ => ?_)
  intro w hw
  obtain ⟨⟨hsame, hpending⟩, rfl⟩ := hw
  rw [hpending]
  let adopted : World := { w with
    s := { w.s with orders := w.s.orders ++ [p.order orderId], pendingSubmit := none }
    log := ⟨w.s, .adopted p orderId⟩ :: w.log }
  have hoffered : adopted.s.offered = w₀.s.offered + p.qty := by
    rw [← offered_congr hsame.orders]
    exact offered_append w.s hside hlevel
  have hposted : Posted p.qty w₀ adopted := by
    refine ⟨Or.inr (Or.inl hoffered), [⟨w.s, .adopted p orderId⟩, e],
      congrArg (List.cons _) hsame.log, fun x hx p' outcome' hp' => ?_⟩
    rcases List.mem_cons.mp hx with rfl | hx
    · cases hp'
    · obtain ⟨new, -, hnew⟩ := (hsame.posted_entry he).log
      rw [List.mem_singleton] at hx
      subst hx
      rw [he.1] at hp'
      cases hp'
      rw [offered_congr he.2]
  have haccepted : Accepted S p.qty w₀ adopted := by
    refine ⟨hoffered, fun _ => rfl, hsame.fails, fun hdry => ?_, fun _ => ?_⟩
    · rw [hlive] at hdry
      cases hdry
    · refine ⟨[⟨w.s, .adopted p orderId⟩, e], congrArg (List.cons _) hsame.log, e, by simp, p,
        outcome, he.1, ?_⟩
      rw [offered_congr he.2]
  exact save_ideal hlive (f := fun v => Posted p.qty w₀ v ∧ Accepted S p.qty w₀ v)
    (fun v _ _ _ hv => ⟨⟨hv.1.offered, hv.1.log⟩, ⟨hv.2.offered, hv.2.pending, hv.2.fails,
      hv.2.paper, hv.2.log⟩⟩) (fun v hv => hv.1) adopted ⟨hposted, haccepted⟩

/-- A submit is posted once, and what was open then is what was open before. -/
theorem submit_posted (hlive : S.dryRun = false) {p : Pending} (hside : p.side = .sell)
    (hlevel : p.level.isSome = true) :
    Triple (Same w₀ []) (submitPendingOrder S p)
      (fun outcome w => Posted p.qty w₀ w ∧
        (Ideal S fails → outcome.state = .accepted ∧ Accepted S p.qty w₀ w))
      (fun _ w => Posted p.qty w₀ w ∧ ¬ Ideal S fails) := by
  unfold submitPendingOrder
  refine Triple.bind (persist_same hlive (fun w hw => hw.posted)) (fun _ => ?_)
  refine Triple.bind (ask_ideal (f := fun w => Same w₀ [] w ∧ w.s.pendingSubmit = some p)
    (fun w _ hw => ⟨⟨hw.1.orders, hw.1.fails, hw.1.log⟩, hw.2⟩) (fun w hw => hw.1.posted)
    (fun h n => ?_)) (fun answer => ?_)
  · obtain ⟨id, hid⟩ := h.submit n
    exact ⟨_, hid⟩
  · intro w hw
    obtain ⟨⟨hsame, hpending⟩, n, hn⟩ := hw
    have hideal : Ideal S fails → (captureSubmission answer).state = .accepted := by
      intro h
      obtain ⟨id, hid⟩ := h.submit n
      rw [hid] at hn
      cases hn
      rfl
    let e : Entry := ⟨w.s, .submit p (captureSubmission answer)⟩
    have he : PostEntry w₀ p (captureSubmission answer) e := ⟨rfl, hsame.orders⟩
    have hmarked : Same w₀ [e] { w with log := e :: w.log } :=
      ⟨hsame.orders, hsame.fails, congrArg (List.cons e) hsame.log⟩
    refine Triple.bind (P := fun v => v = w) (Q := fun _ v => Same w₀ [e] v ∧
      v.s.pendingSubmit = some p) (fun v hv => ?_) (fun _ => ?_) w rfl
    · subst hv
      exact ⟨hmarked, hpending⟩
    · cases hstate : (captureSubmission answer).state with
      | accepted =>
          refine Triple.bind (adopt_accepted hlive hside hlevel he _) (fun _ => ?_)
          exact Triple.pure (fun v hv => ⟨hv.1, fun _ => ⟨hstate, hv.2⟩⟩)
      | refused =>
          refine Triple.bind ((persist_same hlive (fun v hv => hv.posted_entry he)).strengthen
            (fun v hv => hv.1)) (fun _ => Triple.pure (fun v hv => ⟨hv.1.posted_entry he, fun h => ?_⟩))
          have haccepted := hideal h
          rw [hstate] at haccepted
          cases haccepted
      | unknown =>
          refine Triple.bind ((persist_same hlive (fun v hv => hv.posted_entry he)).strengthen
            (fun v hv => hv.1)) (fun _ => Triple.pure (fun v hv => ⟨hv.1.posted_entry he, fun h => ?_⟩))
          have haccepted := hideal h
          rw [hstate] at haccepted
          cases haccepted

/-- A submit that was not accepted may show that nothing is owned. -/
theorem sellNotAccepted_posted (hlive : S.dryRun = false) (q : ℚ) (outcome : SubmissionOutcome) :
    Triple (fun w => Posted q w₀ w ∧ ¬ Ideal S fails) (sellNotAccepted S outcome)
      (fun _ w => Posted q w₀ w ∧ ¬ Ideal S fails) (fun _ w => Posted q w₀ w ∧ ¬ Ideal S fails) := by
  unfold sellNotAccepted
  refine Triple.ite ?_ (Triple.pure (fun _ hw => hw))
  cases ownedQuantity outcome.reason with
  | none => exact Triple.pure (fun _ hw => hw)
  | some digits =>
      dsimp only
      cases parseFloat digits with
      | none => exact Triple.throw (fun _ hw => hw)
      | some owned =>
          refine Triple.ite ?_ (Triple.pure (fun _ hw => hw))
          refine Triple.bind ((ask_ideal (f := fun w => Posted q w₀ w ∧ ¬ Ideal S fails)
            (fun w _ hw => ⟨⟨hw.1.offered, hw.1.log⟩, hw.2⟩) (fun w hw => hw.1)
            (fun h n => ?_)).weaken (fun _ w hw => hw.1)) (fun t => ?_)
          · obtain ⟨t, ht, -⟩ := h.time n
            exact ⟨t, ht⟩
          refine Triple.bind (Q := fun _ w => Posted q w₀ w ∧ ¬ Ideal S fails) (fun w hw => ?_)
            (fun _ => ?_)
          · obtain ⟨⟨hoffered, new, hnew, hposts⟩, hnot⟩ := hw
            refine ⟨⟨hoffered, ⟨w.s, .ownedZero⟩ :: new, congrArg (List.cons _) hnew, ?_⟩, hnot⟩
            intro e he p outcome' hp
            rcases List.mem_cons.mp he with rfl | he
            · cases hp
            · exact hposts e he p outcome' hp
          refine Triple.bind (Q := fun _ w => Posted q w₀ w ∧ ¬ Ideal S fails) (fun w hw => ?_)
            (fun _ => ?_)
          · exact ⟨⟨Or.inr (Or.inr rfl), hw.1.log⟩, hw.2⟩
          · refine Triple.bind (save_ideal hlive (f := fun w => Posted q w₀ w ∧ ¬ Ideal S fails)
              (fun w _ _ _ hw => ⟨⟨hw.1.offered, hw.1.log⟩, hw.2⟩) (fun w hw => hw.1)) (fun _ => ?_)
            exact Triple.pure (fun _ hw => hw)

/-- Paper mode tracks the order at once. -/
theorem placePaper_posted (hdry : S.dryRun = true) {q : ℚ} {o : String → ℚ → Order}
    (ho : ∀ id t, (o id t).side = .sell ∧ (o id t).level.isSome = true ∧ (o id t).qty = q) :
    Triple (· = w₀) (placePaper S o)
      (fun _ w => Posted q w₀ w ∧ Accepted S q w₀ w)
      (fun _ w => Posted q w₀ w ∧ ¬ Ideal S fails) := by
  unfold placePaper
  have hpaper : ∀ w, Same w₀ [] w → Posted q w₀ w := fun w hw => hw.posted
  refine Triple.bind ((ask_ideal (f := fun w => Same w₀ [] w ∧ w.paperSeq = w₀.paperSeq)
    (fun w _ hw => ⟨⟨hw.1.orders, hw.1.fails, hw.1.log⟩, hw.2⟩) (fun w hw => hpaper w hw.1)
    (fun h n => ?_)).strengthen (fun w hw => ?_)) (fun t => ?_)
  · obtain ⟨t, ht, -⟩ := h.time n
    exact ⟨t, ht⟩
  · subst hw
    exact ⟨⟨rfl, rfl, rfl⟩, rfl⟩
  · intro w hw
    obtain ⟨⟨hsame, hseq⟩, -⟩ := hw
    obtain ⟨hside, hlevel, hqty⟩ := ho ("PAPER-" ++ toString (w.paperSeq + 1)) t
    have hoffered := offered_append w.s hside hlevel
    rw [offered_congr hsame.orders, hqty] at hoffered
    refine ⟨⟨Or.inr (Or.inl hoffered), [], hsame.log, fun e he => by cases he⟩, hoffered, ?_,
      hsame.fails, fun _ => ?_, ?_⟩
    · intro hlive
      rw [hdry] at hlive
      cases hlive
    · show w₀.paperSeq < w.paperSeq + 1
      omega
    · intro hlive
      rw [hdry] at hlive
      cases hlive

/-- A placement that is not held back by a pending submit. -/
theorem placeSell_posted {q limit level : ℚ} (hq : 0 < q) (hround : roundTo q 2 = q) (kind : Kind)
    (market : Bool) (hfree : S.dryRun = false → w₀.s.pendingSubmit = none) :
    Triple (· = w₀) (placeSell S q limit (some level) kind market)
      (fun done w => Posted q w₀ w ∧ (Ideal S fails → done = true ∧ Accepted S q w₀ w))
      (fun _ w => Posted q w₀ w ∧ ¬ Ideal S fails) := by
  unfold placeSell
  extract_lets qty
  have hqty : qty = q := hround
  refine state_triple (fun s₁ => ?_)
  rw [hqty, if_neg (not_le.mpr hq)]
  by_cases hdry : S.dryRun = true
  · rw [if_pos hdry]
    have hpaper := @placePaper_posted S w₀ fails hdry q
      (fun id t => { id, side := .sell, qty := q, limit := roundTo limit 2,
                     kind, level := some level, market, ts := t })
      (fun _ _ => ⟨rfl, rfl, rfl⟩)
    refine Triple.bind (hpaper.strengthen (fun w hw => hw.1)) (fun _ => ?_)
    exact Triple.pure (fun w hw => ⟨hw.1, fun _ => ⟨rfl, hw.2⟩⟩)
  · rw [if_neg hdry]
    have hlive : S.dryRun = false := Bool.eq_false_iff.mpr hdry
    intro w hw
    obtain ⟨rfl, rfl⟩ := hw
    rw [hfree hlive]
    have hnew : Triple (· = w) (newPendingSubmit S .sell q limit none kind (some level) market)
        (fun p v => (p.qty = q ∧ p.side = .sell ∧ p.level.isSome = true) ∧ Same w [] v)
        (fun _ v => Posted q w v ∧ ¬ Ideal S fails) := by
      unfold newPendingSubmit
      refine Triple.get (fun w₁ hw₁ => ?_)
      subst hw₁
      refine Triple.bind ((ask_ideal (f := Same w₁ []) (fun v _ hv => ⟨hv.orders, hv.fails, hv.log⟩)
        (fun v hv => hv.posted) (fun h n => ?_)).strengthen (fun v hv => ?_)) (fun t => ?_)
      · obtain ⟨t, ht, -⟩ := h.time n
        exact ⟨t, ht⟩
      · subst hv
        exact ⟨rfl, rfl, rfl⟩
      · exact Triple.pure (fun v hv => ⟨⟨rfl, rfl, rfl⟩, hv.1⟩)
    refine Triple.bind hnew (fun p => Triple.of_fact (fun hp => ?_)) w rfl
    obtain ⟨rfl, hside, hlevel⟩ := hp
    refine Triple.bind (submit_posted hlive hside hlevel) (fun outcome => ?_)
    by_cases haccepted : outcome.state = .accepted
    · rw [if_pos haccepted]
      exact Triple.pure (fun v hv => ⟨hv.1, fun h => ⟨rfl, (hv.2 h).2⟩⟩)
    · rw [if_neg haccepted]
      exact (sellNotAccepted_posted hlive p.qty outcome).conseq
        (fun v hv => ⟨hv.1, fun h => haccepted (hv.2 h).1⟩)
        (fun _ v hv => ⟨hv.1, fun h => absurd h hv.2⟩) (fun _ _ hv => hv)

/-! ## The loop over the levels -/

/-- A level that is open adds nothing. -/
theorem missing_of_open {levels : List ℚ} {done : List (ℚ × ℚ × ℚ)} {d : ℚ × ℚ × ℚ}
    (h : d.1 ∈ levels) : missing (done ++ [d]) levels = missing done levels := by
  unfold missing
  rw [List.filter_append]
  simp [h]

theorem missing_of_closed {levels : List ℚ} {done : List (ℚ × ℚ × ℚ)} {d : ℚ × ℚ × ℚ}
    (h : d.1 ∉ levels) : missing (done ++ [d]) levels = missing done levels ++ [d] := by
  unfold missing
  rw [List.filter_append]
  simp [h]

theorem askedTotal_append (l : List (ℚ × ℚ × ℚ)) (d : ℚ × ℚ × ℚ) :
    askedTotal (l ++ [d]) = askedTotal l + d.2.1 := by
  unfold askedTotal
  simp

/-- What is offered, and was at every POST since `w₀`, is at most `x`. -/
structure Bounded (w₀ : World) (x : ℚ) (w : World) : Prop where
  offered : w.s.offered ≤ x
  log : ∃ new, w.log = new ++ w₀.log ∧ ∀ e ∈ new, ∀ p outcome, e.event = .submit p outcome →
    e.before.offered + p.qty ≤ x

/-- Under `Ideal` the missing levels of `done` were placed, beside the `b` that was offered. -/
structure AllPlaced (S : Setup) (fails : List (ℚ × ℚ)) (w₀ : World) (b : ℚ)
    (placed : List (ℚ × ℚ × ℚ)) (w : World) : Prop where
  offered : w.s.offered = b + askedTotal placed
  pending : S.dryRun = false → w.s.pendingSubmit = none
  fails : w.s.tpFailUntil = fails
  paper : S.dryRun = true → w₀.paperSeq ≤ w.paperSeq ∧ (placed ≠ [] → w₀.paperSeq < w.paperSeq)
  log : ∃ new, w.log = new ++ w₀.log ∧ (S.dryRun = false → placed ≠ [] →
    ∃ e ∈ new, ∃ p outcome, e.event = .submit p outcome ∧
      e.before.offered + p.qty = b + askedTotal placed)

theorem Bounded.mono {x y : ℚ} (h : Bounded w₀ x w) (hxy : x ≤ y) : Bounded w₀ y w := by
  obtain ⟨hoffered, new, hnew, hposts⟩ := h
  exact ⟨hoffered.trans hxy, new, hnew, fun e he p outcome hp => (hposts e he p outcome hp).trans hxy⟩

theorem Bounded.posted {x q : ℚ} {v : World} (h : Bounded w₀ x w) (hx : 0 ≤ x) (hq : 0 ≤ q)
    (hv : Posted q w v) : Bounded w₀ (x + q) v := by
  obtain ⟨hoffered, old, hold, hposts⟩ := h
  obtain ⟨hoffered', new, hnew, hposts'⟩ := hv
  refine ⟨?_, new ++ old, by rw [hnew, hold, List.append_assoc], fun e he p outcome hp => ?_⟩
  · rcases hoffered' with h | h | h
    · linarith
    · linarith
    · linarith
  · rcases List.mem_append.mp he with he | he
    · have hpost := hposts' e he p outcome hp
      linarith
    · have hpost := hposts e he p outcome hp
      linarith

theorem AllPlaced.accepted {b : ℚ} {placed : List (ℚ × ℚ × ℚ)} {d : ℚ × ℚ × ℚ} {v : World}
    (h : AllPlaced S fails w₀ b placed w) (hposted : Posted d.2.1 w v) (hv : Accepted S d.2.1 w v) :
    AllPlaced S fails w₀ b (placed ++ [d]) v := by
  have htotal : b + askedTotal (placed ++ [d]) = w.s.offered + d.2.1 := by
    rw [h.offered, askedTotal_append]
    ring
  obtain ⟨old, hold, -⟩ := h.log
  refine ⟨hv.offered.trans htotal.symm, hv.pending, hv.fails.trans h.fails, fun hdry => ?_, ?_⟩
  · have hbefore := (h.paper hdry).1
    have hafter := hv.paper hdry
    exact ⟨by omega, fun _ => by omega⟩
  · by_cases hdry : S.dryRun = true
    · obtain ⟨new, hnew, -⟩ := hposted.log
      refine ⟨new ++ old, by rw [hnew, hold, List.append_assoc], fun hlive => ?_⟩
      rw [hdry] at hlive
      cases hlive
    · obtain ⟨new, hnew, e, he, p, outcome, hp, hsum⟩ := hv.log (Bool.eq_false_iff.mpr hdry)
      refine ⟨new ++ old, by rw [hnew, hold, List.append_assoc], fun _ _ => ?_⟩
      exact ⟨e, List.mem_append_left _ he, p, outcome, hp, hsum.trans htotal.symm⟩

/-- A pending submit holds a live placement back. -/
theorem placeSell_held (hlive : S.dryRun = false) {q limit : ℚ} {level : Option ℚ} {kind : Kind}
    {market : Bool} {P : World → Prop} (hheld : ∀ w, P w → w.s.pendingSubmit.isSome = true)
    {E : Stop → World → Prop} :
    Triple P (placeSell S q limit level kind market) (fun _ => P) E := by
  unfold placeSell
  extract_lets qty
  refine state_triple (fun s₁ => ?_)
  refine Triple.ite (Triple.pure (fun _ hw => hw.1)) ?_
  rw [hlive, if_neg Bool.false_ne_true]
  intro w hw
  obtain ⟨hw, rfl⟩ := hw
  rw [if_pos (hheld w hw)]
  exact hw

/-- The times up to which the levels are held back. -/
theorem not_held_back {now : ℚ} (hnow : 0 ≤ now ∧ ∀ f ∈ fails, f.2 ≤ now) (level : ℚ) :
    ¬ now < ((fails.find? (fun f => f.1 = level)).map Prod.snd).getD 0 := by
  cases hfind : fails.find? (fun f => f.1 = level) with
  | none => simpa using hnow.1
  | some f => simpa using hnow.2 f (List.mem_of_find?_eq_some hfind)

/-- One level of the loop: the bound grows by its quantity. -/
theorem placeLevel_bounded {levels : List ℚ} {now x b : ℚ} {d : ℚ × ℚ × ℚ}
    {placed : List (ℚ × ℚ × ℚ)} (hclosed : d.1 ∉ levels) (hq : 0 < d.2.1)
    (hround : roundTo d.2.1 2 = d.2.1) (hx : 0 ≤ x)
    (hnow : Ideal S fails → 0 ≤ now ∧ ∀ f ∈ fails, f.2 ≤ now) :
    Triple (fun w => Bounded w₀ x w ∧ (Ideal S fails → AllPlaced S fails w₀ b placed w))
      (placeLevel S levels now d)
      (fun _ w => Bounded w₀ (x + d.2.1) w ∧
        (Ideal S fails → AllPlaced S fails w₀ b (placed ++ [d]) w))
      (fun _ w => Bounded w₀ (x + d.2.1) w ∧ ¬ Ideal S fails) := by
  have hmore : x ≤ x + d.2.1 := by linarith
  unfold placeLevel
  refine state_triple (fun s₁ => ?_)
  rintro w ⟨⟨hbounded, hfilled⟩, rfl⟩
  rw [if_neg hclosed]
  by_cases hback : now < ((w.s.tpFailUntil.find? (fun f => f.1 = d.1)).map Prod.snd).getD 0
  · rw [if_pos hback]
    refine ⟨hbounded.mono hmore, fun h => absurd hback ?_⟩
    rw [(hfilled h).fails]
    exact not_held_back (hnow h) d.1
  · rw [if_neg hback]
    -- a level that failed is held back for half an hour
    have hfailed : Triple (fun v => Bounded w₀ (x + d.2.1) v ∧ ¬ Ideal S fails)
        (update (fun s => { s with
          tpFailUntil := (d.1, now + 1800) :: s.tpFailUntil.filter (fun f => f.1 ≠ d.1) }))
        (fun _ v => Bounded w₀ (x + d.2.1) v ∧
          (Ideal S fails → AllPlaced S fails w₀ b (placed ++ [d]) v))
        (fun _ v => Bounded w₀ (x + d.2.1) v ∧ ¬ Ideal S fails) :=
      fun v hv => ⟨⟨hv.1.offered, hv.1.log⟩, fun h => absurd h hv.2⟩
    by_cases hheld : S.dryRun = false ∧ w.s.pendingSubmit ≠ none
    · -- an earlier submit of this call is pending
      have hnot : ¬ Ideal S fails := fun h => hheld.2 ((hfilled h).pending hheld.1)
      refine Triple.bind (placeSell_held hheld.1 (P := fun v => (Bounded w₀ (x + d.2.1) v ∧
        ¬ Ideal S fails) ∧ v.s.pendingSubmit.isSome = true) (fun v hv => hv.2)) (fun done => ?_) w
        ⟨⟨hbounded.mono hmore, hnot⟩, Option.isSome_iff_ne_none.mpr hheld.2⟩
      refine Triple.ite (Triple.pure (fun v hv => ⟨hv.1.1, fun h => absurd h hv.1.2⟩)) ?_
      exact hfailed.strengthen (fun v hv => hv.1)
    · have hfree : S.dryRun = false → w.s.pendingSubmit = none :=
        fun hlive => not_not.mp (fun hne => hheld ⟨hlive, hne⟩)
      have hplace := @placeSell_posted S w fails d.2.1 d.2.2 d.1 hq hround .tp false hfree
      refine Triple.bind (hplace.conseq (fun _ hv => hv) (fun _ _ hv => hv)
        (fun _ v hv => ⟨hbounded.posted hx hq.le hv.1, hv.2⟩)) (fun done => ?_) w rfl
      cases done with
      | true =>
          refine Triple.pure (fun v hv => ⟨hbounded.posted hx hq.le hv.1, fun h => ?_⟩)
          exact (hfilled h).accepted hv.1 (hv.2 h).2
      | false =>
          refine hfailed.strengthen (fun v hv => ⟨hbounded.posted hx hq.le hv.1, fun h => ?_⟩)
          have hdone := (hv.2 h).1
          cases hdone

theorem missing_subset {desired levels} {d : ℚ × ℚ × ℚ} (h : d ∈ missing desired levels) :
    d ∈ desired := (List.mem_filter.mp h).1

/-- The loop, when no submit is pending. -/
theorem placements_bounded {desired : List (ℚ × ℚ × ℚ)} (levels : List ℚ) {now b : ℚ}
    (hdesired : ∀ d ∈ desired, 0 < d.2.1 ∧ roundTo d.2.1 2 = d.2.1)
    (hnow : Ideal S fails → 0 ≤ now ∧ ∀ f ∈ fails, f.2 ≤ now) :
    Triple (fun w => Bounded w₀ (max b 0) w ∧ (Ideal S fails → AllPlaced S fails w₀ b [] w))
      (desired.forM (placeLevel S levels now))
      (fun _ w => Bounded w₀ (max b 0 + askedTotal (missing desired levels)) w ∧
        (Ideal S fails → AllPlaced S fails w₀ b (missing desired levels) w))
      (fun _ w => Bounded w₀ (max b 0 + askedTotal (missing desired levels)) w ∧
        ¬ Ideal S fails) := by
  have hnonneg : ∀ l : List (ℚ × ℚ × ℚ), (∀ d ∈ l, d ∈ desired) → 0 ≤ askedTotal l := by
    intro l hl
    refine List.sum_nonneg (fun x hx => ?_)
    obtain ⟨d, hd, rfl⟩ := List.mem_map.mp hx
    exact (hdesired d (hl d hd)).1.le
  refine Triple.strengthen (Triple.forM
    (I := fun done w => Bounded w₀ (max b 0 + askedTotal (missing done levels)) w ∧
      (Ideal S fails → AllPlaced S fails w₀ b (missing done levels) w)) ?_) (fun w hw => ?_)
  · intro done d rest hsplit
    by_cases hopen : d.1 ∈ levels
    · rw [missing_of_open hopen]
      unfold placeLevel
      exact state_triple (fun s₁ => by rw [if_pos hopen]; exact Triple.pure (fun w hw => hw.1))
    · rw [missing_of_closed hopen, askedTotal_append, ← add_assoc]
      have hd : d ∈ desired := hsplit ▸ by simp
      have hbefore : 0 ≤ askedTotal (missing done levels) :=
        hnonneg _ (fun x hx => hsplit ▸ List.mem_append_left _ (missing_subset hx))
      have hafter : askedTotal (missing desired levels) =
          askedTotal (missing done levels) + d.2.1 + askedTotal (missing rest levels) := by
        rw [hsplit]
        unfold missing askedTotal
        simp [hopen]
        ring
      have hrest : 0 ≤ askedTotal (missing rest levels) := hnonneg _ (fun x hx => by
        rw [hsplit]
        exact List.mem_append_right _ (List.mem_cons_of_mem _ (missing_subset hx)))
      refine (placeLevel_bounded hopen (hdesired d hd).1 (hdesired d hd).2
        (add_nonneg (le_max_right _ _) hbefore) hnow).conseq (fun _ hw => hw) (fun _ _ hw => hw)
        (fun _ w hw => ⟨hw.1.mono ?_, hw.2⟩)
      rw [hafter]
      linarith
  · have hnil : askedTotal (missing [] levels) = 0 := rfl
    rw [hnil, add_zero]
    exact hw

/-- The loop places nothing if every level is open, or a submit is pending. -/
theorem placements_idle {desired : List (ℚ × ℚ × ℚ)} {levels : List ℚ} (now : ℚ)
    (hidle : missing desired levels = [] ∨ S.dryRun = false ∧ w₀.s.pendingSubmit ≠ none)
    {E : Stop → World → Prop} :
    Triple (fun w => Unplaced w₀ w ∧ w.s.pendingSubmit = w₀.s.pendingSubmit)
      (desired.forM (placeLevel S levels now)) (fun _ w => Unplaced w₀ w) E := by
  refine Triple.weaken (Triple.forM
    (I := fun _ w => Unplaced w₀ w ∧ w.s.pendingSubmit = w₀.s.pendingSubmit) ?_) (fun _ w hw => hw.1)
  intro done d rest hsplit
  unfold placeLevel
  refine state_triple (fun s₁ => ?_)
  by_cases hopen : d.1 ∈ levels
  · rw [if_pos hopen]
    exact Triple.pure (fun w hw => hw.1)
  · rw [if_neg hopen]
    rcases hidle with hnone | ⟨hlive, hpending⟩
    · have hmem : d ∈ missing desired levels := by
        rw [hsplit]
        unfold missing
        simp [hopen]
      rw [hnone] at hmem
      cases hmem
    · refine Triple.ite (Triple.pure (fun w hw => hw.1)) ?_
      refine Triple.bind (placeSell_held hlive (P := fun w => Unplaced w₀ w ∧
        w.s.pendingSubmit = w₀.s.pendingSubmit) (fun w hw => ?_)|>.strengthen (fun w hw => hw.1))
        (fun done => ?_)
      · rw [hw.2]
        exact Option.isSome_iff_ne_none.mpr hpending
      · exact Triple.ite (Triple.pure (fun _ hw => hw))
          (fun w hw => ⟨⟨hw.1.paper, hw.1.log⟩, hw.2⟩)

/-! ## The call -/

theorem Before.bounded (h : Before S s w₀ w) : Bounded w₀ (max s.offered 0) w := by
  obtain ⟨new, hnew, hposts⟩ := h.unplaced.log
  refine ⟨?_, new, hnew, fun e he p outcome hp => absurd hp (hposts e he p outcome)⟩
  rw [alike_offered h.orders]
  exact le_max_left _ _

theorem Before.filled (h : Before S s w₀ w) (hfree : S.dryRun = false → w₀.s.pendingSubmit = none) :
    AllPlaced S w₀.s.tpFailUntil w₀ s.offered [] w := by
  obtain ⟨new, hnew, -⟩ := h.unplaced.log
  have hnone : askedTotal [] = 0 := rfl
  refine ⟨?_, fun hlive => h.pending.trans (hfree hlive), h.fails, fun _ => ?_, new, hnew, ?_⟩
  · rw [alike_offered h.orders, hnone, add_zero]
  · exact ⟨h.unplaced.paper.ge, fun hne => absurd rfl hne⟩
  · exact fun _ hne => absurd rfl hne

/-- The call has nothing to place. -/
def Idle (S : Setup) (s : State) (held avg : ℚ) : Prop :=
  ∀ s' levels, ladderStart S s held avg = some (s', levels) →
    missing (ladderDesired S.params s held avg) levels = [] ∨
      S.dryRun = false ∧ s.pendingSubmit ≠ none

/-- How a call ends: nothing was placed, and under `Ideal` there was nothing to place; or what was
placed is bounded, and under `Ideal` every missing level was placed. -/
def LadderEnd (S : Setup) (held avg : ℚ) (w₀ w : World) : Prop :=
  (Unplaced w₀ w ∧ (Ideal S w₀.s.tpFailUntil → Idle S w₀.s held avg)) ∨
    ∃ s' levels, ladderStart S w₀.s held avg = some (s', levels) ∧
      (S.dryRun = false → w₀.s.pendingSubmit = none) ∧
      missing (ladderDesired S.params w₀.s held avg) levels ≠ [] ∧
      Bounded w₀ (max s'.offered 0 +
        askedTotal (missing (ladderDesired S.params w₀.s held avg) levels)) w ∧
      (Ideal S w₀.s.tpFailUntil → AllPlaced S w₀.s.tpFailUntil w₀ s'.offered
        (missing (ladderDesired S.params w₀.s held avg) levels) w)

theorem manageTpLadder_end (held avg : ℚ) :
    Triple (· = w₀) (manageTpLadder S held avg) (fun _ => LadderEnd S held avg w₀)
      (fun _ => LadderEnd S held avg w₀) := by
  unfold manageTpLadder
  refine state_triple (fun s₀ => ?_)
  refine Triple.strengthen (P := fun w => s₀ = w₀.s ∧ w = w₀) ?_ (fun w hw => ⟨hw.1 ▸ hw.2.symm, hw.1⟩)
  refine Triple.of_fact (fun hs₀ => ?_)
  subst hs₀
  have hfailed : ∀ w, Failed S w₀.s.tpFailUntil w₀ w → LadderEnd S held avg w₀ w :=
    fun w hw => Or.inl ⟨hw.1, fun h => absurd h hw.2⟩
  -- first the plain SELL orders go, or the call ends here
  have hclear := @clearPlainSells_before S w₀ w₀.s.tpFailUntil
    (w₀.s.orders.filter (fun o => o.side = .sell ∧ o.level = none)) w₀.s
  refine Triple.bind (hclear.conseq (fun w hw => ?_) (fun _ _ hw => hw) (fun _ w hw => hfailed w hw))
    (fun clear => ?_)
  · subst hw
    exact ⟨⟨Unplaced.refl w, alike_refl _, rfl, rfl, rfl⟩, fun o ho _ => (List.mem_filter.mp ho).1⟩
  cases clear with
  | false =>
      refine Triple.pure (fun w hw => Or.inl ⟨hw.2, fun _ s' levels hstart => ?_⟩)
      unfold ladderStart at hstart
      rw [hw.1] at hstart
      cases hstart
  | true =>
      refine Triple.strengthen (P := fun w => ∃ s', withoutPlain S (w₀.s.orders.filter
        (fun o => o.side = .sell ∧ o.level = none)) w₀.s = some s' ∧ Before S s' w₀ w) ?_
        (fun w hw => hw)
      refine state_triple (fun s₁ => ?_)
      rintro w ⟨⟨s', hplain, hbefore⟩, rfl⟩
      have hstart : ladderStart S w₀.s held avg = s'.openLevels.foldlM
          (withdrawLevel S (ladderDesired S.params w₀.s held avg)) (s', s'.openLevels) := by
        unfold ladderStart
        rw [hplain]
      have hdesired := ladderDesired_congr (P := S.params) hbefore.sold held avg
      extract_lets desired levels
      have hd : desired = ladderDesired S.params w₀.s held avg := hdesired
      rw [hd]
      -- without a level to sell nothing is desired
      by_cases hflat : ((unsoldLevels S.params w.s).map Prod.snd).sum ≤ 0 ∨ held ≤ flatQty
      · rw [if_pos hflat]
        refine Or.inl ⟨hbefore.unplaced, fun _ s'' levels _ => Or.inl ?_⟩
        have hnone : ladderDesired S.params w.s held avg = [] := by
          unfold ladderDesired
          exact if_pos hflat
        rw [← hdesired, hnone]
        rfl
      · rw [if_neg hflat]
        have hlevels : levels = s'.openLevels := alike_openLevels hbefore.orders
        rw [hlevels]
        -- then the levels whose order is stale; those that stay open are `kept`
        have hpass := @staleLevels_pass S s' w₀ w₀.s.tpFailUntil
          (ladderDesired S.params w₀.s held avg) s'.openLevels s'.openLevels
        refine Triple.bind (hpass.conseq (fun _ hv => hv) (fun _ _ hv => hv) (fun _ v hv => ?_))
          (fun kept => ?_) w hbefore
        · refine Or.inl ⟨hv.1, fun h s'' levels hsome => ?_⟩
          rw [hstart, hv.2 h] at hsome
          cases hsome
        intro v hv
        obtain ⟨s'', hsome, hbefore'⟩ := hv
        rw [← hstart] at hsome
        refine Triple.bind (P := fun u => u = v) (Q := fun now u => Before S s'' w₀ u ∧
          (Ideal S w₀.s.tpFailUntil → 0 ≤ now ∧ ∀ f ∈ w₀.s.tpFailUntil, f.2 ≤ now)) ?_
          (fun now => ?_) v rfl
        · refine (ask_ideal (f := Before S s'' w₀) (g := Unplaced w₀)
            (fun u _ hu => hu.outside rfl rfl rfl) (fun u hu => hu.unplaced) (fun h n => ?_)).conseq
            (fun u hu => hu ▸ hbefore') (fun now u hu => ⟨hu.1, fun h => ?_⟩)
            (fun _ u hu => hfailed u hu)
          · obtain ⟨t, ht, -⟩ := h.time n
            exact ⟨t, ht⟩
          · obtain ⟨n, hn⟩ := hu.2
            obtain ⟨t, ht, hlate⟩ := h.time n
            rw [hn] at ht
            cases ht
            exact hlate
        · rintro u ⟨hu, hnow⟩
          -- then the missing levels are placed, unless a submit is pending
          by_cases hidle : missing (ladderDesired S.params w₀.s held avg) kept = [] ∨
              S.dryRun = false ∧ w₀.s.pendingSubmit ≠ none
          · refine (placements_idle (E := fun _ => LadderEnd S held avg w₀) now hidle).weaken
              (fun _ v hv => Or.inl ⟨hv, fun _ t levels ht => ?_⟩) u ⟨hu.unplaced, hu.pending⟩
            rw [hsome] at ht
            cases ht
            exact hidle
          · rw [not_or] at hidle
            have hfree : S.dryRun = false → w₀.s.pendingSubmit = none :=
              fun hlive => not_not.mp (fun hne => hidle.2 ⟨hlive, hne⟩)
            refine (placements_bounded kept (b := s''.offered)
              (fun d hd => ladderDesired_round hd) hnow).conseq (fun _ hv => hv)
              (fun _ v hv => Or.inr ⟨s'', kept, hsome, hfree, hidle.1, hv.1, hv.2⟩)
              (fun _ v hv => Or.inr ⟨s'', kept, hsome, hfree, hidle.1, hv.1,
                fun h => absurd h hv.2⟩) u ⟨hu.bounded, fun _ => hu.filled hfree⟩

/-! ## When a ladder oversells -/

theorem World.ended_post {α : Type} {x : StratM α} {P : World → Prop}
    (h : Triple (· = w) x (fun _ => P) (fun _ => P)) : P (World.ended (x w)) := by
  have hpost := h w rfl
  cases hx : x w with
  | ok _ _ =>
      rw [hx] at hpost
      exact hpost
  | error _ _ =>
      rw [hx] at hpost
      exact hpost

/-- A call from which nothing was placed is within. -/
theorem Unplaced.callWithin {held avg : ℚ} (h : Unplaced w (World.ended (manageTpLadder S held avg w))) :
    CallWithin S w held avg := by
  obtain ⟨hpaper, new, hnew, hposts⟩ := h
  constructor
  · intro e he p outcome hp
    rw [entriesSince_eq hnew] at he
    exact absurd hp (hposts e he p outcome)
  · intro hmore
    omega

/-- The venue that takes every order, always at `t`. -/
def acceptingVenue (t : ℚ) : Venue where
  save _ := .stored
  submit _ := .ok (.ok (.outcome { state := .accepted, orderId := some "1" }))
  orderStatus _ := .error .crash
  cancelOrder _ := .ok (.ok ())
  portfolio _ := .ok none
  activeOrders _ := .ok none
  trendSlope _ := .ok none
  time _ := .ok t
  uuid _ := ""

theorem exists_late (fails : List (ℚ × ℚ)) : ∃ t : ℚ, 0 ≤ t ∧ ∀ f ∈ fails, f.2 ≤ t := by
  induction fails with
  | nil => exact ⟨0, le_refl 0, fun f hf => by cases hf⟩
  | cons f rest ih =>
      obtain ⟨t, ht, hrest⟩ := ih
      refine ⟨max t f.2, le_max_of_le_left ht, fun g hg => ?_⟩
      rcases List.mem_cons.mp hg with rfl | hg
      · exact le_max_right _ _
      · exact le_max_of_le_left (hrest g hg)

theorem ladderStart_venue (S : Setup) (V : Venue) (s : State) (held avg : ℚ) :
    ladderStart { S with venue := V } s held avg = ladderStart S s held avg := by
  have hplain : ∀ l s, withoutPlain { S with venue := V } l s = withoutPlain S l s := by
    intro l
    induction l with
    | nil => exact fun s => rfl
    | cons o rest ih =>
        intro s
        unfold withoutPlain
        rw [ih]
        rfl
  unfold ladderStart
  rw [hplain]
  rfl

/-- The placements of a call are within, whatever the venue answers, exactly if the orders that stay
open and the missing levels are. -/
theorem callWithin_iff {s : State} {held avg : ℚ}
    (hasked : askedTotal (ladderDesired S.params s held avg) ≤ held) :
    (∀ (V : Venue) (w : World), w.s = s → CallWithin { S with venue := V } w held avg) ↔
      OpenWithin S s held avg := by
  constructor
  · intro hwithin hfree s' levels hstart
    by_contra hnot
    rw [not_or, not_le] at hnot
    obtain ⟨t, ht, hlate⟩ := exists_late s.tpFailUntil
    let S' : Setup := { S with venue := acceptingVenue t }
    let w : World := { s := s }
    have hideal : Ideal S' s.tpFailUntil :=
      ⟨fun _ => rfl, fun _ => ⟨some "1", rfl⟩, fun _ => rfl, fun _ => ⟨t, rfl, ht, hlate⟩⟩
    have hstart' : ladderStart S' s held avg = some (s', levels) :=
      (ladderStart_venue S _ s held avg).trans hstart
    obtain ⟨hposts, hpaper⟩ := hwithin (acceptingVenue t) w rfl
    rcases World.ended_post (@manageTpLadder_end S' w held avg) with
      ⟨-, hidle⟩ | ⟨s'', kept, hsome, -, -, -, hfilled⟩
    · rcases hidle hideal s' levels hstart' with hnone | ⟨hlive, hpending⟩
      · exact hnot.1 hnone
      · exact hpending (hfree hlive)
    · rw [hstart'] at hsome
      cases hsome
      have hfilled := hfilled hideal
      by_cases hdry : S.dryRun = true
      · have hplaced := (hfilled.paper hdry).2 hnot.1
        have hoffered := hpaper hplaced
        rw [hfilled.offered] at hoffered
        exact absurd hoffered (not_le.mpr hnot.2)
      · obtain ⟨new, hnew, hlast⟩ := hfilled.log
        obtain ⟨e, he, p, outcome, hp, hsum⟩ := hlast (Bool.eq_false_iff.mpr hdry) hnot.1
        have hpost := hposts e (by rw [entriesSince_eq hnew]; exact he) p outcome hp
        rw [hsum] at hpost
        exact absurd hpost (not_le.mpr hnot.2)
  · rintro hopen V w rfl
    let S' : Setup := { S with venue := V }
    rcases World.ended_post (@manageTpLadder_end S' w held avg) with
      ⟨hunplaced, -⟩ | ⟨s', levels, hstart, hfree, hsome, hbounded, -⟩
    · exact hunplaced.callWithin
    · rw [ladderStart_venue] at hstart
      have htotal := (hopen hfree s' levels hstart).resolve_left hsome
      -- the missing levels are part of the desired ones
      have hpart : askedTotal (missing (ladderDesired S.params w.s held avg) levels) ≤ held := by
        refine le_trans ?_ hasked
        unfold missing askedTotal
        refine List.Sublist.sum_le_sum (List.filter_sublist.map _) (fun x hx => ?_)
        obtain ⟨d, hd, rfl⟩ := List.mem_map.mp hx
        exact (ladderDesired_round hd).1.le
      have hmax : max s'.offered 0 +
          askedTotal (missing (ladderDesired S.params w.s held avg) levels) ≤ held := by
        rcases max_cases s'.offered 0 with ⟨heq, -⟩ | ⟨heq, -⟩
        · rw [heq]
          exact htotal
        · rw [heq, zero_add]
          exact hpart
      obtain ⟨hoffered, new, hnew, hposts⟩ := hbounded
      refine ⟨fun e he p outcome hp => ?_, fun _ => hoffered.trans hmax⟩
      rw [entriesSince_eq hnew] at he
      exact (hposts e he p outcome hp).trans hmax

/-- **When a ladder does not oversell.** The desired quantities are together at most what is held,
and so are the open level orders and the placements of a call, whatever the venue answers, exactly if
the roundings below the highest level and its own are within, and the orders that stay open leave
room for the missing levels. -/
theorem ladder_within_iff (S : Setup) (s : State) (held avg : ℚ) (hheld : 0 ≤ held)
    (hfractions : ∀ l ∈ unsoldLevels S.params s, 0 < l.2) :
    (askedTotal (ladderDesired S.params s held avg) ≤ held ∧
      ∀ (V : Venue) (w : World), w.s = s → CallWithin { S with venue := V } w held avg) ↔
      (unsoldLevels S.params s = [] ∨ held ≤ flatQty ∨ RoundsWithin S.params s held avg) ∧
        OpenWithin S s held avg := by
  -- what is desired does not depend on the calls
  have hdesired : askedTotal (ladderDesired S.params s held avg) ≤ held ↔
      unsoldLevels S.params s = [] ∨ held ≤ flatQty ∨ RoundsWithin S.params s held avg := by
    have hnone : ladderDesired S.params s held avg = [] →
        askedTotal (ladderDesired S.params s held avg) ≤ held := by
      intro hnil
      rw [hnil]
      exact hheld
    by_cases hflat : held ≤ flatQty
    · refine iff_of_true (hnone ?_) (Or.inr (Or.inl hflat))
      unfold ladderDesired
      exact if_pos (Or.inr hflat)
    · by_cases hsold : unsoldLevels S.params s = []
      · refine iff_of_true (hnone ?_) (Or.inl hsold)
        unfold ladderDesired
        rw [hsold]
        exact if_pos (Or.inl (le_refl _))
      -- some level is unsold, so the fractions share the holding
      · have hsome : 0 < fractionTotal S.params s := by
          refine List.sum_pos _ (fun x hx => ?_) (by simpa using hsold)
          obtain ⟨l, hl, rfl⟩ := List.mem_map.mp hx
          exact hfractions l hl
        rw [asked_le_iff avg (not_le.mp hflat) hfractions hsome]
        simp [hflat, hsold]
  constructor
  · rintro ⟨hasked, hcalls⟩
    exact ⟨hdesired.mp hasked, (callWithin_iff hasked).mp hcalls⟩
  · rintro ⟨hrounds, hopen⟩
    have hasked := hdesired.mpr hrounds
    exact ⟨hasked, (callWithin_iff hasked).mpr hopen⟩

/-- A ladder, an account that takes every order, and the order of the first level. -/
def laddered (ladder : List (ℚ × ℚ)) : Setup where
  params := { entryAmount := 100, dcaAmount := 100, dcaDropPct := 50, takeprofitPct := 2,
              maxBudget := 1000, maxDcaBuys := 3, orderTtlMin := 60, stopLossPct := 20,
              tpLadder := ladder }
  ticker := "ACME"
  fxToUsd := 1
  dryRun := false
  venue := acceptingVenue 0

def firstLevelOpen : State :=
  { orders := [{ id := "1", side := .sell, qty := 1 / 2, limit := 105, kind := .tp, level := some 5,
                 ts := 0 }] }

/-- One share at 100 and two halves, of which the first is open. -/
theorem halves_within : askedTotal (ladderDesired (laddered [(5, 1 / 2), (10, 1 / 2)]).params
      firstLevelOpen 1 100) ≤ 1 ∧
    ∀ (V : Venue) (w : World), w.s = firstLevelOpen →
      CallWithin { laddered [(5, 1 / 2), (10, 1 / 2)] with venue := V } w 1 100 := by
  refine (ladder_within_iff (laddered [(5, 1 / 2), (10, 1 / 2)]) firstLevelOpen 1 100 (by decide)
    (by decide +kernel)).mpr ⟨Or.inr (Or.inr ?_), ?_⟩
  · unfold RoundsWithin
    decide +kernel
  · have hstart : ladderStart (laddered [(5, 1 / 2), (10, 1 / 2)]) firstLevelOpen 1 100 =
        some (firstLevelOpen, [5]) := by decide +kernel
    intro _ s' levels hsome
    rw [hstart] at hsome
    cases hsome
    exact Or.inr (by decide +kernel)

/-- Two hundredths of a share at 100: three levels below the highest are rounded up to one hundredth
each, and the highest is left out. -/
theorem rounding_oversells :
    (∀ l ∈ unsoldLevels (laddered [(5, 3 / 10), (10, 3 / 10), (15, 3 / 10), (20, 1 / 10)]).params {},
      0 < l.2) ∧
    2 / 100 < askedTotal (ladderDesired
      (laddered [(5, 3 / 10), (10, 3 / 10), (15, 3 / 10), (20, 1 / 10)]).params {} (2 / 100) 100) := by
  decide +kernel

end TradingFleet.Trading212
