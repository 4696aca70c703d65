import Mathlib.Tactic.Positivity
import TradingFleet.Hyperliquid.Leftover
import TradingFleet.Pair.Edges

set_option autoImplicit false

/-! # The delta-neutral strategy: the net delta

Every action sizes, rounds and sends its two orders one by one. Filled in full they leave at most
half a size step of each leg, unless one of them is dropped as dust and the other is not: then the
position becomes directional by what was dropped. `EvenlySized` says, of the sizes and prices alone,
when this does not happen. The main result is `pass_keeps_hedge`: then both legs are ordered or
neither is (`BothOrNeither`), and the net delta stays within its bound.
-/

namespace TradingFleet.Hyperliquid

open TradingFleet.Hoare
open TradingFleet.Rounding (roundTo roundTo_near roundTo_roundTo roundTo_nonneg)

/-- Two sizes are worth the minimum both or neither, at the price of their leg, unless one of them
rounds to nothing. -/
def SameSide (D : DeltaNeutral) (a pa b pb : ℚ) : Prop :=
  0 < D.round a → 0 < D.round b → (minOrderUsd ≤ D.round a * pa ↔ minOrderUsd ≤ D.round b * pb)

/-- What is left of a missing leg is small, against the tolerance or against the other leg, or on
the side of the other leg. -/
def SmallRemnant (D : DeltaNeutral) (target gone rest : ℚ) : Prop :=
  |gone| ≤ 2 * D.tolerance target ∨ 2 * |gone| + D.sizeStep / 2 ≤ |rest| ∨ 0 ≤ gone * rest

/-- The correction of a leg, zero within the tolerance. -/
def due (D : DeltaNeutral) (target drift : ℚ) : ℚ :=
  if D.tolerance target < |drift| then |drift| else 0

/-- What the sizes and prices of a tick are like. The two orders of an action lie on the same side
of the minimum; a perpetual leg that is closed, and one next to a correction, is short; and when the
remaining leg of a pair is closed, little is left of the other one. -/
structure EvenlySized (D : DeltaNeutral) (V : Venue) (L : Reading) (s : State) : Prop where
  perpGone : pattern s.targetSz L = .perpGone → 0 < s.orphanCount → D.p.autoProtect = true →
    Sent D L.spotQty L.spotPx → SmallRemnant D s.targetSz L.perpSzi L.spotQty
  spotGone : pattern s.targetSz L = .spotGone → 0 < s.orphanCount → D.p.autoProtect = true →
    Sent D |L.perpSzi| L.perpPx →
      L.perpSzi ≤ 0 ∧ SmallRemnant D s.targetSz L.spotQty L.perpSzi
  protection : pattern s.targetSz L = .whole → reduces D V L = true →
    SameSide D (protectiveCut D L) L.spotPx (protectiveCut D L) L.perpPx
  closing : pattern s.targetSz L = .whole → closes D V L s = true →
    SameSide D L.spotQty L.spotPx |L.perpSzi| L.perpPx ∧
      (Sent D |L.perpSzi| L.perpPx → L.perpSzi ≤ 0)
  rebalancing : pattern s.targetSz L = .whole → closes D V L s = false → reduces D V L = false →
    (largeDrift (scaledTarget D V L s.targetSz) L = true → 0 < s.driftCount) →
    SameSide D (due D (scaledTarget D V L s.targetSz)
        (driftSpot (scaledTarget D V L s.targetSz) L)) L.spotPx
      (due D (scaledTarget D V L s.targetSz)
        (driftPerp (scaledTarget D V L s.targetSz) L)) L.perpPx ∧
    (Sent D (due D (scaledTarget D V L s.targetSz)
        (driftSpot (scaledTarget D V L s.targetSz) L)) L.spotPx ∨
      Sent D (due D (scaledTarget D V L s.targetSz)
        (driftPerp (scaledTarget D V L s.targetSz) L)) L.perpPx → L.perpSzi ≤ 0)

/-! ## Both legs or neither -/

/-- An order of this action on this leg. -/
def Order.serves (cause : Cause) (leg : Leg) (o : Order) : Bool := o.cause = cause && o.leg = leg

/-- The action orders both legs or neither, unless one of them has no size to order. -/
def Paired (D : DeltaNeutral) (cause : Cause) (spot perp : ℚ) (orders : List Order) : Prop :=
  0 < D.round spot → 0 < D.round perp →
    orders.any (Order.serves cause .spot) = orders.any (Order.serves cause .perp)

/-- Protection, closing and rebalancing order both legs or neither. Scaling up orders nothing: it
raises the target that a rebalancing moves to. -/
structure BothOrNeither (D : DeltaNeutral) (V : Venue) (L : Reading) (s : State)
    (orders : List Order) : Prop where
  protection : Paired D .protection (protectiveCut D L) (protectiveCut D L) orders
  closing : Paired D .closing L.spotQty |L.perpSzi| orders
  rebalancing : Paired D .rebalancing
    (due D (scaledTarget D V L s.targetSz) (driftSpot (scaledTarget D V L s.targetSz) L))
    (due D (scaledTarget D V L s.targetSz) (driftPerp (scaledTarget D V L s.targetSz) L)) orders

/-! ## Sizes -/

section Sizes

variable {D : DeltaNeutral}

theorem sizeStep_pos (D : DeltaNeutral) : 0 < D.sizeStep := by
  unfold DeltaNeutral.sizeStep
  exact one_div_pos.mpr (zpow_pos (by norm_num) _)

theorem round_near (D : DeltaNeutral) (x : ℚ) : |D.round x - x| ≤ D.sizeStep / 2 := by
  have hnear := roundTo_near x D.p.szDecimals
  have hhalf : 1 / (2 * (10 : ℚ) ^ D.p.szDecimals) = D.sizeStep / 2 := by
    unfold DeltaNeutral.sizeStep
    field_simp
  rw [hhalf] at hnear
  exact hnear

theorem round_round (D : DeltaNeutral) (x : ℚ) : D.round (D.round x) = D.round x :=
  roundTo_roundTo x D.p.szDecimals

/-- What an order moves when it is filled in full. -/
def placed (D : DeltaNeutral) (sz px : ℚ) : ℚ := if Sent D sz px then D.round sz else 0

theorem sent_round (x px : ℚ) : Sent D (D.round x) px ↔ Sent D x px := by
  unfold Sent
  rw [round_round]

theorem placed_round (x px : ℚ) : placed D (D.round x) px = placed D x px := by
  by_cases hsent : Sent D x px
  · have hround : Sent D (D.round x) px := (sent_round x px).mpr hsent
    unfold placed
    rw [if_pos hsent, if_pos hround, round_round]
  · have hround : ¬ Sent D (D.round x) px := fun h => hsent ((sent_round x px).mp h)
    unfold placed
    rw [if_neg hsent, if_neg hround]

theorem placed_of_nonpos {x px : ℚ} (h : ¬ 0 < D.round x) : placed D x px = 0 :=
  if_neg (fun hsent => h hsent.1)

theorem placed_zero (px : ℚ) : placed D 0 px = 0 := by
  refine placed_of_nonpos ?_
  have hzero : D.round 0 = 0 := by
    unfold DeltaNeutral.round Rounding.roundTo
    have hround : Rounding.roundEven 0 = 0 := Rounding.roundEven_intCast 0
    rw [zero_mul, hround, Int.cast_zero, zero_div]
  rw [hzero]
  exact lt_irrefl 0

/-- What an order leaves whose value reaches the minimum if it has a size. -/
theorem residual_le {x px : ℚ} (hx : 0 ≤ x) (h : 0 < D.round x → minOrderUsd ≤ D.round x * px) :
    |x - placed D x px| ≤ D.sizeStep / 2 := by
  have hnear := round_near D x
  by_cases hpos : 0 < D.round x
  · have hsent : Sent D x px := ⟨hpos, h hpos⟩
    unfold placed
    rw [if_pos hsent, abs_sub_comm]
    exact hnear
  · have hzero : D.round x = 0 := le_antisymm (not_lt.mp hpos) (roundTo_nonneg hx _)
    rw [placed_of_nonpos hpos, sub_zero]
    rw [hzero, zero_sub, abs_neg] at hnear
    exact hnear

theorem SameSide.sent_iff {a pa b pb : ℚ} (h : SameSide D a pa b pb) (ha : 0 < D.round a)
    (hb : 0 < D.round b) : Sent D a pa ↔ Sent D b pb := by
  unfold Sent
  rw [h ha hb]
  exact ⟨fun hs => ⟨hb, hs.2⟩, fun hs => ⟨ha, hs.2⟩⟩

/-- Two orders on the same side of the minimum are both left out, or leave at most half a step
each. -/
theorem both_or_none {a pa b pb : ℚ} (ha : 0 ≤ a) (hb : 0 ≤ b) (h : SameSide D a pa b pb) :
    (¬ Sent D a pa ∧ ¬ Sent D b pb) ∨
      (|a - placed D a pa| ≤ D.sizeStep / 2 ∧ |b - placed D b pb| ≤ D.sizeStep / 2) := by
  by_cases hsa : Sent D a pa
  · exact Or.inr ⟨residual_le ha (fun _ => hsa.2),
      residual_le hb (fun hpos => ((h.sent_iff hsa.1 hpos).mp hsa).2)⟩
  · by_cases hsb : Sent D b pb
    · exact Or.inr ⟨residual_le ha (fun hpos => ((h.sent_iff hpos hsb.1).mpr hsb).2),
        residual_le hb (fun _ => hsb.2)⟩
    · exact Or.inl ⟨hsa, hsb⟩

/-- A size that rounds to something is at least half a step. -/
theorem half_step_le {x : ℚ} (h : 0 < D.round x) : D.sizeStep / 2 ≤ |x| := by
  have hstep : D.sizeStep ≤ D.round x := by
    have hpow : (0 : ℚ) < 10 ^ D.p.szDecimals := zpow_pos (by norm_num) _
    unfold DeltaNeutral.round roundTo at h
    unfold DeltaNeutral.sizeStep DeltaNeutral.round roundTo
    have hpos : (0 : ℚ) < Rounding.roundEven (x * 10 ^ D.p.szDecimals) := by
      have := mul_pos h hpow
      rwa [div_mul_cancel₀ _ (ne_of_gt hpow)] at this
    have hone : (1 : ℚ) ≤ Rounding.roundEven (x * 10 ^ D.p.szDecimals) := by
      exact_mod_cast hpos
    exact div_le_div_of_nonneg_right hone hpow.le
  have hnear := abs_le.mp (round_near D x)
  linarith [hnear.2, le_abs_self x]

theorem tolerance_nonneg (hpct : 0 ≤ D.p.rebalancePct) {t : ℚ} (ht : 0 ≤ t) :
    0 ≤ D.tolerance t := by
  unfold DeltaNeutral.tolerance
  positivity

theorem due_nonneg (t d : ℚ) : 0 ≤ due D t d := by
  unfold due
  split
  · exact abs_nonneg d
  · exact le_rfl

/-- What a correction adds to its leg. -/
def correction (D : DeltaNeutral) (t drift px : ℚ) : ℚ :=
  if 0 < drift then placed D (due D t drift) px else -placed D (due D t drift) px

theorem correction_of_placed {t drift px : ℚ} (h : placed D (due D t drift) px = 0) :
    correction D t drift px = 0 := by
  unfold correction
  rw [h, neg_zero, ite_self]

theorem not_sent_zero (px : ℚ) : ¬ Sent D 0 px := by
  intro h
  have hzero := placed_zero (D := D) px
  unfold placed at hzero
  rw [if_pos h] at hzero
  exact absurd hzero (ne_of_gt h.1)

/-- A correction that leaves at most half a step leaves at most that and the tolerance. -/
theorem correction_residual (hpct : 0 ≤ D.p.rebalancePct) {t drift px : ℚ} (ht : 0 ≤ t)
    (h : |due D t drift - placed D (due D t drift) px| ≤ D.sizeStep / 2) :
    |drift - correction D t drift px| ≤ D.tolerance t + D.sizeStep / 2 := by
  have htol := tolerance_nonneg hpct ht
  have hstep := sizeStep_pos D
  have hsigned : |drift - correction D t drift px| =
      |(|drift| - placed D (due D t drift) px)| := by
    unfold correction
    by_cases hpos : 0 < drift
    · rw [if_pos hpos, abs_of_pos hpos]
    · rw [if_neg hpos, abs_of_nonpos (not_lt.mp hpos), sub_neg_eq_add, ← abs_neg]
      congr 1
      ring
  rw [hsigned]
  by_cases hdue : D.tolerance t < |drift|
  · have hsize : due D t drift = |drift| := if_pos hdue
    rw [hsize] at h ⊢
    linarith
  · have hsize : due D t drift = 0 := if_neg hdue
    rw [hsize, placed_zero, sub_zero, abs_abs]
    linarith [not_lt.mp hdue]

end Sizes

/-! ## The actions -/

section Actions

variable {D : DeltaNeutral} {V : Venue} {L : Reading} {c : Control} {d : ℚ} {l : List Order}

/-- The fields that decide branches, the orders so far, and the net delta. -/
def Stands (D : DeltaNeutral) (L : Reading) (c : Control) (d : ℚ) (l : List Order) (m : Machine) :
    Prop :=
  m.bot.control = c ∧ netDelta D L m = d ∧ m.orders = l

theorem change_stands {f : State → State} {c' : Control}
    (hcontrol : ∀ s, s.control = c → (f s).control = c')
    (hpaper : ∀ s, (f s).spotQty = s.spotQty ∧ (f s).perpSzi = s.perpSzi)
    {E : String → Machine → Prop} :
    Triple (Stands D L c d l) (change f) (fun _ => Stands D L c' d l) E := by
  rintro m ⟨hm, hd, hl⟩
  refine ⟨hcontrol _ hm, ?_, hl⟩
  rw [← hd]
  unfold netDelta
  show (if D.dryRun = true then (f m.bot).spotQty + (f m.bot).perpSzi else _) = _
  rw [(hpaper m.bot).1, (hpaper m.bot).2]

/-- The orders that a call of an order helper sends. -/
def sentOrders (D : DeltaNeutral) (cause : Cause) (leg : Leg) (buys reduceOnly : Bool) (sz px : ℚ) :
    List Order :=
  if Sent D sz px then [orderFor D cause leg buys reduceOnly sz px] else []

theorem serves_sentOrders (cause cause' : Cause) (leg leg' : Leg) (buys reduceOnly : Bool)
    (sz px : ℚ) :
    (sentOrders D cause leg buys reduceOnly sz px).any (Order.serves cause' leg') =
      (decide (Sent D sz px) && (decide (cause = cause') && decide (leg = leg'))) := by
  unfold sentOrders
  by_cases hsent : Sent D sz px
  · rw [if_pos hsent, decide_eq_true hsent]
    simp [Order.serves, orderFor]
  · rw [if_neg hsent, decide_eq_false hsent]
    rfl

/-- After a reset nothing is left on paper, and the account stays. -/
theorem restarted_delta (cooldown : ℚ) (m : Machine) :
    |netDelta D L { m with bot := m.bot.restarted cooldown }| ≤ |netDelta D L m| := by
  unfold netDelta
  cases D.dryRun with
  | true =>
      show |(0 : ℚ) + 0| ≤ _
      rw [add_zero, abs_zero]
      exact abs_nonneg _
  | false => exact le_rfl

variable (hfilled : ∀ n, V.answer n = .answered true)
include hfilled

theorem submit_stands (cause : Cause) (leg : Leg) (buys reduceOnly : Bool) (sz px : ℚ)
    {E : String → Machine → Prop} :
    Triple (Stands D L c d l) (submit D V cause leg buys reduceOnly sz px)
      (fun _ => Stands D L c (d + if buys then placed D sz px else -placed D sz px)
        (l ++ sentOrders D cause leg buys reduceOnly sz px)) E := by
  unfold sentOrders
  refine submit_triple ?_ ?_ ?_
  · rintro hsent m ⟨hm, hd, hl⟩
    have hzero : placed D sz px = 0 := if_neg hsent
    rw [hzero, neg_zero, ite_self, add_zero, if_neg hsent, List.append_nil]
    exact ⟨hm, hd, hl⟩
  · rintro hsent m m' ⟨hm, hd, hl⟩ hbooked
    have hplaced : placed D sz px = D.round sz := if_pos hsent
    rw [if_pos hsent]
    refine ⟨hbooked.control.trans hm, ?_, ?_⟩
    · rw [hbooked.delta, hd, hplaced]
      rfl
    · rw [hbooked.orders, hl]
  · intro e m m' hanswer
    rw [hfilled] at hanswer
    cases hanswer

theorem sell_stands (cause : Cause) (sz px : ℚ) {E : String → Machine → Prop} :
    Triple (Stands D L c d l) (sellSpot D V cause sz px)
      (fun _ => Stands D L c (d - placed D sz px)
        (l ++ sentOrders D cause .spot false false sz px)) E := by
  have h := submit_stands (D := D) (L := L) (c := c) (d := d) (l := l) hfilled cause .spot false
    false sz px (E := E)
  rw [if_neg Bool.false_ne_true, ← sub_eq_add_neg] at h
  exact h

theorem cover_stands (cause : Cause) (sz px : ℚ) {E : String → Machine → Prop} :
    Triple (Stands D L c d l) (coverPerp D V cause sz px)
      (fun _ => Stands D L c (d + placed D sz px)
        (l ++ sentOrders D cause .perp true true sz px)) E := by
  have h := submit_stands (D := D) (L := L) (c := c) (d := d) (l := l) hfilled cause .perp true true
    sz px (E := E)
  rw [if_pos rfl] at h
  exact h

omit hfilled in
theorem onlyIf_stands {p : Prop} [Decidable p] {x : DnM Unit} {d' : ℚ} {l' : List Order}
    {E : String → Machine → Prop}
    (hx : p → Triple (Stands D L c d l) x (fun _ => Stands D L c d' l') E)
    (hskip : ¬ p → d' = d ∧ l' = l) :
    Triple (Stands D L c d l) (onlyIf p x) (fun _ => Stands D L c d' l') E := by
  unfold onlyIf
  by_cases h : p
  · rw [if_pos h]
    exact hx h
  · rw [if_neg h, (hskip h).1, (hskip h).2]
    exact Triple.pure (fun _ hm => hm)

omit hfilled in
/-- A size that rounds to nothing sends nothing. -/
theorem sentOrders_nil {cause : Cause} {leg : Leg} {buys reduceOnly : Bool} {sz px : ℚ}
    (h : ¬ Sent D sz px) : sentOrders D cause leg buys reduceOnly sz px = [] := if_neg h

omit hfilled in
/-- The orders are of this action and leg, one if the size is sent. -/
def SendsDue (D : DeltaNeutral) (cause : Cause) (leg : Leg) (sz px : ℚ) (new : List Order) : Prop :=
  (∀ o ∈ new, o.cause = cause) ∧
    ∀ leg', new.any (Order.serves cause leg') = (decide (Sent D sz px) && decide (leg = leg'))

omit hfilled in
theorem sends_sentOrders (cause : Cause) (leg : Leg) (buys reduceOnly : Bool) (sz px : ℚ) :
    SendsDue D cause leg sz px (sentOrders D cause leg buys reduceOnly sz px) := by
  refine ⟨fun o ho => ?_, fun leg' => ?_⟩
  · unfold sentOrders at ho
    split at ho
    · rw [List.mem_singleton.mp ho]
      rfl
    · cases ho
  · rw [serves_sentOrders]
    simp

omit hfilled in
/-- The orders of one action, which orders both legs or neither. -/
structure Acts (D : DeltaNeutral) (cause : Cause) (spot perp : ℚ) (new : List Order) : Prop where
  mine : ∀ o ∈ new, o.cause = cause
  paired : Paired D cause spot perp new

omit hfilled in
theorem acts_nil (cause : Cause) (spot perp : ℚ) : Acts D cause spot perp [] :=
  ⟨fun _ ho => by (cases ho), fun _ _ => rfl⟩

omit hfilled in
/-- Two orders on the same side of the minimum, in either order. -/
theorem SameSide.acts {cause : Cause} {a pa b pb : ℚ} (h : SameSide D a pa b pb)
    {x y : List Order} (hx : SendsDue D cause .spot a pa x) (hy : SendsDue D cause .perp b pb y) :
    Acts D cause a b (x ++ y) ∧ Acts D cause a b (y ++ x) := by
  have hcause : ∀ o, o ∈ x ∨ o ∈ y → o.cause = cause := by
    rintro o (ho | ho)
    · exact hx.1 o ho
    · exact hy.1 o ho
  have hsame : 0 < D.round a → 0 < D.round b →
      decide (Sent D a pa) = decide (Sent D b pb) := by
    intro ha hb
    rw [decide_eq_decide]
    exact h.sent_iff ha hb
  refine ⟨⟨fun o ho => hcause o (List.mem_append.mp ho), fun ha hb => ?_⟩,
    ⟨fun o ho => hcause o (List.mem_append.mp ho).symm, fun ha hb => ?_⟩⟩
  · rw [List.any_append, List.any_append, hx.2, hx.2, hy.2, hy.2, hsame ha hb]
    simp
  · rw [List.any_append, List.any_append, hx.2, hx.2, hy.2, hy.2, hsame ha hb]
    simp

/-- Closing leaves at most half a step of either leg. -/
theorem closeLegs_delta (hspot : 0 ≤ L.spotQty) (hd : d = L.spotQty + L.perpSzi)
    (hside : SameSide D L.spotQty L.spotPx |L.perpSzi| L.perpPx)
    (hshort : Sent D |L.perpSzi| L.perpPx → L.perpSzi ≤ 0) {E : String → Machine → Prop} :
    Triple (Stands D L c d l) (closeLegs D V L)
      (fun _ m => |netDelta D L m| ≤ max |d| D.sizeStep ∧
        ∃ new, m.orders = l ++ new ∧ Acts D .closing L.spotQty |L.perpSzi| new) E := by
  have hround : ∀ {x px : ℚ}, ¬ 0 < D.round x → ¬ Sent D (D.round x) px :=
    fun h hs => h ((sent_round _ _).mp hs).1
  have hsell : Triple (Stands D L c d l)
      (onlyIf (0 < D.round L.spotQty) (sellSpot D V .closing (D.round L.spotQty) L.spotPx))
      (fun _ => Stands D L c (d - placed D L.spotQty L.spotPx)
        (l ++ sentOrders D .closing .spot false false (D.round L.spotQty) L.spotPx)) E := by
    refine onlyIf_stands (fun _ => ?_) (fun h => ⟨?_, ?_⟩)
    · rw [← placed_round]
      exact sell_stands hfilled _ _ _
    · rw [placed_of_nonpos h, sub_zero]
    · rw [sentOrders_nil (hround h), List.append_nil]
  have hcover : ∀ d' l', Triple (Stands D L c d' l')
      (onlyIf (0 < D.round |L.perpSzi|) (coverPerp D V .closing (D.round |L.perpSzi|) L.perpPx))
      (fun _ => Stands D L c (d' + placed D |L.perpSzi| L.perpPx)
        (l' ++ sentOrders D .closing .perp true true (D.round |L.perpSzi|) L.perpPx)) E := by
    intro d' l'
    refine onlyIf_stands (fun _ => ?_) (fun h => ⟨?_, ?_⟩)
    · rw [← placed_round]
      exact cover_stands hfilled _ _ _
    · rw [placed_of_nonpos h, add_zero]
    · rw [sentOrders_nil (hround h), List.append_nil]
  have hsends : ∀ (leg : Leg) (buys reduceOnly : Bool) (x px : ℚ), SendsDue D .closing leg x px
      (sentOrders D .closing leg buys reduceOnly (D.round x) px) := by
    intro leg buys reduceOnly x px
    have h := sends_sentOrders (D := D) .closing leg buys reduceOnly (D.round x) px
    unfold SendsDue at h ⊢
    simpa only [sent_round] using h
  unfold closeLegs
  refine Triple.bind hsell (fun _ => Triple.bind (hcover _ _) (fun _ => Triple.updates ?_))
  rintro m ⟨-, hdelta, horders⟩
  refine ⟨le_trans (restarted_delta 0 m) ?_, _, horders.trans (List.append_assoc _ _ _),
    (hside.acts (hsends _ _ _ _ _) (hsends _ _ _ _ _)).1⟩
  rw [hdelta, hd]
  rcases both_or_none hspot (abs_nonneg _) hside with ⟨ha, hb⟩ | ⟨ha, hb⟩
  · have hspotNone : placed D L.spotQty L.spotPx = 0 := if_neg ha
    have hperpNone : placed D |L.perpSzi| L.perpPx = 0 := if_neg hb
    rw [hspotNone, hperpNone, sub_zero, add_zero]
    exact le_max_left _ _
  · refine le_max_of_le_right ?_
    -- what is left of the perpetual leg, whichever way it points
    have hrest : |L.perpSzi + placed D |L.perpSzi| L.perpPx| ≤ D.sizeStep / 2 := by
      by_cases hsent : Sent D |L.perpSzi| L.perpPx
      · rw [abs_of_nonpos (hshort hsent)] at hb ⊢
        have hflip : L.perpSzi + placed D (-L.perpSzi) L.perpPx =
            -(-L.perpSzi - placed D (-L.perpSzi) L.perpPx) := by ring
        rw [hflip, abs_neg]
        exact hb
      · have hnone : placed D |L.perpSzi| L.perpPx = 0 := if_neg hsent
        rw [hnone, sub_zero, abs_abs] at hb
        rw [hnone, add_zero]
        exact hb
    have hsum : L.spotQty + L.perpSzi - placed D L.spotQty L.spotPx +
        placed D |L.perpSzi| L.perpPx = (L.spotQty - placed D L.spotQty L.spotPx) +
          (L.perpSzi + placed D |L.perpSzi| L.perpPx) := by ring
    rw [hsum]
    calc _ ≤ |L.spotQty - placed D L.spotQty L.spotPx| +
          |L.perpSzi + placed D |L.perpSzi| L.perpPx| := abs_add_le _ _
      _ ≤ D.sizeStep / 2 + D.sizeStep / 2 := add_le_add ha hrest
      _ = D.sizeStep := add_halves _

/-- A correction of one leg, through the helper for its sign. -/
theorem correct_stands {t : ℚ} (leg : Leg) (reduceOnly : Bool × Bool) (sign : Bool)
    (drift px : ℚ) {E : String → Machine → Prop} :
    Triple (Stands D L c d l)
      (onlyIf (D.tolerance t < |drift|)
        (if 0 < drift then submit D V .rebalancing leg sign reduceOnly.1 |drift| px
          else submit D V .rebalancing leg (!sign) reduceOnly.2 |drift| px))
      (fun _ m => ∃ new, SendsDue D .rebalancing leg (due D t drift) px new ∧ Stands D L c
        (d + if sign then correction D t drift px else -correction D t drift px)
        (l ++ new) m) E := by
  by_cases hdue : D.tolerance t < |drift|
  · have hsize : due D t drift = |drift| := if_pos hdue
    unfold correction onlyIf
    rw [hsize, if_pos hdue]
    by_cases hpos : 0 < drift
    · rw [if_pos hpos, if_pos hpos]
      exact (submit_stands hfilled _ _ _ _ _ _).weaken
        (fun _ m hm => ⟨_, sends_sentOrders _ _ _ _ _ _, hm⟩)
    · rw [if_neg hpos, if_neg hpos]
      have h := submit_stands (D := D) (L := L) (c := c) (d := d) (l := l) hfilled .rebalancing leg
        (!sign) reduceOnly.2 |drift| px (E := E)
      refine h.weaken (fun _ m hm => ⟨_, sends_sentOrders _ _ (!sign) reduceOnly.2 _ _, ?_⟩)
      cases sign with
      | true => exact hm
      | false =>
          rw [if_neg Bool.false_ne_true, neg_neg]
          exact hm
  · have hsize : due D t drift = 0 := if_neg hdue
    unfold onlyIf
    rw [if_neg hdue, correction_of_placed (by rw [hsize, placed_zero]), neg_zero, ite_self,
      add_zero, hsize]
    refine Triple.pure (fun m hm => ⟨[], ⟨fun _ ho => by (cases ho), fun leg' => ?_⟩, ?_⟩)
    · rw [decide_eq_false (not_sent_zero px)]
      rfl
    · rw [List.append_nil]
      exact hm

theorem correctLegs_delta {t : ℚ} (hpct : 0 ≤ D.p.rebalancePct) (ht : 0 ≤ t)
    (hd : d = L.spotQty + L.perpSzi) (hct : c.targetSz = t)
    (hside : SameSide D (due D t (driftSpot t L)) L.spotPx (due D t (driftPerp t L)) L.perpPx)
    (hshort : Sent D (due D t (driftSpot t L)) L.spotPx ∨
      Sent D (due D t (driftPerp t L)) L.perpPx → L.perpSzi ≤ 0) {E : String → Machine → Prop} :
    Triple (Stands D L c d l) (correctLegs D V L t)
      (fun _ m => m.bot.targetSz = t ∧
        |netDelta D L m| ≤ max |d| (2 * D.tolerance t + D.sizeStep) ∧
        ∃ new, m.orders = l ++ new ∧
          Acts D .rebalancing (due D t (driftSpot t L)) (due D t (driftPerp t L)) new) E := by
  have hspot := fun d => correct_stands (D := D) (L := L) (c := c) (d := d) (l := l) (t := t)
    hfilled .spot (false, false) true (driftSpot t L) L.spotPx (E := E)
  have hperp := fun d l => correct_stands (D := D) (L := L) (c := c) (d := d) (l := l) (t := t)
    hfilled .perp (false, true) false (driftPerp t L) L.perpPx (E := E)
  unfold correctLegs
  refine Triple.bind (hspot d) (fun _ => ?_)
  rintro m₀ ⟨x, hx, hm₀⟩
  refine Triple.bind (hperp _ _) (fun _ => Triple.updates ?_) m₀ hm₀
  rintro m ⟨y, hy, hm, hdelta, horders⟩
  refine ⟨(congrArg Control.targetSz hm).trans hct, ?_, _,
    horders.trans (List.append_assoc _ _ _), (hside.acts hx hy).1⟩
  have hsame : netDelta D L { m with bot := { m.bot with driftCount := 0 } } = netDelta D L m := rfl
  rw [hsame, hdelta, if_pos rfl, if_neg Bool.false_ne_true]
  by_cases hsent : Sent D (due D t (driftSpot t L)) L.spotPx ∨
      Sent D (due D t (driftPerp t L)) L.perpPx
  · rcases both_or_none (due_nonneg _ _) (due_nonneg _ _) hside with ⟨ha, hb⟩ | ⟨ha, hb⟩
    · exact absurd hsent (not_or.mpr ⟨ha, hb⟩)
    · refine le_max_of_le_right ?_
      have hspotRest := correction_residual hpct ht ha
      have hperpRest := correction_residual hpct ht hb
      have hrests : d + correction D t (driftSpot t L) L.spotPx +
          -correction D t (driftPerp t L) L.perpPx =
            (driftPerp t L - correction D t (driftPerp t L) L.perpPx) -
              (driftSpot t L - correction D t (driftSpot t L) L.spotPx) := by
        unfold driftPerp driftSpot
        rw [hd, abs_of_nonpos (hshort hsent)]
        ring
      rw [hrests]
      calc _ ≤ |driftPerp t L - correction D t (driftPerp t L) L.perpPx| +
            |driftSpot t L - correction D t (driftSpot t L) L.spotPx| := abs_sub _ _
        _ ≤ (D.tolerance t + D.sizeStep / 2) + (D.tolerance t + D.sizeStep / 2) :=
            add_le_add hperpRest hspotRest
        _ = 2 * D.tolerance t + D.sizeStep := by ring
  · obtain ⟨ha, hb⟩ := not_or.mp hsent
    rw [correction_of_placed (if_neg ha), correction_of_placed (if_neg hb), neg_zero, add_zero,
      add_zero]
    exact le_max_left _ _

omit hfilled in
/-- The missing leg, and at most half a step of the other one, are what is left. -/
theorem remnant_bound {t gone rest remainder : ℚ} (h : SmallRemnant D t gone rest)
    (hsent : 0 < D.round |rest|) (hremainder : |remainder| ≤ D.sizeStep / 2) :
    |gone + remainder| ≤ max |gone + rest| (2 * D.tolerance t + D.sizeStep) := by
  have hstep := sizeStep_pos D
  have hleft : |gone + remainder| ≤ |gone| + D.sizeStep / 2 := by
    have := abs_add_le gone remainder
    linarith
  rcases h with hsmall | hsmall | hsame
  · refine le_max_of_le_right ?_
    linarith
  · refine le_max_of_le_left ?_
    have hbefore : |rest| ≤ |gone + rest| + |gone| := by
      have := abs_sub (gone + rest) gone
      rwa [add_sub_cancel_left] at this
    linarith
  · refine le_max_of_le_left ?_
    have hhalf := half_step_le hsent
    rw [abs_abs] at hhalf
    have hsum : |gone + rest| = |gone| + |rest| := (abs_add_eq_add_abs_iff gone rest).mpr
      (mul_nonneg_iff.mp hsame)
    linarith

omit hfilled in
theorem goFlat_delta (cooldownS : ℚ) {B : ℚ} {E : String → Machine → Prop} :
    Triple (fun m => |netDelta D L m| ≤ B ∧ m.orders = l) (goFlat V cooldownS)
      (fun _ m => |netDelta D L m| ≤ B ∧ m.orders = l) E :=
  Triple.updates (fun m hm => ⟨le_trans (restarted_delta _ m) hm.1, hm.2⟩)

omit hfilled in
/-- The perpetual leg is missing, and the spot leg is sold. -/
theorem soldRemainder_le {t : ℚ} (hpos : 0 < L.spotQty)
    (hsmall : Sent D L.spotQty L.spotPx → SmallRemnant D t L.perpSzi L.spotQty) :
    |L.spotQty + L.perpSzi - placed D L.spotQty L.spotPx| ≤
      max |L.spotQty + L.perpSzi| (2 * D.tolerance t + D.sizeStep) := by
  by_cases hsent : Sent D L.spotQty L.spotPx
  · have hsize : placed D L.spotQty L.spotPx = D.round L.spotQty := if_pos hsent
    have hnear := round_near D L.spotQty
    rw [abs_sub_comm] at hnear
    have hpositive : 0 < D.round |L.spotQty| := by
      rw [abs_of_pos hpos]
      exact hsent.1
    have hrest : L.spotQty + L.perpSzi - D.round L.spotQty =
        L.perpSzi + (L.spotQty - D.round L.spotQty) := by ring
    rw [hsize, hrest, add_comm L.spotQty L.perpSzi]
    exact remnant_bound (hsmall hsent) hpositive hnear
  · have hsize : placed D L.spotQty L.spotPx = 0 := if_neg hsent
    rw [hsize, sub_zero]
    exact le_max_left _ _

omit hfilled in
/-- The spot leg is missing, and the perpetual leg is covered. -/
theorem coveredRemainder_le {t : ℚ}
    (hsmall : Sent D |L.perpSzi| L.perpPx → L.perpSzi ≤ 0 ∧ SmallRemnant D t L.spotQty L.perpSzi) :
    |L.spotQty + L.perpSzi + placed D |L.perpSzi| L.perpPx| ≤
      max |L.spotQty + L.perpSzi| (2 * D.tolerance t + D.sizeStep) := by
  by_cases hsent : Sent D |L.perpSzi| L.perpPx
  · obtain ⟨hshort, hremnant⟩ := hsmall hsent
    have hsize : placed D |L.perpSzi| L.perpPx = D.round |L.perpSzi| := if_pos hsent
    have hremainder : |(L.perpSzi + D.round |L.perpSzi|)| ≤ D.sizeStep / 2 := by
      have hflip : L.perpSzi + D.round |L.perpSzi| = D.round |L.perpSzi| - |L.perpSzi| := by
        rw [abs_of_nonpos hshort]
        ring
      rw [hflip]
      exact round_near D |L.perpSzi|
    rw [hsize, add_assoc]
    exact remnant_bound hremnant hsent.1 hremainder
  · have hsize : placed D |L.perpSzi| L.perpPx = 0 := if_neg hsent
    rw [hsize, add_zero]
    exact le_max_left _ _

omit hfilled in
theorem cause_of_due {p : Prop} [Decidable p] {cause : Cause} {leg : Leg} {buys reduceOnly : Bool}
    {sz px : ℚ} {o : Order}
    (h : o ∈ if p then sentOrders D cause leg buys reduceOnly sz px else []) : o.cause = cause := by
  split at h
  · exact (sends_sentOrders _ _ _ _ _ _).1 o h
  · cases h

theorem closeRemainder_delta (hd : d = L.spotQty + L.perpSzi)
    (hperp : pattern c.targetSz L = .perpGone → Sent D L.spotQty L.spotPx →
      SmallRemnant D c.targetSz L.perpSzi L.spotQty)
    (hspot : pattern c.targetSz L = .spotGone → Sent D |L.perpSzi| L.perpPx →
      L.perpSzi ≤ 0 ∧ SmallRemnant D c.targetSz L.spotQty L.perpSzi)
    {E : String → Machine → Prop} :
    Triple (Stands D L c d []) (closeRemainder D V L)
      (fun _ m => |netDelta D L m| ≤ max |d| (2 * D.tolerance c.targetSz + D.sizeStep) ∧
        ∀ o ∈ m.orders, o.cause = .orphan) E := by
  unfold closeRemainder
  refine Triple.get (fun m₀ hm₀ => ?_)
  have htarget : m₀.bot.targetSz = c.targetSz := congrArg Control.targetSz hm₀.1
  rw [htarget]
  refine Triple.strengthen (P := Stands D L c d []) ?_ (fun m hm => hm ▸ hm₀)
  -- the spot leg goes when the perpetual one is missing, and the other way round
  let sold : List Order := if pattern c.targetSz L = .perpGone ∧ 0 < L.spotQty then
    sentOrders D .orphan .spot false false L.spotQty L.spotPx else []
  let covered : List Order := if pattern c.targetSz L = .spotGone ∧ 0 < |L.perpSzi| then
    sentOrders D .orphan .perp true true |L.perpSzi| L.perpPx else []
  have hcauses : ∀ o ∈ sold ++ covered, o.cause = .orphan := fun o ho =>
    (List.mem_append.mp ho).elim cause_of_due cause_of_due
  refine Triple.bind (Q := fun _ => Stands D L c (d - if pattern c.targetSz L = .perpGone ∧
    0 < L.spotQty then placed D L.spotQty L.spotPx else 0) ([] ++ sold)) ?_ (fun _ => ?_)
  · refine onlyIf_stands (fun h => ?_) (fun h => ?_)
    · simp only [sold, if_pos h]
      exact sell_stands hfilled _ _ _
    · simp only [sold, if_neg h, sub_zero, List.append_nil, and_self]
  refine Triple.bind (Q := fun _ => Stands D L c ((d - if pattern c.targetSz L = .perpGone ∧
    0 < L.spotQty then placed D L.spotQty L.spotPx else 0) + if pattern c.targetSz L = .spotGone ∧
    0 < |L.perpSzi| then placed D |L.perpSzi| L.perpPx else 0) (([] ++ sold) ++ covered)) ?_
    (fun _ => ?_)
  · refine onlyIf_stands (fun h => ?_) (fun h => ?_)
    · simp only [covered, if_pos h]
      exact cover_stands hfilled _ _ _
    · simp only [covered, if_neg h, add_zero, List.append_nil, and_self]
  refine ((goFlat_delta (l := sold ++ covered) _).weaken
    (fun _ m hm => ⟨hm.1, hm.2 ▸ hcauses⟩)).strengthen ?_
  rintro m ⟨-, hm, horders⟩
  refine ⟨?_, horders⟩
  rw [hm, hd]
  by_cases hp : pattern c.targetSz L = .perpGone ∧ 0 < L.spotQty
  · have hother : ¬ (pattern c.targetSz L = .spotGone ∧ 0 < |L.perpSzi|) := by
      rintro ⟨hs, -⟩
      rw [hp.1] at hs
      cases hs
    rw [if_pos hp, if_neg hother, add_zero]
    exact soldRemainder_le hp.2 (hperp hp.1)
  · rw [if_neg hp, sub_zero]
    by_cases hs : pattern c.targetSz L = .spotGone ∧ 0 < |L.perpSzi|
    · rw [if_pos hs]
      exact coveredRemainder_le (hspot hs.1)
    · rw [if_neg hs, add_zero]
      exact le_max_left _ _

/-! ## A tick -/

omit hfilled in
/-- What a tick may leave of the net delta. -/
def Hedged (D : DeltaNeutral) (L : Reading) (c : Control) (d : ℚ) (m : Machine) : Prop :=
  |netDelta D L m| ≤ max |d| (2 * D.tolerance (max c.targetSz m.bot.targetSz) + D.sizeStep)

omit hfilled in
theorem Hedged.of_le (hpct : 0 ≤ D.p.rebalancePct) {m : Machine} {t : ℚ}
    (ht : t ≤ max c.targetSz m.bot.targetSz)
    (h : |netDelta D L m| ≤ max |d| (2 * D.tolerance t + D.sizeStep)) : Hedged D L c d m := by
  have hmono : D.tolerance t ≤ D.tolerance (max c.targetSz m.bot.targetSz) := by
    unfold DeltaNeutral.tolerance
    have := mul_le_mul_of_nonneg_right ht hpct
    linarith
  refine le_trans h (max_le_max le_rfl ?_)
  linarith

omit hfilled in
theorem Hedged.of_kept {m : Machine} (h : |netDelta D L m| ≤ |d|) : Hedged D L c d m :=
  le_trans h (le_max_left _ _)

omit hfilled in
/-- Orders of another action are not seen. -/
theorem any_serves_eq_false {cause cause' : Cause} (hne : cause ≠ cause') (leg : Leg)
    (hl : ∀ o ∈ l, o.cause = cause') : l.any (Order.serves cause leg) = false := by
  rw [List.any_eq_false]
  intro o ho
  unfold Order.serves
  rw [hl o ho, decide_eq_false hne.symm]
  simp

omit hfilled in
theorem paired_of_other {cause cause' : Cause} (hne : cause ≠ cause') {a b : ℚ}
    (hl : ∀ o ∈ l, o.cause = cause') : Paired D cause a b l := by
  intro _ _
  rw [any_serves_eq_false hne _ hl, any_serves_eq_false hne _ hl]

omit hfilled in
theorem Paired.append {cause : Cause} {a b : ℚ} {l' : List Order} (h : Paired D cause a b l)
    (h' : Paired D cause a b l') : Paired D cause a b (l ++ l') := by
  intro ha hb
  rw [List.any_append, List.any_append, h ha hb, h' ha hb]

variable {s : State}

omit hfilled in
/-- A tick orders for a remainder only, or protects and closes, or corrects. -/
theorem bothOrNeither_of_orphans (hl : ∀ o ∈ l, o.cause = .orphan) : BothOrNeither D V L s l :=
  ⟨paired_of_other (by decide) hl, paired_of_other (by decide) hl, paired_of_other (by decide) hl⟩

omit hfilled in
theorem bothOrNeither_of_acts {protective closing : List Order}
    (hp : Acts D .protection (protectiveCut D L) (protectiveCut D L) protective)
    (hc : Acts D .closing L.spotQty |L.perpSzi| closing) :
    BothOrNeither D V L s (protective ++ closing) where
  protection := hp.paired.append (paired_of_other (by decide) hc.mine)
  closing := Paired.append (paired_of_other (by decide) hp.mine) hc.paired
  rebalancing := Paired.append (paired_of_other (by decide) hp.mine)
    (paired_of_other (by decide) hc.mine)

omit hfilled in
/-- The bound, and both legs or neither. -/
def Good (D : DeltaNeutral) (V : Venue) (L : Reading) (s : State) (d : ℚ) (m : Machine) : Prop :=
  Hedged D L s.control d m ∧ BothOrNeither D V L s m.orders

omit hfilled in
theorem Stands.good {c' : Control} {m : Machine} (hm : Stands D L c' d l m)
    (hl : BothOrNeither D V L s l) : Good D V L s d m := by
  refine ⟨Hedged.of_kept ?_, ?_⟩
  · rw [hm.2.1]
  · rw [hm.2.2]
    exact hl

omit hfilled in
theorem bothOrNeither_nil : BothOrNeither D V L s [] :=
  bothOrNeither_of_orphans (fun _ ho => by cases ho)

omit hfilled in
/-- A missing leg ends the tick; otherwise both legs are there. -/
def Checked (D : DeltaNeutral) (V : Venue) (L : Reading) (s : State) (d : ℚ) (handled : Bool)
    (m : Machine) : Prop :=
  (handled = true → Good D V L s d m) ∧ (handled = false →
    0 < s.targetSz ∧ pattern s.targetSz L = .whole ∧
      Stands D L { s.control with orphanCount := 0, goneCount := 0 } d [] m)

theorem checkLegsIntegrity_delta (hpct : 0 ≤ D.p.rebalancePct) (hd : d = L.spotQty + L.perpSzi)
    (hsized : EvenlySized D V L s) {E : String → Machine → Prop} :
    Triple (Stands D L s.control d []) (checkLegsIntegrity D V L) (Checked D V L s d) E := by
  have hkept : ∀ {c' : Control} (m : Machine), Stands D L c' d [] m → Good D V L s d m :=
    fun m hm => hm.good bothOrNeither_nil
  have hflat : ∀ {c' : Control} (cooldownS : ℚ), Triple (Stands D L c' d []) (goFlat V cooldownS)
      (fun _ => Good D V L s d) E := by
    intro c' cooldownS
    refine ((goFlat_delta (D := D) (L := L) (B := |d|) (l := []) cooldownS).weaken ?_).strengthen ?_
    · rintro _ m ⟨hm, horders⟩
      refine ⟨Hedged.of_kept hm, ?_⟩
      rw [horders]
      exact bothOrNeither_nil
    · rintro m ⟨-, hm, horders⟩
      exact ⟨by rw [hm], horders⟩
  have hdone : ∀ {P : Machine → Prop}, (∀ m, P m → Good D V L s d m) →
      Triple P (Pure.pure true : DnM Bool) (Checked D V L s d) E :=
    fun hP => Triple.pure (fun m hm => ⟨fun _ => hP m hm, fun h => by cases h⟩)
  unfold checkLegsIntegrity
  refine Triple.get (fun m₀ hm₀ => ?_)
  have htarget : m₀.bot.targetSz = s.targetSz := congrArg Control.targetSz hm₀.1
  have horphan : m₀.bot.orphanCount = s.orphanCount := congrArg Control.orphanCount hm₀.1
  refine Triple.strengthen (P := Stands D L s.control d []) ?_ (fun m hm => hm ▸ hm₀)
  rw [htarget]
  by_cases hzero : s.targetSz ≤ 0
  · rw [if_pos hzero]
    exact Triple.bind (hflat 0) (fun _ => hdone (fun _ hm => hm))
  rw [if_neg hzero]
  have hone : Triple (Stands D L s.control d [])
      (change (fun s => { s with orphanCount := s.orphanCount + 1 }))
      (fun _ => Stands D L { s.control with orphanCount := s.orphanCount + 1 } d []) E :=
    change_stands (fun s' hs => by
      rw [State.control, Control.mk.injEq] at hs
      simp [State.control, hs]) (fun s => by exact ⟨rfl, rfl⟩)
  have horphaned : Triple (Stands D L { s.control with orphanCount := s.orphanCount + 1 } d [])
      (onlyIf (2 ≤ m₀.bot.orphanCount + 1 ∧ D.p.autoProtect = true) (closeRemainder D V L))
      (fun _ => Good D V L s d) E := by
    unfold onlyIf
    by_cases hact : 2 ≤ m₀.bot.orphanCount + 1 ∧ D.p.autoProtect = true
    -- the remainder is closed on the second sight only, so the first was counted
    · have hpositive : 0 < s.orphanCount := by omega
      rw [if_pos hact]
      refine (closeRemainder_delta (c := { s.control with orphanCount := s.orphanCount + 1 })
        hfilled hd (fun h => hsized.perpGone h hpositive hact.2)
        (fun h => hsized.spotGone h hpositive hact.2)).weaken ?_
      rintro _ m ⟨hm, hcauses⟩
      exact ⟨Hedged.of_le hpct (le_max_left _ _) hm, bothOrNeither_of_orphans hcauses⟩
    · rw [if_neg hact]
      exact Triple.pure hkept
  cases hpattern : pattern s.targetSz L with
  | bothGone =>
      refine Triple.bind (Q := fun _ =>
        Stands D L { s.control with goneCount := s.goneCount + 1 } d [])
        (change_stands (fun s' hs => by
          rw [State.control, Control.mk.injEq] at hs
          simp [State.control, hs]) (fun s => by exact ⟨rfl, rfl⟩)) (fun _ => ?_)
      refine Triple.bind (Q := fun _ => Good D V L s d) ?_ (fun _ => hdone (fun _ hm => hm))
      exact Triple.ite (hflat 3600) (Triple.pure hkept)
  | whole =>
      refine Triple.bind (Q := fun _ =>
        Stands D L { s.control with orphanCount := 0, goneCount := 0 } d [])
        (change_stands (fun s' hs => by
          rw [State.control, Control.mk.injEq] at hs
          simp [State.control, hs]) (fun s => by exact ⟨rfl, rfl⟩)) (fun _ => ?_)
      exact Triple.pure (fun m hm =>
        ⟨fun h => (by cases h), fun _ => ⟨not_le.mp hzero, hpattern, hm⟩⟩)
  | spotGone =>
      exact Triple.bind hone (fun _ => Triple.bind horphaned (fun _ => hdone (fun _ hm => hm)))
  | perpGone =>
      exact Triple.bind hone (fun _ => Triple.bind horphaned (fun _ => hdone (fun _ hm => hm)))

/-- Near a liquidation both legs are reduced by the same size. -/
theorem checkLiq_delta
    (hcut : reduces D V L = true →
      SameSide D (protectiveCut D L) L.spotPx (protectiveCut D L) L.perpPx) :
    Triple (Stands D L c d []) (checkLiq D V L)
      (fun reduced m => reduced = reduces D V L ∧
        (reduced = false → Stands D L c d [] m) ∧
        (reduced = true → ∃ new, Acts D .protection (protectiveCut D L) (protectiveCut D L) new ∧
          Stands D L { c with targetSz := max 0 (c.targetSz - protectiveCut D L) } d new m))
      (fun _ => Good D V L s d) := by
  have hnone : reduces D V L = false → Triple (Stands D L c d []) (Pure.pure false : DnM Bool)
      (fun reduced m => reduced = reduces D V L ∧ (reduced = false → Stands D L c d [] m) ∧
        (reduced = true → ∃ new, Acts D .protection (protectiveCut D L) (protectiveCut D L) new ∧
          Stands D L { c with targetSz := max 0 (c.targetSz - protectiveCut D L) } d new m))
      (fun _ => Good D V L s d) :=
    fun h => Triple.pure (fun m hm => ⟨h.symm, fun _ => hm, fun h' => by cases h'⟩)
  unfold checkLiq
  dsimp only
  by_cases hliq : V.liquidationPx.getD 0 ≤ 0
  · rw [if_pos hliq]
    refine hnone ?_
    -- without a liquidation price there is nothing to be near to
    have hfar : nearLiquidation D V L = false := by
      unfold nearLiquidation
      cases hpx : V.liquidationPx with
      | none => rfl
      | some liq =>
          rw [hpx] at hliq
          have hnot : decide (0 < liq) = false := decide_eq_false (not_lt.mpr hliq)
          simp only [hnot, Bool.false_and]
    unfold reduces
    rw [hfar, Bool.false_and, Bool.false_and]
  rw [if_neg hliq]
  refine Triple.ite (Triple.throw (fun m hm => hm.good bothOrNeither_nil)) ?_
  -- an alert is a flag, and moves no leg
  have halert : Triple (Stands D L c d []) (change (fun s =>
      if nearLiquidation D V L then { s with liqAlerted := true }
      else if D.p.liqAlertPct * (3 / 2) < liqDistance L (V.liquidationPx.getD 0) then
        { s with liqAlerted := false }
      else s)) (fun _ => Stands D L c d []) (fun _ => Good D V L s d) := by
    refine change_stands (fun s hs => ?_) (fun s => ?_)
    · rw [← hs]
      split
      · rfl
      · split <;> rfl
    · split
      · exact ⟨rfl, rfl⟩
      · split <;> exact ⟨rfl, rfl⟩
  refine Triple.bind halert (fun _ => ?_)
  cases hreduces : reduces D V L with
  | false =>
      rw [hreduces] at hnone
      rw [if_neg Bool.false_ne_true]
      exact hnone rfl
  | true =>
      rw [if_pos rfl]
      have hpositive : 0 < D.round (protectiveCut D L) := by
        unfold reduces at hreduces
        rw [Bool.and_eq_true, decide_eq_true_eq] at hreduces
        unfold protectiveCut at hreduces ⊢
        rw [round_round]
        exact hreduces.2
      have hside := hcut hreduces
      -- both legs are cut by the same quantity, or neither is
      have hsame : placed D (protectiveCut D L) L.perpPx =
          placed D (protectiveCut D L) L.spotPx := by
        have hiff := hside.sent_iff hpositive hpositive
        unfold placed
        by_cases hs : Sent D (protectiveCut D L) L.spotPx
        · rw [if_pos hs, if_pos (hiff.mp hs)]
        · rw [if_neg hs, if_neg (fun hp => hs (hiff.mpr hp))]
      refine Triple.bind (cover_stands hfilled _ _ _) (fun _ => ?_)
      refine Triple.bind (sell_stands hfilled _ _ _) (fun _ => ?_)
      rw [hsame, add_sub_cancel_right, List.nil_append]
      have hacts := (hside.acts (sends_sentOrders .protection .spot false false _ _)
        (sends_sentOrders .protection .perp true true _ _)).2
      refine Triple.bind (Q := fun _ => Stands D L
        { c with targetSz := max 0 (c.targetSz - protectiveCut D L) } d _)
        (change_stands (fun s hs => by rw [← hs]; rfl) (fun s => by exact ⟨rfl, rfl⟩)) (fun _ => ?_)
      exact Triple.pure (fun m hm => ⟨rfl, fun h => (by cases h), fun _ => ⟨_, hacts, hm⟩⟩)

omit hfilled in
theorem maybeScaleUp_delta :
    Triple (Stands D L c d []) (maybeScaleUp D V L)
      (fun _ => Stands D L { c with targetSz := scaledTarget D V L c.targetSz } d [])
      (fun _ => Good D V L s d) := by
  unfold maybeScaleUp
  refine Triple.get (fun m₀ hm₀ =>
    Triple.strengthen (P := Stands D L c d []) ?_ (fun m hm => hm ▸ hm₀))
  refine Triple.ite (Triple.throw (fun m hm => hm.good bothOrNeither_nil)) ?_
  exact change_stands (fun s hs => by rw [← hs]; rfl) (fun s => by exact ⟨rfl, rfl⟩)

omit hfilled in
/-- A target is only raised. -/
theorem scaledTarget_nonneg {t : ℚ} (ht : 0 ≤ t) : 0 ≤ scaledTarget D V L t := by
  unfold scaledTarget
  dsimp only
  have hwant : ¬ D.round (D.round (D.p.notional / L.perpPx) - t) ≤ 0 →
      0 ≤ D.round (D.p.notional / L.perpPx) := by
    intro hadd
    by_contra hneg
    refine hadd (Rounding.roundTo_le_iff _ |>.mpr ?_)
    have hpow : (0 : ℚ) < 10 ^ D.p.szDecimals := zpow_pos (by norm_num) _
    rw [zero_mul, Int.floor_zero, Rounding.roundEven_le_iff]
    refine Or.inl ?_
    have hbelow : D.round (D.p.notional / L.perpPx) - t ≤ 0 := by linarith
    have hscaled := mul_nonpos_of_nonpos_of_nonneg hbelow hpow.le
    rw [Int.cast_zero, zero_add]
    linarith
  split
  · exact ht
  · split
    · exact ht
    · split
      · exact ht
      · rename_i hadd
        split
        · exact hwant hadd
        · split
          · split
            · exact ht
            · rename_i haff
              exact roundTo_nonneg (by linarith) _
          · exact hwant hadd

theorem rebalance_delta (hpct : 0 ≤ D.p.rebalancePct) (hd : d = L.spotQty + L.perpSzi)
    (ht : 0 ≤ c.targetSz)
    (hsized : (largeDrift c.targetSz L = true → 0 < c.driftCount) →
      SameSide D (due D c.targetSz (driftSpot c.targetSz L)) L.spotPx
        (due D c.targetSz (driftPerp c.targetSz L)) L.perpPx ∧
      (Sent D (due D c.targetSz (driftSpot c.targetSz L)) L.spotPx ∨
        Sent D (due D c.targetSz (driftPerp c.targetSz L)) L.perpPx → L.perpSzi ≤ 0))
    {E : String → Machine → Prop} :
    Triple (Stands D L c d []) (rebalance D V L)
      (fun _ m => m.bot.targetSz = c.targetSz ∧
        |netDelta D L m| ≤ max |d| (2 * D.tolerance c.targetSz + D.sizeStep) ∧
        Acts D .rebalancing (due D c.targetSz (driftSpot c.targetSz L))
          (due D c.targetSz (driftPerp c.targetSz L)) m.orders) E := by
  unfold rebalance
  refine Triple.get (fun m₀ hm₀ => ?_)
  have htarget : m₀.bot.targetSz = c.targetSz := congrArg Control.targetSz hm₀.1
  rw [htarget]
  refine Triple.strengthen (P := Stands D L c d []) ?_ (fun m hm => hm ▸ hm₀)
  refine Triple.bind (Q := fun confirmed m =>
    (confirmed = true → largeDrift c.targetSz L = true → 0 < c.driftCount) ∧
      ∃ n, Stands D L { c with driftCount := n } d [] m) ?_ (fun confirmed => ?_)
  · unfold driftConfirmed
    refine Triple.get (fun m₁ hm₁ => Triple.strengthen (P := Stands D L c d []) ?_
      (fun m hm => hm ▸ hm₁))
    -- a large drift counts the tick and waits for a second one
    have htarget₁ : m₁.bot.targetSz = c.targetSz := congrArg Control.targetSz hm₁.1
    have hdrift₁ : m₁.bot.driftCount = c.driftCount := congrArg Control.driftCount hm₁.1
    rw [htarget₁, hdrift₁]
    by_cases hlarge : largeDrift c.targetSz L = true
    · rw [if_pos hlarge]
      refine Triple.bind (Q := fun _ => Stands D L { c with driftCount := c.driftCount + 1 } d [])
        (change_stands (fun s hs => by rw [← hs]; rfl) (fun s => by exact ⟨rfl, rfl⟩)) (fun _ => ?_)
      refine Triple.pure (fun m hm => ⟨fun hconfirmed _ => ?_, _, hm⟩)
      have := of_decide_eq_true hconfirmed
      omega
    · rw [if_neg hlarge]
      refine Triple.bind (Q := fun _ => Stands D L { c with driftCount := 0 } d [])
        (change_stands (fun s hs => by rw [← hs]; rfl) (fun s => by exact ⟨rfl, rfl⟩)) (fun _ => ?_)
      exact Triple.pure (fun m hm => ⟨fun _ h => absurd h hlarge, _, hm⟩)
  · rintro m ⟨hconfirms, n, hm⟩
    unfold onlyIf
    by_cases hconfirmed : confirmed = true
    · rw [if_pos hconfirmed]
      obtain ⟨hside, hshort⟩ := hsized (hconfirms hconfirmed)
      refine (correctLegs_delta (c := { c with driftCount := n }) hfilled hpct ht hd rfl hside
        hshort).weaken ?_ m hm
      rintro _ m' ⟨htarget', hdelta, new, horders, hacts⟩
      rw [List.nil_append] at horders
      exact ⟨htarget', hdelta, horders ▸ hacts⟩
    · rw [if_neg hconfirmed]
      refine ⟨congrArg Control.targetSz hm.1, ?_, ?_⟩
      · rw [hm.2.1]
        exact le_max_left _ _
      · have horders : m.orders = [] := hm.2.2
        show Acts D .rebalancing _ _ m.orders
        rw [horders]
        exact acts_nil _ _ _

omit hfilled in
theorem spot_nonneg_of_whole {t : ℚ} (hpos : 0 < t) (hwhole : pattern t L = .whole) :
    0 ≤ L.spotQty := by
  by_contra hneg
  unfold pattern at hwhole
  rw [if_pos (by linarith)] at hwhole
  split at hwhole <;> cases hwhole

/-- A close after what the protection ordered, whatever that made of the target. -/
theorem closeLegs_good (hpct : 0 ≤ D.p.rebalancePct) (hd : d = L.spotQty + L.perpSzi)
    (hsized : EvenlySized D V L s) (hpositive : 0 < s.targetSz)
    (hwhole : pattern s.targetSz L = .whole) (c' : Control) {new : List Order}
    (hacts : Acts D .protection (protectiveCut D L) (protectiveCut D L) new)
    (hcloses : closes D V L s = true) :
    Triple (Stands D L c' d new) (closeLegs D V L) (fun _ => Good D V L s d)
      (fun _ => Good D V L s d) := by
  obtain ⟨hside, hshort⟩ := hsized.closing hwhole hcloses
  have hspot := spot_nonneg_of_whole hpositive hwhole
  refine (closeLegs_delta hfilled hspot hd hside hshort).weaken ?_
  rintro _ m ⟨hm, closing, horders, hcloseActs⟩
  refine ⟨Hedged.of_le hpct (t := s.targetSz) (le_max_left _ _) (le_trans hm ?_), ?_⟩
  · have := tolerance_nonneg hpct hpositive.le
    exact max_le_max le_rfl (by linarith)
  · rw [horders]
    exact bothOrNeither_of_acts hacts hcloseActs

/-- The tick of an open position. -/
theorem tickOpen_delta (hpct : 0 ≤ D.p.rebalancePct) (hd : d = L.spotQty + L.perpSzi)
    (hsized : EvenlySized D V L s) :
    Triple (Stands D L s.control d []) (tickOpen D V L (closes D V L s)) (fun _ => Good D V L s d)
      (fun _ => Good D V L s d) := by
  unfold tickOpen
  refine Triple.bind (checkLegsIntegrity_delta hfilled hpct hd hsized) (fun handled => ?_)
  unfold onlyIf
  cases handled with
  | true =>
      rw [if_neg (by simp)]
      exact Triple.pure (fun m hm => hm.1 rfl)
  | false =>
      rw [if_pos rfl]
      intro m₀ hm₀
      obtain ⟨hpositive, hwhole, hstands⟩ := hm₀.2 rfl
      refine (?_ : Triple (Stands D L { s.control with orphanCount := 0, goneCount := 0 } d [])
        _ _ _) m₀ hstands
      refine Triple.bind (Q := fun _ =>
        Stands D L { s.control with orphanCount := 0, goneCount := 0 } d [])
        (change_stands (fun s' hs => by rw [← hs]; rfl) (fun s => by exact ⟨rfl, rfl⟩))
        (fun _ => ?_)
      -- both legs are there, so the counters of missing legs are cleared
      have hliq := checkLiq_delta (D := D) (V := V) (L := L)
        (c := { s.control with orphanCount := 0, goneCount := 0 }) (d := d) (s := s) hfilled
        (hsized.protection hwhole)
      refine Triple.bind hliq (fun reduced => ?_)
      cases reduced with
      | true =>
          intro m₁ hm₁
          -- both legs were cut: the tick closes them or is over
          obtain ⟨new, hacts, hstands₁⟩ := hm₁.2.2 rfl
          refine (?_ : Triple (Stands D L { s.control with
            orphanCount := 0, goneCount := 0
            targetSz := max 0 (s.targetSz - protectiveCut D L) } d new) _ _ _) m₁ hstands₁
          refine Triple.bind (Q := fun _ => Stands D L { s.control with
            orphanCount := 0, goneCount := 0
            targetSz := max 0 (s.targetSz - protectiveCut D L) } d new) ?_ (fun _ => ?_)
          · rw [if_neg (by simp)]
            exact Triple.pure (fun _ hm => hm)
          · cases hcloses : closes D V L s with
            | true => exact closeLegs_good hfilled hpct hd hsized hpositive hwhole _ hacts hcloses
            | false =>
                rw [if_neg Bool.false_ne_true, if_neg (by simp)]
                refine Triple.pure (fun m hm => hm.good ?_)
                have hboth := bothOrNeither_of_acts (V := V) (s := s) hacts (acts_nil _ _ _)
                rwa [List.append_nil] at hboth
      | false =>
          intro m₁ hm₁
          -- no cut was needed: the target may grow, then the legs follow it
          have hreduces : reduces D V L = false := hm₁.1.symm
          refine (?_ : Triple (Stands D L { s.control with orphanCount := 0, goneCount := 0 } d [])
            _ _ _) m₁ (hm₁.2.1 rfl)
          rw [if_pos rfl, if_pos rfl]
          refine Triple.bind maybeScaleUp_delta (fun _ => ?_)
          cases hcloses : closes D V L s with
          | true =>
              exact closeLegs_good hfilled hpct hd hsized hpositive hwhole _ (acts_nil _ _ _)
                hcloses
          | false =>
              rw [if_neg Bool.false_ne_true]
              have hscaled : 0 ≤ scaledTarget D V L s.targetSz := scaledTarget_nonneg hpositive.le
              refine (rebalance_delta (c := { s.control with
                orphanCount := 0, goneCount := 0, targetSz := scaledTarget D V L s.targetSz })
                hfilled hpct hd hscaled (hsized.rebalancing hwhole hcloses hreduces)).weaken ?_
              rintro _ m ⟨htarget, hm, hacts⟩
              refine ⟨Hedged.of_le hpct (by rw [htarget]; exact le_max_right _ _) hm, ?_⟩
              exact ⟨paired_of_other (by decide) hacts.mine, paired_of_other (by decide) hacts.mine,
                hacts.paired⟩

end Actions

section Pass

variable {D : DeltaNeutral} {s : State} {i : Input} {L : Reading}

/-- The net delta of a reading, on paper and in the account. -/
theorem legs_delta (hL : L ∈ (legs D i.quotes s).1) :
    netDelta D L ⟨(legs D i.quotes s).2, []⟩ = L.spotQty + L.perpSzi := by
  unfold netDelta
  cases hdry : D.dryRun with
  | false =>
      show L.spotQty + L.perpSzi + (0 : ℚ) = _
      rw [add_zero]
  | true =>
      rw [if_pos rfl]
      unfold legs at hL ⊢
      rw [hdry] at hL ⊢
      split at hL
      · have hread := Option.some.inj hL
        rw [← hread]
        rfl
      · cases hL

end Pass

/-! ## Samples -/

/-- An open position of this size. -/
def sampleState (targetSz : ℚ) : State where
  status := .opened
  targetSz := targetSz
  openedTs := some 1000

/-- The liquidation of the short is 8.5% above the price. A quarter of the position is worth 10.60
on the perpetual side and 10.40 on the spot side. -/
def nearLiquidationInput : Input where
  quotes := ⟨some (52 / 5), some (53 / 5), some 0, some (4, -4)⟩
  venue :=
    { adoptedAt := 2000, now := 2000, changedAt := 2000
      answer := fun _ => .answered true
      liquidationPx := some (23 / 2), freeUsdc := 0 }

/-- Twice the position: a quarter of either leg is worth more than the minimum. -/
def largePosition : Input :=
  { nearLiquidationInput with quotes := ⟨some (52 / 5), some (53 / 5), some 0, some (8, -8)⟩ }

end TradingFleet.Hyperliquid
