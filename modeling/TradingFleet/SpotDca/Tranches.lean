import TradingFleet.Basic.Sorting
import TradingFleet.SpotDca.Step

set_option autoImplicit false

/-! # What the take-profit tranches of a position add up to

A tranche is given its share of the position, rounded, or what is left of it; the last one is
given what is left less a tick of dust. The volumes are then rounded once more when the orders
are placed. `covered_iff` says when they are at most the position, and `sellsMatch_iff` when the
orders are recognised as the wanted ones one tick later.
-/

namespace TradingFleet.SpotDca

open TradingFleet.Lifecycle TradingFleet.Sorting
open TradingFleet.Rounding (roundTo double sub mul div)

/-! ## The volume grid -/

/-- Rounding leaves a value on the grid as it is, and only such a value. -/
theorem onGrid_iff_roundTo {decimals : Nat} {x : ℚ} :
    OnGrid decimals x ↔ roundTo x decimals = x := by
  constructor
  · rintro ⟨n, rfl⟩
    have hpow : (10 : ℚ) ^ decimals ≠ 0 := by positivity
    unfold Rounding.roundTo
    rw [zpow_natCast, div_mul_cancel₀ _ hpow, Rounding.roundEven_intCast]
  · intro h
    rw [← h]
    exact onGrid_roundTo x decimals

theorem PairPrecision.dustStep_pos (P : PairPrecision) : 0 < P.dustStep := by
  unfold PairPrecision.dustStep
  positivity

theorem PairPrecision.dustSafeQty_nonneg (P : PairPrecision) (qty : ℚ) : 0 ≤ P.dustSafeQty qty := by
  have hstep := P.dustStep_pos
  refine Rounding.roundTo_nonneg ?_ _
  have hticks : (0 : ℚ) ≤ ((max (⌊(qty + P.dustStep / 10 ^ 9) / P.dustStep⌋ - 1) 0 : ℤ) : ℚ) := by
    exact_mod_cast le_max_right _ _
  exact mul_nonneg hticks hstep.le

variable (S : Setup)

/-- A volume as it is placed. -/
def placedVol (x : ℚ) : ℚ := roundTo x S.precision.volumeDecimals

/-- The tranches in force. Without any the whole position is one. -/
def tranches : List (ℚ × ℚ) :=
  if S.params.tpTranches = [] then [(S.params.takeprofitPct, 100)] else S.params.tpTranches

theorem tranches_ne_nil : tranches S ≠ [] := by
  unfold tranches
  split
  · simp
  · assumption

/-! ## The sum of the plan -/

/-- The rounded share of a tranche. -/
def partQty (held share : ℚ) : ℚ := placedVol S (div (mul held share) 100)

/-- What is left after a tranche. -/
def leftQty (held share rem : ℚ) : ℚ := placedVol S (sub rem (min rem (partQty S held share)))

/-- What is left of the position for the last tranche. -/
def lastLeft (held : ℚ) : List (ℚ × ℚ) → ℚ → ℚ
  | [], rem => rem
  | [_], rem => rem
  | t :: rest, rem => lastLeft held rest (leftQty S held t.2 rem)

/-- What roundings add while a tranche is served: its volume is rounded once more when it is placed,
and so is what is left. -/
def roundingGain (held share rem : ℚ) : ℚ :=
  placedVol S (min rem (partQty S held share)) + leftQty S held share rem - rem

/-- What a share below zero gives back: it is not placed. -/
def givenBack (held share rem : ℚ) : ℚ :=
  if 0 < min rem (partQty S held share) then 0 else -placedVol S (min rem (partQty S held share))

/-- What the tranches before the last add. -/
def added (held : ℚ) : List (ℚ × ℚ) → ℚ → ℚ
  | [], _ => 0
  | [_], _ => 0
  | t :: rest, rem => roundingGain S held t.2 rem + givenBack S held t.2 rem +
      added held rest (leftQty S held t.2 rem)

/-- The volumes placed for these planned ones. -/
def placedSum (planned : List (ℚ × ℚ)) : ℚ :=
  ((planned.filter (fun t => 0 < t.2)).map (fun t => placedVol S t.2)).sum

variable {S}

theorem placedSum_cons (t : ℚ × ℚ) (planned : List (ℚ × ℚ)) :
    placedSum S (t :: planned) =
      (if 0 < t.2 then placedVol S t.2 else 0) + placedSum S planned := by
  unfold placedSum
  by_cases h : 0 < t.2
  · rw [if_pos h, List.filter_cons_of_pos (by simpa using h), List.map_cons, List.sum_cons]
  · rw [if_neg h, List.filter_cons_of_neg (by simpa using h), zero_add]

/-- The last tranche is placed as planned. -/
theorem placedSum_last (pct rem : ℚ) :
    placedSum S [(pct, S.precision.dustSafeQty rem)] = S.precision.dustSafeQty rem := by
  have hgrid : placedVol S (S.precision.dustSafeQty rem) = S.precision.dustSafeQty rem :=
    Rounding.roundTo_roundTo _ _
  have hnonneg := S.precision.dustSafeQty_nonneg rem
  rw [placedSum_cons]
  show (if 0 < S.precision.dustSafeQty rem then _ else _) + placedSum S [] = _
  rw [hgrid]
  have hnil : placedSum S [] = 0 := rfl
  rw [hnil, add_zero]
  split_ifs with h
  · rfl
  · exact le_antisymm hnonneg (not_lt.mp h)

/-- A tranche that is not the last takes from what is left, up to the roundings. -/
theorem placed_part (held share rem : ℚ) :
    (if 0 < min rem (partQty S held share) then placedVol S (min rem (partQty S held share)) else 0) =
      rem - leftQty S held share rem + roundingGain S held share rem +
        givenBack S held share rem := by
  unfold roundingGain givenBack
  split_ifs with h
  · ring
  · ring

/-- **The volumes placed for a position**: the position and what roundings and negative shares add,
less what the last tranche keeps back. -/
theorem placedSum_trancheQtys (held : ℚ) {ts : List (ℚ × ℚ)} (hts : ts ≠ []) (rem : ℚ) :
    placedSum S (trancheQtys S held ts rem) = rem + added S held ts rem -
      (lastLeft S held ts rem - S.precision.dustSafeQty (lastLeft S held ts rem)) := by
  induction ts generalizing rem with
  | nil => exact absurd rfl hts
  | cons t rest ih =>
      cases rest with
      | nil =>
          have hlast := placedSum_last (S := S) t.1 rem
          show placedSum S [(t.1, S.precision.dustSafeQty rem)] =
            rem + 0 - (rem - S.precision.dustSafeQty rem)
          rw [hlast]
          ring
      | cons t' rest =>
          have hplan : trancheQtys S held (t :: t' :: rest) rem =
              (t.1, min rem (partQty S held t.2)) ::
                trancheQtys S held (t' :: rest) (leftQty S held t.2 rem) := rfl
          have hrest := ih (by simp) (leftQty S held t.2 rem)
          have hleft : lastLeft S held (t :: t' :: rest) rem =
              lastLeft S held (t' :: rest) (leftQty S held t.2 rem) := rfl
          have hadded : added S held (t :: t' :: rest) rem = roundingGain S held t.2 rem +
              givenBack S held t.2 rem + added S held (t' :: rest) (leftQty S held t.2 rem) := rfl
          rw [hplan, placedSum_cons, placed_part, hrest, hleft, hadded]
          ring

/-! ## The plan -/

variable (S)

/-- A tranche below the minimum order: the whole position is planned as one order. -/
def wholeAtOnce (held : ℚ) : Bool :=
  S.precision.orderMin ≠ 0 ∧
    ((trancheQtys S held (tranches S) held).filter (fun t => 0 < t.2)).any
      (fun t => t.2 < S.precision.orderMin)

/-- The plan is covered by the position. As one order it must not be rounded up; in tranches the
last one keeps back at least what roundings and negative shares have added. -/
def Covered (held : ℚ) : Prop :=
  if wholeAtOnce S held then placedVol S held ≤ held
  else added S held (tranches S) held ≤
    lastLeft S held (tranches S) held -
      S.precision.dustSafeQty (lastLeft S held (tranches S) held)

instance (held : ℚ) : Decidable (Covered S held) := by
  unfold Covered
  infer_instance

/-- The prices and volumes of the planned orders at venue precision. -/
def placedOrders (desired : List (ℚ × ℚ)) : List (ℚ × ℚ) :=
  desired.map (fun d => (d.1, placedVol S d.2))

variable {S}

theorem desiredSells_eq (avg held : ℚ) :
    desiredSells S avg held =
      if wholeAtOnce S held then
        [(roundTo (tpPrice avg (((tranches S).head?.map Prod.fst).getD 0))
          S.precision.priceDecimals, held)]
      else ((trancheQtys S held (tranches S) held).filter (fun t => 0 < t.2)).map
        (fun t => (roundTo (tpPrice avg t.1) S.precision.priceDecimals, t.2)) := by
  have hfine : (S.precision.orderMin ≠ 0 ∧
      (((trancheQtys S held (tranches S) held).filter (fun t => 0 < t.2)).map
        (fun t => (roundTo (tpPrice avg t.1) S.precision.priceDecimals, t.2))).any
          (fun d => d.2 < S.precision.orderMin) = true) ↔ wholeAtOnce S held = true := by
    unfold wholeAtOnce
    rw [List.any_map]
    simp [Function.comp_def]
  unfold desiredSells
  by_cases h : wholeAtOnce S held = true
  · rw [if_pos h]
    exact if_pos (hfine.mpr h)
  · rw [if_neg h]
    exact if_neg (fun h' => h (hfine.mp h'))

/-- Every planned price is at venue precision. -/
theorem desiredSells_price {avg held : ℚ} {d : ℚ × ℚ} (h : d ∈ desiredSells S avg held) :
    roundTo d.1 S.precision.priceDecimals = d.1 := by
  rw [desiredSells_eq] at h
  split at h
  · rw [List.mem_singleton.mp h]
    exact Rounding.roundTo_roundTo _ _
  · obtain ⟨t, -, rfl⟩ := List.mem_map.mp h
    exact Rounding.roundTo_roundTo _ _

/-- **The plan, placed in full, is at most the position exactly when it is covered.** -/
theorem covered_iff (avg held : ℚ) :
    ((placedOrders S (desiredSells S avg held)).map Prod.snd).sum ≤ held ↔ Covered S held := by
  unfold placedOrders Covered
  rw [List.map_map, desiredSells_eq]
  by_cases h : wholeAtOnce S held = true
  · rw [if_pos h, if_pos h]
    simp
  · have hsum := placedSum_trancheQtys (S := S) held (tranches_ne_nil S) held
    have hmap : ((((trancheQtys S held (tranches S) held).filter (fun t => 0 < t.2)).map
        (fun t => (roundTo (tpPrice avg t.1) S.precision.priceDecimals, t.2))).map
          (Prod.snd ∘ fun d => (d.1, placedVol S d.2))).sum =
        placedSum S (trancheQtys S held (tranches S) held) := by
      rw [List.map_map]
      rfl
    rw [if_neg h, if_neg h, hmap, hsum]
    constructor
    · intro hle
      linarith
    · intro hle
      linarith

/-! ## What placement takes, and what it recognises -/

variable (S)

/-- `_place` takes the order: its volume is large enough and its price not below the average. -/
def passes (s : State) (d : ℚ × ℚ) : Bool :=
  !tooSmall S (placedVol S d.2) && !s.avg.any (fun a => double d.1 < double a)

/-- The orders of the plan that `_place` takes. -/
def takenOrders (s : State) (desired : List (ℚ × ℚ)) : List (ℚ × ℚ) :=
  placedOrders S (desired.filter (passes S s))

/-- The volumes planned at one price grow, up to the tolerance of the comparison: each one, as it
is placed, is the planned one that a sort by volume puts in its place. -/
def SmallestFirst (desired : List (ℚ × ℚ)) : Prop :=
  ∀ d ∈ desired, ∀ p ∈ ((rows Prod.fst d.1 (placedOrders S desired)).map Prod.snd).zip
    (((rows Prod.fst d.1 desired).map Prod.snd).insertionSort (· ≤ ·)), sameVol p.1 p.2 = true

variable {S}

theorem takenOrders_eq_nil {s : State} {desired : List (ℚ × ℚ)} :
    takenOrders S s desired = [] ↔ ∀ d ∈ desired, passes S s d = false := by
  unfold takenOrders placedOrders
  rw [List.map_eq_nil_iff, List.filter_eq_nil_iff]
  exact forall₂_congr (fun d _ => iff_of_eq (Bool.not_eq_true _))

theorem takenOrders_full {s : State} {desired : List (ℚ × ℚ)} :
    (takenOrders S s desired).length = desired.length ↔ ∀ d ∈ desired, passes S s d = true := by
  unfold takenOrders placedOrders
  rw [List.length_map, List.length_filter_eq_length_iff]

theorem takenOrders_eq {s : State} {desired : List (ℚ × ℚ)}
    (h : ∀ d ∈ desired, passes S s d = true) : takenOrders S s desired = placedOrders S desired := by
  unfold takenOrders
  rw [List.filter_eq_self.mpr h]

theorem taken_pos {s : State} {d : ℚ × ℚ} (h : passes S s d = true) : 0 < placedVol S d.2 := by
  unfold passes tooSmall at h
  simp only [Bool.and_eq_true, Bool.not_eq_true', Bool.or_eq_false_iff, decide_eq_false_iff_not,
    not_le] at h
  exact h.1.1

/-- **The orders of the plan are recognised one tick later exactly when all of them were taken
and the volumes at one price were planned from the smallest on.** -/
theorem sellsMatch_iff {s : State} {sells : List Order} {desired : List (ℚ × ℚ)}
    (hsells : sells.map (fun o => (o.price, o.vol)) = takenOrders S s desired)
    (hstanding : ∀ o ∈ sells, o.cancelRequested = false) :
    sellsMatch sells desired = true ↔
      (∀ d ∈ desired, passes S s d = true) ∧ SmallestFirst S desired := by
  have hlength : sells.length = (takenOrders S s desired).length := by
    rw [← hsells, List.length_map]
  have hnone : sells.all (fun o => !o.cancelRequested) = true := by
    rw [List.all_eq_true]
    intro o ho
    rw [hstanding o ho]
    rfl
  have hsorted : (sells.insertionSort (fun a b => a.price ≤ b.price)).map
      (fun o => (o.price, o.vol)) = byKey (takenOrders S s desired) := by
    rw [← hsells]
    exact List.map_insertionSort _ _ _ _ (fun a _ b _ => Iff.rfl)
  unfold sellsMatch
  dsimp only
  rw [hnone, Bool.and_true, Bool.and_eq_true, decide_eq_true_eq, hlength, takenOrders_full]
  refine and_congr_right (fun hall => ?_)
  rw [takenOrders_eq hall] at hsorted
  -- all were taken: the prices agree in any order, so only the volumes are left
  have hkeys : (placedOrders S desired).map Prod.fst = desired.map Prod.fst := by
    unfold placedOrders
    rw [List.map_map]
    rfl
  have hsame : ∀ p ∈ (byKey (placedOrders S desired)).zip (byBoth desired), p.1.1 = p.2.1 :=
    fun p hp => keys_of_mem_zip Prod.fst Prod.fst (keys_byKey_byBoth hkeys) hp
  have hpairs : (((sells.insertionSort (fun a b => a.price ≤ b.price)).zip (byBoth desired)).all
      (fun x => div |sub x.1.price x.2.1| x.2.1 ≤ double (1 / 1000) &&
        sameVol x.1.vol x.2.2)) = true ↔
      ∀ p ∈ (byKey (placedOrders S desired)).zip (byBoth desired),
        sameVol p.1.2 p.2.2 = true := by
    rw [← hsorted, List.zip_map_left, List.forall_mem_map, List.all_eq_true]
    rw [← hsorted, List.zip_map_left, List.forall_mem_map] at hsame
    refine forall₂_congr (fun x hx => ?_)
    have hprice : x.1.price = x.2.1 := hsame x hx
    have hnear : div |sub x.2.1 x.2.1| x.2.1 ≤ double (1 / 1000) := by
      rw [Rounding.sub_same, abs_zero, Rounding.div_of_zero]
      decide +kernel
    rw [hprice, decide_eq_true hnear, Bool.true_and]
    rfl
  refine hpairs.trans ?_
  rw [zip_byKey_byBoth hkeys (fun a b => sameVol a b = true)]
  constructor
  · exact fun h d _ => h d.1
  · intro h x p hp
    by_cases hx : ∃ d ∈ desired, d.1 = x
    · obtain ⟨d, hd, rfl⟩ := hx
      exact h d hd p hp
    · -- no order is planned at this price
      have hrows : rows Prod.fst x desired = [] := by
        refine List.filter_eq_nil_iff.mpr (fun d hd => ?_)
        simpa using fun hdx => hx ⟨d, hd, hdx⟩
      rw [hrows] at hp
      simp at hp

end TradingFleet.SpotDca
