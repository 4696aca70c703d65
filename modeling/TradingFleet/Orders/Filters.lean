import Mathlib.Data.Rat.Floor
import TradingFleet.Basic.Steps
import TradingFleet.Basic.Text

set_option autoImplicit false

/-! # Exchange filters of an order

`binance_filters.py`: the symbol metadata is read into `BinanceOrderRules`, and `normalize`
floors a quantity and a price to their steps and refuses what leaves the declared bounds.
Decimals are exact rationals. A value that reaches `_decimal` is kept raw, because what it
refuses (a flag, `None`, an infinity, a text that is no number) is part of the behaviour.

`Fits` says in its own words what a normalized order is; `normalize_ok_iff` is the connection:
`normalize` answers `(q, p)` exactly when `(q, p)` fits.
-/

namespace TradingFleet.Orders

open TradingFleet.Steps

/-- A computation answers when both of its parts do. -/
theorem except_bind_ok {ε α β : Type} {x : Except ε α} {f : α → Except ε β} {b : β} :
    (x >>= f) = .ok b ↔ ∃ a, x = .ok a ∧ f a = .ok b := by
  cases x with
  | error e => simp [bind, Except.bind]
  | ok a => simp [bind, Except.bind]

/-! ## Raw values -/

/-- A value as the source receives it. Of a text it matters which finite number, if any, its
characters spell. -/
inductive Raw where
  | nothing
  | flag (b : Bool)
  | number (q : ℚ)
  | nonfinite
  | text (s : String) (spelled : Option ℚ)
deriving DecidableEq

/-- The finite number `Decimal(str(value))` reads. `str(True)` spells none. -/
def Raw.finite : Raw → Option ℚ
  | .number q => some q
  | .text _ spelled => spelled
  | _ => none

/-- `bool(value)`. -/
def Raw.truthy : Raw → Bool
  | .nothing => false
  | .flag b => b
  | .number q => q ≠ 0
  | .nonfinite => true
  | .text s _ => s ≠ ""

/-- The errors of the module, each with the values its text shows. -/
inductive FilterError where
  | invalid (name : String) (value : Raw)
  | stepNotPositive
  | missingMetadata
  | mandatoryFilters
  | mandatoryAssets
  | quantityOutside (qty minimum maximum : ℚ)
  | priceOutside (price minimum maximum : ℚ)
  | belowMinimum (notional : Option ℚ) (required : ℚ)
  | aboveMaximum (notional : Option ℚ) (maximum : ℚ)
deriving DecidableEq

/-- A nonnegative decimal, zero only where zero is allowed. -/
abbrev Amount (allowZero : Bool) := {q : ℚ // 0 ≤ q ∧ (q = 0 → allowZero = true)}

theorem Amount.pos (a : Amount false) : 0 < a.1 := by
  have hne : a.1 ≠ 0 := fun h => by simpa using a.2.2 h
  exact lt_of_le_of_ne a.2.1 hne.symm

/-- `_decimal`. -/
def decimal (name : String) (allowZero : Bool) (value : Raw) :
    Except FilterError (Amount allowZero) :=
  match value.finite with
  | none => .error (.invalid name value)
  | some parsed =>
      if h : 0 ≤ parsed ∧ (parsed = 0 → allowZero = true) then .ok ⟨parsed, h⟩
      else .error (.invalid name value)

theorem decimal_ok_iff {name : String} {allowZero : Bool} {value : Raw} {a : Amount allowZero} :
    decimal name allowZero value = .ok a ↔ value.finite = some a.1 := by
  unfold decimal
  constructor
  · intro h
    cases hread : value.finite with
    | none => simp [hread] at h
    | some parsed =>
        simp only [hread] at h
        split at h
        · simp only [Except.ok.injEq] at h
          simp [← h]
        · cases h
  · intro h
    simp only [h]
    rw [dif_pos a.2]

@[simp] theorem decimal_number {name : String} {allowZero : Bool} (a : Amount allowZero) :
    decimal name allowZero (.number a.1) = .ok a := decimal_ok_iff.mpr rfl

/-- `to_integral_value(rounding=ROUND_DOWN)`: toward zero. -/
def toIntegralDown (x : ℚ) : ℤ := if 0 ≤ x then ⌊x⌋ else ⌈x⌉

/-- `_floor_step`. -/
def floorStep (value step : ℚ) : Except FilterError ℚ :=
  if step ≤ 0 then .error .stepNotPositive
  else .ok (toIntegralDown (value / step) * step)

/-- On a nonnegative value rounding toward zero is rounding down. -/
theorem floorStep_eq {value step : ℚ} (hstep : 0 < step) (hvalue : 0 ≤ value) :
    floorStep value step = .ok (floorTo step value) := by
  have hquot : 0 ≤ value / step := div_nonneg hvalue hstep.le
  unfold floorStep toIntegralDown floorTo
  rw [if_neg (not_le.mpr hstep), if_pos hquot]

/-! ## Symbol metadata -/

/-- One entry of `filters`, a dictionary. -/
structure FilterRow where
  fields : List (String × Raw)

/-- `row.get(key, default)`. -/
def FilterRow.get (row : FilterRow) (key : String) (default : Raw) : Raw :=
  (row.fields.lookup key).getD default

/-- `str(row.get("filterType")) == name`. -/
def FilterRow.isNamed (row : FilterRow) (name : String) : Bool :=
  match row.get "filterType" .nothing with
  | .text s _ => s == name
  | _ => false

/-- `info`, the answer of the exchange for one symbol. An entry of `filters` that is no
dictionary is `none`. -/
structure SymbolInfo where
  filters : List (Option FilterRow)
  baseAsset : Option String
  quoteAsset : Option String

/-- `filters.get(name)`: of several rows with one name the dictionary keeps the last. A row
found by its type is not empty. -/
def SymbolInfo.filter? (info : SymbolInfo) (name : String) : Option FilterRow :=
  ((info.filters.filterMap id).filter (·.isNamed name)).getLast?

/-- `BinanceOrderRules`. Steps are positive and bounds nonnegative; a maximum of zero means
unbounded. -/
structure BinanceOrderRules where
  tickSize : Amount false
  minPrice : Amount true
  maxPrice : Amount true
  lotStep : Amount false
  lotMin : Amount true
  lotMax : Amount true
  marketStep : Amount false
  marketMin : Amount true
  marketMax : Amount true
  minNotional : Amount true
  maxNotional : Amount true
  minNotionalMarket : Bool
  maxNotionalMarket : Bool
  baseAsset : String
  quoteAsset : String
deriving DecidableEq

/-- The zero of `Decimal(0)`. -/
def Amount.zero : Amount true := ⟨0, le_rfl, fun _ => rfl⟩

/-- The notional limits: `NOTIONAL`, else `MIN_NOTIONAL`, else none. -/
def notionalLimits (info : SymbolInfo) :
    Except FilterError (Amount true × Amount true × Bool × Bool) :=
  match info.filter? "NOTIONAL", info.filter? "MIN_NOTIONAL" with
  | some notional, _ => do
      let minNotional ← decimal "minNotional" true (notional.get "minNotional" (.number 0))
      let maxNotional ← decimal "maxNotional" true (notional.get "maxNotional" (.number 0))
      .ok (minNotional, maxNotional, (notional.get "applyMinToMarket" (.flag false)).truthy,
        (notional.get "applyMaxToMarket" (.flag false)).truthy)
  | none, some minimum => do
      let minNotional ← decimal "minNotional" true (minimum.get "minNotional" (.number 0))
      .ok (minNotional, .zero, (minimum.get "applyToMarket" (.flag false)).truthy, false)
  | none, none => .ok (.zero, .zero, false, false)

/-- The row market orders follow: `MARKET_LOT_SIZE` unless it is absent or has no positive
step. -/
def marketRow (info : SymbolInfo) (lot : FilterRow) : FilterRow :=
  let market := (info.filter? "MARKET_LOT_SIZE").getD lot
  match decimal "marketStepSize" true (market.get "stepSize" .nothing) with
  | .ok step => if step.1 ≤ 0 then lot else market
  | .error _ => lot

/-- `BinanceOrderRules.from_symbol_info`. -/
def BinanceOrderRules.fromSymbolInfo : Option SymbolInfo → Except FilterError BinanceOrderRules
  | none => .error .missingMetadata
  | some info =>
      match info.filter? "PRICE_FILTER", info.filter? "LOT_SIZE" with
      | some price, some lot => do
          let market := marketRow info lot
          let (minNotional, maxNotional, minMarket, maxMarket) ← notionalLimits info
          let base := Text.strip (info.baseAsset.getD "")
          let quote := Text.strip (info.quoteAsset.getD "")
          if base = "" ∨ quote = "" then throw .mandatoryAssets
          let tickSize ← decimal "tickSize" false (price.get "tickSize" .nothing)
          let minPrice ← decimal "minPrice" true (price.get "minPrice" (.number 0))
          let maxPrice ← decimal "maxPrice" true (price.get "maxPrice" (.number 0))
          let lotStep ← decimal "stepSize" false (lot.get "stepSize" .nothing)
          let lotMin ← decimal "minQty" true (lot.get "minQty" (.number 0))
          let lotMax ← decimal "maxQty" true (lot.get "maxQty" (.number 0))
          let marketStep ← decimal "marketStepSize" false (market.get "stepSize" .nothing)
          let marketMin ← decimal "marketMinQty" true (market.get "minQty" (.number 0))
          let marketMax ← decimal "marketMaxQty" true (market.get "maxQty" (.number 0))
          return ⟨tickSize, minPrice, maxPrice, lotStep, lotMin, lotMax, marketStep, marketMin,
            marketMax, minNotional, maxNotional, minMarket, maxMarket, base, quote⟩
      | _, _ => .error .mandatoryFilters

/-! ## Normalization -/

/-- The keyword arguments of `normalize`. -/
structure Request where
  quantity : Raw
  price : Raw := .nothing
  market : Bool := false
  referencePrice : Raw := .nothing
  businessMinNotional : Raw := .number 0

/-- The same order asked again with its normalized quantity and price. -/
def Request.normalized (order : Request) (q : ℚ) (p : Option ℚ) : Request :=
  { order with quantity := .number q, price := p.elim .nothing .number }

namespace BinanceOrderRules

variable (rules : BinanceOrderRules)

/-- The step, minimum and maximum of the quantity that this order type follows. -/
def step (market : Bool) : Amount false := if market then rules.marketStep else rules.lotStep

def minimum (market : Bool) : Amount true := if market then rules.marketMin else rules.lotMin

def maximum (market : Bool) : Amount true := if market then rules.marketMax else rules.lotMax

/-- A floored value is refused when it is zero, below the minimum or above a declared maximum. -/
def outside (x minimum maximum : ℚ) : Bool := x ≤ 0 ∨ x < minimum ∨ (0 < maximum ∧ maximum < x)

/-- The quantity and the price go the same way: read, floor to the step, compare. -/
def flooredWithin (name : String) (step : Amount false) (minimum maximum : Amount true)
    (refusal : ℚ → ℚ → ℚ → FilterError) (value : Raw) : Except FilterError ℚ := do
  let requested ← decimal name false value
  let x ← floorStep requested.1 step.1
  if outside x minimum.1 maximum.1 then .error (refusal x minimum.1 maximum.1) else .ok x

/-- The quantity part of `normalize`. -/
def normalizeQuantity (order : Request) : Except FilterError ℚ :=
  flooredWithin "quantity" (rules.step order.market) (rules.minimum order.market)
    (rules.maximum order.market) .quantityOutside order.quantity

/-- The price part of `normalize`: a market order has none. -/
def normalizePrice (order : Request) : Except FilterError (Option ℚ) :=
  if order.market then .ok none
  else do
    let price ← flooredWithin "price" rules.tickSize rules.minPrice rules.maxPrice .priceOutside
      order.price
    .ok (some price)

/-- `notional_price`: a market order is valued at its reference price. -/
def notionalPrice (order : Request) (price : Option ℚ) : Raw :=
  if order.market then order.referencePrice
  else
    match price with
    | some p => .number p
    | none => .nothing

/-- `notional`, absent when there is no price to value the order at. -/
def notionalOf (order : Request) (qty : ℚ) (price : Option ℚ) : Except FilterError (Option ℚ) :=
  match notionalPrice order price with
  | .nothing => .ok none
  | value => do
      let reference ← decimal "reference_price" false value
      .ok (some (qty * reference.1))

/-- `required_min`: the exchange minimum where it applies to this order type, or the business
minimum if that is larger. -/
def requiredMin (market : Bool) (business : Amount true) : ℚ :=
  max (if !market || rules.minNotionalMarket then rules.minNotional.1 else 0) business.1

/-- Does the maximum notional apply to this order type? -/
def maxApplies (market : Bool) : Bool :=
  0 < rules.maxNotional.1 ∧ (!market || rules.maxNotionalMarket)

/-- The notional part of `normalize`. -/
def checkNotional (order : Request) (notional : Option ℚ) : Except FilterError Unit := do
  let business ← decimal "business_min_notional" true order.businessMinNotional
  if 0 < rules.requiredMin order.market business ∧
      notional.all (· < rules.requiredMin order.market business) then
    .error (.belowMinimum notional (rules.requiredMin order.market business))
  else if rules.maxApplies order.market && notional.all (rules.maxNotional.1 < ·) then
    .error (.aboveMaximum notional rules.maxNotional.1)
  else .ok ()

/-- `BinanceOrderRules.normalize`. -/
def normalize (order : Request) : Except FilterError (ℚ × Option ℚ) := do
  let qty ← rules.normalizeQuantity order
  let price ← rules.normalizePrice order
  let notional ← notionalOf order qty price
  rules.checkNotional order notional
  .ok (qty, price)

/-! ## What a normalized order is -/

/-- Between the minimum and the maximum, where a maximum of zero is none. -/
def Within (x minimum maximum : ℚ) : Prop := minimum ≤ x ∧ (maximum ≠ 0 → x ≤ maximum)

instance (x minimum maximum : ℚ) : Decidable (Within x minimum maximum) :=
  inferInstanceAs (Decidable (_ ∧ _))

theorem outside_eq_false_iff {x minimum : ℚ} {maximum : Amount true} :
    outside x minimum maximum.1 = false ↔ 0 < x ∧ Within x minimum maximum.1 := by
  have hmax : maximum.1 ≠ 0 ↔ 0 < maximum.1 := maximum.2.1.lt_iff_ne'.symm
  unfold outside Within
  rw [hmax]
  simp only [decide_eq_false_iff_not, not_or, not_and, not_le, not_lt]

/-- `x` is the largest whole number of steps not above the positive value that `value` spells. -/
def Floored (step : ℚ) (value : Raw) (x : ℚ) : Prop :=
  ∃ v, value.finite = some v ∧ 0 < v ∧ IsGreatest {m | IsMultiple step m ∧ m ≤ v} x

theorem floored_iff {step : ℚ} (hstep : 0 < step) {value : Raw} {x : ℚ} :
    Floored step value x ↔ ∃ v, value.finite = some v ∧ 0 < v ∧ x = floorTo step v := by
  unfold Floored
  constructor
  · rintro ⟨v, hv, hpos, hx⟩
    exact ⟨v, hv, hpos, hx.unique (isGreatest_floorTo hstep v)⟩
  · rintro ⟨v, hv, hpos, rfl⟩
    exact ⟨v, hv, hpos, isGreatest_floorTo hstep v⟩

/-- The price an order is valued at. -/
def applicablePrice (order : Request) (p : Option ℚ) : Option ℚ :=
  if order.market then order.referencePrice.finite else p

/-- Does a notional limit with this market flag apply to the order type? -/
def applies (market flag : Bool) : Prop := market = false ∨ flag = true

/-- The order has a value, and it is one of `good`. -/
def Valued (order : Request) (q : ℚ) (p : Option ℚ) (good : ℚ → Prop) : Prop :=
  ∃ price, applicablePrice order p = some price ∧ good (q * price)

/-- **What the filters promise of a normalized order.** -/
structure Fits (order : Request) (q : ℚ) (p : Option ℚ) : Prop where
  quantity : Floored (rules.step order.market).1 order.quantity q
  quantity_pos : 0 < q
  quantity_within : Within q (rules.minimum order.market).1 (rules.maximum order.market).1
  market : order.market = true → p = none
  limit : order.market = false → ∃ x, p = some x ∧ Floored rules.tickSize.1 order.price x ∧
    0 < x ∧ Within x rules.minPrice.1 rules.maxPrice.1
  reference : order.market = true → order.referencePrice ≠ .nothing →
    ∃ r, order.referencePrice.finite = some r ∧ 0 < r
  exchange_min : applies order.market rules.minNotionalMarket → 0 < rules.minNotional.1 →
    Valued order q p (rules.minNotional.1 ≤ ·)
  business_min : ∃ b, order.businessMinNotional.finite = some b ∧ 0 ≤ b ∧
    (0 < b → Valued order q p (b ≤ ·))
  exchange_max : applies order.market rules.maxNotionalMarket → 0 < rules.maxNotional.1 →
    Valued order q p (· ≤ rules.maxNotional.1)

/-! ## `normalize` answers exactly what fits -/

section Answers

variable {rules} {order : Request} {q : ℚ} {p notional : Option ℚ}

theorem flooredWithin_ok_iff {name : String} {step : Amount false} {minimum maximum : Amount true}
    {refusal : ℚ → ℚ → ℚ → FilterError} {value : Raw} {x : ℚ} :
    flooredWithin name step minimum maximum refusal value = .ok x ↔
      Floored step.1 value x ∧ 0 < x ∧ Within x minimum.1 maximum.1 := by
  rw [floored_iff step.pos]
  unfold flooredWithin
  constructor
  · intro h
    obtain ⟨requested, hread, h⟩ := except_bind_ok.mp h
    rw [floorStep_eq step.pos requested.2.1] at h
    obtain ⟨y, hy, h⟩ := except_bind_ok.mp h
    cases hy
    split at h
    · cases h
    · rename_i hout
      cases h
      have hin := outside_eq_false_iff.mp (Bool.eq_false_iff.mpr hout)
      exact ⟨⟨requested.1, decimal_ok_iff.mp hread, requested.pos, rfl⟩, hin⟩
  · rintro ⟨⟨v, hread, hpos, rfl⟩, hin⟩
    have hdec : decimal name false value = .ok ⟨v, hpos.le, fun h => absurd h hpos.ne'⟩ :=
      decimal_ok_iff.mpr hread
    refine except_bind_ok.mpr ⟨_, hdec, except_bind_ok.mpr ⟨_, floorStep_eq step.pos hpos.le, ?_⟩⟩
    rw [outside_eq_false_iff.mpr hin]
    rfl

theorem normalizeQuantity_ok_iff :
    rules.normalizeQuantity order = .ok q ↔
      Floored (rules.step order.market).1 order.quantity q ∧ 0 < q ∧
        Within q (rules.minimum order.market).1 (rules.maximum order.market).1 :=
  flooredWithin_ok_iff

theorem normalizePrice_ok_iff :
    rules.normalizePrice order = .ok p ↔
      (order.market = true → p = none) ∧
      (order.market = false → ∃ x, p = some x ∧ Floored rules.tickSize.1 order.price x ∧
        0 < x ∧ Within x rules.minPrice.1 rules.maxPrice.1) := by
  unfold normalizePrice
  cases hmarket : order.market with
  | true => simp [eq_comm]
  | false =>
      simp only [Bool.false_eq_true, if_false, except_bind_ok, flooredWithin_ok_iff, false_implies,
        true_and, forall_const, Except.ok.injEq]
      constructor
      · rintro ⟨x, hx, rfl⟩
        exact ⟨x, rfl, hx⟩
      · rintro ⟨x, rfl, hx⟩
        exact ⟨x, hx, rfl⟩

/-- The notional is absent only when a market order gives no reference price. -/
theorem notionalOf_ok_iff (hprice : order.market = false → ∃ x, p = some x ∧ 0 < x) :
    notionalOf order q p = .ok notional ↔
      (order.market = true → order.referencePrice ≠ .nothing →
        ∃ r, order.referencePrice.finite = some r ∧ 0 < r) ∧
      notional = (applicablePrice order p).map (q * ·) := by
  unfold notionalOf notionalPrice applicablePrice
  cases hmarket : order.market with
  | false =>
      obtain ⟨x, rfl, hx⟩ := hprice hmarket
      have hdec : decimal "reference_price" false (.number x) =
          .ok ⟨x, hx.le, fun h => absurd h hx.ne'⟩ := decimal_ok_iff.mpr rfl
      simp only [Bool.false_eq_true, if_false, hdec, except_bind_ok, false_implies, true_and]
      simp [eq_comm]
  | true =>
      simp only [if_true, true_implies]
      split
      · rename_i hnone
        simp [hnone, Raw.finite, eq_comm]
      · rename_i value hsome
        rw [except_bind_ok]
        constructor
        · rintro ⟨reference, hread, h⟩
          have hfinite := decimal_ok_iff.mp hread
          cases h
          exact ⟨fun _ => ⟨_, hfinite, reference.pos⟩, by simp [hfinite]⟩
        · rintro ⟨hread, rfl⟩
          obtain ⟨r, hfinite, hr⟩ := hread hsome
          refine ⟨⟨r, hr.le, fun h => absurd h hr.ne'⟩, decimal_ok_iff.mpr hfinite, ?_⟩
          simp [hfinite]

/-- A notional that is not refused exists and is not on the wrong side. -/
theorem not_all_iff {wrong : ℚ → Bool} :
    ¬ (notional.all wrong = true) ↔ ∃ n, notional = some n ∧ wrong n = false := by
  cases notional with
  | none => simp
  | some n => simp

theorem valued_iff {good : ℚ → Prop} :
    Valued order q p good ↔
      ∃ n, (applicablePrice order p).map (q * ·) = some n ∧ good n := by
  unfold Valued
  constructor
  · rintro ⟨price, hprice, hgood⟩
    exact ⟨q * price, by simp [hprice], hgood⟩
  · rintro ⟨n, hn, hgood⟩
    obtain ⟨price, hprice, rfl⟩ := Option.map_eq_some_iff.mp hn
    exact ⟨price, hprice, hgood⟩

/-- The required minimum splits into the exchange minimum and the business minimum. -/
theorem requiredMin_iff {business : Amount true} {P : ℚ → Prop}
    (hP : ∀ a b, P (max a b) ↔ P a ∧ P b) (hzero : P 0) :
    P (rules.requiredMin order.market business) ↔
      (applies order.market rules.minNotionalMarket → P rules.minNotional.1) ∧ P business.1 := by
  unfold requiredMin applies
  rw [hP]
  split
  · rename_i h
    simp only [Bool.or_eq_true, Bool.not_eq_true'] at h
    simp [h]
  · rename_i h
    simp only [Bool.or_eq_true, Bool.not_eq_true', not_or] at h
    simp [h, hzero]

theorem checkNotional_ok_iff
    (hnotional : notional = (applicablePrice order p).map (q * ·)) :
    rules.checkNotional order notional = .ok () ↔
      (applies order.market rules.minNotionalMarket → 0 < rules.minNotional.1 →
        Valued order q p (rules.minNotional.1 ≤ ·)) ∧
      (∃ b, order.businessMinNotional.finite = some b ∧ 0 ≤ b ∧
        (0 < b → Valued order q p (b ≤ ·))) ∧
      (applies order.market rules.maxNotionalMarket → 0 < rules.maxNotional.1 →
        Valued order q p (· ≤ rules.maxNotional.1)) := by
  -- the lower bound is the greater of the exchange and the business minimum
  have hmin : ∀ business : Amount true,
      ¬ (0 < rules.requiredMin order.market business ∧
        notional.all (· < rules.requiredMin order.market business) = true) ↔
      (applies order.market rules.minNotionalMarket → 0 < rules.minNotional.1 →
        Valued order q p (rules.minNotional.1 ≤ ·)) ∧
      (0 < business.1 → Valued order q p (business.1 ≤ ·)) := by
    intro business
    rw [not_and, not_all_iff, hnotional]
    simp only [decide_eq_false_iff_not, not_lt]
    simp only [valued_iff]
    refine requiredMin_iff (P := fun m => 0 < m → ∃ n, (applicablePrice order p).map (q * ·) =
      some n ∧ m ≤ n) (fun a b => ?_) (fun h => absurd h (lt_irrefl 0))
    constructor
    · intro h
      constructor
      · intro ha
        obtain ⟨n, hn, hle⟩ := h (lt_max_of_lt_left ha)
        exact ⟨n, hn, (le_max_left a b).trans hle⟩
      · intro hb
        obtain ⟨n, hn, hle⟩ := h (lt_max_of_lt_right hb)
        exact ⟨n, hn, (le_max_right a b).trans hle⟩
    · rintro ⟨ha, hb⟩ hpos
      rcases max_choice a b with heq | heq
      · rw [heq] at hpos ⊢
        exact ha hpos
      · rw [heq] at hpos ⊢
        exact hb hpos
  -- the upper bound is the exchange alone
  have hmax : ¬ ((rules.maxApplies order.market && notional.all (rules.maxNotional.1 < ·)) = true) ↔
      (applies order.market rules.maxNotionalMarket → 0 < rules.maxNotional.1 →
        Valued order q p (· ≤ rules.maxNotional.1)) := by
    rw [Bool.and_eq_true, not_and, not_all_iff, hnotional, valued_iff]
    unfold maxApplies applies
    simp only [decide_eq_true_eq, Bool.or_eq_true, Bool.not_eq_true', decide_eq_false_iff_not,
      not_lt]
    constructor
    · intro h happlies hpos
      exact h ⟨hpos, happlies⟩
    · rintro h ⟨hpos, happlies⟩
      exact h happlies hpos
  unfold checkNotional
  rw [except_bind_ok]
  constructor
  · rintro ⟨business, hread, h⟩
    split at h
    · cases h
    · rename_i hlow
      split at h
      · cases h
      · rename_i hhigh
        obtain ⟨hexchange, hbusiness⟩ := (hmin business).mp hlow
        exact ⟨hexchange, ⟨business.1, decimal_ok_iff.mp hread, business.2.1, hbusiness⟩,
          hmax.mp hhigh⟩
  · rintro ⟨hexchange, ⟨b, hread, hb, hbusiness⟩, hhigh⟩
    refine ⟨⟨b, hb, fun _ => rfl⟩, decimal_ok_iff.mpr hread, ?_⟩
    rw [if_neg ((hmin ⟨b, hb, fun _ => rfl⟩).mpr ⟨hexchange, hbusiness⟩), if_neg (hmax.mpr hhigh)]

/-- **`normalize` answers `(q, p)` exactly when `(q, p)` fits.** -/
theorem normalize_ok_iff : rules.normalize order = .ok (q, p) ↔ rules.Fits order q p := by
  unfold normalize
  constructor
  · intro h
    obtain ⟨q', hq, h⟩ := except_bind_ok.mp h
    obtain ⟨p', hp, h⟩ := except_bind_ok.mp h
    obtain ⟨notional, hn, h⟩ := except_bind_ok.mp h
    obtain ⟨u, hcheck, h⟩ := except_bind_ok.mp h
    cases h
    obtain ⟨hfloor, hpos, hin⟩ := normalizeQuantity_ok_iff.mp hq
    obtain ⟨hmarket, hlimit⟩ := normalizePrice_ok_iff.mp hp
    have hprice : order.market = false → ∃ x, p = some x ∧ 0 < x := by
      intro h
      obtain ⟨x, hx, -, hxpos, -⟩ := hlimit h
      exact ⟨x, hx, hxpos⟩
    obtain ⟨hreference, hnotional⟩ := (notionalOf_ok_iff hprice).mp hn
    obtain ⟨hmin, hbusiness, hmax⟩ := (checkNotional_ok_iff hnotional).mp hcheck
    exact ⟨hfloor, hpos, hin, hmarket, hlimit, hreference, hmin, hbusiness, hmax⟩
  · intro h
    have hprice : order.market = false → ∃ x, p = some x ∧ 0 < x := by
      intro hlimit
      obtain ⟨x, hx, -, hxpos, -⟩ := h.limit hlimit
      exact ⟨x, hx, hxpos⟩
    refine except_bind_ok.mpr ⟨q, normalizeQuantity_ok_iff.mpr
      ⟨h.quantity, h.quantity_pos, h.quantity_within⟩, ?_⟩
    refine except_bind_ok.mpr ⟨p, normalizePrice_ok_iff.mpr ⟨h.market, h.limit⟩, ?_⟩
    refine except_bind_ok.mpr ⟨_, (notionalOf_ok_iff hprice).mpr ⟨h.reference, rfl⟩, ?_⟩
    exact except_bind_ok.mpr ⟨(), (checkNotional_ok_iff rfl).mpr
      ⟨h.exchange_min, h.business_min, h.exchange_max⟩, rfl⟩

end Answers

/-! ## What is refused -/

theorem Floored.unique {step x y : ℚ} {value : Raw} (hx : Floored step value x)
    (hy : Floored step value y) : x = y := by
  obtain ⟨v, hv, -, hgreatest⟩ := hx
  obtain ⟨v', hv', -, hgreatest'⟩ := hy
  have heq : v = v' := Option.some.inj (hv.symm.trans hv')
  subst heq
  exact hgreatest.unique hgreatest'

theorem Floored.nonneg {step x : ℚ} {value : Raw} (h : Floored step value x) : 0 ≤ x := by
  obtain ⟨v, -, hpos, hgreatest⟩ := h
  exact hgreatest.2 ⟨isMultiple_zero step, hpos.le⟩

/-- A value that is not refused as an input has a floor. -/
theorem exists_floored {step : ℚ} (hstep : 0 < step) {value : Raw}
    (h : ¬ ∀ v, value.finite = some v → v ≤ 0) : ∃ x, Floored step value x := by
  push Not at h
  obtain ⟨v, hv, hpos⟩ := h
  exact ⟨floorTo step v, v, hv, hpos, isGreatest_floorTo hstep v⟩

/-- The price after flooring; a market order has none. -/
def FlooredPrice (order : Request) (p : Option ℚ) : Prop :=
  (order.market = true → p = none) ∧
    (order.market = false → ∃ x, p = some x ∧ Floored rules.tickSize.1 order.price x)

/-- **What an order can be refused for.** An input the order needs is not a positive number, a
floored value is zero or outside its bounds, or a notional limit that applies is not met, be it
because a market order gives no price to value it at. -/
inductive Violated (order : Request) : Prop where
  | quantityInput (h : ∀ v, order.quantity.finite = some v → v ≤ 0)
  | quantity {q : ℚ} (h : Floored (rules.step order.market).1 order.quantity q)
      (hout : q = 0 ∨ ¬ Within q (rules.minimum order.market).1 (rules.maximum order.market).1)
  | priceInput (hlimit : order.market = false) (h : ∀ v, order.price.finite = some v → v ≤ 0)
  | price (hlimit : order.market = false) {x : ℚ} (h : Floored rules.tickSize.1 order.price x)
      (hout : x = 0 ∨ ¬ Within x rules.minPrice.1 rules.maxPrice.1)
  | referenceInput (hmarket : order.market = true) (hgiven : order.referencePrice ≠ .nothing)
      (h : ∀ v, order.referencePrice.finite = some v → v ≤ 0)
  | businessInput (h : ∀ v, order.businessMinNotional.finite = some v → v < 0)
  | exchangeMin {q : ℚ} {p : Option ℚ}
      (hq : Floored (rules.step order.market).1 order.quantity q) (hp : rules.FlooredPrice order p)
      (happlies : applies order.market rules.minNotionalMarket) (hpos : 0 < rules.minNotional.1)
      (h : ¬ Valued order q p (rules.minNotional.1 ≤ ·))
  | businessMin {q b : ℚ} {p : Option ℚ}
      (hq : Floored (rules.step order.market).1 order.quantity q) (hp : rules.FlooredPrice order p)
      (hb : order.businessMinNotional.finite = some b) (hpos : 0 < b)
      (h : ¬ Valued order q p (b ≤ ·))
  | exchangeMax {q : ℚ} {p : Option ℚ}
      (hq : Floored (rules.step order.market).1 order.quantity q) (hp : rules.FlooredPrice order p)
      (happlies : applies order.market rules.maxNotionalMarket) (hpos : 0 < rules.maxNotional.1)
      (h : ¬ Valued order q p (· ≤ rules.maxNotional.1))

section Refusals

variable {rules} {order : Request} {q : ℚ} {p : Option ℚ}

theorem Fits.flooredPrice (h : rules.Fits order q p) : rules.FlooredPrice order p := by
  refine ⟨h.market, fun hlimit => ?_⟩
  obtain ⟨x, hx, hfloor, -⟩ := h.limit hlimit
  exact ⟨x, hx, hfloor⟩

theorem FlooredPrice.unique {p' : Option ℚ} (h : rules.FlooredPrice order p)
    (h' : rules.FlooredPrice order p') : p = p' := by
  cases hmarket : order.market with
  | true => rw [h.1 hmarket, h'.1 hmarket]
  | false =>
      obtain ⟨x, rfl, hx⟩ := h.2 hmarket
      obtain ⟨x', rfl, hx'⟩ := h'.2 hmarket
      rw [hx.unique hx']

/-- What fits violates nothing. -/
theorem Fits.not_violated (h : rules.Fits order q p) : ¬ rules.Violated order := by
  intro hviolated
  cases hviolated with
  | quantityInput hbad =>
      obtain ⟨v, hv, hpos, -⟩ := h.quantity
      exact absurd (hbad v hv) (not_le.mpr hpos)
  | quantity hq hout =>
      rw [← h.quantity.unique hq] at hout
      rcases hout with hzero | hout
      · exact h.quantity_pos.ne' hzero
      · exact hout h.quantity_within
  | priceInput hlimit hbad =>
      obtain ⟨x, -, ⟨v, hv, hpos, -⟩, -⟩ := h.limit hlimit
      exact absurd (hbad v hv) (not_le.mpr hpos)
  | price hlimit hx hout =>
      obtain ⟨x', -, hfloor, hpos, hin⟩ := h.limit hlimit
      rw [← hfloor.unique hx] at hout
      rcases hout with hzero | hout
      · exact hpos.ne' hzero
      · exact hout hin
  | referenceInput hmarket hgiven hbad =>
      obtain ⟨r, hr, hpos⟩ := h.reference hmarket hgiven
      exact absurd (hbad r hr) (not_le.mpr hpos)
  | businessInput hbad =>
      obtain ⟨b, hb, hnonneg, -⟩ := h.business_min
      exact absurd (hbad b hb) (not_lt.mpr hnonneg)
  | exchangeMin hq hp happlies hpos hbad =>
      rw [← h.quantity.unique hq, ← h.flooredPrice.unique hp] at hbad
      exact hbad (h.exchange_min happlies hpos)
  | businessMin hq hp hb hpos hbad =>
      rw [← h.quantity.unique hq, ← h.flooredPrice.unique hp] at hbad
      obtain ⟨b', hb', -, hgood⟩ := h.business_min
      rw [Option.some.inj (hb.symm.trans hb')] at hpos hbad
      exact hbad (hgood hpos)
  | exchangeMax hq hp happlies hpos hbad =>
      rw [← h.quantity.unique hq, ← h.flooredPrice.unique hp] at hbad
      exact hbad (h.exchange_max happlies hpos)

/-- A floored value that is neither zero nor outside its bounds is a good one. -/
theorem Floored.good {step x minimum maximum : ℚ} {value : Raw} (h : Floored step value x)
    (hin : ¬ (x = 0 ∨ ¬ Within x minimum maximum)) : 0 < x ∧ Within x minimum maximum := by
  push Not at hin
  exact ⟨lt_of_le_of_ne h.nonneg (Ne.symm hin.1), hin.2⟩

/-- When nothing is violated, some answer fits. -/
theorem exists_fits (h : ¬ rules.Violated order) : ∃ q p, rules.Fits order q p := by
  obtain ⟨q, hq⟩ := exists_floored (rules.step order.market).pos (fun hbad => h (.quantityInput hbad))
  obtain ⟨hqpos, hqin⟩ := hq.good (fun hout => h (.quantity hq hout))
  -- the price: none for a market order, the floor for a limit order
  have hprice : ∃ p, rules.FlooredPrice order p ∧ (order.market = false →
      ∃ x, p = some x ∧ Floored rules.tickSize.1 order.price x ∧ 0 < x ∧
        Within x rules.minPrice.1 rules.maxPrice.1) := by
    cases hmarket : order.market with
    | true => exact ⟨none, ⟨fun _ => rfl, fun hlimit => by simp [hmarket] at hlimit⟩, by simp⟩
    | false =>
        obtain ⟨x, hx⟩ := exists_floored rules.tickSize.pos (fun hbad => h (.priceInput hmarket hbad))
        have hgood := hx.good (fun hout => h (.price hmarket hx hout))
        exact ⟨some x, ⟨fun hm => by simp [hmarket] at hm, fun _ => ⟨x, rfl, hx⟩⟩,
          fun _ => ⟨x, rfl, hx, hgood⟩⟩
  obtain ⟨p, hp, hlimit⟩ := hprice
  have hreference : order.market = true → order.referencePrice ≠ .nothing →
      ∃ r, order.referencePrice.finite = some r ∧ 0 < r := by
    intro hmarket hgiven
    by_contra hnone
    push Not at hnone
    exact h (.referenceInput hmarket hgiven hnone)
  have hbusiness : ∃ b, order.businessMinNotional.finite = some b ∧ 0 ≤ b := by
    by_contra hnone
    push Not at hnone
    exact h (.businessInput hnone)
  obtain ⟨b, hb, hnonneg⟩ := hbusiness
  refine ⟨q, p, hq, hqpos, hqin, hp.1, hlimit, hreference, ?_, ⟨b, hb, hnonneg, ?_⟩, ?_⟩
  · intro happlies hpos
    by_contra hbad
    exact h (.exchangeMin hq hp happlies hpos hbad)
  · intro hpos
    by_contra hbad
    exact h (.businessMin hq hp hb hpos hbad)
  · intro happlies hpos
    by_contra hbad
    exact h (.exchangeMax hq hp happlies hpos hbad)

theorem refused_iff : (∃ e, rules.normalize order = .error e) ↔ rules.Violated order := by
  constructor
  · rintro ⟨e, he⟩
    by_contra hno
    obtain ⟨q, p, hfits⟩ := exists_fits hno
    rw [normalize_ok_iff.mpr hfits] at he
    cases he
  · intro hviolated
    cases hanswer : rules.normalize order with
    | error e => exact ⟨e, rfl⟩
    | ok answer => exact absurd hviolated (normalize_ok_iff.mp hanswer).not_violated

/-! ## Normalizing twice -/

/-- A floored value is its own floor. -/
theorem Floored.again {step x : ℚ} {value : Raw} (h : Floored step value x) (hpos : 0 < x) :
    Floored step (.number x) x := by
  obtain ⟨v, -, -, hgreatest⟩ := h
  refine ⟨x, rfl, hpos, ⟨hgreatest.1.1, le_rfl⟩, ?_⟩
  rintro m ⟨-, hm⟩
  exact hm

theorem Fits.normalized (h : rules.Fits order q p) : rules.Fits (order.normalized q p) q p := by
  have hvalued : ∀ good, Valued order q p good → Valued (order.normalized q p) q p good :=
    fun _ hgood => hgood
  refine ⟨h.quantity.again h.quantity_pos, h.quantity_pos,
    h.quantity_within, h.market, fun hlimit => ?_, h.reference,
    fun happlies hpos => hvalued _ (h.exchange_min happlies hpos), ?_,
    fun happlies hpos => hvalued _ (h.exchange_max happlies hpos)⟩
  · obtain ⟨x, rfl, hfloor, hpos, hin⟩ := h.limit hlimit
    exact ⟨x, rfl, hfloor.again hpos, hpos, hin⟩
  · obtain ⟨b, hb, hnonneg, hgood⟩ := h.business_min
    exact ⟨b, hb, hnonneg, fun hpos => hvalued _ (hgood hpos)⟩

/-- **Normalization is sound, idempotent, and refuses exactly the violations.** An answer is the
floored order and within every bound and limit that applies; asked again with that answer,
`normalize` gives the same one; and it raises exactly when the order violates something. -/
theorem normalize_sound (rules : BinanceOrderRules) (order : Request) :
    (∀ q p, rules.normalize order = .ok (q, p) →
      rules.Fits order q p ∧ rules.normalize (order.normalized q p) = .ok (q, p)) ∧
    ((∃ e, rules.normalize order = .error e) ↔ rules.Violated order) := by
  refine ⟨fun q p h => ?_, refused_iff⟩
  have hfits := normalize_ok_iff.mp h
  exact ⟨hfits, normalize_ok_iff.mpr hfits.normalized⟩

end Refusals

end BinanceOrderRules

open BinanceOrderRules

/-! ## An order that no bound refuses

The metadata below is that of a symbol whose minimum notional also holds for market orders. -/

/-- A numeric text of the exchange. -/
def numeral (s : String) (q : ℚ) : Raw := .text s (some q)

def word (s : String) : Raw := .text s none

def sampleInfo : SymbolInfo where
  filters := [
    some ⟨[("filterType", word "PRICE_FILTER"), ("tickSize", numeral "0.01" (1 / 100)),
      ("minPrice", numeral "0.01" (1 / 100)), ("maxPrice", numeral "1000000" 1000000)]⟩,
    some ⟨[("filterType", word "LOT_SIZE"), ("stepSize", numeral "0.001" (1 / 1000)),
      ("minQty", numeral "0" 0), ("maxQty", numeral "9000" 9000)]⟩,
    some ⟨[("filterType", word "NOTIONAL"), ("minNotional", numeral "5" 5),
      ("applyMinToMarket", .flag true)]⟩]
  baseAsset := some "BTC"
  quoteAsset := some "USDC"

/-- The rules read from `sampleInfo`. -/
def sampleRules : BinanceOrderRules where
  tickSize := ⟨1 / 100, by norm_num⟩
  minPrice := ⟨1 / 100, by norm_num⟩
  maxPrice := ⟨1000000, by norm_num⟩
  lotStep := ⟨1 / 1000, by norm_num⟩
  lotMin := .zero
  lotMax := ⟨9000, by norm_num⟩
  marketStep := ⟨1 / 1000, by norm_num⟩
  marketMin := .zero
  marketMax := ⟨9000, by norm_num⟩
  minNotional := ⟨5, by norm_num⟩
  maxNotional := .zero
  minNotionalMarket := true
  maxNotionalMarket := false
  baseAsset := "BTC"
  quoteAsset := "USDC"

/-- BUY 0.0123456 at 1000.009, which becomes 0.012 at 1000. -/
def sampleOrder : Request where
  quantity := .number (123456 / 10000000)
  price := .number (1000009 / 1000)

/-- A limit order above the minimum notional after flooring. -/
theorem sample_order_normalized :
    BinanceOrderRules.fromSymbolInfo (some sampleInfo) = .ok sampleRules ∧
    sampleRules.Fits sampleOrder (12 / 1000) (some 1000) ∧
    sampleRules.normalize (sampleOrder.normalized (12 / 1000) (some 1000)) =
      .ok (12 / 1000, some 1000) := by
  have hanswer : sampleRules.normalize sampleOrder = .ok (12 / 1000, some 1000) := by
    decide +kernel
  have hsound := (BinanceOrderRules.normalize_sound sampleRules sampleOrder).1 _ _ hanswer
  exact ⟨by decide +kernel, hsound.1, hsound.2⟩

/-- A floored value leaves its declared bounds, or the value of the floored order leaves a
notional limit that applies. -/
def BinanceOrderRules.BoundViolated (rules : BinanceOrderRules) (order : Request) : Prop :=
  (∃ q, Floored (rules.step order.market).1 order.quantity q ∧
    ¬ Within q (rules.minimum order.market).1 (rules.maximum order.market).1) ∨
  (order.market = false ∧ ∃ x, Floored rules.tickSize.1 order.price x ∧
    ¬ Within x rules.minPrice.1 rules.maxPrice.1) ∨
  (∃ q p price, Floored (rules.step order.market).1 order.quantity q ∧ rules.FlooredPrice order p ∧
    applicablePrice order p = some price ∧
    ((applies order.market rules.minNotionalMarket ∧ q * price < rules.minNotional.1) ∨
      (∃ b, order.businessMinNotional.finite = some b ∧ q * price < b) ∨
      (applies order.market rules.maxNotionalMarket ∧ 0 < rules.maxNotional.1 ∧
        rules.maxNotional.1 < q * price)))

/-- A market order of 1 without a reference price. -/
def unvaluedOrder : Request := { quantity := .number 1, market := true }

/-- **A refusal without a violated bound.** A market order that gives no reference price is
refused under a minimum notional, although there is no value to compare. -/
theorem unvalued_market_order_refused :
    ¬ ∀ (info : Option SymbolInfo) (rules : BinanceOrderRules) (order : Request),
      BinanceOrderRules.fromSymbolInfo info = .ok rules →
      ((∃ e, rules.normalize order = .error e) ↔ rules.BoundViolated order) := by
  intro hall
  have hrefused : sampleRules.normalize unvaluedOrder = .error (.belowMinimum none 5) := by
    decide +kernel
  have hviolated := (hall (some sampleInfo) sampleRules unvaluedOrder (by decide +kernel)).mp
    ⟨_, hrefused⟩
  have hone : Floored (1 / 1000) (.number 1) 1 := by
    refine ⟨1, rfl, one_pos, ⟨⟨1000, by norm_num⟩, le_rfl⟩, ?_⟩
    rintro m ⟨-, hm⟩
    exact hm
  rcases hviolated with ⟨q, hq, hout⟩ | ⟨hlimit, -⟩ | ⟨q, p, price, -, -, hprice, -⟩
  · rw [show q = 1 from hq.unique hone] at hout
    exact hout (by decide +kernel)
  · cases hlimit
  · cases hprice

end TradingFleet.Orders
