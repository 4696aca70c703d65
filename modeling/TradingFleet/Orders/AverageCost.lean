import Mathlib.Data.List.Induction
import Mathlib.Tactic.FieldSimp
import TradingFleet.Orders.Filters
import TradingFleet.Pair.Types

set_option autoImplicit false

/-! # The average cost of what is still held

`remaining_average_cost` of `quantity.py` walks the fills of one asset in order. A BUY adds its
quantity and its cost, a SELL releases cost in proportion to the quantity it takes out. `Book` is
the state of that loop, `inventory` the bare recursion without any check. A list of fills is a
`Chronicle` when the loop gets through it, so the answer is the average of the inventory of a
chronicle, and everything said about the answer is an induction over chronicles.
-/

namespace TradingFleet.Orders

open Pair (Side)

/-! ## Fills -/

/-- One row of `fills`: the text of `row["id"]`, `row["side"]` and the numbers, each absent when
its key is. -/
structure FillRow where
  id : Option String
  side : Option String
  timestamp : Option Raw
  qty : Option Raw
  price : Option Raw
  baseFee : Option Raw
  quoteFee : Option Raw

/-- A row that passes every check made on the row alone. -/
structure Fill where
  id : String
  side : Side
  timestamp : ℚ
  qty : ℚ
  price : ℚ
  baseFee : ℚ
  quoteFee : ℚ
  id_ne : id ≠ ""
  timestamp_pos : 0 < timestamp
  qty_pos : 0 < qty
  price_pos : 0 < price
  baseFee_nonneg : 0 ≤ baseFee
  quoteFee_nonneg : 0 ≤ quoteFee
  buy_fee : side = .buy → baseFee < qty

/-- `row["side"]`, one of `"BUY"` and `"SELL"`. -/
def readSide : Option String → Option Side
  | some "BUY" => some .buy
  | some "SELL" => some .sell
  | _ => none

/-- The checks on one row. All of them end in `None`, so their order does not matter. -/
def FillRow.read (row : FillRow) : Option Fill := do
  let timestamp ← row.timestamp.bind Raw.finite
  let qty ← row.qty.bind Raw.finite
  let price ← row.price.bind Raw.finite
  let baseFee ← row.baseFee.bind Raw.finite
  let quoteFee ← row.quoteFee.bind Raw.finite
  let id ← row.id
  let side ← readSide row.side
  if h : id ≠ "" ∧ 0 < timestamp ∧ 0 < qty ∧ 0 < price ∧ 0 ≤ baseFee ∧ 0 ≤ quoteFee ∧
      (side = .buy → baseFee < qty) then
    some ⟨id, side, timestamp, qty, price, baseFee, quoteFee, h.1, h.2.1, h.2.2.1, h.2.2.2.1,
      h.2.2.2.2.1, h.2.2.2.2.2.1, h.2.2.2.2.2.2⟩
  else none

/-- What a BUY adds to the inventory. -/
def Fill.added (f : Fill) : ℚ := f.qty - f.baseFee

/-- What a SELL takes out of it. -/
def Fill.removed (f : Fill) : ℚ := f.qty + f.baseFee

theorem Fill.added_pos {f : Fill} (h : f.side = .buy) : 0 < f.added :=
  sub_pos.mpr (f.buy_fee h)

/-! ## The function -/

/-- `1e-8`. -/
def tolerance : ℚ := 1 / 10 ^ 8

/-- `math.isclose(a, b, rel_tol=1e-9, abs_tol=1e-8)`. -/
def isClose (a b : ℚ) : Prop := |a - b| ≤ max (1 / 10 ^ 9 * max |a| |b|) tolerance

instance (a b : ℚ) : Decidable (isClose a b) := inferInstanceAs (Decidable (_ ≤ _))

/-- The variables of the loop. -/
structure Book where
  qty : ℚ
  cost : ℚ
  lastTs : ℚ
  seen : List String

def Book.empty : Book := ⟨0, 0, 0, []⟩

/-- One turn of the loop. -/
def Book.step (b : Book) (row : FillRow) : Option Book := do
  let f ← row.read
  if f.id ∈ b.seen ∨ f.timestamp < b.lastTs then none
  else
    match f.side with
    | .buy => some ⟨b.qty + f.added, b.cost + (f.qty * f.price + f.quoteFee), f.timestamp,
        f.id :: b.seen⟩
    | .sell =>
        if b.qty ≤ 0 ∨ b.qty + tolerance < f.removed then none
        else
          let remaining := max 0 (b.qty - f.removed)
          some ⟨remaining, b.cost * (remaining / b.qty), f.timestamp, f.id :: b.seen⟩

/-- `remaining_average_cost`. -/
def remainingAverageCost (fills : List FillRow) (heldQty : Raw) : Option ℚ := do
  let held ← heldQty.finite
  if held ≤ 0 then none
  else
    let book ← fills.foldlM Book.step Book.empty
    if book.qty ≤ 0 ∨ ¬ isClose book.qty held then none
    else if 0 < book.cost / book.qty then some (book.cost / book.qty)
    else none

/-! ## The inventory -/

/-- A quantity and what it cost. -/
structure Inventory where
  qty : ℚ
  cost : ℚ

/-- The recursion with proportional release. -/
def Inventory.apply (i : Inventory) (f : Fill) : Inventory :=
  match f.side with
  | .buy => ⟨i.qty + f.added, i.cost + (f.qty * f.price + f.quoteFee)⟩
  | .sell => ⟨max 0 (i.qty - f.removed), i.cost * (max 0 (i.qty - f.removed) / i.qty)⟩

def inventory (fills : List Fill) : Inventory := fills.foldl Inventory.apply ⟨0, 0⟩

/-- The cost of one unit. -/
def Inventory.average (i : Inventory) : ℚ := i.cost / i.qty

@[simp] theorem inventory_nil : inventory [] = ⟨0, 0⟩ := rfl

@[simp] theorem inventory_concat (fills : List Fill) (f : Fill) :
    inventory (fills ++ [f]) = (inventory fills).apply f := by
  simp [inventory]

theorem Inventory.apply_buy {i : Inventory} {f : Fill} (h : f.side = .buy) :
    i.apply f = ⟨i.qty + f.added, i.cost + (f.qty * f.price + f.quoteFee)⟩ := by
  unfold Inventory.apply
  rw [h]

theorem Inventory.apply_sell {i : Inventory} {f : Fill} (h : f.side = .sell) :
    i.apply f =
      ⟨max 0 (i.qty - f.removed), i.cost * (max 0 (i.qty - f.removed) / i.qty)⟩ := by
  unfold Inventory.apply
  rw [h]

theorem inventory_qty_nonneg (fills : List Fill) : 0 ≤ (inventory fills).qty := by
  induction fills using List.reverseRecOn with
  | nil => simp
  | append_singleton fills f ih =>
      rw [inventory_concat]
      cases hside : f.side with
      | buy =>
          rw [Inventory.apply_buy hside]
          exact add_nonneg ih (Fill.added_pos hside).le
      | sell =>
          rw [Inventory.apply_sell hside]
          exact le_max_left _ _

/-- An empty inventory has cost nothing: the release of a whole inventory releases its cost. -/
theorem inventory_eq_zero {fills : List Fill} (h : (inventory fills).qty = 0) :
    inventory fills = ⟨0, 0⟩ := by
  induction fills using List.reverseRecOn with
  | nil => rfl
  | append_singleton fills f _ =>
      rw [inventory_concat] at h ⊢
      cases hside : f.side with
      | buy =>
          rw [Inventory.apply_buy hside] at h
          have hadded := Fill.added_pos hside
          have hqty := inventory_qty_nonneg fills
          simp only at h
          linarith
      | sell =>
          rw [Inventory.apply_sell hside] at h ⊢
          simp only at h
          rw [h]
          simp

/-- After a point with an empty inventory the recursion starts again. -/
theorem inventory_append {old recent : List Fill} (h : (inventory old).qty = 0) :
    inventory (old ++ recent) = inventory recent := by
  have hold : old.foldl Inventory.apply ⟨0, 0⟩ = ⟨0, 0⟩ := inventory_eq_zero h
  unfold inventory
  rw [List.foldl_append, hold]

/-- **A SELL that leaves something keeps the average.** -/
theorem average_sell {i : Inventory} {f : Fill} (hside : f.side = .sell) (hqty : 0 < i.qty)
    (hleft : 0 < (i.apply f).qty) : (i.apply f).average = i.average := by
  rw [Inventory.apply_sell hside] at hleft ⊢
  have hne : max 0 (i.qty - f.removed) ≠ 0 := hleft.ne'
  unfold Inventory.average
  field_simp

/-! ## Chronicles -/

/-- The time of the last fill, `0` before the first. -/
def lastTime (fills : List Fill) : ℚ := (fills.getLast?.map Fill.timestamp).getD 0

@[simp] theorem lastTime_concat (fills : List Fill) (f : Fill) :
    lastTime (fills ++ [f]) = f.timestamp := by
  simp [lastTime]

/-- A SELL is covered by the inventory, up to the tolerance. -/
def Covered (i : Inventory) (f : Fill) : Prop :=
  f.side = .sell → 0 < i.qty ∧ f.removed ≤ i.qty + tolerance

/-- The lists of fills the loop gets through. -/
inductive Chronicle : List Fill → Prop where
  | nil : Chronicle []
  | concat {fills : List Fill} {f : Fill} (h : Chronicle fills) (hid : f.id ∉ fills.map Fill.id)
      (htime : lastTime fills ≤ f.timestamp) (hcovered : Covered (inventory fills) f) :
      Chronicle (fills ++ [f])

theorem chronicle_concat_iff {fills : List Fill} {f : Fill} :
    Chronicle (fills ++ [f]) ↔ Chronicle fills ∧ f.id ∉ fills.map Fill.id ∧
      lastTime fills ≤ f.timestamp ∧ Covered (inventory fills) f := by
  constructor
  · intro h
    generalize hlist : fills ++ [f] = l at h
    cases h with
    | nil => simp at hlist
    | concat h hid htime hcovered =>
        obtain ⟨rfl, hlast⟩ := List.append_inj' hlist rfl
        cases hlast
        exact ⟨h, hid, htime, hcovered⟩
  · rintro ⟨h, hid, htime, hcovered⟩
    exact .concat h hid htime hcovered

/-- The book after a list of fills. -/
def Book.of (fills : List Fill) : Book :=
  ⟨(inventory fills).qty, (inventory fills).cost, lastTime fills, (fills.map Fill.id).reverse⟩

/-- **One turn**: it succeeds exactly when the fill continues the chronicle. -/
theorem step_of_iff {fills : List Fill} {row : FillRow} {b : Book} :
    (Book.of fills).step row = some b ↔ ∃ f, row.read = some f ∧ f.id ∉ fills.map Fill.id ∧
      lastTime fills ≤ f.timestamp ∧ Covered (inventory fills) f ∧ b = Book.of (fills ++ [f]) := by
  unfold Book.step
  rw [Option.bind_eq_bind, Option.bind_eq_some_iff]
  refine exists_congr (fun f => and_congr_right (fun _ => ?_))
  -- the book refuses a known ID and a step back in time
  have hseen : f.id ∈ (Book.of fills).seen ↔ f.id ∈ fills.map Fill.id := List.mem_reverse
  have hnext : Book.of (fills ++ [f]) = ⟨((inventory fills).apply f).qty,
      ((inventory fills).apply f).cost, f.timestamp, f.id :: (Book.of fills).seen⟩ := by
    simp [Book.of]
  rw [hnext]
  unfold Covered
  split
  · rename_i hbad
    constructor
    · intro h
      cases h
    · rintro ⟨hid, htime, -⟩
      rcases hbad with hdup | hback
      · exact absurd (hseen.mp hdup) hid
      · exact absurd hback (not_lt.mpr htime)
  · rename_i hok
    rw [not_or, not_lt, hseen] at hok
    obtain ⟨hid, htime⟩ := hok
    cases hside : f.side with
    | buy =>
        rw [Inventory.apply_buy hside]
        simp only [Option.some.injEq, reduceCtorEq, false_implies, true_and, eq_comm (a := b)]
        exact ⟨fun h => ⟨hid, htime, h⟩, fun h => h.2.2⟩
    | sell =>
        -- a SELL must find what it takes, up to the tolerance
        rw [Inventory.apply_sell hside]
        simp only [true_implies]
        show (if (inventory fills).qty ≤ 0 ∨ (inventory fills).qty + tolerance < f.removed
          then none else _) = some b ↔ _
        split
        · rename_i hbad
          constructor
          · intro h
            cases h
          · rintro ⟨-, -, ⟨hqty, hremoved⟩, -⟩
            rcases hbad with hempty | hover
            · exact absurd hempty (not_le.mpr hqty)
            · exact absurd hover (not_lt.mpr hremoved)
        · rename_i hgood
          rw [not_or, not_le, not_lt] at hgood
          rw [Option.some.injEq, eq_comm (a := b)]
          exact ⟨fun h => ⟨hid, htime, hgood, h⟩, fun h => h.2.2.2⟩

/-- **The whole loop** succeeds exactly on the rows of a chronicle. -/
theorem book_eq_some_iff {rows : List FillRow} {b : Book} :
    rows.foldlM Book.step Book.empty = some b ↔
      ∃ fills, rows.mapM FillRow.read = some fills ∧ Chronicle fills ∧ b = Book.of fills := by
  induction rows using List.reverseRecOn generalizing b with
  | nil =>
      constructor
      · intro h
        cases h
        exact ⟨[], rfl, .nil, rfl⟩
      · rintro ⟨fills, hread, -, rfl⟩
        cases hread
        rfl
  | append_singleton rows row ih =>
      rw [List.foldlM_append, List.mapM_append]
      simp only [Option.bind_eq_bind, Option.bind_eq_some_iff, List.foldlM_cons, List.foldlM_nil,
        List.mapM_cons, List.mapM_nil, Option.pure_def, Option.some.injEq]
      constructor
      · rintro ⟨b', hb', b'', hstep, rfl⟩
        obtain ⟨fills, hread, hchron, rfl⟩ := ih.mp hb'
        obtain ⟨f, hf, hid, htime, hcovered, rfl⟩ := step_of_iff.mp hstep
        exact ⟨fills ++ [f], ⟨fills, hread, [f], ⟨f, hf, [], rfl, rfl⟩, rfl⟩,
          .concat hchron hid htime hcovered, rfl⟩
      · rintro ⟨-, ⟨fills, hread, -, ⟨f, hf, -, rfl, rfl⟩, rfl⟩, hchron, rfl⟩
        obtain ⟨hchron, hid, htime, hcovered⟩ := chronicle_concat_iff.mp hchron
        exact ⟨Book.of fills, ih.mpr ⟨fills, hread, hchron, rfl⟩, _,
          step_of_iff.mpr ⟨f, hf, hid, htime, hcovered, rfl⟩, rfl⟩

/-- **When there is an answer, and which.** -/
theorem remainingAverageCost_eq_some_iff {rows : List FillRow} {heldQty : Raw} {v : ℚ} :
    remainingAverageCost rows heldQty = some v ↔
      ∃ held fills, heldQty.finite = some held ∧ 0 < held ∧ rows.mapM FillRow.read = some fills ∧
        Chronicle fills ∧ 0 < (inventory fills).qty ∧ isClose (inventory fills).qty held ∧
        v = (inventory fills).average ∧ 0 < v := by
  unfold remainingAverageCost
  rw [Option.bind_eq_bind, Option.bind_eq_some_iff]
  refine exists_congr (fun held => ?_)
  constructor
  · rintro ⟨hheld, h⟩
    split at h
    · cases h
    · rename_i hpos
      obtain ⟨b, hb, h⟩ := Option.bind_eq_some_iff.mp h
      obtain ⟨fills, hread, hchron, rfl⟩ := book_eq_some_iff.mp hb
      split at h
      · cases h
      · rename_i hclose
        rw [not_or, not_le, not_not] at hclose
        split at h
        · rename_i havg
          cases h
          exact ⟨fills, hheld, not_le.mp hpos, hread, hchron, hclose.1, hclose.2, rfl, havg⟩
        · cases h
  · rintro ⟨fills, hheld, hpos, hread, hchron, hqty, hclose, rfl, havg⟩
    refine ⟨hheld, ?_⟩
    rw [if_neg (not_le.mpr hpos)]
    refine Option.bind_eq_some_iff.mpr ⟨_, book_eq_some_iff.mpr ⟨fills, hread, hchron, rfl⟩, ?_⟩
    have hkeep : ¬ ((Book.of fills).qty ≤ 0 ∨ ¬ isClose (Book.of fills).qty held) :=
      not_or.mpr ⟨not_le.mpr hqty, not_not.mpr hclose⟩
    rw [if_neg hkeep]
    exact if_pos havg

/-! ## What a chronicle excludes -/

theorem Chronicle.of_append {before after : List Fill} (h : Chronicle (before ++ after)) :
    Chronicle before := by
  induction after using List.reverseRecOn with
  | nil => simpa using h
  | append_singleton after f ih =>
      rw [← List.append_assoc] at h
      exact ih (chronicle_concat_iff.mp h).1

theorem Chronicle.ids_nodup {fills : List Fill} (h : Chronicle fills) :
    (fills.map Fill.id).Nodup := by
  induction h with
  | nil => simp
  | concat h hid htime hcovered ih =>
      rw [List.map_append, List.nodup_append]
      refine ⟨ih, by simp, ?_⟩
      intro a ha b hb hab
      simp only [List.map_cons, List.map_nil, List.mem_singleton] at hb
      rw [hab, hb] at ha
      exact hid ha

theorem Chronicle.le_lastTime {fills : List Fill} (h : Chronicle fills) :
    ∀ f ∈ fills, f.timestamp ≤ lastTime fills := by
  induction h with
  | nil => simp
  | concat h hid htime hcovered ih =>
      intro g hg
      rw [lastTime_concat]
      rcases List.mem_append.mp hg with hold | hnew
      · exact (ih g hold).trans htime
      · simp only [List.mem_singleton] at hnew
        rw [hnew]

/-- The clock never goes back. -/
theorem Chronicle.sorted {fills : List Fill} (h : Chronicle fills) :
    fills.Pairwise (fun f g => f.timestamp ≤ g.timestamp) := by
  induction h with
  | nil => exact List.Pairwise.nil
  | concat h hid htime hcovered ih =>
      rw [List.pairwise_append]
      refine ⟨ih, List.pairwise_singleton _ _, ?_⟩
      intro g hg f hf
      simp only [List.mem_singleton] at hf
      rw [hf]
      exact (h.le_lastTime g hg).trans htime

/-- A SELL somewhere in the list takes out more than there is, beyond the tolerance. -/
def Oversold (fills : List Fill) : Prop :=
  ∃ before f after, fills = before ++ f :: after ∧ f.side = .sell ∧
    (inventory before).qty + tolerance < f.removed

theorem Chronicle.not_oversold {fills : List Fill} (h : Chronicle fills) : ¬ Oversold fills := by
  rintro ⟨before, f, after, rfl, hside, hover⟩
  rw [show before ++ f :: after = (before ++ [f]) ++ after by simp] at h
  obtain ⟨-, -, -, hcovered⟩ := chronicle_concat_iff.mp h.of_append
  exact absurd (hcovered hside).2 (not_le.mpr hover)

/-! ## The last empty inventory -/

/-- What follows an empty inventory is a chronicle of its own. -/
theorem Chronicle.recent {old recent : List Fill} (h : Chronicle (old ++ recent))
    (hold : (inventory old).qty = 0) : Chronicle recent := by
  induction recent using List.reverseRecOn with
  | nil => exact .nil
  | append_singleton recent f ih =>
      rw [← List.append_assoc] at h
      obtain ⟨hchron, hid, htime, hcovered⟩ := chronicle_concat_iff.mp h
      refine .concat (ih hchron) ?_ ?_ ?_
      · intro hmem
        exact hid (by simp [hmem])
      · cases recent using List.reverseRecOn with
        | nil => exact f.timestamp_pos.le
        | append_singleton recent g =>
            rw [← List.append_assoc, lastTime_concat] at htime
            rwa [lastTime_concat]
      · rw [← inventory_append hold]
        exact hcovered

/-- A list of fills without fees. -/
def Free (fills : List Fill) : Prop := ∀ f ∈ fills, f.baseFee = 0 ∧ f.quoteFee = 0

/-- Some BUY lies on the `s`-lower side of the average. With `s = 1` this is the lower bound and
with `s = -1` the upper one. -/
theorem exists_buy (s : ℚ) {fills : List Fill} (hchron : Chronicle fills) (hfree : Free fills)
    (hqty : 0 < (inventory fills).qty) :
    ∃ f ∈ fills, f.side = .buy ∧
      s * f.price * (inventory fills).qty ≤ s * (inventory fills).cost := by
  induction hchron with
  | nil => exact absurd hqty (lt_irrefl 0)
  | @concat fills f hchron _ _ hcovered ih =>
      have hold : Free fills := fun g hg => hfree g (by simp [hg])
      obtain ⟨hbase, hquote⟩ := hfree f (by simp)
      have hnonneg := inventory_qty_nonneg fills
      rw [inventory_concat] at hqty ⊢
      cases hside : f.side with
      | buy =>
          have hadded : f.added = f.qty := by simp [Fill.added, hbase]
          rw [Inventory.apply_buy hside, hadded, hquote, add_zero]
          simp only
          rcases hnonneg.eq_or_lt with hempty | hpos
          · -- the first BUY of a new holding
            have hzero := inventory_eq_zero hempty.symm
            refine ⟨f, by simp, hside, le_of_eq ?_⟩
            rw [hzero]
            ring
          · obtain ⟨g, hg, hbuy, hle⟩ := ih hold hpos
            -- the lower of the earlier bound and the new price
            rcases le_total (s * g.price) (s * f.price) with hprice | hprice
            · refine ⟨g, by simp [hg], hbuy, ?_⟩
              have hnew := mul_le_mul_of_nonneg_right hprice f.qty_pos.le
              calc s * g.price * ((inventory fills).qty + f.qty)
                  = s * g.price * (inventory fills).qty + s * g.price * f.qty := by ring
                _ ≤ s * (inventory fills).cost + s * f.price * f.qty := add_le_add hle hnew
                _ = s * ((inventory fills).cost + f.qty * f.price) := by ring
            · refine ⟨f, by simp, hside, ?_⟩
              have hbefore := mul_le_mul_of_nonneg_right hprice hpos.le
              calc s * f.price * ((inventory fills).qty + f.qty)
                  = s * f.price * (inventory fills).qty + s * f.price * f.qty := by ring
                _ ≤ s * (inventory fills).cost + s * f.price * f.qty :=
                    add_le_add (hbefore.trans hle) le_rfl
                _ = s * ((inventory fills).cost + f.qty * f.price) := by ring
      | sell =>
          obtain ⟨hpos, -⟩ := hcovered hside
          obtain ⟨g, hg, hbuy, hle⟩ := ih hold hpos
          refine ⟨g, by simp [hg], hbuy, ?_⟩
          rw [Inventory.apply_sell hside]
          simp only
          -- the release scales both sides by the share that remains
          have hshare : 0 ≤ max 0 ((inventory fills).qty - f.removed) / (inventory fills).qty :=
            div_nonneg (le_max_left _ _) hnonneg
          have hne := hpos.ne'
          calc s * g.price * max 0 ((inventory fills).qty - f.removed)
              = s * g.price * (inventory fills).qty *
                  (max 0 ((inventory fills).qty - f.removed) / (inventory fills).qty) := by
                field_simp
            _ ≤ s * (inventory fills).cost *
                  (max 0 ((inventory fills).qty - f.removed) / (inventory fills).qty) :=
                mul_le_mul_of_nonneg_right hle hshare
            _ = _ := by ring

/-- **Between the cheapest and the dearest BUY.** -/
theorem average_between {fills : List Fill} (hchron : Chronicle fills) (hfree : Free fills)
    (hqty : 0 < (inventory fills).qty) :
    ∃ f ∈ fills, ∃ g ∈ fills, f.side = .buy ∧ g.side = .buy ∧
      f.price ≤ (inventory fills).average ∧ (inventory fills).average ≤ g.price := by
  obtain ⟨f, hf, hfbuy, hlow⟩ := exists_buy 1 hchron hfree hqty
  obtain ⟨g, hg, hgbuy, hhigh⟩ := exists_buy (-1) hchron hfree hqty
  refine ⟨f, hf, g, hg, hfbuy, hgbuy, ?_, ?_⟩
  · exact (le_div_iff₀ hqty).mpr (by linarith)
  · exact (div_le_iff₀ hqty).mpr (by linarith)

/-! ## The answer -/

theorem mapM_read_append {a b : List FillRow} {fills : List Fill} :
    (a ++ b).mapM FillRow.read = some fills ↔ ∃ old recent, a.mapM FillRow.read = some old ∧
      b.mapM FillRow.read = some recent ∧ fills = old ++ recent := by
  rw [List.mapM_append]
  simp only [Option.bind_eq_bind, Option.bind_eq_some_iff, Option.pure_def, Option.some.injEq]
  constructor
  · rintro ⟨old, hold, recent, hrecent, rfl⟩
    exact ⟨old, recent, hold, hrecent, rfl⟩
  · rintro ⟨old, recent, hold, hrecent, rfl⟩
    exact ⟨old, hold, recent, hrecent, rfl⟩

/-- Rows the loop does not get through have no answer. -/
theorem remainingAverageCost_eq_none {rows : List FillRow} {heldQty : Raw}
    (h : ∀ fills, rows.mapM FillRow.read = some fills → ¬ Chronicle fills) :
    remainingAverageCost rows heldQty = none := by
  cases hanswer : remainingAverageCost rows heldQty with
  | none => rfl
  | some v =>
      obtain ⟨held, fills, -, -, hread, hchron, -⟩ := remainingAverageCost_eq_some_iff.mp hanswer
      exact absurd hchron (h fills hread)

/-- **The remaining average cost is the moving average.** An answer is the average of the
recursion; it is the answer for the fills after any point with an empty inventory, and without
fees it lies between two BUY prices after that point; a SELL does not change it; and there is no
answer when a row is unreadable, a SELL takes out too much, an id repeats or time goes back. -/
theorem remaining_average_is_moving_average (rows : List FillRow) (heldQty : Raw) :
    (∀ v, remainingAverageCost rows heldQty = some v → ∃ fills,
      rows.mapM FillRow.read = some fills ∧
        v = (inventory fills).cost / (inventory fills).qty) ∧
    (∀ oldRows recentRows old v, rows = oldRows ++ recentRows →
      oldRows.mapM FillRow.read = some old → (inventory old).qty = 0 →
      remainingAverageCost rows heldQty = some v →
        remainingAverageCost recentRows heldQty = some v ∧
        ∃ recent, recentRows.mapM FillRow.read = some recent ∧ (Free recent →
          ∃ f ∈ recent, ∃ g ∈ recent, f.side = .buy ∧ g.side = .buy ∧
            f.price ≤ v ∧ v ≤ g.price)) ∧
    (∀ row f heldAfter v v', row.read = some f → f.side = .sell →
      remainingAverageCost rows heldQty = some v →
      remainingAverageCost (rows ++ [row]) heldAfter = some v' → v' = v) ∧
    (rows.mapM FillRow.read = none → remainingAverageCost rows heldQty = none) ∧
    (∀ fills, rows.mapM FillRow.read = some fills →
      Oversold fills ∨ ¬ (fills.map Fill.id).Nodup ∨
        ¬ fills.Pairwise (fun f g => f.timestamp ≤ g.timestamp) →
      remainingAverageCost rows heldQty = none) := by
  refine ⟨?_, ?_, ?_, ?_, ?_⟩
  · intro v hv
    obtain ⟨held, fills, -, -, hread, -, -, -, hvalue, -⟩ :=
      remainingAverageCost_eq_some_iff.mp hv
    exact ⟨fills, hread, hvalue⟩
  · -- history before a flat inventory does not count
    rintro oldRows recentRows old v rfl hold hempty hv
    obtain ⟨held, fills, hheld, hpos, hread, hchron, hqty, hclose, rfl, havg⟩ :=
      remainingAverageCost_eq_some_iff.mp hv
    obtain ⟨old', recent, hold', hrecent, rfl⟩ := mapM_read_append.mp hread
    have heq : old' = old := Option.some.inj (hold'.symm.trans hold)
    subst heq
    rw [inventory_append hempty] at hqty hclose havg ⊢
    have hnew := hchron.recent hempty
    refine ⟨remainingAverageCost_eq_some_iff.mpr
      ⟨held, recent, hheld, hpos, hrecent, hnew, hqty, hclose, rfl, havg⟩, recent, hrecent, ?_⟩
    intro hfree
    exact average_between hnew hfree hqty
  · intro row f heldAfter v v' hf hside hv hv'
    obtain ⟨-, fills, -, -, hread, -, hqty, -, rfl, -⟩ := remainingAverageCost_eq_some_iff.mp hv
    obtain ⟨-, after, -, -, hread', -, hleft, -, rfl, -⟩ :=
      remainingAverageCost_eq_some_iff.mp hv'
    -- the longer history is the shorter one and the sale
    have hafter : after = fills ++ [f] := by
      obtain ⟨old, recent, hold, hrecent, rfl⟩ := mapM_read_append.mp hread'
      rw [Option.some.inj (hold.symm.trans hread)]
      simp [hf] at hrecent
      rw [← hrecent]
    subst hafter
    rw [inventory_concat] at hleft ⊢
    exact average_sell hside hqty hleft
  · intro hunread
    refine remainingAverageCost_eq_none (fun fills hread => ?_)
    rw [hunread] at hread
    cases hread
  · intro fills hread hbad
    refine remainingAverageCost_eq_none (fun fills' hread' hchron => ?_)
    rw [Option.some.inj (hread'.symm.trans hread)] at hchron
    -- each defect contradicts a chronological history
    rcases hbad with hover | hdup | hback
    · exact hchron.not_oversold hover
    · exact hdup hchron.ids_nodup
    · exact hback hchron.sorted

/-- A row without fees. -/
def sampleRow (id side : String) (timestamp qty price : ℚ) : FillRow :=
  ⟨some id, some side, some (.number timestamp), some (.number qty), some (.number price),
    some (.number 0), some (.number 0)⟩

/-- A position bought and sold, then two BUYs. -/
def sampleRows : List FillRow :=
  [sampleRow "a" "BUY" 1 2 100, sampleRow "b" "SELL" 2 2 110, sampleRow "c" "BUY" 3 1 120,
    sampleRow "d" "BUY" 4 1 130]

/-- The average of 120 and 130, before and after one of the two is sold. -/
theorem sample_average :
    remainingAverageCost (sampleRows.drop 2) (.number 2) = some 125 ∧
    remainingAverageCost (sampleRows ++ [sampleRow "e" "SELL" 5 1 140]) (.number 1) = some 125 := by
  have hbefore : remainingAverageCost sampleRows (.number 2) = some 125 := by decide +kernel
  have hafter : (remainingAverageCost (sampleRows ++ [sampleRow "e" "SELL" 5 1 140])
      (.number 1)).isSome = true := by decide +kernel
  obtain ⟨-, hrecent, hsell, -⟩ := remaining_average_is_moving_average sampleRows (.number 2)
  obtain ⟨v, hv⟩ := Option.isSome_iff_exists.mp hafter
  constructor
  · exact (hrecent (sampleRows.take 2) (sampleRows.drop 2) _ 125 rfl rfl (by decide +kernel)
      hbefore).1
  · rw [hv, hsell (sampleRow "e" "SELL" 5 1 140) _ (.number 1) 125 v rfl rfl hbefore hv]

end TradingFleet.Orders
