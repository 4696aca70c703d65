import TradingFleet.Basic.Numeral
import TradingFleet.Basic.Journal
import TradingFleet.Basic.Buckets

set_option autoImplicit false

/-! # Trade rows

A row of the trade cache is a JSON object as the exchange sent it. `_is_valid_trade` decides which
objects are rows, `_trade_semantic_signature` which two rows are one fill. The numbers of a row are
whole numbers or decimal text; `int`, `float` and `Decimal` read them as Python does, up to the
rounding of a `float` to 53 bits and of a `Decimal` to 28 digits.
-/

namespace TradingFleet.Cache

open JsonText Numeral

/-! ## Numbers -/

/-- A number written without a fraction or an exponent is an `int`, any other one a `float`. -/
def Number.isInt (n : Number) : Bool := n.text.all (fun c => c ≠ '.' ∧ c ≠ 'e' ∧ c ≠ 'E')

/-- `int(value)`, `none` where it raises. -/
def pyInt : Value → Option Int
  | .bool b => some (if b then 1 else 0)
  | .num n => do
      let d ← decimalOfText (String.ofList n.text)
      if Number.isInt n || d.isFinite then some d.trunc else none
  | .str s => intOfText s
  | _ => none

/-- The number `float(value)` rounds, `none` where it raises or is not finite. -/
def pyFloat (value : Value) : Option Decimal := do
  let d ← match value with
    | .bool b => some { coefficient := if b then 1 else 0, exponent := 0 }
    | .num n => decimalOfText (String.ofList n.text)
    | .str s => decimalOfText s
    | _ => none
  if d.isFinite then some d else none

/-- `Decimal(str(value)).normalize()`, `none` where it raises. -/
def pyDecimal : Value → Option Decimal
  | .num n => (decimalOfText (String.ofList n.text)).map Decimal.normalize
  | .str s => (decimalOfText s).map Decimal.normalize
  | _ => none

/-! ## Rows -/

/-- `item.get(key)`; of a key that comes twice the last value counts. -/
def Value.get? (item : Value) (key : String) : Option Value :=
  match item with
  | .obj fields => fields.reverse.lookup key
  | _ => none

def isBool : Value → Bool
  | .bool _ => true
  | _ => false

def symbolOf (item : Value) : Option String :=
  match Value.get? item "symbol" with
  | some (.str s) => some s
  | _ => none

def requiredKeys : List String := ["symbol", "id", "orderId", "price", "qty", "time", "isBuyer"]

/-- `_is_valid_trade` -/
def isValidTrade (trade : Value) : Bool :=
  requiredKeys.all (fun key => (Value.get? trade key).isSome) &&
  match Value.get? trade "price" >>= pyFloat, Value.get? trade "qty" >>= pyFloat,
    Value.get? trade "time" >>= pyInt, Value.get? trade "id" >>= pyInt,
    Value.get? trade "orderId" >>= pyInt with
  | some price, some quantity, some timestamp, some tradeId, some orderId =>
      (match symbolOf trade with
        | some s => Text.strip s ≠ ""
        | none => false) &&
      !(Value.get? trade "id").any isBool && 0 ≤ tradeId &&
      !(Value.get? trade "orderId").any isBool && 0 < orderId &&
      price.isPositive && quantity.isPositive && 0 < timestamp &&
      (Value.get? trade "isBuyer").any isBool
  | _, _, _, _, _ => false

/-- `int(item["id"])` of a row. -/
def tradeId (item : Value) : Int := ((Value.get? item "id") >>= pyInt).getD 0

/-- `str(item["symbol"]).upper() == str(symbol).upper()` -/
def ofSymbol (symbol : String) (item : Value) : Bool :=
  (symbolOf item).map Text.upper = some (Text.upper symbol)

/-- A row that a reader accepts in the bucket of `symbol`. -/
def isRow (symbol : String) (item : Value) : Bool := isValidTrade item && ofSymbol symbol item

structure TradeSignature where
  symbol : Option String
  id : Int
  orderId : Option Int
  price : Decimal
  qty : Decimal
  time : Option Int
  isBuyer : Bool
deriving DecidableEq

/-- `_trade_semantic_signature`: the financial fields that REST and WebSocket share. -/
def tradeSemanticSignature (item : Value) : Option TradeSignature := do
  let price ← Value.get? item "price" >>= pyDecimal
  let qty ← Value.get? item "qty" >>= pyDecimal
  pure
    { symbol := (symbolOf item).map Text.upper
      id := tradeId item
      orderId := Value.get? item "orderId" >>= pyInt
      price := price
      qty := qty
      time := Value.get? item "time" >>= pyInt
      isBuyer := match Value.get? item "isBuyer" with
        | some (.bool b) => b
        | _ => false }

/-- One fill known by its ID: `seen[trade_id] = signature`. -/
abbrev Seen := List (Int × TradeSignature)

/-- `_dedupe_trade_items_by_id` from the fills seen so far; `none` where it raises. -/
def dedupeFrom (seen : Seen) : List Value → Option (List Value)
  | [] => some []
  | item :: items => do
      let signature ← tradeSemanticSignature item
      match seen.lookup (tradeId item) with
      | some known => if known ≠ signature then none else dedupeFrom seen items
      | none => do
          let rest ← dedupeFrom ((tradeId item, signature) :: seen) items
          pure (item :: rest)

/-- `_dedupe_trade_items_by_id`: equivalent rows of one ID are collapsed, conflicting ones refused. -/
def dedupeTradeItemsById (items : List Value) : Option (List Value) := dedupeFrom [] items

/-- The buckets of a cache, in the order in which the symbols came. -/
abbrev Rows := List (String × List Value)

/-- `_validate_account_rows_locked` for trades. -/
def validateAccountRows (cache : Rows) : Bool :=
  cache.all (fun bucket =>
    bucket.2.all (isRow bucket.1) &&
    (dedupeTradeItemsById bucket.2).any (fun deduped => deduped.length = bucket.2.length))

/-! ## One row, one line -/

/-- A line of the file: a symbol and a row of its bucket. -/
abbrev Record := String × Value

/-- `json.dumps({"s": symbol, "i": item})` -/
def writeRecord (r : Record) : List Char := dumps (.obj [("s", .str r.1), ("i", r.2)])

/-- The record of a JSON value, `none` where it is refused. -/
def recordOf (record : Value) : Option Record :=
  match Value.get? record "s", Value.get? record "i" with
  | some (.str s), some i => if isRow s i then some (s, i) else none
  | _, _ => none

/-- The record of a line, `none` where the line is refused. -/
def readRecord (line : List Char) : Option Record := loads line >>= recordOf

theorem writeRecord_line (r : Record) : Journal.Line (writeRecord r) := by
  have hplain := dumps_plain (.obj [("s", .str r.1), ("i", r.2)])
  constructor
  · intro c hc
    have hge := hplain c hc
    unfold Journal.isBreak
    rw [Bool.or_eq_false_iff, decide_eq_false_iff_not, decide_eq_false_iff_not]
    constructor
    · rintro rfl
      exact absurd hge (by decide)
    · rintro rfl
      exact absurd hge (by decide)
  · rfl

theorem recordOf_obj {r : Record} (h : isRow r.1 r.2 = true) :
    recordOf (.obj [("s", .str r.1), ("i", r.2)]) = some r := by
  show (if isRow r.1 r.2 = true then some (r.1, r.2) else none) = some r
  rw [if_pos h]

/-- **A row is written on a line of its own and read back.** -/
theorem record_written {r : Record} (h : isRow r.1 r.2 = true) :
    Journal.Written writeRecord readRecord r := by
  refine ⟨writeRecord_line r, ?_⟩
  unfold readRecord writeRecord
  rw [loads_dumps]
  exact recordOf_obj h

/-! ## Distinct fills -/

/-- The IDs of some rows are distinct. -/
def DistinctIds (items : List Value) : Prop := (items.map tradeId).Nodup

theorem dedupeFrom_signed {seen : Seen} {items deduped : List Value}
    (h : dedupeFrom seen items = some deduped) :
    ∀ item ∈ items, (tradeSemanticSignature item).isSome = true := by
  induction items generalizing seen deduped with
  | nil => exact fun item hitem => by cases hitem
  | cons item items ih =>
      unfold dedupeFrom at h
      rw [Option.bind_eq_bind, Option.bind_eq_some_iff] at h
      obtain ⟨signature, hsignature, h⟩ := h
      have hrest : ∃ seen' deduped', dedupeFrom seen' items = some deduped' := by
        split at h
        · split at h
          · cases h
          · exact ⟨_, _, h⟩
        · rw [Option.bind_eq_bind, Option.bind_eq_some_iff] at h
          obtain ⟨rest, hrest, -⟩ := h
          exact ⟨_, _, hrest⟩
      obtain ⟨seen', deduped', hrest⟩ := hrest
      intro other hother
      rcases List.mem_cons.mp hother with rfl | hother
      · rw [hsignature]
        rfl
      · exact ih hrest other hother

theorem dedupeFrom_spec {seen : Seen} {items deduped : List Value}
    (h : dedupeFrom seen items = some deduped) :
    deduped.Sublist items ∧ DistinctIds deduped ∧
      ∀ item ∈ deduped, seen.lookup (tradeId item) = none := by
  induction items generalizing seen deduped with
  | nil =>
      unfold dedupeFrom at h
      rw [Option.some.injEq] at h
      rw [← h]
      exact ⟨List.Sublist.refl _, List.nodup_nil, by simp⟩
  | cons item items ih =>
      unfold dedupeFrom at h
      rw [Option.bind_eq_bind, Option.bind_eq_some_iff] at h
      obtain ⟨signature, -, h⟩ := h
      split at h
      · split at h
        · cases h
        · obtain ⟨hsub, hids, hnew⟩ := ih h
          exact ⟨hsub.cons _, hids, hnew⟩
      · rename_i hseen
        rw [Option.bind_eq_bind, Option.bind_eq_some_iff] at h
        obtain ⟨rest, hrest, hdeduped⟩ := h
        obtain ⟨hsub, hids, hnew⟩ := ih hrest
        have hfresh : ∀ other ∈ rest, tradeId other ≠ tradeId item := by
          intro other hother heq
          have hlookup := hnew other hother
          rw [heq, List.lookup_cons_self] at hlookup
          cases hlookup
        cases hdeduped
        refine ⟨hsub.cons_cons _, ?_, ?_⟩
        · unfold DistinctIds
          rw [List.map_cons, List.nodup_cons]
          refine ⟨?_, hids⟩
          intro hmem
          obtain ⟨other, hother, heq⟩ := List.mem_map.mp hmem
          exact hfresh other hother heq
        · intro other hother
          rcases List.mem_cons.mp hother with rfl | hother
          · exact hseen
          · have hlookup := hnew other hother
            rwa [Buckets.lookup_cons_ne (hfresh other hother)] at hlookup

/-- **What is left after the collapse is a part of the rows, with distinct IDs.** -/
theorem dedupe_spec {items deduped : List Value} (h : dedupeTradeItemsById items = some deduped) :
    deduped.Sublist items ∧ DistinctIds deduped :=
  ⟨(dedupeFrom_spec h).1, (dedupeFrom_spec h).2.1⟩

/-- Rows that pass the check of the writer: every one in its bucket, none twice. -/
structure Valid (cache : Rows) : Prop where
  rows : ∀ bucket ∈ cache, ∀ item ∈ bucket.2, isRow bucket.1 item = true
  signed : ∀ bucket ∈ cache, ∀ item ∈ bucket.2, (tradeSemanticSignature item).isSome = true
  distinct : ∀ bucket ∈ cache, DistinctIds bucket.2

theorem validateAccountRows_valid {cache : Rows} (h : validateAccountRows cache = true) :
    Valid cache := by
  unfold validateAccountRows at h
  rw [List.all_eq_true] at h
  constructor
  · intro bucket hbucket item hitem
    have hrows := (Bool.and_eq_true _ _ ▸ h bucket hbucket).1
    rw [List.all_eq_true] at hrows
    exact hrows item hitem
  · intro bucket hbucket
    have hids := (Bool.and_eq_true _ _ ▸ h bucket hbucket).2
    rw [Option.any_eq_true] at hids
    obtain ⟨deduped, hdeduped, -⟩ := hids
    exact dedupeFrom_signed hdeduped
  · intro bucket hbucket
    have hids := (Bool.and_eq_true _ _ ▸ h bucket hbucket).2
    rw [Option.any_eq_true] at hids
    obtain ⟨deduped, hdeduped, hlength⟩ := hids
    obtain ⟨hsub, hdistinct⟩ := dedupe_spec hdeduped
    -- nothing was collapsed
    rw [hsub.eq_of_length (of_decide_eq_true hlength)] at hdistinct
    exact hdistinct

end TradingFleet.Cache
