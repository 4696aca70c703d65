import TradingFleet.Basic.Greedy
import TradingFleet.Basic.Keyed
import TradingFleet.Basic.Rounding
import TradingFleet.Outbox.Operations

set_option autoImplicit false

/-! # Consolidation of the deferred streams

`consolidate_deferred_streams` reads the queue without validating it, so its rows are JSON
objects of any shape: a timestamp may be missing, a text, or not a number. The model here
works on such rows (`Item`), with what Python's builtins make of a value as a parameter
(`Builtins`). The pass is a greedy thinning (`Basic/Greedy.lean`) whose clash relation,
`_same_deferred_stream`, is symmetric and not transitive. On the rows of valid records it is
the operation of `Operations.lean` (`consolidate_records`).
-/

namespace TradingFleet.Outbox

open TradingFleet.Text TradingFleet.Greedy

variable {γ : Type}

/-! ## JSON rows -/

inductive PyFloat where
  | finite (x : ℚ)
  | infinite (negative : Bool)
  | nan
deriving DecidableEq, Repr

/-- A JSON value; `γ` are the contents of its arrays and objects. -/
inductive Json (γ : Type) where
  | null
  | bool (b : Bool)
  | int (n : ℤ)
  | float (x : PyFloat)
  | str (s : String)
  | list (c : γ)
  | dict (c : γ)
deriving DecidableEq

/-- What Python's builtins make of a value: `len(c) == 0` and `==` of two arrays or two
objects, `str` of a value that is not a text, `float` of a text and of an integer (`none`
where it raises). -/
structure Builtins (γ : Type) where
  isEmpty : γ → Bool
  sameContent : γ → γ → Bool
  sameContent_comm : ∀ a b, sameContent a b = sameContent b a
  str : Json γ → String
  parseFloat : String → Option PyFloat
  intToFloat : ℤ → Option PyFloat

/-- One line of the queue file. -/
abbrev Item (γ : Type) := List (String × Json γ)

/-- `item.get(key)`. -/
def Item.get (item : Item γ) (key : String) : Json γ := (item.lookup key).getD .null

/-- The numeric value of a boolean, an integer or a float. -/
def Json.number : Json γ → Option PyFloat
  | .bool b => some (.finite (if b then 1 else 0))
  | .int n => some (.finite n)
  | .float x => some x
  | _ => none

/-- `==` of two floats: a NaN differs from itself. -/
def PyFloat.eq : PyFloat → PyFloat → Bool
  | .finite x, .finite y => x = y
  | .infinite s, .infinite t => s = t
  | _, _ => false

namespace Builtins

variable (py : Builtins γ)

/-- `bool(value)`. -/
def truthy : Json γ → Bool
  | .null => false
  | .bool b => b
  | .int n => n ≠ 0
  | .float x => x ≠ .finite 0
  | .str s => s ≠ ""
  | .list c => !py.isEmpty c
  | .dict c => !py.isEmpty c

/-- `str(value or fallback)`. -/
def textOr (value : Json γ) (fallback : String) : String :=
  if py.truthy value then
    match value with
    | .str s => s
    | other => py.str other
  else fallback

/-- `float(value)`; `none` where it raises one of the exceptions the source catches. -/
def float : Json γ → Option PyFloat
  | .bool b => some (.finite (if b then 1 else 0))
  | .int n => py.intToFloat n
  | .float x => some x
  | .str s => py.parseFloat s
  | _ => none

/-- `left == right`. -/
def eq (left right : Json γ) : Bool :=
  match left, right with
  | .null, .null => true
  | .str s, .str t => s = t
  | .list c, .list d => py.sameContent c d
  | .dict c, .dict d => py.sameContent c d
  | l, r =>
      match l.number, r.number with
      | some x, some y => x.eq y
      | _, _ => false

/-- `value in (None, "")`. -/
def isBlank : Json γ → Bool
  | .null => true
  | .str s => s = ""
  | _ => false

/-- `value in (None, "", [], {})`. -/
def isVacant : Json γ → Bool
  | .list c => py.isEmpty c
  | .dict c => py.isEmpty c
  | value => isBlank value

end Builtins

theorem PyFloat.eq_comm (x y : PyFloat) : x.eq y = y.eq x := by
  cases x <;> cases y <;> simp [PyFloat.eq, Eq.comm]

theorem Builtins.eq_comm (py : Builtins γ) (l r : Json γ) : py.eq l r = py.eq r l := by
  cases l <;> cases r <;>
    simp [Builtins.eq, Json.number, PyFloat.eq_comm, py.sameContent_comm, Eq.comm]

/-- Values without contents. An integer too large for a double raises. -/
def Builtins.scalars (str : Json Empty → String) (parseFloat : String → Option PyFloat) :
    Builtins Empty where
  isEmpty := Empty.elim
  sameContent := Empty.elim
  sameContent_comm := fun c => c.elim
  str := str
  parseFloat := parseFloat
  intToFloat := fun n =>
    if |n| < 2 ^ 1024 - 2 ^ 970 then some (.finite (Rounding.double n)) else none

/-- Every key of `c` is in `d` with an equal value. -/
def Builtins.covers (py : Builtins γ) (c d : Item γ) : Bool :=
  c.all (fun e => d.any (fun e' => e.1 = e'.1 && py.eq e.2 e'.2))

/-- One level more: the contents are rows, of an array with the positions as keys. Two objects
are equal whatever the order of their keys. -/
def Builtins.nested (py : Builtins γ) (str : Json (Item γ) → String) : Builtins (Item γ) where
  isEmpty := List.isEmpty
  sameContent := fun c d => py.covers c d && py.covers d c
  sameContent_comm := fun _ _ => Bool.and_comm _ _
  str := str
  parseFloat := py.parseFloat
  intToFloat := py.intToFloat

/-! ## The predicates on rows -/

section Predicates

variable (py : Builtins γ)

/-- `str(item.get("lifecycle") or "submit_pending").lower()`. -/
def itemLifecycle (item : Item γ) : String :=
  lower (py.textOr (item.get "lifecycle") "submit_pending")

/-- `item.get("last_failure_reason") == "trend_deferred"`. -/
def itemTrendDeferred (item : Item γ) : Bool :=
  py.eq (item.get "last_failure_reason") (.str "trend_deferred")

/-- `item.get("kind") or None`. -/
def itemKind (item : Item γ) : Json γ :=
  if py.truthy (item.get "kind") then item.get "kind" else .null

/-- `_same_deferred_stream`. -/
def itemSameDeferredStream (left right : Item γ) : Bool :=
  let deferred := fun item : Item γ =>
    itemLifecycle py item = "submit_pending" && itemTrendDeferred py item
  let provider := fun item : Item γ =>
    lower (strip (py.textOr (item.get "provider_name") ""))
  deferred left && deferred right &&
    (provider left = "" || provider right = "" || provider left = provider right) &&
    py.eq (left.get "symbol") (right.get "symbol") &&
    upper (py.textOr (left.get "side") "") = upper (py.textOr (right.get "side") "") &&
    py.eq (itemKind py left) (itemKind py right)

/-- `str(rec.get("last_failure_reason") or "").strip().lower()`. -/
def itemReason (item : Item γ) : String :=
  lower (strip (py.textOr (item.get "last_failure_reason") ""))

/-- `is_possibly_submitted`. -/
def itemPossiblySubmitted (item : Item γ) : Bool :=
  if itemLifecycle py item ≠ "submit_pending" then false
  else
    let state := lower (strip (py.textOr (item.get "submission_state") ""))
    if state = "refused" then false
    else if state = "producer_claimed" || state = "unknown" then true
    else possiblySubmittedReasons.contains (itemReason py item)

/-- `_record_has_claim`: a key that is present counts, `null` too. -/
def itemHasClaim (item : Item γ) : Bool :=
  ["claim_token", "claim_revision", "claim_until"].any (fun key => (item.lookup key).isSome)

/-- One of the four filled amounts is no number, or not zero. -/
def itemAmountEvidence (item : Item γ) (key : String) : Bool :=
  if Builtins.isBlank (item.get key) then false
  else
    match py.float (item.get key) with
    | some (.finite x) => x ≠ 0
    | _ => true

/-- The remaining quantity is not the requested one. -/
def itemRemainderEvidence (item : Item γ) : Bool :=
  match py.float (item.get "requested_qty_total"), py.float (item.get "qty") with
  | some (.finite requested), some (.finite remaining) =>
      decide (qtyTolerance |requested| < |requested - remaining|)
  | some _, some _ => true
  | _, _ => !Builtins.isBlank (item.get "requested_qty_total")

/-- `_has_prior_venue_evidence`. -/
def itemPriorVenueEvidence (item : Item γ) : Bool :=
  itemLifecycle py item ≠ "submit_pending" ||
    ["order_id", "accepted_ts", "submit_status", "venue_status", "status_error",
      "order_history", "replaces_order_id", "replaces_original_qty"].any
      (fun key => !py.isVacant (item.get key)) ||
    startsWith (itemReason py item) "terminal_" ||
    ["delivered_qty", "filled_qty", "filled_cost", "filled_fee"].any (itemAmountEvidence py item) ||
    itemRemainderEvidence py item

/-- `rec.get("safe_to_discard") is True`. -/
def itemSafeToDiscard (item : Item γ) : Bool :=
  match item.get "safe_to_discard" with
  | .bool true => true
  | _ => false

/-- `_safe_to_evict_for_capacity`. -/
def itemSafeToEvict (item : Item γ) : Bool :=
  itemLifecycle py item = "submit_pending" && !itemHasClaim item &&
    !(["order_id", "accepted_ts", "submit_status", "venue_status", "status_error"].any
      (fun key => !Builtins.isBlank (item.get key))) &&
    itemSafeToDiscard item && !itemPossiblySubmitted py item && !itemPriorVenueEvidence py item

theorem itemSameDeferredStream_comm (left right : Item γ) :
    itemSameDeferredStream py left right = itemSameDeferredStream py right left := by
  unfold itemSameDeferredStream
  rw [py.eq_comm (left.get "symbol"), py.eq_comm (itemKind py left), Bool.eq_iff_iff]
  simp only [Bool.and_eq_true, Bool.or_eq_true, decide_eq_true_eq]
  constructor <;> rintro ⟨⟨⟨⟨⟨hl, hr⟩, (h | h) | h⟩, hs⟩, hside⟩, hk⟩ <;>
    simp [hl, hr, h, hs, hside, hk]

/-! ## The pass -/

/-- `_created`: a timestamp that is missing or no finite number counts as zero. -/
def itemCreated (item : Item γ) : ℚ :=
  match py.float ((item.lookup "created_ts").getD (.int 0)) with
  | some (.finite x) => x
  | _ => 0

/-- A disposable trend deferral. -/
def itemDeferred (item : Item γ) : Bool :=
  itemSafeToEvict py item && itemTrendDeferred py item

/-- The local variables of the loop. -/
structure Consolidation (γ : Type) where
  keptDeferred : List (Item γ) := []
  keepIds : List Nat := []
  removed : List (Item γ) := []

/-- The loop body. -/
def consolidateItem (acc : Consolidation γ) (p : Item γ × Nat) : Consolidation γ :=
  if itemDeferred py p.1 && acc.keptDeferred.any (fun newer => itemSameDeferredStream py p.1 newer)
  then { acc with removed := acc.removed ++ [p.1] }
  else
    { acc with
      keepIds := acc.keepIds ++ [p.2]
      keptDeferred := if itemDeferred py p.1 then acc.keptDeferred ++ [p.1] else acc.keptDeferred }

/-- `sorted(enumerate(existing), key=_created, reverse=True)`; ties keep their order. -/
def itemsNewestFirst (existing : List (Item γ)) : List (Item γ × Nat) :=
  existing.zipIdx.insertionSort (fun p p' => itemCreated py p'.1 ≤ itemCreated py p.1)

/-- `consolidate_deferred_streams`: the removed records, and the queue afterwards. -/
def consolidateItems (existing : List (Item γ)) : List (Item γ) × List (Item γ) :=
  let done := (itemsNewestFirst py existing).foldl (consolidateItem py) {}
  (done.removed,
    if done.removed = [] then existing
    else (existing.zipIdx.filter (fun p => done.keepIds.contains p.2)).map (·.1))

end Predicates

/-! ## The pass is a greedy thinning -/

section Exactness

variable (py : Builtins γ)

/-- The loop keeps the newer deferrals, the removed rows and the kept positions of the
thinning. -/
theorem consolidate_fold {order : List (Item γ × Nat)}
    (hpos : order.Pairwise (fun q p => q.2 ≠ p.2))
    (hrank : order.Pairwise (fun q p => itemCreated py p.1 ≤ itemCreated py q.1)) :
    let done := order.foldl (consolidateItem py) {}
    let scan := order.foldl (Greedy.step (itemDeferred py) (itemSameDeferredStream py)) ([], [])
    done.keptDeferred = scan.1 ∧
      done.removed = (order.filter (fun p => scan.2.contains p.2)).map (·.1) ∧
      done.keepIds = (order.filter (fun p => !scan.2.contains p.2)).map (·.2) := by
  induction order using List.reverseRecOn with
  | nil => exact ⟨rfl, rfl, rfl⟩
  | append_singleton order p ih =>
      rw [List.pairwise_append] at hpos hrank
      have hscan := @Scan.run _ _ _ (itemDeferred py) (itemSameDeferredStream py) _ _
        hpos.1 hrank.1
      have hne : ∀ q ∈ order, q.2 ≠ p.2 := fun q hq => hpos.2.2 q hq p (by simp)
      have hfresh := hscan.fresh hne
      obtain ⟨hkept, hremoved, hids⟩ := ih hpos.1 hrank.1
      simp only [List.foldl_concat]
      generalize order.foldl (consolidateItem py) {} = done at hkept hremoved hids ⊢
      generalize order.foldl (Greedy.step (itemDeferred py) (itemSameDeferredStream py))
        ([], []) = scan at hscan hfresh hkept hremoved hids ⊢
      -- positions are distinct, so a drop of this row changes the verdict on no other
      have hsame : ∀ q ∈ order, (p.2 :: scan.2).contains q.2 = scan.2.contains q.2 := by
        intro q hq
        have hqp : (q.2 == p.2) = false := by simpa using hne q hq
        rw [List.contains_cons, hqp, Bool.false_or]
      have hp : scan.2.contains p.2 = false := by simpa using hfresh
      unfold consolidateItem Greedy.step
      by_cases hm : itemDeferred py p.1 = true
      · by_cases hc : scan.1.any (fun newer => itemSameDeferredStream py p.1 newer) = true
        · -- removed
          rw [hkept, if_pos (by rw [hm, hc]; rfl), if_pos hm, if_pos hc]
          refine ⟨rfl, ?_, ?_⟩
          · rw [List.filter_append, List.map_append,
              List.filter_congr (fun q hq => hsame q hq), ← hremoved]
            simp
          · rw [List.filter_append, List.map_append,
              List.filter_congr (fun q hq => by rw [hsame q hq]), ← hids]
            simp
        · -- kept, and a deferral
          rw [hkept, if_neg (by rw [hm, Bool.true_and]; exact hc), if_pos hm, if_pos hm, if_neg hc]
          refine ⟨rfl, ?_, ?_⟩
          · rw [List.filter_append, List.map_append, ← hremoved, List.filter_singleton, hp]
            simp
          · rw [List.filter_append, List.map_append, ← hids, List.filter_singleton, hp]
            simp
      · -- kept without further ado
        have hm' : itemDeferred py p.1 = false := by simpa using hm
        rw [if_neg (by simp [hm']), if_neg hm, if_neg hm]
        refine ⟨hkept, ?_, ?_⟩
        · rw [List.filter_append, List.map_append, ← hremoved, List.filter_singleton, hp]
          simp
        · rw [List.filter_append, List.map_append, ← hids, List.filter_singleton, hp]
          simp

/-- `consolidate_deferred_streams` is the thinning by `_same_deferred_stream` and `_created`. -/
theorem consolidateItems_eq (existing : List (Item γ)) :
    consolidateItems py existing =
      (removed (itemDeferred py) (itemSameDeferredStream py) (itemCreated py) existing,
        kept (itemDeferred py) (itemSameDeferredStream py) (itemCreated py) existing) := by
  have hperm : (byRank (itemCreated py) existing).Perm existing.zipIdx := byRank_perm existing
  have hpos := hperm.symm.pairwise (zipIdx_positions existing) (fun h h' => h h'.symm)
  obtain ⟨-, hremoved, hids⟩ := consolidate_fold py hpos (byRank_sorted existing)
  have hkept : (existing.zipIdx.filter (fun p => ((itemsNewestFirst py existing).foldl
        (consolidateItem py) {}).keepIds.contains p.2)).map (·.1) =
      kept (itemDeferred py) (itemSameDeferredStream py) (itemCreated py) existing := by
    unfold kept
    congr 1
    refine List.filter_congr (fun p hp => ?_)
    show (((byRank (itemCreated py) existing).foldl (consolidateItem py) {}).keepIds.contains p.2)
      = _
    rw [hids, Bool.eq_iff_iff, List.contains_iff_mem, List.mem_map]
    constructor
    · rintro ⟨q, hq, hqp⟩
      rw [← hqp]
      exact (List.mem_filter.mp hq).2
    · intro hn
      exact ⟨p, List.mem_filter.mpr ⟨mem_byRank.mpr hp, hn⟩, rfl⟩
  unfold consolidateItems
  simp only
  rw [hkept]
  change (((byRank (itemCreated py) existing).foldl (consolidateItem py) {}).removed,
    if ((byRank (itemCreated py) existing).foldl (consolidateItem py) {}).removed = [] then _
      else _) = _
  rw [hremoved]
  refine Prod.ext rfl ?_
  show (if removed (itemDeferred py) (itemSameDeferredStream py) (itemCreated py) existing = []
    then _ else _) = _
  split
  · -- nothing was removed, so the thinning keeps the whole queue
    rename_i hnone
    have hall := @removed_append_kept_perm _ _ _ (itemDeferred py) (itemSameDeferredStream py)
      (itemCreated py) existing
    rw [hnone, List.nil_append] at hall
    exact ((kept_sublist existing).eq_of_length hall.length_eq).symm
  · rfl

/-- **Consolidation is exact.** For every queue, valid or not: the records that are no
disposable trend deferrals stay, in order; of the others no two kept ones are in one stream,
whichever way round they are compared; every removed one has a kept one of its stream that is
at least as new; removed and kept records together are the queue; and a second call removes
nothing. -/
theorem consolidation_exact (existing : List (Item γ)) :
    let gone := (consolidateItems py existing).1
    let queue := (consolidateItems py existing).2
    queue.Sublist existing ∧
      queue.filter (fun r => !itemDeferred py r) = existing.filter (fun r => !itemDeferred py r) ∧
      (queue.filter (itemDeferred py)).Pairwise (fun r r' =>
        itemSameDeferredStream py r r' = false ∧ itemSameDeferredStream py r' r = false) ∧
      (∀ r ∈ gone, itemDeferred py r = true ∧
        ∃ k ∈ queue, itemDeferred py k = true ∧ itemSameDeferredStream py r k = true ∧
          itemCreated py r ≤ itemCreated py k) ∧
      (gone ++ queue).Perm existing ∧
      consolidateItems py queue = ([], queue) := by
  rw [consolidateItems_eq py existing]
  have hsymm := itemSameDeferredStream_comm py
  refine ⟨kept_sublist existing, kept_unmarked existing, ?_, fun r hr => removed_reason hr,
    removed_append_kept_perm existing, ?_⟩
  · refine (kept_apart hsymm existing).imp (fun {r r'} h => ⟨h, ?_⟩)
    rw [hsymm r' r]
    exact h
  · unfold consolidateItems
    -- a second call finds nothing to remove
    have hnone : ((itemsNewestFirst py (kept (itemDeferred py) (itemSameDeferredStream py)
        (itemCreated py) existing)).foldl (consolidateItem py) {}).removed = [] := by
      have h := congrArg Prod.fst (consolidateItems_eq py (kept (itemDeferred py)
        (itemSameDeferredStream py) (itemCreated py) existing))
      exact h.trans (removed_kept hsymm existing)
    simp only [hnone, if_true]

/-- A disposable deferral whose kind is an object. -/
def sampleItem (created : ℚ) (kind : Item Empty) : Item (Item Empty) :=
  [("last_failure_reason", .str "trend_deferred"), ("symbol", .str "BTCUSDC"),
    ("side", .str "BUY"), ("kind", .dict kind), ("safe_to_discard", .bool true),
    ("created_ts", .float (.finite created))]

/-- Contents one level deep; none of the texts below is converted. -/
def sampleBuiltins : Builtins (Item Empty) :=
  (Builtins.scalars (fun _ => "") (fun _ => none)).nested (fun _ => "")

/-- Two equal objects are one kind, and the newer row stays. -/
example :
    let rows := [sampleItem 1 [("leg", .int 1), ("run", .str "a")],
      sampleItem 2 [("run", .str "a"), ("leg", .float (.finite 1))],
      sampleItem 3 [("run", .str "b"), ("leg", .int 1)]]
    (consolidateItems sampleBuiltins rows).1.map (itemCreated sampleBuiltins) = [1] ∧
      (consolidateItems sampleBuiltins rows).2.map (itemCreated sampleBuiltins) = [2, 3] := by
  decide +kernel

end Exactness

/-! ## The rows of records -/

section Records

def Lifecycle.text : Lifecycle → String
  | .submitPending => "submit_pending"
  | .awaitingCancel => "awaiting_cancel"
  | .accepted => "accepted"

def Side.text : Side → String
  | .buy => "BUY"
  | .sell => "SELL"

def SubmissionState.text : SubmissionState → String
  | .producerClaimed => "producer_claimed"
  | .unknown => "unknown"
  | .refused => "refused"
  | .accepted => "accepted"

/-- The keys of a record that consolidation looks at, with what is stored under them; `none`
is a key that is not there. -/
def Record.fields (r : Record) : List (String × Option (Json (List HistoryRow))) :=
  let text := fun s : String => Json.str s
  let number := fun x : ℚ => Json.float (.finite x)
  [("symbol", some (text r.symbol)),
    ("side", some (text r.side.text)),
    ("provider_name", r.providerName.map text),
    ("kind", r.kind.map text),
    ("qty", some (number r.qty)),
    ("requested_qty_total", some (number r.requestedQtyTotal)),
    ("delivered_qty", some (number r.deliveredQty)),
    ("created_ts", some (number r.createdTs)),
    ("last_failure_reason", r.lastFailureReason.map text),
    ("lifecycle", some (text r.lifecycle.text)),
    ("replaces_order_id", r.replacesOrderId.map text),
    ("replaces_original_qty", r.replacesOriginalQty.map number),
    ("safe_to_discard", if r.safeToDiscard then some (.bool true) else none),
    ("claim_token", r.claimToken.map text),
    ("claim_until", r.claimUntil.map number),
    ("claim_revision", r.claimRevision.map (fun n : Nat => Json.int n)),
    ("submission_state", r.submissionState.map (fun s => text s.text)),
    ("order_id", r.orderId.map text),
    ("accepted_ts", r.acceptedTs.map number),
    ("submit_status", r.submitStatus.map text),
    ("venue_status", r.venueStatus.map text),
    ("status_error", r.statusError.map text),
    ("filled_qty", r.filledQty.map number),
    ("filled_cost", r.filledCost.map number),
    ("filled_fee", r.filledFee.map number),
    ("order_history", some (.list r.orderHistory))]

def Record.item (r : Record) : Item (List HistoryRow) :=
  r.fields.filterMap (fun p => p.2.map (fun v => (p.1, v)))

theorem Record.fields_keys (r : Record) :
    r.fields.map (·.1) =
      ["symbol", "side", "provider_name", "kind", "qty", "requested_qty_total", "delivered_qty",
        "created_ts", "last_failure_reason", "lifecycle", "replaces_order_id",
        "replaces_original_qty", "safe_to_discard", "claim_token", "claim_until",
        "claim_revision", "submission_state", "order_id", "accepted_ts", "submit_status",
        "venue_status", "status_error", "filled_qty", "filled_cost", "filled_fee",
        "order_history"] :=
  rfl

theorem Record.item_lookup (r : Record) (key : String) :
    r.item.lookup key = (r.fields.lookup key).join := by
  refine Keyed.lookup_filterMap ?_ key
  rw [r.fields_keys]
  decide +kernel

theorem Record.item_get (r : Record) (key : String) :
    r.item.get key = ((r.fields.lookup key).join).getD .null := by
  unfold Item.get
  rw [r.item_lookup]

variable {py : Builtins (List HistoryRow)}

@[simp]
theorem textOr_str (s fallback : String) :
    py.textOr (.str s) fallback = if s = "" then fallback else s := by
  by_cases hs : s = ""
  · simp [Builtins.textOr, Builtins.truthy, hs]
  · simp [Builtins.textOr, Builtins.truthy, hs]

/-- An optional text is read with its default as the records read it. -/
theorem textOr_map (s : Option String) :
    py.textOr ((s.map Json.str).getD .null) "" = s.getD "" := by
  cases s with
  | none => rfl
  | some t =>
      show py.textOr (.str t) "" = t
      rw [textOr_str]
      split
      · rename_i ht
        exact ht.symm
      · rfl

@[simp]
theorem isBlank_map (s : Option String) :
    Builtins.isBlank ((s.map Json.str).getD .null : Json (List HistoryRow)) = !truthy s := by
  cases s with
  | none => rfl
  | some t => simp [Builtins.isBlank, truthy]

@[simp]
theorem isVacant_map (s : Option String) :
    py.isVacant ((s.map Json.str).getD .null) = !truthy s := by
  cases s with
  | none => rfl
  | some t => simp [Builtins.isVacant, Builtins.isBlank, truthy]

@[simp]
theorem isBlank_number (x : Option ℚ) :
    Builtins.isBlank ((x.map (fun x => Json.float (.finite x))).getD .null :
      Json (List HistoryRow)) = !x.isSome := by
  cases x <;> rfl

@[simp]
theorem isVacant_number (x : Option ℚ) :
    py.isVacant ((x.map (fun x => Json.float (.finite x))).getD .null) = !x.isSome := by
  cases x <;> rfl

theorem itemLifecycle_item (r : Record) : itemLifecycle py r.item = r.lifecycle.text := by
  unfold itemLifecycle
  rw [r.item_get]
  show lower (py.textOr (.str r.lifecycle.text) "submit_pending") = _
  rw [textOr_str]
  cases r.lifecycle <;> decide +kernel

theorem itemPending_item (r : Record) :
    (itemLifecycle py r.item = "submit_pending") ↔ r.lifecycle = .submitPending := by
  rw [itemLifecycle_item]
  cases r.lifecycle <;> decide +kernel

theorem itemReason_item (r : Record) : itemReason py r.item = r.reasonKey := by
  unfold itemReason Record.reasonKey
  rw [r.item_get]
  exact congrArg (fun s => lower (strip s)) (textOr_map r.lastFailureReason)

theorem itemTrendDeferred_item (r : Record) :
    itemTrendDeferred py r.item = decide (r.lastFailureReason = some "trend_deferred") := by
  unfold itemTrendDeferred
  rw [r.item_get]
  show py.eq ((r.lastFailureReason.map Json.str).getD .null) _ = _
  cases r.lastFailureReason with
  | none => rfl
  | some s => simp [Builtins.eq]

theorem itemPossiblySubmitted_item (r : Record) :
    itemPossiblySubmitted py r.item = isPossiblySubmitted r := by
  unfold itemPossiblySubmitted isPossiblySubmitted
  by_cases hl : r.lifecycle = .submitPending
  · rw [if_neg (not_not.mpr ((itemPending_item r).mpr hl)), if_neg (not_not.mpr hl),
      itemReason_item, r.item_get]
    have hstate : py.textOr (((r.fields.lookup "submission_state").join).getD .null) "" =
        (r.submissionState.map SubmissionState.text).getD "" := by
      rw [← textOr_map (r.submissionState.map SubmissionState.text), Option.map_map]
      rfl
    rw [hstate]
    cases r.submissionState with
    | none => rfl
    | some s =>
        cases s <;> simp only [Option.map_some, Option.getD_some, SubmissionState.text] <;> rfl
  · rw [if_pos (fun h => hl ((itemPending_item r).mp h)), if_pos hl]

theorem itemHasClaim_item (r : Record) : itemHasClaim r.item = recordHasClaim r := by
  unfold itemHasClaim recordHasClaim
  simp only [List.any_cons, List.any_nil, r.item_lookup, Bool.or_false]
  show ((r.claimToken.map _).isSome || ((r.claimRevision.map _).isSome ||
    (r.claimUntil.map _).isSome)) = _
  simp [Bool.or_assoc]

theorem itemAmount_item {r : Record} {key : String} {x : Option ℚ}
    (h : (r.fields.lookup key).join = x.map (fun x => Json.float (.finite x))) :
    itemAmountEvidence py r.item key = nonzero x := by
  unfold itemAmountEvidence
  rw [r.item_get, h, isBlank_number]
  cases x with
  | none => rfl
  | some x => rfl

theorem itemRemainder_item (r : Record) :
    itemRemainderEvidence py r.item =
      decide (qtyTolerance |r.requestedQtyTotal| < |r.requestedQtyTotal - r.qty|) := by
  unfold itemRemainderEvidence
  rw [r.item_get, r.item_get]
  rfl

theorem itemPriorVenueEvidence_item (hempty : ∀ h, py.isEmpty h = h.isEmpty) (r : Record) :
    itemPriorVenueEvidence py r.item = hasPriorVenueEvidence r := by
  have hpending : decide (itemLifecycle py r.item ≠ "submit_pending") =
      decide (r.lifecycle ≠ .submitPending) :=
    decide_eq_decide.mpr (not_congr (itemPending_item r))
  have hhistory : py.isVacant (.list r.orderHistory) = decide (r.orderHistory = []) := by
    show py.isEmpty r.orderHistory = _
    rw [hempty]
    cases r.orderHistory <;> rfl
  unfold itemPriorVenueEvidence hasPriorVenueEvidence
  rw [itemReason_item, itemRemainder_item, hpending]
  simp only [List.any_cons, List.any_nil, r.item_get,
    @itemAmount_item py r "delivered_qty" (some r.deliveredQty) rfl,
    @itemAmount_item py r "filled_qty" r.filledQty rfl,
    @itemAmount_item py r "filled_cost" r.filledCost rfl,
    @itemAmount_item py r "filled_fee" r.filledFee rfl]
  show (_ || (!py.isVacant ((r.orderId.map Json.str).getD .null) ||
    (!py.isVacant ((r.acceptedTs.map (fun x => Json.float (.finite x))).getD .null) ||
    (!py.isVacant ((r.submitStatus.map Json.str).getD .null) ||
    (!py.isVacant ((r.venueStatus.map Json.str).getD .null) ||
    (!py.isVacant ((r.statusError.map Json.str).getD .null) ||
    (!py.isVacant (.list r.orderHistory) ||
    (!py.isVacant ((r.replacesOrderId.map Json.str).getD .null) ||
    (!py.isVacant ((r.replacesOriginalQty.map (fun x => Json.float (.finite x))).getD .null) ||
      false)))))))) || _ || _ || _) = _
  simp only [isVacant_map, isVacant_number, hhistory, nonzero, Bool.not_not, Bool.or_false,
    Bool.or_assoc, decide_not]

theorem itemSafeToEvict_item (hempty : ∀ h, py.isEmpty h = h.isEmpty) (r : Record) :
    itemSafeToEvict py r.item = safeToEvictForCapacity r := by
  have hsafe : itemSafeToDiscard r.item = r.safeToDiscard := by
    have hget : r.item.get "safe_to_discard" =
        (if r.safeToDiscard then some (.bool true) else none).getD .null := by
      rw [r.item_get]
      rfl
    unfold itemSafeToDiscard
    rw [hget]
    cases r.safeToDiscard <;> rfl
  have hpending : decide (itemLifecycle py r.item = "submit_pending") =
      decide (r.lifecycle = .submitPending) :=
    decide_eq_decide.mpr (itemPending_item r)
  unfold itemSafeToEvict safeToEvictForCapacity
  rw [hsafe, itemHasClaim_item, itemPossiblySubmitted_item, itemPriorVenueEvidence_item hempty,
    hpending]
  simp only [List.any_cons, List.any_nil, r.item_get]
  show (_ && _ && !(!Builtins.isBlank ((r.orderId.map Json.str).getD .null) ||
    (!Builtins.isBlank ((r.acceptedTs.map (fun x => Json.float (.finite x))).getD .null) ||
    (!Builtins.isBlank ((r.submitStatus.map Json.str).getD .null) ||
    (!Builtins.isBlank ((r.venueStatus.map Json.str).getD .null) ||
    (!Builtins.isBlank ((r.statusError.map Json.str).getD .null) || false))))) && _ && _ && _) = _
  simp only [isBlank_map, isBlank_number, Bool.not_not, Bool.or_false, Bool.or_assoc]

theorem itemDeferred_item (hempty : ∀ h, py.isEmpty h = h.isEmpty) (r : Record) :
    itemDeferred py r.item = isDeferredEvictable r := by
  unfold itemDeferred isDeferredEvictable
  rw [itemSafeToEvict_item hempty, itemTrendDeferred_item]

theorem itemSameDeferredStream_item (l r : Record) :
    itemSameDeferredStream py l.item r.item = sameDeferredStream l r := by
  have hprovider : ∀ r : Record,
      py.textOr (r.item.get "provider_name") "" = r.providerName.getD "" := by
    intro r
    rw [r.item_get]
    exact textOr_map r.providerName
  have hsymbol : py.eq (l.item.get "symbol") (r.item.get "symbol") = decide (l.symbol = r.symbol) := by
    rw [l.item_get, r.item_get]
    rfl
  have hside : (upper (py.textOr (l.item.get "side") "") = upper (py.textOr (r.item.get "side") ""))
      ↔ l.side = r.side := by
    rw [l.item_get, r.item_get]
    show upper (py.textOr (.str l.side.text) "") = upper (py.textOr (.str r.side.text) "") ↔ _
    rw [textOr_str, textOr_str]
    cases l.side <;> cases r.side <;> decide +kernel
  have hkindOne : ∀ r : Record, itemKind py r.item =
      ((r.kind.filter (· ≠ "")).map Json.str).getD .null := by
    intro r
    unfold itemKind
    rw [r.item_get]
    show (if py.truthy ((r.kind.map Json.str).getD .null) then (r.kind.map Json.str).getD .null
      else .null) = _
    cases r.kind with
    | none => rfl
    | some k =>
        by_cases hk : k = ""
        · subst hk
          rfl
        · simp [hk, Builtins.truthy, Option.filter]
  have hkind : py.eq (itemKind py l.item) (itemKind py r.item) =
      decide (l.kind.filter (· ≠ "") = r.kind.filter (· ≠ "")) := by
    rw [hkindOne l, hkindOne r]
    cases l.kind.filter (· ≠ "") <;> cases r.kind.filter (· ≠ "") <;> simp [Builtins.eq, Json.number]
  unfold itemSameDeferredStream sameDeferredStream
  simp only [itemTrendDeferred_item, hprovider, hsymbol, decide_eq_decide.mpr hside, hkind,
    decide_eq_decide.mpr (itemPending_item _)]

/-- **On the rows of records the pass is the operation on records.** -/
theorem consolidate_records (hempty : ∀ h, py.isEmpty h = h.isEmpty) (q : Queue) :
    consolidateItems py (q.map Record.item) =
      ((consolidateDeferredStreams q).1.map Record.item,
        (consolidateDeferredStreams q).2.map Record.item) := by
  have hf : Respects isDeferredEvictable sameDeferredStream Record.createdTs
      (itemDeferred py) (itemSameDeferredStream py) (itemCreated py) Record.item := by
    refine ⟨itemDeferred_item hempty, itemSameDeferredStream_item, fun r => ?_⟩
    unfold itemCreated
    rw [r.item_lookup]
    rfl
  rw [consolidateItems_eq, removed_map hf, kept_map hf]
  rfl

end Records

end TradingFleet.Outbox
