import Mathlib.Data.List.Sort
import TradingFleet.Basic.Buckets
import TradingFleet.Lifecycle.Tracked
import TradingFleet.Pair.Coordinator

set_option autoImplicit false

/-! # The store of rtrade rounds

`RTradePairStore`: one JSON object of rounds, rewritten as a whole under a file lock. A round keeps
its intents under `kind:SIDE`, so that an order that was sent can be found again by the client ID
that belongs to its slot. An operation reads the object, changes it and writes it back without the
oldest rounds that are over; the file has its keys in order. -/

namespace TradingFleet.Rtrade

open TradingFleet.Buckets TradingFleet.Lifecycle TradingFleet.Text

/-! ## Intents -/

def legSide : Pair.Side → Lifecycle.Side
  | .buy => .buy
  | .sell => .sell

def pairSide : Lifecycle.Side → Pair.Side
  | .buy => .buy
  | .sell => .sell

inductive RecoveryState where
  | absenceConfirmed
  | horizonExhausted
deriving DecidableEq

/-- The keys that rtrade adds to a tracked intent. -/
structure Recovery where
  pairId : Option String := none
  limitRevision : Option Int := none
  state : Option RecoveryState := none
  startedAt : Option ℚ := none
  lastLookupAt : Option ℚ := none
  nextAt : Option ℚ := none
  absenceConfirmedAt : Option ℚ := none
  horizonExhaustedAt : Option ℚ := none
deriving DecidableEq

abbrev Intent := Pending Recovery

/-- The object that `intent` writes. -/
structure WrittenIntent where
  side : Pair.Side
  price : ℚ
  qty : ℚ
  clientOrderId : String
  kind : String
  orderId : Option String := none
deriving DecidableEq

/-- A stored intent: an object of `intent`, or one of `persist_intent`. -/
inductive Stored where
  | written (i : WrittenIntent)
  | tracked (p : Intent)
deriving DecidableEq

def Stored.clientOrderId : Stored → String
  | .written i => i.clientOrderId
  | .tracked p => p.clientOrderId

def Stored.orderId : Stored → Option String
  | .written i => i.orderId
  | .tracked p => p.orderId

/-- `_pre_submit_refusal` of a tracked intent. -/
def preSubmitRefusal (p : Intent) : Bool :=
  p.submissionOutcome = some .refused || lower (p.submitStatus.getD "") = "refused_before_submit"

/-- `_pre_submit_refusal`; `intent` writes neither of the two keys. -/
def Stored.refusal : Stored → Bool
  | .written _ => false
  | .tracked p => preSubmitRefusal p

/-- `intent["order_id"] = order_id`. -/
def Stored.accept (orderId : String) : Stored → Stored
  | .written i => .written { i with orderId := some orderId }
  | .tracked p => .tracked { p with orderId := some orderId }

/-- `f"{kind}:{side.upper()}"`. -/
def slotKey (kind : String) (side : Pair.Side) : String := kind ++ ":" ++ side.text

/-! ## Rounds -/

/-- A checkpoint, with the flag that `merge_checkpoint_intents` may add. -/
structure Saved where
  checkpoint : Pair.Checkpoint
  recoveryPending : Bool := false

/-- The phase `reserved` is `none`. -/
structure PairRecord where
  symbol : String
  pairId : String
  startSide : Pair.Side
  qty : ℚ
  phase : Option Pair.Phase
  terminal : Bool
  intents : List (String × Stored)
  state : Option Saved
  createdTs : ℚ
  updatedTs : ℚ

abbrev Pairs := List (String × PairRecord)

/-- A round that an intent is the first to name. -/
def PairRecord.reserved (symbol pairId : String) (startSide : Pair.Side) (qty now : ℚ) :
    PairRecord where
  symbol := symbol
  pairId := pairId
  startSide := startSide
  qty := qty
  phase := none
  terminal := false
  intents := []
  state := none
  createdTs := now
  updatedTs := now

def PairRecord.setIntent (r : PairRecord) (key : String) (value : Stored) (now : ℚ) : PairRecord :=
  { r with intents := insert r.intents key value, updatedTs := now }

/-! ## Writing -/

/-- `sort_keys=True`. -/
def sortKeys {β : Type} (d : List (String × β)) : List (String × β) :=
  d.insertionSort (fun a b => a.1 ≤ b.1)

def PairRecord.sorted (r : PairRecord) : PairRecord := { r with intents := sortKeys r.intents }

/-- The rounds that are over, the latest first. -/
def terminalRounds (pairs : Pairs) : Pairs :=
  (pairs.filter (fun e => e.2.terminal)).insertionSort (fun a b => b.2.updatedTs ≤ a.2.updatedTs)

/-- `_prune_terminal`. -/
def pruneTerminal (retention : Nat) (pairs : Pairs) : Pairs :=
  let keep := ((terminalRounds pairs).take retention).map (fun e => e.2.pairId)
  pairs.filter (fun e => !e.2.terminal || keep.contains e.1)

/-- What the file holds after a write. -/
def written (retention : Nat) (pairs : Pairs) : Pairs :=
  sortKeys ((pruneTerminal retention pairs).map (fun e => (e.1, e.2.sorted)))

/-! ## Operations -/

/-- The function given to `mutate`, with the time; `none` is `False`: nothing to write. -/
abbrev StoreOp := ℚ → Pairs → Except Exc (Option Pairs)

def keyError (text : String) : Exc := ⟨.other, "KeyError", text⟩

/-- `pairs.get(pair_id)`, or a new round. -/
def roundFor (symbol pairId : String) (side : Pair.Side) (qty now : ℚ) (pairs : Pairs) :
    Except Exc PairRecord :=
  match pairs.lookup pairId with
  | some r => .ok r
  | none =>
      if symbol = "" then .error (keyError ("unknown pair: " ++ pairId))
      else .ok (PairRecord.reserved symbol pairId side qty now)

/-- Store a value in a slot, unless it is there already. -/
def putIntent (symbol pairId : String) (side : Pair.Side) (kind : String) (qty : ℚ)
    (value : Stored) : StoreOp := fun now pairs =>
  match roundFor symbol pairId side qty now pairs with
  | .error e => .error e
  | .ok r =>
      if r.intents.lookup (slotKey kind side) = some value then .ok none
      else .ok (some (insert pairs pairId (r.setIntent (slotKey kind side) value now)))

/-- `intent`. -/
def storeIntent (symbol pairId : String) (side : Pair.Side) (price qty : ℚ)
    (clientOrderId kind : String) : StoreOp :=
  putIntent symbol pairId side kind qty
    (.written { side := side, price := price, qty := qty, clientOrderId := clientOrderId,
                kind := kind })

/-- `persist_intent` without a value. -/
def dropIntent (pairId : String) (side : Pair.Side) (kind : String) : StoreOp := fun now pairs =>
  match pairs.lookup pairId with
  | none => .ok none
  | some r =>
      if (r.intents.lookup (slotKey kind side)).isNone then .ok none
      else
        .ok (some (insert pairs pairId
          { r with
            intents := r.intents.filter (fun e => e.1 ≠ slotKey kind side), updatedTs := now }))

/-- `persist_intent`. -/
def persistIntent (symbol pairId : String) (side : Pair.Side) (kind : String) :
    Option Intent → StoreOp
  | none => dropIntent pairId side kind
  | some p =>
      putIntent symbol pairId side kind p.requestedQty
        (.tracked { p with side := legSide side, kind := some kind })

/-- `accepted`. -/
def storeAccepted (pairId : String) (side : Pair.Side) (orderId kind : String) : StoreOp :=
  fun now pairs =>
    match pairs.lookup pairId with
    | none => .error (keyError pairId)
    | some r =>
        match r.intents.lookup (slotKey kind side) with
        | none => .error (keyError (slotKey kind side))
        | some value =>
            .ok (some (insert pairs pairId
              (r.setIntent (slotKey kind side) (value.accept orderId) now)))

/-- `rec["state"] = state` and what goes with it. -/
def PairRecord.check (r : PairRecord) (state : Saved) (terminal : Bool) (now : ℚ) : PairRecord :=
  { r with
    state := some state, phase := some state.checkpoint.phase, terminal := terminal,
    updatedTs := now }

/-- `checkpoint`, for one round. -/
def storeCheckpoint (pairId : String) (state : Saved) (terminal : Bool) : StoreOp :=
  fun now pairs =>
    match pairs.lookup pairId with
    | none => .error (keyError pairId)
    | some r => .ok (some (insert pairs pairId (r.check state terminal now)))

/-- `checkpoint_many`: one write for all rounds of a tick. -/
def storeCheckpoints (checkpoints : List (String × Saved × Bool)) : StoreOp := fun now pairs =>
  match checkpoints.foldlM
      (fun d x => (storeCheckpoint x.1 x.2.1 x.2.2 now d).map (fun d' => d'.getD d)) pairs with
  | .error e => .error e
  | .ok d => .ok (some d)

/-- `active(symbol)`. -/
def activeRounds (symbol : String) (pairs : Pairs) : List PairRecord :=
  (pairs.map Prod.snd).filter (fun r => r.symbol = symbol && !r.terminal)

/-! ## What a write keeps -/

section Dictionaries

variable {β : Type}

/-- Two dictionaries with the same entries answer alike. -/
theorem lookup_perm {d d' : List (String × β)} (hperm : d.Perm d')
    (h : (d.map Prod.fst).Nodup) (k : String) : d.lookup k = d'.lookup k := by
  induction hperm with
  | nil => rfl
  | cons p _ ih =>
      rw [List.map_cons, List.nodup_cons] at h
      rw [List.lookup_cons, List.lookup_cons, ih h.2]
  | swap p q l =>
      rw [List.map_cons, List.map_cons, List.nodup_cons, List.mem_cons, not_or] at h
      by_cases hp : k = p.1
      · subst hp
        rw [lookup_cons_ne (Ne.symm h.1.1) (p :: l), List.lookup_cons_self, List.lookup_cons_self]
      · rw [lookup_cons_ne hp (q :: l)]
        by_cases hq : k = q.1
        · subst hq
          rw [List.lookup_cons_self, List.lookup_cons_self]
        · rw [lookup_cons_ne hq (p :: l), lookup_cons_ne hp l, lookup_cons_ne hq l]
  | trans hd _ ih ih' =>
      rw [ih h, ih' ((hd.map Prod.fst).nodup_iff.mp h)]

theorem sortKeys_perm (d : List (String × β)) : (sortKeys d).Perm d :=
  List.perm_insertionSort _ _

theorem keys_sortKeys {d : List (String × β)} (h : (d.map Prod.fst).Nodup) :
    ((sortKeys d).map Prod.fst).Nodup :=
  ((sortKeys_perm d).map Prod.fst).nodup_iff.mpr h

theorem lookup_sortKeys {d : List (String × β)} (h : (d.map Prod.fst).Nodup) (k : String) :
    (sortKeys d).lookup k = d.lookup k :=
  lookup_perm (sortKeys_perm d) (keys_sortKeys h) k

theorem lookup_filter {d : List (String × β)} {p : String × β → Bool} {k : String} {v : β}
    (h : d.lookup k = some v) (hp : p (k, v) = true) (hn : (d.map Prod.fst).Nodup) :
    (d.filter p).lookup k = some v := by
  induction d with
  | nil => cases h
  | cons e d ih =>
      rw [List.map_cons, List.nodup_cons] at hn
      by_cases hk : k = e.1
      · subst hk
        rw [List.lookup_cons_self, Option.some.injEq] at h
        have he : p e = true := by rw [← h] at hp; exact hp
        rw [List.filter_cons_of_pos he, List.lookup_cons_self, h]
      · rw [lookup_cons_ne hk] at h
        by_cases he : p e = true
        · rw [List.filter_cons_of_pos he, lookup_cons_ne hk]
          exact ih h hn.2
        · rw [List.filter_cons_of_neg he]
          exact ih h hn.2

theorem lookup_filter_ne {d : List (String × β)} {k k' : String} (h : k ≠ k') :
    (d.filter (fun e => e.1 ≠ k')).lookup k = d.lookup k := by
  induction d with
  | nil => rfl
  | cons e d ih =>
      by_cases he : e.1 = k'
      · rw [List.filter_cons_of_neg (by simp [he]), ih, lookup_cons_ne (by rw [he]; exact h)]
      · rw [List.filter_cons_of_pos (by simp [he]), List.lookup_cons, List.lookup_cons, ih]

theorem mem_of_lookup {d : List (String × β)} {k : String} {v : β} (h : d.lookup k = some v) :
    (k, v) ∈ d := by
  induction d with
  | nil => cases h
  | cons e d ih =>
      by_cases hk : k = e.1
      · subst hk
        rw [List.lookup_cons_self, Option.some.injEq] at h
        rw [← h]
        exact List.mem_cons_self
      · rw [lookup_cons_ne hk] at h
        exact List.mem_cons_of_mem _ (ih h)

theorem lookup_of_mem {d : List (String × β)} (hn : (d.map Prod.fst).Nodup) {k : String} {v : β}
    (h : (k, v) ∈ d) : d.lookup k = some v := by
  induction d with
  | nil => cases h
  | cons e d ih =>
      rw [List.map_cons, List.nodup_cons] at hn
      rcases List.mem_cons.mp h with rfl | h
      · exact List.lookup_cons_self
      · have hk : k ≠ e.1 := fun hk => hn.1 (hk ▸ List.mem_map.mpr ⟨_, h, rfl⟩)
        rw [lookup_cons_ne hk]
        exact ih hn.2 h

theorem lookup_map_value {γ : Type} (f : β → γ) (d : List (String × β)) (k : String) :
    (d.map (fun e => (e.1, f e.2))).lookup k = (d.lookup k).map f := by
  induction d with
  | nil => rfl
  | cons e d ih =>
      rw [List.map_cons, List.lookup_cons, List.lookup_cons, ih]
      split <;> rfl

end Dictionaries

/-- Keys are distinct, in the object and in each round. -/
structure Wellformed (pairs : Pairs) : Prop where
  keys : (pairs.map Prod.fst).Nodup
  intents : ∀ e ∈ pairs, (e.2.intents.map Prod.fst).Nodup

theorem Wellformed.insert {pairs : Pairs} (h : Wellformed pairs) {pairId : String} {r : PairRecord}
    (hr : (r.intents.map Prod.fst).Nodup) : Wellformed (insert pairs pairId r) where
  keys := nodup_insert h.keys pairId r
  intents := by
    have hnodup := nodup_insert h.keys pairId r
    rintro ⟨k, v⟩ he
    have hlookup := lookup_of_mem hnodup he
    rw [lookup_insert] at hlookup
    split at hlookup
    · cases hlookup
      exact hr
    · exact h.intents _ (mem_of_lookup hlookup)

theorem Wellformed.written {pairs : Pairs} (h : Wellformed pairs) (retention : Nat) :
    Wellformed (written retention pairs) where
  keys := by
    refine keys_sortKeys ?_
    rw [List.map_map]
    exact h.keys.sublist (List.filter_sublist.map Prod.fst)
  intents := by
    intro e he
    obtain ⟨e', he', rfl⟩ := List.mem_map.mp ((sortKeys_perm _).mem_iff.mp he)
    exact keys_sortKeys (h.intents _ (List.mem_of_mem_filter he'))

/-- A round that is not over is written as it is. -/
theorem lookup_written {pairs : Pairs} (h : Wellformed pairs) {pairId : String} {r : PairRecord}
    (hr : pairs.lookup pairId = some r) (hopen : r.terminal = false) (retention : Nat) :
    (written retention pairs).lookup pairId = some r.sorted := by
  unfold written
  have hnodup : (((pruneTerminal retention pairs).map (fun e => (e.1, e.2.sorted))).map
      Prod.fst).Nodup := by
    rw [List.map_map]
    exact h.keys.sublist (List.filter_sublist.map Prod.fst)
  rw [lookup_sortKeys hnodup, lookup_map_value]
  unfold pruneTerminal
  simp only
  rw [lookup_filter hr (by simp [hopen]) h.keys]
  rfl

theorem lookup_sorted {r : PairRecord} (h : (r.intents.map Prod.fst).Nodup) (key : String) :
    r.sorted.intents.lookup key = r.intents.lookup key := lookup_sortKeys h key

end TradingFleet.Rtrade
