import TradingFleet.Rtrade.Store

set_option autoImplicit false

/-! # What the store of rounds accepts

`_validate` of the pair store, run on everything that is read and on everything that is written.
What the types of the model say is left out: that a value is an object, a side or a number. -/

namespace TradingFleet.Rtrade

open TradingFleet.Buckets TradingFleet.Lifecycle TradingFleet.Text

/-! ## Checks -/

/-- One check, with the message of its failure. -/
def require (holds : Bool) (message : String) : Except Exc Unit :=
  if holds then .ok () else .error (valueError message)

/-- `_finite_positive`. -/
def finitePositive (value : ℚ) (field : String) : Except Exc Unit :=
  require (0 < value) ("invalid rtrade pair-store " ++ field)

/-- `str(intent.get("kind") or "")`. -/
def Stored.kindText : Stored → String
  | .written i => i.kind
  | .tracked p => p.kind.getD ""

def Stored.side : Stored → Pair.Side
  | .written i => i.side
  | .tracked p => pairSide p.side

def Stored.qty : Stored → ℚ
  | .written i => i.qty
  | .tracked p => p.requestedQty

def Stored.price : Stored → Option ℚ
  | .written i => some i.price
  | .tracked p => p.requestedPrice

def Stored.pairId : Stored → Option String
  | .written _ => none
  | .tracked p => p.metadata.pairId

def Stored.symbol : Stored → Option String
  | .written _ => none
  | .tracked p => some p.symbol

def Stored.intentId : Stored → Option String
  | .written _ => none
  | .tracked p => some p.intentId

/-- `_validate_intent`. -/
def validateIntent (pairId symbol key : String) (stored : Stored) : Except Exc Unit := do
  require (stored.kindText ≠ "" && key = slotKey stored.kindText stored.side)
    ("invalid rtrade intent identity " ++ quoted key)
  require (!blank stored.clientOrderId) ("invalid rtrade intent client ID " ++ quoted key)
  require (stored.pairId.all (fun id => id = pairId))
    ("rtrade intent " ++ quoted key ++ " belongs to another pair")
  require (stored.symbol.all (fun text => text = symbol))
    ("rtrade intent " ++ quoted key ++ " belongs to another symbol")
  finitePositive stored.qty ("intent " ++ quoted key ++ " quantity")
  stored.price.forM (fun price => finitePositive price ("intent " ++ quoted key ++ " price"))
  require (stored.orderId.all (fun id => !blank id))
    ("invalid rtrade intent order ID " ++ quoted key)
  require (stored.intentId.all (fun id => !blank id))
    ("invalid rtrade tracked intent ID " ++ quoted key)

/-- One ticket of a checkpoint; `known` are the IDs before it. -/
def validateTicket (pairId : String) (known : List String) (t : Pair.TicketRecord) :
    Except Exc (List String) := do
  let orderId := strip t.orderId
  require (orderId ≠ "" && !known.contains orderId)
    ("invalid rtrade checkpoint ticket identity for " ++ quoted pairId)
  finitePositive t.price ("checkpoint ticket " ++ quoted orderId ++ " price")
  finitePositive t.qty ("checkpoint ticket " ++ quoted orderId ++ " quantity")
  require (t.pairId.all (fun id => id = pairId)) "rtrade checkpoint ticket belongs to another pair"
  pure (orderId :: known)

/-- The checkpoint of a round; its snapshots are sound by their type. -/
def validateState (pairId : String) (record : PairRecord) (state : Saved) : Except Exc Unit := do
  require (some state.checkpoint.phase = record.phase)
    ("rtrade checkpoint phase mismatch for " ++ quoted pairId)
  require (state.checkpoint.pairId = pairId)
    ("rtrade checkpoint identity mismatch " ++ quoted pairId)
  if !record.terminal then
    finitePositive state.checkpoint.qty ("checkpoint " ++ quoted pairId ++ " quantity")
  let _ ← state.checkpoint.tickets.foldlM (validateTicket pairId) []

def validateRecord (pairId : String) (record : PairRecord) : Except Exc Unit := do
  require (!blank pairId) "invalid rtrade pair key"
  require (record.pairId = pairId) ("rtrade pair identity mismatch " ++ quoted pairId)
  require (!blank record.symbol) ("invalid rtrade symbol for " ++ quoted pairId)
  finitePositive record.qty ("pair " ++ quoted pairId ++ " quantity")
  record.state.forM (validateState pairId record)
  finitePositive record.createdTs ("pair " ++ quoted pairId ++ " created_ts")
  finitePositive record.updatedTs ("pair " ++ quoted pairId ++ " updated_ts")
  record.intents.forM (fun e => validateIntent pairId record.symbol e.1 e.2)

/-- `_validate`. -/
def validate (pairs : Pairs) : Except Exc Unit :=
  pairs.forM (fun e => validateRecord e.1 e.2)

/-! ## What a store that passes has -/

theorem require_ok {holds : Bool} {message : String} (h : require holds message = .ok ()) :
    holds = true := by
  unfold require at h
  split at h
  · assumption
  · cases h

section Exceptions

variable {ε α β : Type}

theorem except_bind_ok {x : Except ε α} {f : α → Except ε β} {b : β}
    (h : (x >>= f) = .ok b) : ∃ a, x = .ok a ∧ f a = .ok b := by
  cases x with
  | error e => cases h
  | ok a => exact ⟨a, rfl, h⟩

theorem except_forM_ok {f : α → Except ε Unit} {l : List α} (h : l.forM f = .ok ()) {a : α}
    (ha : a ∈ l) : f a = .ok () := by
  induction l with
  | nil => cases ha
  | cons b l ih =>
      rw [List.forM_eq_forM, List.forM_cons] at h
      obtain ⟨_, hb, hl⟩ := except_bind_ok h
      rcases List.mem_cons.mp ha with rfl | ha
      · exact hb
      · exact ih hl ha

end Exceptions

/-- An intent stands under the key of its slot. -/
theorem validateIntent_slot {pairId symbol key : String} {stored : Stored}
    (h : validateIntent pairId symbol key stored = .ok ()) :
    stored.kindText ≠ "" ∧ key = slotKey stored.kindText stored.side := by
  obtain ⟨_, hslot, -⟩ := except_bind_ok h
  simpa using require_ok hslot

/-- What the code reads off a store that passed. -/
structure Sound (pairs : Pairs) : Prop where
  named : ∀ e ∈ pairs, e.2.pairId = e.1
  slots : ∀ e ∈ pairs, ∀ i ∈ e.2.intents,
    i.2.kindText ≠ "" ∧ i.1 = slotKey i.2.kindText i.2.side

theorem validate_sound {pairs : Pairs} (h : validate pairs = .ok ()) : Sound pairs where
  named e he := by
    obtain ⟨_, -, h⟩ := except_bind_ok (except_forM_ok h he)
    obtain ⟨_, hnamed, -⟩ := except_bind_ok h
    simpa using require_ok hnamed
  slots e he i hi := by
    obtain ⟨_, -, h⟩ := except_bind_ok (except_forM_ok h he)
    obtain ⟨_, -, h⟩ := except_bind_ok h
    obtain ⟨_, -, h⟩ := except_bind_ok h
    obtain ⟨_, -, h⟩ := except_bind_ok h
    obtain ⟨_, -, h⟩ := except_bind_ok h
    obtain ⟨_, -, h⟩ := except_bind_ok h
    obtain ⟨_, -, hintents⟩ := except_bind_ok h
    exact validateIntent_slot (except_forM_ok hintents hi)

end TradingFleet.Rtrade
