import TradingFleet.Orders.Filters

set_option autoImplicit false

/-! # The health of the account caches

`inspect_health` of `binance_cache_health.py` reads the snapshot that the cache process publishes
and tells how old the last complete synchronizations of the Order and the Trade cache are. Times
in the snapshot are whole milliseconds of the wall clock.
-/

namespace TradingFleet.Permits

/-! ## The snapshot -/

/-- A value of the JSON file. -/
inductive Json where
  | int (n : ℤ)
  | float (q : ℚ)
  | bool (b : Bool)
  | str (s : String)
  | other
deriving DecidableEq

/-- What opening and parsing the file gives. -/
inductive HealthFile where
  | missing
  | unreadable
  | object (fields : List (String × Json))
deriving DecidableEq

/-- `state.get(key)`. -/
def field (fields : List (String × Json)) (key : String) : Json := (fields.lookup key).getD .other

def positiveInt : Json → Option ℤ
  | .int n => if n ≤ 0 then none else some n
  | _ => none

def nonnegativeInt : Json → Option ℤ
  | .int n => if n < 0 then none else some n
  | _ => none

def isBool : Json → Option Bool
  | .bool b => some b
  | _ => none

def isStr : Json → Option String
  | .str s => some s
  | _ => none

/-- `== SCHEMA_VERSION`. -/
def isSchemaVersion : Json → Bool
  | .int n => n = 2
  | .float q => q = 2
  | _ => false

/-- The fields of a valid snapshot. -/
structure Snapshot where
  writerPid : ℤ
  writerStartedMs : ℤ
  generation : ℤ
  stopping : Bool
  orderSyncMs : ℤ
  tradeSyncMs : ℤ
  orderVersion : String
  tradeVersion : String
deriving DecidableEq

/-- The validation of the fields after the schema version. -/
def snapshot (fields : List (String × Json)) : Option Snapshot := do
  let writerPid ← positiveInt (field fields "writer_pid")
  let writerStartedMs ← positiveInt (field fields "writer_started_at_ms")
  let generation ← nonnegativeInt (field fields "generation")
  let _ ← positiveInt (field fields "published_at_ms")
  let stopping ← isBool (field fields "stopping")
  let orderSyncMs ← nonnegativeInt (field fields "order_sync_at_ms")
  let tradeSyncMs ← nonnegativeInt (field fields "trade_sync_at_ms")
  let orderVersion ← isStr (field fields "order_cache_version")
  let tradeVersion ← isStr (field fields "trade_cache_version")
  some ⟨writerPid, writerStartedMs, generation, stopping, orderSyncMs, tradeSyncMs, orderVersion,
    tradeVersion⟩

def Snapshot.initializing (S : Snapshot) : Bool :=
  S.generation < 2 || S.orderSyncMs = 0 || S.tradeSyncMs = 0 || S.orderVersion = "" ||
    S.tradeVersion = ""

/-! ## Its inspection -/

/-- The configured times. -/
structure HealthConfig where
  maxAgeSec : ℚ
  permitTtlSec : ℚ
  processIdentityRequired : Bool
  maxAge_pos : 0 < maxAgeSec
  ttl_pos : 0 < permitTtlSec
  ttl_lt : permitTtlSec < maxAgeSec

/-- `future_tolerance_ms`. -/
def futureToleranceMs : ℤ := 5000

structure CacheHealthStatus where
  ready : Bool
  reason : String
  orderAgeSec : Option ℚ := none
  tradeAgeSec : Option ℚ := none
  orderCacheVersion : String := ""
  tradeCacheVersion : String := ""
deriving DecidableEq

/-- One read of the file, with what the operating system says of the process that wrote it. -/
structure HealthRead where
  file : HealthFile
  pidIsAlive : ℤ → Bool
  pidStartedAtMs : ℤ → Option ℤ

/-- The snapshot the file holds. -/
def HealthRead.snapshot? (r : HealthRead) : Option Snapshot :=
  match r.file with
  | .object fields => snapshot fields
  | _ => none

def ageSec (nowMs syncMs : ℤ) : ℚ := max 0 (((nowMs - syncMs : ℤ) : ℚ) / 1000)

/-- The judgement of a valid snapshot. -/
def inspectSnapshot (H : HealthConfig) (r : HealthRead) (nowMs : ℤ) (S : Snapshot) :
    CacheHealthStatus :=
  if !r.pidIsAlive S.writerPid then ⟨false, "account_cache_writer_not_running", none, none, "", ""⟩
  else if H.processIdentityRequired && (r.pidStartedAtMs S.writerPid).isNone then
    ⟨false, "account_cache_writer_identity_unavailable", none, none, "", ""⟩
  else if (r.pidStartedAtMs S.writerPid).any (fun ms => 2000 < |ms - S.writerStartedMs|) then
    ⟨false, "account_cache_writer_identity_changed", none, none, "", ""⟩
  else if S.stopping then ⟨false, "account_cache_writer_stopping", none, none, "", ""⟩
  else if S.initializing then ⟨false, "account_cache_initializing", none, none, "", ""⟩
  else if nowMs + futureToleranceMs < S.orderSyncMs ∨ nowMs + futureToleranceMs < S.tradeSyncMs then
    ⟨false, "account_cache_timestamp_in_future", none, none, "", ""⟩
  else
    let orderAge := ageSec nowMs S.orderSyncMs
    let tradeAge := ageSec nowMs S.tradeSyncMs
    if H.maxAgeSec < orderAge then
      ⟨false, "order_cache_stale", some orderAge, some tradeAge, "", ""⟩
    else if H.maxAgeSec < tradeAge then
      ⟨false, "trade_cache_stale", some orderAge, some tradeAge, "", ""⟩
    else ⟨true, "", some orderAge, some tradeAge, S.orderVersion, S.tradeVersion⟩

/-- `inspect_health`. -/
def inspectHealth (H : HealthConfig) (r : HealthRead) (nowMs : ℤ) : CacheHealthStatus :=
  match r.file with
  | .missing => ⟨false, "account_cache_health_missing", none, none, "", ""⟩
  | .unreadable => ⟨false, "account_cache_health_invalid", none, none, "", ""⟩
  | .object fields =>
      if !isSchemaVersion (field fields "schema_version") then
        ⟨false, "account_cache_schema_mismatch", none, none, "", ""⟩
      else
        match snapshot fields with
        | none => ⟨false, "account_cache_health_invalid", none, none, "", ""⟩
        | some S => inspectSnapshot H r nowMs S

theorem inspectSnapshot_ready {H : HealthConfig} {r : HealthRead} {nowMs : ℤ} {S : Snapshot}
    (h : (inspectSnapshot H r nowMs S).ready = true) :
    inspectSnapshot H r nowMs S = ⟨true, "", some (ageSec nowMs S.orderSyncMs),
      some (ageSec nowMs S.tradeSyncMs), S.orderVersion, S.tradeVersion⟩ := by
  generalize hs : inspectSnapshot H r nowMs S = status at h ⊢
  unfold inspectSnapshot at hs
  dsimp only at hs
  -- every refusal answers that the snapshot is not ready
  split_ifs at hs
  all_goals subst hs
  all_goals first | rfl | cases h

/-- **A ready status carries the ages of the synchronizations of a snapshot.** -/
theorem inspectHealth_ready {H : HealthConfig} {r : HealthRead} {nowMs : ℤ}
    (h : (inspectHealth H r nowMs).ready = true) :
    ∃ S, r.snapshot? = some S ∧
      (inspectHealth H r nowMs).orderAgeSec = some (ageSec nowMs S.orderSyncMs) ∧
      (inspectHealth H r nowMs).tradeAgeSec = some (ageSec nowMs S.tradeSyncMs) := by
  unfold inspectHealth HealthRead.snapshot? at *
  cases hfile : r.file with
  | missing => simp [hfile] at h
  | unreadable => simp [hfile] at h
  | object fields =>
      simp only [hfile] at h ⊢
      split at h
      · cases h
      · rename_i hschema
        cases hS : snapshot fields with
        | none => simp [hS] at h
        | some S =>
            simp only [hS] at h
            have hready := inspectSnapshot_ready h
            refine ⟨S, rfl, ?_, ?_⟩
            · simp [hschema, hready]
            · simp [hschema, hready]

/-- An age is never less than the time since the synchronization. -/
theorem le_ageSec (nowMs syncMs : ℤ) :
    (nowMs : ℚ) / 1000 - (syncMs : ℚ) / 1000 ≤ ageSec nowMs syncMs := by
  have h : ((nowMs - syncMs : ℤ) : ℚ) / 1000 = (nowMs : ℚ) / 1000 - (syncMs : ℚ) / 1000 := by
    push_cast
    ring
  unfold ageSec
  rw [h]
  exact le_max_right _ _

end TradingFleet.Permits
