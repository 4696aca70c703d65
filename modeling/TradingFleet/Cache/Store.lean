import TradingFleet.Cache.World

set_option autoImplicit false

/-! # The trade cache on disk

The operations of `CacheTradeManager` on its files, each under the generation lock: loading a
generation, appending to it (`_save_account_trade_append`), rewriting it
(`_compact_account_trade_jsonl`), retention and rotation. A row counts once a manifest that covers
it is written.
-/

namespace TradingFleet.Cache

open JsonText

/-! ## Reading a generation -/

/-- `_read_trade_records_strict`, on the text of a file. -/
def readTradeRecordsStrict (text : Option (List Char)) (start stop : Nat) : Option (List Record) :=
  match text with
  | none => none
  | some text =>
      if stop < start ∨ text.length < stop then none else
      let raw := (text.take stop).drop start
      if raw ≠ [] ∧ raw.getLast? ≠ some '\n' then none
      else Journal.decode readRecord raw

/-- `_nonzero_counts` -/
def nonzeroCounts (counts : List (String × Nat)) : List (String × Nat) :=
  counts.filter (fun p => p.2 ≠ 0)

/-- What tells fills apart: `seen_ids[symbol.upper()]`. -/
def fillKey (r : Record) : String × Int := (Text.upper r.1, tradeId r.2)

/-- `_read_trade_snapshot_strict` -/
def readTradeSnapshotStrict (env : Env) (m : Manifest) (text : Option (List Char)) :
    Option (Rows × List (String × Nat)) := do
  let records ← readTradeRecordsStrict text 0 m.committedBytes
  if tradeRecordsDigest env records "" ≠ some m.contentDigest then none
  else if ¬ (records.map fillKey).Nodup then none
  else if Buckets.sameMap (Buckets.counts (Buckets.group records)) (nonzeroCounts m.counts) then
    some (Buckets.group records, m.counts)
  else none

/-- The loop over the lines of a file without a manifest of this schema. A row that comes twice is
dropped; a last line that is no JSON is dropped where the rows before it are those that an older
manifest counts. What cannot be read is an error, with the rows so far. -/
def legacyRows (expected : Option (List (String × Nat))) (cache : Rows)
    (seen : List ((String × Int) × TradeSignature)) : List (List Char) → Except Rows Rows
  | [] => .ok cache
  | line :: lines =>
      if Text.stripChars line ≠ [] then
        match loads (Text.stripChars line) with
        | none =>
            if lines.all (fun line => Text.stripChars line = []) && expected.any (fun counts =>
                Buckets.sameMap (nonzeroCounts counts) (Buckets.counts cache)) then .ok cache
            else .error cache
        | some value =>
            match recordOf value with
            | none => .error cache
            | some r =>
                match tradeSemanticSignature r.2 with
                | none => .error cache
                | some signature =>
                    match seen.lookup (fillKey r) with
                    | some known =>
                        if known ≠ signature then .error cache
                        else legacyRows expected cache seen lines
                    | none =>
                        legacyRows expected (Buckets.addRow cache r.1 r.2)
                          ((fillKey r, signature) :: seen) lines
      else legacyRows expected cache seen lines

def legacyField {β : Type} (file : Option MetaFile) (key : String) (f : Value → Option β) :
    Option β :=
  match file with
  | some (.json value) => Value.get? value key >>= f
  | _ => none

def legacyLoad (d : Disk) : Except Rows Rows :=
  legacyRows (legacyField d.manifest "counts" (mapOf countOf)) [] []
    (Journal.splitLines (d.data.getD []))

/-! ## Loading -/

/-- `_remember_loaded_trade_manifest_locked` and the assignments before it. -/
def Manager.install (mgr : Manager) (m : Manifest) (cache : Rows) (counts : List (String × Nat)) :
    Manager :=
  { mgr with
    cache := cache
    fetchtime := m.fetchtime
    persistedCounts := counts
    persisted := some m.identity
    loaded := some m.identity
    loadedCounts := counts
    dirty := false }

/-- The end of `_load_jsonl_generation_locked`, where there is no manifest. -/
def Manager.installLegacy (mgr : Manager) (cache : Rows)
    (fetchtime : Option (List (String × Int))) : Manager :=
  { mgr with
    cache := cache
    fetchtime := fetchtime.getD mgr.fetchtime
    persistedCounts := Buckets.counts cache
    needsRewrite := true }

/-- The generation before, where the file of the rows is refused. -/
def loadPrevious (env : Env) (m : Manifest) : Op Unit := do
  let c ← getCore
  match readTradeSnapshotStrict env m c.disk.previousText with
  | none => raise .notReady
  | some snapshot =>
      catching restorePrevious (raise .notReady)
      modifyManager (·.install m snapshot.1 snapshot.2)

/-- A generation with a manifest. -/
def loadReady (env : Env) (m : Manifest) : Op Unit := do
  let c ← getCore
  match readTradeSnapshotStrict env m c.disk.data with
  | none => loadPrevious env m
  | some snapshot =>
      discardPrevious
      modifyManager (·.install m snapshot.1 snapshot.2)

/-- A file without a manifest of this schema. -/
def loadLegacy : Op Unit := do
  let c ← getCore
  match legacyLoad c.disk with
  | .error cache =>
      modifyManager (fun mgr => { mgr with cache := cache })
      raise .notReady
  | .ok cache =>
      modifyManager (·.installLegacy cache
        (legacyField c.disk.manifest "fetchtime" (mapOf wholeOf)))

/-- `_load_jsonl_generation_locked` -/
def loadJsonlGenerationLocked (env : Env) : Op Unit := do
  let c ← getCore
  match loadVersionedAccountMeta env c.disk.manifest none with
  | .notReady => raise .notReady
  | .ready m => loadReady env m
  | .absent => loadLegacy

/-! ## Writing a manifest -/

/-- `_remember_account_commit_locked` -/
def Manager.remember (mgr : Manager) (m : Manifest) : Manager :=
  { mgr with
    persisted := some m.identity
    loaded := some m.identity
    loadedCounts := m.counts
    dirty := false }

/-- What a writer does once its manifest is written. -/
def Manager.commit (mgr : Manager) (m : Manifest) : Manager :=
  { mgr.remember m with persistedCounts := m.counts, needsRewrite := false }

/-- `uuid.uuid4().hex` -/
def drawUuid (env : Env) : Op String := do
  let c ← getCore
  modifyCore (fun c => { c with drawn := c.drawn + 1 })
  pure (env.uuid c.drawn)

/-! ## Rewriting -/

def rewriteLater : Op Unit := modifyManager (fun mgr => { mgr with needsRewrite := true })

/-- The rows of a rewrite: each in its bucket, equivalent ones collapsed; `none` where a row is
refused. -/
def compactRows (cache : Rows) : Option Rows :=
  cache.mapM (fun bucket =>
    if bucket.2.all (isRow bucket.1) then
      (dedupeTradeItemsById bucket.2).map (fun deduped => (bucket.1, deduped))
    else none)

/-- The certified generation is staged before it is rewritten. -/
def stageCertified (env : Env) (m : Manifest) : Op Bool := do
  let c ← getCore
  match readTradeSnapshotStrict env m c.disk.data with
  | none => raise .notReady
  | some _ =>
      stagePrevious env.links
      pure true

/-- Whether a generation before was staged. -/
def stageGeneration (env : Env) : Op Bool := do
  let c ← getCore
  match loadVersionedAccountMeta env c.disk.manifest none with
  | .notReady => raise .notReady
  | .ready m => stageCertified env m
  | .absent =>
      discardPrevious
      pure false

/-- The rows in memory are checked, and replace those in the file. -/
def replaceRows : Op Unit := do
  let c ← getCore
  match compactRows c.manager.cache with
  | none => raise .value
  | some cache =>
      modifyManager (fun mgr => { mgr with cache := cache })
      if validateAccountRows cache then
        replaceData (Journal.encode writeRecord (Buckets.flat cache))
      else raise .value

/-- `_compact_account_trade_jsonl_generation_locked` up to the new file. -/
def writeCompacted (env : Env) : Op Bool := do
  let staged ← stageGeneration env
  replaceRows
  pure staged

/-- The manifest of a rewrite: a stream of its own, from the first revision. -/
def compactManifest (env : Env) (stream : String) (mgr : Manager) : Manifest :=
  { stream := stream
    revision := 1
    committedBytes := (Journal.encode writeRecord (Buckets.flat mgr.cache)).length
    contentDigest := Journal.chain writeRecord env.extend env.start (Buckets.flat mgr.cache)
    fetchtime := mgr.fetchtime
    counts := Buckets.counts mgr.cache }

/-- What is tried where the manifest could not be written: the generation before comes back, at the
second try where the first one raised and left it there. -/
def rollBackCompacted (staged : Bool) : Op Unit := do
  if staged then
    if (← attempt restorePrevious).isNone then
      let c ← getCore
      if c.disk.previous.isSome then catching restorePrevious (pure ()) else pure ()
    else pure ()
  else pure ()

def discardStaged (staged : Bool) : Op Unit := if staged then discardPrevious else pure ()

/-- The manifest of the rewritten rows; without it the generation before comes back. -/
def publishCompacted (env : Env) (staged : Bool) : Op Bool := do
  let stream ← drawUuid env
  let c ← getCore
  let m := compactManifest env stream c.manager
  if ← writeMeta m then
    discardStaged staged
    modifyManager (·.commit m)
    pure true
  else
    rollBackCompacted staged
    rewriteLater
    pure false

/-- `_compact_account_trade_jsonl_generation_locked` -/
def compactGenerationLocked (env : Env) : Op Bool := do
  match ← attempt (writeCompacted env) with
  | none =>
      rewriteLater
      pure false
  | some staged => publishCompacted env staged

/-! ## Appending -/

/-- The rows that are in memory and not on disk. -/
def Manager.delta (mgr : Manager) : List Record :=
  Buckets.flat (mgr.cache.map (fun bucket =>
    (bucket.1, bucket.2.drop (countAt mgr.persistedCounts bucket.1))))

def Manager.candidateCounts (mgr : Manager) : List (String × Nat) :=
  mgr.cache.foldl (fun counts bucket => Buckets.insert counts bucket.1 bucket.2.length)
    mgr.persistedCounts

/-- The file is opened, and the size is found behind which rows are written. -/
def beginAppend : Op Nat := do
  openData
  let c ← getCore
  let size := (c.disk.data.getD []).length
  match c.manager.persisted with
  | none => pure size
  | some i => if size < i.committedBytes then raise .os else pure i.committedBytes

/-- The manifest of an append: the stream goes on, at the next revision where there were new rows. -/
def appendManifest (mgr : Manager) (stream digest : String) (committedBytes : Nat) : Manifest :=
  let revision := (mgr.persisted.map Identity.revision).getD 0
  { stream := stream
    revision := max 1
      (if mgr.delta ≠ [] ∨ mgr.persisted.isNone = true then revision + 1 else revision)
    committedBytes := committedBytes
    contentDigest := digest
    fetchtime := mgr.fetchtime
    counts := mgr.candidateCounts }

/-- `_truncate_failed_jsonl_append` -/
def truncateFailedAppend (size : Nat) : Op Unit := catching (truncateData size) (pure ())

/-- The manifest of the appended rows; without it they are cut off again. -/
def publishDelta (env : Env) (size : Nat) (digest : String) : Op Bool := do
  let c ← getCore
  let stream ← match c.manager.persisted with
    | some i => pure i.stream
    | none => drawUuid env
  let m := appendManifest c.manager stream digest
    (size + (Journal.encode writeRecord c.manager.delta).length)
  if ← writeMeta m then
    modifyManager (·.commit m)
    pure true
  else
    truncateFailedAppend size
    pure false

/-- What stands behind `size` bytes is cut off. -/
def trimData (size : Nat) : Op Unit := do
  let c ← getCore
  if (c.disk.data.getD []).length ≠ size then truncateData size else pure ()

/-- The rows are written behind `size` bytes, then the manifest. -/
def writeDelta (env : Env) (size : Nat) : Op Bool := do
  trimData size
  let c ← getCore
  if c.manager.delta.all (fun r => isRow r.1 r.2) then
    appendData size (Journal.encode writeRecord c.manager.delta)
    match tradeRecordsDigest env c.manager.delta
      ((c.manager.persisted.map Identity.contentDigest).getD "") with
    | none => raise .value
    | some digest => publishDelta env size digest
  else raise .value

/-- `_save_account_trade_append_generation_locked`, once the rows passed and nothing asks for a
rewrite. -/
def appendGenerationLocked (env : Env) : Op Bool := do
  match ← attempt beginAppend with
  | none => pure false
  | some size =>
      catching (writeDelta env size) (do
        truncateFailedAppend size
        pure false)

/-- Whether rows on disk are missing in memory. -/
def Manager.shortened (mgr : Manager) : Bool :=
  mgr.cache.any (fun bucket => bucket.2.length < countAt mgr.persistedCounts bucket.1)

/-- `_save_account_trade_append_generation_locked` -/
def saveGenerationLocked (env : Env) : Op Bool := do
  let c ← getCore
  if validateAccountRows c.manager.cache then
    if c.manager.needsRewrite || c.manager.shortened then compactGenerationLocked env
    else appendGenerationLocked env
  else raise .value

/-- Whether the manager knows the generation on disk. -/
def identityMatches (env : Env) (c : Core) : Option Bool :=
  match loadVersionedAccountMeta env c.disk.manifest none with
  | .notReady => none
  | .absent => some (c.manager.persisted.isNone &&
      (c.manager.needsRewrite || c.disk.manifest.isNone))
  | .ready m => some (c.manager.persisted = some m.identity)

/-- `_save_account_trade_append_if_current_generation_locked` -/
def saveIfCurrentGenerationLocked (env : Env) : Op Bool := do
  let c ← getCore
  match identityMatches env c with
  | none => raise .notReady
  | some false => pure false
  | some true =>
      if c.manager.memMaxTs < persistedMaxTs c.disk.manifest then pure false
      else saveGenerationLocked env

/-- `_save_account_trade_append` -/
def saveAccountTradeAppend (env : Env) : Op Bool :=
  catching (saveIfCurrentGenerationLocked env) (pure false)

/-! ## Retention and rotation -/

def truthy : Value → Bool
  | .null => false
  | .bool b => b
  | .num n => (Numeral.decimalOfText (String.ofList n.text)).any (fun d => d.coefficient ≠ 0)
  | .str s => s ≠ ""
  | .arr items => !items.isEmpty
  | .obj fields => !fields.isEmpty

/-- `item.get("time") or item.get("timestamp") or 0` -/
def entryTime (item : Value) : Value :=
  match Value.get? item "time", Value.get? item "timestamp" with
  | some time, timestamp =>
      if truthy time then time else (timestamp.filter truthy).getD (Numeral.intValue 0)
  | none, timestamp => (timestamp.filter truthy).getD (Numeral.intValue 0)

/-- `_entry_timestamp_ms`: seconds where the number is small, milliseconds otherwise. -/
def entryTimestampMs (item : Value) : Int :=
  match item, pyFloat (entryTime item) with
  | .obj _, some d =>
      let ms : Numeral.Decimal := { d with exponent := d.exponent + 3 }
      if 0 < d.coefficient ∧ d.coefficient * 10 ^ d.exponent.toNat <
          100000000000 * 10 ^ (-d.exponent).toNat then ms.trunc
      else d.trunc
  | _, _ => 0

/-- The rows that retention keeps. -/
def prune (cutoff : Int) (cache : Rows) : Rows :=
  cache.map (fun bucket => (bucket.1, bucket.2.filter (fun item => cutoff ≤ entryTimestampMs item)))

/-- The last rows of each bucket, as many as a rotation keeps. -/
def keepLatest (env : Env) (cache : Rows) : Rows :=
  cache.map (fun bucket =>
    (bucket.1, bucket.2.drop (bucket.2.length - max 1 (env.keepCount bucket.2.length))))

def Disk.archive (d : Disk) : Disk := { d with archives := d.data.toList ++ d.archives }

def Disk.discardArchives (d : Disk) (n : Nat) : Disk :=
  { d with archives := d.archives.drop (d.archives.length - n) }

/-- `atomic_snapshot_file(filename, archive)` -/
def archiveData : Op Unit :=
  diskOp Disk.archive (whenApplied Disk.archive) (whenApplied Disk.archive)

/-- `_discard_trade_generation(archive)` -/
def discardArchives (n : Nat) : Op Unit :=
  catching (diskOp (·.discardArchives n) untouched (whenApplied (·.discardArchives n))) (pure ())

/-- The part of a rotation before it touches memory. -/
def beginRotation (env : Env) : Op Unit := do
  let c ← getCore
  match loadVersionedAccountMeta env c.disk.manifest none with
  | .ready m =>
      match readTradeSnapshotStrict env m c.disk.data with
      | none => raise .notReady
      | some _ => archiveData
  | _ => raise .notReady

/-- `_rotate_account_trade_keep_latest` -/
def rotateAccountTradeKeepLatest (env : Env) : Op Bool := do
  let c ← getCore
  match ← attempt (beginRotation env) with
  | none =>
      discardArchives c.disk.archives.length
      pure false
  | some _ =>
      modifyManager (fun mgr => { mgr with cache := keepLatest env mgr.cache, dirty := true })
      if ← compactGenerationLocked env then pure true
      else
        modifyManager (fun mgr =>
          { mgr with
            cache := c.manager.cache
            dirty := c.manager.dirty
            needsRewrite := c.manager.needsRewrite })
        discardArchives c.disk.archives.length
        pure false

/-- Retention by time. -/
def pruneOld (env : Env) (cutoff : Int) : Op Unit := do
  let c ← getCore
  let pruned := prune cutoff c.manager.cache
  if Buckets.counts pruned ≠ Buckets.counts c.manager.cache then
    modifyManager (fun mgr => { mgr with cache := pruned, dirty := true })
    let _ ← compactGenerationLocked env
  else pure ()

/-- Retention by size. -/
def rotateOversized (env : Env) : Op Unit := do
  let c ← getCore
  if c.disk.data.any (fun text => env.maxFileBytes < text.length) then
    let _ ← rotateAccountTradeKeepLatest env
  else pure ()

/-- `maintain_append_persist` -/
def maintainAppendPersist (env : Env) (cutoff : Int) : Op Unit := do
  pruneOld env cutoff
  rotateOversized env

/-! ## Adding fills -/

/-- The fills of a bucket; `none` where a row in it is refused or comes twice. -/
def indexBucket (symbol : String) (seen : Seen) : List Value → Option Seen
  | [] => some seen
  | item :: items =>
      if isRow symbol item then do
        let signature ← tradeSemanticSignature item
        if (seen.lookup (tradeId item)).isSome then none
        else indexBucket symbol ((tradeId item, signature) :: seen) items
      else none

/-- The incoming fills that are new; `none` where one is refused or conflicts with a known one. -/
def newFills (symbol : String) (seen : Seen) : List Value → Option (List Value)
  | [] => some []
  | item :: items =>
      if isRow symbol item then do
        let signature ← tradeSemanticSignature item
        match seen.lookup (tradeId item) with
        | some known => if known ≠ signature then none else newFills symbol seen items
        | none => do
            let rest ← newFills symbol ((tradeId item, signature) :: seen) items
            pure (item :: rest)
      else none

/-- `self.cache.setdefault(symbol, [])` -/
def setDefault (cache : Rows) (symbol : String) : Rows :=
  if (cache.lookup symbol).isSome then cache else cache ++ [(symbol, [])]

/-- `CacheTradeManager._persist_items`. A bucket of its own is there also where the call raises. -/
def persistItems (symbol : String) (items : List Value) (now : Int) (mgr : Manager) :
    Manager × Bool :=
  let cache := setDefault mgr.cache symbol
  let bucket := Buckets.rowsOf cache symbol
  match indexBucket symbol [] bucket >>= fun seen => newFills symbol seen items with
  | none => ({ mgr with cache := cache }, false)
  | some [] => ({ mgr with cache := cache }, true)
  | some fresh =>
      ({ mgr with
          cache := Buckets.insert cache symbol (bucket ++ fresh)
          fetchtime := Buckets.insert mgr.fetchtime symbol now
          dirty := true }, true)

end TradingFleet.Cache
