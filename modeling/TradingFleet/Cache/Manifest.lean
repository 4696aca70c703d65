import TradingFleet.Cache.Rows

set_option autoImplicit false

/-! # The manifest of a generation

Beside the file of the rows stands a small JSON file, the manifest: how many bytes of the rows are
committed, under which stream and revision, with which digest and how many rows a symbol. The
manifest is what makes a generation valid; `_load_versioned_account_meta` says which files are
manifests. A manifest that is written is read back (`load_toJson`).
-/

namespace TradingFleet.Cache

open JsonText Numeral

/-- What comes from outside: the hash behind the digest, as a step on the digest's text, the names
drawn for streams, whether the file system has hard links, and the sizes of a rotation. -/
structure Env where
  start : String
  extend : String → List Char → String
  validDigest : String → Bool
  uuid : Nat → String
  links : Bool
  maxFileBytes : Nat
  keepCount : Nat → Nat

/-- `_trade_records_digest`; `none` where the initial digest is refused. -/
def tradeRecordsDigest (env : Env) (records : List Record) (initial : String) : Option String :=
  if initial = "" then some (Journal.chain writeRecord env.extend env.start records)
  else if env.validDigest initial then some (Journal.chain writeRecord env.extend initial records)
  else none

/-- What is used of the hash and of the names: a digest has the form of one, a name is not empty
and is not drawn twice, and different rows have different digests. -/
structure Env.Sound (env : Env) : Prop where
  start_valid : env.validDigest env.start = true
  extend_valid : ∀ d row, env.validDigest (env.extend d row) = true
  empty_invalid : env.validDigest "" = false
  uuid_ne : ∀ n, env.uuid n ≠ ""
  uuid_injective : ∀ n n', env.uuid n = env.uuid n' → n = n'
  collisionless : ∀ rows rows' : List Record,
    Journal.chain writeRecord env.extend env.start rows =
      Journal.chain writeRecord env.extend env.start rows' → rows = rows'

/-- The text of the rows as its own digest, behind a mark. -/
def plainExtend (digest : String) (row : List Char) : String :=
  String.ofList ('#' :: (digest.toList.drop 1 ++ row))

/-- An environment without a hash. -/
def plainEnv : Env :=
  { start := "#"
    extend := plainExtend
    validDigest := fun digest => digest.toList.head? = some '#'
    uuid := fun n => String.ofList (List.replicate (n + 1) 'u')
    links := true
    maxFileBytes := 1024 * 1024 * 1024
    keepCount := fun n => n / 2 }

theorem chain_plain (rows : List Record) (l : List Char) :
    (Journal.chain writeRecord plainExtend (String.ofList ('#' :: l)) rows).toList =
      '#' :: (l ++ Journal.encode writeRecord rows) := by
  induction rows generalizing l with
  | nil =>
      show (String.ofList ('#' :: l)).toList = '#' :: (l ++ [])
      rw [String.toList_ofList, List.append_nil]
  | cons r rows ih =>
      have hrow : plainExtend (String.ofList ('#' :: l)) (writeRecord r ++ ['\n']) =
          String.ofList ('#' :: (l ++ (writeRecord r ++ ['\n']))) := by
        unfold plainExtend
        rw [String.toList_ofList, List.drop_one, List.tail_cons]
      show (Journal.chain writeRecord plainExtend (plainExtend (String.ofList ('#' :: l))
        (writeRecord r ++ ['\n'])) rows).toList = _
      rw [hrow, ih, Journal.encode_cons, List.append_assoc, List.append_assoc,
        List.singleton_append]

/-- The text of a record tells which one it is, a row or not. -/
def textRecord (line : List Char) : Option Record :=
  match loads line with
  | some (.obj [("s", .str s), ("i", i)]) => some (s, i)
  | _ => none

theorem encode_injective {rows rows' : List Record}
    (h : Journal.encode writeRecord rows = Journal.encode writeRecord rows') : rows = rows' := by
  have hwritten : ∀ r : Record, Journal.Written writeRecord textRecord r := by
    intro r
    refine ⟨writeRecord_line r, ?_⟩
    unfold textRecord writeRecord
    rw [loads_dumps]
    rfl
  have hdecode : ∀ rows : List Record,
      Journal.decode textRecord (Journal.encode writeRecord rows) = some rows :=
    fun rows => Journal.decode_encode (fun r _ => hwritten r)
  have hrows := hdecode rows
  rw [h, hdecode rows', Option.some.injEq] at hrows
  exact hrows.symm

theorem plainEnv_sound : plainEnv.Sound where
  start_valid := by decide
  extend_valid := fun d row => by
    show decide ((plainExtend d row).toList.head? = some '#') = true
    unfold plainExtend
    rw [String.toList_ofList, List.head?_cons]
    rfl
  empty_invalid := by decide
  uuid_ne := fun n h => by
    have hlist := congrArg (fun s => s.toList.length) h
    simp [plainEnv] at hlist
  uuid_injective := fun n n' h => by
    have hlist := congrArg (fun s => s.toList.length) h
    simpa [plainEnv] using hlist
  collisionless := fun rows rows' h => by
    have hlist := congrArg String.toList h
    change (Journal.chain writeRecord plainExtend (String.ofList ['#']) rows).toList =
      (Journal.chain writeRecord plainExtend (String.ofList ['#']) rows').toList at hlist
    rw [chain_plain, chain_plain, List.nil_append, List.nil_append] at hlist
    exact encode_injective (List.cons.inj hlist).2

/-! ## Manifests -/

structure Manifest where
  stream : String
  revision : Nat
  committedBytes : Nat
  contentDigest : String
  fetchtime : List (String × Int)
  counts : List (String × Nat)
deriving DecidableEq

/-- `_trade_data_version` -/
def tradeDataVersion (stream : String) (revision : Nat) : String :=
  stream ++ ":" ++ String.ofList (intText revision)

def Manifest.dataVersion (m : Manifest) : String := tradeDataVersion m.stream m.revision

/-- `max(values) if values else 0` -/
def maxOr0 : List Int → Int
  | [] => 0
  | t :: ts => ts.foldl max t

def schemaVersion : Int := 2

/-- `_account_meta_snapshot` and what `_write_meta` adds to it, but for the time of the write. -/
def Manifest.toJson (m : Manifest) : Value :=
  .obj [("schema_version", intValue schemaVersion), ("data_version", .str m.dataVersion),
    ("fetchtime", .obj (m.fetchtime.map (fun p => (p.1, intValue p.2)))),
    ("counts", .obj (m.counts.map (fun p => (p.1, intValue p.2)))),
    ("stream_id", .str m.stream), ("revision", intValue m.revision),
    ("committed_bytes", intValue m.committedBytes), ("content_digest", .str m.contentDigest),
    ("max_ts", intValue (maxOr0 (m.fetchtime.map Prod.snd)))]

/-- The file beside the rows. -/
inductive MetaFile where
  | json (value : Value)
  | unreadable

/-! ## Reading -/

/-- `isinstance(value, int) and not isinstance(value, bool)` -/
def wholeOf : Value → Option Int
  | .num n => if Number.isInt n then pyInt (.num n) else none
  | _ => none

/-- A whole number that is not negative. -/
def countOf (value : Value) : Option Nat := do
  let n ← wholeOf value
  if 0 ≤ n then some n.toNat else none

/-- A dictionary all of whose values pass. -/
def mapOf {β : Type} (f : Value → Option β) : Value → Option (List (String × β))
  | .obj fields => fields.mapM (fun p => (f p.2).map (fun v => (p.1, v)))
  | _ => none

def textOf : Value → Option String
  | .str s => if s = "" then none else some s
  | _ => none

/-- The fields of a manifest, `none` where one is refused. -/
def readManifest (value : Value) (contentDigest : String) (required : Option String) :
    Option Manifest := do
  let version ← Value.get? value "data_version" >>= textOf
  if required.any (fun r => version ≠ r) then none else do
    let fetchtime ← Value.get? value "fetchtime" >>= mapOf wholeOf
    let counts ← Value.get? value "counts" >>= mapOf countOf
    let stream ← Value.get? value "stream_id" >>= textOf
    let revision ← Value.get? value "revision" >>= countOf
    let committedBytes ← Value.get? value "committed_bytes" >>= countOf
    if revision = 0 ∨ version ≠ tradeDataVersion stream revision then none else
      some
        { stream := stream
          revision := revision
          committedBytes := committedBytes
          contentDigest := contentDigest
          fetchtime := fetchtime
          counts := counts }

/-- A file that is no manifest of this schema is `absent` to the caller that may do without one; a
manifest with a bad field is `notReady` to every caller. -/
inductive ManifestRead where
  | absent
  | notReady
  | ready (m : Manifest)

def isSchema (value : Value) : Bool :=
  match Value.get? value "schema_version" with
  | some (.num n) =>
      (decimalOfText (String.ofList n.text)).map Decimal.normalize =
        some { coefficient := schemaVersion, exponent := 0 }
  | _ => false

/-- `_load_versioned_account_meta` -/
def loadVersionedAccountMeta (env : Env) (file : Option MetaFile) (required : Option String) :
    ManifestRead :=
  match file with
  | some (.json value) =>
      if isSchema value then
        match Value.get? value "content_digest" with
        | some (.str d) =>
            if env.validDigest d then
              match readManifest value d required with
              | some m => .ready m
              | none => .notReady
            else .absent
        | _ => .absent
      else .absent
  | _ => .absent

/-- `_persisted_max_ts` -/
def persistedMaxTs (file : Option MetaFile) : Int :=
  match file with
  | some (.json value) => ((Value.get? value "max_ts") >>= wholeOf).getD 0
  | _ => 0

/-! ## The round trip -/

theorem number_isInt (z : Int) : Number.isInt ⟨intText z, isNumber_intText z⟩ = true := by
  unfold Number.isInt
  rw [List.all_eq_true]
  intro c hc
  have hdigit : ∀ c ∈ Nat.toDigits 10 z.natAbs, decide (c ≠ '.' ∧ c ≠ 'e' ∧ c ≠ 'E') = true := by
    intro c hc
    have h := toDigits_isDigit _ c hc
    exact decide_eq_true ⟨isDigit_ne h (by decide), isDigit_ne h (by decide),
      isDigit_ne h (by decide)⟩
  change c ∈ intText z at hc
  unfold intText at hc
  split at hc
  · rcases List.mem_cons.mp hc with rfl | hc
    · decide
    · exact hdigit c hc
  · exact hdigit c hc

theorem trunc_whole (z : Int) : Decimal.trunc { coefficient := z, exponent := 0 } = z := by
  simp [Decimal.trunc]

theorem wholeOf_intValue (z : Int) : wholeOf (intValue z) = some z := by
  unfold wholeOf intValue pyInt
  dsimp only
  rw [if_pos (number_isInt z), decimalOfText_intText]
  show (if (Number.isInt ⟨intText z, isNumber_intText z⟩ || _) = true then _ else none) = some z
  rw [number_isInt, Bool.true_or, if_pos rfl, trunc_whole]

theorem countOf_intValue (n : Nat) : countOf (intValue n) = some n := by
  unfold countOf
  rw [wholeOf_intValue]
  show (if (0 : Int) ≤ n then some (n : Int).toNat else none) = some n
  rw [if_pos (Int.natCast_nonneg n), Int.toNat_natCast]

theorem mapOf_obj {β : Type} (f : Value → Option β) (g : β → Value) (h : ∀ v, f (g v) = some v)
    (d : List (String × β)) : mapOf f (.obj (d.map (fun p => (p.1, g p.2)))) = some d := by
  unfold mapOf
  dsimp only
  induction d with
  | nil => rfl
  | cons p d ih =>
      rw [List.map_cons, List.mapM_cons, ih, h]
      rfl

theorem textOf_str {s : String} (h : s ≠ "") : textOf (.str s) = some s := if_neg h

/-- What a writer has to provide for its manifest to be one. -/
structure Manifest.Ok (env : Env) (m : Manifest) : Prop where
  stream : m.stream ≠ ""
  revision : 0 < m.revision
  digest : env.validDigest m.contentDigest = true

theorem tradeDataVersion_ne (stream : String) (revision : Nat) :
    tradeDataVersion stream revision ≠ "" := by
  intro h
  have hlength := congrArg (fun s => s.toList.length) h
  unfold tradeDataVersion at hlength
  simp [String.toList_append] at hlength

theorem Manifest.dataVersion_ne (m : Manifest) : m.dataVersion ≠ "" := tradeDataVersion_ne _ _

theorem isSchema_toJson (m : Manifest) : isSchema m.toJson = true := by
  show decide ((decimalOfText (String.ofList (intText schemaVersion))).map Decimal.normalize =
    some { coefficient := schemaVersion, exponent := 0 }) = true
  rw [decimalOfText_intText]
  decide

theorem readManifest_toJson {env : Env} {m : Manifest} (h : m.Ok env) {required : Option String}
    (hrequired : required = none ∨ required = some m.dataVersion) :
    readManifest m.toJson m.contentDigest required = some m := by
  have hversion : Value.get? m.toJson "data_version" = some (.str m.dataVersion) := rfl
  have hfetchtime : Value.get? m.toJson "fetchtime" =
      some (.obj (m.fetchtime.map (fun p => (p.1, intValue p.2)))) := rfl
  have hcounts : Value.get? m.toJson "counts" =
      some (.obj (m.counts.map (fun p => (p.1, intValue p.2)))) := rfl
  have hstream : Value.get? m.toJson "stream_id" = some (.str m.stream) := rfl
  have hrevision : Value.get? m.toJson "revision" = some (intValue m.revision) := rfl
  have hbytes : Value.get? m.toJson "committed_bytes" = some (intValue m.committedBytes) := rfl
  have hany : required.any (fun r => m.dataVersion ≠ r) = false := by
    rcases hrequired with rfl | rfl
    · rfl
    · simp
  unfold readManifest
  rw [hversion, hfetchtime, hcounts, hstream, hrevision, hbytes]
  simp only [Option.bind_eq_bind, Option.bind_some]
  rw [textOf_str m.dataVersion_ne]
  simp only [Option.bind_some]
  rw [if_neg (by rw [hany]; exact Bool.false_ne_true), mapOf_obj wholeOf intValue wholeOf_intValue,
    mapOf_obj countOf (fun n => intValue n) countOf_intValue, textOf_str h.stream]
  simp only [Option.bind_some]
  rw [countOf_intValue, countOf_intValue]
  simp only [Option.bind_some]
  rw [if_neg]
  rintro (hzero | hne)
  · exact absurd hzero (Nat.pos_iff_ne_zero.mp h.revision)
  · exact hne rfl

/-- **A manifest that is written is read back**, under its own version or where none is asked
for. -/
theorem load_toJson {env : Env} {m : Manifest} (h : m.Ok env) {required : Option String}
    (hrequired : required = none ∨ required = some m.dataVersion) :
    loadVersionedAccountMeta env (some (.json m.toJson)) required = .ready m := by
  have hdigest : Value.get? m.toJson "content_digest" = some (.str m.contentDigest) := rfl
  unfold loadVersionedAccountMeta
  dsimp only
  rw [if_pos (isSchema_toJson m), hdigest]
  dsimp only
  rw [if_pos h.digest, readManifest_toJson h hrequired]

end TradingFleet.Cache
