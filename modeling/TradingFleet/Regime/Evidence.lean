import TradingFleet.Regime.Compose

set_option autoImplicit false

/-! # Evidence

A classified source with its provenance and its age (`MarketRegimeEvidence`), the composition of
a list of them (`compose_evidence`), and the choice of one source for a horizon
(`resolve_with_evidence`). What a snapshot or a venue's candles are classified as is given: a
classification depends on the provider, its cache and the clock, and may be any decision.
-/

namespace TradingFleet.Regime

open TradingFleet.Text

inductive TemporalState where
  | fresh
  | stale
  | future
  | unbounded
  | unknown
deriving DecidableEq, Repr

def TemporalState.text : TemporalState → String
  | .fresh => "fresh"
  | .stale => "stale"
  | .future => "future"
  | .unbounded => "unbounded"
  | .unknown => "unknown"

/-- `MarketRegimeEvidence`. -/
structure Evidence where
  role : String
  family : String
  classifier : String
  provider : String
  symbol : String
  decision : Decision
  evaluatedAt : ℚ
  observedAt : Option ℚ := none
  intervalMin : Option Int := none
  maxAgeSeconds : Option ℚ := none
  closedCandles : Option Bool := none
  continuousCandles : Option Bool := none
  correlationKey : String := ""
deriving DecidableEq

namespace Evidence

def temporalState (e : Evidence) : TemporalState :=
  match e.observedAt with
  | none => .unknown
  | some observed =>
      if e.evaluatedAt - observed < -5 then .future
      else
        match e.maxAgeSeconds with
        | some limit => if limit < e.evaluatedAt - observed then .stale else .fresh
        | none => .unbounded

/-- Reject invalid or explicitly stale timing while preserving legacy data. -/
def usable (e : Evidence) : Bool :=
  e.decision.fresh && e.continuousCandles ≠ some false &&
    (if e.maxAgeSeconds.isSome then e.temporalState = .fresh
      else e.temporalState = .fresh || e.temporalState = .unbounded || e.temporalState = .unknown)

def availabilityReason (e : Evidence) : String :=
  if !e.decision.fresh then e.decision.reason
  else if e.continuousCandles = some false then "candle_gap"
  else if !e.usable then e.temporalState.text ++ "_source"
  else e.decision.reason

end Evidence

/-! ## Composing evidence -/

/-- What can vote. -/
def Evidence.directional (e : Evidence) : Bool := e.usable && e.family = "price_trend"

def assetRole (role : String) : Bool := role = "asset_short" || role = "asset_long"

def benchmarkRole (role : String) : Bool := role = "benchmark_short" || role = "benchmark_long"

/-- `asset_key`: the symbol that is asked for, or that of the first usable asset item. -/
def assetKey (items : List Evidence) (assetSymbol : Option String) : String :=
  match assetSymbol with
  | some symbol => upper symbol
  | none =>
      upper (((items.filter Evidence.directional).find? (fun e => assetRole e.role)).map
        Evidence.symbol |>.getD "")

/-- `selected.get((key, role))`: the first usable item of a symbol and a role. -/
def selected (items : List Evidence) (key role : String) : Option Evidence :=
  (items.filter Evidence.directional).find? (fun e => upper e.symbol = key && e.role = role)

def decisionOf (item : Option Evidence) : Decision :=
  (item.map Evidence.decision).getD (.unavailable "evidence_unavailable")

/-- `benchmark_symbols`: each spelling once, where it occurs first. -/
def benchmarkSymbols (items : List Evidence) (key : String) : List String :=
  (((items.filter Evidence.directional).filter
    (fun e => upper e.symbol ≠ key && benchmarkRole e.role)).map Evidence.symbol).eraseDups

def benchmarkOf (items : List Evidence) (symbol : String) : Benchmark where
  name := symbol
  short := decisionOf (selected items (upper symbol) "benchmark_short")
  long := decisionOf (selected items (upper symbol) "benchmark_long")

/-- Compose only usable directional evidence. -/
def composeEvidence (items : List Evidence) (assetSymbol : Option String) (o : ComposeOptions) :
    Except String Composite :=
  let key := assetKey items assetSymbol
  compose (decisionOf (selected items key "asset_short"))
    (decisionOf (selected items key "asset_long"))
    ((benchmarkSymbols items key).map (benchmarkOf items)) o

/-! ## Resolving a horizon -/

/-- `MarketRegimeResolution`: what its constructor checks are fields here. -/
structure Resolution where
  decision : Decision
  evidence : List Evidence
  selectedIndex : Option Nat
  selects : ∀ i, selectedIndex = some i →
    ∃ e, evidence[i]? = some e ∧ e.usable = true ∧ e.decision = decision
  identifies : selectedIndex = none → decision.fresh = false

/-- The constructor. -/
def Resolution.make (decision : Decision) (evidence : List Evidence) :
    Option Nat → Except String Resolution
  | none =>
      if h : decision.fresh = false then .ok ⟨decision, evidence, none, nofun, fun _ => h⟩
      else .error "a fresh resolution must identify its selected source"
  | some i =>
      match he : evidence[i]? with
      | none => .error "selected_index must identify an evidence item"
      | some e =>
          if husable : e.usable = true then
            if hsame : e.decision = decision then
              .ok ⟨decision, evidence, some i,
                fun j hj => ⟨e, by rw [← Option.some.inj hj]; exact he, husable, hsame⟩, nofun⟩
            else .error "selected evidence must match the resolution"
          else .error "selected evidence must be usable"

inductive Horizon where
  | short
  | long
deriving DecidableEq, Repr

def Horizon.text : Horizon → String
  | .short => "short"
  | .long => "long"

/-- `_HORIZON_SOURCES`. -/
def Horizon.sources : Horizon → List (Int × ℚ)
  | .short => [(1, 900), (5, 1800)]
  | .long => [(240, 7 * 86400), (1440, 30 * 86400)]

inductive AgeKey where
  | interval (minutes : Int)
  | name (text : String)
deriving DecidableEq

/-- A freshness bound, for everything or by interval and horizon. -/
inductive AgeLimit where
  | none
  | seconds (limit : ℚ)
  | table (entries : List (AgeKey × Option ℚ))

/-- `_age_limit`. -/
def AgeLimit.resolve (a : AgeLimit) (horizon : Horizon) (interval : Option Int) : Option ℚ :=
  match a with
  | .none => Option.none
  | .seconds limit => some limit
  | .table entries =>
      let keys := (interval.map (fun i => [.interval i, .name (toString i)])).getD [] ++
        [.name horizon.text, .name "default"]
      ((keys.findSome? (fun k => entries.find? (fun e => e.1 = k))).map Prod.snd).getD Option.none

/-- What a snapshot is classified as, and its metadata. -/
structure Snapshot where
  decision : Decision
  observedAt : Option ℚ
  family : Option String
  classifier : Option String
  correlationKey : Option String

/-- What the candles of a source are classified as. -/
structure SourceReading where
  decision : Decision
  observedAt : Option ℚ
  continuous : Option Bool

structure ResolveRequest where
  providerName : String
  symbol : String
  horizon : Horizon := .short
  snapshot : Option Snapshot := none
  intervalMin : Option Int := none
  windowSeconds : Option ℚ := none
  allowFallback : Bool := true
  snapshotSource : String := "snapshot"
  snapshotMaxAge : AgeLimit := .none
  ohlcMaxAge : AgeLimit := .none
  includeAlternates : Bool := false
  role : Option String := none
  now : ℚ

/-- The answers to `_evaluate_provider_source`, by the position of the call. -/
abbrev Sources := Nat → Int → ℚ → SourceReading

namespace ResolveRequest

variable (r : ResolveRequest)

def annotate (d : Decision) (source : String) (fallbackUsed : Bool := false) : Decision :=
  { d with horizon := r.horizon.text, source := source, fallbackUsed := fallbackUsed }

def correlationKey : String :=
  lower r.providerName ++ ":" ++ upper r.symbol ++ ":price_trend:" ++ r.horizon.text

/-- `_evidence` refuses an age limit that is not positive. -/
def checkedAge (limit : Option ℚ) : Except String (Option ℚ) :=
  match limit with
  | some l => if 0 < l then .ok (some l) else .error "max_age_seconds must be finite and positive"
  | none => .ok none

def roleText : String := orElse r.role ("asset_" ++ r.horizon.text)

def snapshotEvidence (s : Snapshot) : Except String Evidence := do
  let limit ← checkedAge (r.snapshotMaxAge.resolve r.horizon none)
  .ok
    { role := r.roleText
      family := s.family.getD "price_trend"
      classifier := s.classifier.getD r.snapshotSource
      provider := r.providerName
      symbol := r.symbol
      decision := r.annotate s.decision r.snapshotSource
      evaluatedAt := r.now
      observedAt := s.observedAt
      maxAgeSeconds := limit
      correlationKey := orElse s.correlationKey r.correlationKey }

def sourceName (interval : Int) : String := "ohlc:" ++ toString interval ++ "m"

def sourceEvidence (reading : SourceReading) (interval : Int) (fallbackUsed : Bool) :
    Except String Evidence := do
  let limit ← checkedAge (r.ohlcMaxAge.resolve r.horizon (some interval))
  .ok
    { role := r.roleText
      family := "price_trend"
      classifier := "linear_noise_v1"
      provider := r.providerName
      symbol := r.symbol
      decision := r.annotate reading.decision (sourceName interval) fallbackUsed
      evaluatedAt := r.now
      observedAt := reading.observedAt
      intervalMin := some interval
      maxAgeSeconds := limit
      closedCandles := some true
      continuousCandles := reading.continuous
      correlationKey := r.correlationKey }

/-- The window that is asked for. A zero counts as absent. -/
def primary : Int × ℚ :=
  let first := r.horizon.sources.headD (1, 900)
  (if r.intervalMin.getD 0 = 0 then first.1 else r.intervalMin.getD 0,
    if r.windowSeconds.getD 0 = 0 then first.2 else r.windowSeconds.getD 0)

/-- `configured`: a window that is asked for goes first. -/
def configured : List (Int × ℚ) :=
  let listed :=
    if r.intervalMin.isSome || r.windowSeconds.isSome then
      r.primary :: r.horizon.sources.filter (fun s => s ≠ r.primary)
    else r.horizon.sources
  if r.allowFallback then listed else listed.take 1

/-- No source is usable. -/
def failed (evidence : List Evidence) : Except String Resolution :=
  let reasons := evidence.map (fun e => e.decision.source ++ "=" ++ e.availabilityReason)
  Resolution.make
    (r.annotate (.unavailable ("all_sources_failed:" ++ ",".intercalate reasons)) "none"
      (1 < evidence.length))
    evidence none

/-- What the loop ends with. -/
def conclude (evidence : List Evidence) (chosen : Option Nat) : Except String Resolution :=
  match chosen with
  | none => r.failed evidence
  | some i =>
      match evidence[i]? with
      | none => .error "tuple index out of range"
      | some e => Resolution.make e.decision evidence (some i)

/-- The loop over the configured sources, from the one at position `index`. -/
def examine (answers : Sources) :
    List (Int × ℚ) → Nat → List Evidence → Option Nat → Except String Resolution
  | [], _, evidence, chosen => r.conclude evidence chosen
  | (interval, window) :: rest, index, evidence, chosen =>
      if interval ≤ 0 ∨ window ≤ 0 then .error "the regime interval and window must be positive"
      else do
        let item ← r.sourceEvidence (answers index interval window) interval
          (chosen.isNone && (!evidence.isEmpty || index ≠ 0))
        let evidence := evidence ++ [item]
        if chosen.isNone && item.usable then
          if !r.includeAlternates then
            Resolution.make item.decision evidence (some (evidence.length - 1))
          else examine answers rest (index + 1) evidence (some (evidence.length - 1))
        else examine answers rest (index + 1) evidence chosen

/-- The snapshot alone, when nothing else may be asked. -/
def unusableSnapshot (item : Evidence) : Except String Resolution :=
  let decision :=
    if item.decision.fresh then r.annotate (.unavailable item.availabilityReason) item.decision.source
    else item.decision
  Resolution.make decision [item] none

/-- `resolve_with_evidence`. -/
def resolve (answers : Sources) : Except String Resolution :=
  if r.now ≤ 0 then .error "now must be a positive finite Unix timestamp"
  else
    match r.snapshot with
    | none => r.examine answers r.configured 0 [] none
    | some s => do
        let item ← r.snapshotEvidence s
        if item.usable then
          if !r.includeAlternates || !r.allowFallback then
            Resolution.make item.decision [item] (some 0)
          else r.examine answers r.configured 0 [item] (some 0)
        else if !r.allowFallback then r.unusableSnapshot item
        else r.examine answers r.configured 0 [item] none

end ResolveRequest

end TradingFleet.Regime
