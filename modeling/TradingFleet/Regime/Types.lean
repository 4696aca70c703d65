import Mathlib.Algebra.Order.Field.Rat
import TradingFleet.Basic.Text

set_option autoImplicit false

/-! # Market regimes

The decisions of `market_regime.py`: what a classifier says about one symbol over one horizon,
and what several of them are composed to. Gradients, strengths and weights are exact rationals,
and a reading is always finite.
-/

namespace TradingFleet.Regime

inductive Direction where
  | bull
  | bear
  | sideways
  | unknown
deriving DecidableEq, Repr

/-- `MarketRegimeDecision`. -/
structure Decision where
  regime : Direction
  gradient : Option ℚ
  epsilon : Option ℚ
  strength : Option ℚ
  fresh : Bool
  reason : String
  nSamples : Option Int := none
  windowSeconds : Option ℚ := none
  horizon : String := "unspecified"
  source : String := "unknown"
  fallbackUsed : Bool := false
deriving DecidableEq

/-- `MarketRegimeEvaluator.unknown`. -/
def Decision.unavailable (reason : String) : Decision where
  regime := .unknown
  gradient := none
  epsilon := none
  strength := none
  fresh := false
  reason := reason

/-! ## Composite decisions -/

inductive Pattern where
  | insufficientAssetData
  | bullishPullback
  | assetBullMarketHeadwind
  | alignedBull
  | bearishRebound
  | assetBearMarketHeadwind
  | alignedBear
  | mixed
  | neutral
deriving DecidableEq, Repr

inductive CompositeReason where
  | assetSignalUnavailable
  | positiveComposite
  | negativeComposite
  | conflictingComponents
  | belowCompositeThreshold
deriving DecidableEq, Repr

inductive UseCase where
  | execution
  | balanced
  | risk
deriving DecidableEq, Repr

/-- `(label, decision.regime, decision.source, score)`. -/
structure Component where
  label : String
  regime : Direction
  source : String
  score : Option ℚ
deriving DecidableEq

/-- `CompositeMarketRegimeDecision`. -/
structure Composite where
  regime : Direction
  score : ℚ
  confidence : ℚ
  conviction : ℚ
  actionable : Bool
  conflict : Bool
  pattern : Pattern
  useCase : UseCase
  reason : CompositeReason
  components : List Component
deriving DecidableEq

/-! ## The opposite direction -/

def Direction.reverse : Direction → Direction
  | .bull => .bear
  | .bear => .bull
  | .sideways => .sideways
  | .unknown => .unknown

/-- The same reading in the other direction. -/
def Decision.reverse (d : Decision) : Decision :=
  { d with
    regime := d.regime.reverse
    gradient := d.gradient.map (fun g => -g) }

def Pattern.reverse : Pattern → Pattern
  | .bullishPullback => .bearishRebound
  | .assetBullMarketHeadwind => .assetBearMarketHeadwind
  | .alignedBull => .alignedBear
  | .bearishRebound => .bullishPullback
  | .assetBearMarketHeadwind => .assetBullMarketHeadwind
  | .alignedBear => .alignedBull
  | p => p

def CompositeReason.reverse : CompositeReason → CompositeReason
  | .positiveComposite => .negativeComposite
  | .negativeComposite => .positiveComposite
  | r => r

def Component.reverse (c : Component) : Component :=
  { c with
    regime := c.regime.reverse
    score := c.score.map (fun s => -s) }

/-- Score, regime, pattern and components in the other direction; the rest stays. -/
def Composite.reverse (c : Composite) : Composite :=
  { c with
    regime := c.regime.reverse
    score := -c.score
    pattern := c.pattern.reverse
    reason := c.reason.reverse
    components := c.components.map Component.reverse }

end TradingFleet.Regime
