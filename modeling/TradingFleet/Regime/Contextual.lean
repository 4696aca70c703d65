import TradingFleet.Regime.Compose

set_option autoImplicit false

/-! # Benchmarks inform but never decide

The score is a function of two numbers: the asset's own weighted score and what the benchmarks
add to it (`finalScore_tallyOf`). The veto makes it monotone in the first one, and its sign is
never the opposite of the asset's. Reversing every component reverses the accumulated values,
entry by entry (`tallyOf_reverse`), and with them the decision.
-/

namespace TradingFleet.Regime

open TradingFleet.Text

/-! ## What is accumulated -/

/-- A missing component counts as zero. -/
def scoreValue (d : Decision) (strengthCap : ℚ) : ℚ := (signedScore d strengthCap).getD 0

/-- The weighted score of the asset. -/
def assetScore (w : Weights) (strengthCap : ℚ) (short long : Decision) : ℚ :=
  w.assetShort * scoreValue short strengthCap + w.assetLong * scoreValue long strengthCap

/-- What the benchmarks add to it. -/
def benchmarkScore (w : Weights) (strengthCap : ℚ) (benchmarks : List Benchmark) : ℚ :=
  ((benchmarks.flatMap (Benchmark.entries w benchmarks.length)).map
    (fun e => e.weight * scoreValue e.decision strengthCap)).sum

section Accumulating

variable {cap : ℚ}

theorem add_weighted (t : Tally) (e : Entry) :
    (t.add cap e).weighted = t.weighted + e.weight * scoreValue e.decision cap := by
  unfold Tally.add scoreValue
  cases signedScore e.decision cap with
  | none => simp
  | some s => rfl

theorem add_assetWeighted (t : Tally) (e : Entry) :
    (t.add cap e).assetWeighted =
      t.assetWeighted + if e.asset then e.weight * scoreValue e.decision cap else 0 := by
  unfold Tally.add scoreValue
  cases signedScore e.decision cap with
  | none => simp
  | some s =>
      cases e.asset with
      | true => simp
      | false => simp

theorem add_assetScores (t : Tally) (e : Entry) :
    (t.add cap e).assetScores =
      t.assetScores ++ if e.asset then (signedScore e.decision cap).toList else [] := by
  unfold Tally.add
  cases signedScore e.decision cap with
  | none => simp
  | some s =>
      cases e.asset with
      | true => simp
      | false => simp

theorem add_confidence {t : Tally} {e : Entry} (ht : 0 ≤ t.confidence) (he : 0 ≤ e.weight) :
    0 ≤ (t.add cap e).confidence := by
  unfold Tally.add
  cases signedScore e.decision cap with
  | none => exact ht
  | some s => exact add_nonneg ht he

theorem foldl_weighted (entries : List Entry) (t : Tally) :
    (entries.foldl (Tally.add cap) t).weighted =
      t.weighted + (entries.map (fun e => e.weight * scoreValue e.decision cap)).sum := by
  induction entries generalizing t with
  | nil => simp
  | cons e rest ih =>
      rw [List.foldl_cons, ih, add_weighted, List.map_cons, List.sum_cons, add_assoc]

theorem foldl_confidence (entries : List Entry) {t : Tally} (ht : 0 ≤ t.confidence)
    (he : ∀ e ∈ entries, 0 ≤ e.weight) : 0 ≤ (entries.foldl (Tally.add cap) t).confidence := by
  induction entries generalizing t with
  | nil => exact ht
  | cons e rest ih =>
      have hadd : 0 ≤ (t.add cap e).confidence := add_confidence ht (he e List.mem_cons_self)
      exact ih hadd (fun e' h' => he e' (List.mem_cons_of_mem _ h'))

/-- Entries of the benchmarks leave what belongs to the asset alone. -/
theorem foldl_context (entries : List Entry) (t : Tally) (he : ∀ e ∈ entries, e.asset = false) :
    (entries.foldl (Tally.add cap) t).assetWeighted = t.assetWeighted ∧
      (entries.foldl (Tally.add cap) t).assetScores = t.assetScores := by
  induction entries generalizing t with
  | nil => exact ⟨rfl, rfl⟩
  | cons e rest ih =>
      have hfalse : e.asset = false := he e List.mem_cons_self
      obtain ⟨hweighted, hscores⟩ := ih (t.add cap e) (fun e' h' => he e' (List.mem_cons_of_mem _ h'))
      constructor
      · rw [List.foldl_cons, hweighted, add_assetWeighted, hfalse]
        simp
      · rw [List.foldl_cons, hscores, add_assetScores, hfalse]
        simp

end Accumulating

theorem mem_benchmarkEntries {w : Weights} {benchmarks : List Benchmark} {e : Entry}
    (h : e ∈ benchmarks.flatMap (Benchmark.entries w benchmarks.length)) :
    e.asset = false ∧ 0 ≤ e.weight := by
  obtain ⟨b, -, he⟩ := List.mem_flatMap.mp h
  have hcount : (0 : ℚ) ≤ ((max 1 benchmarks.length : ℕ) : ℚ) := Nat.cast_nonneg _
  have hshort := div_nonneg w.nonneg.2.2.1 hcount
  have hlong := div_nonneg w.nonneg.2.2.2 hcount
  rcases List.mem_cons.mp he with rfl | he
  · exact ⟨rfl, by exact_mod_cast hshort⟩
  · rw [List.mem_singleton.mp he]
    exact ⟨rfl, by exact_mod_cast hlong⟩

section Accumulated

variable (w : Weights) (cap : ℚ) (short long : Decision) (benchmarks : List Benchmark)

theorem tallyOf_asset :
    (tallyOf w cap short long benchmarks).assetWeighted = assetScore w cap short long ∧
      (tallyOf w cap short long benchmarks).assetScores =
        (signedScore short cap).toList ++ (signedScore long cap).toList := by
  unfold tallyOf entriesOf
  rw [List.foldl_append]
  obtain ⟨hweighted, hscores⟩ := @foldl_context cap
    (benchmarks.flatMap (Benchmark.entries w benchmarks.length))
    ((assetEntries w short long).foldl (Tally.add cap) {})
    (fun e he => (mem_benchmarkEntries he).1)
  rw [hweighted, hscores]
  unfold assetEntries assetScore
  simp only [List.foldl_cons, List.foldl_nil, add_assetWeighted, add_assetScores]
  simp

theorem tallyOf_weighted :
    (tallyOf w cap short long benchmarks).weighted =
      assetScore w cap short long + benchmarkScore w cap benchmarks := by
  unfold tallyOf entriesOf
  rw [List.foldl_append, foldl_weighted]
  unfold assetEntries assetScore benchmarkScore
  simp only [List.foldl_cons, List.foldl_nil, add_weighted]
  simp

theorem tallyOf_confidence : 0 ≤ (tallyOf w cap short long benchmarks).confidence := by
  refine foldl_confidence _ (le_refl 0) (fun e he => ?_)
  rcases List.mem_append.mp he with he | he
  · rcases List.mem_cons.mp he with rfl | he
    · exact w.nonneg.1
    · rw [List.mem_singleton.mp he]
      exact w.nonneg.2.1
  · exact (mem_benchmarkEntries he).2

/-! ## The veto -/

/-- The final score, from the asset's score and what the benchmarks add. -/
def vetoed (asset context : ℚ) : ℚ :=
  if asset = 0 then asset else if (asset + context) * asset < 0 then 0 else asset + context

theorem finalScore_tallyOf :
    finalScore (tallyOf w cap short long benchmarks) =
      vetoed (assetScore w cap short long) (benchmarkScore w cap benchmarks) := by
  unfold finalScore vetoed
  rw [(tallyOf_asset w cap short long benchmarks).1, tallyOf_weighted]

end Accumulated

/-- Above zero the context can lower the score to zero at most. -/
theorem vetoed_pos {asset : ℚ} (h : 0 < asset) (context : ℚ) :
    vetoed asset context = max 0 (asset + context) := by
  unfold vetoed
  rw [if_neg h.ne']
  by_cases hsum : asset + context < 0
  · rw [if_pos (mul_neg_of_neg_of_pos hsum h), max_eq_left hsum.le]
  · have hle : 0 ≤ asset + context := not_lt.mp hsum
    rw [if_neg (not_lt.mpr (mul_nonneg hle h.le)), max_eq_right hle]

theorem vetoed_neg {asset : ℚ} (h : asset < 0) (context : ℚ) :
    vetoed asset context = min 0 (asset + context) := by
  unfold vetoed
  rw [if_neg h.ne]
  by_cases hsum : 0 < asset + context
  · rw [if_pos (mul_neg_of_pos_of_neg hsum h), min_eq_left hsum.le]
  · have hle : asset + context ≤ 0 := not_lt.mp hsum
    rw [if_neg (not_lt.mpr (mul_nonneg_of_nonpos_of_nonpos hle h.le)), min_eq_right hle]

theorem vetoed_zero (context : ℚ) : vetoed 0 context = 0 := by
  unfold vetoed
  rw [if_pos rfl]

/-- The score never has the sign opposite to the asset's. -/
theorem vetoed_sign {asset context : ℚ} :
    (0 < vetoed asset context → 0 < asset) ∧ (vetoed asset context < 0 → asset < 0) := by
  rcases lt_trichotomy asset 0 with hneg | rfl | hpos
  · rw [vetoed_neg hneg]
    exact ⟨fun h => absurd (lt_min_iff.mp h).1 (lt_irrefl 0), fun _ => hneg⟩
  · rw [vetoed_zero]
    exact ⟨fun h => h, fun h => h⟩
  · rw [vetoed_pos hpos]
    exact ⟨fun _ => hpos, fun h => absurd (max_lt_iff.mp h).1 (lt_irrefl 0)⟩

theorem vetoed_mono {asset asset' : ℚ} (h : asset ≤ asset') (context : ℚ) :
    vetoed asset context ≤ vetoed asset' context := by
  rcases lt_trichotomy asset 0 with hneg | rfl | hpos
  · rw [vetoed_neg hneg]
    rcases lt_trichotomy asset' 0 with hneg' | rfl | hpos'
    · rw [vetoed_neg hneg']
      exact min_le_min_left 0 (by linarith)
    · rw [vetoed_zero]
      exact min_le_left _ _
    · rw [vetoed_pos hpos']
      exact (min_le_left _ _).trans (le_max_left _ _)
  · rw [vetoed_zero]
    rcases h.lt_or_eq with hpos' | heq
    · rw [vetoed_pos hpos']
      exact le_max_left _ _
    · rw [← heq, vetoed_zero]
  · rw [vetoed_pos hpos, vetoed_pos (hpos.trans_le h)]
    exact max_le_max_left 0 (by linarith)

/-! ## The opposite direction -/

def Tally.reverse (t : Tally) : Tally where
  components := t.components.map Component.reverse
  weighted := -t.weighted
  assetWeighted := -t.assetWeighted
  confidence := t.confidence
  assetScores := t.assetScores.map (fun s => -s)
  benchmarkScores := t.benchmarkScores.map (fun s => -s)

def Entry.reverse (e : Entry) : Entry := { e with decision := e.decision.reverse }

def Benchmark.reverse (b : Benchmark) : Benchmark :=
  { b with short := b.short.reverse, long := b.long.reverse }

theorem signedScore_reverse (d : Decision) (cap : ℚ) :
    signedScore d.reverse cap = (signedScore d cap).map (fun s => -s) := by
  unfold signedScore Decision.reverse
  cases d.fresh with
  | false => simp
  | true =>
      cases d.regime with
      | bull => simp [Direction.reverse]
      | bear => simp [Direction.reverse]
      | sideways => simp [Direction.reverse]
      | unknown => simp [Direction.reverse]

theorem add_reverse (cap : ℚ) (t : Tally) (e : Entry) :
    t.reverse.add cap e.reverse = (t.add cap e).reverse := by
  unfold Tally.add Entry.reverse
  rw [signedScore_reverse]
  cases signedScore e.decision cap with
  | none => simp [Tally.reverse, Component.reverse, Decision.reverse]
  | some s =>
      cases e.asset with
      | true =>
          simp only [Tally.reverse, Component.reverse, Decision.reverse, Option.map_some,
            List.map_append, List.map_cons, List.map_nil, if_true, mul_neg, neg_add]
      | false =>
          simp only [Tally.reverse, Component.reverse, Decision.reverse, Option.map_some,
            List.map_append, List.map_cons, List.map_nil, Bool.false_eq_true, if_false, mul_neg,
            neg_add]

theorem foldl_reverse (cap : ℚ) (entries : List Entry) (t : Tally) :
    (entries.map Entry.reverse).foldl (Tally.add cap) t.reverse =
      (entries.foldl (Tally.add cap) t).reverse := by
  induction entries generalizing t with
  | nil => rfl
  | cons e rest ih => rw [List.map_cons, List.foldl_cons, List.foldl_cons, add_reverse, ih]

theorem entriesOf_reverse (w : Weights) (short long : Decision) (benchmarks : List Benchmark) :
    entriesOf w short.reverse long.reverse (benchmarks.map Benchmark.reverse) =
      (entriesOf w short long benchmarks).map Entry.reverse := by
  unfold entriesOf
  rw [List.map_append, List.length_map, List.flatMap_map, List.map_flatMap]
  rfl

theorem tallyOf_reverse (w : Weights) (cap : ℚ) (short long : Decision)
    (benchmarks : List Benchmark) :
    tallyOf w cap short.reverse long.reverse (benchmarks.map Benchmark.reverse) =
      (tallyOf w cap short long benchmarks).reverse := by
  unfold tallyOf
  rw [entriesOf_reverse]
  exact foldl_reverse cap _ {}

theorem finalScore_reverse (t : Tally) : finalScore t.reverse = -finalScore t := by
  unfold finalScore
  show (if -t.assetWeighted = 0 then -t.assetWeighted
    else if -t.weighted * -t.assetWeighted < 0 then 0 else -t.weighted) = _
  rw [neg_mul_neg]
  by_cases hzero : t.assetWeighted = 0
  · rw [if_pos hzero, if_pos (neg_eq_zero.mpr hzero)]
  · rw [if_neg hzero, if_neg (fun h => hzero (neg_eq_zero.mp h))]
    by_cases hneg : t.weighted * t.assetWeighted < 0
    · rw [if_pos hneg, if_pos hneg, neg_zero]
    · rw [if_neg hneg, if_neg hneg]

theorem sum_neg (scores : List ℚ) : (scores.map (fun s => -s)).sum = -scores.sum := by
  induction scores with
  | nil => simp
  | cons s rest ih => rw [List.map_cons, List.sum_cons, List.sum_cons, ih, neg_add]

theorem mean_neg (scores : List ℚ) : mean (scores.map (fun s => -s)) = -mean scores := by
  unfold mean
  by_cases hempty : scores = []
  · rw [hempty]
    simp
  · rw [if_neg hempty, if_neg (by simpa using hempty), List.length_map, sum_neg, neg_div]

theorem conflicting_reverse (t : Tally) :
    assetConflict t.reverse = assetConflict t ∧ marketConflict t.reverse = marketConflict t ∧
      conflicting t.reverse = conflicting t := by
  have hasset : assetConflict t.reverse = assetConflict t := by
    have hneg : (t.reverse.assetScores.any (· < 0)) = t.assetScores.any (0 < ·) := by
      simp [Tally.reverse, List.any_map, Function.comp_def]
    have hpos : (t.reverse.assetScores.any (0 < ·)) = t.assetScores.any (· < 0) := by
      simp [Tally.reverse, List.any_map, Function.comp_def]
    unfold assetConflict
    rw [hneg, hpos, Bool.and_right_comm]
    simp [Tally.reverse]
  have hmarket : marketConflict t.reverse = marketConflict t := by
    unfold marketConflict
    simp only [Tally.reverse, mean_neg, neg_mul_neg, ne_eq, List.map_eq_nil_iff]
  refine ⟨hasset, hmarket, ?_⟩
  unfold conflicting
  rw [hasset, hmarket]

theorem pullback_neg (scores : List ℚ) :
    pullback (scores.map (fun s => -s)) = rebound scores ∧
      rebound (scores.map (fun s => -s)) = pullback scores := by
  rcases scores with _ | ⟨s, _ | ⟨l, rest⟩⟩
  · exact ⟨rfl, rfl⟩
  · exact ⟨rfl, rfl⟩
  · simp [pullback, rebound, Bool.and_comm]

theorem classify_reverse (t : Tally) {threshold : ℚ} (h : 0 ≤ threshold) :
    classify t.reverse threshold =
      ((classify t threshold).1.reverse, (classify t threshold).2.1.reverse,
        (classify t threshold).2.2.reverse) := by
  obtain ⟨-, hmarket, hconflict⟩ := conflicting_reverse t
  have hempty : t.reverse.assetScores = [] ↔ t.assetScores = [] := List.map_eq_nil_iff
  unfold classify
  rw [finalScore_reverse, hmarket, hconflict]
  by_cases hnone : t.assetScores = []
  · rw [if_pos hnone, if_pos (hempty.mpr hnone)]
    rfl
  rw [if_neg hnone, if_neg (fun h => hnone (hempty.mp h))]
  rw [show pullback t.reverse.assetScores = rebound t.assetScores from (pullback_neg _).1,
    show rebound t.reverse.assetScores = pullback t.assetScores from (pullback_neg _).2]
  by_cases hbull : threshold < finalScore t
  · have hnot : ¬ threshold < -finalScore t := by linarith
    have hbear : -finalScore t < -threshold := by linarith
    rw [if_neg hnot, if_pos hbear, if_pos hbull]
    dsimp only
    split_ifs <;> rfl
  · rw [if_neg hbull]
    by_cases hbear : finalScore t < -threshold
    · have hbull' : threshold < -finalScore t := by linarith
      rw [if_pos hbull', if_pos hbear]
      dsimp only
      split_ifs <;> rfl
    · have hnot : ¬ threshold < -finalScore t := fun h' => hbear (by linarith)
      have hnot' : ¬ -finalScore t < -threshold := fun h' => hbull (by linarith)
      rw [if_neg hnot, if_neg hnot', if_neg hbear]
      dsimp only
      split_ifs <;> rfl

theorem composed_reverse (t : Tally) (useCase : UseCase) {threshold : ℚ} (h : 0 ≤ threshold) :
    composed t.reverse useCase threshold = (composed t useCase threshold).reverse := by
  obtain ⟨-, -, hconflict⟩ := conflicting_reverse t
  have hconviction : conviction t.reverse = conviction t := by
    unfold conviction
    rw [finalScore_reverse, hconflict, abs_neg]
    rfl
  have hempty : (t.reverse.assetScores = []) = (t.assetScores = []) :=
    propext List.map_eq_nil_iff
  unfold composed Composite.reverse
  rw [classify_reverse t h, finalScore_reverse, hconflict, hconviction]
  simp only [hempty, ne_eq]
  rfl

/-! ## The main result -/

/-- The parts of a composed decision. -/
theorem compose_eq {short long : Decision} {benchmarks : List Benchmark} {o : ComposeOptions}
    {useCase : UseCase} {w : Weights} (h : o.accepted = .ok (useCase, w)) :
    compose short long benchmarks o =
      .ok (composed (tallyOf w o.strengthCap short long benchmarks) useCase
        o.directionalThreshold) := by
  unfold compose
  rw [h]
  rfl

theorem accepted_inRange {o : ComposeOptions} {useCase : UseCase} {w : Weights}
    (h : o.accepted = .ok (useCase, w)) : o.InRange := by
  unfold ComposeOptions.accepted at h
  dsimp only at h
  split at h
  · cases h
  · cases hw : resolveWeights o.weights _ with
    | error e =>
        rw [hw] at h
        cases h
    | ok w' =>
        rw [hw] at h
        by_cases hrange : o.InRange
        · exact hrange
        · exfalso
          change (if o.InRange then _ else _) = _ at h
          rw [if_neg hrange] at h
          cases h

/-- The regime follows the final score, and without a usable component of the asset there is
none. -/
theorem classify_regime (t : Tally) {threshold : ℚ} (h : 0 ≤ threshold) :
    ((classify t threshold).1 = .bull → 0 < finalScore t) ∧
      ((classify t threshold).1 = .bear → finalScore t < 0) ∧
      (t.assetScores = [] → (classify t threshold).1 = .unknown) := by
  unfold classify
  by_cases hnone : t.assetScores = []
  · rw [if_pos hnone]
    exact ⟨nofun, nofun, fun _ => rfl⟩
  · rw [if_neg hnone]
    by_cases hbull : threshold < finalScore t
    · rw [if_pos hbull]
      exact ⟨fun _ => h.trans_lt hbull, nofun, fun h' => absurd h' hnone⟩
    · rw [if_neg hbull]
      by_cases hbear : finalScore t < -threshold
      · rw [if_pos hbear]
        exact ⟨nofun, fun _ => by linarith, fun h' => absurd h' hnone⟩
      · rw [if_neg hbear]
        exact ⟨nofun, nofun, fun h' => absurd h' hnone⟩

theorem conviction_range {t : Tally} (h : 0 ≤ t.confidence) :
    0 ≤ conviction t ∧ conviction t ≤ 1 := by
  have hlow : 0 ≤ min 1 (|finalScore t| * t.confidence) :=
    le_min zero_le_one (mul_nonneg (abs_nonneg _) h)
  have hhigh : min 1 (|finalScore t| * t.confidence) ≤ 1 := min_le_left _ _
  unfold conviction
  dsimp only
  split
  · constructor <;> linarith
  · exact ⟨hlow, hhigh⟩

/-- **Benchmarks inform but never decide.** For options that are accepted: the direction is
that of the asset's weighted score, without a usable component of the asset there is none,
confidence and conviction are fractions, the opposite readings give the opposite decision, and
the score is monotone in each component of the asset. -/
theorem compose_contextual {o : ComposeOptions} {useCase : UseCase} {w : Weights}
    (h : o.accepted = .ok (useCase, w)) (short long : Decision) (benchmarks : List Benchmark) :
    ∃ r, compose short long benchmarks o = .ok r ∧
      (r.regime = .bull → 0 < assetScore w o.strengthCap short long) ∧
      (r.regime = .bear → assetScore w o.strengthCap short long < 0) ∧
      (signedScore short o.strengthCap = none → signedScore long o.strengthCap = none →
        r.regime = .unknown ∧ r.actionable = false) ∧
      (0 ≤ r.confidence ∧ r.confidence ≤ 1) ∧ (0 ≤ r.conviction ∧ r.conviction ≤ 1) ∧
      compose short.reverse long.reverse (benchmarks.map Benchmark.reverse) o = .ok r.reverse ∧
      (∀ short' r', scoreValue short o.strengthCap ≤ scoreValue short' o.strengthCap →
        compose short' long benchmarks o = .ok r' → r.score ≤ r'.score) ∧
      (∀ long' r', scoreValue long o.strengthCap ≤ scoreValue long' o.strengthCap →
        compose short long' benchmarks o = .ok r' → r.score ≤ r'.score) := by
  obtain ⟨hcap, hthreshold, -⟩ := accepted_inRange h
  have hconfidence := tallyOf_confidence w o.strengthCap short long benchmarks
  have hfinal := finalScore_tallyOf w o.strengthCap short long benchmarks
  obtain ⟨hbull, hbear, hunknown⟩ := classify_regime
    (tallyOf w o.strengthCap short long benchmarks) hthreshold
  -- the score is the score of the asset, cut off by a veto that is monotone
  have hmono : ∀ {short' long' : Decision} {r' : Composite},
      assetScore w o.strengthCap short long ≤ assetScore w o.strengthCap short' long' →
      compose short' long' benchmarks o = .ok r' →
      finalScore (tallyOf w o.strengthCap short long benchmarks) ≤ r'.score := by
    intro short' long' r' hle hr'
    rw [compose_eq h, Except.ok.injEq] at hr'
    rw [← hr', hfinal]
    exact (vetoed_mono hle _).trans
      (finalScore_tallyOf w o.strengthCap short' long' benchmarks).symm.le
  refine ⟨_, compose_eq h, ?_, ?_, ?_, ?_, conviction_range hconfidence, ?_, ?_, ?_⟩
  · intro hregime
    exact vetoed_sign.1 (hfinal ▸ hbull hregime)
  · intro hregime
    exact vetoed_sign.2 (hfinal ▸ hbear hregime)
  · intro hshort hlong
    -- without a score of the asset the tally of the benchmarks alone decides nothing
    have hnone : (tallyOf w o.strengthCap short long benchmarks).assetScores = [] := by
      rw [(tallyOf_asset w o.strengthCap short long benchmarks).2, hshort, hlong]
      rfl
    exact ⟨hunknown hnone, by simp [composed, hnone]⟩
  · exact ⟨le_min zero_le_one hconfidence, min_le_left _ _⟩
  · rw [compose_eq h, tallyOf_reverse, composed_reverse _ _ hthreshold]
  · intro short' r' hle
    refine hmono ?_
    have := mul_le_mul_of_nonneg_left hle w.nonneg.1
    unfold assetScore
    linarith
  · intro long' r' hle
    refine hmono ?_
    have := mul_le_mul_of_nonneg_left hle w.nonneg.2.1
    unfold assetScore
    linarith

/-- A fresh reading of this direction and strength. -/
def reading (regime : Direction) (strength : ℚ) : Decision where
  regime := regime
  gradient := some strength
  epsilon := some 1
  strength := some strength
  fresh := true
  reason := "directional_signal"

theorem accepted_default :
    ComposeOptions.accepted {} = .ok (.balanced, UseCase.balanced.profile) := by
  have hname : UseCase.parse (lower (orElse (some "balanced") "balanced")) = some .balanced := by
    decide +kernel
  have hrange : ComposeOptions.InRange {} := by decide +kernel
  unfold ComposeOptions.accepted
  simp only [hname, resolveWeights, bind, Except.bind, if_pos hrange]

/-- The asset rises over both horizons while a benchmark falls. -/
theorem compose_headwind :
    ∃ r, compose (reading .bull 6) (reading .bull 3)
        [⟨"BTC", reading .bear 6, reading .bear 6⟩] {} = .ok r ∧
      r.regime = .bull ∧ r.pattern = .assetBullMarketHeadwind ∧
      (r.regime = .bull → 0 < assetScore UseCase.balanced.profile 6 (reading .bull 6)
        (reading .bull 3)) ∧
      compose (reading .bull 6).reverse (reading .bull 3).reverse
        [⟨"BTC", (reading .bear 6).reverse, (reading .bear 6).reverse⟩] {} = .ok r.reverse := by
  obtain ⟨r, hr, hbull, -, -, -, -, hreverse, -⟩ := compose_contextual accepted_default
    (reading .bull 6) (reading .bull 3) [⟨"BTC", reading .bear 6, reading .bear 6⟩]
  refine ⟨r, hr, ?_, ?_, hbull, hreverse⟩
  · have hregime : (compose (reading .bull 6) (reading .bull 3)
        [⟨"BTC", reading .bear 6, reading .bear 6⟩] {}).map Composite.regime = .ok .bull := by
      decide +kernel
    rw [hr] at hregime
    exact Except.ok.inj hregime
  · have hpattern : (compose (reading .bull 6) (reading .bull 3)
        [⟨"BTC", reading .bear 6, reading .bear 6⟩] {}).map Composite.pattern =
          .ok .assetBullMarketHeadwind := by
      decide +kernel
    rw [hr] at hpattern
    exact Except.ok.inj hpattern

end TradingFleet.Regime
