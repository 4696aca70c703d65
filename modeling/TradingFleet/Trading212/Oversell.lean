import Mathlib.Tactic.Ring
import TradingFleet.Trading212.Ladder

set_option autoImplicit false

/-! # Trading 212: when a ladder oversells

Every level below the highest is rounded by itself, and the highest takes what is left, less the
buffer. So the ladder asks for more than is held exactly when the roundings below gain more than the
share of the highest level, or its own rounding gains more than the buffer (`RoundsWithin`). A level
that is listed twice keeps its last quantity, which leaves room.
-/

namespace TradingFleet.Trading212

open TradingFleet.Rounding (roundTo roundTo_nonneg)

/-! ## Levels listed twice -/

def askedTotal (l : List (ℚ × ℚ × ℚ)) : ℚ := (l.map (fun d => d.2.1)).sum

/-- What the levels ask for that are listed again later. -/
def repeatedTotal : List (ℚ × ℚ × ℚ) → ℚ
  | [] => 0
  | d :: rest => (if d.1 ∈ rest.map Prod.fst then d.2.1 else 0) + repeatedTotal rest

/-- What the levels ask for that are not in `keys`. -/
def outside (keys : List ℚ) (l : List (ℚ × ℚ × ℚ)) : ℚ :=
  askedTotal (l.filter (fun d => d.1 ∉ keys))

theorem outside_cons (keys : List ℚ) (d : ℚ × ℚ × ℚ) (l : List (ℚ × ℚ × ℚ)) :
    outside keys (d :: l) = (if d.1 ∈ keys then 0 else d.2.1) + outside keys l := by
  unfold outside askedTotal
  by_cases h : d.1 ∈ keys
  · simp [h]
  · simp [h]

/-- A key that does not occur may be added. -/
theorem outside_absent {key : ℚ} {keys : List ℚ} {l : List (ℚ × ℚ × ℚ)}
    (h : key ∉ l.map Prod.fst) : outside (key :: keys) l = outside keys l := by
  induction l with
  | nil => rfl
  | cons d rest ih =>
      rw [List.map_cons, List.mem_cons, not_or] at h
      have hne : ¬ d.1 = key := fun heq => h.1 heq.symm
      rw [outside_cons, outside_cons, ih h.2]
      simp [hne]

theorem outside_replaced {d : ℚ × ℚ × ℚ} {keys : List ℚ} {l : List (ℚ × ℚ × ℚ)}
    (hnodup : (l.map Prod.fst).Nodup) (h : d.1 ∈ l.map Prod.fst) :
    outside keys (l.map (fun x => if x.1 = d.1 then d else x)) =
      outside (d.1 :: keys) l + if d.1 ∈ keys then 0 else d.2.1 := by
  induction l with
  | nil => cases h
  | cons x rest ih =>
      rw [List.map_cons, List.nodup_cons] at hnodup
      rw [List.map_cons, outside_cons, outside_cons]
      by_cases hx : x.1 = d.1
      · -- the only row of this level
        have habsent : d.1 ∉ rest.map Prod.fst := hx ▸ hnodup.1
        have hsame : rest.map (fun x => if x.1 = d.1 then d else x) = rest := by
          refine (List.map_congr_left (fun y hy => ?_)).trans (List.map_id rest)
          have hne : ¬ y.1 = d.1 := fun heq => habsent (heq ▸ List.mem_map_of_mem hy)
          simp [hne]
        rw [hsame, outside_absent habsent]
        simp only [hx, if_true, List.mem_cons, true_or]
        ring
      · have hrest : d.1 ∈ rest.map Prod.fst := by
          rw [List.map_cons, List.mem_cons] at h
          exact h.resolve_left (fun heq => hx heq.symm)
        rw [ih hnodup.2 hrest]
        simp only [hx, if_false, List.mem_cons, false_or]
        ring

/-- The rows that are collected ask for everything but the repetitions. -/
theorem setLevels_total (desired l : List (ℚ × ℚ × ℚ)) (hnodup : (desired.map Prod.fst).Nodup) :
    askedTotal (l.foldl setLevel desired) =
      outside (l.map Prod.fst) desired + (askedTotal l - repeatedTotal l) := by
  induction l generalizing desired with
  | nil =>
      unfold outside
      simp [askedTotal, repeatedTotal]
  | cons d rest ih =>
      rw [List.foldl_cons, ih _ (setLevel_nodup hnodup d), List.map_cons]
      have hstep : outside (rest.map Prod.fst) (setLevel desired d) =
          outside (d.1 :: rest.map Prod.fst) desired +
            if d.1 ∈ rest.map Prod.fst then 0 else d.2.1 := by
        have hmem : desired.any (fun x => x.1 = d.1) = true ↔ d.1 ∈ desired.map Prod.fst := by
          simp only [List.any_eq_true, decide_eq_true_eq, List.mem_map]
        unfold setLevel
        by_cases h : d.1 ∈ desired.map Prod.fst
        · rw [if_pos (hmem.mpr h), outside_replaced hnodup h]
        · rw [if_neg (fun hany => h (hmem.mp hany)), outside_absent h]
          unfold outside askedTotal
          rw [List.filter_append, List.map_append, List.sum_append]
          by_cases hd : d.1 ∈ rest.map Prod.fst
          · simp [hd]
          · simp [hd]
      have hasked : askedTotal (d :: rest) = d.2.1 + askedTotal rest := by
        unfold askedTotal
        simp
      have hrepeated : repeatedTotal (d :: rest) =
          (if d.1 ∈ rest.map Prod.fst then d.2.1 else 0) + repeatedTotal rest := rfl
      rw [hstep, hasked, hrepeated]
      by_cases hd : d.1 ∈ rest.map Prod.fst
      · simp only [hd, if_true]
        ring
      · simp only [hd, if_false]
        ring

/-! ## What the roundings gain -/

/-- What rounding adds. -/
def gain (x : ℚ) : ℚ := roundTo x 2 - x

/-- The exact share of a level. -/
def levelShare (held total : ℚ) (x : ℚ × ℚ) : ℚ := held * x.2 / total

/-- What the levels below the highest gain. -/
def lowerGain (held total : ℚ) : List (ℚ × ℚ) → ℚ
  | [] => 0
  | [_] => 0
  | x :: y :: rest => gain (levelShare held total x) + lowerGain held total (y :: rest)

def lastShare (held total : ℚ) (l : List (ℚ × ℚ)) : ℚ :=
  ((l.getLast?).map (levelShare held total)).getD 0

/-- The lower tranches are the exact shares and the gains. -/
theorem lowerTotal_eq (held total : ℚ) {l : List (ℚ × ℚ)} (hne : l ≠ []) :
    lowerTotal held total l =
      held * (l.map Prod.snd).sum / total - lastShare held total l + lowerGain held total l := by
  induction l with
  | nil => exact absurd rfl hne
  | cons x rest ih =>
      cases rest with
      | nil => simp [lowerTotal, lastShare, lowerGain, levelShare]
      | cons y rest =>
          have hlast : lastShare held total (x :: y :: rest) = lastShare held total (y :: rest) := by
            unfold lastShare
            rw [List.getLast?_cons_cons]
          have hsum : ((x :: y :: rest).map Prod.snd).sum = x.2 + ((y :: rest).map Prod.snd).sum :=
            by simp
          have hgain : lowerGain held total (x :: y :: rest) =
              roundTo (held * x.2 / total) 2 - held * x.2 / total +
                lowerGain held total (y :: rest) := rfl
          show roundTo (held * x.2 / total) 2 + lowerTotal held total (y :: rest) = _
          rw [ih (by simp), hlast, hsum, hgain]
          ring

/-- The free part of `ladder_min_free`. -/
def ladderBuffer (P : StratParams) (avg : ℚ) : ℚ :=
  if 0 < P.ladderMinFree ∧ 0 < avg then P.ladderMinFree / avg else 0

def fractionTotal (P : StratParams) (s : State) : ℚ := ((unsoldLevels P s).map Prod.snd).sum

/-- What the levels that are listed twice leave. -/
def repeatedRoom (P : StratParams) (s : State) (held avg : ℚ) : ℚ :=
  repeatedTotal (ladderShares held avg (ladderBuffer P avg) (fractionTotal P s) 0 (sortedLevels P s))

/-- What is left for the highest level. -/
def remainder (P : StratParams) (s : State) (held avg : ℚ) : ℚ :=
  lastShare held (fractionTotal P s) (sortedLevels P s) -
    lowerGain held (fractionTotal P s) (sortedLevels P s) - ladderBuffer P avg

/-- The gains below are within the share of the highest level, and its own gain within the buffer. -/
def RoundsWithin (P : StratParams) (s : State) (held avg : ℚ) : Prop :=
  lowerGain held (fractionTotal P s) (sortedLevels P s) ≤
      lastShare held (fractionTotal P s) (sortedLevels P s) + repeatedRoom P s held avg ∧
    (0 < roundTo (remainder P s held avg) 2 →
      gain (remainder P s held avg) ≤ ladderBuffer P avg + repeatedRoom P s held avg)

theorem asked_eq {P : StratParams} {s : State} {held : ℚ} (avg : ℚ) (hheld : flatQty < held)
    (hfractions : ∀ l ∈ unsoldLevels P s, 0 < l.2) (hsome : 0 < fractionTotal P s) :
    askedTotal (ladderDesired P s held avg) =
      held - lastShare held (fractionTotal P s) (sortedLevels P s) +
        lowerGain held (fractionTotal P s) (sortedLevels P s) +
        max 0 (roundTo (remainder P s held avg) 2) - repeatedRoom P s held avg := by
  have hpositive : 0 ≤ held := by
    have hflat : (0 : ℚ) ≤ flatQty := by
      unfold flatQty
      norm_num
    linarith
  have hsum := sortedLevels_sum P s
  have hne : sortedLevels P s ≠ [] := by
    intro hnil
    rw [hnil] at hsum
    exact absurd hsum (ne_of_lt hsome)
  have hshares : ∀ x ∈ sortedLevels P s, 0 ≤ roundTo (held * x.2 / fractionTotal P s) 2 := by
    intro x hx
    have hmem : x ∈ unsoldLevels P s := (List.perm_insertionSort _ _).mem_iff.mp hx
    exact roundTo_nonneg (div_nonneg (mul_nonneg hpositive (hfractions x hmem).le) hsome.le) 2
  have hdesired : ladderDesired P s held avg =
      (ladderShares held avg (ladderBuffer P avg) (fractionTotal P s) 0
        (sortedLevels P s)).foldl setLevel [] := by
    unfold ladderDesired
    exact if_neg (not_or.mpr ⟨not_le.mpr hsome, not_le.mpr hheld⟩)
  have htotal := lowerTotal_eq held (fractionTotal P s) hne
  have hwhole : held * ((sortedLevels P s).map Prod.snd).sum / fractionTotal P s = held := by
    have heq : ((sortedLevels P s).map Prod.snd).sum = fractionTotal P s := hsum
    rw [heq]
    field_simp
  rw [hwhole] at htotal
  have hasked : askedTotal (ladderShares held avg (ladderBuffer P avg) (fractionTotal P s) 0
      (sortedLevels P s)) = _ := ladderShares_sum 0 hne hshares
  rw [hdesired, setLevels_total [] _ List.nodup_nil, hasked, zero_add, htotal]
  have hrest : held - (held - lastShare held (fractionTotal P s) (sortedLevels P s) +
      lowerGain held (fractionTotal P s) (sortedLevels P s)) - ladderBuffer P avg =
        remainder P s held avg := by
    unfold remainder
    ring
  rw [hrest]
  unfold repeatedRoom
  have hnone : outside ((ladderShares held avg (ladderBuffer P avg) (fractionTotal P s) 0
      (sortedLevels P s)).map Prod.fst) [] = 0 := rfl
  rw [hnone]
  ring

/-- **The desired quantities.** They are at most what is held exactly if the roundings are within. -/
theorem asked_le_iff {P : StratParams} {s : State} {held : ℚ} (avg : ℚ) (hheld : flatQty < held)
    (hfractions : ∀ l ∈ unsoldLevels P s, 0 < l.2) (hsome : 0 < fractionTotal P s) :
    askedTotal (ladderDesired P s held avg) ≤ held ↔ RoundsWithin P s held avg := by
  rw [asked_eq avg hheld hfractions hsome]
  unfold RoundsWithin
  have hgain : roundTo (remainder P s held avg) 2 =
      gain (remainder P s held avg) + remainder P s held avg := by
    unfold gain
    ring
  have hrest : remainder P s held avg = lastShare held (fractionTotal P s) (sortedLevels P s) -
      lowerGain held (fractionTotal P s) (sortedLevels P s) - ladderBuffer P avg := rfl
  by_cases hpositive : 0 < roundTo (remainder P s held avg) 2
  · rw [max_eq_right hpositive.le]
    constructor
    · intro h
      refine ⟨?_, fun _ => ?_⟩
      · linarith
      · linarith
    · rintro ⟨-, hlast⟩
      have hlast := hlast hpositive
      linarith
  · rw [max_eq_left (not_lt.mp hpositive)]
    constructor
    · intro h
      exact ⟨by linarith, fun h => absurd h hpositive⟩
    · rintro ⟨hlower, -⟩
      linarith

end TradingFleet.Trading212
