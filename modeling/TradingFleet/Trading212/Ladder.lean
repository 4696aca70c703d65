import Mathlib.Algebra.BigOperators.Group.List.Basic
import Mathlib.Algebra.Order.BigOperators.Group.List
import Mathlib.Tactic.Linarith
import TradingFleet.Trading212.Types

set_option autoImplicit false

/-! # Trading 212: what a ladder asks for

A ladder asks for every level once, with quantities of two decimals. When the levels are distinct and
the fractions are not negative, its quantities together are the position, up to the rounding of the
lower tranches: the highest tranche takes what they leave.
-/

namespace TradingFleet.Trading212

open TradingFleet.Rounding (roundTo roundTo_near roundTo_nonneg roundTo_roundTo)

/-! ## Levels -/

theorem setLevel_keys (desired : List (ℚ × ℚ × ℚ)) (d : ℚ × ℚ × ℚ) :
    (setLevel desired d).map Prod.fst =
      if d.1 ∈ desired.map Prod.fst then desired.map Prod.fst
      else desired.map Prod.fst ++ [d.1] := by
  have hmem : desired.any (fun x => x.1 = d.1) = true ↔ d.1 ∈ desired.map Prod.fst := by
    simp only [List.any_eq_true, decide_eq_true_eq, List.mem_map]
  unfold setLevel
  by_cases h : d.1 ∈ desired.map Prod.fst
  · rw [if_pos (hmem.mpr h), if_pos h, List.map_map]
    -- a level keeps its place
    refine List.map_congr_left (fun x _ => ?_)
    by_cases hx : x.1 = d.1
    · simp [hx]
    · simp [hx]
  · rw [if_neg (fun hany => h (hmem.mp hany)), if_neg h]
    simp

theorem setLevel_nodup {desired : List (ℚ × ℚ × ℚ)} (h : (desired.map Prod.fst).Nodup)
    (d : ℚ × ℚ × ℚ) : ((setLevel desired d).map Prod.fst).Nodup := by
  rw [setLevel_keys]
  split
  · exact h
  · rename_i hnew
    exact List.Nodup.append h (List.nodup_singleton _)
      (List.disjoint_singleton.mpr hnew)

theorem mem_setLevel {desired : List (ℚ × ℚ × ℚ)} {d x : ℚ × ℚ × ℚ} (h : x ∈ setLevel desired d) :
    x ∈ desired ∨ x = d := by
  unfold setLevel at h
  split at h
  · obtain ⟨y, hy, rfl⟩ := List.mem_map.mp h
    by_cases hyd : y.1 = d.1
    · exact Or.inr (if_pos hyd)
    · exact Or.inl (by rw [if_neg hyd]; exact hy)
  · rcases List.mem_append.mp h with h | h
    · exact Or.inl h
    · exact Or.inr (List.mem_singleton.mp h)

theorem setLevels_nodup {desired : List (ℚ × ℚ × ℚ)} (h : (desired.map Prod.fst).Nodup)
    (l : List (ℚ × ℚ × ℚ)) : ((l.foldl setLevel desired).map Prod.fst).Nodup := by
  induction l generalizing desired with
  | nil => exact h
  | cons d rest ih => exact ih (setLevel_nodup h d)

theorem mem_setLevels {desired l : List (ℚ × ℚ × ℚ)} {x : ℚ × ℚ × ℚ}
    (h : x ∈ l.foldl setLevel desired) : x ∈ desired ∨ x ∈ l := by
  induction l generalizing desired with
  | nil => exact Or.inl h
  | cons d rest ih =>
      rcases ih h with h | h
      · rcases mem_setLevel h with h | rfl
        · exact Or.inl h
        · exact Or.inr List.mem_cons_self
      · exact Or.inr (List.mem_cons_of_mem _ h)

/-- Distinct levels are only collected. -/
theorem setLevels_of_nodup {desired l : List (ℚ × ℚ × ℚ)}
    (h : ((desired ++ l).map Prod.fst).Nodup) : l.foldl setLevel desired = desired ++ l := by
  induction l generalizing desired with
  | nil => simp
  | cons d rest ih =>
      have hnew : ¬ desired.any (fun x => x.1 = d.1) = true := by
        intro hany
        obtain ⟨x, hx, hxd⟩ := List.any_eq_true.mp hany
        rw [List.map_append, List.map_cons] at h
        refine List.disjoint_of_nodup_append h (List.mem_map_of_mem hx) ?_
        rw [of_decide_eq_true hxd]
        exact List.mem_cons_self
      have hset : setLevel desired d = desired ++ [d] := by
        unfold setLevel
        rw [if_neg hnew]
      have hsplit : desired ++ d :: rest = desired ++ [d] ++ rest := by simp
      rw [List.foldl_cons, hset, hsplit]
      exact ih (by rw [← hsplit]; exact h)

/-! ## Shares -/

/-- What the level `x` gets, when `rest` are the higher levels. -/
def tranche (held buffer total acc : ℚ) (x : ℚ × ℚ) (rest : List (ℚ × ℚ)) : ℚ :=
  if rest.isEmpty then roundTo (held - acc - buffer) 2 else roundTo (held * x.2 / total) 2

theorem roundTo_tranche (held buffer total acc : ℚ) (x : ℚ × ℚ) (rest : List (ℚ × ℚ)) :
    roundTo (tranche held buffer total acc x rest) 2 = tranche held buffer total acc x rest := by
  unfold tranche
  split <;> exact roundTo_roundTo _ 2

theorem ladderShares_cons_pos {held avg buffer total acc : ℚ} {x : ℚ × ℚ} {rest : List (ℚ × ℚ)}
    (h : 0 < tranche held buffer total acc x rest) :
    ladderShares held avg buffer total acc (x :: rest) =
      (x.1, tranche held buffer total acc x rest, roundTo (avg * (1 + x.1 / 100)) 2) ::
        ladderShares held avg buffer total (acc + tranche held buffer total acc x rest) rest :=
  if_pos h

theorem ladderShares_cons_neg {held avg buffer total acc : ℚ} {x : ℚ × ℚ} {rest : List (ℚ × ℚ)}
    (h : ¬ 0 < tranche held buffer total acc x rest) :
    ladderShares held avg buffer total acc (x :: rest) =
      ladderShares held avg buffer total (acc + tranche held buffer total acc x rest) rest :=
  if_neg h

/-- The levels of a pass are levels it was given, in their order. -/
theorem ladderShares_keys (held avg buffer total : ℚ) (acc : ℚ) (l : List (ℚ × ℚ)) :
    ((ladderShares held avg buffer total acc l).map Prod.fst).Sublist (l.map Prod.fst) := by
  induction l generalizing acc with
  | nil => exact List.Sublist.refl []
  | cons x rest ih =>
      by_cases h : 0 < tranche held buffer total acc x rest
      · rw [ladderShares_cons_pos h]
        exact (ih _).cons_cons x.1
      · rw [ladderShares_cons_neg h]
        exact (ih _).cons x.1

theorem ladderShares_round {held avg buffer total acc : ℚ} {l : List (ℚ × ℚ)}
    {d : ℚ × ℚ × ℚ} (h : d ∈ ladderShares held avg buffer total acc l) :
    0 < d.2.1 ∧ roundTo d.2.1 2 = d.2.1 := by
  induction l generalizing acc with
  | nil => cases h
  | cons x rest ih =>
      by_cases hpos : 0 < tranche held buffer total acc x rest
      · rw [ladderShares_cons_pos hpos] at h
        rcases List.mem_cons.mp h with rfl | h
        · exact ⟨hpos, roundTo_tranche held buffer total acc x rest⟩
        · exact ih h
      · rw [ladderShares_cons_neg hpos] at h
        exact ih h

theorem ladderDesired_nodup (P : StratParams) (s : State) (held avg : ℚ) :
    ((ladderDesired P s held avg).map Prod.fst).Nodup := by
  unfold ladderDesired
  dsimp only
  split
  · exact List.nodup_nil
  · exact @setLevels_nodup [] List.nodup_nil _

theorem ladderDesired_round {P : StratParams} {s : State} {held avg : ℚ} {d : ℚ × ℚ × ℚ}
    (h : d ∈ ladderDesired P s held avg) : 0 < d.2.1 ∧ roundTo d.2.1 2 = d.2.1 := by
  unfold ladderDesired at h
  dsimp only at h
  split at h
  · cases h
  · rcases mem_setLevels h with h | h
    · cases h
    · exact ladderShares_round h

/-! ## The sum of the shares -/

/-- What the tranches below the highest one take, from left to right. -/
def lowerTotal (held total : ℚ) : List (ℚ × ℚ) → ℚ
  | [] => 0
  | [_] => 0
  | x :: y :: rest => roundTo (held * x.2 / total) 2 + lowerTotal held total (y :: rest)

/-- Every tranche may be rounded up by half a cent of quantity. -/
theorem lowerTotal_le (held total : ℚ) {l : List (ℚ × ℚ)} {last : ℚ × ℚ}
    (hlast : l.getLast? = some last) :
    lowerTotal held total l ≤
      held * ((l.map Prod.snd).sum - last.2) / total + (l.length - 1) * (1 / 200) := by
  induction l with
  | nil => cases hlast
  | cons x rest ih =>
      cases rest with
      | nil =>
          have hx : x = last := by simpa using hlast
          subst hx
          simp [lowerTotal]
      | cons y rest =>
          have hrest := ih (by simpa using hlast)
          have hround := (abs_le.mp (roundTo_near (held * x.2 / total) 2)).2
          have hsum : ((x :: y :: rest).map Prod.snd).sum = x.2 + ((y :: rest).map Prod.snd).sum :=
            by simp
          have hlen : (((x :: y :: rest).length : Nat) : ℚ) = ((y :: rest).length : Nat) + 1 := by
            simp
          have hsplit : held * (x.2 + ((y :: rest).map Prod.snd).sum - last.2) / total =
              held * x.2 / total + held * (((y :: rest).map Prod.snd).sum - last.2) / total := by
            ring
          show roundTo (held * x.2 / total) 2 + lowerTotal held total (y :: rest) ≤ _
          rw [hsum, hlen, hsplit]
          norm_num at hround
          linarith

/-- Lower tranches are not negative, so what is asked for is what they take, and the rest. -/
theorem ladderShares_sum {held avg buffer total : ℚ} (acc : ℚ) {l : List (ℚ × ℚ)} (hne : l ≠ [])
    (hfractions : ∀ x ∈ l, 0 ≤ roundTo (held * x.2 / total) 2) :
    ((ladderShares held avg buffer total acc l).map (fun d => d.2.1)).sum =
      lowerTotal held total l +
        max 0 (roundTo (held - (acc + lowerTotal held total l) - buffer) 2) := by
  induction l generalizing acc with
  | nil => exact absurd rfl hne
  | cons x rest ih =>
      cases rest with
      | nil =>
          have htranche : tranche held buffer total acc x [] = roundTo (held - acc - buffer) 2 := rfl
          by_cases hpos : 0 < tranche held buffer total acc x []
          · rw [ladderShares_cons_pos hpos]
            rw [htranche] at hpos ⊢
            simp [ladderShares, lowerTotal, max_eq_right hpos.le]
          · rw [ladderShares_cons_neg hpos]
            rw [htranche] at hpos
            simp [ladderShares, lowerTotal, not_lt.mp hpos]
      | cons y rest =>
          have htranche : tranche held buffer total acc x (y :: rest) =
              roundTo (held * x.2 / total) 2 := rfl
          have hlower : lowerTotal held total (x :: y :: rest) =
              roundTo (held * x.2 / total) 2 + lowerTotal held total (y :: rest) := rfl
          have hstep := ih (acc + roundTo (held * x.2 / total) 2) (by simp)
            (fun z hz => hfractions z (List.mem_cons_of_mem _ hz))
          rw [add_assoc acc, ← hlower] at hstep
          by_cases hpos : 0 < tranche held buffer total acc x (y :: rest)
          · rw [ladderShares_cons_pos hpos, List.map_cons, List.sum_cons]
            rw [htranche, hstep, hlower]
            ring
          · -- a tranche of nothing is left out
            have hzero : roundTo (held * x.2 / total) 2 = 0 := by
              rw [htranche] at hpos
              exact le_antisymm (not_lt.mp hpos) (hfractions x List.mem_cons_self)
            rw [ladderShares_cons_neg hpos, htranche, hstep, hlower, hzero, zero_add]

/-- The unsold levels from low to high. -/
def sortedLevels (P : StratParams) (s : State) : List (ℚ × ℚ) :=
  (unsoldLevels P s).insertionSort (fun a b => a.1 ≤ b.1)

/-- The levels are distinct, no fraction is negative, and the highest tranche is large enough for
what the others may be rounded up by. -/
def LadderFits (P : StratParams) (s : State) : Prop :=
  ((sortedLevels P s).map Prod.fst).Nodup ∧ (∀ l ∈ sortedLevels P s, 0 ≤ l.2) ∧
    ∀ last ∈ (sortedLevels P s).getLast?,
      (((sortedLevels P s).length : ℚ) - 3) * (1 / 200) ≤
        s.qty * last.2 / ((sortedLevels P s).map Prod.snd).sum

instance (P : StratParams) (s : State) : Decidable (LadderFits P s) :=
  inferInstanceAs (Decidable (_ ∧ _ ∧ _))

theorem sortedLevels_sum (P : StratParams) (s : State) :
    ((sortedLevels P s).map Prod.snd).sum = ((unsoldLevels P s).map Prod.snd).sum :=
  ((List.perm_insertionSort _ _).map Prod.snd).sum_eq

theorem ladderDesired_sum_le {P : StratParams} {s : State} (avg : ℚ) (hheld : 0 ≤ s.qty)
    (hfits : LadderFits P s) :
    ((ladderDesired P s s.qty avg).map (fun d => d.2.1)).sum ≤ s.qty + 1 / 100 := by
  obtain ⟨hlevels, hfractions, hlast⟩ := hfits
  have hsorted := sortedLevels_sum P s
  unfold ladderDesired
  extract_lets remaining total buffer
  split
  · simpa using (by linarith : (0 : ℚ) ≤ s.qty + 1 / 100)
  · rename_i hsome
    obtain ⟨htotal, -⟩ := not_or.mp hsome
    rw [not_le] at htotal
    have hbuffer : 0 ≤ buffer := by
      show 0 ≤ if 0 < P.ladderMinFree ∧ 0 < avg then P.ladderMinFree / avg else 0
      split
      · rename_i h
        exact div_nonneg h.1.le h.2.le
      · exact le_refl 0
    have hne : sortedLevels P s ≠ [] := by
      intro hnil
      rw [hnil] at hsorted
      exact absurd hsorted (ne_of_lt htotal)
    have hrounds : ∀ x ∈ sortedLevels P s, 0 ≤ roundTo (s.qty * x.2 / total) 2 := fun x hx =>
      roundTo_nonneg (div_nonneg (mul_nonneg hheld (hfractions x hx)) htotal.le) 2
    have hkeys : (([] ++ ladderShares s.qty avg buffer total 0 (sortedLevels P s)).map
        Prod.fst).Nodup := hlevels.sublist (ladderShares_keys s.qty avg buffer total 0 _)
    show (((ladderShares s.qty avg buffer total 0 (sortedLevels P s)).foldl setLevel []).map
      (fun d => d.2.1)).sum ≤ _
    rw [setLevels_of_nodup hkeys, List.nil_append, ladderShares_sum 0 hne hrounds, zero_add]
    obtain ⟨last, hlast'⟩ : ∃ last, (sortedLevels P s).getLast? = some last :=
      ⟨_, List.getLast?_eq_some_getLast hne⟩
    have hlower := lowerTotal_le s.qty total hlast'
    have hroom := hlast last hlast'
    have hround := (abs_le.mp (roundTo_near
      (s.qty - lowerTotal s.qty total (sortedLevels P s) - buffer) 2)).2
    norm_num at hround
    rw [hsorted] at hlower hroom
    -- what the highest tranche leaves to the others
    have hshare : s.qty * (total - last.2) / total = s.qty - s.qty * last.2 / total := by
      field_simp
    have htotal_eq : ((unsoldLevels P s).map Prod.snd).sum = total := rfl
    rw [htotal_eq] at hlower hroom
    rw [hshare] at hlower
    rcases max_cases (0 : ℚ)
      (roundTo (s.qty - lowerTotal s.qty total (sortedLevels P s) - buffer) 2) with h | h
    · rw [h.1]
      linarith
    · rw [h.1]
      linarith

end TradingFleet.Trading212
