import Mathlib.Logic.Relation

set_option autoImplicit false

/-! # Runs of a labelled transition system

A system is a predicate on initial states and a step relation labelled by what happened.
`Reach` is every state some run ends in. An invariant is proved once per step
(`Reach.invariant`).
-/

namespace TradingFleet.Runs

variable {σ ι : Type}

/-- The states a run from an initial state can reach. -/
inductive Reach (init : σ → Prop) (next : σ → ι → σ → Prop) : σ → Prop
  | start {s : σ} : init s → Reach init next s
  | step {s s' : σ} {i : ι} : Reach init next s → next s i s' → Reach init next s'

variable {init : σ → Prop} {next : σ → ι → σ → Prop}

/-- What holds at the start and is kept by every step holds in every reachable state. -/
theorem Reach.invariant {P : σ → Prop} (h0 : ∀ s, init s → P s)
    (hstep : ∀ s i s', P s → next s i s' → P s') {s : σ} (h : Reach init next s) : P s := by
  induction h with
  | start hi => exact h0 _ hi
  | step _ hn ih => exact hstep _ _ _ ih hn

/-! ## Runs of a step function -/

/-- `P` holds of every step of a run, given as the list of its labels. -/
def Along (step : σ → ι → σ) (P : σ → ι → Prop) : σ → List ι → Prop
  | _, [] => True
  | s, i :: rest => P s i ∧ Along step P (step s i) rest

instance Along.decidable {f : σ → ι → σ} {P : σ → ι → Prop} [∀ s i, Decidable (P s i)] :
    (s : σ) → (l : List ι) → Decidable (Along f P s l)
  | _, [] => isTrue trivial
  | s, i :: rest => @instDecidableAnd (P s i) (Along f P (f s i) rest) _ (Along.decidable _ rest)

/-- In a run whose steps all meet `C`, an invariant gives `P` of every step. -/
theorem Along.of_invariant {step : σ → ι → σ} {C P : σ → ι → Prop} {I : σ → Prop}
    (h : ∀ s i, I s → C s i → P s i ∧ I (step s i)) {l : List ι} {s : σ} (hs : I s)
    (hC : Along step C s l) : Along step P s l := by
  induction l generalizing s with
  | nil => exact trivial
  | cons i rest ih => exact ⟨(h s i hs hC.1).1, ih (h s i hs hC.1).2 hC.2⟩

/-- In a run whose steps all meet `C`, an invariant that such steps keep holds at the end. -/
theorem Along.invariant {step : σ → ι → σ} {C : σ → ι → Prop} {I : σ → Prop}
    (h : ∀ s i, I s → C s i → I (step s i)) {l : List ι} {s : σ} (hs : I s)
    (hC : Along step C s l) : I (l.foldl step s) := by
  induction l generalizing s with
  | nil => exact hs
  | cons i rest ih => exact ih (h s i hs hC.1) hC.2

/-- Under an invariant, what is equivalent of every step is equivalent along a run. -/
theorem Along.congr {step : σ → ι → σ} {P Q : σ → ι → Prop} {I : σ → Prop}
    (hI : ∀ s i, I s → I (step s i)) (h : ∀ s i, I s → (P s i ↔ Q s i)) {l : List ι} {s : σ}
    (hs : I s) : Along step P s l ↔ Along step Q s l := by
  induction l generalizing s with
  | nil => exact Iff.rfl
  | cons i rest ih => exact and_congr (h s i hs) (ih (hI s i hs))

theorem Along.mono {step : σ → ι → σ} {P Q : σ → ι → Prop} (h : ∀ s i, P s i → Q s i) {s : σ}
    {l : List ι} (hP : Along step P s l) : Along step Q s l := by
  induction l generalizing s with
  | nil => exact trivial
  | cons i rest ih => exact ⟨h s i hP.1, ih hP.2⟩

/-- What holds of every step holds along every run. -/
theorem Along.of_forall {step : σ → ι → σ} {P : σ → ι → Prop} (h : ∀ s i, P s i) (s : σ)
    (l : List ι) : Along step P s l := by
  induction l generalizing s with
  | nil => exact trivial
  | cons i rest ih => exact ⟨h s i, ih (step s i)⟩

/-- A run that is continued. -/
theorem Along.append {step : σ → ι → σ} {P : σ → ι → Prop} {s : σ} {l l' : List ι} :
    Along step P s (l ++ l') ↔ Along step P s l ∧ Along step P (l.foldl step s) l' := by
  induction l generalizing s with
  | nil =>
      constructor
      · exact fun h => ⟨trivial, h⟩
      · exact fun h => h.2
  | cons i rest ih =>
      constructor
      · rintro ⟨hi, hrest⟩
        exact ⟨⟨hi, (ih.mp hrest).1⟩, (ih.mp hrest).2⟩
      · rintro ⟨⟨hi, hfirst⟩, hrest⟩
        exact ⟨hi, ih.mpr ⟨hfirst, hrest⟩⟩

end TradingFleet.Runs
