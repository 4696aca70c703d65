import Mathlib.Algebra.Order.Field.Rat
import Mathlib.Data.List.Sort
import Mathlib.Data.Rat.Floor
import TradingFleet.Basic.Bisect

set_option autoImplicit false

/-! # The price window

`PriceWindow` of `pricewindow.py` keeps its latest prices twice: in the order of their arrival and
sorted. Each new price moves both, by bisection; a new sampling rate rebuilds one from the other.
`Represents` is what ties them together.
-/

namespace TradingFleet.Prices

open TradingFleet.Bisect

/-! ## The code -/

/-- A window, with the oldest price first in `prices`. -/
structure PriceWindow (α : Type) where
  windowSize : ℕ
  sampleRateSec : ℚ
  /-- the duration to cover, when the window is resized with the sampling rate -/
  windowSeconds : Option ℚ
  prices : List α
  sortedPrices : List α
deriving DecidableEq, Repr

/-- `append` of a `deque` of this length. -/
def dequeAppend {α : Type} (maxlen : ℕ) (prices : List α) (x : α) : List α :=
  (prices ++ [x]).drop (prices.length + 1 - maxlen)

/-- With room for it, a price is appended. -/
theorem dequeAppend_of_lt {α : Type} {maxlen : ℕ} {prices : List α} (h : prices.length < maxlen) (x : α) :
    dequeAppend maxlen prices x = prices ++ [x] := by
  unfold dequeAppend
  rw [show prices.length + 1 - maxlen = 0 by omega, List.drop_zero]

/-- `xs[-n:]`, for a positive `n`. -/
def lastN {α : Type} (n : ℕ) (xs : List α) : List α := xs.drop (xs.length - n)

theorem length_lastN_le {α : Type} (n : ℕ) (xs : List α) : (lastN n xs).length ≤ n := by
  rw [lastN, List.length_drop]
  omega

theorem lastN_of_le {α : Type} {n : ℕ} {xs : List α} (h : xs.length ≤ n) : lastN n xs = xs := by
  rw [lastN, show xs.length - n = 0 by omega, List.drop_zero]

namespace PriceWindow

variable {α : Type} [LinearOrder α]

/-- The oldest price leaves a full window. `popleft` raises on an empty one. -/
def dropOldest (w : PriceWindow α) : Option (PriceWindow α) :=
  if w.prices.length = w.windowSize then
    match w.prices with
    | [] => none
    | oldest :: rest =>
        let index := bisectLeft w.sortedPrices oldest
        some { w with
          prices := rest
          sortedPrices :=
            if w.sortedPrices[index]? = some oldest then w.sortedPrices.eraseIdx index
            else w.sortedPrices }
  else some w

/-- `process_price`. -/
def processPrice (w : PriceWindow α) (price : α) : Option (PriceWindow α) := do
  let w ← w.dropOldest
  pure { w with
    prices := dequeAppend w.windowSize w.prices price
    sortedPrices := insort w.sortedPrices price }

/-- `max(10, int(window_seconds / rate))`; what lies below 10 does not matter. -/
def sizeFor (windowSeconds rate : ℚ) : ℕ := max 10 ⌊windowSeconds / rate⌋.toNat

def resized (w : PriceWindow α) (newSize : ℕ) : PriceWindow α :=
  if newSize = w.windowSize then w
  else
    let kept := lastN newSize w.prices
    { w with
      windowSize := newSize
      prices := kept
      sortedPrices := kept.insertionSort (· ≤ ·) }

/-- `set_sample_rate`. -/
def setSampleRate (w : PriceWindow α) (rate : Option ℚ) : PriceWindow α :=
  match rate with
  | none => w
  | some r =>
      if r ≤ 0 then w
      else
        let w := { w with sampleRateSec := r }
        match w.windowSeconds with
        | none => w
        | some seconds => w.resized (sizeFor seconds r)

/-- The window that is created empty. -/
def empty (windowSize : ℕ) (sampleRateSec : Option ℚ) (windowSeconds : Option ℚ) :
    PriceWindow α where
  windowSize := windowSize
  sampleRateSec := sampleRateSec.getD (4 / 5)
  windowSeconds := windowSeconds
  prices := []
  sortedPrices := []

/-- `__init__`: the last of the initial prices are processed. -/
def create (windowSize : ℕ) (sampleRateSec : Option ℚ) (initialPrices : List α)
    (windowSeconds : Option ℚ) : Option (PriceWindow α) :=
  (lastN windowSize initialPrices).foldlM processPrice
    (empty windowSize sampleRateSec windowSeconds)

end PriceWindow

/-- The calls that change a window. -/
inductive WindowCall (α : Type) where
  | processPrice (price : α)
  | setSampleRate (rate : Option ℚ)

namespace PriceWindow

variable {α : Type} [LinearOrder α]

def call (w : PriceWindow α) : WindowCall α → Option (PriceWindow α)
  | .processPrice price => w.processPrice price
  | .setSampleRate rate => some (w.setSampleRate rate)

/-- A window from its creation on. -/
def run (windowSize : ℕ) (sampleRateSec : Option ℚ) (initialPrices : List α)
    (windowSeconds : Option ℚ) (calls : List (WindowCall α)) : Option (PriceWindow α) := do
  let w ← create windowSize sampleRateSec initialPrices windowSeconds
  calls.foldlM call w

/-! ## The representation -/

/-- The sorted prices are the prices, sorted, and they fit the window. -/
structure Represents (w : PriceWindow α) : Prop where
  perm : w.sortedPrices.Perm w.prices
  sorted : w.sortedPrices.Pairwise (· ≤ ·)
  fits : w.prices.length ≤ w.windowSize
  positive : 0 < w.windowSize

variable {w : PriceWindow α}

theorem represents_empty {windowSize : ℕ} (h : 0 < windowSize) (sampleRateSec : Option ℚ)
    (windowSeconds : Option ℚ) :
    Represents (empty windowSize sampleRateSec windowSeconds : PriceWindow α) :=
  ⟨List.Perm.refl _, List.Pairwise.nil, Nat.zero_le _, h⟩

/-- After `dropOldest` there is room for a price. -/
theorem Represents.dropOldest (h : Represents w) :
    ∃ w', w.dropOldest = some w' ∧ Represents w' ∧ w'.prices.length < w'.windowSize ∧
      w'.windowSize = w.windowSize ∧ (∃ front, w.prices = front ++ w'.prices) := by
  unfold PriceWindow.dropOldest
  by_cases hfull : w.prices.length = w.windowSize
  · rw [if_pos hfull]
    cases hprices : w.prices with
    | nil =>
        have hpos := h.positive
        rw [← hfull, hprices] at hpos
        exact absurd hpos (lt_irrefl _)
    | cons oldest rest =>
        -- the oldest price is one of the sorted ones, so the bisection finds it
        have hmem : oldest ∈ w.sortedPrices := by
          rw [h.perm.mem_iff, hprices]
          exact List.mem_cons_self
        have hfound := getElem?_bisectLeft h.sorted hmem
        have hperm : (w.sortedPrices.eraseIdx (bisectLeft w.sortedPrices oldest)).Perm rest := by
          have hboth := (perm_eraseIdx hfound).symm.trans h.perm
          rw [hprices] at hboth
          exact hboth.cons_inv
        have hlength : rest.length < w.windowSize := by
          rw [hprices, List.length_cons] at hfull
          omega
        dsimp only
        rw [if_pos hfound]
        refine ⟨_, rfl, ⟨hperm, ?_, hlength.le, h.positive⟩, hlength, rfl, [oldest], rfl⟩
        exact h.sorted.sublist (List.eraseIdx_sublist _ _)
  · rw [if_neg hfull]
    exact ⟨w, rfl, h, lt_of_le_of_ne h.fits hfull, rfl, [], rfl⟩

/-- **`process_price` keeps the representation.** -/
theorem Represents.processPrice (h : Represents w) (price : α) :
    ∃ w', w.processPrice price = some w' ∧ Represents w' := by
  obtain ⟨w', hdrop, h', hroom, -, -⟩ := h.dropOldest
  refine ⟨_, by rw [PriceWindow.processPrice, hdrop]; rfl, ?_⟩
  rw [dequeAppend_of_lt hroom]
  refine ⟨?_, insort_sorted price h'.sorted, ?_, h'.positive⟩
  · calc (insort w'.sortedPrices price).Perm (price :: w'.sortedPrices) := insort_perm _ _
      _ |>.Perm (price :: w'.prices) := h'.perm.cons price
      _ |>.Perm (w'.prices ++ [price]) := (List.perm_append_singleton _ _).symm
  · rw [List.length_append, List.length_singleton]
    exact hroom

theorem sizeFor_pos (windowSeconds rate : ℚ) : 0 < sizeFor windowSeconds rate :=
  lt_of_lt_of_le (by norm_num) (le_max_left _ _)

theorem Represents.resized (h : Represents w) {newSize : ℕ} (hpos : 0 < newSize) :
    Represents (w.resized newSize) := by
  unfold PriceWindow.resized
  split
  · exact h
  · exact ⟨List.perm_insertionSort _ _, List.pairwise_insertionSort _ _, length_lastN_le _ _, hpos⟩

/-- **`set_sample_rate` keeps the representation.** -/
theorem Represents.setSampleRate (h : Represents w) (rate : Option ℚ) :
    Represents (w.setSampleRate rate) := by
  unfold PriceWindow.setSampleRate
  cases rate with
  | none => exact h
  | some r =>
      dsimp only
      split
      · exact h
      · have hrate : Represents { w with sampleRateSec := r } :=
          ⟨h.perm, h.sorted, h.fits, h.positive⟩
        split
        · exact hrate
        · exact hrate.resized (sizeFor_pos _ _)

theorem Represents.call (h : Represents w) (c : WindowCall α) :
    ∃ w', w.call c = some w' ∧ Represents w' := by
  cases c with
  | processPrice price => exact h.processPrice price
  | setSampleRate rate => exact ⟨_, rfl, h.setSampleRate rate⟩

end PriceWindow

/-- What each step keeps, and no step fails, holds at the end. -/
theorem foldlM_keeps {σ ι : Type} {P : σ → Prop} {f : σ → ι → Option σ}
    (hf : ∀ s i, P s → ∃ s', f s i = some s' ∧ P s') (l : List ι) {s : σ} (hs : P s) :
    ∃ s', l.foldlM f s = some s' ∧ P s' := by
  induction l generalizing s with
  | nil => exact ⟨s, rfl, hs⟩
  | cons i l ih =>
      obtain ⟨s₁, hstep, h₁⟩ := hf s i hs
      obtain ⟨s', hrest, h'⟩ := ih h₁
      refine ⟨s', ?_, h'⟩
      rw [List.foldlM_cons, hstep]
      exact hrest

namespace PriceWindow

variable {α : Type} [LinearOrder α] {w : PriceWindow α}

theorem create_represents {windowSize : ℕ} (hpos : 0 < windowSize) (sampleRateSec : Option ℚ)
    (initialPrices : List α) (windowSeconds : Option ℚ) :
    ∃ w, create windowSize sampleRateSec initialPrices windowSeconds = some w ∧ Represents w :=
  foldlM_keeps (fun _ price h => h.processPrice price) _
    (represents_empty hpos sampleRateSec windowSeconds)

/-- Prices that fit an empty window are all kept. -/
theorem foldlM_prices {prices : List α} (hw : Represents w)
    (hroom : w.prices.length + prices.length ≤ w.windowSize) :
    ∃ w', prices.foldlM PriceWindow.processPrice w = some w' ∧ Represents w' ∧
      w'.prices = w.prices ++ prices := by
  induction prices generalizing w with
  | nil => exact ⟨w, rfl, hw, (List.append_nil _).symm⟩
  | cons price prices ih =>
      rw [List.length_cons] at hroom
      have hlt : w.prices.length < w.windowSize := by omega
      have hdrop : w.dropOldest = some w := by
        unfold PriceWindow.dropOldest
        rw [if_neg hlt.ne]
      obtain ⟨w₁, hstep, hw₁⟩ := hw.processPrice price
      have hw₁_eq : w₁ = { w with
          prices := w.prices ++ [price], sortedPrices := insort w.sortedPrices price } := by
        rw [PriceWindow.processPrice, hdrop] at hstep
        rw [← Option.some.inj hstep, ← dequeAppend_of_lt hlt]
      have hsize : w₁.prices.length + prices.length ≤ w₁.windowSize := by
        rw [hw₁_eq]
        show (w.prices ++ [price]).length + prices.length ≤ w.windowSize
        rw [List.length_append, List.length_singleton]
        omega
      obtain ⟨w', hrest, hw', hprices⟩ := ih hw₁ hsize
      refine ⟨w', ?_, hw', ?_⟩
      · rw [List.foldlM_cons, hstep]
        exact hrest
      · rw [hprices, hw₁_eq, List.append_assoc]
        rfl

/-- **The representation holds after every sequence of calls**, and no call fails. -/
theorem run_represents {windowSize : ℕ} (hpos : 0 < windowSize) (sampleRateSec : Option ℚ)
    (initialPrices : List α) (windowSeconds : Option ℚ) (calls : List (WindowCall α)) :
    ∃ w, run windowSize sampleRateSec initialPrices windowSeconds calls = some w ∧
      Represents w := by
  obtain ⟨w, hcreate, hw⟩ :=
    create_represents hpos sampleRateSec initialPrices windowSeconds
  obtain ⟨w', hcalls, hw'⟩ := foldlM_keeps (fun _ c h => h.call c) calls hw
  refine ⟨w', ?_, hw'⟩
  rw [run, hcreate]
  exact hcalls

/-- Prices that come in ascending order and fit the window are its sorted prices. -/
theorem run_sorted {windowSize : ℕ} (hpos : 0 < windowSize) {prices : List α}
    (hlength : prices.length ≤ windowSize) (hsorted : prices.Pairwise (· ≤ ·)) :
    ∃ w, run windowSize none prices none [] = some w ∧ Represents w ∧
      w.sortedPrices = prices := by
  have hempty : Represents (empty windowSize none none : PriceWindow α) :=
    represents_empty hpos none none
  have hroom : (empty windowSize none none : PriceWindow α).prices.length + prices.length ≤
      windowSize := by
    show ([] : List α).length + prices.length ≤ windowSize
    rw [List.length_nil, Nat.zero_add]
    exact hlength
  obtain ⟨w, hrun, h, hprices⟩ := foldlM_prices hempty hroom
  refine ⟨w, ?_, h, ?_⟩
  · rw [run, create, lastN_of_le hlength, hrun]
    rfl
  · have hperm := h.perm
    rw [hprices] at hperm
    exact hperm.eq_of_pairwise (fun x y _ _ => le_antisymm) h.sorted hsorted

end PriceWindow

end TradingFleet.Prices
