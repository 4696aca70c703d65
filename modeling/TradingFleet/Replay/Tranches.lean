import Mathlib.Algebra.Order.Floor.Semiring
import TradingFleet.Replay.Execution

set_option autoImplicit false

/-! # The tranches of one order

An order is filled by calls of `split_order_fill` until one reports it complete. After `k` calls
that do not, the order has the fraction `1 - k * ratio` of its quantity and of its amount left
(`Portion`), although each call scales the amount by what is left of the quantity. A negative
amount is the exception: what is left of it is cut off at 0.
-/

namespace TradingFleet.Replay

open TradingFleet.Lifecycle

/-- The calls until the order is complete, at most `fuel` of them. -/
def splitUntilComplete (hasAmount : Bool) (ratio : ℚ) : ℕ → OrderDict → List Split
  | 0, _ => []
  | fuel + 1, o =>
      match splitOrderFill o hasAmount ratio false with
      | none => []
      | some f => if f.complete then [f] else f :: splitUntilComplete hasAmount ratio fuel f.rest

section Calls

variable {hasAmount : Bool} {ratio Q A : ℚ} {k : ℕ} {o : OrderDict}

theorem splitUntilComplete_length (fuel : ℕ) (o : OrderDict) :
    (splitUntilComplete hasAmount ratio fuel o).length ≤ fuel := by
  induction fuel generalizing o with
  | zero => simp [splitUntilComplete]
  | succ fuel ih =>
      rw [splitUntilComplete]
      cases splitOrderFill o hasAmount ratio false with
      | none => simp
      | some f =>
          dsimp only
          split
          · simp
          · have := ih f.rest
            rw [List.length_cons]
            omega

/-! ## One call -/

/-- What is left of an order of quantity `Q` and amount `A` after `k` tranches. -/
structure Portion (hasAmount : Bool) (ratio Q A : ℚ) (k : ℕ) (o : OrderDict) : Prop where
  left : k * ratio < 1
  quantity : o.quantity = Q * (1 - k * ratio)
  amount : hasAmount = true → 0 ≤ A → o.amount = A * (1 - k * ratio)
  original : o.original.getD o.quantity = Q
  filled : o.hadFill = decide (k ≠ 0)

theorem portion_fresh (side : Side) (kind : String) (Q A : ℚ) :
    Portion hasAmount ratio Q A 0 (freshOrder side kind Q A) := by
  constructor
  · simp
  · simp [freshOrder]
  · intro _ _
    simp [freshOrder]
  · rfl
  · rfl

theorem Portion.quantity_pos (hQ : 0 < Q) (h : Portion hasAmount ratio Q A k o) :
    0 < o.quantity := by
  rw [h.quantity]
  have := h.left
  exact mul_pos hQ (by linarith)

/-- What a call reports of an order with `k` tranches. -/
structure Reports (hasAmount : Bool) (ratio Q A : ℚ) (k : ℕ) (o : OrderDict) (f : Split) :
    Prop where
  kind : f.fill.kind = if k ≠ 0 ∧ o.side = .buy then laterKind o.kind else o.kind
  amount : hasAmount = true → 0 ≤ A → f.fill.amount = A * (f.chunk / Q)
  next : f.complete = true ∧ f.chunk = o.quantity ∨
    f.complete = false ∧ f.chunk = ratio * Q ∧ Portion hasAmount ratio Q A (k + 1) f.rest ∧
      f.rest.side = o.side ∧ f.rest.kind = o.kind

/-- **One call**: the last tranche, or one more of `ratio * Q`. -/
theorem Portion.call (hQ : 0 < Q) (h : Portion hasAmount ratio Q A k o) :
    ∃ f, splitOrderFill o hasAmount ratio false = some f ∧
      Reports hasAmount ratio Q A k o f := by
  have hpos := h.quantity_pos hQ
  have hne : o.quantity ≠ 0 := hpos.ne'
  unfold splitOrderFill
  rw [if_neg (not_le.mpr hpos)]
  dsimp only
  rw [h.original, if_neg (show ¬ (false = true) by decide)]
  set part := min o.quantity (Q * ratio) with hpart
  have hpart_le : part ≤ o.quantity := min_le_left _ _
  -- the amount of a tranche is its share of the original amount
  have hshare : ∀ x : ℚ, hasAmount = true → 0 ≤ A →
      o.amount * (x / o.quantity) = A * (x / Q) := by
    intro x hkey hA
    have hleft : (1 : ℚ) - k * ratio ≠ 0 := by
      have := h.left
      exact ne_of_gt (by linarith)
    rw [h.amount hkey hA, h.quantity]
    field_simp
  by_cases hsmall : o.quantity - part ≤ remnant Q
  · -- the tolerance leaves nothing behind
    refine ⟨_, rfl, ?_, ?_, Or.inl ⟨?_, ?_⟩⟩
    · simp only [h.filled, decide_eq_true_eq]
    · intro hkey hA
      dsimp only
      rw [if_pos hkey]
      exact hshare _ hkey hA
    · dsimp only
      rw [if_pos hsmall, sub_self, max_self]
      exact decide_eq_true (remnant_pos Q).le
    · dsimp only
      rw [if_pos hsmall]
  · have hremnant := remnant_pos Q
    have hless : part < o.quantity := by linarith
    have hchunk : part = ratio * Q := by
      rcases min_choice o.quantity (Q * ratio) with hmin | hmin
      · exact absurd (hpart.trans hmin) hless.ne
      · rw [hpart, hmin, mul_comm]
    have hrest : max 0 (o.quantity - part) = o.quantity - part :=
      max_eq_right (by linarith)
    have hquantity : o.quantity - part = Q * (1 - (k + 1 : ℕ) * ratio) := by
      rw [h.quantity, hchunk]
      push_cast
      ring
    refine ⟨_, rfl, ?_, ?_, Or.inr ⟨?_, ?_, ?_, rfl, rfl⟩⟩
    · simp only [h.filled, decide_eq_true_eq]
    · intro hkey hA
      dsimp only
      rw [if_pos hkey]
      exact hshare _ hkey hA
    · dsimp only
      rw [if_neg hsmall, hrest]
      exact decide_eq_false hsmall
    · dsimp only
      rw [if_neg hsmall, hchunk]
    · dsimp only
      rw [if_neg hsmall, hrest]
      have hleft : ((k + 1 : ℕ) : ℚ) * ratio < 1 := by
        have hpos' : 0 < Q * (1 - (k + 1 : ℕ) * ratio) := by
          rw [← hquantity]
          linarith
        have := (mul_pos_iff_of_pos_left hQ).mp hpos'
        linarith
      constructor
      · exact hleft
      · exact hquantity
      · intro hkey hA
        have hamount : o.amount - o.amount * (part / o.quantity) =
            A * (1 - (k + 1 : ℕ) * ratio) := by
          rw [hshare part hkey hA, h.amount hkey hA, hchunk, mul_div_cancel_right₀ _ hQ.ne']
          push_cast
          ring
        dsimp only
        rw [if_pos hkey, if_pos hkey, hamount]
        exact max_eq_right (mul_nonneg hA (by linarith))
      · rfl
      · simp

/-! ## All calls -/

/-- What the calls report together, from an order with `k` tranches on. -/
structure Conserves (hasAmount : Bool) (ratio Q A : ℚ) (k : ℕ) (o : OrderDict)
    (fills : List Split) (last : Split) : Prop where
  complete : last.complete = true
  tranches : ∀ f ∈ fills, f.complete = false ∧ f.chunk = ratio * Q
  chunks : ((fills ++ [last]).map Split.chunk).sum = o.quantity
  amounts : hasAmount = true → 0 ≤ A →
    ((fills ++ [last]).map (fun f => f.fill.amount)).sum = A * (o.quantity / Q)
  kinds : ∀ i f, (fills ++ [last])[i]? = some f →
    f.fill.kind = if k + i ≠ 0 ∧ o.side = .buy then laterKind o.kind else o.kind

theorem Reports.conserves {f : Split} (hf : Reports hasAmount ratio Q A k o f)
    (hcomplete : f.complete = true) (hchunk : f.chunk = o.quantity) :
    Conserves hasAmount ratio Q A k o [] f := by
  constructor
  · exact hcomplete
  · intro f' hf'
    simp at hf'
  · simp [hchunk]
  · intro hkey hA
    rw [← hchunk]
    simp [hf.amount hkey hA]
  · intro i f' hf'
    cases i with
    | zero =>
        rw [List.nil_append, List.getElem?_cons_zero, Option.some.injEq] at hf'
        rw [← hf', hf.kind]
        simp
    | succ i => simp at hf'

/-- A tranche in front of the others. -/
theorem Conserves.cons {f last : Split} {fills : List Split}
    (h : Portion hasAmount ratio Q A k o) (hf : Reports hasAmount ratio Q A k o f)
    (hcomplete : f.complete = false) (hchunk : f.chunk = ratio * Q)
    (hrest : Portion hasAmount ratio Q A (k + 1) f.rest) (hside : f.rest.side = o.side)
    (hkind : f.rest.kind = o.kind)
    (hlater : Conserves hasAmount ratio Q A (k + 1) f.rest fills last) :
    Conserves hasAmount ratio Q A k o (f :: fills) last := by
  have hquantity : f.chunk + f.rest.quantity = o.quantity := by
    rw [hchunk, hrest.quantity, h.quantity]
    push_cast
    ring
  constructor
  · exact hlater.complete
  · intro f' hf'
    rcases List.mem_cons.mp hf' with rfl | hmem
    · exact ⟨hcomplete, hchunk⟩
    · exact hlater.tranches f' hmem
  · rw [List.cons_append, List.map_cons, List.sum_cons, hlater.chunks, hquantity]
  · intro hkey hA
    rw [List.cons_append, List.map_cons, List.sum_cons, hlater.amounts hkey hA,
      hf.amount hkey hA, ← mul_add, ← add_div, hquantity]
  · intro i f' hf'
    cases i with
    | zero =>
        rw [List.cons_append, List.getElem?_cons_zero, Option.some.injEq] at hf'
        rw [← hf', hf.kind, Nat.add_zero]
    | succ i =>
        rw [List.cons_append, List.getElem?_cons_succ] at hf'
        rw [hlater.kinds i f' hf', hside, hkind, show k + 1 + i = k + (i + 1) by omega]

/-- **All calls**: with `fuel` calls of `ratio` each, what is left is taken. -/
theorem Portion.calls (hQ : 0 < Q) {fuel : ℕ}
    (hfuel : 1 ≤ (k + fuel : ℕ) * ratio) (h : Portion hasAmount ratio Q A k o) :
    ∃ fills last, splitUntilComplete hasAmount ratio fuel o = fills ++ [last] ∧
      Conserves hasAmount ratio Q A k o fills last := by
  induction fuel generalizing k o with
  | zero =>
      rw [Nat.add_zero] at hfuel
      exact absurd h.left (not_lt.mpr hfuel)
  | succ fuel ih =>
      obtain ⟨f, hcall, hf⟩ := h.call hQ
      rw [splitUntilComplete, hcall]
      dsimp only
      rcases hf.next with ⟨hcomplete, hchunk⟩ | ⟨hcomplete, hchunk, hrest, hside, hkind⟩
      · rw [if_pos hcomplete]
        exact ⟨[], f, rfl, hf.conserves hcomplete hchunk⟩
      · have hfuel' : 1 ≤ ((k + 1 + fuel : ℕ) : ℚ) * ratio := by
          rw [show k + 1 + fuel = k + (fuel + 1) by omega]
          exact hfuel
        obtain ⟨fills, last, hlist, hlater⟩ := ih hfuel' hrest
        rw [if_neg (by simp [hcomplete]), hlist]
        exact ⟨f :: fills, last, rfl,
          hlater.cons h hf hcomplete hchunk hrest hside hkind⟩

end Calls

theorem laterKind_ne {kind : String} (h : kind = "DCA" ∨ kind = "TREND_ENTRY") :
    laterKind kind ≠ kind := by
  rcases h with rfl | rfl <;> decide

/-- **Replay tranches conserve the order.** At most `⌈1 / ratio⌉` calls are made until the order
is complete. The chunks sum to its quantity, and the amounts to its amount where that is not
negative; every chunk but the last is `ratio` times the quantity; of a BUY, exactly the first
fill keeps the kind `DCA` or `TREND_ENTRY`. -/
theorem splitOrderFill_conserves (side : Side) (kind : String) {quantity : ℚ} (amount : ℚ)
    (hquantity : 0 < quantity) (hasAmount : Bool) {ratio : ℚ} (hratio : 0 < ratio ∧ ratio ≤ 1) :
    ∃ fills last,
      splitUntilComplete hasAmount ratio ⌈1 / ratio⌉₊ (freshOrder side kind quantity amount) =
        fills ++ [last] ∧
      fills.length + 1 ≤ ⌈1 / ratio⌉₊ ∧ last.complete = true ∧
      (∀ f ∈ fills, f.complete = false ∧ f.chunk = ratio * quantity) ∧
      ((fills ++ [last]).map Split.chunk).sum = quantity ∧
      (hasAmount = true → 0 ≤ amount →
        ((fills ++ [last]).map (fun f => f.fill.amount)).sum = amount) ∧
      (side = .buy → kind = "DCA" ∨ kind = "TREND_ENTRY" →
        ∀ i f, (fills ++ [last])[i]? = some f → (f.fill.kind = kind ↔ i = 0)) := by
  -- so many tranches are at least the whole order
  have hfuel : 1 ≤ ((0 + ⌈1 / ratio⌉₊ : ℕ) : ℚ) * ratio := by
    rw [Nat.zero_add, ← div_le_iff₀ hratio.1]
    exact Nat.le_ceil _
  obtain ⟨fills, last, hlist, h⟩ :=
    (portion_fresh side kind quantity amount).calls hquantity hfuel
  refine ⟨fills, last, hlist, ?_, h.complete, h.tranches, h.chunks, ?_, ?_⟩
  · have hlength : (fills ++ [last]).length ≤ ⌈1 / ratio⌉₊ := by
      rw [← hlist]
      exact splitUntilComplete_length _ _
    rw [List.length_append, List.length_singleton] at hlength
    exact hlength
  · intro hkey hamount
    rw [h.amounts hkey hamount]
    show amount * (quantity / quantity) = amount
    -- the amount is shared by the quantity that was there at first
    rw [div_self hquantity.ne', mul_one]
  · rintro rfl hkind i f hf
    have hkinds := h.kinds i f hf
    rw [Nat.zero_add] at hkinds
    rw [hkinds]
    by_cases hi : i = 0
    · simp [hi, freshOrder]
    · rw [if_pos ⟨hi, rfl⟩]
      exact iff_of_false (laterKind_ne hkind) hi

/-- A BUY of 10 units for 100, in tranches of two fifths. -/
theorem two_fifths_conserve :
    ∃ fills last,
      splitUntilComplete true (2 / 5) ⌈1 / (2 / 5 : ℚ)⌉₊ (freshOrder .buy "DCA" 10 100) =
        fills ++ [last] ∧
      ((fills ++ [last]).map (fun f => f.fill.amount)).sum = 100 := by
  have hquantity : (0 : ℚ) < 10 := by norm_num
  obtain ⟨fills, last, hlist, -, -, -, -, hamounts, -⟩ :=
    splitOrderFill_conserves .buy "DCA" 100 hquantity true (by norm_num : (0 : ℚ) < 2 / 5 ∧ _)
  exact ⟨fills, last, hlist, hamounts rfl (by norm_num)⟩

/-- Of an amount of -100, the first tranche takes -40 and the others nothing. -/
theorem negative_amount_is_cut :
    ((splitUntilComplete true (2 / 5) 3 (freshOrder .buy "DCA" 10 (-100))).map
      (fun f => f.fill.amount)) = [-40, 0, 0] := by
  decide +kernel

end TradingFleet.Replay
