import TradingFleet.Hyperliquid.Tick

set_option autoImplicit false

/-! # The delta-neutral strategy: what an order does

One lemma says what a call of an order helper can leave (`submit_ends`): nothing at all, or one
more order, with the fields that decide later branches as they were. The frames of the actions
are read off it.
-/

namespace TradingFleet.Hyperliquid

open TradingFleet.Hoare

/-- What decides the branches of later ticks. -/
structure Control where
  status : Status
  targetSz : ℚ
  openedTs : Option ℚ
  orphanCount : Nat
  goneCount : Nat
  driftCount : Nat

def State.control (s : State) : Control where
  status := s.status
  targetSz := s.targetSz
  openedTs := s.openedTs
  orphanCount := s.orphanCount
  goneCount := s.goneCount
  driftCount := s.driftCount

/-- The net delta when every order of the tick is filled in full. -/
def netDelta (D : DeltaNeutral) (L : Reading) (m : Machine) : ℚ :=
  if D.dryRun then m.bot.spotQty + m.bot.perpSzi
  else L.spotQty + L.perpSzi + (m.orders.map Order.change).sum

/-- The rounded size is positive and not dust. -/
def Sent (D : DeltaNeutral) (sz px : ℚ) : Prop := 0 < D.round sz ∧ minOrderUsd ≤ D.round sz * px

instance (D : DeltaNeutral) (sz px : ℚ) : Decidable (Sent D sz px) :=
  inferInstanceAs (Decidable (_ ∧ _))

/-- The state after one more order. -/
structure Booked (D : DeltaNeutral) (o : Order) (m m' : Machine) : Prop where
  orders : m'.orders = m.orders ++ [o]
  control : m'.bot.control = m.bot.control
  delta : ∀ L, netDelta D L m' = netDelta D L m + o.change

section Submit

variable (D : DeltaNeutral) (V : Venue) (cause : Cause) (leg : Leg) (buys reduceOnly : Bool)
  (sz px : ℚ)

/-- The order a helper sends. -/
def orderFor : Order :=
  ⟨cause, leg, buys, D.round sz, px * (if buys then 1001 / 1000 else 999 / 1000), reduceOnly⟩

theorem record_control (ok : Bool) (m : Machine) :
    ∃ s, record D ok sz px m = .ok () ⟨s, m.orders⟩ ∧ s.control = m.bot.control ∧
      s.spotQty = m.bot.spotQty ∧ s.perpSzi = m.bot.perpSzi := by
  cases ok with
  | true => exact ⟨_, rfl, rfl, rfl, rfl⟩
  | false => exact ⟨_, rfl, rfl, rfl, rfl⟩

theorem book_control (s : State) (o : Order) : (s.book o).control = s.control := by
  unfold State.book
  cases o.leg with
  | spot => rfl
  | perp => rfl

theorem book_delta (s : State) (o : Order) :
    (s.book o).spotQty + (s.book o).perpSzi = s.spotQty + s.perpSzi + o.change := by
  unfold State.book
  cases o.leg with
  | spot =>
      show s.spotQty + o.change + s.perpSzi = _
      ring
  | perp =>
      show s.spotQty + (s.perpSzi + o.change) = _
      ring

/-- **What a call of an order helper can leave**: it sends nothing, it sends its order, or the
client raises with the order sent. -/
theorem submit_ends (m : Machine) :
    Post (fun _ m' => ¬ Sent D sz px ∧ m' = m ∨
        Sent D sz px ∧ Booked D (orderFor D cause leg buys reduceOnly sz px) m m')
      (fun e m' => V.answer m.orders.length = .raised e ∧
        Booked D (orderFor D cause leg buys reduceOnly sz px) m m')
      (submit D V cause leg buys reduceOnly sz px m) := by
  have hsplit : (D.round sz ≤ 0 ∨ D.round sz * px < minOrderUsd) ↔ ¬ Sent D sz px := by
    unfold Sent
    rw [not_and_or, not_lt, not_le]
  unfold submit
  dsimp only
  by_cases hsent : Sent D sz px
  · rw [if_neg (fun h => hsplit.mp h hsent)]
    show Post _ _ ((if D.dryRun = true then _ else _ : DnM Unit)
      ⟨m.bot, m.orders ++ [orderFor D cause leg buys reduceOnly sz px]⟩)
    cases hdry : D.dryRun with
    | true =>
        -- on paper the position is booked, live it is the venue that has it
        obtain ⟨s, hrun, hcontrol, hspot, hperp⟩ := record_control D (D.round sz) px true
          ⟨m.bot.book (orderFor D cause leg buys reduceOnly sz px),
            m.orders ++ [orderFor D cause leg buys reduceOnly sz px]⟩
        show Post _ _ (record D true (D.round sz) px
          ⟨m.bot.book (orderFor D cause leg buys reduceOnly sz px), _⟩)
        rw [hrun]
        refine Or.inr ⟨hsent, rfl, hcontrol.trans (book_control _ _), fun L => ?_⟩
        unfold netDelta
        rw [hdry]
        show s.spotQty + s.perpSzi = m.bot.spotQty + m.bot.perpSzi + _
        rw [hspot, hperp]
        exact book_delta _ _
    | false =>
        have hdelta : ∀ (s : State) L,
            netDelta D L ⟨s, m.orders ++ [orderFor D cause leg buys reduceOnly sz px]⟩ =
              netDelta D L m + (orderFor D cause leg buys reduceOnly sz px).change := by
          intro s L
          unfold netDelta
          rw [hdry]
          simp only [Bool.false_eq_true, if_false, List.map_append, List.map_cons, List.map_nil,
            List.sum_append, List.sum_cons, List.sum_nil]
          ring
        rw [if_neg Bool.false_ne_true]
        cases hanswer : V.answer m.orders.length with
        | raised e => exact ⟨rfl, rfl, rfl, hdelta _⟩
        | answered ok =>
            obtain ⟨s, hrun, hcontrol, -, -⟩ := record_control D (D.round sz) px ok
              ⟨m.bot, m.orders ++ [orderFor D cause leg buys reduceOnly sz px]⟩
            show Post _ _ (record D ok (D.round sz) px _)
            rw [hrun]
            exact Or.inr ⟨hsent, rfl, hcontrol, hdelta s⟩
  · rw [if_pos (hsplit.mpr hsent)]
    exact Or.inl ⟨hsent, rfl⟩

variable {D V cause leg buys reduceOnly sz px}

theorem submit_triple {P Q : Machine → Prop} {E : String → Machine → Prop}
    (hskip : ¬ Sent D sz px → ∀ m, P m → Q m)
    (hsend : Sent D sz px → ∀ m m', P m →
      Booked D (orderFor D cause leg buys reduceOnly sz px) m m' → Q m')
    (hraise : ∀ e m m', V.answer m.orders.length = .raised e → P m →
      Booked D (orderFor D cause leg buys reduceOnly sz px) m m' → E e m') :
    Triple P (submit D V cause leg buys reduceOnly sz px) (fun _ => Q) E := by
  intro m hm
  have hends := submit_ends D V cause leg buys reduceOnly sz px m
  cases hrun : submit D V cause leg buys reduceOnly sz px m with
  | ok a m' =>
      rw [hrun] at hends
      rcases hends with ⟨hsent, rfl⟩ | ⟨hsent, hbooked⟩
      · exact hskip hsent _ hm
      · exact hsend hsent m m' hm hbooked
  | error e m' =>
      rw [hrun] at hends
      exact hraise e m m' hends.1 hm hends.2

/-- What one more order keeps is kept, also when the client raises. -/
theorem submit_keeps {I : Machine → Prop} (h : ∀ m m', I m →
      Booked D (orderFor D cause leg buys reduceOnly sz px) m m' → I m') :
    Keeps I (submit D V cause leg buys reduceOnly sz px) :=
  submit_triple (fun _ _ hm => hm) (fun _ => h) (fun _ m m' _ => h m m')

/-- Every order so far and the new one. -/
theorem Booked.forall_orders {o : Order} {m m' : Machine} (h : Booked D o m m') {P : Order → Prop}
    (hm : ∀ x ∈ m.orders, P x) (ho : P o) : ∀ x ∈ m'.orders, P x := by
  intro x hx
  rw [h.orders] at hx
  rcases List.mem_append.mp hx with hold | hnew
  · exact hm x hold
  · rw [List.mem_singleton.mp hnew]
    exact ho

end Submit

end TradingFleet.Hyperliquid
