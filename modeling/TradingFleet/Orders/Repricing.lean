import TradingFleet.Basic.Runs
import TradingFleet.Orders.Pricing
import TradingFleet.Outbox.Record
import TradingFleet.SpotDca.Types

set_option autoImplicit false

/-! # Repricing of open orders

`monitororder.py` cancels an open order near the market and replaces it closer to the market. So
that a chain of replacements does not follow the market anywhere, it keeps for each order ID the
price of the order the chain began with, and moves this price to the ID of the replacement. That
happens in the pass that gets the replacement accepted. A replacement that the retry worker gets
accepted later is under an ID the map has not seen, and starts over from its own price.

`Chains` records beside the map the chain of every order. `repricing_anchored` is the promise for
the runs in which no pass comes to a replacement that the map does not know (`Known`).
-/

namespace TradingFleet.Orders

open Pair (Side)
open TradingFleet.Runs
open TradingFleet.SpotDca (areClose)

/-! ## The map of initial prices -/

def maxProc : ℚ := 77 / 100

def maxTrackedOrderIds : Nat := 10000

/-- `initial_sell_prices` or `initial_buy_prices`, the oldest entry first. -/
abbrev PriceCache := List (Nat × ℚ)

/-- `cache.pop(order_id, None)`. -/
def popPrice (cache : PriceCache) (orderId : Nat) : PriceCache :=
  cache.filter (fun e => e.1 ≠ orderId)

/-- `_remember_initial_price`. -/
def rememberInitialPrice (cache : PriceCache) (orderId : Nat) (price : ℚ) : PriceCache :=
  let moved := popPrice cache orderId ++ [(orderId, price)]
  moved.drop (moved.length - maxTrackedOrderIds)

theorem mem_popPrice {cache : PriceCache} {orderId : Nat} {e : Nat × ℚ} :
    e ∈ popPrice cache orderId ↔ e ∈ cache ∧ e.1 ≠ orderId := by
  simp [popPrice]

/-- What is tracked after an order is remembered: it, or what was tracked under another ID. -/
theorem mem_rememberInitialPrice {cache : PriceCache} {orderId : Nat} {price : ℚ} {e : Nat × ℚ}
    (h : e ∈ rememberInitialPrice cache orderId price) :
    (e ∈ cache ∧ e.1 ≠ orderId) ∨ e = (orderId, price) := by
  have hmoved : e ∈ popPrice cache orderId ++ [(orderId, price)] := List.mem_of_mem_drop h
  rcases List.mem_append.mp hmoved with hold | hnew
  · exact Or.inl (mem_popPrice.mp hold)
  · exact Or.inr (List.mem_singleton.mp hnew)

/-! ## What the collaborators answer -/

/-- An order of `get_open_orders`. Its price does not change while it is open. -/
structure OpenOrder where
  orderId : Nat
  quantity : ℚ
  remainingQty : Option ℚ

/-- `mkt.order_status` of the order after its cancellation was requested. -/
structure FinalStatus where
  venueStatus : String
  terminal : Bool
  filledQty : ℚ

/-- The answer of `activate_claimed_replacement`. -/
inductive Activation where
  | activated
  | resolved
  | refused
deriving DecidableEq

/-- What `mkt.place` returns: an order with its ID, or none and the outcome. -/
inductive Placed where
  | order (orderId : Nat)
  | nothing (state reason : Option String)

/-- What is answered while one order is processed. A call that raises answers `none`. -/
structure Replies where
  persisted : Bool
  claimed : Bool
  hasClientOrderId : Bool
  info : Option SymbolInfo
  latestPrice : Option ℚ
  permit : Bool
  status : Option FinalStatus
  activation : ℚ → Activation
  begun : Bool
  place : ℚ → ℚ → Placed

/-- What one run is about: the side, the venue's price of each order ID, and the configured
minimum notional. -/
structure Repricing where
  side : Side
  priceOf : Nat → ℚ
  businessMinimum : Raw

/-! ## The chains -/

/-- A replacement, from the moment the cancellation of the order it replaces is requested. -/
structure Replacement where
  orderId : Nat
  currentPrice : ℚ
  price : ℚ
  quantity : ℚ
deriving DecidableEq

/-- A replacement with the first order of its chain. -/
structure Made extends Replacement where
  first : Nat
deriving DecidableEq

/-- The map, the orders whose intent the outbox still holds, the first order of each chain, and
the replacements so far. The map of the source is `initialPrices`. -/
structure Chains where
  initialPrices : PriceCache := []
  outbox : List Nat := []
  origin : List (Nat × Nat) := []
  made : List Made := []

namespace Chains

/-- The first order of the chain an order belongs to. -/
def first (s : Chains) (orderId : Nat) : Nat := (s.origin.lookup orderId).getD orderId

def drop (s : Chains) (orderId : Nat) : Chains :=
  { s with initialPrices := popPrice s.initialPrices orderId }

/-- The intent stays in the outbox for the worker. -/
def leave (s : Chains) (orderId : Nat) : Chains := { s with outbox := orderId :: s.outbox }

/-- `newId` replaces `orderId`. -/
def replaced (s : Chains) (orderId newId : Nat) : Chains :=
  { s with outbox := newId :: s.outbox, origin := (newId, s.first orderId) :: s.origin }

/-- The order is remembered at its own price unless it is tracked. -/
def track (s : Chains) (orderId : Nat) (price : ℚ) : Chains :=
  match s.initialPrices.lookup orderId with
  | some _ => s
  | none => { s with initialPrices := rememberInitialPrice s.initialPrices orderId price }

/-- A replacement is accepted in the pass: the anchor moves to its ID. -/
def accepted (s : Chains) (orderId newId : Nat) : Chains :=
  match s.initialPrices.lookup orderId with
  | none => s.replaced orderId newId
  | some anchor =>
      { s.replaced orderId newId with
        initialPrices := rememberInitialPrice (popPrice s.initialPrices orderId) newId anchor }

def record (s : Chains) (r : Replacement) : Chains :=
  { s with made := { r with first := s.first r.orderId } :: s.made }

end Chains

/-! ## One pass -/

/-- `new_price`. -/
def replacementPrice (side : Side) (currentPrice : ℚ) : ℚ :=
  match side with
  | .sell => currentPrice * (1001 / 1000) + 1
  | .buy => currentPrice * (999 / 1000) - 1

/-- What `BinanceProvider.order_filter_refusal` asks of the filters. -/
def filterRequest (M : Repricing) (price quantity latestPrice : ℚ) : Request where
  quantity := .number quantity
  price := .number (orderCandidatePrice M.side price latestPrice)
  businessMinNotional := M.businessMinimum

/-- The filters pass the replacement. Without metadata or a price they are unavailable. -/
def filtersPass (M : Repricing) (x : Replies) (price quantity : ℚ) : Bool :=
  match BinanceOrderRules.fromSymbolInfo x.info, x.latestPrice with
  | .ok rules, some latestPrice =>
      match rules.normalize (filterRequest M price quantity latestPrice) with
      | .ok _ => true
      | .error _ => false
  | _, _ => false

/-- The replacement of an order that a pass goes on to persist. -/
def planned (M : Repricing) (currentPrice : ℚ) (s : Chains) (o : OpenOrder) : Option Replacement :=
  match s.initialPrices.lookup o.orderId with
  | none => none
  | some initialPrice =>
      if !areClose currentPrice (M.priceOf o.orderId) maxProc then none
      else if !areClose currentPrice initialPrice maxProc then none
      else
        let newPrice := replacementPrice M.side currentPrice
        let quantity := o.remainingQty.getD o.quantity
        if quantity ≤ 0 then none else some ⟨o.orderId, currentPrice, newPrice, quantity⟩

/-- `terminal_pre_submit_refusal`. -/
def terminalPreSubmitRefusal (state reason : Option String) : Bool :=
  let failureReason := Text.orElse (reason.getD "") "replacement_not_accepted"
  state = some "refused" &&
    (["execution_disabled", "trading_disabled"].contains failureReason ||
      Outbox.isTerminalFilterRefusal (some failureReason))

/-- What is left to do once the cancellation was requested. -/
def settle (s : Chains) (o : OpenOrder) (x : Replies) (newPrice : ℚ) : Chains :=
  match x.status with
  | none => s.leave o.orderId
  | some status =>
      if ["CANCELED", "CANCELLED"].contains (Text.upper status.venueStatus) then
        let quantity := max 0 (o.quantity - max 0 status.filledQty)
        match x.activation quantity with
        | .resolved => s.drop o.orderId
        | .refused => s.leave o.orderId
        | .activated =>
            if !x.begun then s.leave o.orderId
            else
              match x.place newPrice quantity with
              | .order newId => s.accepted o.orderId newId
              | .nothing state reason =>
                  if terminalPreSubmitRefusal state reason then s.drop o.orderId
                  else s.leave o.orderId
      else if status.terminal then s.drop o.orderId
      else s.leave o.orderId

/-- One order of a pass. -/
def visit (M : Repricing) (currentPrice : ℚ) (s : Chains) (v : OpenOrder × Replies) : Chains :=
  if M.priceOf v.1.orderId ≤ 0 then s
  else
    let s := s.track v.1.orderId (M.priceOf v.1.orderId)
    match planned M currentPrice s v.1 with
    | none => s
    | some r =>
        if !v.2.persisted then s
        else if !v.2.claimed then s.leave v.1.orderId
        else if !v.2.hasClientOrderId then s
        else if !filtersPass M v.2 r.price r.quantity || !v.2.permit then s
        else settle (s.record r) v.1 v.2 r.price

/-- `monitor_open_orders_by_type`. -/
def monitorOpenOrdersByType (M : Repricing) (s : Chains) (orders : List (OpenOrder × Replies))
    (currentPrice : Option ℚ) : Chains :=
  match orders, currentPrice with
  | [], _ => s
  | _, none => s
  | orders, some price => orders.foldl (visit M price) s

/-- What happens to the orders of one side: a pass, or the worker gets an order accepted in place
of one whose intent the outbox holds. -/
inductive Event where
  | pass (orders : List (OpenOrder × Replies)) (currentPrice : Option ℚ)
  | retried (orderId newId : Nat)

def advance (M : Repricing) (s : Chains) : Event → Chains
  | .pass orders currentPrice => monitorOpenOrdersByType M s orders currentPrice
  | .retried orderId newId =>
      if s.outbox.contains orderId then s.replaced orderId newId else s

/-! ## Prices -/

/-- A price close to a positive one is positive. -/
theorem pos_of_areClose {x p tol : ℚ} (htol : tol < 200) (hp : 0 < p)
    (h : areClose x p tol = true) : 0 < x := by
  by_contra hx
  have hneg : x ≤ 0 := not_lt.mp hx
  have hdiff : SpotDca.diffPercent x p ≤ tol := of_decide_eq_true h
  have hnum : |x - p| = p - x := by rw [abs_of_nonpos (by linarith)]; ring
  have hden : |x| + |p| = p - x := by rw [abs_of_nonpos hneg, abs_of_pos hp]; ring
  have hpos : 0 < p - x := by linarith
  -- on two sides of zero the difference is the whole of the sum
  have heq : SpotDca.diffPercent x p = 200 := by
    unfold SpotDca.diffPercent
    rw [if_neg (fun h0 => hp.ne' h0.2), hnum, hden]
    field_simp
    norm_num
  linarith

/-- What the filters pass is a positive price. -/
theorem pos_of_filtersPass {M : Repricing} {x : Replies} {price quantity : ℚ}
    (h : filtersPass M x price quantity = true) (hside : M.side = .buy) : 0 < price := by
  unfold filtersPass at h
  split at h
  · rename_i rules latestPrice hrules hlatest
    split at h
    · rename_i answer hanswer
      have hfits := BinanceOrderRules.normalize_ok_iff.mp hanswer
      obtain ⟨y, -, ⟨v, hv, hpos, -⟩, -⟩ := hfits.limit rfl
      have hcandidate : v = min price latestPrice := by
        simpa [filterRequest, Raw.finite, orderCandidatePrice, hside] using hv.symm
      rw [hcandidate] at hpos
      exact (lt_min_iff.mp hpos).1
    · cases h
  · cases h

theorem replacementPrice_pos {M : Repricing} {x : Replies} {currentPrice quantity : ℚ}
    (hcurrent : 0 < currentPrice)
    (h : filtersPass M x (replacementPrice M.side currentPrice) quantity = true) :
    0 < replacementPrice M.side currentPrice := by
  cases hside : M.side with
  | sell =>
      have : 0 < currentPrice * (1001 / 1000) := by positivity
      simp only [replacementPrice]
      linarith
  | buy =>
      rw [hside] at h
      exact pos_of_filtersPass h hside

/-! ## The anchor -/

/-- A replacement of positive price, made near the price of the first order of its chain. -/
def Made.Anchored (M : Repricing) (r : Made) : Prop :=
  0 < r.price ∧ areClose r.currentPrice (M.priceOf r.first) maxProc = true

/-- Every order is tracked at the price of the first order of its chain. -/
structure Anchored (M : Repricing) (s : Chains) : Prop where
  prices : ∀ e ∈ s.initialPrices, e.2 = M.priceOf (s.first e.1)
  made : ∀ r ∈ s.made, r.Anchored M

/-- An order the map knows, or one that replaced none. -/
def Known (s : Chains) (v : OpenOrder × Replies) : Prop :=
  (s.initialPrices.lookup v.1.orderId).isSome = true ∨ s.first v.1.orderId = v.1.orderId

instance (s : Chains) (v : OpenOrder × Replies) : Decidable (Known s v) :=
  inferInstanceAs (Decidable (_ ∨ _))

namespace Anchored

variable {M : Repricing} {s : Chains} {orderId newId : Nat}

theorem lookup (h : Anchored M s) {p : ℚ} (hp : s.initialPrices.lookup orderId = some p) :
    p = M.priceOf (s.first orderId) := by
  obtain ⟨l₁, l₂, hl, -⟩ := List.lookup_eq_some_iff.mp hp
  exact h.prices (orderId, p) (by simp [hl])

theorem drop (h : Anchored M s) : Anchored M (s.drop orderId) where
  prices := fun e he => h.prices e (mem_popPrice.mp he).1
  made := h.made

theorem leave (h : Anchored M s) : Anchored M (s.leave orderId) where
  prices := h.prices
  made := h.made

theorem record (h : Anchored M s) {r : Replacement}
    (hr : Made.Anchored M { r with first := s.first r.orderId }) : Anchored M (s.record r) where
  prices := h.prices
  made := by
    intro x hx
    rcases List.mem_cons.mp hx with rfl | hold
    · exact hr
    · exact h.made x hold

/-- The map is replaced. -/
theorem withPrices {cache : PriceCache} (hprices : ∀ e ∈ cache, e.2 = M.priceOf (s.first e.1))
    (hmade : ∀ r ∈ s.made, r.Anchored M) : Anchored M { s with initialPrices := cache } :=
  ⟨hprices, hmade⟩

theorem track (h : Anchored M s)
    (hknown : (s.initialPrices.lookup orderId).isSome = true ∨ s.first orderId = orderId) :
    Anchored M (s.track orderId (M.priceOf orderId)) := by
  unfold Chains.track
  cases htracked : s.initialPrices.lookup orderId with
  | some p => exact h
  | none =>
      rw [htracked] at hknown
      have hfirst : s.first orderId = orderId := hknown.resolve_left (by simp)
      apply withPrices
      · intro e he
        rcases mem_rememberInitialPrice he with ⟨hold, -⟩ | hnew
        · exact h.prices e hold
        · rw [hnew, hfirst]
      · exact h.made

/-- Only the chain of the new order changes. -/
theorem first_replaced (e : Nat) :
    (s.replaced orderId newId).first e = if e = newId then s.first orderId else s.first e := by
  unfold Chains.first Chains.replaced
  by_cases he : e = newId
  · simp [he, Chains.first]
  · have hne : (e == newId) = false := by simpa using he
    simp [he, Chains.first, List.lookup_cons, hne]

/-- **The anchor goes from an order to its replacement.** -/
theorem accepted (h : Anchored M s) {p : ℚ} (hp : s.initialPrices.lookup orderId = some p) :
    Anchored M (s.accepted orderId newId) := by
  have hanchor : p = M.priceOf (s.first orderId) := h.lookup hp
  unfold Chains.accepted
  rw [hp]
  apply withPrices
  · intro e he
    rw [first_replaced]
    rcases mem_rememberInitialPrice he with ⟨hold, hne⟩ | hnew
    · rw [if_neg hne]
      exact h.prices e (mem_popPrice.mp hold).1
    · rw [hnew, if_pos rfl]
      exact hanchor
  · exact h.made

/-- However the replacement of a tracked order ends, what is tracked stays anchored. -/
theorem settle (h : Anchored M s) {o : OpenOrder} {p : ℚ}
    (hp : s.initialPrices.lookup o.orderId = some p) (x : Replies) (newPrice : ℚ) :
    Anchored M (settle s o x newPrice) := by
  unfold Orders.settle
  split
  · exact h.leave
  · split
    · extract_lets quantity
      split
      · exact h.drop
      · exact h.leave
      · split
        · exact h.leave
        · split
          · exact h.accepted hp
          · split
            · exact h.drop
            · exact h.leave
    · split
      · exact h.drop
      · exact h.leave

end Anchored

/-- What a pass plans is near the price the order is tracked at, and near the order itself. -/
theorem planned_spec {M : Repricing} {currentPrice : ℚ} {s : Chains} {o : OpenOrder}
    {r : Replacement} (h : planned M currentPrice s o = some r) :
    ∃ anchor, s.initialPrices.lookup o.orderId = some anchor ∧
      areClose currentPrice anchor maxProc = true ∧
      areClose currentPrice (M.priceOf o.orderId) maxProc = true ∧
      r.orderId = o.orderId ∧ r.currentPrice = currentPrice ∧
      r.price = replacementPrice M.side currentPrice := by
  unfold planned at h
  split at h
  · cases h
  · rename_i anchor hanchor
    split at h
    · cases h
    · rename_i hown
      split at h
      · cases h
      · rename_i hclose
        extract_lets newPrice quantity at h
        split at h
        · cases h
        · cases h
          refine ⟨anchor, hanchor, ?_, ?_, rfl, rfl, rfl⟩
          · simpa using hclose
          · simpa using hown

/-- **One order of a pass keeps the anchors**, if the map knows it or its chain begins with it. -/
theorem Anchored.visit {M : Repricing} {s : Chains} (h : Anchored M s) (currentPrice : ℚ)
    {v : OpenOrder × Replies} (hknown : Known s v) : Anchored M (visit M currentPrice s v) := by
  unfold Orders.visit
  split
  · exact h
  · rename_i hprice
    extract_lets s'
    have htracked : Anchored M s' := h.track hknown
    split
    · exact htracked
    · rename_i r hplanned
      obtain ⟨anchor, hanchor, hclose, hown, hid, hcurrent, hnew⟩ := planned_spec hplanned
      split
      · exact htracked
      · split
        · exact htracked.leave
        · split
          · exact htracked
          · split
            · exact htracked
            · rename_i hpass
              have hfilters : filtersPass M v.2 r.price r.quantity = true := by
                by_contra hno
                exact hpass (by simp [hno])
              have hcp : 0 < currentPrice :=
                pos_of_areClose (by norm_num [maxProc]) (not_le.mp hprice) hown
              have hpos : 0 < r.price := by
                rw [hnew] at hfilters ⊢
                exact replacementPrice_pos hcp hfilters
              have hmade : Made.Anchored M { r with first := s'.first r.orderId } := by
                constructor
                · exact hpos
                · show areClose r.currentPrice (M.priceOf (s'.first r.orderId)) maxProc = true
                  rw [hcurrent, hid, ← htracked.lookup hanchor]
                  exact hclose
              exact (htracked.record hmade).settle hanchor v.2 r.price

/-! ## Runs -/

/-- Every order a pass comes to is one that the map knows or that replaced none, and the order
that the worker gets accepted has an ID the map does not know. -/
def Event.Kept (M : Repricing) (s : Chains) : Event → Prop
  | .pass _ none => True
  | .pass orders (some price) => Along (visit M price) Known s orders
  | .retried orderId newId =>
      s.outbox.contains orderId = true → s.initialPrices.lookup newId = none

instance Event.Kept.decidable (M : Repricing) (s : Chains) : (e : Event) → Decidable (e.Kept M s)
  | .pass _ none => isTrue trivial
  | .pass _ (some _) => Along.decidable _ _
  | .retried orderId newId =>
      inferInstanceAs (Decidable
        (s.outbox.contains orderId = true → s.initialPrices.lookup newId = none))

/-- The worker's order belongs to the chain, and the map is left as it is. -/
theorem Anchored.retried {M : Repricing} {s : Chains} {orderId newId : Nat} (h : Anchored M s)
    (hnew : s.initialPrices.lookup newId = none) : Anchored M (s.replaced orderId newId) where
  prices := by
    intro e he
    have hne : e.1 ≠ newId := by
      intro heq
      have hmiss := List.lookup_eq_none_iff.mp hnew e he
      rw [heq] at hmiss
      simp at hmiss
    rw [first_replaced, if_neg hne]
    exact h.prices e he
  made := h.made

theorem Anchored.advance {M : Repricing} {s : Chains} {e : Event} (h : Anchored M s)
    (hkept : e.Kept M s) : Anchored M (advance M s e) := by
  cases e with
  | retried orderId newId =>
      show Anchored M (if s.outbox.contains orderId then s.replaced orderId newId else s)
      by_cases hheld : s.outbox.contains orderId = true
      · rw [if_pos hheld]
        exact h.retried (hkept hheld)
      · rw [if_neg hheld]
        exact h
  | pass orders currentPrice =>
      show Anchored M (monitorOpenOrdersByType M s orders currentPrice)
      unfold monitorOpenOrdersByType
      split
      · exact h
      · exact h
      · exact Along.invariant (fun s v hs hv => hs.visit _ hv) h hkept

/-- **Repricing stays anchored to the first order of its chain**, in every run in which each
order that a pass comes to is known to the map or begins its chain (`Known`). The worker may get
orders accepted, under IDs the map does not know; a pass that comes to one of them is not in such a
run. -/
theorem repricing_anchored (M : Repricing) (events : List Event)
    (h : Along (advance M) (fun s e => e.Kept M s) {} events) :
    ∀ r ∈ (events.foldl (advance M) {}).made,
      0 < r.price ∧ areClose r.currentPrice (M.priceOf r.first) maxProc = true := by
  have hstart : Anchored M {} := ⟨by simp, by simp⟩
  exact (Along.invariant (fun s e hs he => hs.advance he) hstart h).made

/-! ## A chain of three orders

The first order is priced 1000 and the others 1005; the market is at 1003, then higher. -/

def accepting (newId : Nat) : Replies where
  persisted := true
  claimed := true
  hasClientOrderId := true
  info := some sampleInfo
  latestPrice := some 1003
  permit := true
  status := some ⟨"CANCELED", true, 0⟩
  activation := fun _ => .activated
  begun := true
  place := fun _ _ => .order newId

/-- The replacement is refused for now and stays in the outbox. -/
def deferring : Replies :=
  { accepting 0 with place := fun _ _ => .nothing (some "refused") (some "cooldown") }

def chainDesk : Repricing where
  side := .sell
  priceOf := fun id => if id = 1 then 1000 else 1005
  businessMinimum := .number 5

def openOrder (orderId : Nat) : OpenOrder := ⟨orderId, 1, some 1⟩

/-- Two replacements of one chain are accepted in their passes; between them the worker gets the
replacement of another order accepted. -/
def keptChain : List Event :=
  [.pass [(openOrder 1, accepting 2), (openOrder 4, deferring)] (some 1003), .retried 4 5,
    .pass [(openOrder 2, accepting 3)] (some 1006)]

theorem kept_chain_anchored :
    (keptChain.foldl (advance chainDesk) {}).made.length = 3 ∧
    ∀ r ∈ (keptChain.foldl (advance chainDesk) {}).made,
      0 < r.price ∧ areClose r.currentPrice (chainDesk.priceOf r.first) maxProc = true :=
  ⟨by decide +kernel, repricing_anchored chainDesk keptChain (by decide +kernel)⟩

/-- The worker gets the second order accepted. -/
def retriedChain : List Event :=
  [.pass [(openOrder 1, deferring)] (some 1003), .retried 1 2,
    .pass [(openOrder 2, accepting 3)] (some 1009)]

/-- **The anchor is lost in the outbox.** The second replacement is made nine thousandths above
the price of the first order. -/
theorem retried_chain_drifts :
    ¬ ∀ (M : Repricing) (events : List Event), ∀ r ∈ (events.foldl (advance M) {}).made,
      0 < r.price ∧ areClose r.currentPrice (M.priceOf r.first) maxProc = true := by
  intro hall
  have hmade : (retriedChain.foldl (advance chainDesk) {}).made.head? =
      some ⟨⟨2, 1009, 1011009 / 1000, 1⟩, 1⟩ := by decide +kernel
  have hr := hall chainDesk retriedChain _ (List.mem_of_head? hmade)
  exact absurd hr.2 (by decide +kernel)

end TradingFleet.Orders
