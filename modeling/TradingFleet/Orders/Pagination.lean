import Mathlib.Algebra.Order.Group.Int
import Mathlib.Data.List.Infix
import Mathlib.Data.List.Pairwise
import Mathlib.Data.List.TakeDrop
import TradingFleet.Basic.Text

set_option autoImplicit false

/-! # Fetching all fills page by page

`paginate_my_trades` of `bapi_allorders.py`. The first page is selected by time, every later one
by the identifier after the last fill that was read, and the history may grow in between. What was
read is at every request a prefix of the fills since the start (`readOn`), so a short page ends
the loop with all of them (`paginateMyTrades_complete`).
-/

namespace TradingFleet.Orders

/-- A fill of `get_my_trades`, as far as the pages are selected by it. -/
structure TradeFill where
  id : ℤ
  time : ℤ
deriving DecidableEq, Repr

/-- The two requests of `get_my_trades`. -/
inductive TradesRequest where
  | byTime (startTime : ℤ) (limit : ℕ)
  | byId (fromId : ℤ) (limit : ℕ)
deriving DecidableEq, Repr

/-- What comes back: a page, `None`, or a `BinanceAPIException`. -/
inductive TradesReply where
  | page (batch : List TradeFill)
  | noPage
  | refused (code : Option ℤ) (message : String)

/-- How the loop ends: with the fills it has, or by raising. -/
inductive Pages where
  | fills (out : List TradeFill)
  | raised (message : String)
deriving DecidableEq, Repr

/-- A refusal after which the same page is asked for again. -/
def rateLimited (code : Option ℤ) (message : String) : Bool :=
  code = some (-1003) ∨ "too much request weight".toList <:+: (Text.lower message).toList

section Code

variable (client : ℕ → TradesRequest → TradesReply) (symbol : String) (startTimeMs : ℤ)
  (limit : ℕ) (strict : Bool)

/-- The request of the next page. -/
def tradesRequest (fromId : Option ℤ) : TradesRequest :=
  match fromId with
  | none => .byTime startTimeMs limit
  | some i => .byId i limit

/-- The loop, with the number of requests it has made and what it has read. -/
def pagesFrom : ℕ → ℕ → Option ℤ → List TradeFill → Option Pages
  | 0, _, _, _ => none
  | fuel + 1, k, fromId, out =>
      match client k (tradesRequest startTimeMs limit fromId) with
      | .refused code message =>
          if rateLimited code message then pagesFrom fuel (k + 1) fromId out
          else if strict then some (.raised message)
          else some (.fills out)
      | .noPage =>
          if strict then some (.raised ("Binance returned no trade page for " ++ symbol))
          else some (.fills out)
      | .page batch =>
          match batch.getLast? with
          | none => some (.fills out)
          | some last =>
              if batch.length < limit then some (.fills (out ++ batch))
              else pagesFrom fuel (k + 1) (some (last.id + 1)) (out ++ batch)

/-- `paginate_my_trades`, with a bound on the number of requests. -/
def paginateMyTrades (fuel : ℕ) : Option Pages :=
  pagesFrom client symbol startTimeMs limit strict fuel 0 none []

end Code

/-! ## A history that grows -/

/-- The fills of the exchange at each request: identifiers increase, times do not decrease, and
fills are only appended. -/
structure TradeHistory where
  fills : ℕ → List TradeFill
  grows : ∀ k, fills k <+: fills (k + 1)
  ordered : ∀ k, (fills k).Pairwise (fun a b => a.id < b.id ∧ a.time ≤ b.time)

namespace TradeHistory

variable (H : TradeHistory)

/-- `get_my_trades`: the first `limit` fills from a time or from an identifier on. -/
def client (k : ℕ) : TradesRequest → TradesReply
  | .byTime startTime limit => .page (((H.fills k).filter (startTime ≤ ·.time)).take limit)
  | .byId fromId limit => .page (((H.fills k).filter (fromId ≤ ·.id)).take limit)

/-- The fills from a time on, at a request. -/
def since (startTime : ℤ) (k : ℕ) : List TradeFill := (H.fills k).filter (startTime ≤ ·.time)

variable {H}

theorem fills_mono {j k : ℕ} (h : j ≤ k) : H.fills j <+: H.fills k := by
  induction k, h using Nat.le_induction with
  | base => exact List.prefix_refl _
  | succ k _ ih => exact ih.trans (H.grows k)

theorem since_mono (startTime : ℤ) {j k : ℕ} (h : j ≤ k) :
    H.since startTime j <+: H.since startTime k :=
  (fills_mono h).filter _

theorem since_ordered (startTime : ℤ) (k : ℕ) :
    (H.since startTime k).Pairwise (fun a b => a.id < b.id) := by
  have h : (H.since startTime k).Pairwise (fun a b => a.id < b.id ∧ a.time ≤ b.time) :=
    (H.ordered k).filter _
  exact h.imp (fun hab => hab.1)

/-- A later identifier is not of an earlier time. -/
theorem time_le_of_id_lt {k : ℕ} {a b : TradeFill} (ha : a ∈ H.fills k) (hb : b ∈ H.fills k)
    (h : a.id < b.id) : a.time ≤ b.time := by
  have hsymm : ∀ ⦃x⦄, x ∈ H.fills k → ∀ ⦃y⦄, y ∈ H.fills k →
      (x.id < y.id → x.time ≤ y.time) ∧ (y.id < x.id → y.time ≤ x.time) := by
    have hsym : Std.Symm (fun x y : TradeFill =>
        (x.id < y.id → x.time ≤ y.time) ∧ (y.id < x.id → y.time ≤ x.time)) :=
      ⟨fun _ _ hxy => ⟨hxy.2, hxy.1⟩⟩
    apply List.Pairwise.forall_of_forall
    · intro x _
      exact ⟨fun hlt => absurd hlt (lt_irrefl _), fun hlt => absurd hlt (lt_irrefl _)⟩
    · refine (H.ordered k).imp ?_
      intro x y hxy
      exact ⟨fun _ => hxy.2, fun hlt => absurd hlt (lt_asymm hxy.1)⟩
  exact (hsymm ha hb).1 h

end TradeHistory

/-! ## The next page -/

/-- After a prefix that ends in `last`, the fills with a greater identifier are the rest. -/
theorem filter_id_eq_drop {l out : List TradeFill} {last : TradeFill}
    (hl : l.Pairwise (fun a b => a.id < b.id)) (hout : out <+: l)
    (hlast : out.getLast? = some last) :
    l.filter (last.id + 1 ≤ ·.id) = l.drop out.length := by
  obtain ⟨rest, rfl⟩ := hout
  obtain ⟨init, rfl⟩ := List.getLast?_eq_some_iff.mp hlast
  rw [List.pairwise_append] at hl
  obtain ⟨hinit, -, hrest⟩ := hl
  have hnone : (init ++ [last]).filter (last.id + 1 ≤ ·.id) = [] := by
    rw [List.filter_eq_nil_iff]
    intro a ha
    have hle : a.id ≤ last.id := by
      rcases List.mem_append.mp ha with h | h
      · exact ((List.pairwise_append.mp hinit).2.2 a h last (by simp)).le
      · rw [List.mem_singleton.mp h]
    simp only [decide_eq_true_eq]
    omega
  have hall : rest.filter (last.id + 1 ≤ ·.id) = rest := by
    rw [List.filter_eq_self]
    intro a ha
    have hlt := hrest last (by simp) a ha
    simp only [decide_eq_true_eq]
    omega
  rw [List.filter_append, hnone, hall, List.nil_append, List.drop_left]

namespace TradeHistory

variable {H : TradeHistory} {startTime : ℤ} {limit k : ℕ}

/-- Of the fills after one since the start, all are since the start. -/
theorem filter_id_since {last : TradeFill} (hlast : last ∈ H.since startTime k) :
    (H.fills k).filter (last.id + 1 ≤ ·.id) =
      (H.since startTime k).filter (last.id + 1 ≤ ·.id) := by
  obtain ⟨hmem, hstart⟩ := List.mem_filter.mp hlast
  rw [since, List.filter_filter]
  apply List.filter_congr
  intro a ha
  by_cases hid : last.id + 1 ≤ a.id
  · have htime : last.time ≤ a.time := time_le_of_id_lt hmem ha (by omega)
    have hle : startTime ≤ last.time := by simpa using hstart
    simp [hid, le_trans hle htime]
  · simp [hid]

/-- Before a request, the fills read are the first ones since the start, and the cursor stands
behind the last of them. -/
structure ReadOn (H : TradeHistory) (startTime : ℤ) (k : ℕ) (fromId : Option ℤ)
    (out : List TradeFill) : Prop where
  read : out <+: H.since startTime k
  cursor : fromId = out.getLast?.map (fun last => last.id + 1)

/-- The next page: what follows the fills that were read. -/
def nextPage (H : TradeHistory) (startTime : ℤ) (limit k : ℕ) (out : List TradeFill) :
    List TradeFill :=
  ((H.since startTime k).drop out.length).take limit

variable {fromId : Option ℤ} {out : List TradeFill}

theorem nextPage_eq {rest : List TradeFill} (h : out ++ rest = H.since startTime k) :
    H.nextPage startTime limit k out = rest.take limit := by
  rw [nextPage, ← h, List.drop_left]

theorem client_nextPage (h : ReadOn H startTime k fromId out) :
    H.client k (tradesRequest startTime limit fromId) =
      .page (H.nextPage startTime limit k out) := by
  unfold nextPage
  rw [h.cursor]
  cases hlast : out.getLast? with
  | none =>
      rw [List.getLast?_eq_none_iff.mp hlast]
      rfl
  | some last =>
      have hmem : last ∈ H.since startTime k :=
        h.read.subset (List.mem_of_getLast? hlast)
      show TradesReply.page (((H.fills k).filter (last.id + 1 ≤ ·.id)).take limit) = _
      rw [filter_id_since hmem, filter_id_eq_drop (since_ordered startTime k) h.read hlast]

/-- **A page is read**: the cursor stands behind it. -/
theorem ReadOn.next (h : ReadOn H startTime k fromId out) {last : TradeFill}
    (hlast : (H.nextPage startTime limit k out).getLast? = some last) :
    ReadOn H startTime (k + 1) (some (last.id + 1))
      (out ++ H.nextPage startTime limit k out) := by
  constructor
  · obtain ⟨rest, hrest⟩ := h.read
    have hnow : out ++ rest.take limit <+: H.since startTime k := by
      rw [← hrest]
      exact (List.prefix_append_right_inj out).mpr (List.take_prefix limit rest)
    rw [nextPage_eq hrest]
    exact hnow.trans (since_mono startTime (Nat.le_succ k))
  · rw [List.getLast?_append, hlast]
    rfl

/-- A page shorter than the limit is the last one. -/
theorem ReadOn.all (h : ReadOn H startTime k fromId out)
    (hshort : (H.nextPage startTime limit k out).length < limit) :
    out ++ H.nextPage startTime limit k out = H.since startTime k := by
  obtain ⟨rest, hrest⟩ := h.read
  rw [nextPage_eq hrest, List.length_take] at hshort
  have hle : rest.length ≤ limit := by omega
  rw [nextPage_eq hrest, List.take_of_length_le hle, hrest]

/-! ## The loop -/

variable (symbol : String) (strict : Bool)

/-- One request: the loop ends with all fills since the start, or reads a full page. -/
theorem pagesFrom_succ (hlimit : 1 ≤ limit) (h : ReadOn H startTime k fromId out) (fuel : ℕ) :
    pagesFrom H.client symbol startTime limit strict (fuel + 1) k fromId out =
        some (.fills (H.since startTime k)) ∨
      ∃ last, (H.nextPage startTime limit k out).getLast? = some last ∧
        pagesFrom H.client symbol startTime limit strict (fuel + 1) k fromId out =
          pagesFrom H.client symbol startTime limit strict fuel (k + 1) (some (last.id + 1))
            (out ++ H.nextPage startTime limit k out) := by
  rw [pagesFrom, client_nextPage h]
  dsimp only
  cases hlast : (H.nextPage startTime limit k out).getLast? with
  | none =>
      left
      have hnil := List.getLast?_eq_none_iff.mp hlast
      have hshort : (H.nextPage startTime limit k out).length < limit := by
        rw [hnil, List.length_nil]
        omega
      have hall := h.all hshort
      rw [hnil, List.append_nil] at hall
      rw [hall]
  | some last =>
      by_cases hshort : (H.nextPage startTime limit k out).length < limit
      · left
        simp only [if_pos hshort]
        rw [h.all hshort]
      · right
        refine ⟨last, rfl, ?_⟩
        simp only [if_neg hshort]

/-- What the loop returns are the fills since the start, as of one of its requests. -/
theorem pagesFrom_eq (hlimit : 1 ≤ limit) {fuel : ℕ} {r : Pages}
    (h : ReadOn H startTime k fromId out)
    (hr : pagesFrom H.client symbol startTime limit strict fuel k fromId out = some r) :
    ∃ j, r = .fills (H.since startTime j) := by
  induction fuel generalizing k fromId out with
  | zero => simp [pagesFrom] at hr
  | succ fuel ih =>
      rcases pagesFrom_succ symbol strict hlimit h fuel with hend | ⟨last, hlast, hnext⟩
      · rw [hend] at hr
        exact ⟨k, (Option.some.inj hr).symm⟩
      · rw [hnext] at hr
        exact ih (h.next hlast) hr

/-- Every full page shortens what is left, so the loop ends where the history is bounded. -/
theorem pagesFrom_returns (hlimit : 1 ≤ limit) {bound fuel : ℕ}
    (hbound : ∀ j, (H.since startTime j).length ≤ bound)
    (h : ReadOn H startTime k fromId out) (hfuel : bound < out.length + fuel) :
    ∃ r, pagesFrom H.client symbol startTime limit strict fuel k fromId out = some r := by
  induction fuel generalizing k fromId out with
  | zero =>
      have hle := h.read.length_le
      have hk := hbound k
      omega
  | succ fuel ih =>
      rcases pagesFrom_succ symbol strict hlimit h fuel with hend | ⟨last, hlast, hnext⟩
      · exact ⟨_, hend⟩
      · rw [hnext]
        apply ih (h.next hlast)
        have hpos : 0 < (H.nextPage startTime limit k out).length :=
          List.length_pos_of_mem (List.mem_of_getLast? hlast)
        rw [List.length_append]
        omega

/-- A history that stops growing is bounded by what it stops at. -/
theorem since_length_le {K : ℕ} (hstop : ∀ j, K ≤ j → H.fills j = H.fills K) (j : ℕ) :
    (H.since startTime j).length ≤ (H.since startTime K).length := by
  rcases le_total j K with hle | hle
  · exact (since_mono startTime hle).length_le
  · rw [since, hstop j hle]
    exact le_refl _

end TradeHistory

open TradeHistory in
/-- **Trade pagination is complete.** Once the history stops growing the loop ends, after at most
one request more than there are fills since the start. What it returns begins with all of these as
of the first request, in order and each once; it is exactly the fills since the start as of one
of its requests. -/
theorem paginateMyTrades_complete (H : TradeHistory) (symbol : String) (startTime : ℤ)
    {limit : ℕ} (hlimit : 1 ≤ limit) (strict : Bool) :
    (∀ K, (∀ j, K ≤ j → H.fills j = H.fills K) →
      ∀ fuel, (H.since startTime K).length < fuel →
        ∃ out, paginateMyTrades H.client symbol startTime limit strict fuel =
          some (.fills out)) ∧
    ∀ fuel r, paginateMyTrades H.client symbol startTime limit strict fuel = some r →
      ∃ out, r = .fills out ∧ H.since startTime 0 <+: out ∧
        out.Pairwise (fun a b => a.id < b.id) ∧ ∃ j, out = H.since startTime j := by
  have hstart : ReadOn H startTime 0 none [] := ⟨List.nil_prefix, rfl⟩
  constructor
  · intro K hstop fuel hfuel
    have henough : (H.since startTime K).length < ([] : List TradeFill).length + fuel := by
      simpa using hfuel
    obtain ⟨r, hr⟩ :=
      pagesFrom_returns symbol strict hlimit (since_length_le hstop) hstart henough
    obtain ⟨j, rfl⟩ := pagesFrom_eq symbol strict hlimit hstart hr
    exact ⟨_, hr⟩
  · intro fuel r hr
    obtain ⟨j, rfl⟩ := pagesFrom_eq symbol strict hlimit hstart hr
    exact ⟨_, rfl, since_mono startTime (Nat.zero_le j), since_ordered startTime j, j, rfl⟩

/-- Three fills, and a fourth that is appended after the first page. -/
def growingHistory : TradeHistory where
  fills k := if k = 0 then [⟨1, 10⟩, ⟨2, 20⟩, ⟨3, 20⟩] else [⟨1, 10⟩, ⟨2, 20⟩, ⟨3, 20⟩, ⟨7, 30⟩]
  grows k := by
    cases k with
    | zero => exact ⟨[⟨7, 30⟩], rfl⟩
    | succ k => exact List.prefix_refl _
  ordered k := by
    split <;> decide

/-- With pages of two fills, the fills since time 20 come on two pages. -/
theorem growing_history_paginated :
    (∃ out, paginateMyTrades growingHistory.client "TAOUSDC" 20 2 true 4 = some (.fills out)) ∧
      ∃ out, (.fills [⟨2, 20⟩, ⟨3, 20⟩, ⟨7, 30⟩] : Pages) = .fills out ∧
        growingHistory.since 20 0 <+: out := by
  have h := @paginateMyTrades_complete growingHistory "TAOUSDC" 20 2 (by decide) true
  refine ⟨h.1 1 ?_ 4 (by decide), ?_⟩
  · intro j hj
    show (if j = 0 then _ else _) = _
    rw [if_neg (by omega)]
    rfl
  · obtain ⟨out, hout, hfirst, -⟩ := h.2 4 (.fills [⟨2, 20⟩, ⟨3, 20⟩, ⟨7, 30⟩]) (by decide)
    exact ⟨out, hout, hfirst⟩

end TradingFleet.Orders
